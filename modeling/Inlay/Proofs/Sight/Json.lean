import Inlay.Json.Encoding
import Inlay.Proofs.Sight.Call
import Inlay.Proofs.Sight.Shown

/-! JSON documents: a value and what is seen of it are encoded alike. -/

namespace Inlay.Json

variable {σ τ : Type} {s : Sight} {R : World σ → World τ → Prop} {host : Host σ} {host' : Host τ}

theorem ofLeaf_seen (report : Report) (room : Nat) (v : Value) :
    ofLeaf report room (v.seen s) = ofLeaf report room v := by
  have ht := Value.typeName_seen (s := s) v
  have he : (Except.error (.notEncodable (v.seen s).typeName) : Except Fault Json) =
      .error (.notEncodable v.typeName) := by rw [ht]
  cases v with
  | null | bool | int | float | text | range => rfl
  | _ => exact he

theorem checkForm_seen (report : Report) (v : Value) :
    checkForm report (v.seen s) = checkForm report v := by
  cases report with
  | silent => rfl
  | shown => exact Value.checkClass_seen v

def refuseKey (report : Report) (v : Value) : Except Fault String :=
  match report with
  | .silent => .error (.keyNotEncodable (Fault.cut 100 v.typeName))
  | .shown => do
    v.readClass.mapError report.ofReading
    throw (.keyNotEncodable v.typeName)

theorem memberName_seen (report : Report) (v : Value) :
    memberName report (v.seen s) = memberName report v := by
  have he : refuseKey report (v.seen s) = refuseKey report v := by
    cases report <;> simp only [refuseKey, Value.typeName_seen, Value.readClass_seen]
  cases v with
  | null | bool | int | float | text => rfl
  | _ => exact he

theorem descend_matches {α : Type} {levels room : Nat} {act : Nat → Act (World σ) α}
    {act' : Nat → Act (World τ) α} (h : ∀ room, Act.Matches R Eq (act room) (act' room)) :
    Act.Matches R Eq (descend levels room act) (descend levels room act') :=
  .ite (fun _ => h _) fun _ => .throw _

section

variable {report : Report} {ask : Nat → Value → Act (World σ) Json}
  {ask' : Nat → Value → Act (World τ) Json}

mutual

theorem ofShown_matches
    (ha : ∀ room v, s.Guards (v.seen s) → Act.Matches R Eq (ask room v) (ask' room (v.seen s))) :
    ∀ (room : Nat) (x : Shown), x.Guarded s →
      Act.Matches R Eq (ofShown report ask room x) (ofShown report ask' room (x.seen s))
  | room, .leaf v, _ => .ofSame (ofLeaf_seen report room v) fun _ _ => rfl
  | _, .list items, h | _, .tuple items, h =>
    descend_matches fun room => (ofItems_matches ha room items h).map fun _ _ he => congrArg _ he
  | _, .mapping _ entries, h =>
    descend_matches fun room =>
      (ofEntries_matches ha room entries h).map fun _ _ he => congrArg _ he
  | _, .handle _ properties, h => descend_matches fun room =>
    (ofProperties_matches ha room properties h).map fun _ _ he => congrArg _ he
  | _, .unreadable _, _ => .throw _
  | room, .asked v, h => ha room v h

theorem ofItems_matches
    (ha : ∀ room v, s.Guards (v.seen s) → Act.Matches R Eq (ask room v) (ask' room (v.seen s))) :
    ∀ (room : Nat) (items : List Shown), Shown.ItemsGuarded s items →
      Act.Matches R Eq (ofItems report ask room items)
        (ofItems report ask' room (Shown.seenItems s items))
  | _, [], _ => .pure rfl
  | room, x :: rest, h => by
    refine (ofShown_matches ha room x h.1).bind ?_
    rintro j _ rfl
    refine (ofItems_matches ha room rest h.2).bind ?_
    rintro js _ rfl
    exact .pure rfl

theorem ofEntries_matches
    (ha : ∀ room v, s.Guards (v.seen s) → Act.Matches R Eq (ask room v) (ask' room (v.seen s))) :
    ∀ (room : Nat) (entries : List (Value × Shown)), Shown.EntriesGuarded s entries →
      Act.Matches R Eq (ofEntries report ask room entries)
        (ofEntries report ask' room (Shown.seenEntries s entries))
  | _, [], _ => .pure rfl
  | room, (key, x) :: rest, h => by
    refine .bindSame (memberName_seen report key) fun name _ => ?_
    refine (ofShown_matches ha room x h.1).bind ?_
    rintro j _ rfl
    refine (ofEntries_matches ha room rest h.2).bind ?_
    rintro js _ rfl
    exact .pure rfl

theorem ofProperties_matches
    (ha : ∀ room v, s.Guards (v.seen s) → Act.Matches R Eq (ask room v) (ask' room (v.seen s))) :
    ∀ (room : Nat) (properties : List (String × Shown)), Shown.PropertiesGuarded s properties →
      Act.Matches R Eq (ofProperties report ask room properties)
        (ofProperties report ask' room (Shown.seenProperties s properties))
  | _, [], _ => .pure rfl
  | room, (name, x) :: rest, h => by
    refine (ofShown_matches ha room x h.1).bind ?_
    rintro j _ rfl
    refine (ofProperties_matches ha room rest h.2).bind ?_
    rintro js _ rfl
    exact .pure rfl

end

end

theorem askExports_matches (h : host.Mirrors host' s R) (report : Report) (within : List Nat)
    {v : Value} (hv : s.Guards (v.seen s)) :
    Act.Matches R s.Reveals (askExports host report within v)
      (askExports host' report within (v.seen s)) := by
  have ha : (v.seen s).isAmong within = v.isAmong within := by
    rw [Value.isAmong, Value.isAmong, Value.id_seen]
  refine .bindSame (checkForm_seen report v) fun _ _ => ?_
  rw [ha, Value.kind_seen]
  refine .ite (fun _ => .throw _) fun _ => .ite (fun _ => ?_) fun _ => ?_
  · refine .bindSame (Value.readClass_seen v) fun _ _ => ?_
    rw [Value.typeName_seen]
    exact .throw _
  · exact v.ask_matches h (by decide) hv (List.forall_mem_nil _)

theorem ofValue_matches (h : host.Mirrors host' s R) (report : Report) (within : List Nat)
    (depth room : Nat) {v : Value} (hv : s.Guards (v.seen s)) :
    Act.Matches R Eq (ofValue host report within depth room v)
      (ofValue host' report within depth room (v.seen s)) := by
  induction depth generalizing within room v with
  | zero => exact .throw _
  | succ depth ih =>
    obtain ⟨he, hg⟩ := Value.shown_seen v hv
    rw [ofValue, ofValue, he]
    refine ofShown_matches (fun room u hu => ?_) room _ hg
    refine ((askExports_matches h report within hu).mapFault _).bind ?_
    rintro exported _ ⟨rfl, hx⟩
    rw [Value.id_seen]
    exact descend_matches fun room => ih _ room hx

theorem encode_matches (h : host.Mirrors host' s R) (room : Nat) (indent : Option Int) {v : Value}
    (hv : s.Guards (v.seen s)) :
    Act.Matches R Eq (encode host room indent v) (encode host' room indent (v.seen s)) := by
  refine .bindSame (Value.checkClass_seen v) fun _ _ => ?_
  cases indent with
  | none =>
    refine (ofValue_matches h _ _ _ _ hv).bind ?_
    rintro j _ rfl
    exact .pure rfl
  | some width =>
    refine (ofValue_matches h _ _ _ _ hv).bind ?_
    rintro j _ rfl
    exact .pure rfl

end Inlay.Json
