import Inlay.Dump.Description
import Inlay.Proofs.Sight.Call
import Inlay.Proofs.Sight.Shown

/-! Dumps: a value and what is seen of it are described alike. The names of their parts are values
too, but only the text of a name is ever written. -/

namespace Inlay

variable {σ τ : Type} {s : Sight} {R : World σ → World τ → Prop} {host : Host σ} {host' : Host τ}

namespace Value

@[simp] theorem toCharacter_seen (v : Value) : (v.seen s).toCharacter = v.toCharacter := by
  have hh := checkHashable_seen (s := s) v
  have ht := typeName_seen (s := s) v
  have he : ((v.seen s).checkHashable >>= fun _ => throw (.notCharacter (v.seen s).typeName) :
      Except Fault Char) = v.checkHashable >>= fun _ => throw (.notCharacter v.typeName) := by
    rw [hh, ht]
  cases v with
  | text | bytes => rfl
  | _ => exact he

theorem toCharacters_seen : ∀ vs : List Value, toCharacters (vs.map (seen s)) = toCharacters vs
  | [] => rfl
  | [v] => by simp only [List.map_cons, List.map_nil, toCharacters, toCharacter_seen]
  | v :: w :: rest => by
    have hr := toCharacters_seen rest
    have hw := toCharacters_seen (w :: rest)
    rw [List.map_cons] at hw
    rw [List.map_cons, List.map_cons, toCharacters, toCharacters, toCharacter_seen, hr, hw]

def elementColumns (v : Value) : Except Fault Nat := do
  if (← v.size) < keptLength then v.checkHashable
  match ← v.elements with
  | [] => v.size
  | items => return Text.width (String.ofList (← toCharacters items))

theorem elementColumns_seen (v : Value) : (v.seen s).elementColumns = v.elementColumns := by
  rw [elementColumns, elementColumns, size_seen, checkHashable_seen, elements_seen]
  cases v.elements with
  | error f => rfl
  | ok items =>
    cases items with
    | nil => rfl
    | cons w rest =>
      have hc := toCharacters_seen (s := s) (w :: rest)
      have hb : ∀ (vs : List Value) (next : List Value → Except Fault Nat),
          (Except.ok vs >>= next) = next vs := fun _ _ => rfl
      rw [List.map_cons] at hc
      simp only [Except.map_ok, List.map_cons, hb, hc]

@[simp] theorem columns_seen (v : Value) : (v.seen s).columns = v.columns := by
  have he := elementColumns_seen (s := s) v
  cases v with
  | text | bytes | range => rfl
  | _ => exact he

end Value

namespace Label

def seen (s : Sight) (l : Label) : Label := ⟨l.name.seen s, l.separator⟩

@[simp] theorem before_seen (l : Label) (opening : String) :
    (l.seen s).before opening = l.before opening := by
  rw [before, before, seen, Value.truth_seen, Value.formatted_seen]

end Label

namespace Token

def seen (s : Sight) : Token → Token
  | .text t => .text t
  | .label l => .label (l.seen s)

theorem fit_seen (width : Nat) (tokens : List Token) (taken : Nat) :
    fit width taken (tokens.map (seen s)) = fit width taken tokens := by
  induction tokens generalizing taken with
  | nil => rfl
  | cons t rest ih =>
    cases t with
    | text t => simp only [List.map_cons, seen, fit, ih]
    | label l =>
      simp only [List.map_cons, seen, Label.seen, fit, ih, Value.truth_seen, Value.columns_seen]

theorem values_seen (tokens : List Token) :
    values (tokens.map (seen s)) = (List.map (Value.seen s)) <$> values tokens := by
  induction tokens with
  | nil => rfl
  | cons t rest ih =>
    cases t with
    | text t =>
      rw [List.map_cons, seen, values, values, ih]
      cases values rest <;> rfl
    | label l =>
      rw [List.map_cons, seen, values, values, ih, Label.seen, Value.truth_seen]
      cases l.name.truth with
      | error f => rfl
      | ok b => cases b <;> cases values rest <;> rfl

theorem joinFrom_seen (vs : List Value) (place : Nat) :
    joinFrom place (vs.map (Value.seen s)) = joinFrom place vs := by
  induction vs generalizing place with
  | nil => rfl
  | cons v rest ih =>
    have ht := Value.typeName_seen (s := s) v
    have he : (Except.error (.notText place (v.seen s).typeName) : Except Fault String) =
        .error (.notText place v.typeName) := by rw [ht]
    cases v with
    | text t => simp only [List.map_cons, Value.seen, joinFrom, ih]
    | _ => exact he

theorem join_seen (tokens : List Token) : join (tokens.map (seen s)) = join tokens := by
  rw [join, join, values_seen]
  cases values tokens with
  | error f => rfl
  | ok vs => exact joinFrom_seen vs 0

end Token

namespace Dump

mutual

def seen (s : Sight) : Dump → Dump
  | .leaf text => .leaf text
  | .branch opening closing tuple parts => .branch opening closing tuple (seenParts s parts)

def seenParts (s : Sight) : List (Label × Dump) → List (Label × Dump)
  | [] => []
  | (label, d) :: rest => (label.seen s, seen s d) :: seenParts s rest

end

theorem length_seenParts (parts : List (Label × Dump)) :
    (seenParts s parts).length = parts.length := by
  induction parts with
  | nil => rfl
  | cons part rest ih => rw [seenParts, List.length_cons, List.length_cons, ih]

theorem isEmpty_seenParts (parts : List (Label × Dump)) :
    (seenParts s parts).isEmpty = parts.isEmpty := by
  cases parts <;> rfl

theorem partTokens_cons (label : Label) (d : Dump) {parts : List (Label × Dump)}
    (h : parts ≠ []) :
    partTokens ((label, d) :: parts) =
      .label label :: tokens d ++ .text ", " :: partTokens parts := by
  cases parts with
  | nil => exact absurd rfl h
  | cons part rest => rfl

mutual

theorem tokens_seen : ∀ d : Dump, (d.seen s).tokens = d.tokens.map (Token.seen s)
  | .leaf text => by
    rw [seen, tokens]
    split <;> rfl
  | .branch opening closing tuple parts => by
    rw [seen, tokens, tokens, partTokens_seen parts, length_seenParts]
    split <;> simp [Token.seen]

theorem partTokens_seen : ∀ parts : List (Label × Dump),
    partTokens (seenParts s parts) = (partTokens parts).map (Token.seen s)
  | [] => rfl
  | [(label, d)] => by
    rw [seenParts, seenParts, partTokens, partTokens, tokens_seen d]
    rfl
  | (label, d) :: part :: rest => by
    rw [seenParts, partTokens_cons _ _ (by simp [seenParts]), partTokens_cons _ _ (by simp),
      tokens_seen d, partTokens_seen (part :: rest)]
    simp [Token.seen]

end

def Line.seen (s : Sight) (l : Line) : Line := { l with tokens := l.tokens.map (Token.seen s) }

theorem Line.text_seen (l : Line) : (l.seen s).text = l.text := by
  rw [Line.text, Line.text, Line.seen, Token.join_seen]

mutual

theorem lines_seen : ∀ (d : Dump) (depth : Nat) (label : Label) (suffix : Suffix),
    lines depth (label.seen s) suffix (d.seen s) =
      (List.map (Line.seen s)) <$> lines depth label suffix d
  | .leaf text, depth, label, suffix => by
    have ht := tokens_seen (s := s) (.leaf text)
    rw [seen] at ht
    rw [seen, lines, lines]
    refine congrArg Except.ok ?_
    simp [Line.seen, Token.seen, ← ht]
  | .branch opening closing tuple parts, depth, label, suffix => by
    have ht := tokens_seen (s := s) (.branch opening closing tuple parts)
    have hw : Token.label (label.seen s) ::
          (tokens (.branch opening closing tuple parts)).map (Token.seen s) =
        (Token.label label :: tokens (.branch opening closing tuple parts)).map (Token.seen s) :=
      rfl
    rw [seen] at ht
    rw [seen, lines, lines, ht, hw, Token.fit_seen, Label.before_seen, length_seenParts,
      partLines_seen parts]
    cases Token.fit lineWidth (depth + suffix.width)
      (Token.label label :: tokens (.branch opening closing tuple parts)) with
    | error f => rfl
    | ok b =>
      cases b with
      | true => rfl
      | false =>
        cases label.before opening with
        | error f => rfl
        | ok opened =>
          cases partLines (depth + indentation) (tuple && parts.length == 1) parts with
          | error f => rfl
          | ok inner =>
            refine congrArg Except.ok ?_
            simp [Line.seen, Token.seen]

theorem partLines_seen : ∀ (parts : List (Label × Dump)) (depth : Nat) (single : Bool),
    partLines depth single (seenParts s parts) =
      (List.map (Line.seen s)) <$> partLines depth single parts
  | [], depth, single => rfl
  | (label, d) :: rest, depth, single => by
    rw [seenParts, partLines, partLines, lines_seen d, partLines_seen rest, isEmpty_seenParts]
    cases lines depth label (.part single rest.isEmpty) d with
    | error f => rfl
    | ok ls =>
      cases partLines depth single rest with
      | error f => rfl
      | ok more => exact congrArg Except.ok (List.map_append).symm

end

theorem text_seen (d : Dump) : (d.seen s).text = d.text := by
  have hl : lines 0 .none .none (d.seen s) = (List.map (Line.seen s)) <$> lines 0 .none .none d :=
    lines_seen d 0 .none .none
  rw [text, text, hl]
  cases lines 0 .none .none d with
  | error f => rfl
  | ok ls =>
    have hm : (ls.map (Line.seen s)).mapM Line.text = ls.mapM Line.text := by
      rw [List.mapM_map]
      exact congrArg (ls.mapM ·) (funext Line.text_seen)
    change (do return String.intercalate "\n" (← (ls.map (Line.seen s)).mapM Line.text)) = _
    rw [hm]
    rfl

theorem ofParts_seen (opening closing : String) (tuple : Bool) (parts : List (Label × Dump)) :
    (ofParts opening closing tuple parts).seen s =
      ofParts opening closing tuple (seenParts s parts) := by
  rw [ofParts, ofParts, isEmpty_seenParts]
  split <;> rfl

namespace Part

def seen (s : Sight) (p : Part) : Part := ⟨p.name.map (Value.seen s), p.value.seen s⟩

@[simp] theorem label_seen (p : Part) : (p.seen s).label = p.label.seen s := by
  obtain ⟨name, v⟩ := p
  cases name <;> rfl

theorem read?_seen (v : Value) : read? (v.seen s) = (read? v).map (Value.seen s) := by
  cases v with
  | tuple items =>
    rcases items with _ | ⟨a, _ | ⟨b, _ | ⟨c, _ | ⟨d, rest⟩⟩⟩⟩
    · rfl
    · rfl
    · rfl
    · have he := Value.equals_seen (s := s) c b
      change (if (c.seen s).equals (b.seen s) then none else some _) =
        Option.map _ (if c.equals b then none else some _)
      rw [he]
      split <;> rfl
    · rfl
  | _ => rfl

theorem ofValue_seen (v : Value) : ofValue (v.seen s) = seen s <$> ofValue v := by
  cases v with
  | tuple items =>
    rcases items with _ | ⟨a, _ | ⟨b, _ | ⟨c, rest⟩⟩⟩
    · rfl
    · rfl
    · rfl
    · have hl : (Value.seenItems s (a :: b :: c :: rest)).length =
          (a :: b :: c :: rest).length := by
        rw [Value.seenItems_eq_map, List.length_map]
      exact congrArg (fun n => Except.error (Fault.notPair n)) hl
  | _ => rfl

theorem guards_read? {v w : Value} (h : s.Guards v) (hw : read? v = some w) : s.Guards w := by
  cases v with
  | tuple items =>
    have hi := Sight.Guards.tuple_iff.1 h
    rcases items with _ | ⟨a, _ | ⟨b, _ | ⟨c, _ | ⟨d, rest⟩⟩⟩⟩
    · cases hw
    · cases hw
      exact hi w (by simp)
    · cases hw
      exact h
    · change (if c.equals b then none else some (Value.tuple [a, b])) = some w at hw
      split at hw
      · cases hw
      · cases hw
        exact Sight.Guards.tuple_iff.2 fun u hu => hi u (by simp at hu ⊢; tauto)
    · cases hw
  | _ =>
    cases hw
    exact h

theorem guards_ofValue {v : Value} {p : Part} (h : s.Guards v) (hp : ofValue v = .ok p) :
    s.Guards p.value := by
  cases v with
  | tuple items =>
    have hi := Sight.Guards.tuple_iff.1 h
    rcases items with _ | ⟨a, _ | ⟨b, _ | ⟨c, rest⟩⟩⟩
    · cases hp
    · cases hp
    · cases hp
      exact hi b (by simp)
    · cases hp
  | _ =>
    cases hp
    exact h

theorem revealsAll_read? {items items' : List Value} (h : s.RevealsAll items items') :
    s.RevealsAll (items.filterMap read?) (items'.filterMap read?) := by
  obtain ⟨rfl, hg⟩ := h
  constructor
  · rw [List.filterMap_map, List.map_filterMap]
    exact congrArg (items.filterMap ·) (funext read?_seen)
  · intro v hv
    obtain ⟨w, hw, hr⟩ := List.mem_filterMap.1 hv
    exact guards_read? (hg w hw) hr

end Part

section

variable {ask : Value → Act (World σ) Dump} {ask' : Value → Act (World τ) Dump}

mutual

theorem ofShown_matches
    (ha : ∀ v, s.Guards (v.seen s) →
      Act.Matches R (fun d d' => d' = d.seen s) (ask v) (ask' (v.seen s))) :
    ∀ x : Shown, x.Guarded s →
      Act.Matches R (fun d d' => d' = d.seen s) (ofShown ask x) (ofShown ask' (x.seen s))
  | .leaf v, _ => .pure (by rw [Value.literalOrFault_seen, seen])
  | .list items, h | .tuple items, h =>
    (ofItems_matches ha items h).map fun _ _ he => by rw [ofParts_seen, he]
  | .mapping .readOnly entries, h | .mapping .plain entries, h | .mapping .custom entries, h =>
    (ofEntries_matches ha entries h).map fun _ _ he => by rw [ofParts_seen, he]
  | .handle _ properties, h =>
    (ofProperties_matches ha properties h).map fun _ _ he => by rw [ofParts_seen, he]
  | .unreadable _, _ => .throw _
  | .asked v, h => ha v h

theorem ofItems_matches
    (ha : ∀ v, s.Guards (v.seen s) →
      Act.Matches R (fun d d' => d' = d.seen s) (ask v) (ask' (v.seen s))) :
    ∀ items : List Shown, Shown.ItemsGuarded s items →
      Act.Matches R (fun parts parts' => parts' = seenParts s parts) (ofItems ask items)
        (ofItems ask' (Shown.seenItems s items))
  | [], _ => .pure rfl
  | x :: rest, h => by
    refine (ofShown_matches ha x h.1).bind ?_
    rintro d _ rfl
    refine (ofItems_matches ha rest h.2).bind ?_
    rintro parts _ rfl
    exact .pure rfl

theorem ofEntries_matches
    (ha : ∀ v, s.Guards (v.seen s) →
      Act.Matches R (fun d d' => d' = d.seen s) (ask v) (ask' (v.seen s))) :
    ∀ entries : List (Value × Shown), Shown.EntriesGuarded s entries →
      Act.Matches R (fun parts parts' => parts' = seenParts s parts) (ofEntries ask entries)
        (ofEntries ask' (Shown.seenEntries s entries))
  | [], _ => .pure rfl
  | (key, x) :: rest, h => by
    refine (ofShown_matches ha x h.1).bind ?_
    rintro d _ rfl
    refine (ofEntries_matches ha rest h.2).bind ?_
    rintro parts _ rfl
    refine .pure ?_
    rw [Value.literalOrFault_seen]
    rfl

theorem ofProperties_matches
    (ha : ∀ v, s.Guards (v.seen s) →
      Act.Matches R (fun d d' => d' = d.seen s) (ask v) (ask' (v.seen s))) :
    ∀ properties : List (String × Shown), Shown.PropertiesGuarded s properties →
      Act.Matches R (fun parts parts' => parts' = seenParts s parts) (ofProperties ask properties)
        (ofProperties ask' (Shown.seenProperties s properties))
  | [], _ => .pure rfl
  | (name, x) :: rest, h => by
    refine (ofShown_matches ha x h.1).bind ?_
    rintro d _ rfl
    refine (ofProperties_matches ha rest h.2).bind ?_
    rintro parts _ rfl
    exact .pure rfl

end

end

theorem eq_seenParts {parts parts' : List (Label × Dump)}
    (h : List.Forall₂ (fun p p' => p' = (p.1.seen s, p.2.seen s)) parts parts') :
    parts' = seenParts s parts := by
  induction h with
  | nil => rfl
  | cons he _ ih => rw [he, ih, seenParts]

theorem ofValue_matches (h : host.Mirrors host' s R) (depth : Nat) {v : Value}
    (hv : s.Guards (v.seen s)) :
    Act.Matches R (fun d d' => d' = d.seen s) (ofValue host depth v)
      (ofValue host' depth (v.seen s)) := by
  induction depth generalizing v with
  | zero => exact .throw _
  | succ depth ih =>
    obtain ⟨he, hg⟩ := Value.shown_seen v hv
    rw [ofValue, ofValue, he]
    refine ofShown_matches (fun u hu => ?_) _ hg
    refine (Handle.ownParts_matches (Value.call_callers h _) hu).bind fun found found' hf => ?_
    cases hf with
    | none =>
      refine .bindSame (Value.checkClass_seen u) fun _ _ => .pure ?_
      rw [Value.literalOrFault_seen, seen]
    | some hp =>
      refine .bindSame (Value.readClass_seen u) fun _ _ => ?_
      obtain ⟨hparts, hguards⟩ := Part.revealsAll_read? hp
      rw [hparts, Value.typeName_seen]
      refine (Act.Matches.mapM (W := fun p p' => p' = (p.1.seen s, p.2.seen s)) _
        fun item hi => ?_).bind fun parts parts' he => .pure ?_
      · have hgi : s.Guards (item.seen s) := hguards _ (hparts ▸ List.mem_map_of_mem hi)
        refine .bindExcept (Part.ofValue_seen item) fun p hpart => ?_
        have hgp : s.Guards (p.value.seen s) := by
          have ho : Part.ofValue (item.seen s) = .ok (p.seen s) := by
            rw [Part.ofValue_seen, hpart]
            rfl
          exact Part.guards_ofValue hgi ho
        rw [Part.label_seen]
        refine (ih hgp).bind ?_
        rintro d _ rfl
        exact .pure rfl
      · rw [ofParts_seen, eq_seenParts he]

end Dump

namespace Value

theorem dump_matches (h : host.Mirrors host' s R) {v : Value} (hv : s.Guards (v.seen s)) :
    Act.Matches R Eq (v.dump host) ((v.seen s).dump host') := by
  refine (Dump.ofValue_matches h callCap hv).bind ?_
  rintro d _ rfl
  exact .ofSame (Dump.text_seen d) fun _ _ => rfl

end Value

end Inlay
