import Inlay.Host.Recipe
import Inlay.Proofs.Handle.Answer
import Inlay.Proofs.Json.Alike
import Inlay.Proofs.Walk.Encoding
import Mathlib.Logic.Relation

/-! Encoding is faithful: what a value is encoded as, in one line or indented, stands for the value,
and a value has no text exactly if one of its parts has none. -/

namespace Inlay

variable {σ : Type} {host : Host σ} {P : World σ → Prop}

namespace Value

def keyText? : Value → Option String
  | .text s => some s
  | .int n =>
    if n.natAbs < 10 ^ Number.digitCap then some (String.ofList (Number.intText n)) else none
  | .float x => if x.isFinite then some x.text else none
  | .bool b => some (if b then "true" else "false")
  | .null => some "null"
  | _ => none

/-- Values that have no text by themselves: integers of too many digits, floats that are not finite,
mappings with a key that has no name, and all that is of no other kind. -/
def Barred : Value → Prop
  | .int n => 10 ^ Number.digitCap ≤ n.natAbs
  | .float x => x.isFinite = false
  | .mapping _ entries => ∃ e ∈ entries, e.1.keyText? = none
  | v => v.kind = .other

def Exports (host : Host σ) (P : World σ → Prop) (h x : Value) : Prop :=
  h.kind = .object ∧ (h.ask host .exports []).ComesTo P (.ok x)

inductive Part (host : Host σ) (P : World σ → Prop) : Value → Value → Prop
  | list {items : List Value} {u : Value} : u ∈ items → Part host P (.list items) u
  | tuple {items : List Value} {u : Value} : u ∈ items → Part host P (.tuple items) u
  | range {r : Range} {n : Int} : n ∈ r.toList → Part host P (.range r) (.int n)
  | entry {form : MappingForm} {entries : List (Value × Value)} {e : Value × Value} :
    e ∈ entries → Part host P (.mapping form entries) e.2
  | exported {h x : Value} : Exports host P h x → Part host P h x

def Blocked (host : Host σ) (P : World σ → Prop) (v : Value) : Prop :=
  ∃ u, Relation.ReflTransGen (Part host P) v u ∧ u.Barred

/-- The document that stands for a value: sequences are arrays, mappings are objects, in order, a
handle is what it exports, and everything else is itself. -/
inductive Denotes (host : Host σ) (P : World σ → Prop) : Value → Json → Prop
  | null : Denotes host P .null .null
  | bool (b : Bool) : Denotes host P (.bool b) (.bool b)
  | int (n : Int) : Denotes host P (.int n) (.int n)
  | float (x : Binary64) : Denotes host P (.float x) (.float x)
  | text (s : String) : Denotes host P (.text s) (.text s)
  | list {items : List Value} {js : List Json} : List.Forall₂ (Denotes host P) items js →
    Denotes host P (.list items) (.array js)
  | tuple {items : List Value} {js : List Json} : List.Forall₂ (Denotes host P) items js →
    Denotes host P (.tuple items) (.array js)
  | range (r : Range) : Denotes host P (.range r) (.array (r.toList.map .int))
  | mapping {form : MappingForm} {entries : List (Value × Value)} {ms : List (String × Json)} :
    entries.map (·.1.keyText?) = ms.map (some ·.1) →
    List.Forall₂ (Denotes host P) (entries.map (·.2)) (ms.map (·.2)) →
    Denotes host P (.mapping form entries) (.object ms)
  | handle {h x : Value} {j : Json} : Exports host P h x → Denotes host P x j → Denotes host P h j

/-- Values that can be encoded without a fault that passes on: their ranges can be listed and the
properties that they expose read, and they nest only so many levels deep. Objects that have to be
asked let their classes be read and export without a fault, always the same, and none is within
itself. -/
inductive Steady (host : Host σ) (P : World σ → Prop) : List Nat → Nat → Value → Prop
  | scalar {within : List Nat} {levels : Nat} {v : Value} :
    v.kind = .null ∨ v.kind = .bool ∨ v.kind = .number ∨ v.kind = .string →
    Steady host P within levels v
  | other {within : List Nat} {levels : Nat} {v : Value} : v.kind = .other →
    v.readClass = .ok () → Steady host P within levels v
  | list {within : List Nat} {levels : Nat} {items : List Value} :
    (∀ v ∈ items, Steady host P within levels v) → Steady host P within (levels + 1) (.list items)
  | tuple {within : List Nat} {levels : Nat} {items : List Value} :
    (∀ v ∈ items, Steady host P within levels v) → Steady host P within (levels + 1) (.tuple items)
  | range {within : List Nat} {levels : Nat} {r : Range} : r.length < Range.countCap →
    Steady host P within (levels + 3) (.range r)
  | mapping {within : List Nat} {levels : Nat} {form : MappingForm}
    {entries : List (Value × Value)} : (∀ e ∈ entries, e.1.readClass = .ok ()) →
    (∀ e ∈ entries, Steady host P within levels e.2) →
    Steady host P within (levels + Json.Report.shown.levels form) (.mapping form entries)
  | handle {within : List Nat} {levels : Nat} {h : Value} {t : Table Value} : h.kind = .object →
    h.shown ≠ .asked h → h.exposed (.ok (Handle.target h)) = .ok t →
    Steady host P within levels (.ofTable t) → Steady host P within (levels + 2) h
  | asked {within : List Nat} {levels : Nat} {h x : Value} : Exports host P h x →
    h.checkClass = .ok () → h.shown = .asked h → h.isAmong within = false →
    Steady host P (h.id :: within) levels x → Steady host P within (levels + 2) h

theorem blocked_iff {v : Value} :
    v.Blocked host P ↔ v.Barred ∨ ∃ u, Part host P v u ∧ u.Blocked host P := by
  constructor
  · rintro ⟨u, hr, hu⟩
    rcases hr.cases_head with rfl | ⟨x, hx, hr⟩
    · exact .inl hu
    · exact .inr ⟨x, hx, u, hr, hu⟩
  · rintro (hv | ⟨x, hx, u, hr, hu⟩)
    · exact ⟨v, .refl, hv⟩
    · exact ⟨u, hr.head hx, hu⟩

theorem blocked_iff_of_items {v : Value} {items : List Value} (hv : ¬v.Barred)
    (hp : ∀ u, Part host P v u ↔ u ∈ items) :
    v.Blocked host P ↔ ∃ u ∈ items, u.Blocked host P := by
  rw [blocked_iff, or_iff_right hv]
  exact exists_congr fun u => and_congr_left' (hp u)

theorem blocked_mapping {form : MappingForm} {entries : List (Value × Value)} :
    (Value.mapping form entries).Blocked host P ↔
      ∃ e ∈ entries, e.1.keyText? = none ∨ e.2.Blocked host P := by
  rw [blocked_iff]
  constructor
  · rintro (⟨e, he, hk⟩ | ⟨u, hp, hu⟩)
    · exact ⟨e, he, .inl hk⟩
    · cases hp with
      | @entry _ _ e he => exact ⟨e, he, .inr hu⟩
      | exported hx => cases hx.1
  · rintro ⟨e, he, hk | hb⟩
    · exact .inl ⟨e, he, hk⟩
    · exact .inr ⟨e.2, .entry he, hb⟩

theorem part_list {items : List Value} {u : Value} : Part host P (.list items) u ↔ u ∈ items := by
  refine ⟨fun h => ?_, .list⟩
  cases h with
  | list hu => exact hu
  | exported hx => cases hx.1

theorem part_tuple {items : List Value} {u : Value} :
    Part host P (.tuple items) u ↔ u ∈ items := by
  refine ⟨fun h => ?_, .tuple⟩
  cases h with
  | tuple hu => exact hu
  | exported hx => cases hx.1

theorem part_range {r : Range} {u : Value} :
    Part host P (.range r) u ↔ u ∈ r.toList.map .int := by
  rw [List.mem_map]
  constructor
  · intro h
    cases h with
    | range hn => exact ⟨_, hn, rfl⟩
    | exported hx => cases hx.1
  · rintro ⟨n, hn, rfl⟩
    exact .range hn

theorem Denotes.of_numbers {r : Range} {js : List Json}
    (h : List.Forall₂ (Denotes host P) (r.toList.map .int) js) :
    Denotes host P (.range r) (.array js) := by
  have hj : ∀ {ns : List Int}, List.Forall₂ (Denotes host P) (ns.map .int) js →
      js = ns.map .int := by
    clear h
    intro ns h
    induction ns generalizing js with
    | nil =>
      cases h
      rfl
    | cons n ns ih =>
      cases h with
      | cons hn h =>
        cases hn with
        | int => exact congrArg (Json.int n :: ·) (ih h)
        | handle hx _ => cases hx.1
  rw [hj h]
  exact .range r

def IsLeaf (v : Value) : Prop := v.kind ≠ .sequence ∧ v.kind ≠ .mapping ∧ v.kind ≠ .object

theorem blocked_leaf {v : Value} (hv : v.IsLeaf) : v.Blocked host P ↔ v.Barred := by
  refine blocked_iff.trans (or_iff_left ?_)
  rintro ⟨u, hp, -⟩
  cases hp with
  | list | tuple | range => exact hv.1 rfl
  | entry => exact hv.2.1 rfl
  | exported hx => exact hv.2.2 hx.1

theorem Exports.unique {w : World σ} (hw : P w) {h x y : Value} (hx : Exports host P h x)
    (hy : Exports host P h y) : x = y := Except.ok.inj (hx.2.unique hw hy.2)

theorem blocked_handle {w : World σ} (hw : P w) {h x : Value} (hx : Exports host P h x) :
    h.Blocked host P ↔ x.Blocked host P := by
  have hb : ¬h.Barred := by
    have hk := hx.1
    cases h with
    | object => nofun
    | wrapped => nofun
    | _ => cases hk
  rw [blocked_iff, or_iff_right hb]
  constructor
  · rintro ⟨u, hp, hu⟩
    cases hp with
    | exported hy => exact hx.unique hw hy ▸ hu
    | list | tuple | range | entry => cases hx.1
  · exact fun hu => ⟨x, .exported hx, hu⟩

section

variable {h : Value} (hk : h.kind = .object) (hs : h.shown ≠ .asked h)

include hk hs

theorem exports_unasked {t : Table Value} (ht : h.exposed (.ok (Handle.target h)) = .ok t) :
    Exports host P h (.ofTable t) := by
  obtain ⟨hread, htarget, -⟩ := (Handle.shown_unasked hk).resolve_left hs
  have hx : (h.ask host .exports []).ComesTo P (ofTable <$> h.exposed (.ok (Handle.target h))) :=
    Handle.exports_comesTo hread (Handle.target_comesTo htarget)
  rw [ht] at hx
  exact ⟨hk, hx⟩

theorem shown_handle {t : Table Value} (ht : h.exposed (.ok (Handle.target h)) = .ok t) :
    ∃ className, h.shown = .handle className (t.map fun (name, u) => (name, u.shown)) := by
  obtain ⟨-, -, className, hshown⟩ := (Handle.shown_unasked hk).resolve_left hs
  rw [ht] at hshown
  exact ⟨className, hshown⟩

theorem checkClass_unasked : h.checkClass = .ok () := by
  cases h with
  | wrapped => rfl
  | object id face own size =>
    have ho : hasAny own readingNames = false := by
      rw [shown] at hs
      split at hs
      · exact absurd rfl hs
      · next ho =>
        rw [Bool.or_eq_true, not_or, Bool.not_eq_true, Bool.not_eq_true, Bool.not_eq_false'] at ho
        exact hasAny_of_exposesOwn ho.2
    have hr : ∀ n ∈ readingNames, (Value.object id face own size).raised? n = none := fun n hn =>
      raised?_of_absent (get?_of_hasAny ho hn)
    have hget : Table.get? own className = none := get?_of_hasAny ho (by decide)
    rw [checkClass, readClass, read, hr readerName (by decide), readPlainly, Value.own, hget]
    cases (Value.object id face own size).inherited? className with
    | some c => rfl
    | none =>
      rw [orFallback, hr fallbackName (by decide)]
      rfl
  | _ => cases hk

end

end Value

theorem Number.writeInt_eq (n : Int) : writeInt n =
    if n.natAbs < 10 ^ digitCap then .ok (String.ofList (intText n))
    else .error .unwritableInteger := by
  rw [writeInt]
  generalize digitCap = cap
  rfl

namespace Json

open Value (Blocked Denotes Steady Part Exports)

variable {within : List Nat}

theorem Report.detour_le (report : Report) : report.detour ≤ 2 := by
  cases report <;> decide

theorem Report.levels_le (report : Report) (form : MappingForm) :
    report.levels form ≤ Report.shown.levels form := by
  cases report <;> cases form <;> decide

def ofEntry (host : Host σ) (within : List Nat) (depth room : Nat) (report : Report)
    (e : Value × Value) : Act (World σ) (String × Json) := do
  let name ← Act.ofExcept (memberName report e.1)
  (name, ·) <$> ofValue host report within depth room e.2

theorem ofValue_entries (report : Report) (depth room : Nat) (form : MappingForm)
    (entries : List (Value × Value)) :
    ofValue host report within (depth + 1) room (.mapping form entries) =
      descend (report.levels form) room fun room =>
        .object <$> entries.mapM (ofEntry host within (depth + 1) room report) := by
  have he : ∀ room,
      ofEntries report (ofAsked host report within depth) room (Value.shownEntries entries) =
        entries.mapM (ofEntry host within (depth + 1) room report) := by
    intro room
    induction entries with
    | nil => rfl
    | cons e entries ih =>
      rw [Value.shownEntries, ofEntries, ih, List.mapM_cons, ofEntry]
      simp only [map_eq_pure_bind, bind_assoc, pure_bind]
      rfl
  simp only [ofValue_succ, Value.shown, ofShown, he]

theorem ofValue_range (report : Report) (depth : Nat) {room : Nat} {r : Range}
    (hr : r.length < Range.countCap) (hl : 3 ≤ room) :
    ofValue host report within (depth + 1) room (.range r) =
      .array <$> (r.toList.map .int).mapM (ofValue host report within (depth + 1) room) := by
  have hv : ofValue host report within (depth + 1) room (.range r) =
      Act.ofExcept (ofRange report room r) := rfl
  have hi : ∀ n, ofValue host report within (depth + 1) room (.int n) = Act.ofExcept (ofInt n) :=
    fun _ => rfl
  have hc : Value.rangeLength r = .ok r.length := if_pos hr
  have hd : ¬room < report.detour + 1 := by
    have := report.detour_le
    omega
  have ho : ofRange report room r = r.toList.mapM ofInt >>= fun js => .ok (.array js) := by
    rw [ofRange, hc]
    exact if_neg hd
  rw [hv, ho, List.mapM_map]
  simp only [Function.comp_def, hi]
  rw [← Act.ofExcept_mapM, map_eq_pure_bind]
  exact Act.ofExcept_bind (r.toList.mapM ofInt) fun js => .ok (Json.array js)

theorem ofValue_unasked {h : Value} {t : Table Value} (hk : h.kind = .object)
    (hs : h.shown ≠ .asked h) (ht : h.exposed (.ok (Handle.target h)) = .ok t) (report : Report)
    (depth room : Nat) :
    ofValue host report within (depth + 1) room h =
      descend report.detour room fun room =>
        ofValue host report within (depth + 1) room (.ofTable t) := by
  obtain ⟨className, hshown⟩ := Value.shown_handle hk hs ht
  rw [ofValue_succ, hshown, ofShown]
  simp only [Value.ofTable, ofValue_mapping, ← ofProperties_shown]
  exact (descend_descend report.detour 1).symm

theorem ofValue_asked {h x : Value} (hx : Exports host P h x) (hc : h.checkClass = .ok ())
    (hs : h.shown = .asked h) (ha : h.isAmong within = false) {report : Report} {depth room : Nat}
    {r : Except Fault Json} (hl : report.detour ≤ room)
    (hr : (ofValue host report (h.id :: within) depth (room - report.detour) x).ComesTo P r) :
    (ofValue host report within (depth + 1) room h).ComesTo P r := by
  have hform : checkForm report h = .ok () := by
    cases report with
    | silent => rfl
    | shown => exact hc
  have hask : (askExports host report within h).ComesTo P (.ok x) := by
    rw [askExports, hform, if_neg (Bool.eq_false_iff.1 ha), if_neg (not_not.2 hx.1)]
    exact .bind_ok (.pure ()) hx.2
  rw [ofValue_succ, hs]
  refine .bind_ok (hask.mapFault report.ofReading) ?_
  rwa [descend_of_le hl]

theorem nameless_faults {k : Value}
    (hm : ∀ report, memberName report k =
      match report with
      | .silent => .error (.keyNotEncodable (Fault.cut 100 k.typeName))
      | .shown => do
        k.readClass.mapError report.ofReading
        throw (.keyNotEncodable k.typeName))
    (hk : k.readClass = .ok ()) (report : Report) :
    ∃ f : Fault, f.isTypeOrValue = true ∧ memberName report k = .error f := by
  rw [hm, hk]
  cases report with
  | silent => exact ⟨_, rfl, rfl⟩
  | shown => exact ⟨_, rfl, rfl⟩

theorem memberName_alike {k : Value} (hk : k.readClass = .ok ()) :
    Alike P (fun report => Act.ofExcept (memberName report k)) (k.keyText? = none)
      (k.keyText? = some ·) := by
  refine .ofExcept ?_
  cases k with
  | text s => exact .inl ⟨nofun, s, rfl, fun _ => rfl⟩
  | bool b => exact .inl ⟨nofun, _, rfl, fun _ => rfl⟩
  | null => exact .inl ⟨nofun, _, rfl, fun _ => rfl⟩
  | float x =>
    cases hx : x.isFinite with
    | true =>
      refine .inl ⟨?_, x.text, ?_, fun report => ?_⟩
      · rw [Value.keyText?, hx]; nofun
      · rw [Value.keyText?, hx]; rfl
      · rw [memberName, hx]; rfl
    | false =>
      refine .inr ⟨?_, fun report => ⟨notFinite report x, rfl, ?_⟩⟩
      · rw [Value.keyText?, hx]; rfl
      · rw [memberName, hx]; rfl
  | int n =>
    have hm : ∀ report, memberName report (.int n) = Number.writeInt n := fun _ => rfl
    simp only [hm, Number.writeInt_eq, Value.keyText?]
    split
    · exact .inl ⟨nofun, _, rfl, fun _ => rfl⟩
    · exact .inr ⟨rfl, fun _ => ⟨_, rfl, rfl⟩⟩
  | _ => exact .inr ⟨rfl, nameless_faults (fun _ => rfl) hk⟩

variable {depth : Nat} {room : Report → Nat}

theorem leaf_alike {v : Value} (hv : v.IsLeaf) {e : Report → Except Fault Json}
    (he : ∀ report,
      ofValue host report within (depth + 1) (room report) v = Act.ofExcept (e report))
    (h : (¬v.Barred ∧ ∃ j, Denotes host P v j ∧ ∀ report, e report = .ok j) ∨
      v.Barred ∧ ∀ report, ∃ f : Fault, f.isTypeOrValue = true ∧ e report = .error f) :
    Alike P (fun report => ofValue host report within (depth + 1) (room report) v)
      (v.Blocked host P) (Denotes host P v) := by
  rw [Value.blocked_leaf hv]
  simp only [he]
  exact .ofExcept h

theorem scalar_alike {v : Value}
    (hv : v.kind = .null ∨ v.kind = .bool ∨ v.kind = .number ∨ v.kind = .string) :
    Alike P (fun report => ofValue host report within (depth + 1) (room report) v)
      (v.Blocked host P) (Denotes host P v) := by
  have hl : v.IsLeaf := by
    rcases hv with hv | hv | hv | hv
    all_goals
      rw [Value.IsLeaf, hv]
      decide
  cases v with
  | null => exact leaf_alike hl (fun _ => rfl) (.inl ⟨nofun, _, .null, fun _ => rfl⟩)
  | bool b => exact leaf_alike hl (fun _ => rfl) (.inl ⟨nofun, _, .bool b, fun _ => rfl⟩)
  | text s => exact leaf_alike hl (fun _ => rfl) (.inl ⟨nofun, _, .text s, fun _ => rfl⟩)
  | int n =>
    refine leaf_alike hl (fun _ => rfl) (e := fun _ => ofInt n) ?_
    rw [Value.Barred, ofInt, Number.writeInt_eq]
    split
    · next hn => exact .inl ⟨Nat.not_le.2 hn, _, .int n, fun _ => rfl⟩
    · next hn => exact .inr ⟨Nat.not_lt.1 hn, fun _ => ⟨_, rfl, rfl⟩⟩
  | float x =>
    refine leaf_alike hl (fun _ => rfl) (e := fun report => ofFloat report x) ?_
    rw [Value.Barred]
    cases hx : x.isFinite with
    | true => exact .inl ⟨Bool.noConfusion, _, .float x, fun report => by rw [ofFloat, hx]; rfl⟩
    | false => exact .inr ⟨rfl, fun report => ⟨_, rfl, by rw [ofFloat, hx]; rfl⟩⟩
  | list | tuple | range => exact absurd rfl hl.1
  | mapping => exact absurd rfl hl.2.1
  | object | wrapped => exact absurd rfl hl.2.2
  | _ => rcases hv with hv | hv | hv | hv <;> cases hv

theorem other_alike {v : Value} (hv : v.kind = .other) (hc : v.readClass = .ok ()) :
    Alike P (fun report => ofValue host report within (depth + 1) (room report) v)
      (v.Blocked host P) (Denotes host P v) := by
  have hl : v.IsLeaf := by
    rw [Value.IsLeaf, hv]
    decide
  have hb : v.Barred := by
    cases v with
    | int | float | mapping => cases hv
    | _ => exact hv
  have ha : v.isAtom = true := by
    cases v with
    | list | tuple | mapping | object | wrapped => cases hv
    | _ => rfl
  refine .inr ⟨(Value.blocked_leaf hl).2 hb, fun report => ?_⟩
  beta_reduce
  rw [ofValue_succ]
  rcases Value.shown_atom ha with hs | hs
  · have hleaf : ofLeaf report (room report) v = .error (.notEncodable v.typeName) := by
      cases v with
      | null | bool | int | float | text | range => cases hv
      | _ => rfl
    rw [hs, ofShown, hleaf]
    exact ⟨_, rfl, .throw _⟩
  · have hform : checkForm report v = .ok () := by
      cases report with
      | silent => rfl
      | shown => rw [checkForm, Value.checkClass, hc]
    have hask : ∃ f : Fault, (report.ofReading f).isTypeOrValue = true ∧
        (askExports host report within v).ComesTo P (.error f) := by
      have hk : v.kind ≠ .object := by
        rw [hv]
        decide
      rw [askExports, hform, hc, if_pos hk]
      cases v.isAmong within with
      | true => exact ⟨.circular, by cases report <;> rfl, .throw _⟩
      | false => exact ⟨.notEncodable v.typeName, by cases report <;> rfl, .throw _⟩
    obtain ⟨f, hf, hask⟩ := hask
    rw [hs]
    exact ⟨_, hf, .bind_error (hask.mapFault report.ofReading)⟩

theorem items_alike {v : Value} {items : List Value} (hv : ¬v.Barred)
    (hp : ∀ u, Part host P v u ↔ u ∈ items) {room' : Report → Nat}
    (he : ∀ report, ofValue host report within (depth + 1) (room report) v =
      .array <$> items.mapM (ofValue host report within (depth + 1) (room' report)))
    (hd : ∀ js, List.Forall₂ (Denotes host P) items js → Denotes host P v (.array js))
    (h : ∀ u ∈ items, Alike P
      (fun report => ofValue host report within (depth + 1) (room' report) u)
      (u.Blocked host P) (Denotes host P u)) :
    Alike P (fun report => ofValue host report within (depth + 1) (room report) v)
      (v.Blocked host P) (Denotes host P v) := by
  rw [Value.blocked_iff_of_items hv hp]
  simp only [he]
  exact (Alike.mapM items h).map Json.array hd

theorem entries_alike {form : MappingForm} {entries : List (Value × Value)}
    (hl : ∀ report, report.levels form ≤ room report)
    (hk : ∀ e ∈ entries, e.1.readClass = .ok ())
    (h : ∀ e ∈ entries, Alike P
      (fun report => ofValue host report within (depth + 1) (room report - report.levels form) e.2)
      (e.2.Blocked host P) (Denotes host P e.2)) :
    Alike P
      (fun report => ofValue host report within (depth + 1) (room report) (.mapping form entries))
      ((Value.mapping form entries).Blocked host P) (Denotes host P (.mapping form entries)) := by
  rw [Value.blocked_mapping]
  simp only [ofValue_entries, descend_of_le (hl _)]
  have he : ∀ e ∈ entries, Alike P
      (fun report => ofEntry host within (depth + 1) (room report - report.levels form) report e)
      (e.1.keyText? = none ∨ e.2.Blocked host P)
      fun m => e.1.keyText? = some m.1 ∧ Denotes host P e.2 m.2 := fun e hm =>
    (memberName_alike (hk e hm)).bind fun name hn => (h e hm).map _ fun j hj => ⟨hn, hj⟩
  refine (Alike.mapM entries he).map Json.object fun ms hms => ?_
  clear hk h he
  refine .mapping ?_ ?_
  · induction hms with
    | nil => rfl
    | cons h _ ih => exact congrArg₂ List.cons h.1 ih
  · induction hms with
    | nil => exact .nil
    | cons h _ ih => exact .cons h.2 ih

theorem exported_alike {w : World σ} (hw : P w) {h x : Value} (hx : Exports host P h x)
    {act act' : Report → Act (World σ) Json}
    (ha : ∀ report r, (act' report).ComesTo P r → (act report).ComesTo P r)
    (hp : Alike P act' (x.Blocked host P) (Denotes host P x)) :
    Alike P act (h.Blocked host P) (Denotes host P h) := by
  rw [Value.blocked_handle hw hx]
  exact hp.mono Iff.rfl (fun j => .handle hx) ha

theorem steady_alike {w : World σ} (hw : P w) {levels : Nat} {v : Value}
    (h : v.Steady host P within levels) (hd : levels ≤ depth)
    (hr : ∀ report, levels ≤ room report) :
    Alike P (fun report => ofValue host report within (depth + 1) (room report) v)
      (v.Blocked host P) (Denotes host P v) := by
  -- Each level takes from the room, and a handle that is asked from the depth too.
  induction h generalizing depth room with
  | scalar hv => exact scalar_alike hv
  | other hv hc => exact other_alike hv hc
  | @list within levels items _ ih =>
    refine items_alike nofun (fun _ => Value.part_list) (fun report => ?_) (fun _ => .list)
      fun u hu => ih u hu (Nat.le_of_succ_le hd) fun report => Nat.le_sub_of_add_le (hr report)
    rw [ofValue_items host report within depth _ (.inl rfl),
      descend_of_le (Nat.le_of_add_left_le (hr report))]
  | @tuple within levels items _ ih =>
    refine items_alike nofun (fun _ => Value.part_tuple) (fun report => ?_) (fun _ => .tuple)
      fun u hu => ih u hu (Nat.le_of_succ_le hd) fun report => Nat.le_sub_of_add_le (hr report)
    rw [ofValue_items host report within depth _ (.inr rfl),
      descend_of_le (Nat.le_of_add_left_le (hr report))]
  | @range within levels r hc =>
    refine items_alike nofun (fun _ => Value.part_range)
      (fun report => ofValue_range report depth hc (Nat.le_of_add_left_le (hr report)))
      (fun js => Value.Denotes.of_numbers) fun u hu => ?_
    obtain ⟨n, -, rfl⟩ := List.mem_map.1 hu
    exact scalar_alike (.inr (.inr (.inl rfl)))
  | @mapping within levels form entries hk _ ih =>
    have hl : ∀ report : Report, levels + report.levels form ≤ room report := fun report =>
      Nat.le_trans (Nat.add_le_add_left (report.levels_le form) levels) (hr report)
    exact entries_alike (fun report => Nat.le_of_add_left_le (hl report)) hk fun e he =>
      ih e he (Nat.le_of_add_right_le hd) fun report => Nat.le_sub_of_add_le (hl report)
  | @handle within levels h t hk hs ht _ ih =>
    have hl : ∀ report : Report, levels + report.detour ≤ room report := fun report =>
      Nat.le_trans (Nat.add_le_add_left report.detour_le levels) (hr report)
    refine exported_alike hw (Value.exports_unasked hk hs ht) (fun report r hc => ?_)
      (ih (Nat.le_of_add_right_le hd) fun report => Nat.le_sub_of_add_le (hl report))
    rwa [ofValue_unasked hk hs ht, descend_of_le (Nat.le_of_add_left_le (hl report))]
  | @asked within levels h x hx hc hs ha _ ih =>
    obtain ⟨depth, rfl⟩ := Nat.exists_eq_succ_of_ne_zero (n := depth) (by omega)
    have hl : ∀ report : Report, levels + report.detour ≤ room report := fun report =>
      Nat.le_trans (Nat.add_le_add_left report.detour_le levels) (hr report)
    refine exported_alike hw hx (fun report r =>
      ofValue_asked hx hc hs ha (Nat.le_of_add_left_le (hl report))) (ih (by omega) fun report =>
        Nat.le_sub_of_add_le (hl report))

end Json

namespace Value.Steady

variable {within : List Nat} {levels : Nat}

theorem plain {entries : List (Value × Value)} (hk : ∀ e ∈ entries, e.1.readClass = .ok ())
    (h : ∀ e ∈ entries, e.2.Steady host P within levels) :
    (Value.mapping .plain entries).Steady host P within (levels + 1) := by
  change Value.Steady host P within (levels + Json.Report.shown.levels .plain) _
  exact .mapping hk h

theorem checkClass {v : Value} (h : v.Steady host P within levels) :
    v.checkClass = .ok () := by
  cases h with
  | scalar hv =>
    cases v with
    | object | plain => rcases hv with hv | hv | hv | hv <;> cases hv
    | _ => rfl
  | other _ hc => rw [Value.checkClass, hc]
  | handle hk hs => exact checkClass_unasked hk hs
  | asked _ hc => exact hc
  | _ => rfl

end Value.Steady

theorem Processor.encode_of_fault {room : Nat} {indent : Option Int} {v : Value} {w w' : World σ}
    {f : Fault} (hf : f.isTypeOrValue = true)
    (h : Json.encode host room indent v w = .error f w') :
    encodeWithin host room indent v w =
      .ok (.text "") (Reports.note ("JSON encoding failed: " ++ f.message) w') := by
  rw [encodeWithin, Act.bind_apply, Act.observe, h]
  dsimp only
  rw [if_pos hf]
  rfl

namespace Json

open Value (Blocked Denotes Steady Part Exports)

theorem encode_apply {room : Nat} {indent : Option Int} {v : Value} (hc : v.checkClass = .ok ())
    {w w' : World σ} {r : Except Fault Json}
    (h : ofValue host (.ofIndent indent) [] (room + 1) room v w = Act.ofExcept r w') :
    encode host room indent v w = Act.ofExcept (toText (.ofIndent indent) <$> r) w' := by
  rw [encode_eq, hc]
  change (ofValue host (.ofIndent indent) [] (room + 1) room v >>= _) w = _
  rw [Act.bind_apply, h]
  cases r with
  | ok j => rfl
  | error f => rfl

theorem ofValue_nested (report : Report) (within : List Nat) (depth : Nat) (v : Value)
    {room n : Nat} (h : room < n) :
    ofValue host report within (depth + 1) room ((fun v => .list [v])^[n] v) = throw .tooDeep := by
  induction n generalizing room with
  | zero => cases h
  | succ n ih =>
    rw [Function.iterate_succ_apply', ofValue_items host report within depth room (.inl rfl)]
    cases room with
    | zero => exact descend_of_lt Nat.one_pos
    | succ room =>
      rw [descend_of_le (Nat.le_add_left 1 room), List.mapM_cons, Nat.add_sub_cancel,
        ih (Nat.lt_of_succ_lt_succ h)]
      rfl

theorem encode_of_tooDeep {room : Nat} {indent : Option Int} {v : Value}
    (hc : v.checkClass = .ok ()) {w w' : World σ}
    (h : ofValue host (.ofIndent indent) [] (room + 1) room v w = .error .tooDeep w') :
    Processor.encodeWithin host room indent v w = .error .tooDeep w' := by
  have he : encode host room indent v w =
      Act.ofExcept (toText (.ofIndent indent) <$> .error .tooDeep) w' := encode_apply hc h
  rw [Processor.encodeWithin, Act.bind_apply, Act.observe, he]
  rfl

end Json

end Inlay
