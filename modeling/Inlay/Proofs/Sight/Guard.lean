import Inlay.Handle
import Inlay.Proofs.Sight.Reading

/-! Guarded values: all that their handles list is in sight, and no member leads around the
lists. -/

namespace Inlay

namespace Value

def constituents : Value → List Value
  | .list items | .tuple items => items
  | .mapping _ entries => entries.flatMap fun (key, v) => [key, v]
  | .plain _ _ own | .object _ _ own _ => own.filterMap (·.2.value?)
  | .wrapped _ _ v | .method v _ | .parts v => [v]
  | _ => []

inductive Within : Value → Value → Prop
  | refl (v : Value) : Within v v
  | step {u v w : Value} : v ∈ w.constituents → Within u v → Within u w

end Value

def Value.isSimple : Value → Bool
  | .null | .bool _ | .int _ | .float _ | .text _ | .tuple [] | .callable _ | .plain 0 _ [] => true
  | _ => false

theorem Value.isSimple_innateText? {typeName name : String} {v : Value}
    (h : innateText? typeName name = some v) : v.isSimple = true := by
  unfold innateText? at h
  split at h
  · obtain rfl := Option.some.inj h
    cases (TypeInfo.find? typeName).bind (·.doc) <;> rfl
  · split at h
    · cases h
      rfl
    · cases h

def Member.OfType : Member → Prop
  | .standard _ | .innate .. => True
  | _ => False

namespace Sight

variable (s : Sight)

def Grants : Attribute → String → Prop
  | .value (.callable (.hosted id _)), name => s.grants id name = true
  | .value (.method ..), _ => True
  | _, _ => False

def Leads : Attribute → Nat → Prop
  | .value (.callable (.hosted id _)), target => s.reaches id target = true
  | .value (.method ..), _ => True
  | _, _ => False

def Lists (h : Value) (name : String) : Prop :=
  (∃ list ∈ [Face.propertiesName, Face.methodsName], ∃ names,
      h.read list = .ok names ∧ names.holds (.text name) = .ok true) ∨
    ∃ a, Table.get? h.own Member.hasMethod.name = some a ∧ s.Grants a name

def Over (h : Value) (id : Nat) : Prop :=
  match Table.get? h.own Member.target.name with
  | none => (Handle.target h).number? = some id
  | some a => s.Leads a id

def Fits (h : Value) : Prop :=
  ∀ name, s.Lists h name → ¬s.Bars name ∧ ∀ id, s.Over h id → s.shows id name = true

def Guarded : Value → Prop
  | .object id face own size => s.Fits (.object id face own size)
  | .wrapped id face target => s.Fits (.wrapped id face target)
  | .method owner m => m ∈ owner.members ∨ m.OfType ∧ ¬s.Bars m.name
  | _ => True

/-- All that occurs in a value is guarded, unless there is nothing to hide. -/
def Guards (v : Value) : Prop := s.Full ∨ ∀ u, Value.Within u v → s.Guarded u

def Admits (v : Value) (name : String) : Prop :=
  s.Full ∨ ¬s.Bars name ∧ s.Sees v name

structure Reveals (v v' : Value) : Prop where
  eq : v' = v.seen s
  guarded : s.Guards v'

variable {s}

namespace Guards

theorem constituent {v w : Value} (h : s.Guards w) (hv : v ∈ w.constituents) : s.Guards v :=
  h.imp_right fun hg u hu => hg u (.step hv hu)

theorem head {v : Value} (h : s.Guards v) : s.Full ∨ s.Guarded v :=
  h.imp_right fun hg => hg v (.refl v)

theorem of_constituents {v : Value} (h : s.Full ∨ s.Guarded v)
    (hc : ∀ w ∈ v.constituents, s.Guards w) : s.Guards v := by
  by_cases hf : s.Full
  · exact .inl hf
  · refine .inr fun u hu => ?_
    cases hu with
    | refl => exact h.resolve_left hf
    | step hw hu => exact (hc _ hw).resolve_left hf u hu

theorem atom {v : Value} (h : s.Guarded v) (hc : v.constituents = []) : s.Guards v :=
  of_constituents (.inr h) fun w hw => by rw [hc] at hw; cases hw

theorem simple {v : Value} (h : v.isSimple = true) : s.Guards v := by
  cases v with
  | tuple items =>
    cases items with
    | nil => exact atom trivial rfl
    | cons => cases h
  | plain id shown own =>
    cases own with
    | nil => exact atom trivial rfl
    | cons => cases id <;> cases h
  | null | bool | int | float | text | callable => exact atom trivial rfl
  | _ => cases h

theorem list_iff {items : List Value} : s.Guards (.list items) ↔ ∀ v ∈ items, s.Guards v := by
  refine ⟨fun h _ hv => h.constituent hv, fun h => ?_⟩
  exact of_constituents (.inr trivial) h

theorem tuple_iff {items : List Value} : s.Guards (.tuple items) ↔ ∀ v ∈ items, s.Guards v := by
  refine ⟨fun h _ hv => h.constituent hv, fun h => ?_⟩
  exact of_constituents (.inr trivial) h

theorem mapping_iff {form : MappingForm} {entries : List (Value × Value)} :
    s.Guards (.mapping form entries) ↔ ∀ e ∈ entries, s.Guards e.1 ∧ s.Guards e.2 := by
  constructor
  · intro h e he
    have hm : ∀ w ∈ [e.1, e.2], s.Guards w := fun w hw =>
      h.constituent (List.mem_flatMap.2 ⟨e, he, hw⟩)
    exact ⟨hm _ (by simp), hm _ (by simp)⟩
  · intro h
    refine of_constituents (.inr trivial) fun w hw => ?_
    obtain ⟨e, he, hw⟩ := List.mem_flatMap.1 hw
    rcases List.mem_cons.1 hw with rfl | hw
    · exact (h e he).1
    · rw [List.mem_singleton.1 hw]
      exact (h e he).2

theorem ofTable_iff {t : Table Value} :
    s.Guards (.ofTable t) ↔ ∀ entry ∈ t, s.Guards entry.2 := by
  rw [Value.ofTable, mapping_iff, List.forall_mem_map]
  exact forall₂_congr fun entry _ => and_iff_right (atom trivial rfl)

theorem ofTexts (ss : List String) : s.Guards (Value.ofTexts ss) := by
  refine tuple_iff.2 fun v hv => ?_
  obtain ⟨t, -, rfl⟩ := List.mem_map.1 hv
  exact atom trivial rfl

theorem of_mem_own {v w : Value} (h : s.Guards v) {name : String}
    (hm : (name, .value w) ∈ v.own) : s.Guards w := by
  cases v with
  | plain | object => exact h.constituent (List.mem_filterMap.2 ⟨_, hm, rfl⟩)
  | wrapped id face target =>
    simp only [Value.own, Face.lists, List.map_cons, List.map_nil, List.mem_cons, Prod.mk.injEq,
      Attribute.value.injEq, List.not_mem_nil, or_false] at hm
    rcases hm with ⟨-, rfl⟩ | ⟨-, rfl⟩ | ⟨-, rfl⟩
    · exact h.constituent (List.mem_singleton.2 rfl)
    · exact ofTexts _
    · exact ofTexts _
  | _ => cases hm

theorem own {v w : Value} (h : s.Guards v) {name : String}
    (hw : Table.get? v.own name = some (.value w)) : s.Guards w := h.of_mem_own (Table.get?_mem hw)

theorem holdings {v : Value} (h : s.Guards v) : s.Guards (.ofTable v.holdings) := by
  refine ofTable_iff.2 fun entry he => ?_
  obtain ⟨⟨name, a⟩, ha, he⟩ := List.mem_filterMap.1 he
  cases a with
  | value w =>
    obtain rfl := Option.some.inj he
    exact h.of_mem_own ha
  | raises kind message => cases he

theorem method {v : Value} (h : s.Guards v) {m : Member}
    (hm : m ∈ v.members ∨ m.OfType ∧ ¬s.Bars m.name) : s.Guards (.method v m) := by
  refine of_constituents (.inr hm) fun w hw => ?_
  rwa [List.mem_singleton.1 hw]

theorem standard? {v w : Value} (h : s.Guards v) {name : String} (hn : ¬s.Bars name)
    (hw : v.standard? name = some w) : s.Guards w := by
  unfold Value.standard? at hw
  split at hw
  · obtain rfl := Option.some.inj hw
    exact h.holdings
  · split at hw
    · obtain rfl := Option.some.inj hw
      refine ofTable_iff.2 fun entry he => ?_
      obtain ⟨n, -, rfl⟩ := List.mem_map.1 he
      exact atom trivial rfl
    · split at hw
      · obtain rfl := Option.some.inj hw
        exact atom trivial rfl
      · split at hw
        · obtain rfl := Option.some.inj hw
          cases v <;> exact atom trivial rfl
        · obtain rfl := Option.some.inj hw
          exact atom trivial rfl
        · obtain rfl := Option.some.inj hw
          exact atom trivial rfl
        · obtain ⟨form, -, rfl⟩ := Option.map_eq_some_iff.1 hw
          exact h.method (.inr ⟨trivial, hn⟩)

theorem innateData {v : Value} (h : s.Guards v) : ∀ entry ∈ v.innateData, s.Guards entry.2 := by
  have hs : ∀ t : Table Value, (∀ entry ∈ t, entry.2.isSimple = true) →
      ∀ entry ∈ t, s.Guards entry.2 := fun _ ht entry he => .simple (ht entry he)
  cases v with
  | int | bool => exact hs _ (by simp [Value.innateData, Value.integerData, Value.isSimple])
  | float | range => exact hs _ (by simp [Value.innateData, Value.isSimple])
  | mapping form entries =>
    cases form with
    | custom =>
      have hd : s.Guards (.mapping .plain entries) := mapping_iff.2 (mapping_iff.1 h)
      have ht : s.Guards (.ofTable [("data", .mapping .plain entries)]) :=
        ofTable_iff.2 (List.forall_mem_singleton.2 hd)
      have hc : ∀ entry ∈ Value.customConstants, s.Guards entry.2 := hs _ (by decide)
      exact List.forall_mem_cons.2 ⟨hd, List.forall_mem_cons.2 ⟨ht, hc⟩⟩
    | _ => exact List.forall_mem_nil _
  | _ => exact List.forall_mem_nil _

theorem innate? {v w : Value} (h : s.Guards v) {name : String} (hn : ¬s.Bars name)
    (hw : v.innate? name = some w) : s.Guards w := by
  unfold Value.innate? at hw
  split at hw
  · cases hr : v.recased? name with
    | some u =>
      rw [hr] at hw
      obtain rfl := Option.some.inj hw
      unfold Value.recased? at hr
      split at hr <;> cases hr <;> exact .simple rfl
    | none =>
      rw [hr] at hw
      cases hd : Table.get? v.innateData name with
      | some u =>
        rw [hd] at hw
        obtain rfl := Option.some.inj hw
        exact h.innateData _ (Table.get?_mem hd)
      | none =>
        rw [hd] at hw
        cases ht : Value.innateText? v.typeName name with
        | some u =>
          rw [ht] at hw
          obtain rfl := Option.some.inj hw
          exact .simple (Value.isSimple_innateText? ht)
        | none =>
          rw [ht] at hw
          obtain ⟨t, -, rfl⟩ := Option.map_eq_some_iff.1 hw
          exact h.method (.inr ⟨trivial, hn⟩)
  · cases hw

theorem memberNamed? {v w : Value} (h : s.Guards v) {name : String} (hn : ¬s.Bars name)
    (hw : Value.inherited?.memberNamed? name v = some w) : s.Guards w := by
  rw [Value.inherited?.memberNamed?] at hw
  cases hm : v.members.find? (·.name = name) with
  | some m =>
    rw [hm] at hw
    obtain rfl := Option.some.inj hw
    exact h.method (.inl (List.mem_of_find?_eq_some hm))
  | none =>
    rw [hm] at hw
    change (if v.isHosted then v.standard? name else v.innate? name) = some w at hw
    split at hw
    · exact h.standard? hn hw
    · exact h.innate? hn hw

theorem inherited? {v w : Value} (h : s.Guards v) {name : String} (hn : ¬s.Bars name)
    (hw : v.inherited? name = some w) : s.Guards w := by
  have hm := h.memberNamed? (w := w) hn
  cases v with
  | object id face own size =>
    rw [Value.inherited?] at hw
    cases hl : Table.get? face.lists name with
    | none =>
      rw [hl] at hw
      exact hm hw
    | some l =>
      rw [hl] at hw
      obtain rfl := Option.some.inj hw
      have hl := Table.get?_mem hl
      simp only [Face.lists, List.mem_cons, Prod.mk.injEq, List.not_mem_nil, or_false] at hl
      rcases hl with ⟨-, rfl⟩ | ⟨-, rfl⟩
      · exact ofTexts _
      · exact ofTexts _
  | _ => exact hm hw

theorem read {v w : Value} (h : s.Guards v) {name : String} (hn : s.Full ∨ ¬s.Bars name)
    (hw : v.read name = .ok w) : s.Guards w := by
  rcases hn with hf | hn
  · exact .inl hf
  · rcases Value.own_or_inherited_of_read hw with ho | ⟨-, hi⟩
    · exact h.own ho
    · exact h.inherited? hn hi

theorem elements {v : Value} {items : List Value} (h : s.Guards v)
    (he : v.elements = .ok items) : ∀ w ∈ items, s.Guards w := by
  rw [Value.elements] at he
  cases v with
  | text t =>
    cases he
    intro w hw
    obtain ⟨c, -, rfl⟩ := List.mem_map.1 hw
    exact atom trivial rfl
  | list vs =>
    cases he
    exact list_iff.1 h
  | tuple vs =>
    cases he
    exact tuple_iff.1 h
  | range r =>
    rw [Value.elements?] at he
    cases hr : Value.rangeLength r with
    | error f =>
      rw [hr] at he
      cases he
    | ok n =>
      rw [hr] at he
      cases he
      intro w hw
      obtain ⟨c, -, rfl⟩ := List.mem_map.1 hw
      exact atom trivial rfl
  | mapping form entries =>
    cases he
    intro w hw
    obtain ⟨e, he, rfl⟩ := List.mem_map.1 hw
    exact (mapping_iff.1 h e he).1
  | bytes mutable octets =>
    cases he
    intro w hw
    obtain ⟨c, -, rfl⟩ := List.mem_map.1 hw
    exact atom trivial rfl
  | plain | object =>
    rw [Value.eq_nil_of_elements (by simp [Value.number?]) he]
    exact List.forall_mem_nil _
  | _ => cases he

end Guards

theorem Clear.seen_eq_id (h : s.Clear) : Value.seen s = id := funext (Value.seen_of_clear h)

theorem Full.seen_eq_id (h : s.Full) : Value.seen s = id := h.clear.seen_eq_id

namespace Admits

variable {v w : Value} {name : String}

theorem of_asked (h : name ∈ askedNames ∧ name ∉ reflectiveNames) (v : Value) :
    s.Admits v name := .inr ⟨not_bars h.2, sees_asked h.1 v⟩

theorem clear_or_sees (h : s.Admits v name) :
    s.Clear ∨ s.Sees v name ∧ name ≠ Value.holdingsName := by
  rcases h with hf | ⟨hn, hs⟩
  · exact .inl hf.clear
  · by_cases hc : s.Clear
    · exact .inl hc
    · refine .inr ⟨hs, fun he => notMem_of_not_bars hc hn ?_⟩
      rw [he]
      decide

theorem read_seen (h : s.Admits v name) :
    (v.seen s).read name = Value.seen s <$> v.read name := by
  rcases h.clear_or_sees with hc | ⟨hs, hn⟩
  · rw [hc.seen_eq_id, id_map]
    rfl
  · exact Value.read_seen hs hn

theorem read?_seen (h : s.Admits v name) :
    (v.seen s).read? name = (Option.map (Value.seen s)) <$> v.read? name := by
  rcases h.clear_or_sees with hc | ⟨hs, hn⟩
  · rw [hc.seen_eq_id, Option.map_id, id_map]
    rfl
  · exact Value.read?_seen hs hn

theorem exposed?_seen (h : s.Admits v name) :
    (v.seen s).exposed? name = (Option.map (Value.seen s)) <$> v.exposed? name := by
  rcases h.clear_or_sees with hc | ⟨hs, hn⟩
  · rw [hc.seen_eq_id, Option.map_id, id_map]
    rfl
  · exact Value.exposed?_seen hs hn

theorem guards_read (h : s.Admits v name) (hg : s.Guards (v.seen s)) (hr : v.read name = .ok w) :
    s.Guards (w.seen s) := by
  refine hg.read (h.imp_right And.left) ?_
  rw [h.read_seen, hr]
  rfl

theorem guards_exposed? (h : s.Admits v name) (hg : s.Guards (v.seen s))
    (hr : v.exposed? name = .ok (some w)) : s.Guards (w.seen s) := by
  refine h.guards_read hg ?_
  rw [Value.exposed?, Value.read?] at hr
  cases hv : v.read name with
  | ok u =>
    rw [hv] at hr
    exact congrArg Except.ok (Option.some.inj (Value.eq_some_of_present? (Except.ok.inj hr)))
  | error f =>
    rw [hv] at hr
    by_cases hf : f.saysAbsent = true
    · simp only [if_pos hf] at hr
      cases hr
    · simp only [if_neg hf] at hr
      cases hr

end Admits

theorem mem_of_holds {ss : List String} {name : String}
    (h : (Value.ofTexts ss).holds (.text name) = .ok true) : name ∈ ss := by
  rw [Value.holds_ofTexts] at h
  exact List.contains_iff_mem.1 (Except.ok.inj h)

theorem mem_of_lists_object {id : Nat} {face : Face} {own : List (String × Attribute)}
    {size : Option Int} {name : String}
    (hu : ∀ n ∈ [Face.propertiesName, Face.methodsName, Member.hasMethod.name],
      Table.get? own n = none)
    (h : s.Lists (.object id face own size) name) :
    name ∈ face.properties ∨ name ∈ face.methods := by
  rcases h with ⟨list, hl, names, hr, hn⟩ | ⟨a, ha, -⟩
  · have ho : Table.get? own list = none := hu list (List.mem_append_left [_] hl)
    rcases Value.own_or_inherited_of_read hr with hr | ⟨-, hr⟩
    · cases ho.symm.trans hr
    · rcases List.mem_cons.1 hl with rfl | hl
      · cases hr
        exact .inl (mem_of_holds hn)
      · obtain rfl := List.mem_singleton.1 hl
        cases hr
        exact .inr (mem_of_holds hn)
  · cases (hu Member.hasMethod.name (by simp)).symm.trans ha

theorem fits_object {id : Nat} {face : Face} {own : List (String × Attribute)} {size : Option Int}
    (hu : ∀ n ∈ [Face.propertiesName, Face.methodsName, Member.hasMethod.name, Member.target.name],
      Table.get? own n = none)
    (hl : ∀ name ∈ face.properties ++ face.methods, ¬s.Bars name ∧ s.shows id name = true) :
    s.Fits (.object id face own size) := by
  intro name h
  have hm : name ∈ face.properties ∨ name ∈ face.methods :=
    mem_of_lists_object (fun n hn => hu n (List.mem_append_left [_] hn)) h
  obtain ⟨hr, hs⟩ := hl name (List.mem_append.2 hm)
  refine ⟨hr, fun n hn => ?_⟩
  have ht : Table.get? (Value.object id face own size).own Member.target.name = none :=
    hu _ (by simp)
  rw [Over, ht] at hn
  cases hn
  exact hs

end Sight

end Inlay
