import Inlay.Proofs.Sight.Guard
import Mathlib.Data.List.Forall2

/-! The parts of what a handle answers: the names that it lists, what it exports, and what it calls
with which arguments. -/

namespace Inlay

variable {s : Sight}

namespace Sight

structure RevealsAll (s : Sight) (vs vs' : List Value) : Prop where
  eq : vs' = vs.map (Value.seen s)
  guarded : ∀ v ∈ vs', s.Guards v

def Handles (s : Sight) (v : Value) : Prop := s.Full ∨ v.kind = .object

theorem Reveals.atom {v : Value} (hs : v.seen s = v) (hv : s.Guarded v)
    (hc : v.constituents = []) : s.Reveals v v :=
  ⟨hs.symm, .atom hv hc⟩

theorem Reveals.null : s.Reveals .null .null := .atom rfl trivial rfl

theorem Reveals.bool (b : Bool) : s.Reveals (.bool b) (.bool b) := .atom rfl trivial rfl

theorem Reveals.int (n : Int) : s.Reveals (.int n) (.int n) := .atom rfl trivial rfl

theorem Reveals.text (t : String) : s.Reveals (.text t) (.text t) := .atom rfl trivial rfl

theorem Reveals.of_guards {v : Value} (h : s.Guards (v.seen s)) : s.Reveals v (v.seen s) := ⟨rfl, h⟩

theorem Admits.of_seen {v : Value} {name : String} (h : s.Admits (v.seen s) name) :
    s.Admits v name := by
  rw [Admits, Sees, Value.number?_seen] at h
  exact h

structure RevealsEntry (s : Sight) (e e' : String × Option Value) : Prop where
  name : e'.1 = e.1
  value : e'.2 = e.2.map (Value.seen s)
  guarded : ∀ v, e'.2 = some v → s.Guards v

theorem present_entries {found found' : List (String × Option Value)}
    (h : List.Forall₂ s.RevealsEntry found found') :
    (found'.filterMap fun (name, v) => v.map (name, ·)) =
        (found.filterMap fun (name, v) => v.map (name, ·)).map (fun (n, v) => (n, v.seen s)) ∧
      ∀ e ∈ found'.filterMap (fun (name, v) => v.map (name, ·)), s.Guards e.2 := by
  induction h with
  | nil => exact ⟨rfl, List.forall_mem_nil _⟩
  | @cons e e' found found' hd _ ih =>
    obtain ⟨name, v⟩ := e
    obtain ⟨name', v'⟩ := e'
    obtain rfl : name' = name := hd.name
    obtain rfl : v' = v.map (Value.seen s) := hd.value
    cases v with
    | none => exact ih
    | some v =>
      refine ⟨?_, ?_⟩
      · simpa using ih.1
      · rw [List.filterMap_cons]
        exact List.forall_mem_cons.2 ⟨hd.guarded _ rfl, ih.2⟩

theorem reveals_exports {found found' : List (String × Option Value)}
    (h : List.Forall₂ s.RevealsEntry found found') :
    s.Reveals
      (.ofTable (Table.ofList (found.filterMap fun (name, v) => v.map (name, ·))))
      (.ofTable (Table.ofList (found'.filterMap fun (name, v) => v.map (name, ·)))) := by
  obtain ⟨he, hg⟩ := present_entries h
  constructor
  · rw [he, Table.ofList_map, Value.ofTable_seen]
  · exact Guards.ofTable_iff.2 (Table.ofList_forall hg)

theorem lists_of_read {h names : Value} {list name : String}
    (hl : list ∈ [Face.propertiesName, Face.methodsName]) (hr : h.read list = .ok names)
    (hn : names.holds (.text name) = .ok true) : s.Lists (h.seen s) name := by
  refine .inl ⟨list, hl, names.seen s, ?_, ?_⟩
  · have ha : ∀ n ∈ [Face.propertiesName, Face.methodsName],
        n ∈ askedNames ∧ n ∉ reflectiveNames := by decide
    rw [(Admits.of_asked (ha list hl) h).read_seen, hr]
    rfl
  · exact (Value.holds_seen names (.text name)).trans hn

theorem reveals_option {found : Option Value}
    (h : ∀ v, found = some v → s.Guards (v.seen s)) :
    Option.Rel s.Reveals found (found.map (Value.seen s)) := by
  cases found with
  | none => exact .none
  | some v => exact .some ⟨rfl, h v rfl⟩

theorem over_of_target {h : Value} {id : Nat} (ho : Table.get? h.own Member.target.name = none)
    (ht : (Handle.target h).number? = some id) : s.Over h id := by
  rw [Over, ho]
  exact ht

theorem Guards.admits {h target : Value} {name : String} (hg : s.Guards h)
    (hk : h.kind = .object) (hl : s.Lists h name)
    (ho : ∀ id, target.number? = some id → s.Over h id) : s.Admits target name := by
  rcases hg.head with hf | hg
  · exact .inl hf
  · have hfits : s.Fits h := by
      cases h with
      | object => exact hg
      | wrapped => exact hg
      | _ => cases hk
    obtain ⟨hr, hs⟩ := hfits name hl
    exact .inr ⟨hr, fun id hid => hs id (ho id hid)⟩

theorem Handles.seen {v : Value} (h : s.Handles v) : s.Handles (v.seen s) :=
  h.imp_right (Value.kind_seen v).trans

end Sight

theorem Value.eq_text_of_attributeName {v : Value} {name : String}
    (h : v.attributeName = .ok name) : v = .text name := by
  cases v <;> cases h
  rfl

namespace Member

theorem not_ofType_of_common : ∀ m ∈ common, ¬m.OfType := by
  simp [common, OfType]

theorem asked_of_common :
    ∀ m ∈ common, m.name ∈ Sight.askedNames ∧ m.name ∉ Sight.reflectiveNames := by
  decide

end Member

namespace Handle

theorem placedText_seen (name : Value) (place : Option Value) :
    placedText (name.seen s) (place.map (Value.seen s)) = placedText name place := by
  have hn : (do return (← (name.seen s).display) ++ "()") =
      (do return (← name.display) ++ "()") := by
    rw [Value.display_seen]
  have hp : ∀ place : Value,
      (do return (← (place.seen s).display) ++ "." ++ (← (name.seen s).display) ++ "()") =
        (do return (← place.display) ++ "." ++ (← name.display) ++ "()") := by
    intro place
    rw [Value.display_seen, Value.display_seen]
  cases place with
  | none => exact hn
  | some place =>
    cases place with
    | null => exact hn
    | text t => simp only [Option.map_some, Value.seen, placedText, Value.display_seen]
    | _ => exact hp _

theorem namedText_seen (v : Value) : namedText (v.seen s) = namedText v := by
  rw [namedText, namedText, Value.read?_seen_asked v (by decide),
    Value.read?_seen_asked v (by decide), Value.display_seen]
  cases v.read? "__qualname__" with
  | error f => rfl
  | ok found =>
    cases found with
    | none => rfl
    | some name =>
      cases v.read? "__module__" with
      | error f => rfl
      | ok place => exact placedText_seen name place

theorem calleeText_seen (v : Value) : calleeText (v.seen s) = calleeText v := by
  have h := namedText_seen (s := s) v
  cases v with
  | method owner m =>
    simp only [Value.seen, calleeText, Value.memberText_seen, Value.moduleName_seen,
      Value.typeName_seen]
  | callable c => cases c <;> rfl
  | _ => exact h

theorem spread_seen (callee vs : Value) :
    spread (callee.seen s) (vs.seen s) = (List.map (Value.seen s)) <$> spread callee vs := by
  rw [spread, spread, Value.raised?_seen_asked vs (by decide),
    Value.raised?_seen_asked vs (by decide), Value.elements?_seen, Value.checkExpected_seen,
    Value.typeName_seen, calleeText_seen]
  cases vs.elements? with
  | none =>
    cases vs.raised? "__iter__" with
    | none => cases vs.raised? "__getitem__" <;> cases calleeText callee <;> rfl
    | some f => cases vs.raised? "__getitem__" <;> rfl
  | some items =>
    cases vs.raised? "__getitem__" with
    | none => rfl
    | some f => cases vs.checkExpected <;> rfl

theorem guards_spread {callee vs : Value} {items : List Value} (h : s.Guards vs)
    (hi : spread callee vs = .ok items) : ∀ w ∈ items, s.Guards w := by
  refine h.elements ?_
  rw [spread] at hi
  rw [Value.elements]
  cases he : vs.elements? with
  | none =>
    rw [he] at hi
    cases hg : vs.raised? "__getitem__" <;> cases hr : vs.raised? "__iter__" <;>
      cases hq : calleeText callee <;> simp only [hg, hr, hq] at hi <;> cases hi
  | some es =>
    rw [he] at hi
    cases hg : vs.raised? "__getitem__" with
    | none =>
      rw [hg] at hi
      exact hi
    | some f =>
      rw [hg] at hi
      cases hx : vs.checkExpected with
      | ok u =>
        rw [hx] at hi
        exact hi
      | error f =>
        rw [hx] at hi
        cases hi

theorem names_seen (v : Value) : names (v.seen s) = (List.map (Value.seen s)) <$> names v := by
  have h := Value.elements_seen (s := s) v
  cases v with
  | range r =>
    simp only [Value.seen, names]
    by_cases hr : r.length = 0
    · rw [if_pos hr]
      rfl
    · rw [if_neg hr]
      rfl
  | _ => exact h

theorem holds_of_names {v : Value} {items : List Value} {name : String} (h : names v = .ok items)
    (hn : .text name ∈ items) : v.holds (.text name) = .ok true := by
  have hany : ∀ vs : List Value, .text name ∈ vs → vs.any (Value.text name).equals = true :=
    fun vs hv => List.any_eq_true.2 ⟨_, hv, by simp [Value.equals]⟩
  cases v with
  | text t =>
    cases h
    obtain ⟨c, hc, ht⟩ := List.mem_map.1 hn
    obtain rfl := Value.text.inj ht
    have hp : ∀ cs : List Char, c ∈ cs → Value.isPart [c] cs = true := by
      intro cs hcs
      induction cs with
      | nil => cases hcs
      | cons d rest ih =>
        rcases List.mem_cons.1 hcs with rfl | hr
        · simp [Value.isPart]
        · simp [Value.isPart, ih hr]
    rw [Value.holds, String.toList_ofList, hp _ hc]
  | list vs | tuple vs =>
    cases h
    exact congrArg Except.ok (hany _ hn)
  | range r =>
    simp only [names, Except.ok.injEq] at h
    subst h
    split at hn
    · cases hn
    · cases List.mem_singleton.1 hn
  | mapping form entries =>
    cases h
    obtain ⟨e, he, hk⟩ := List.mem_map.1 hn
    have hany : entries.any (fun e => (Value.text name).equals e.1) = true :=
      List.any_eq_true.2 ⟨e, he, by rw [hk, Value.equals, beq_self_eq_true]⟩
    exact congrArg Except.ok hany
  | bytes mutable octets =>
    cases h
    obtain ⟨o, -, ho⟩ := List.mem_map.1 hn
    cases ho
  | plain | object =>
    rw [Value.eq_nil_of_elements (by simp [Value.number?]) h] at hn
    cases hn
  | _ => cases h

theorem arityFault_seen (owner : Value) (m : Member) (given : Nat) :
    arityFault (owner.seen s) m given = arityFault owner m given := by
  rw [arityFault, arityFault, Value.memberText_seen]

theorem kind_of_mem_members {v : Value} {m : Member} (h : m ∈ v.members)
    (hi : m ≠ .invocation) : v.kind = .object := by
  cases v with
  | object => rfl
  | wrapped => rfl
  | callable c =>
    cases c with
    | hosted => exact absurd (List.mem_singleton.1 h) hi
    | recased => cases h
  | _ => cases h

theorem handles_of_common {v : Value} {m : Member} (h : s.Full ∨ s.Guarded (.method (v.seen s) m))
    (hm : m ∈ Member.common) : s.Handles v := by
  refine h.imp_right fun hg => ?_
  rcases hg with hg | ⟨ht, -⟩
  · rw [Value.members_seen] at hg
    refine kind_of_mem_members hg ?_
    rintro rfl
    simp [Member.common] at hm
  · exact absurd ht (Member.not_ofType_of_common m hm)

theorem inherited?_common {v : Value} (hk : v.kind = .object) {m : Member}
    (hm : m ∈ Member.common) : v.inherited? m.name = some (.method v m) := by
  have hf : ∀ m ∈ Member.common, Member.common.find? (fun n => n.name = m.name) = some m := by
    decide
  have hl : ∀ m ∈ Member.common, ∀ name ∈ [Face.propertiesName, Face.methodsName],
      name ≠ m.name := by decide
  have hfind : v.members.find? (fun n => n.name = m.name) = some m := by
    cases v with
    | object id face own size =>
      cases size with
      | none => exact hf m hm
      | some n => rw [Value.members, List.find?_append, hf m hm, Option.some_or]
    | wrapped => exact hf m hm
    | _ => cases hk
  have hmember : Value.inherited?.memberNamed? m.name v = some (.method v m) := by
    rw [Value.inherited?.memberNamed?, hfind]
    rfl
  cases v with
  | object id face own size =>
    have hp := hl m hm Face.propertiesName (by simp)
    have hn := hl m hm Face.methodsName (by simp)
    rw [Value.inherited?, Face.lists, Table.get?, if_neg hp, Table.get?, if_neg hn, Table.get?]
    exact hmember
  | wrapped => exact hmember
  | _ => cases hk

theorem standard_notMem_members (v : Value) (name : String) : .standard name ∉ v.members := by
  intro h
  cases v with
  | object id face own size =>
    cases size <;> simp [Value.members, Member.common] at h
  | callable c => cases c <;> simp [Value.members] at h
  | _ => simp [Value.members, Member.common] at h

end Handle

end Inlay
