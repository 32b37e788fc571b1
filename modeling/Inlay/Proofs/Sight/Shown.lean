import Inlay.Proofs.Handle.Face
import Inlay.Proofs.Sight.Callee
import Inlay.Value.Shown

/-! What is shown of a value is made of what is seen of it. -/

namespace Inlay

variable {s : Sight}

mutual

def Shown.seen (s : Sight) : Shown → Shown
  | .leaf v => .leaf (v.seen s)
  | .list items => .list (Shown.seenItems s items)
  | .tuple items => .tuple (Shown.seenItems s items)
  | .mapping form entries => .mapping form (Shown.seenEntries s entries)
  | .handle className properties => .handle className (Shown.seenProperties s properties)
  | .unreadable f => .unreadable f
  | .asked v => .asked (v.seen s)

def Shown.seenItems (s : Sight) : List Shown → List Shown
  | [] => []
  | x :: rest => Shown.seen s x :: Shown.seenItems s rest

def Shown.seenEntries (s : Sight) : List (Value × Shown) → List (Value × Shown)
  | [] => []
  | (key, x) :: rest => (key.seen s, Shown.seen s x) :: Shown.seenEntries s rest

def Shown.seenProperties (s : Sight) : List (String × Shown) → List (String × Shown)
  | [] => []
  | (name, x) :: rest => (name, Shown.seen s x) :: Shown.seenProperties s rest

end

mutual

def Shown.Guarded (s : Sight) : Shown → Prop
  | .leaf _ | .unreadable _ => True
  | .list items | .tuple items => Shown.ItemsGuarded s items
  | .mapping _ entries => Shown.EntriesGuarded s entries
  | .handle _ properties => Shown.PropertiesGuarded s properties
  | .asked v => s.Guards (v.seen s)

def Shown.ItemsGuarded (s : Sight) : List Shown → Prop
  | [] => True
  | x :: rest => Shown.Guarded s x ∧ Shown.ItemsGuarded s rest

def Shown.EntriesGuarded (s : Sight) : List (Value × Shown) → Prop
  | [] => True
  | (_, x) :: rest => Shown.Guarded s x ∧ Shown.EntriesGuarded s rest

def Shown.PropertiesGuarded (s : Sight) : List (String × Shown) → Prop
  | [] => True
  | (_, x) :: rest => Shown.Guarded s x ∧ Shown.PropertiesGuarded s rest

end

namespace Shown

theorem seenProperties_eq_map (properties : List (String × Shown)) :
    seenProperties s properties = properties.map fun (name, x) => (name, x.seen s) := by
  induction properties with
  | nil => rfl
  | cons entry rest ih => rw [seenProperties, ih, List.map_cons]

theorem propertiesGuarded_iff {properties : List (String × Shown)} :
    PropertiesGuarded s properties ↔ ∀ entry ∈ properties, entry.2.Guarded s := by
  induction properties with
  | nil => simp [PropertiesGuarded]
  | cons entry rest ih => rw [PropertiesGuarded, ih, List.forall_mem_cons]

structure Revealed (s : Sight) (e e' : Except Fault (Option Shown)) : Prop where
  eq : e' = (Option.map (Shown.seen s)) <$> e
  guarded : ∀ x, e = .ok (some x) → x.Guarded s

theorem ofTexts_seen (ss : List String) : (ofTexts ss).seen s = ofTexts ss := by
  have hi : ∀ ss : List String, seenItems s (ss.map fun t => .leaf (.text t)) =
      ss.map fun t => .leaf (.text t) := by
    intro ss
    induction ss with
    | nil => rfl
    | cons t rest ih =>
      rw [List.map_cons, seenItems, ih]
      rfl
  rw [ofTexts, seen, hi]

theorem ofTexts_guarded (ss : List String) : (ofTexts ss).Guarded s := by
  have hi : ∀ ss : List String, ItemsGuarded s (ss.map fun t => .leaf (.text t)) := by
    intro ss
    induction ss with
    | nil => trivial
    | cons t rest ih => exact ⟨trivial, ih⟩
  exact hi ss

theorem exports_seen {face : Face} {read read' : String → Except Fault (Option Shown)}
    (h : ∀ name ∈ face.properties, Revealed s (read name) (read' name)) :
    face.exports read' = seenProperties s <$> face.exports read ∧
      ∀ t, face.exports read = .ok t → PropertiesGuarded s t := by
  constructor
  · rw [Face.exports_map (Shown.seen s) fun name hn => (h name hn).eq]
    exact congrArg (· <$> face.exports read) (funext fun t => (seenProperties_eq_map t).symm)
  · intro t ht
    obtain ⟨found, hf, ht⟩ := Except.of_bind ht
    cases ht
    refine propertiesGuarded_iff.2 (Table.ofList_forall fun entry he => ?_)
    obtain ⟨e, hef, he⟩ := List.mem_filterMap.1 he
    obtain ⟨x, hx, rfl⟩ := Option.map_eq_some_iff.1 he
    obtain ⟨name, hn, hr⟩ := (Except.mem_of_mapM hf).1 e hef
    obtain ⟨y, hy, hr⟩ := Except.of_bind hr
    cases hr
    exact (h name hn).guarded x (hy.trans (congrArg Except.ok hx))

theorem exposed_seen {face : Face} {attributes attributes' : Attributes}
    (h : ∀ name ∈ face.properties, Revealed s ((Table.get? attributes name).getD (.ok none))
      ((Table.get? attributes' name).getD (.ok none))) :
    exposed face attributes' = (exposed face attributes).seen s ∧
      (exposed face attributes).Guarded s := by
  obtain ⟨he, hg⟩ := exports_seen h
  rw [exposed, exposed, he]
  cases ht : face.exports fun name => (Table.get? attributes name).getD (.ok none) with
  | error f => exact ⟨rfl, trivial⟩
  | ok t => exact ⟨rfl, hg t ht⟩

end Shown

namespace Value

open Shown (Revealed)

theorem hasAny_seen {v : Value} {names : List String} (h : ∀ n ∈ names, n ∈ Sight.askedNames) :
    hasAny (v.seen s).own names = hasAny v.own names := by
  rw [hasAny, hasAny, Bool.eq_iff_iff, List.any_eq_true, List.any_eq_true]
  refine exists_congr fun n => and_congr_right fun hn => ?_
  rw [Table.contains, Table.contains, get?_own_seen (Sight.sees_asked (h n hn) v),
    Option.isSome_map]

theorem get?_of_hasAny {own : Table Attribute} {names : List String}
    (h : hasAny own names = false) {name : String} (hn : name ∈ names) :
    Table.get? own name = none := by
  rw [hasAny, List.any_eq_false] at h
  simpa [Table.contains] using h name hn

theorem hasAny_of_exposesOwn {face : Face} {target : Value} (h : exposesOwn face target = true) :
    hasAny target.own readingNames = false := by
  rw [exposesOwn, Bool.and_eq_true, Bool.not_eq_true'] at h
  exact h.1

theorem get?_shownAttributes (own : Table Attribute) (name : String) :
    Table.get? (shownAttributes own) name = (Table.get? own name).map shownAttribute := by
  induction own with
  | nil => rfl
  | cons entry rest ih =>
    obtain ⟨n, a⟩ := entry
    rw [shownAttributes, Table.get?, Table.get?, ih]
    by_cases h : n = name
    · rw [if_pos h, if_pos h]
      rfl
    · rw [if_neg h, if_neg h]

theorem exposesOwn_seen {face : Face} {target : Value}
    (h : hasAny target.own readingNames = false →
      ∀ name ∈ face.properties, s.Admits target name) :
    exposesOwn face (target.seen s) = exposesOwn face target := by
  rw [exposesOwn, exposesOwn, hasAny_seen (by decide)]
  cases hr : hasAny target.own readingNames with
  | true => rfl
  | false =>
    refine congrArg (true && ·) ?_
    rw [Bool.eq_iff_iff, List.all_eq_true, List.all_eq_true]
    refine forall₂_congr fun name hn => ?_
    rcases (h hr name hn).clear_or_sees with hc | ⟨hs, hd⟩
    · rw [seen_of_clear hc]
    · rw [Table.contains, Table.contains, get?_own_seen hs, inherited?_seen hd,
        Option.isSome_map, Option.isNone_map]

theorem value_revealed {v : Value}
    (h : (v.seen s).shown = v.shown.seen s ∧ v.shown.Guarded s) :
    Revealed s (shownAttribute (.value v)) (shownAttribute (.value (v.seen s))) := by
  have hv : Revealed s (.ok (some v.shown)) (.ok (some (v.seen s).shown)) := by
    refine ⟨congrArg (fun x => Except.ok (some x)) h.1, ?_⟩
    rintro _ ⟨⟩
    exact h.2
  cases v with
  | missing =>
    refine ⟨rfl, ?_⟩
    rintro _ ⟨⟩
  | _ => exact hv

theorem raises_revealed (kind message : String) :
    Revealed s (shownAttribute (.raises kind message)) (shownAttribute (.raises kind message)) := by
  rw [shownAttribute]
  split
  · refine ⟨rfl, ?_⟩
    rintro _ ⟨⟩
  · refine ⟨rfl, ?_⟩
    rintro _ ⟨⟩

theorem admits_of_object {id : Nat} {face : Face} {own : Table Attribute} {size : Option Int}
    (hg : s.Guards ((Value.object id face own size).seen s))
    (ha : hasAny own answeringNames = false) (hr : hasAny own readingNames = false) :
    ∀ name ∈ face.properties, s.Admits (.object id face own size) name := by
  intro name hn
  have hread : (Value.object id face own size).read Face.propertiesName =
      .ok (ofTexts face.properties) :=
    read_properties (get?_of_hasAny ha (by decide))
      (raised?_of_absent (get?_of_hasAny hr (by decide)))
  have hholds : (ofTexts face.properties).holds (.text name) = .ok true := by
    rw [holds_ofTexts, List.contains_iff_mem.2 hn]
  refine hg.admits rfl (Sight.lists_of_read (by simp) hread hholds) fun k hk => ?_
  refine Sight.over_of_target ?_ hk
  have ht : Table.get? own Member.target.name = none := get?_of_hasAny ha (by decide)
  have hs := get?_seenOwn (s.asked id Member.target.name (by decide)) own
  rwa [ht] at hs

theorem admits_of_wrapped {id : Nat} {face : Face} {target : Value}
    (hg : s.Guards ((Value.wrapped id face target).seen s)) :
    ∀ name ∈ face.properties, s.Admits target name := by
  intro name hn
  have hread : (Value.wrapped id face target).read Face.propertiesName =
      .ok (ofTexts face.properties) := rfl
  have hholds : (ofTexts face.properties).holds (.text name) = .ok true := by
    rw [holds_ofTexts, List.contains_iff_mem.2 hn]
  refine hg.admits rfl (Sight.lists_of_read (by simp) hread hholds) fun k hk => ?_
  exact Sight.over_of_target rfl ((number?_seen target).trans hk)

theorem attributes_revealed {v : Value} {name : String} (hg : s.Guards (v.seen s))
    (hs : s.Sees v name)
    (h : ∀ a, Table.get? v.own name = some a → (∀ w, a = .value w → s.Guards (w.seen s)) →
      Revealed s (shownAttribute a) (shownAttribute (a.seen s))) :
    Revealed s ((Table.get? (shownAttributes v.own) name).getD (.ok none))
      ((Table.get? (shownAttributes (v.seen s).own) name).getD (.ok none)) := by
  have ho := get?_own_seen hs
  rw [get?_shownAttributes, get?_shownAttributes, ho]
  cases hv : Table.get? v.own name with
  | none =>
    refine ⟨rfl, ?_⟩
    rintro _ ⟨⟩
  | some a =>
    refine h a hv fun w hw => ?_
    have hw : Table.get? (v.seen s).own name = some (.value (w.seen s)) := by
      rw [ho, hv, hw]
      rfl
    exact hg.own hw

theorem exposed_revealed {face : Face} {target : Value}
    (hr : ∀ name, s.Sees target name →
      Revealed s ((Table.get? (shownOwn target) name).getD (.ok none))
        ((Table.get? (shownOwn (target.seen s)) name).getD (.ok none)))
    (ha : ∀ name ∈ face.properties, s.Admits target name) :
    Shown.exposed face (shownOwn (target.seen s)) =
        (Shown.exposed face (shownOwn target)).seen s ∧
      (Shown.exposed face (shownOwn target)).Guarded s := by
  refine Shown.exposed_seen fun name hn => hr name ?_
  rcases ha name hn with hf | ⟨-, hs⟩
  · exact hf.clear.sees target name
  · exact hs

theorem wrapped_revealed {x x' : Except Fault (Option Shown)} (hx : Revealed s x x') (face : Face)
    (name : String) :
    Revealed s ((Table.get? ((wrappedName, x) :: Shown.lists face) name).getD (.ok none))
      ((Table.get? ((wrappedName, x') :: Shown.lists face) name).getD (.ok none)) := by
  have ht : ∀ ss : List String,
      Revealed s (.ok (some (Shown.ofTexts ss))) (.ok (some (Shown.ofTexts ss))) := by
    intro ss
    refine ⟨congrArg (fun x => Except.ok (some x)) (Shown.ofTexts_seen ss).symm, ?_⟩
    rintro _ ⟨⟩
    exact Shown.ofTexts_guarded ss
  simp only [Shown.lists, Table.get?]
  split
  · exact hx
  · split
    · exact ht _
    · split
      · exact ht _
      · refine ⟨rfl, ?_⟩
        rintro _ ⟨⟩

mutual

theorem shown_seen : ∀ v : Value, s.Guards (v.seen s) →
    (v.seen s).shown = v.shown.seen s ∧ v.shown.Guarded s
  | .list items, h => by
    rw [seen, Sight.Guards.list_iff, seenItems_eq_map, List.forall_mem_map] at h
    obtain ⟨he, hg⟩ := shownItems_seen items h
    exact ⟨congrArg Shown.list he, hg⟩
  | .tuple items, h => by
    rw [seen, Sight.Guards.tuple_iff, seenItems_eq_map, List.forall_mem_map] at h
    obtain ⟨he, hg⟩ := shownItems_seen items h
    exact ⟨congrArg Shown.tuple he, hg⟩
  | .mapping form entries, h => by
    rw [seen, Sight.Guards.mapping_iff, seenEntries_eq_map, List.forall_mem_map] at h
    obtain ⟨he, hg⟩ := shownEntries_seen entries fun e he => (h e he).2
    exact ⟨congrArg (Shown.mapping form) he, hg⟩
  | .object id face own size, h => by
    have ha : hasAny (seenOwn s id own) answeringNames = hasAny own answeringNames :=
      hasAny_seen (v := .object id face own size) (by decide)
    have hr : ∀ name, s.Sees (.object id face own size) name →
        Revealed s ((Table.get? (shownAttributes own) name).getD (.ok none))
          ((Table.get? (shownAttributes (seenOwn s id own)) name).getD (.ok none)) :=
      fun name hs => attributes_revealed h hs (shownOwn_seen own name)
    rw [seen, shown, shown, ha]
    cases hans : hasAny own answeringNames with
    | true => exact ⟨rfl, h⟩
    | false =>
      have hx : exposesOwn face (.object id face (seenOwn s id own) size) =
          exposesOwn face (.object id face own size) :=
        exposesOwn_seen (fun hread => admits_of_object h hans hread)
      rw [hx]
      cases hexp : exposesOwn face (.object id face own size) with
      | false => exact ⟨rfl, h⟩
      | true => exact exposed_revealed hr (admits_of_object h hans (hasAny_of_exposesOwn hexp))
  | .wrapped id face target, h => by
    have hw := admits_of_wrapped h
    have hc := h.constituent (List.mem_singleton.2 rfl)
    have ht := exposed_revealed (shownTarget_seen target hc) hw
    rw [seen, shown, shown, exposesOwn_seen fun _ => hw]
    split
    · exact ht
    · exact ⟨rfl, h⟩
  | .plain id shown own, h => by
    have ha : hasAny (seenOwn s id own) (Member.parts.name :: readingNames) =
        hasAny own (Member.parts.name :: readingNames) :=
      hasAny_seen (v := .plain id shown own) (by decide)
    rw [seen, Value.shown, Value.shown, ha]
    split
    · exact ⟨rfl, h⟩
    · exact ⟨rfl, trivial⟩
  | .null, _ | .bool _, _ | .int _, _ | .float _, _ | .text _, _ | .range _, _ | .bytes .., _
  | .missing, _ | .callable _, _ | .method .., _ | .parts _, _ => ⟨rfl, trivial⟩

theorem shownItems_seen : ∀ items : List Value, (∀ v ∈ items, s.Guards (v.seen s)) →
    shownItems (seenItems s items) = Shown.seenItems s (shownItems items) ∧
      Shown.ItemsGuarded s (shownItems items)
  | [], _ => ⟨rfl, trivial⟩
  | v :: rest, h => by
    rw [List.forall_mem_cons] at h
    obtain ⟨he, hg⟩ := shown_seen v h.1
    obtain ⟨hre, hrg⟩ := shownItems_seen rest h.2
    rw [seenItems, shownItems, shownItems, Shown.seenItems, he, hre]
    exact ⟨rfl, hg, hrg⟩

theorem shownEntries_seen : ∀ entries : List (Value × Value),
    (∀ e ∈ entries, s.Guards (e.2.seen s)) →
    shownEntries (seenEntries s entries) = Shown.seenEntries s (shownEntries entries) ∧
      Shown.EntriesGuarded s (shownEntries entries)
  | [], _ => ⟨rfl, trivial⟩
  | (key, v) :: rest, h => by
    rw [List.forall_mem_cons] at h
    obtain ⟨he, hg⟩ := shown_seen v h.1
    obtain ⟨hre, hrg⟩ := shownEntries_seen rest h.2
    rw [seenEntries, shownEntries, shownEntries, Shown.seenEntries, he, hre]
    exact ⟨rfl, hg, hrg⟩

theorem shownOwn_seen : ∀ own : List (String × Attribute), ∀ name a,
    Table.get? own name = some a → (∀ w, a = .value w → s.Guards (w.seen s)) →
    Revealed s (shownAttribute a) (shownAttribute (a.seen s))
  | [], name, a, h, _ => by cases h
  | (n, .value v) :: rest, name, a, h, hg => by
    by_cases hn : n = name
    · rw [Table.get?, if_pos hn] at h
      obtain rfl := Option.some.inj h
      exact value_revealed (shown_seen v (hg v rfl))
    · rw [Table.get?, if_neg hn] at h
      exact shownOwn_seen rest name a h hg
  | (n, .raises kind message) :: rest, name, a, h, hg => by
    by_cases hn : n = name
    · rw [Table.get?, if_pos hn] at h
      obtain rfl := Option.some.inj h
      exact raises_revealed kind message
    · rw [Table.get?, if_neg hn] at h
      exact shownOwn_seen rest name a h hg

theorem shownTarget_seen : ∀ target : Value, s.Guards (target.seen s) → ∀ name,
    s.Sees target name → Revealed s ((Table.get? (shownOwn target) name).getD (.ok none))
      ((Table.get? (shownOwn (target.seen s)) name).getD (.ok none))
  | .plain _ _ own, h, name, hs | .object _ _ own _, h, name, hs =>
    attributes_revealed h hs (shownOwn_seen own name)
  | .wrapped id face t, h, name, hs => by
    obtain ⟨he, hg⟩ := shown_seen t (h.constituent (List.mem_singleton.2 rfl))
    have ht : Revealed s (.ok (some t.shown)) (.ok (some (t.seen s).shown)) := by
      refine ⟨congrArg (fun x => Except.ok (some x)) he, ?_⟩
      rintro _ ⟨⟩
      exact hg
    have hm : Revealed s (.ok none) (.ok none) := ⟨rfl, by rintro _ ⟨⟩⟩
    cases t with
    | missing => exact wrapped_revealed hm face name
    | _ => exact wrapped_revealed ht face name
  | .null, _, _, _ | .bool _, _, _, _ | .int _, _, _, _ | .float _, _, _, _ | .text _, _, _, _
  | .list _, _, _, _ | .tuple _, _, _, _ | .mapping .., _, _, _
  | .range _, _, _, _ | .bytes .., _, _, _ | .missing, _, _, _ | .callable _, _, _, _
  | .method .., _, _, _ | .parts _, _, _, _ => ⟨rfl, by rintro _ ⟨⟩⟩

end

end Value

end Inlay
