import Inlay.Lookup
import Inlay.Proofs.Except
import Inlay.Proofs.Sight.Shown
import Inlay.Proofs.Table

/-! What a handle exposes: keys find in it what it exports, and that is also what is shown of it. -/

namespace Inlay

namespace Value

theorem eq_text_of_equals {key : String} {v : Value} (h : (Value.text key).equals v = true) :
    v = .text key := by
  cases v <;> simp [equals, integral?] at h
  rw [h]

theorem any_of_contains {v w : Value} {items : List Value} (hi : v.elements = .ok items)
    (h : v.contains w = .ok true) : items.any w.equals = true := by
  rw [elements] at hi
  rw [contains] at h
  split at h
  · cases h
  · next he =>
    rw [he] at hi
    rw [Option.getD_some] at hi
    rw [hi] at h
    exact Except.ok.inj h
  · cases h

theorem exposed?_ne_missing (target : Value) (name : String) :
    target.exposed? name ≠ .ok (some .missing) := by
  intro h
  obtain ⟨found, -, hp⟩ := Except.of_map h
  cases found with
  | none => cases hp
  | some v => cases v <;> cases hp

theorem shownOwn_eq (v : Value) : shownOwn v = shownAttributes v.own := by
  have ht : ∀ ss : List String, Shown.ofTexts ss = (ofTexts ss).shown := by
    have hi : ∀ ss : List String, ss.map (fun s => Shown.leaf (.text s)) =
        shownItems (ss.map .text) := by
      intro ss
      induction ss with
      | nil => rfl
      | cons s ss ih => exact congrArg (Shown.leaf (.text s) :: ·) ih
    intro ss
    rw [Shown.ofTexts, hi, ofTexts, shown]
  cases v with
  | wrapped id face target =>
    cases target <;>
      simp [shownOwn, own, Face.lists, Shown.lists, shownAttributes, shownAttribute, ht, ofTexts]
  | _ => rfl

theorem shown_exposed? {target : Value} {name : String}
    (hr : hasAny target.own readingNames = false)
    (hn : Table.contains target.own name = true ∨ (target.inherited? name).isNone = true) :
    (Table.get? (shownOwn target) name).getD (.ok none) =
      Option.map shown <$> target.exposed? name := by
  have hraised : ∀ n ∈ readingNames, target.raised? n = none := fun n hm =>
    raised?_of_absent (get?_of_hasAny hr hm)
  have hread : target.read name = target.readPlainly name := by
    rw [read, hraised readerName (by decide)]
    cases hp : target.readPlainly name with
    | ok v => rfl
    | error f => simp [orFallback, hraised fallbackName (by decide)]
  rw [shownOwn_eq, get?_shownAttributes, exposed?, read?, hread, readPlainly]
  cases ho : Table.get? target.own name with
  | none =>
    have hi : (target.inherited? name).isNone = true := by
      rw [Table.contains, ho] at hn
      exact hn.resolve_left Bool.false_ne_true
    rw [Option.isNone_iff_eq_none.1 hi]
    rfl
  | some a =>
    cases a with
    | value v => cases v <;> rfl
    | raises kind message =>
      simp only [Option.map_some, Option.getD_some, shownAttribute, Attribute.read]
      split <;> rfl

end Value

namespace Handle

theorem mem_of_holds {v : Value} {items : List Value} {name : String} (h : names v = .ok items)
    (hv : ∀ s, v ≠ .text s) (hh : v.holds (.text name) = .ok true) : .text name ∈ items := by
  have hany : ∀ vs : List Value, vs.any (Value.text name).equals = true → .text name ∈ vs := by
    intro vs hvs
    obtain ⟨w, hw, he⟩ := List.any_eq_true.1 hvs
    exact Value.eq_text_of_equals he ▸ hw
  cases v with
  | text s => exact absurd rfl (hv s)
  | range r => cases hh
  | mapping form entries =>
    cases h
    refine hany _ ?_
    rw [List.any_map]
    exact Except.ok.inj hh
  | bytes mutable octets => cases hh
  | list | tuple | plain | object => exact hany _ (Value.any_of_contains h hh)
  | _ => cases h

def exposure (target : Except Fault Value) (name : Value) :
    Except Fault (String × Option Value) := do
  let target ← target
  let name ← name.attributeName
  return (name, ← target.exposed? name)

def exposures (target : Except Fault Value) (names : List Value) : Except Fault (Table Value) := do
  let found ← names.mapM (exposure target)
  return Table.ofList (found.filterMap fun (name, v) => v.map (name, ·))

section

variable {target : Except Fault Value} {names : List Value} {exposed : Table Value}

theorem of_exposure {name : Value} {e : String × Option Value} (h : exposure target name = .ok e) :
    name = .text e.1 ∧ ∃ t, target = .ok t ∧ t.exposed? e.1 = .ok e.2 := by
  obtain ⟨t, ht, h⟩ := Except.of_bind h
  obtain ⟨s, hs, h⟩ := Except.of_bind h
  obtain ⟨v, hv, h⟩ := Except.of_bind h
  cases h
  exact ⟨Value.eq_text_of_attributeName hs, t, ht, hv⟩

theorem of_exposures (h : exposures target names = .ok exposed) :
    ∃ found, names.mapM (exposure target) = .ok found ∧
      exposed = Table.ofList (found.filterMap fun (name, v) => v.map (name, ·)) := by
  obtain ⟨found, hf, h⟩ := Except.of_bind h
  cases h
  exact ⟨found, hf, rfl⟩

theorem nodup_exposures (h : exposures target names = .ok exposed) :
    (exposed.map (·.1)).Nodup := by
  obtain ⟨found, -, rfl⟩ := of_exposures h
  exact Table.nodup_ofList _

theorem mem_present {found : List (String × Option Value)} {name : String} {v : Value} :
    (name, v) ∈ found.filterMap (fun (name, v) => v.map (name, ·)) ↔ (name, some v) ∈ found := by
  rw [List.mem_filterMap]
  constructor
  · rintro ⟨⟨n, w⟩, he, hv⟩
    obtain ⟨u, rfl, hu⟩ := Option.map_eq_some_iff.1 hv
    cases hu
    exact he
  · exact fun h => ⟨(name, some v), h, rfl⟩

theorem get?_exposures (h : exposures target names = .ok exposed) {key : String}
    (hk : .text key ∈ names) :
    ∃ t, target = .ok t ∧ t.exposed? key = .ok (Table.get? exposed key) := by
  obtain ⟨found, hf, rfl⟩ := of_exposures h
  obtain ⟨hall, hex⟩ := Except.mem_of_mapM hf
  obtain ⟨e, he, hx⟩ := hex _ hk
  obtain ⟨hn, t, rfl, hread⟩ := of_exposure hx
  cases hn
  have hsame : ∀ v, (e.1, v) ∈ found → v = e.2 := by
    intro v hv
    obtain ⟨name, -, hy⟩ := hall _ hv
    obtain ⟨-, t, ht, hy⟩ := of_exposure hy
    cases ht
    exact Except.ok.inj (hy.symm.trans hread)
  refine ⟨t, rfl, hread.trans (congrArg Except.ok ?_)⟩
  obtain ⟨name, v⟩ := e
  cases v with
  | none =>
    refine (Table.get?_ofList_of_notMem fun hm => ?_).symm
    obtain ⟨⟨n, v⟩, hp, rfl⟩ := List.mem_map.1 hm
    cases hsame _ (mem_present.1 hp)
  | some v =>
    refine (Table.get?_ofList_of_mem (mem_present.2 he) fun u hu => ?_).symm
    exact Option.some.inj (hsame _ (mem_present.1 hu))

theorem get?_exposures_of_notMem (h : exposures target names = .ok exposed) {key : String}
    (hk : .text key ∉ names) : Table.get? exposed key = none := by
  obtain ⟨found, hf, rfl⟩ := of_exposures h
  refine Table.get?_ofList_of_notMem fun hm => ?_
  obtain ⟨⟨n, v⟩, hp, rfl⟩ := List.mem_map.1 hm
  obtain ⟨name, hn, hx⟩ := (Except.mem_of_mapM hf).1 _ (mem_present.1 hp)
  exact hk ((of_exposure hx).1 ▸ hn)

end

theorem exposures_ofTexts (target : Value) (face : Face) :
    exposures (.ok target) (face.properties.map .text) = face.exports target.exposed? := by
  rw [exposures, Face.exports, List.mapM_map]
  rfl

end Handle

end Inlay
