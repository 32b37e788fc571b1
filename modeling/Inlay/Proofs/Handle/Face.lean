import Inlay.Proofs.Except
import Inlay.Proofs.Table
import Inlay.Value.Attribute

/-! What faces export, and the attributes that objects have from their classes. -/

namespace Inlay

namespace Face

theorem exports_map {α β : Type} (g : α → β) {face : Face} {read : String → Except Fault (Option α)}
    {read' : String → Except Fault (Option β)}
    (h : ∀ name ∈ face.properties, read' name = Option.map g <$> read name) :
    face.exports read' = (List.map fun (name, a) => (name, g a)) <$> face.exports read := by
  have hf : ∀ names : List String, (∀ name ∈ names, read' name = Option.map g <$> read name) →
      names.mapM (fun name => do return (name, ← read' name)) =
        List.map (fun (name, a) => (name, Option.map g a)) <$>
          names.mapM fun name => do return (name, ← read name) := by
    intro names hn
    induction names with
    | nil => rfl
    | cons name names ih =>
      rw [List.forall_mem_cons] at hn
      rw [List.mapM_cons, List.mapM_cons, hn.1, ih hn.2]
      cases read name with
      | error f => rfl
      | ok a =>
        cases names.mapM fun name => do return (name, ← read name) with
        | error f => rfl
        | ok found => rfl
  rw [exports, exports, hf face.properties h]
  cases face.properties.mapM fun name => do return (name, ← read name) with
  | error f => rfl
  | ok found =>
    refine congrArg Except.ok ?_
    rw [← Table.ofList_map, List.filterMap_map, List.map_filterMap]
    refine congrArg Table.ofList (List.filterMap_congr fun entry _ => ?_)
    obtain ⟨name, a⟩ := entry
    cases a <;> rfl

end Face

namespace Value

theorem raised?_of_absent {v : Value} {name : String} (h : Table.get? v.own name = none) :
    v.raised? name = none := by
  cases v with
  | plain | object =>
    rw [own] at h
    simp only [raised?, h]
  | _ => rfl

theorem read_properties {id : Nat} {face : Face} {own : Table Attribute} {size : Option Int}
    (ho : Table.get? own Face.propertiesName = none)
    (hr : (Value.object id face own size).raised? readerName = none) :
    (Value.object id face own size).read Face.propertiesName = .ok (.ofTexts face.properties) := by
  rw [read, hr, readPlainly, Value.own, ho]
  rfl

end Value

end Inlay
