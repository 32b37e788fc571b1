import Inlay.Json.Basic
import Inlay.Proofs.Table

/-! The values that documents stand for, described by what they hold. -/

namespace Inlay.Json

def last? (members : List (String × Json)) (name : String) : Option Json :=
  members.reverse.lookup name

theorem mem_of_last? {members : List (String × Json)} {name : String} {j : Json}
    (h : last? members name = some j) : (name, j) ∈ members :=
  Table.mem_of_lookup_reverse h

/-- A document stands for a value. An object stands for a table that has each of its names once, in
the place where it first comes, with what the last member of the name stands for. -/
inductive Decodes : Json → Value → Prop
  | null : Decodes .null .null
  | bool (b : Bool) : Decodes (.bool b) (.bool b)
  | int (n : Int) : Decodes (.int n) (.int n)
  | float (x : Binary64) : Decodes (.float x) (.float x)
  | text (s : String) : Decodes (.text s) (.text s)
  | array {items : List Json} {vs : List Value} : items.length = vs.length →
    (∀ j v, (j, v) ∈ items.zip vs → Decodes j v) → Decodes (.array items) (.list vs)
  | object {members : List (String × Json)} {t : Table Value} :
    t.map (·.1) = (members.map (·.1)).eraseDups →
    (∀ name v j, (name, v) ∈ t → last? members name = some j → Decodes j v) →
    Decodes (.object members) (.ofTable t)

theorem ofJsonItems_eq_map (items : List Json) : Value.ofJsonItems items = items.map .ofJson := by
  induction items with
  | nil => rfl
  | cons j rest ih => rw [Value.ofJsonItems, ih, List.map_cons]

theorem ofJsonMembers_eq_map (members : List (String × Json)) :
    Value.ofJsonMembers members = members.map fun (name, j) => (name, .ofJson j) := by
  induction members with
  | nil => rfl
  | cons m rest ih => rw [Value.ofJsonMembers, ih, List.map_cons]

theorem ofTable_injective {t u : Table Value} (h : Value.ofTable t = .ofTable u) : t = u := by
  refine List.map_injective_iff.2 ?_ (Value.mapping.inj h).2
  rintro ⟨name, v⟩ ⟨name', v'⟩ he
  simpa using he

theorem mem_ofList_ofJsonMembers {members : List (String × Json)} {name : String} {v : Value} :
    (name, v) ∈ Table.ofList (Value.ofJsonMembers members) ↔
      ∃ j, last? members name = some j ∧ v = .ofJson j := by
  rw [ofJsonMembers_eq_map, Table.ofList_map]
  simp only [last?, ← Table.mem_ofList, List.mem_map, Prod.exists, Prod.mk.injEq]
  constructor
  · rintro ⟨_, j, hj, rfl, rfl⟩
    exact ⟨j, hj, rfl⟩
  · rintro ⟨j, hj, rfl⟩
    exact ⟨name, j, hj, rfl, rfl⟩

theorem Decodes.eq_ofJson {j : Json} {v : Value} (h : Decodes j v) : v = .ofJson j := by
  induction h with
  | @array items vs hl _ ih =>
    have hvs : List.Forall₂ Eq (items.map .ofJson) vs :=
      List.forall₂_map_left_iff.2 (List.forall₂_iff_zip.2 ⟨hl, fun hm => (ih _ _ hm).symm⟩)
    rw [List.forall₂_eq_eq_eq] at hvs
    rw [Value.ofJson, ofJsonItems_eq_map, hvs]
  | @object members t hn _ ih =>
    rw [Value.ofJson]
    refine congrArg _ (Table.eq_of_names_eq ?_ ?_)
    · rw [Table.names_ofList, hn, ofJsonMembers_eq_map, List.map_map]
      rfl
    · intro name a b ha hb
      obtain ⟨j, hj, rfl⟩ := mem_ofList_ofJsonMembers.1 hb
      exact ih name a j ha hj
  | _ => rfl

mutual

theorem decodes_ofJson : ∀ j : Json, Decodes j (.ofJson j)
  | .null => .null
  | .bool b => .bool b
  | .int n => .int n
  | .float x => .float x
  | .text s => .text s
  | .array items => by
    rw [Value.ofJson, ofJsonItems_eq_map]
    have hitems : List.Forall₂ Decodes items (items.map .ofJson) :=
      List.forall₂_map_right_iff.2 (List.forall₂_same.2 (decodes_ofJson_items items))
    exact .array hitems.length_eq fun j v h => (List.forall₂_iff_zip.1 hitems).2 h
  | .object members => by
    rw [Value.ofJson]
    have hmembers := decodes_ofJson_members members
    refine .object ?_ fun name v j hv hj => ?_
    · rw [Table.names_ofList, ofJsonMembers_eq_map, List.map_map]
      rfl
    · obtain ⟨j', hj', rfl⟩ := mem_ofList_ofJsonMembers.1 hv
      obtain rfl : j' = j := Option.some.inj (hj'.symm.trans hj)
      exact hmembers _ (mem_of_last? hj)

theorem decodes_ofJson_items : ∀ items : List Json, ∀ j ∈ items, Decodes j (.ofJson j)
  | [] => nofun
  | j :: rest => List.forall_mem_cons.2 ⟨decodes_ofJson j, decodes_ofJson_items rest⟩

theorem decodes_ofJson_members : ∀ members : List (String × Json), ∀ m ∈ members,
    Decodes m.2 (.ofJson m.2)
  | [] => nofun
  | (_, j) :: rest => List.forall_mem_cons.2 ⟨decodes_ofJson j, decodes_ofJson_members rest⟩

end

theorem decodes_iff {j : Json} {v : Value} : Decodes j v ↔ v = .ofJson j :=
  ⟨Decodes.eq_ofJson, fun h => h ▸ decodes_ofJson j⟩

theorem decodes_object_iff {members : List (String × Json)} {t : Table Value} :
    Decodes (.object members) (.ofTable t) ↔ t = Table.ofList (Value.ofJsonMembers members) := by
  rw [decodes_iff, Value.ofJson]
  exact ⟨ofTable_injective, congrArg Value.ofTable⟩

end Inlay.Json
