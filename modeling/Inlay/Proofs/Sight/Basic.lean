import Inlay.Context
import Inlay.Value.Content
import Inlay.Value.Change

/-! What is seen of values: objects of the host keep only those of their attributes that are in
sight. -/

namespace Inlay

/-- The names by which handles are asked and the values of a host taken for what they are. Nobody
lists these, so an object always answers to them. -/
def Sight.askedNames : List String :=
  [Face.propertiesName, Face.methodsName, "items", "__qualname__", Value.className,
    Value.readerName, Value.fallbackName, Value.callName, Member.length.name, "__bool__",
    "__iter__", "__getitem__", "__contains__", "__hash__", "__eq__", "__length_hint__", "__str__",
    "__repr__", "__format__", "__module__"] ++ Member.common.map Member.name

/-- The names by which an object is changed, and those that give out any of its members or its
class, which makes handles with other lists. -/
def Sight.changingNames : List String :=
  ["__setattr__", "__delattr__", "__init__", Value.readerName, Value.className, "__reduce__",
    "__reduce_ex__"]

def Sight.holdingNames : List String := [Value.holdingsName, "__getstate__", "__dir__"]

def Sight.reflectiveNames : List String := changingNames ++ holdingNames

structure Sight where
  shows : Nat → String → Bool
  /-- The objects that a callable may name as the target of a handle. -/
  reaches : Nat → Nat → Bool
  /-- The names that a callable may let pass as methods of a handle. -/
  grants : Nat → String → Bool
  /-- Whether handles may list all names, which is only where nothing is hidden. -/
  free : Bool
  asked : ∀ id, ∀ name ∈ Sight.askedNames, shows id name = true
  shows_of_free : free = true → ∀ id name, shows id name = true

namespace Sight

def Clear (s : Sight) : Prop := ∀ id name, s.shows id name = true

def Full (s : Sight) : Prop := s.free = true

theorem Full.clear {s : Sight} (h : s.Full) : s.Clear := s.shows_of_free h

def Bars (s : Sight) (name : String) : Prop :=
  name ∈ changingNames ∨ ¬s.Clear ∧ name ∈ holdingNames

theorem not_bars {s : Sight} {name : String} (h : name ∉ reflectiveNames) : ¬s.Bars name :=
  fun hb => h (List.mem_append.2 (hb.imp_right And.right))

theorem notMem_of_not_bars {s : Sight} {name : String} (hc : ¬s.Clear) (h : ¬s.Bars name) :
    name ∉ reflectiveNames :=
  fun hm => h ((List.mem_append.1 hm).imp_right fun hh => ⟨hc, hh⟩)

def full : Sight :=
  ⟨fun _ _ => true, fun _ _ => true, fun _ _ => true, true, fun _ _ _ => rfl, fun _ _ _ => rfl⟩

theorem full_full : full.Full := rfl

/-- All is in sight, but handles may not list the names by which objects are changed. Callables let
pass as methods what is granted to them. -/
def watch (granted : Nat → String → Bool) : Sight :=
  ⟨fun _ _ => true, fun _ _ => true, granted, false, fun _ _ _ => rfl, fun _ _ _ => rfl⟩

theorem watch_clear (granted : Nat → String → Bool) : (watch granted).Clear := fun _ _ => rfl

theorem watch_not_full (granted : Nat → String → Bool) : ¬(watch granted).Full := Bool.noConfusion

def ofLists (listed : Nat → List String) : Sight where
  shows id name := decide (name ∈ askedNames ∨ name ∈ listed id)
  reaches _ _ := true
  grants _ _ := true
  free := false
  asked _ _ h := decide_eq_true (.inl h)
  shows_of_free := Bool.noConfusion

end Sight

mutual

def Value.seen (s : Sight) : Value → Value
  | .list items => .list (Value.seenItems s items)
  | .tuple items => .tuple (Value.seenItems s items)
  | .mapping form entries => .mapping form (Value.seenEntries s entries)
  | .plain id shown own => .plain id shown (Value.seenOwn s id own)
  | .object id face own size => .object id face (Value.seenOwn s id own) size
  | .wrapped id face target => .wrapped id face (Value.seen s target)
  | .method owner m => .method (Value.seen s owner) m
  | .parts owner => .parts (Value.seen s owner)
  | v => v

def Value.seenItems (s : Sight) : List Value → List Value
  | [] => []
  | v :: rest => Value.seen s v :: Value.seenItems s rest

def Value.seenEntries (s : Sight) : List (Value × Value) → List (Value × Value)
  | [] => []
  | (key, v) :: rest => (Value.seen s key, Value.seen s v) :: Value.seenEntries s rest

def Value.seenOwn (s : Sight) (id : Nat) : List (String × Attribute) → List (String × Attribute)
  | [] => []
  | (name, a) :: rest =>
    if s.shows id name then (name, Attribute.seen s a) :: Value.seenOwn s id rest
    else Value.seenOwn s id rest

def Attribute.seen (s : Sight) : Attribute → Attribute
  | .value v => .value (Value.seen s v)
  | .raises kind message => .raises kind message

end

variable {s : Sight}

namespace Value

theorem seenItems_eq_map (items : List Value) : seenItems s items = items.map (seen s) := by
  induction items with
  | nil => rfl
  | cons v rest ih => rw [seenItems, ih, List.map_cons]

theorem seenEntries_eq_map (entries : List (Value × Value)) :
    seenEntries s entries = entries.map fun (key, v) => (seen s key, seen s v) := by
  induction entries with
  | nil => rfl
  | cons entry rest ih => rw [seenEntries, ih, List.map_cons]

theorem get?_seenOwn {id : Nat} {name : String} (h : s.shows id name = true)
    (own : Table Attribute) :
    Table.get? (seenOwn s id own) name = (Table.get? own name).map (Attribute.seen s) := by
  induction own with
  | nil => rfl
  | cons entry rest ih =>
    obtain ⟨n, a⟩ := entry
    rw [seenOwn]
    by_cases hn : n = name
    · subst hn
      simp [h, Table.get?]
    · by_cases hs : s.shows id n = true
      · simp [hs, Table.get?, hn, ih]
      · simp [hs, Table.get?, hn, ih]

mutual

theorem seen_seen : ∀ v : Value, (v.seen s).seen s = v.seen s
  | .list items | .tuple items => by rw [seen, seen, seenItems_seenItems items]
  | .mapping form entries => by rw [seen, seen, seenEntries_seenEntries entries]
  | .plain id _ own | .object id _ own _ => by rw [seen, seen, seenOwn_seenOwn id own]
  | .wrapped id face target => by rw [seen, seen, seen_seen target]
  | .method owner _ | .parts owner => by rw [seen, seen, seen_seen owner]
  | .null | .bool _ | .int _ | .float _ | .text _ | .range _ | .bytes .. | .missing
  | .callable _ => rfl

theorem seenItems_seenItems : ∀ items : List Value,
    seenItems s (seenItems s items) = seenItems s items
  | [] => rfl
  | v :: rest => by rw [seenItems, seenItems, seen_seen v, seenItems_seenItems rest]

theorem seenEntries_seenEntries : ∀ entries : List (Value × Value),
    seenEntries s (seenEntries s entries) = seenEntries s entries
  | [] => rfl
  | (key, v) :: rest => by
    rw [seenEntries, seenEntries, seen_seen key, seen_seen v, seenEntries_seenEntries rest]

theorem seenOwn_seenOwn (id : Nat) : ∀ own : List (String × Attribute),
    seenOwn s id (seenOwn s id own) = seenOwn s id own
  | [] => rfl
  | (name, a) :: rest => by
    by_cases h : s.shows id name = true
    · rw [seenOwn, if_pos h, seenOwn, if_pos h, attribute_seen_seen a, seenOwn_seenOwn id rest]
    · rw [seenOwn, if_neg h, seenOwn_seenOwn id rest]

theorem attribute_seen_seen : ∀ a : Attribute, (a.seen s).seen s = a.seen s
  | .value v => by rw [Attribute.seen, Attribute.seen, seen_seen v]
  | .raises .. => rfl

end

mutual

theorem seen_of_clear (h : s.Clear) : ∀ v : Value, v.seen s = v
  | .list items | .tuple items => by rw [seen, seenItems_of_clear h items]
  | .mapping form entries => by rw [seen, seenEntries_of_clear h entries]
  | .plain id _ own | .object id _ own _ => by rw [seen, seenOwn_of_clear h id own]
  | .wrapped id face target => by rw [seen, seen_of_clear h target]
  | .method owner _ | .parts owner => by rw [seen, seen_of_clear h owner]
  | .null | .bool _ | .int _ | .float _ | .text _ | .range _ | .bytes .. | .missing
  | .callable _ => rfl

theorem seenItems_of_clear (h : s.Clear) : ∀ items : List Value, seenItems s items = items
  | [] => rfl
  | v :: rest => by rw [seenItems, seen_of_clear h v, seenItems_of_clear h rest]

theorem seenEntries_of_clear (h : s.Clear) : ∀ entries : List (Value × Value),
    seenEntries s entries = entries
  | [] => rfl
  | (key, v) :: rest => by
    rw [seenEntries, seen_of_clear h key, seen_of_clear h v, seenEntries_of_clear h rest]

theorem seenOwn_of_clear (h : s.Clear) (id : Nat) : ∀ own : List (String × Attribute),
    seenOwn s id own = own
  | [] => rfl
  | (name, a) :: rest => by
    rw [seenOwn, if_pos (h id name), attribute_seen_of_clear h a, seenOwn_of_clear h id rest]

theorem attribute_seen_of_clear (h : s.Clear) : ∀ a : Attribute, a.seen s = a
  | .value v => by rw [Attribute.seen, seen_of_clear h v]
  | .raises .. => rfl

end

end Value

end Inlay
