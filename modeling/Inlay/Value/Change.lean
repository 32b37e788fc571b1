import Inlay.Value.Attribute

/-! Changes: an object of the host may come to hold other values of its own, and does so wherever it
stands. What its class has for it stays. -/

namespace Inlay

structure Change where
  id : Nat
  holdings : Table Value

class Changes (τ : Type) where
  change : Change → τ → τ

namespace Value

def id : Value → Nat
  | .plain id .. | .object id .. | .wrapped id .. => id
  | _ => 0

def isAmong (v : Value) (ids : List Nat) : Bool := v.id ≠ 0 && ids.contains v.id

def holding (own : Table Attribute) (holdings : Table Value) : Table Attribute :=
  own.filter (·.2.value?.isNone) ++ holdings.map fun (name, v) => (name, .value v)

mutual

def after (c : Change) : Value → Value
  | .list items => .list (itemsAfter c items)
  | .tuple items => .tuple (itemsAfter c items)
  | .mapping form entries => .mapping form (entriesAfter c entries)
  | .plain id shown own =>
    .plain id shown (if id = c.id then holding own c.holdings else ownAfter c own)
  | .object id face own size =>
    .object id face (if id = c.id then holding own c.holdings else ownAfter c own) size
  | .wrapped id face target => .wrapped id face (after c target)
  | .method owner m => .method (after c owner) m
  | .parts owner => .parts (after c owner)
  | v => v

def itemsAfter (c : Change) : List Value → List Value
  | [] => []
  | v :: rest => after c v :: itemsAfter c rest

def entriesAfter (c : Change) : List (Value × Value) → List (Value × Value)
  | [] => []
  | (key, v) :: rest => (after c key, after c v) :: entriesAfter c rest

def ownAfter (c : Change) : List (String × Attribute) → List (String × Attribute)
  | [] => []
  | (name, .value v) :: rest => (name, .value (after c v)) :: ownAfter c rest
  | (name, .raises kind message) :: rest => (name, .raises kind message) :: ownAfter c rest

end

/-- The type that refuses references to an object, and its name. -/
def referenceName : String := "__weakref__"

def referringType : Value → String
  | .object .. | .wrapped .. => "ObjectHandle"
  | v => v.typeName

def given (v : Value) (name : String) (w : Value) : Except Fault (Table Value) :=
  if (v.raised? name).isSome then .error (.noSetter v.typeName name)
  else if name = className then .error (.classNotClass w.typeName)
  else if name = referenceName then .error (.notWritable v.referringType name)
  else if name = holdingsName then
    match w with
    | .mapping .plain entries =>
      .ok (Table.ofList (entries.filterMap fun (key, v) =>
        match key with | .text s => some (s, v) | _ => none))
    | w => .error (.holdingsNotTable w.typeName)
  else .ok (Table.insert v.holdings name w)

def withdrawn (v : Value) (name : String) : Except Fault (Table Value) :=
  if (v.raised? name).isSome then .error (.noDeleter v.typeName name)
  else if name = className then .error .classKept
  else if name = referenceName then .error (.notWritable v.referringType name)
  else if name = holdingsName then .ok []
  else if Table.contains v.holdings name then .ok (Table.erase v.holdings name)
  else .error (.noAttribute v.typeName name)

end Value

end Inlay
