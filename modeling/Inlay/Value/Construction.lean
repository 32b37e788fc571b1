import Inlay.Value.Change
import Inlay.Value.Content

/-! Construction: the values that a host makes out of parts. Some parts make no value. -/

namespace Inlay.Value

def putEntry : List (Value × Value) → Value → Value → List (Value × Value)
  | [], key, v => [(key, v)]
  | (key, v) :: rest, key', v' =>
    if key.equals key' then (key, v') :: rest else (key, v) :: putEntry rest key' v'

def makeMapping (form : MappingForm) (entries : List (Value × Value)) : Except Fault Value := do
  let put (made : List (Value × Value)) (entry : Value × Value) := do
    entry.1.checkHashable
    return putEntry made entry.1 entry.2
  return .mapping form (← entries.foldlM put [])

def makeRange (start stop step : Int) : Except Fault Value :=
  if step = 0 then .error .zeroStep else .ok (.range ⟨start, stop, step⟩)

def raiserName : String := "property"

def checkMaking (v : Value) : Except Fault Unit :=
  let faults := [("__slots__", Fault.notIterable raiserName),
    ("__qualname__", .longNameNotText raiserName), ("__new__", .notCallable raiserName)]
  match faults.find? fun (name, _) => (v.raised? name).isSome, v.raised? "__init__" with
  | some (_, f), _ => .error f
  | none, some f => .error f
  | none, none => .ok ()

def withOwn (v : Value) (own : Table Attribute) : Value :=
  match v with
  | .plain id shown _ => .plain id shown own
  | .object id face _ size => .object id face own size
  | v => v

/-- Makes an object that has some attributes: first its class with the members that raise, then the
object, which is given its values one after the other. -/
def make (v : Value) : Except Fault Value := do
  v.checkMaking
  let give (made : Value) (entry : String × Value) := do
    if let some f := v.raised? "__setattr__" then throw f
    return made.withOwn (holding made.own (← made.given entry.1 entry.2))
  v.holdings.foldlM give (v.withOwn (holding v.own []))

def makePlain (id : Nat) (shown : String) (attributes : Table Attribute) : Except Fault Value :=
  (Value.plain id shown attributes).make

/-- The lists of a face take the place of attributes of their names. -/
def makeObject (id : Nat) (face : Face) (attributes : Table Attribute) (size : Option Int) :
    Except Fault Value :=
  let own := attributes.filter fun (name, _) => !Table.contains face.lists name
  if face.className.toList.contains '\x00' then .error .nullInName
  else (Value.object id face own size).make

end Inlay.Value
