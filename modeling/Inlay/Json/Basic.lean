import Inlay.Act
import Inlay.Value.Shown

/-! JSON documents, and the document that a value is encoded as. -/

namespace Inlay

inductive Json where
  | null
  | bool (b : Bool)
  | int (n : Int)
  | float (x : Binary64)
  | text (s : String)
  | array (items : List Json)
  | object (members : List (String × Json))

namespace Json

/-- How a number without JSON form is reported: by itself, or not at all. A report that is silent
about it also has little room for the name of a type. -/
inductive Report where
  | silent
  | shown

/-- How a fault in reading a handle is reported. Where numbers are reported by themselves, parts are
read one by one, and a stop signal cannot leave this reading. -/
def Report.ofReading : Report → Fault → Fault
  | .silent, f => f
  | .shown, f => f.ofReading

def notFinite (report : Report) (x : Binary64) : Fault :=
  .notFinite (match report with | .silent => none | .shown => some x.text)

def ofFloat (report : Report) (x : Binary64) : Except Fault Json :=
  if x.isFinite then .ok (.float x) else .error (notFinite report x)

def ofInt (n : Int) : Except Fault Json := (fun _ => .int n) <$> Number.writeInt n

/-- How many levels down a value is met again that has taken the place of one without a form of its
own. -/
def Report.detour : Report → Nat
  | .silent => 1
  | .shown => 2

def Report.levels (report : Report) : MappingForm → Nat
  | .plain => 1
  | .readOnly | .custom => report.detour + 1

def ofRange (report : Report) (room : Nat) (r : Range) : Except Fault Json := do
  let _ ← Value.rangeLength r
  if room < report.detour + 1 then throw .tooDeep
  return .array (← r.toList.mapM ofInt)

def ofLeaf (report : Report) (room : Nat) : Value → Except Fault Json
  | .null => .ok .null
  | .bool b => .ok (.bool b)
  | .int n => ofInt n
  | .float x => ofFloat report x
  | .text s => .ok (.text s)
  | .range r => ofRange report room r
  | v => .error (.notEncodable v.typeName)

/-- What comes of telling which form a value has. Where numbers are reported by themselves, every
value is asked for its class. -/
def checkForm (report : Report) (v : Value) : Except Fault Unit :=
  match report with
  | .silent => .ok ()
  | .shown => v.checkClass

def memberName (report : Report) : Value → Except Fault String
  | .text s => .ok s
  | .float x => if x.isFinite then .ok x.text else .error (notFinite report x)
  | .bool b => .ok (if b then "true" else "false")
  | .null => .ok "null"
  | .int n => Number.writeInt n
  | v =>
    match report with
    | .silent => .error (.keyNotEncodable (Fault.cut 100 v.typeName))
    | .shown => do
      v.readClass.mapError report.ofReading
      throw (.keyNotEncodable v.typeName)

variable {τ : Type}

def descend {α : Type} (levels room : Nat) (act : Nat → Act τ α) : Act τ α :=
  if levels ≤ room then act (room - levels) else throw .tooDeep

variable (report : Report) (ask : Nat → Value → Act τ Json)

mutual

/-- Sequences become arrays; mappings and handles become objects. An object that has to be asked
becomes what comes of that. The first part in order that has no JSON form is the fault. The room is
the number of levels that are left to go down. -/
def ofShown (room : Nat) : Shown → Act τ Json
  | .leaf v => Act.ofExcept (ofLeaf report room v)
  | .list items => descend 1 room fun room => .array <$> ofItems room items
  | .tuple items => descend 1 room fun room => .array <$> ofItems room items
  | .mapping form entries =>
    descend (report.levels form) room fun room => .object <$> ofEntries room entries
  | .handle _ properties =>
    descend (report.detour + 1) room fun room => .object <$> ofProperties room properties
  | .unreadable f => throw (report.ofReading f)
  | .asked v => ask room v

def ofItems (room : Nat) : List Shown → Act τ (List Json)
  | [] => return []
  | s :: rest => return (← ofShown room s) :: (← ofItems room rest)

def ofEntries (room : Nat) : List (Value × Shown) → Act τ (List (String × Json))
  | [] => return []
  | (key, s) :: rest => do
    let name ← Act.ofExcept (memberName report key)
    return (name, ← ofShown room s) :: (← ofEntries room rest)

def ofProperties (room : Nat) : List (String × Shown) → Act τ (List (String × Json))
  | [] => return []
  | (name, s) :: rest => return (name, ← ofShown room s) :: (← ofProperties room rest)

end

end Json

mutual

/-- The value that a document stands for: of members of one name the last counts, in the place of
the first. -/
def Value.ofJson : Json → Value
  | .null => .null
  | .bool b => .bool b
  | .int n => .int n
  | .float x => .float x
  | .text s => .text s
  | .array items => .list (Value.ofJsonItems items)
  | .object members => .ofTable (Table.ofList (Value.ofJsonMembers members))

def Value.ofJsonItems : List Json → List Value
  | [] => []
  | j :: rest => Value.ofJson j :: Value.ofJsonItems rest

def Value.ofJsonMembers : List (String × Json) → List (String × Value)
  | [] => []
  | (name, j) :: rest => (name, Value.ofJson j) :: Value.ofJsonMembers rest

end

end Inlay
