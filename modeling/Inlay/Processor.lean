import Inlay.Json.Encoding
import Inlay.Value.Render

/-! Post-processors: named transformations of the value of a tag. -/

namespace Inlay

inductive Processor where
  | json
  | indentedJson
  | length
  | count
  | upper
  | lower
  | unset
  | hosted (c : Callable)

structure Origin where
  source : Source
  segments : List String
  indent : Int

namespace Processor

variable {σ : Type}

/-- The JSON text of a value, for which there is some room. A value that has none is reported and
gives the empty text; faults other than those of type and value pass on. -/
def encodeWithin (host : Host σ) (room : Nat) (indent : Option Int) (v : Value) :
    Act (World σ) Value := do
  match ← Act.observe (Json.encode host room indent v) with
  | .ok s => return .text s
  | .error f =>
    if f.isTypeOrValue then
      Act.report ("JSON encoding failed: " ++ f.message)
      return .text ""
    else throw f

def encode (host : Host σ) (indent : Option Int) (v : Value) : Act (World σ) Value :=
  encodeWithin host Json.nestingCap indent v

def countOf (host : Host σ) (v : Value) : Act (World σ) Value := do
  match ← Act.ofExcept v.classify with
  | .sequence | .mapping => return .int (← Act.ofExcept v.size)
  | .object =>
    let countable ← v.ask host .countable []
    if ← Act.ofExcept countable.truth then v.ask host .count [] else return .text ""
  | _ => return .text ""

def ofText (f : String → Value) (v : Value) : Except Fault Value := do
  let _ ← v.classify
  match v with
  | .text s => return f s
  | _ => return .text ""

/-- Removes the entry `session:key` of a tag that has exactly this path. -/
def removeEntry (origin : Origin) : Act (World σ) Unit :=
  match origin.source, origin.segments with
  | .session, [name] => modify fun w => { w with context := (w.context.unset name).2 }
  | _, _ => pure ()

def run (host : Host σ) (v : Value) (origin : Origin) : Processor → Act (World σ) Value
  | .json => encode host none v
  | .indentedJson => encode host (some origin.indent) v
  | .length => Act.ofExcept (ofText (fun s => .int s.length) v)
  | .count => countOf host v
  | .upper => Act.ofExcept (ofText (fun s => .text (Text.upper s)) v)
  | .lower => Act.ofExcept (ofText (fun s => .text (Text.lower s)) v)
  | .unset => do
    removeEntry origin
    return .text ""
  | .hosted c => c.invoke host [v]

def builtIn : Table Processor :=
  [("json", .json), ("pjson", .indentedJson), ("jsonp", .indentedJson),
    ("prettyjson", .indentedJson), ("json-p", .indentedJson), ("pretty-json", .indentedJson),
    ("length", .length), ("count", .count), ("upper", .upper), ("lower", .lower),
    ("unset", .unset)]

def addTo (table : Table Processor) (name : String) (p : Processor) :
    Except Fault (Table Processor) :=
  if Table.contains table name then .error (.processorTaken name)
  else .ok (Table.insert table name p)

def unknown (name : String) : String := "Unknown post-processor: " ++ name

def apply (host : Host σ) (table : Table Processor) (name : Option String) (v : Value)
    (origin : Origin) : Act (World σ) Value :=
  match name with
  | none => return v
  | some name =>
    match Table.get? table name with
    | some p => p.run host v origin
    | none => do
      Act.report (unknown name)
      return .text ""

end Processor

end Inlay
