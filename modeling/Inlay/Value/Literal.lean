import Inlay.Value.Attribute

/-! The text of a value inside a dump. -/

namespace Inlay.Value

def tupleText : List String → String
  | [s] => "(" ++ s ++ ",)"
  | items => "(" ++ String.intercalate ", " items ++ ")"

def rangeText (r : Range) : Except Fault String := do
  let start ← Number.writeInt r.start
  let stop ← Number.writeInt r.stop
  if r.step = 1 then return "range(" ++ start ++ ", " ++ stop ++ ")"
  else return "range(" ++ start ++ ", " ++ stop ++ ", " ++ (← Number.writeInt r.step) ++ ")"

def mappingText (form : MappingForm) (entries : List String) : String :=
  let braced := "\x7b" ++ String.intercalate ", " entries ++ "\x7d"
  if form = .readOnly then "mappingproxy(" ++ braced ++ ")" else braced

def callableText : Callable → String
  | .hosted _ label => label
  | .recased upper _ => "<built-in method " ++ (if upper then "upper" else "lower") ++ ">"

def memberText (owner : Value) (m : Member) : String :=
  match owner, m with
  | .wrapped .., .target => "HostObject." ++ m.name
  | _, .length | _, .invocation | _, .standard _ | _, .innate .. => owner.typeName ++ "." ++ m.name
  | _, _ => "ObjectHandle." ++ m.name

def boundText (owner : Value) (m : Member) (ownerText : String) : String :=
  match m, m.typeName with
  | .innate .., "type" => "<class '" ++ owner.typeName ++ "'>"
  | .innate _ name, "method-wrapper" =>
    "<method-wrapper '" ++ name ++ "' of " ++ owner.typeName ++ " object>"
  | .innate _ name, "builtin_function_or_method" =>
    "<built-in method " ++ name ++ " of " ++ owner.typeName ++ " object>"
  | .standard _, "type" => "<class '" ++ owner.moduleName ++ "." ++ owner.typeName ++ "'>"
  | .standard name, "method-wrapper" => "<method-wrapper '" ++ name ++ "' of " ++ ownerText ++ ">"
  | .standard name, _ => "<built-in method " ++ name ++ " of " ++ ownerText ++ ">"
  | m, _ => "<bound method " ++ memberText owner m ++ " of " ++ ownerText ++ ">"

def ownLiteral (v : Value) (shown : String) : Except Fault String :=
  match v.raised? "__repr__" with
  | some f => .error f
  | none => .ok shown

mutual

def literal : Value → Except Fault String
  | .null => .ok "None"
  | .bool b => .ok (if b then "True" else "False")
  | .int n => Number.writeInt n
  | .float x => .ok x.text
  | .text s => .ok (Text.quoted s)
  | .list items => (fun ts => "[" ++ String.intercalate ", " ts ++ "]") <$> literals items
  | .tuple items => tupleText <$> literals items
  | .range r => rangeText r
  | .mapping form entries => mappingText form <$> entryLiterals entries
  | .bytes false octets => .ok (Text.quotedOctets false octets)
  | .bytes true octets => .ok ("bytearray(" ++ Text.quotedOctets true octets ++ ")")
  | .missing => .ok "MISSING"
  | .callable c => .ok (callableText c)
  | .plain id shown own => ownLiteral (.plain id shown own) shown
  | .object id face own size =>
    ownLiteral (.object id face own size) ("<" ++ face.className ++ " object>")
  | .wrapped _ face _ => .ok ("<" ++ face.className ++ " object>")
  | .method owner m => boundText owner m <$> literal owner
  | .parts owner => .ok ("<generator object " ++ memberText owner .parts ++ ">")

def literals : List Value → Except Fault (List String)
  | [] => .ok []
  | v :: rest => do return (← literal v) :: (← literals rest)

def entryLiterals : List (Value × Value) → Except Fault (List String)
  | [] => .ok []
  | (key, v) :: rest => do
    let keyText ← literal key
    let text ← literal v
    return (keyText ++ ": " ++ text) :: (← entryLiterals rest)

end

/-- The text of a value in a message: a text as it is, a view of a mapping as the mapping, anything
else as its literal. -/
def display (v : Value) : Except Fault String :=
  match v, v.raised? "__str__" with
  | _, some f => .error f
  | .text s, none => .ok s
  | .mapping .readOnly entries, none => literal (.mapping .plain entries)
  | v, none => v.literal

/-- The text of a value inside a sentence, which a class may refuse to give. -/
def formatted (v : Value) : Except Fault String :=
  match v.raised? "__format__" with
  | some f => .error f
  | none => v.display

def literalOrFault (v : Value) : String :=
  match v.literal with
  | .ok s => s
  | .error f => "<repr-error " ++ Text.quoted f.message ++ ">"

end Inlay.Value
