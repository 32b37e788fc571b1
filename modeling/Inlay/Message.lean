import Inlay.Act
import Inlay.Message.Reference
import Inlay.Message.Template

/-! Journal messages: a template alone is the message; with further values, its fields are
replaced by them. -/

namespace Inlay.Message

def asciiChar (c : Char) : List Char := if c.toNat < 0x80 then [c] else Text.escapeCode c.toNat

def convert (conversion : Char) (s : Subject) : Except Complaint (List Char) :=
  match conversion with
  | 's' => s.displayText
  | 'r' => String.toList <$> s.literalText
  | 'a' => (·.toList.flatMap asciiChar) <$> s.literalText
  | c => .error (.unknownConversion c)

def converted (conversion : Option Char) (s : Subject) : Except Complaint Subject :=
  match conversion with
  | none | some '\x00' => .ok s
  | some c => (fun cs => .value (.text (String.ofList cs))) <$> convert c s

/-- How deep templates nest: the layout of a field may have fields, whose layouts have none. -/
def nestingCap : Nat := 2

def expand (values : Values) :
    Nat → Numbering → List Char → Except Complaint (List Char × Numbering)
  | 0, _, _ => .error .nestedTooDeep
  | depth + 1, numbering, template => do
    let replace (progress : List (List Char) × Numbering) (piece : Piece) :
        Except Complaint (List (List Char) × Numbering) :=
      let (texts, numbering) := progress
      match piece with
      | .char c => .ok ([c] :: texts, numbering)
      | .malformed complaint => .error complaint
      | .field f => do
        let (s, numbering) ← resolve values numbering f.reference
        let s ← converted f.conversion s
        let (layout, numbering) ←
          if f.layout.contains '\x7b' then expand values depth numbering f.layout
          else pure (f.layout, numbering)
        return ((← s.lay layout) :: texts, numbering)
    let (texts, numbering) ← (pieces template).foldlM replace ([], numbering)
    return (texts.reverse.flatten, numbering)

def templateName : String := "_Logger__message"

def loggerName : String := "_Logger__self"

/-- The template of a call and the values for it. A name may give the template too. -/
def split (arguments : List Value) (named : Table Value) : Except Complaint (Value × Values) :=
  match arguments, Table.get? named templateName with
  | [], none => .error .noTemplate
  | [], some template => .ok (template, ⟨[], Table.erase named templateName⟩)
  | template :: positional, _ => .ok (template, ⟨positional, named⟩)

def repeated? (arguments : List Value) (named : Table Value) : Option String :=
  (named.map (·.1)).find? fun name =>
    name == loggerName || (name == templateName && !arguments.isEmpty)

def compose (arguments : List Value) (named : Table Value) : Except Complaint String := do
  if let some name := repeated? arguments named then throw (.repeatedTemplate name)
  let (template, values) ← split arguments named
  if values.positional.isEmpty && values.named.isEmpty then
    return String.ofList (← display template)
  match template with
  | .text s => return String.ofList (← expand values nestingCap .undecided s.toList).1
  | v => throw (.noAttribute ("'" ++ v.typeName ++ "' object") "format")

/-- Notes the message of a call, or else gives a line that says what is wrong with the call. A quiet
journal has neither. -/
def log (arguments : List Value) (named : Table Value) (j : Journal) : Option String × Journal :=
  if j.quiet then (none, j)
  else match compose arguments named with
    | .ok message => (none, j.note message)
    | .error c => (some ("Logging error: " ++ c.message ++ "\n"), j)

end Inlay.Message
