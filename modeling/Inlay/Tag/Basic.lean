import Inlay.Text.Blank

/-! Tags: a path, the name of a post-processor, and a mark that turns escaping off. -/

namespace Inlay

structure Tag where
  path : String
  processor : Option String
  raw : Bool
  deriving DecidableEq

namespace Tag

/-- Letters and digits here are those of ASCII. -/
def isBody (c : Char) : Bool :=
  c.isAlphanum || c == '_' || c == '-' || c == ':' || c == '(' || c == ')' || c == '\'' ||
    c == '"' || c == ',' || Text.isBlank c

def isNameChar (c : Char) : Bool := c.isAlpha || c == '-'

def ending (processor : Option String) (raw : Bool) : List Char :=
  (match processor with | some name => ':' :: ':' :: name.toList | none => []) ++
    (if raw then ['~'] else []) ++ ['/', '>']

def print (t : Tag) : List Char := '<' :: t.path.toList ++ ending t.processor t.raw

end Tag

end Inlay
