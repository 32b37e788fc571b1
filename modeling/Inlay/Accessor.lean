import Inlay.Number.Literal
import Inlay.Text.Blank

/-! Accessors: a path segment looks up a key, or calls something by name. -/

namespace Inlay

inductive Accessor where
  | key (name : String)
  | call (name arguments : String)
  deriving DecidableEq

namespace Accessor

def isWord (c : Char) : Bool := c.isAlphanum || c == '_'

/-- A call is a word and arguments in parentheses up to the end; one line feed may follow. Every
other segment is a key. -/
def ofSegment (segment : String) : Accessor :=
  let cs := segment.toList
  let word := cs.takeWhile isWord
  match cs.dropWhile isWord with
  | '(' :: rest =>
    let body := Number.dropFinalLineFeed rest
    if word.isEmpty || body.getLast? != some ')' then .key segment
    else .call (String.ofList word) (String.ofList (Text.trim body.dropLast))
  | _ => .key segment

end Accessor

end Inlay
