import Inlay.Act
import Inlay.Path
import Inlay.Text.Blank
import Inlay.Value.Basic

/-! Call arguments: the tokens between commas, and what each one stands for. -/

namespace Inlay

def isQuote (c : Char) : Bool := c == '\'' || c == '"'

inductive QuoteState where
  | outside
  | inside (quote : Char)
  | escaped (quote : Char)
  deriving DecidableEq

def QuoteState.step : QuoteState → Char → QuoteState
  | .outside, c => if isQuote c then .inside c else .outside
  | .inside quote, c =>
    if c = '\\' then .escaped quote else if c = quote then .outside else .inside quote
  | .escaped quote, _ => .inside quote

inductive Argument where
  | literal (v : Value)
  | reference (selector : String) (keys : List String)
  | unrecognized (token : String)

namespace Argument

/-- The pieces between the delimiters outside strings. A quote is never a delimiter. -/
def cut (delimiter : Option Char) : QuoteState → List Char → List (List Char)
  | _, [] => [[]]
  | state, c :: rest =>
    if state = .outside ∧ delimiter = some c ∧ ¬isQuote c then [] :: cut delimiter .outside rest
    else Path.extend c (cut delimiter (state.step c) rest)

def split (delimiter : Option Char) (raw : List Char) : List (List Char) :=
  if (Text.trim raw).isEmpty then [] else cut delimiter .outside raw

def unescape : List Char → List Char
  | [] => []
  | [c] => if c = '\\' then [] else [c]
  | c :: d :: rest => if c = '\\' then d :: unescape rest else c :: unescape (d :: rest)

/-- The text between two equal quotes. A quote alone opens and closes the empty string. -/
def string? (token : List Char) : Option String :=
  match token with
  | quote :: rest =>
    if isQuote quote ∧ token.getLast? = some quote then
      some (String.ofList (unescape rest.dropLast))
    else none
  | [] => none

def isLowerLetter (c : Char) : Bool := 'a' ≤ c && c ≤ 'z'

def isReferenceChar (c : Char) : Bool := c.isAlphanum || c == ':' || c == '_' || c == '-'

/-- A source in lower-case letters, a colon and keys between colons. One line feed may follow. -/
def reference? (token : List Char) : Option (String × List String) :=
  let cs := Number.dropFinalLineFeed token
  match cs.takeWhile isLowerLetter, cs.dropWhile isLowerLetter with
  | letter :: letters, ':' :: path =>
    if !path.isEmpty && path.all isReferenceChar then
      some (String.ofList (letter :: letters), (Path.cut (some ':') 0 path).map String.ofList)
    else none
  | _, _ => none

/-- The words for truth values and null, in any letter case. Only ASCII letters have an ASCII letter
of these words as their lower case. -/
def keyword? (token : List Char) : Option Value :=
  let word := token.map Char.toLower
  if word = ['t', 'r', 'u', 'e'] then some (.bool true)
  else if word = ['f', 'a', 'l', 's', 'e'] then some (.bool false)
  else if word = ['n', 'u', 'l', 'l'] then some .null
  else none

def ofToken (token : List Char) : Except Fault Argument := do
  if let some s := string? token then
    return .literal (.text s)
  if let some (selector, keys) := reference? token then
    return .reference selector keys
  if let some n ← Number.ofText token then
    return .literal (.ofNumber n)
  if let some v := keyword? token then
    return .literal v
  return if token.isEmpty then .literal .null else .unrecognized (String.ofList token)

variable {τ : Type} [Reports τ]

def eval (resolve : String → List String → Act τ Value) : Argument → Act τ Value
  | .literal v => pure v
  | .reference selector keys => resolve selector keys
  | .unrecognized token => do
    Act.report ("Unrecognized argument treated as null: " ++ token)
    return .null

def evalToken (resolve : String → List String → Act τ Value) (token : List Char) : Act τ Value := do
  eval resolve (← Act.ofExcept (ofToken token))

def evalAll (resolve : String → List String → Act τ Value) (raw : String) : Act τ (List Value) :=
  (split (some ',') raw.toList).mapM fun token => evalToken resolve (Text.trim token)

end Argument

end Inlay
