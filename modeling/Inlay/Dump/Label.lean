import Inlay.Text.Width
import Inlay.Value.Content

/-! Labels of the parts of a dump, and the tokens of its lines. -/

namespace Inlay

namespace Value

def toCharacter (v : Value) : Except Fault Char := do
  v.checkHashable
  match v with
  | .text s =>
    match s.toList with
    | [c] => return c
    | cs => throw (.notOneCharacter cs.length)
  | .bytes _ [octet] => return Char.ofNat octet.toNat
  | .bytes _ octets => throw (.notOneCharacter octets.length)
  | v => throw (.notCharacter v.typeName)

def toCharacters : List Value → Except Fault (List Char)
  | [] => .ok []
  | [v] => ([·]) <$> v.toCharacter
  | v :: w :: rest => do
    let c ← v.toCharacter
    if c = Text.joiner then return c :: c :: (← toCharacters rest)
    else return c :: (← toCharacters (w :: rest))

/-- Widths of shorter values are kept, so these values must be hashable. -/
def keptLength : Nat := 512

def columns : Value → Except Fault Nat
  | .text s => .ok (Text.width s)
  | v => do
    if (← v.size) < keptLength then v.checkHashable
    match v with
    | .bytes .. => throw (.soughtInOctets (Value.text "").typeName)
    | .range _ => throw (.notCharacter (Value.int 0).typeName)
    | v =>
      match ← v.elements with
      | [] => v.size
      | items => return Text.width (String.ofList (← toCharacters items))

end Value

/-- What stands in front of a part: its name and what separates the two. A name that counts as false
gives no label. -/
structure Label where
  name : Value
  separator : String

namespace Label

def none : Label := ⟨.null, ""⟩

def ofText (name separator : String) : Label := ⟨.text name, separator⟩

def before (l : Label) (opening : String) : Except Fault String := do
  if ← l.name.truth then return (← l.name.formatted) ++ l.separator ++ opening else return opening

end Label

inductive Token where
  | text (s : String)
  | label (l : Label)

namespace Token

/-- Whether tokens fit into a line of which some columns are taken. What comes after the first that
does not fit is not looked at. -/
def fit (width : Nat) : Nat → List Token → Except Fault Bool
  | _, [] => .ok true
  | taken, .text s :: rest =>
    let taken := taken + Text.width s
    if taken ≤ width then fit width taken rest else .ok false
  | taken, .label l :: rest => do
    if ← l.name.truth then
      let named := taken + (← l.name.columns)
      let labelled := named + Text.width l.separator
      if named ≤ width ∧ labelled ≤ width then fit width labelled rest else return false
    else fit width taken rest

def values : List Token → Except Fault (List Value)
  | [] => .ok []
  | .text s :: rest => (.text s :: ·) <$> values rest
  | .label l :: rest => do
    if ← l.name.truth then return l.name :: .text l.separator :: (← values rest) else values rest

def joinFrom (place : Nat) : List Value → Except Fault String
  | [] => .ok ""
  | .text s :: rest => (s ++ ·) <$> joinFrom (place + 1) rest
  | v :: _ => .error (.notText place v.typeName)

def join (tokens : List Token) : Except Fault String := do joinFrom 0 (← values tokens)

end Token

end Inlay
