import Inlay.Json.Reader
import Inlay.Proofs.Number.Spelling

/-! The grammar of JSON documents, by what they spell. Beyond the standard there are not a number
and the infinities, and integers have no more digits than are read. -/

namespace Inlay.Json

def IsBlank (cs : List Char) : Prop := ∀ c ∈ cs, isSpace c = true

/-! Strings. -/

def IsHexDigit (c : Char) (d : Nat) : Prop :=
  d < 16 ∧ (c = Nat.digitChar d ∨ c = (Nat.digitChar d).toUpper)

inductive IsUnit : List Char → Nat → Prop
  | digits {a b c d : Char} {w x y z : Nat} : IsHexDigit a w → IsHexDigit b x → IsHexDigit c y →
    IsHexDigit d z → IsUnit [a, b, c, d] (w * 0x1000 + x * 0x100 + y * 0x10 + z)

def StartsLow (cs : List Char) : Prop :=
  ∃ unit n rest, cs = '\\' :: 'u' :: (unit ++ rest) ∧ IsUnit unit n ∧ isLowSurrogate n = true

/-- The text between the quotation marks of a string, and its characters. Half of a surrogate pair
alone has no character of its own, and stands for the replacement character. -/
inductive StringBody : List Char → List Char → Prop
  | nil : StringBody [] []
  | plain {c : Char} {cs es : List Char} : 0x20 ≤ c.toNat → c ≠ '"' → c ≠ '\\' →
    StringBody cs es → StringBody (c :: cs) (c :: es)
  | escape {mark c : Char} {cs es : List Char} : escaped? mark = some c →
    StringBody cs es → StringBody ('\\' :: mark :: cs) (c :: es)
  | unit {unit cs es : List Char} {n : Nat} : IsUnit unit n → isHighSurrogate n = false →
    isLowSurrogate n = false → StringBody cs es →
    StringBody ('\\' :: 'u' :: (unit ++ cs)) (Char.ofNat n :: es)
  | pair {unit unit' cs es : List Char} {high low : Nat} : IsUnit unit high → IsUnit unit' low →
    isHighSurrogate high = true → isLowSurrogate low = true → StringBody cs es →
    StringBody ('\\' :: 'u' :: (unit ++ '\\' :: 'u' :: (unit' ++ cs))) (charOfPair high low :: es)
  | half {unit cs es : List Char} {n : Nat} : IsUnit unit n →
    isHighSurrogate n = true ∧ ¬StartsLow cs ∨ isLowSurrogate n = true → StringBody cs es →
    StringBody ('\\' :: 'u' :: (unit ++ cs)) (Char.ofNat 0xFFFD :: es)

def quoted (cs : List Char) : List Char := '"' :: (cs ++ ['"'])

/-! Numbers. -/

def AreDigits (ds : List Char) : Prop := ds ≠ [] ∧ ∀ c ∈ ds, c.isDigit = true

def minus (negative : Bool) : List Char := if negative then ['-'] else []

def numberOf (ds : List Char) : Nat := Nat.ofDigitChars 10 ds 0

inductive Fraction : List Char → List Char → Prop
  | absent : Fraction [] []
  | digits {ds : List Char} : AreDigits ds → Fraction ('.' :: ds) ds

inductive Exponent : List Char → Int → Prop
  | absent : Exponent [] 0
  | digits {mark : Char} {sign ds : List Char} : mark = 'e' ∨ mark = 'E' →
    sign ∈ [[], ['+'], ['-']] → AreDigits ds →
    Exponent (mark :: (sign ++ ds)) (Binary64.signed (sign == ['-']) (numberOf ds))

inductive NumberText : List Char → Json → Prop
  | int {negative : Bool} {ds : List Char} : Number.IsWhole ds → ds.length ≤ Number.digitCap →
    NumberText (minus negative ++ ds) (.int (Binary64.signed negative (numberOf ds)))
  | float {negative : Bool} {ds part digits power : List Char} {n : Int} : Number.IsWhole ds →
    Fraction part digits → Exponent power n → part ≠ [] ∨ power ≠ [] →
    NumberText (minus negative ++ (ds ++ (part ++ power)))
      (.float (.ofDecimal negative (numberOf (ds ++ digits)) (n - digits.length)))

/-! Documents. -/

/-- What a phrase of a document spells: a value, a value or a member between blanks, or the items
and the members between brackets, of which there is at least one. -/
inductive Phrase where
  | value (j : Json)
  | item (j : Json)
  | items (js : List Json)
  | member (name : String) (j : Json)
  | members (ms : List (String × Json))

inductive Spells : Phrase → List Char → Prop
  | null : Spells (.value .null) ['n', 'u', 'l', 'l']
  | isTrue : Spells (.value (.bool true)) ['t', 'r', 'u', 'e']
  | isFalse : Spells (.value (.bool false)) ['f', 'a', 'l', 's', 'e']
  | nan : Spells (.value (.float .nan)) ['N', 'a', 'N']
  | infinite (negative : Bool) : Spells (.value (.float (.infinite negative)))
    (minus negative ++ ['I', 'n', 'f', 'i', 'n', 'i', 't', 'y'])
  | number {cs : List Char} {j : Json} : NumberText cs j → Spells (.value j) cs
  | text {cs es : List Char} : StringBody cs es →
    Spells (.value (.text (String.ofList es))) (quoted cs)
  | emptyArray {blanks : List Char} : IsBlank blanks →
    Spells (.value (.array [])) ('[' :: (blanks ++ [']']))
  | array {cs : List Char} {js : List Json} : Spells (.items js) cs →
    Spells (.value (.array js)) ('[' :: (cs ++ [']']))
  | emptyObject {blanks : List Char} : IsBlank blanks →
    Spells (.value (.object [])) ('{' :: (blanks ++ ['}']))
  | object {cs : List Char} {ms : List (String × Json)} : Spells (.members ms) cs →
    Spells (.value (.object ms)) ('{' :: (cs ++ ['}']))
  | item {front cs back : List Char} {j : Json} : IsBlank front → Spells (.value j) cs →
    IsBlank back → Spells (.item j) (front ++ (cs ++ back))
  | lastItem {cs : List Char} {j : Json} : Spells (.item j) cs → Spells (.items [j]) cs
  | nextItem {cs ds : List Char} {j : Json} {js : List Json} : Spells (.item j) cs →
    Spells (.items js) ds → Spells (.items (j :: js)) (cs ++ ',' :: ds)
  | member {front cs es back ds : List Char} {j : Json} : IsBlank front → StringBody cs es →
    IsBlank back → Spells (.item j) ds →
    Spells (.member (String.ofList es) j) (front ++ (quoted cs ++ (back ++ ':' :: ds)))
  | lastMember {cs : List Char} {name : String} {j : Json} : Spells (.member name j) cs →
    Spells (.members [(name, j)]) cs
  | nextMember {cs ds : List Char} {name : String} {j : Json} {ms : List (String × Json)} :
    Spells (.member name j) cs → Spells (.members ms) ds →
    Spells (.members ((name, j) :: ms)) (cs ++ ',' :: ds)

def IsDocument (text : List Char) (j : Json) : Prop := Spells (.item j) text

end Inlay.Json
