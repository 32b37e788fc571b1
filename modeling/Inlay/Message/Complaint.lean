import Inlay.Fault

/-! What can be wrong with a message: with its template, with a reference in it, or with the layout
that it asks for. -/

namespace Inlay.Message

inductive Complaint where
  | noTemplate
  | repeatedTemplate (name : String)
  | loneOpening
  | loneClosing
  | braceInReference
  | openField
  | openLayout
  | noConversion
  | textAfterConversion
  | unknownConversion (c : Char)
  | nestedTooDeep
  | longNumber
  | countedAfterNumbered
  | numberedAfterCounted
  | emptyStep
  | openBracket
  | textAfterBracket
  | noPositional (n : Nat)
  | noKey (shown : String)
  | outOfRange (typeName : String)
  | noAttribute (owner name : String)
  | notSubscriptable (owner : String)
  | badIndex (indices : String)
  | notGeneric (shown : String)
  | unwritable (f : Fault)
  | invalidLayout (layout typeName : String)
  | unsupportedLayout (typeName : String)
  | unknownForm (form : Char) (typeName : String)
  | noPrecision
  | groupedTwice
  | groupedForm (separator form : Char)
  | signedText
  | spacedText
  | coercedText
  | alternateText
  | digitAlignedText
  | preciseInteger
  | coercedInteger
  | signedCharacter
  | alternateCharacter
  | notCharacter
  | longCharacter
  | longFloat
  | overlyPrecise
  /-- The text would not fit into memory, and nothing is left to say so. -/
  | tooWide
  deriving DecidableEq

namespace Complaint

def charText (past : Nat) (c : Char) : String :=
  if 0x20 < c.toNat ∧ c.toNat < past then String.ofList [c]
  else String.ofList ('\\' :: 'x' :: Nat.toDigits 16 c.toNat)

def message : Complaint → String
  | .noTemplate => "Logger.debug() missing 1 required positional argument: '_Logger__message'"
  | .repeatedTemplate name => "Logger.debug() got multiple values for argument '" ++ name ++ "'"
  | .loneOpening => "Single '\x7b' encountered in format string"
  | .loneClosing => "Single '\x7d' encountered in format string"
  | .braceInReference => "unexpected '\x7b' in field name"
  | .openField => "expected '\x7d' before end of string"
  | .openLayout => "unmatched '\x7b' in format spec"
  | .noConversion => "end of string while looking for conversion specifier"
  | .textAfterConversion => "expected ':' after conversion specifier"
  | .unknownConversion c => "Unknown conversion specifier " ++ charText 0x7F c
  | .nestedTooDeep => "Max string recursion exceeded"
  | .longNumber => "Too many decimal digits in format string"
  | .countedAfterNumbered =>
    "cannot switch from manual field specification to automatic field numbering"
  | .numberedAfterCounted =>
    "cannot switch from automatic field numbering to manual field specification"
  | .emptyStep => "Empty attribute in format string"
  | .openBracket => "Missing ']' in format string"
  | .textAfterBracket => "Only '.' or '[' may follow ']' in format field specifier"
  | .noPositional n =>
    "Replacement index " ++ toString n ++ " out of range for positional args tuple"
  | .noKey shown => shown
  | .outOfRange typeName => typeName ++ " index out of range"
  | .noAttribute owner name => owner ++ " has no attribute '" ++ name ++ "'"
  | .notSubscriptable owner => owner ++ " is not subscriptable"
  | .badIndex indices => indices
  | .notGeneric shown => shown ++ " is not a generic class"
  | .unwritable f => f.message
  | .invalidLayout layout typeName =>
    "Invalid format specifier '" ++ layout ++ "' for object of type '" ++ typeName ++ "'"
  | .unsupportedLayout typeName =>
    "unsupported format string passed to " ++ typeName ++ ".__format__"
  | .unknownForm form typeName =>
    "Unknown format code '" ++ charText 0x80 form ++ "' for object of type '" ++ typeName ++ "'"
  | .noPrecision => "Format specifier missing precision"
  | .groupedTwice => "Cannot specify both ',' and '_'."
  | .groupedForm separator form =>
    "Cannot specify '" ++ String.ofList [separator] ++ "' with '" ++ charText 0x80 form ++ "'."
  | .signedText => "Sign not allowed in string format specifier"
  | .spacedText => "Space not allowed in string format specifier"
  | .coercedText => "Negative zero coercion (z) not allowed in string format specifier"
  | .alternateText => "Alternate form (#) not allowed in string format specifier"
  | .digitAlignedText => "'=' alignment not allowed in string format specifier"
  | .preciseInteger => "Precision not allowed in integer format specifier"
  | .coercedInteger => "Negative zero coercion (z) not allowed in integer format specifier"
  | .signedCharacter => "Sign not allowed with integer format specifier 'c'"
  | .alternateCharacter => "Alternate form (#) not allowed with integer format specifier 'c'"
  | .notCharacter => "%c arg not in range(0x110000)"
  | .longCharacter => "Python int too large to convert to C long"
  | .longFloat => "int too large to convert to float"
  | .overlyPrecise => "precision too big"
  | .tooWide => ""

end Complaint

end Inlay.Message
