import Inlay.Text.Printable

/-! Quoted texts and octet strings. The quote is an apostrophe unless the text holds apostrophes
and no quotation mark. -/

namespace Inlay.Text

def hex (width n : Nat) : List Char :=
  let digits := Nat.toDigits 16 n
  List.replicate (width - digits.length) '0' ++ digits

def escapeCode (n : Nat) : List Char :=
  if n < 0x100 then '\\' :: 'x' :: hex 2 n
  else if n < 0x10000 then '\\' :: 'u' :: hex 4 n
  else '\\' :: 'U' :: hex 8 n

/-- A character inside quotes: unprintable ones are escaped, and so are the quote and the
backslash. -/
def quotedChar (quote c : Char) : List Char :=
  if c == quote || c == '\\' then ['\\', c]
  else if c == '\n' then ['\\', 'n']
  else if c == '\r' then ['\\', 'r']
  else if c == '\t' then ['\\', 't']
  else if isPrintable c then [c]
  else escapeCode c.toNat

def quoteFor (cs : List Char) : Char :=
  if cs.contains '\'' && !cs.contains '"' then '"' else '\''

def quoted (s : String) : String :=
  let quote := quoteFor s.toList
  String.ofList (quote :: s.toList.flatMap (quotedChar quote) ++ [quote])

def quotedOctet (escaped : Char) (o : UInt8) : List Char :=
  let c := Char.ofNat o.toNat
  if c == escaped || c == '\\' then ['\\', c]
  else if c == '\n' then ['\\', 'n']
  else if c == '\r' then ['\\', 'r']
  else if c == '\t' then ['\\', 't']
  else if 0x20 ≤ o && o < 0x7F then [c]
  else escapeCode o.toNat

def quotedOctets (mutable : Bool) (octets : List UInt8) : String :=
  let quote := quoteFor (octets.map fun o => Char.ofNat o.toNat)
  let escaped := if mutable then '\'' else quote
  String.ofList ('b' :: quote :: octets.flatMap (quotedOctet escaped) ++ [quote])

end Inlay.Text
