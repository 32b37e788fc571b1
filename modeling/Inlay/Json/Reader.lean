import Inlay.Json.Basic

/-! Reading JSON documents. Not a number and the infinities are read too. A fault tells what is
wrong and keeps the text from there on. -/

namespace Inlay.Json

inductive Reason where
  | byteOrderMark
  | value
  | name
  | colon
  | comma
  | extraData
  | unterminated
  | control
  | escape
  | unicodeEscape
  | longInteger (digits : Nat)

structure ReadFault where
  reason : Reason
  rest : List Char

def isSpace (c : Char) : Bool := c == ' ' || c == '\t' || c == '\n' || c == '\r'

def skipSpace (cs : List Char) : List Char := cs.dropWhile isSpace

def hexDigit? (c : Char) : Option Nat :=
  if '0' ≤ c ∧ c ≤ '9' then some (c.toNat - 0x30)
  else if 'a' ≤ c ∧ c ≤ 'f' then some (c.toNat - 0x57)
  else if 'A' ≤ c ∧ c ≤ 'F' then some (c.toNat - 0x37)
  else none

def hexUnit? (a b c d : Char) : Option Nat := do
  let high := (← hexDigit? a) * 0x10 + (← hexDigit? b)
  let low := (← hexDigit? c) * 0x10 + (← hexDigit? d)
  return high * 0x100 + low

def isHighSurrogate (n : Nat) : Bool := 0xD800 ≤ n && n < 0xDC00

def isLowSurrogate (n : Nat) : Bool := 0xDC00 ≤ n && n < 0xE000

/-- The character of one UTF-16 unit; half of a pair alone gives the replacement character. -/
def charOfUnit (n : Nat) : Char :=
  if isHighSurrogate n || isLowSurrogate n then Char.ofNat 0xFFFD else Char.ofNat n

def charOfPair (high low : Nat) : Char :=
  Char.ofNat (0x10000 + (high - 0xD800) * 0x400 + (low - 0xDC00))

def escaped? : Char → Option Char
  | '"' => some '"'
  | '\\' => some '\\'
  | '/' => some '/'
  | 'b' => some (Char.ofNat 0x8)
  | 'f' => some (Char.ofNat 0xC)
  | 'n' => some '\n'
  | 'r' => some '\r'
  | 't' => some '\t'
  | _ => none

def readUnit : List Char → Except ReadFault (Nat × List Char)
  | 'u' :: a :: b :: c :: d :: e :: rest =>
    match hexUnit? a b c d with
    | some n => .ok (n, e :: rest)
    | none => .error ⟨.unicodeEscape, 'u' :: a :: b :: c :: d :: e :: rest⟩
  | cs => .error ⟨.unicodeEscape, cs⟩

theorem readUnit_shorter {cs rest : List Char} {n : Nat} (h : readUnit cs = .ok (n, rest)) :
    rest.length < cs.length := by
  unfold readUnit at h
  split at h
  · split at h
    · cases h; simp only [List.length_cons]; omega
    · cases h
  · cases h

/-- What follows a high surrogate: its other half, if a unit escape of one comes next. -/
def readPair (high : Nat) (cs : List Char) : Except ReadFault (Char × List Char) :=
  match cs with
  | '\\' :: 'u' :: rest =>
    if rest.length < 5 then .ok (charOfUnit high, cs)
    else
      match readUnit ('u' :: rest) with
      | .ok (low, after) =>
        if isLowSurrogate low then .ok (charOfPair high low, after) else .ok (charOfUnit high, cs)
      | .error f => .error f
  | _ => .ok (charOfUnit high, cs)

theorem readPair_not_longer {high : Nat} {cs rest : List Char} {c : Char}
    (h : readPair high cs = .ok (c, rest)) : rest.length ≤ cs.length := by
  unfold readPair at h
  split at h
  · split at h
    · cases h; exact Nat.le_refl _
    · split at h
      · rename_i hu
        have := readUnit_shorter hu
        split at h
        · simp only [Except.ok.injEq, Prod.mk.injEq] at h
          simp only [List.length_cons, h.2] at this ⊢
          omega
        · cases h; exact Nat.le_refl _
      · cases h
  · cases h; exact Nat.le_refl _

def readEscape (opening : List Char) : List Char → Except ReadFault (Char × List Char)
  | [] => .error ⟨.unterminated, opening⟩
  | c :: rest =>
    if c = 'u' then
      match readUnit (c :: rest) with
      | .ok (n, after) =>
        if isHighSurrogate n then readPair n after else .ok (charOfUnit n, after)
      | .error f => .error f
    else
      match escaped? c with
      | some e => .ok (e, rest)
      | none => .error ⟨.escape, '\\' :: c :: rest⟩

theorem readEscape_shorter {opening cs rest : List Char} {c : Char}
    (h : readEscape opening cs = .ok (c, rest)) : rest.length < cs.length := by
  unfold readEscape at h
  split at h
  · cases h
  · split at h
    · split at h
      · rename_i hu
        have := readUnit_shorter hu
        split at h
        · have := readPair_not_longer h; omega
        · cases h; assumption
      · cases h
    · split at h <;> cases h
      simp

def readChars (opening : List Char) (cs : List Char) : Except ReadFault (List Char × List Char) :=
  match cs with
  | [] => .error ⟨.unterminated, opening⟩
  | c :: rest =>
    if c = '"' then .ok ([], rest)
    else if c = '\\' then
      match h : readEscape opening rest with
      | .ok (e, after) =>
        have : after.length < rest.length := readEscape_shorter h
        (fun (es, tail) => (e :: es, tail)) <$> readChars opening after
      | .error f => .error f
    else if c.toNat < 0x20 then .error ⟨.control, c :: rest⟩
    else (fun (es, tail) => (c :: es, tail)) <$> readChars opening rest
  termination_by cs.length

def readText (cs : List Char) : Except ReadFault (String × List Char) :=
  (fun (es, rest) => (String.ofList es, rest)) <$> readChars cs cs.tail

def isDigit (c : Char) : Bool := '0' ≤ c && c ≤ '9'

def splitDigits (cs : List Char) : List Nat × List Char :=
  ((cs.takeWhile isDigit).map fun c => c.toNat - 0x30, cs.dropWhile isDigit)

def splitFraction : List Char → Option (List Nat) × List Char
  | '.' :: rest =>
    match splitDigits rest with
    | ([], _) => (none, '.' :: rest)
    | (digits, after) => (some digits, after)
  | cs => (none, cs)

def splitExponent : List Char → Option Int × List Char
  | [] => (none, [])
  | c :: rest =>
    if c = 'e' ∨ c = 'E' then
      let (negative, body) := Number.splitSign rest
      match splitDigits body with
      | ([], _) => (none, c :: rest)
      | (digits, after) => (some (Binary64.signed negative (Number.ofDigits digits)), after)
    else (none, c :: rest)

def splitWhole : List Char → List Nat × List Char
  | '0' :: rest => ([0], rest)
  | cs => splitDigits cs

def readNumber (cs : List Char) : Except ReadFault (Json × List Char) :=
  let (negative, body) := match cs with | '-' :: rest => (true, rest) | _ => (false, cs)
  match splitWhole body with
  | ([], _) => .error ⟨.value, cs⟩
  | (whole, rest) =>
    let (fraction, rest) := splitFraction rest
    let (power, rest) := splitExponent rest
    if fraction.isNone && power.isNone then
      if Number.digitCap < whole.length then .error ⟨.longInteger whole.length, cs⟩
      else .ok (.int (Binary64.signed negative (Number.ofDigits whole)), rest)
    else
      let part := fraction.getD []
      .ok (.float (Binary64.ofDecimal negative (Number.ofDigits (whole ++ part))
        (power.getD 0 - part.length)), rest)

def readScalar : List Char → Except ReadFault (Json × List Char)
  | 'n' :: 'u' :: 'l' :: 'l' :: rest => .ok (.null, rest)
  | 't' :: 'r' :: 'u' :: 'e' :: rest => .ok (.bool true, rest)
  | 'f' :: 'a' :: 'l' :: 's' :: 'e' :: rest => .ok (.bool false, rest)
  | 'N' :: 'a' :: 'N' :: rest => .ok (.float .nan, rest)
  | 'I' :: 'n' :: 'f' :: 'i' :: 'n' :: 'i' :: 't' :: 'y' :: rest =>
    .ok (.float (.infinite false), rest)
  | '-' :: 'I' :: 'n' :: 'f' :: 'i' :: 'n' :: 'i' :: 't' :: 'y' :: rest =>
    .ok (.float (.infinite true), rest)
  | cs => readNumber cs

def expect (c : Char) (reason : Reason) (cs : List Char) : Except ReadFault (List Char) :=
  match skipSpace cs with
  | d :: rest => if d = c then .ok (skipSpace rest) else .error ⟨reason, d :: rest⟩
  | [] => .error ⟨reason, []⟩

mutual

/-- One document. Each step spends fuel, two for each character at the most. -/
def readValue : Nat → List Char → Except ReadFault (Json × List Char)
  | 0, cs => .error ⟨.value, cs⟩
  | fuel + 1, cs =>
    match cs with
    | '"' :: _ => (fun (s, rest) => (.text s, rest)) <$> readText cs
    | '[' :: rest =>
      match skipSpace rest with
      | ']' :: after => .ok (.array [], after)
      | items => (fun (js, after) => (.array js, after)) <$> readItems fuel items
    | '{' :: rest =>
      match skipSpace rest with
      | '}' :: after => .ok (.object [], after)
      | members => (fun (ms, after) => (.object ms, after)) <$> readMembers fuel members
    | cs => readScalar cs

def readItems : Nat → List Char → Except ReadFault (List Json × List Char)
  | 0, cs => .error ⟨.value, cs⟩
  | fuel + 1, cs => do
    let (j, rest) ← readValue fuel cs
    match skipSpace rest with
    | ']' :: after => return ([j], after)
    | rest =>
      let rest ← expect ',' .comma rest
      let (js, after) ← readItems fuel rest
      return (j :: js, after)

def readMembers : Nat → List Char → Except ReadFault (List (String × Json) × List Char)
  | 0, cs => .error ⟨.value, cs⟩
  | fuel + 1, cs =>
    match cs with
    | '"' :: _ => do
      let (name, rest) ← readText cs
      let rest ← expect ':' .colon rest
      let (j, rest) ← readValue fuel rest
      match skipSpace rest with
      | '}' :: after => return ([(name, j)], after)
      | rest =>
        let rest ← expect ',' .comma rest
        let (ms, after) ← readMembers fuel rest
        return ((name, j) :: ms, after)
    | cs => .error ⟨.name, cs⟩

end

def ofText (text : List Char) : Except ReadFault Json :=
  if text.head? = some (Char.ofNat 0xFEFF) then .error ⟨.byteOrderMark, text⟩
  else do
    let (j, rest) ← readValue (2 * text.length + 2) (skipSpace text)
    match skipSpace rest with
    | [] => return j
    | rest => throw ⟨.extraData, rest⟩

def Reason.message : Reason → String
  | .byteOrderMark => "Unexpected UTF-8 BOM (decode using utf-8-sig)"
  | .value => "Expecting value"
  | .name => "Expecting property name enclosed in double quotes"
  | .colon => "Expecting ':' delimiter"
  | .comma => "Expecting ',' delimiter"
  | .extraData => "Extra data"
  | .unterminated => "Unterminated string starting at"
  | .control => "Invalid control character at"
  | .escape => "Invalid \\escape"
  | .unicodeEscape => "Invalid \\uXXXX escape"
  | .longInteger digits => (Fault.unreadableInteger digits).message

def ReadFault.message (f : ReadFault) (text : List Char) : String :=
  let position := text.length - f.rest.length
  let before := text.take position
  let column := (before.reverse.takeWhile (· ≠ '\n')).length + 1
  f.reason.message ++ ": line " ++ toString (before.count '\n' + 1) ++ " column " ++
    toString column ++ " (char " ++ toString position ++ ")"

end Inlay.Json
