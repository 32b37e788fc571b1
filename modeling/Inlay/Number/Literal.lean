import Inlay.Fault
import Inlay.Number.Shortest
import Inlay.Text.Digit

/-! Numbers as they are written in call arguments, in the decimal digits of any script. A number
of more than 4300 digits is neither read nor written as an integer. -/

namespace Inlay

inductive Number where
  | int (n : Int)
  | float (x : Binary64)
  deriving DecidableEq

namespace Number

def digitCap : Nat := 4300

def intText (n : Int) : List Char :=
  (if n < 0 then ['-'] else []) ++ Nat.toDigits 10 n.natAbs

def writeInt (n : Int) : Except Fault String :=
  if n.natAbs < Nat.pow 10 digitCap then .ok (String.ofList (intText n))
  else .error .unwritableInteger

def ofDigits (digits : List Nat) : Nat := digits.foldl (fun n d => n * 10 + d) 0

def readNat (digits : List Nat) : Except Fault Nat :=
  if digits.length ≤ digitCap then .ok (ofDigits digits)
  else .error (.unreadableInteger digits.length)

def splitSign : List Char → Bool × List Char
  | '-' :: rest => (true, rest)
  | '+' :: rest => (false, rest)
  | cs => (false, cs)

def splitDigits : List Char → List Nat × List Char
  | [] => ([], [])
  | c :: rest =>
    match Text.digit? c with
    | some d => let (ds, tail) := splitDigits rest; (d :: ds, tail)
    | none => ([], c :: rest)

def exponent? : List Char → Option Int
  | [] => some 0
  | c :: rest =>
    if c == 'e' || c == 'E' then
      let (negative, rest) := splitSign rest
      match splitDigits rest with
      | (d :: ds, []) => some (Binary64.signed negative (ofDigits (d :: ds)))
      | _ => none
    else none

def fraction? : List Char → Option (List Nat × Int)
  | '.' :: rest =>
    let (digits, rest) := splitDigits rest
    (exponent? rest).map (digits, ·)
  | rest => (exponent? rest).map ([], ·)

def dropFinalLineFeed (cs : List Char) : List Char :=
  if cs.getLast? = some '\n' then cs.dropLast else cs

/-- Reads `[sign]digits` as an integer, and digits with a point or an exponent as a float. One line
feed may follow the number. -/
def ofText (cs : List Char) : Except Fault (Option Number) :=
  let (negative, body) := splitSign (dropFinalLineFeed cs)
  let (whole, rest) := splitDigits body
  if rest.isEmpty && !whole.isEmpty then
    (fun n => some (.int (Binary64.signed negative n))) <$> readNat whole
  else
    match fraction? rest with
    | some (part, power) =>
      if whole.isEmpty && part.isEmpty then .ok none
      else
        .ok (some (.float
          (Binary64.ofDecimal negative (ofDigits (whole ++ part)) (power - part.length))))
    | none => .ok none

/-- Whole floats below this are written as integers. -/
def wholeCap : Nat := 1000000000000000

def format : Number → Except Fault String
  | .int n => writeInt n
  | .float x =>
    match x.toInt? with
    | some n => if n.natAbs < wholeCap then .ok (String.ofList (intText n)) else .ok x.text
    | none => .ok x.text

end Number

end Inlay
