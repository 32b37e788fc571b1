/-! UTF-8: texts from octets. A decoding fault names the octets that cannot be decoded. -/

namespace Inlay.Text.Utf8

inductive Reason where
  | startByte
  | continuationByte
  | endOfData

def Reason.message : Reason → String
  | .startByte => "invalid start byte"
  | .continuationByte => "invalid continuation byte"
  | .endOfData => "unexpected end of data"

structure DecodeFault where
  position : Nat
  octets : List UInt8
  reason : Reason

def isContinuation (o : UInt8) : Bool := 0x80 ≤ o && o < 0xC0

/-- Whether `second` may follow the lead octet of three or four: no overlong form, no surrogate,
nothing past U+10FFFF. -/
def isSecond (lead second : UInt8) : Bool :=
  isContinuation second &&
    !((lead == 0xE0 && second < 0xA0) || (lead == 0xED && 0xA0 ≤ second) ||
      (lead == 0xF0 && second < 0x90) || (lead == 0xF4 && 0x90 ≤ second))

def assemble (lead : Nat) (others : List UInt8) : Char :=
  Char.ofNat (others.foldl (fun n o => n * 64 + o.toNat % 64) lead)

def decodeAt (position : Nat) : List UInt8 → Except DecodeFault (List Char)
  | [] => .ok []
  | a :: rest =>
    if a < 0x80 then (Char.ofNat a.toNat :: ·) <$> decodeAt (position + 1) rest
    else if a < 0xC2 || 0xF5 ≤ a then .error ⟨position, [a], .startByte⟩
    else if a < 0xE0 then
      match rest with
      | [] => .error ⟨position, [a], .endOfData⟩
      | b :: rest =>
        if !isContinuation b then .error ⟨position, [a], .continuationByte⟩
        else (assemble (a.toNat % 32) [b] :: ·) <$> decodeAt (position + 2) rest
    else if a < 0xF0 then
      match rest with
      | [] => .error ⟨position, [a], .endOfData⟩
      | b :: rest =>
        if !isSecond a b then .error ⟨position, [a], .continuationByte⟩
        else match rest with
          | [] => .error ⟨position, [a, b], .endOfData⟩
          | c :: rest =>
            if !isContinuation c then .error ⟨position, [a, b], .continuationByte⟩
            else (assemble (a.toNat % 16) [b, c] :: ·) <$> decodeAt (position + 3) rest
    else
      match rest with
      | [] => .error ⟨position, [a], .endOfData⟩
      | b :: rest =>
        if !isSecond a b then .error ⟨position, [a], .continuationByte⟩
        else match rest with
          | [] => .error ⟨position, [a, b], .endOfData⟩
          | c :: rest =>
            if !isContinuation c then .error ⟨position, [a, b], .continuationByte⟩
            else match rest with
              | [] => .error ⟨position, [a, b, c], .endOfData⟩
              | d :: rest =>
                if !isContinuation d then .error ⟨position, [a, b, c], .continuationByte⟩
                else (assemble (a.toNat % 8) [b, c, d] :: ·) <$> decodeAt (position + 4) rest

def decode (octets : List UInt8) : Except DecodeFault (List Char) := decodeAt 0 octets

/-- As much of a text as fits into `count` octets. A character that is cut shows as U+FFFD. -/
def cut (count : Nat) : List Char → List Char
  | [] => []
  | c :: rest =>
    if c.utf8Size ≤ count then c :: cut (count - c.utf8Size) rest
    else if count = 0 then []
    else [Char.ofNat 0xFFFD]

end Inlay.Text.Utf8
