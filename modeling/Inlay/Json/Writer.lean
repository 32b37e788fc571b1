import Inlay.Json.Basic

/-! The texts of JSON documents. Every function writes in front of a text that follows. -/

namespace Inlay.Json

structure Layout where
  breakAt : Nat → List Char
  colon : List Char

def Layout.compact : Layout := ⟨fun _ => [], [':']⟩

def Layout.indented (width : Nat) : Layout :=
  ⟨fun depth => '\n' :: List.replicate (width * depth) ' ', [':', ' ']⟩

/-- Only quotation marks, backslashes and the controls below the space are escaped. -/
def escapeChar (c : Char) : List Char :=
  if c = '"' ∨ c = '\\' then ['\\', c]
  else if c = '\n' then ['\\', 'n']
  else if c = '\r' then ['\\', 'r']
  else if c = '\t' then ['\\', 't']
  else if c.toNat = 0x8 then ['\\', 'b']
  else if c.toNat = 0xC then ['\\', 'f']
  else if c.toNat < 0x20 then '\\' :: 'u' :: Text.hex 4 c.toNat
  else [c]

def writeText (s : String) (rest : List Char) : List Char :=
  '"' :: s.toList.flatMap escapeChar ++ '"' :: rest

mutual

def write (layout : Layout) (depth : Nat) : Json → List Char → List Char
  | .null, rest => 'n' :: 'u' :: 'l' :: 'l' :: rest
  | .bool true, rest => 't' :: 'r' :: 'u' :: 'e' :: rest
  | .bool false, rest => 'f' :: 'a' :: 'l' :: 's' :: 'e' :: rest
  | .int n, rest => Number.intText n ++ rest
  | .float x, rest => x.text.toList ++ rest
  | .text s, rest => writeText s rest
  | .array items, rest => '[' :: writeItems layout depth true items (']' :: rest)
  | .object members, rest => '{' :: writeMembers layout depth true members ('}' :: rest)

def writeItems (layout : Layout) (depth : Nat) (first : Bool) : List Json → List Char → List Char
  | [], rest => if first then rest else layout.breakAt depth ++ rest
  | j :: items, rest =>
    (if first then [] else [',']) ++ layout.breakAt (depth + 1) ++
      write layout (depth + 1) j (writeItems layout depth false items rest)

def writeMembers (layout : Layout) (depth : Nat) (first : Bool) :
    List (String × Json) → List Char → List Char
  | [], rest => if first then rest else layout.breakAt depth ++ rest
  | (name, j) :: members, rest =>
    (if first then [] else [',']) ++ layout.breakAt (depth + 1) ++
      writeText name (layout.colon ++
        write layout (depth + 1) j (writeMembers layout depth false members rest))

end

def toText (layout : Layout) (j : Json) : String := String.ofList (write layout 0 j [])

end Inlay.Json
