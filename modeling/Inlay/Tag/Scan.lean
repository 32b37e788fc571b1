import Inlay.Tag.Basic

/-! Finding the tags of a text. The path of a tag is the shortest that an ending follows. -/

namespace Inlay.Tag

def closing? : List Char → Option Bool
  | '~' :: '/' :: '>' :: _ => some true
  | '/' :: '>' :: _ => some false
  | _ => none

def ending? (cs : List Char) : Option (Option String × Bool) :=
  match cs with
  | ':' :: ':' :: rest =>
    let name := rest.takeWhile isNameChar
    if name.isEmpty then none
    else (closing? (rest.dropWhile isNameChar)).map (some (String.ofList name), ·)
  | _ => (closing? cs).map (none, ·)

/-- The shortest path of at most `cap` characters that an ending follows, and that ending. -/
def body? : Nat → List Char → Option (List Char × Option String × Bool)
  | cap + 1, c :: rest =>
    if isBody c then
      match ending? rest with
      | some found => some ([c], found)
      | none => (body? cap rest).map fun (path, found) => (c :: path, found)
    else none
  | _, _ => none

def at? (cap : Nat) : List Char → Option Tag
  | '<' :: rest => (body? cap rest).map fun (path, name, raw) => ⟨String.ofList path, name, raw⟩
  | _ => none

end Inlay.Tag

namespace Inlay

inductive Piece where
  | char (c : Char)
  | tag (t : Tag)
  deriving DecidableEq

namespace Piece

def print : Piece → List Char
  | .char c => [c]
  | .tag t => t.print

/-- The pieces of a text whose first `skip` characters belong to a tag already found. -/
def scanFrom (cap : Nat) : Nat → List Char → List Piece
  | _, [] => []
  | skip + 1, _ :: rest => scanFrom cap skip rest
  | 0, c :: rest =>
    match Tag.at? cap (c :: rest) with
    | some t => .tag t :: scanFrom cap (t.print.length - 1) rest
    | none => .char c :: scanFrom cap 0 rest

def scan (cap : Nat) (cs : List Char) : List Piece := scanFrom cap 0 cs

end Piece

end Inlay
