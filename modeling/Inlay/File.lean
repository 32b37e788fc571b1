import Inlay.Fault
import Inlay.Table
import Inlay.Text.Line
import Inlay.Text.Utf8

/-! Files: by name in a directory, and the texts they hold. -/

namespace Inlay

abbrev Octets := List UInt8

inductive FileFault where
  | notFound (name : String)
  | isDirectory (name : String)
  | notDirectory (name : String)
  | nameTooLong (name : String)
  | nullCharacter
  | undecodable (f : Text.Utf8.DecodeFault)

def hexOctet (o : UInt8) : String := String.ofList (Text.hex 2 o.toNat)

def decodeMessage (f : Text.Utf8.DecodeFault) : String :=
  let place :=
    match f.octets with
    | [o] => "byte 0x" ++ hexOctet o ++ " in position " ++ toString f.position
    | octets =>
      "bytes in position " ++ toString f.position ++ "-" ++
        toString (f.position + octets.length - 1)
  "'utf-8' codec can't decode " ++ place ++ ": " ++ f.reason.message

namespace FileFault

def kind : FileFault → String
  | .notFound _ => "FileNotFoundError"
  | .isDirectory _ => "IsADirectoryError"
  | .notDirectory _ => "NotADirectoryError"
  | .nameTooLong _ => "OSError"
  | .nullCharacter => "ValueError"
  | .undecodable _ => "UnicodeDecodeError"

def message : FileFault → String
  | .notFound name => "[Errno 2] No such file or directory: " ++ Text.quoted name
  | .isDirectory name => "[Errno 21] Is a directory: " ++ Text.quoted name
  | .notDirectory name => "[Errno 20] Not a directory: " ++ Text.quoted name
  | .nameTooLong name => "[Errno 36] File name too long: " ++ Text.quoted name
  | .nullCharacter => "embedded null byte"
  | .undecodable f => decodeMessage f

end FileFault

def readText (octets : Octets) : Except FileFault String :=
  match Text.Utf8.decode octets with
  | .ok cs => .ok (String.ofList (Text.unifyLineEnds cs))
  | .error f => .error (.undecodable f)

namespace FileName

def parts (name : String) : List (List Char) :=
  (cut name.toList).filter fun part => part ≠ [] && part ≠ ['.']
where
  cut : List Char → List (List Char)
    | [] => [[]]
    | c :: rest =>
      if c = '/' then [] :: cut rest
      else
        match cut rest with
        | piece :: pieces => (c :: piece) :: pieces
        | [] => [[c]]

def joinParts : List (List Char) → List Char
  | [] => []
  | [part] => part
  | part :: rest => part ++ '/' :: joinParts rest

/-- The slashes that make a name absolute: two of them count as two, more as one. -/
def root (name : String) : List Char :=
  match name.toList with
  | '/' :: '/' :: '/' :: _ => ['/']
  | '/' :: '/' :: _ => ['/', '/']
  | '/' :: _ => ['/']
  | _ => []

def normal (name : String) : String :=
  let cs := root name ++ joinParts (parts name)
  if cs.isEmpty then "." else String.ofList cs

end FileName

structure Directory where
  files : Table Octets
  folders : List String

namespace Directory

def root : Directory where
  files := [("dev/null", [])]
  folders :=
    ["bin", "etc", "home", "lib", "proc", "root", "run", "sbin", "sys", "tmp", "usr", "var"]

def file? (d : Directory) (parts : List (List Char)) : Option Octets :=
  (d.files.find? fun file => FileName.parts file.1 = parts).map (·.2)

/-- Whether the parts lead to the directory itself, to one of its folders or to one that a file of
it lies in. -/
def hasFolder (d : Directory) (parts : List (List Char)) : Bool :=
  parts.isEmpty || d.folders.any (fun name => FileName.parts name = parts) ||
    d.files.any fun file =>
      parts.isPrefixOf (FileName.parts file.1) && parts ≠ FileName.parts file.1

/-- Where a name leads to: a place in a directory, or a folder above the working directory, of which
nothing else is known. -/
inductive Place where
  | within (d : Directory) (parts : List (List Char))
  | above

def partCap : Nat := 255

def nameCap : Nat := 4095

def octetCount (cs : List Char) : Nat := (String.ofList cs).utf8ByteSize

def enter (name : String) (place : Place) (part : List Char) : Except FileFault Place :=
  match place with
  | .above =>
    if part = ['.', '.'] then .ok .above
    else .error (if partCap < octetCount part then .nameTooLong name else .notFound name)
  | .within d parts =>
    if !d.hasFolder parts then .error (.notDirectory name)
    else if part = ['.', '.'] then
      .ok (if parts.isEmpty then .above else .within d parts.dropLast)
    else if partCap < octetCount part then .error (.nameTooLong name)
    else if (d.file? (parts ++ [part])).isSome || d.hasFolder (parts ++ [part]) then
      .ok (.within d (parts ++ [part]))
    else .error (.notFound name)

def read (d : Directory) (name : String) : Except FileFault Octets :=
  if name.toList.contains (Char.ofNat 0) then .error .nullCharacter
  else if nameCap < name.utf8ByteSize then .error (.nameTooLong name)
  else do
    let start := Place.within (if (FileName.root name).isEmpty then d else root) []
    match ← (FileName.parts name).foldlM (enter name) start with
    | .above => throw (.isDirectory name)
    | .within d parts =>
      match d.file? parts with
      | some octets => return octets
      | none => throw (.isDirectory name)

end Directory

end Inlay
