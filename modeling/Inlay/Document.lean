import Inlay.Act
import Inlay.Context
import Inlay.File
import Inlay.Json.Reader
import Inlay.Settings

/-! Context documents: JSON files that hold the stores and the globals of a page. -/

namespace Inlay

namespace Document

def sections : List String := ["get", "post", "cookie", "server", "session", "globals"]

inductive Mismatch where
  | notObject
  | sectionNotObject (name : String)
  deriving DecidableEq

def Mismatch.place : Mismatch → List String
  | .notObject => []
  | .sectionNotObject name => [name]

def Mismatch.name : Mismatch → String
  | .notObject => "model_type"
  | .sectionNotObject _ => "dict_type"

/-- The table of a section. A section that is not there is empty. -/
def table? (members : Table Json) (name : String) : Option (Table Value) :=
  match Table.get? members name with
  | none => some []
  | some (.object entries) => some (Table.ofList (Value.ofJsonMembers entries))
  | some _ => none

def mismatches (members : Table Json) : List Mismatch :=
  (sections.filter fun name => (table? members name).isNone).map .sectionNotObject

def sectionOf (members : Table Json) (name : String) : Table Value := (table? members name).getD []

def context? : Json → Except (List Mismatch) Context
  | .object entries =>
    let members := Table.ofList entries
    let lacks := mismatches members
    if lacks.isEmpty then
      .ok {
        stores := {
          query := sectionOf members "get"
          form := sectionOf members "post"
          cookies := sectionOf members "cookie"
          server := sectionOf members "server"
          session := sectionOf members "session" }
        registry := .empty
        globals := sectionOf members "globals"
        functions := [] }
    else .error lacks
  | _ => .error [.notObject]

end Document

inductive DocumentFault where
  | file (f : FileFault)
  | longInteger (digits : Nat)
  | malformed (name : String) (text : List Char) (f : Json.ReadFault)
  | mismatched (name : String) (lacks : List Document.Mismatch)

namespace DocumentFault

def kind : DocumentFault → String
  | .file f => f.kind
  | .longInteger _ | .malformed .. | .mismatched .. => "ValueError"

def summary (lacks : List Document.Mismatch) : String :=
  validationSummary lacks.length "ContextDocument"

def message : DocumentFault → String
  | .file f => f.message
  | .longInteger digits => (Fault.unreadableInteger digits).message
  | .malformed name text f => "Invalid JSON in context file " ++ name ++ ": " ++ f.message text
  | .mismatched name lacks => "Invalid context file " ++ name ++ ": " ++ summary lacks

def report? : DocumentFault → Option String
  | .malformed name text f =>
    some ("Context file " ++ name ++ " is not valid JSON: " ++ f.message text)
  | .mismatched name lacks =>
    some ("Context file " ++ name ++ " failed validation: " ++ summary lacks)
  | _ => none

end DocumentFault

namespace Document

def parse (name : String) (text : String) : Except DocumentFault Context :=
  match Json.ofText text.toList with
  | .error ⟨.longInteger digits, _⟩ => .error (.longInteger digits)
  | .error f => .error (.malformed name text.toList f)
  | .ok j => (context? j).mapError (.mismatched name)

def load (read : String → Except FileFault Octets) (name : String) :
    Except DocumentFault Context := do
  let octets ← (read name).mapError .file
  let text ← (readText octets).mapError .file
  parse name text

def note (f : DocumentFault) (j : Journal) : Journal :=
  match f.report? with
  | some message => j.note message
  | none => j

end Document

end Inlay
