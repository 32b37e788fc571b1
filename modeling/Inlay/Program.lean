import Inlay.CommandLine
import Inlay.Document
import Inlay.Engine
import Inlay.Host.Recipe

/-! The program: renders a page from a file or from standard input under the context of a document.
It writes the whole page or nothing. -/

namespace Inlay

namespace Program

def usage : String := "usage: autoparse [-h] [--context CONTEXT] [-V] [input]\n"

def help : String :=
  usage ++
  "\nSubstitute <source:path/> tags in rendered text.\n" ++
  "\npositional arguments:\n" ++
  "  input              File to render (reads stdin when omitted) (default: None)\n" ++
  "\noptions:\n" ++
  "  -h, --help         show this help message and exit\n" ++
  "  --context CONTEXT  JSON file with get/post/cookie/server/session/globals\n" ++
  "                     (default: None)\n" ++
  "  -V, --version      show program's version number and exit\n"

def version : String := "autoparse 0.1.0\n"

def misuseLine (message : String) : String := "autoparse: error: " ++ message

structure Result where
  exit : Nat
  output : String
  complaint : Option String

structure Sources where
  file : String → Except FileFault Octets
  input : Octets

def given (name : Option String) : Option String := name.filter (!·.isEmpty)

def contextOf (sources : Sources) (name : Option String) : Except DocumentFault Context :=
  match given name with
  | some name => Document.load sources.file (FileName.normal name)
  | none => .ok .empty

def pageOf (sources : Sources) (name : Option String) : Except FileFault String := do
  match given name with
  | some name => readText (← sources.file (FileName.normal name))
  | none => readText sources.input

def setup (sources : Sources) (input context : Option String) :
    Except DocumentFault (Context × String) := do
  let context ← contextOf sources context
  let text ← (pageOf sources input).mapError .file
  return (context, text)

def failed (f : DocumentFault) (j : Journal) : Result × Journal :=
  (⟨1, "", some ("Error: " ++ f.message)⟩, (Document.note f j).note ("Setup failed: " ++ f.message))

def aborted (f : Fault) : Result := ⟨1, "", some (f.kind ++ ": " ++ f.message)⟩

def renderPage (settings : Settings) (cap : Nat) (context : Context) (text : String) (j : Journal) :
    String × Journal :=
  let engine := Engine.ofSettings Host.none settings
  let (o, world) := engine.render cap text (.start context () j)
  (o.text, world.journal)

/-- Reads everything before it renders anything. Only a cap on tag lengths that is too large makes
rendering fail. -/
def answer (settings : Settings) (sources : Sources) (input context : Option String) :
    Result × Journal :=
  let j := Journal.empty settings.quiet
  match setup sources input context with
  | .error f => failed f j
  | .ok (context, text) =>
    match Page.cap? settings.maxTagLength with
    | .error f => (aborted f, j)
    | .ok cap =>
      let (output, j) := renderPage settings cap context text j
      (⟨0, output, none⟩, j)

def run (settings : Settings) (sources : Sources) (arguments : List String) : Result × Journal :=
  let j := Journal.empty settings.quiet
  match CommandLine.request arguments with
  | .help => (⟨0, help, none⟩, j)
  | .version => (⟨0, version, none⟩, j)
  | .misuse message => (⟨2, "", some (misuseLine message)⟩, j)
  | .render input context => answer settings sources input context

end Program

end Inlay
