import Inlay.Page
import Inlay.Processor
import Inlay.Settings
import Inlay.Walk

/-! The engine resolves tags against the context of a page. -/

namespace Inlay

structure Engine (σ : Type) where
  host : Host σ
  processors : Table Processor
  maxDepth : Int
  indent : Int

inductive Refusal where
  | nesting (f : Fault)
  | emptyPath
  | lookup (f : LookupFailure)
  | unknownProcessor (name : String)

def Refusal.message : Refusal → String
  | .nesting f => f.message
  | .emptyPath => "Empty tag path"
  | .lookup f => f.message
  | .unknownProcessor name => Processor.unknown name

namespace Outcome

def refused (r : Refusal) : Outcome := ⟨"", some r.message, false⟩

def done (text : String) : Outcome := ⟨text, none, true⟩

end Outcome

namespace Engine

variable {σ : Type}

def ofSettings (host : Host σ) (settings : Settings) : Engine σ :=
  ⟨host, Processor.builtIn, settings.maxDepth, settings.jsonIndent⟩

def locate (e : Engine σ) (selector : String) (segments : List String) : Act (World σ) Found := do
  let world ← get
  Walk.walk e.host (world.select selector) (segments.map Accessor.ofSegment)

def finish (e : Engine σ) (t : Tag) (selector : String) (segments : List String) (v : Value) :
    Act (World σ) Outcome := do
  if let some name := t.processor then
    if !Table.contains e.processors name then
      Act.report (Processor.unknown name)
      return .refused (.unknownProcessor name)
  let origin := ⟨Source.ofSelector selector, segments, e.indent⟩
  let w ← Processor.apply e.host e.processors t.processor v origin
  return .done (← w.format e.host !t.raw)

/-- The text that replaces a tag: empty unless the path leads to a value. -/
def resolve (e : Engine σ) : Resolver (World σ) := fun t => do
  match Path.split (some ':') (some e.maxDepth) t.path with
  | .error f =>
    Act.report f.message
    return .refused (.nesting f)
  | .ok [] => return .refused .emptyPath
  | .ok (selector :: segments) =>
    match ← locate e selector segments with
    | .error f => return .refused (.lookup f)
    | .ok v => finish e t selector segments v

def render (e : Engine σ) (cap : Nat) (text : String) (world : World σ) : Outcome × World σ :=
  Page.render e.resolve cap text world

end Engine

end Inlay
