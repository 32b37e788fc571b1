import Inlay.Act
import Inlay.Context
import Inlay.Text.Case
import Inlay.Value.Change

/-! The host that a page is rendered for, and the state that its tags read and change. -/

namespace Inlay

/-- What the callables of a host do. Each sees its arguments and the host's own memory. -/
structure Host (σ : Type) where
  call : Nat → List Value → σ → Except Fault Value × σ

structure World (σ : Type) where
  context : Context
  memory : σ
  journal : Journal
  changes : List Change

namespace World

variable {σ : Type}

def start (context : Context) (memory : σ) (journal : Journal) : World σ :=
  ⟨context, memory, journal, []⟩

/-- Nothing refers to an object without a number, so its change is lost. -/
def change (c : Change) (w : World σ) : World σ :=
  if c.id = 0 then w else { w with changes := w.changes ++ [c] }

def current (w : World σ) (v : Value) : Value := w.changes.foldl (fun v c => v.after c) v

def select (w : World σ) (selector : String) : Value := w.current (w.context.select selector)

end World

variable {σ : Type}

instance : Changes (World σ) := ⟨World.change⟩

instance : Reports (World σ) := ⟨fun message w => { w with journal := w.journal.note message }⟩

def Callable.invoke (host : Host σ) : Callable → List Value → Act (World σ) Value
  | .hosted id _, arguments => fun w =>
    match host.call id arguments w.memory with
    | (.ok v, memory) => .ok (w.current v) { w with memory }
    | (.error f, memory) => .error f { w with memory }
  | .recased up s, [] => pure (.text (if up then Text.upper s else Text.lower s))
  | .recased up _, arguments =>
    throw (.needlessArguments (if up then "str.upper" else "str.lower") arguments.length)

end Inlay
