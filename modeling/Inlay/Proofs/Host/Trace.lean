import Inlay.Engine
import Inlay.Proofs.Act

/-! Traces: a host that keeps a list of the calls it gets, with their arguments. -/

namespace Inlay

variable {σ : Type}

abbrev Calls := List (Nat × List Value)

def Host.traced (host : Host σ) : Host (σ × Calls) where
  call id arguments m :=
    let (ended, memory) := host.call id arguments m.1
    (ended, memory, m.2 ++ [(id, arguments)])

def Engine.traced (e : Engine σ) : Engine (σ × Calls) :=
  ⟨e.host.traced, e.processors, e.maxDepth, e.indent⟩

def World.traced (w : World σ) : World (σ × Calls) :=
  ⟨w.context, (w.memory, []), w.journal, w.changes⟩

def Act.calls {α : Type} (act : Act (World (σ × Calls)) α) (w : World σ) : Calls :=
  (act.final w.traced).memory.2

end Inlay
