import Inlay.Fault

/-! Steps with effects: they change a state and may end in a fault. The state that a fault leaves
behind counts. -/

namespace Inlay

abbrev Act (τ : Type) := EStateM Fault τ

/-- The messages reported so far, in order. A quiet journal keeps none. -/
structure Journal where
  quiet : Bool
  messages : List String

namespace Journal

def empty (quiet : Bool) : Journal := ⟨quiet, []⟩

def note (message : String) (j : Journal) : Journal :=
  if j.quiet then j else { j with messages := j.messages ++ [message] }

end Journal

class Reports (τ : Type) where
  note : String → τ → τ

instance : Reports Journal := ⟨Journal.note⟩

namespace Act

variable {τ α : Type}

def ofExcept : Except Fault α → Act τ α
  | .ok a => pure a
  | .error f => throw f

def mapFault (g : Fault → Fault) (act : Act τ α) : Act τ α := fun s =>
  match act s with
  | .ok a s => .ok a s
  | .error f s => .error (g f) s

def observe (act : Act τ α) : Act τ (Except Fault α) := fun s =>
  match act s with
  | .ok a s => .ok (.ok a) s
  | .error f s => .ok (.error f) s

def report [Reports τ] (message : String) : Act τ Unit := modify (Reports.note message)

end Act

end Inlay
