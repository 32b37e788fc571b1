import Inlay.Proofs.World.Respect

/-! Hosts that have something beside their memory and leave it alone: what reaches a world by its
host alone comes to the same end with it. -/

namespace Inlay

variable {σ μ α : Type}

def Host.beside (host : Host σ) (μ : Type) : Host (σ × μ) where
  call id arguments m :=
    let (ended, memory) := host.call id arguments m.1
    (ended, memory, m.2)

namespace World

def beside (w : World σ) (m : μ) : World (σ × μ) := ⟨w.context, (w.memory, m), w.journal, w.changes⟩

def alone (w : World (σ × μ)) : World σ := ⟨w.context, w.memory.1, w.journal, w.changes⟩

end World

namespace Act

def Beside (m : μ) : EStateM.Result Fault (World σ) α → EStateM.Result Fault (World (σ × μ)) α
  | .ok a w => .ok a (w.beside m)
  | .error f w => .error f (w.beside m)

end Act

theorem Host.invoke_beside (host : Host σ) (m : μ) (id : Nat) (label : String) (vs : List Value)
    (w : World σ) :
    (Callable.hosted id label).invoke (host.beside μ) vs (w.beside m) =
      Act.Beside m ((Callable.hosted id label).invoke host vs w) := by
  have hm : (host.beside μ).call id vs (w.beside m).memory =
      ((host.call id vs w.memory).1, (host.call id vs w.memory).2, m) := rfl
  rw [Callable.invoke_hosted, Callable.invoke_hosted, hm]
  cases (host.call id vs w.memory).1 with
  | ok v => rfl
  | error f => rfl

theorem Host.mirrors_beside (host : Host σ) (m : μ) :
    host.Mirrors (host.beside μ) .full fun w w' => w' = w.beside m where
  select hw selector := by
    rw [hw]
    exact Sight.reveals_full_iff.2 rfl
  functions hw := by rw [hw]; rfl
  note message w w' hw := by rw [hw]; rfl
  change _ c {w w'} hw := by
    rw [hw, World.change, World.change]
    split
    · rfl
    · rfl
  invoke id label vs _ := by
    rw [Sight.full_full.seen_eq_id, List.map_id]
    rintro w _ rfl
    rw [host.invoke_beside m]
    cases (Callable.hosted id label).invoke host vs w with
    | ok v w₁ => exact .ok (Sight.reveals_full_iff.2 rfl) rfl
    | error f w₁ => exact .error rfl
  reaches hf := absurd Sight.full_full hf
  grants hf := absurd Sight.full_full hf

theorem Act.Matches.beside {act : Act (World σ) α} {act' : Act (World (σ × μ)) α} {m : μ}
    (h : Matches (fun w w' => w' = w.beside m) Eq act act') (w : World σ) :
    act' (w.beside m) = Beside m (act w) := by
  rcases h.ends rfl with ⟨a, _, w₁, _, ha, ha', rfl, rfl⟩ | ⟨f, w₁, _, ha, ha', rfl⟩
  · rw [ha, ha']
    rfl
  · rw [ha, ha']
    rfl

end Inlay
