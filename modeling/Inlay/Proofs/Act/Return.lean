import Inlay.Proofs.Act

/-! Acts that end without a fault. -/

namespace Inlay.Act

variable {τ α β : Type}

def Returns (act : Act τ α) (s : τ) : Prop := ∃ a s', act s = .ok a s'

theorem returns_bind {act : Act τ α} {next : α → Act τ β} {s : τ} :
    (act >>= next).Returns s ↔ ∃ a s', act s = .ok a s' ∧ (next a).Returns s' := by
  rw [Returns, bind_apply]
  cases act s with
  | ok a s₁ =>
    refine ⟨fun h => ⟨a, s₁, rfl, h⟩, ?_⟩
    rintro ⟨_, _, ⟨⟩, h⟩
    exact h
  | error f s₁ =>
    constructor
    · rintro ⟨b, s', ⟨⟩⟩
    · rintro ⟨a, s', ⟨⟩, -⟩

theorem returns_pure (a : α) (s : τ) : (pure a : Act τ α).Returns s := ⟨a, s, rfl⟩

theorem returns_bind_ofExcept {e : Except Fault α} {next : α → Act τ β} {s : τ} :
    (ofExcept e >>= next).Returns s ↔ ∃ a, e = .ok a ∧ (next a).Returns s := by
  rw [returns_bind]
  cases e with
  | ok a =>
    refine ⟨?_, fun ⟨b, hb, h⟩ => ⟨b, s, hb ▸ rfl, h⟩⟩
    rintro ⟨_, _, ⟨⟩, h⟩
    exact ⟨a, rfl, h⟩
  | error f =>
    constructor
    · rintro ⟨a, s', ⟨⟩, -⟩
    · rintro ⟨a, ⟨⟩, -⟩

theorem returns_ofExcept {e : Except Fault α} {s : τ} :
    (ofExcept e : Act τ α).Returns s ↔ ∃ a, e = .ok a := by
  rw [← bind_pure (ofExcept e), returns_bind_ofExcept]
  exact exists_congr fun a => and_iff_left (returns_pure a s)

theorem returns_bind_pure {act : Act τ α} (g : α → β) {s : τ} :
    (act >>= fun a => pure (g a)).Returns s ↔ act.Returns s := by
  rw [returns_bind]
  exact exists_congr fun a => exists_congr fun s' => and_iff_left (returns_pure (g a) s')

theorem returns_observe (act : Act τ α) (s : τ) : (observe act).Returns s := by
  rw [Returns, observe]
  cases act s with
  | ok a s₁ => exact ⟨.ok a, s₁, rfl⟩
  | error f s₁ => exact ⟨.error f, s₁, rfl⟩

end Inlay.Act
