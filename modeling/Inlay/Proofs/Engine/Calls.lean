import Inlay.Proofs.Engine.Trace

/-! Calls of acts that follow each other. An act makes the same calls whatever calls came before it,
so the calls of two acts in turn are those of the first and then those of the second. -/

namespace Inlay

variable {σ : Type}

/-- The second world is the first, with more calls before its own. -/
structure World.Follows (before : Calls) (w w' : World (σ × Calls)) : Prop where
  context : w.context = w'.context
  memory : w'.memory = (w.memory.1, before ++ w.memory.2)
  journal : w.journal = w'.journal
  changes : w.changes = w'.changes

theorem World.Tracks.follows {w : World σ} {w' : World (σ × Calls)} (h : w.Tracks w') :
    World.Follows w'.memory.2 w.traced w' where
  context := h.context.symm
  memory := by
    rw [World.traced, List.append_nil, ← h.memory]
  journal := h.journal.symm
  changes := h.changes.symm

theorem World.Follows.respects (host : Host σ) (before : Calls) :
    host.traced.Respects (World.Follows before) where
  context h := h.context
  changes h := h.changes
  note message _ _ h := { h with journal := congrArg (Journal.note message) h.journal }
  change c {w w'} h := by
    rw [World.change, World.change]
    by_cases hc : c.id = 0
    · rwa [if_pos hc, if_pos hc]
    · rw [if_neg hc, if_neg hc]
      exact { h with changes := congrArg (· ++ [c]) h.changes }
  answer id arguments {w w'} h := by
    rw [h.memory]
    rfl
  call id arguments {w w'} h := by
    refine { h with memory := ?_ }
    rw [h.memory]
    exact Prod.ext rfl (List.append_assoc ..)

theorem Act.calls_bind {α β : Type} {act : Act (World σ) α} {act' : Act (World (σ × Calls)) α}
    {next' : α → Act (World (σ × Calls)) β} {w w₁ : World σ} {a : α} (h : act w = .ok a w₁)
    (ha : Act.Matches World.Tracks Eq act act')
    (hn : ∀ before, (next' a).Keeps (World.Follows before)) :
    (act' >>= next').calls w = act'.calls w ++ (next' a).calls w₁ := by
  rcases ha.ends (World.Tracks.traced w) with ⟨b, b', t, t', hs, hs', rfl, ht⟩ | ⟨f, t, t', hs, -⟩
  · rw [h] at hs
    cases hs
    have hf := ((hn t'.memory.2).final ht.follows).memory
    rw [calls, final_bind, hs', calls, final, hs', calls, hf]
  · rw [h] at hs
    cases hs

theorem Act.calls_seq {α β : Type} {act : Act (World σ) α} {act' : Act (World (σ × Calls)) α}
    {next' : α → Act (World (σ × Calls)) β} (ha : Act.Matches World.Tracks Eq act act')
    (hn : ∀ a before, (next' a).Keeps (World.Follows before)) (w : World σ) :
    (act' >>= next').calls w = act'.calls w ++
      match act w with
      | .ok a w₁ => (next' a).calls w₁
      | .error _ _ => [] := by
  cases h : act w with
  | ok a w₁ => exact calls_bind h ha (hn a)
  | error f w₁ =>
    rcases ha.ends (World.Tracks.traced w) with ⟨b, b', t, t', hs, -⟩ | ⟨f', t, t', hs, hs', ht⟩
    · cases h.symm.trans hs
    · rw [calls, final_bind, hs', calls, final, hs', List.append_nil]

theorem Callable.calls_invoke (host : Host σ) (id : Nat) (label : String) (vs : List Value)
    (w : World σ) :
    (Act.observe ((Callable.hosted id label).invoke host.traced vs)).calls w = [(id, vs)] := by
  rw [Act.calls, Act.final, Act.observe, invoke_hosted]
  cases (host.traced.call id vs w.traced.memory).1 with
  | ok v => rfl
  | error f => rfl

theorem Page.render_of_scan {τ : Type} [Reports τ] (resolve : Resolver τ) {cap : Nat}
    {text : String} {t : Tag} (h : Piece.scan cap text.toList = [.tag t]) (s : τ) :
    render resolve cap text s =
      ((replace resolve t s).1.outcome, (replace resolve t s).2) := by
  simp only [render, h, renderPieces, Rendering.append, List.append_nil]

namespace Engine

variable (e : Engine σ)

theorem hostCalls_of_scan {cap : Nat} {text : String} {t : Tag}
    (h : Piece.scan cap text.toList = [.tag t]) (w : World σ) :
    e.hostCalls cap text w = (e.traced.resolve t).calls w := by
  rw [hostCalls, render, Page.render_of_scan _ h, Page.replace, Act.calls, Act.final]
  cases e.traced.resolve t w.traced with
  | ok o w' => rfl
  | error f w' => rfl

end Engine

end Inlay
