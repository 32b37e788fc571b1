import Inlay.Proofs.Engine.Resolution
import Inlay.Proofs.Host.Trace
import Inlay.Proofs.Page.Match

/-! The calls of a page: a page comes out the same whether or not its host keeps a list of its
calls. -/

namespace Inlay

variable {σ : Type}

structure World.Tracks (w : World σ) (w' : World (σ × Calls)) : Prop where
  context : w'.context = w.context
  memory : w'.memory.1 = w.memory
  journal : w'.journal = w.journal
  changes : w'.changes = w.changes

namespace World.Tracks

theorem traced (w : World σ) : w.Tracks w.traced := ⟨rfl, rfl, rfl, rfl⟩

variable {w : World σ} {w' : World (σ × Calls)}

theorem current (h : w.Tracks w') (v : Value) : w'.current v = w.current v := by
  rw [World.current, h.changes, World.current]

theorem invoke (host : Host σ) (id : Nat) (label : String) (vs : List Value) :
    Act.Matches World.Tracks Eq ((Callable.hosted id label).invoke host vs)
      ((Callable.hosted id label).invoke host.traced vs) := by
  intro w w' h
  have hm : host.traced.call id vs w'.memory =
      ((host.call id vs w.memory).1, (host.call id vs w.memory).2, w'.memory.2 ++ [(id, vs)]) := by
    rw [← h.memory]
    rfl
  rw [Callable.invoke_hosted, Callable.invoke_hosted, hm]
  cases (host.call id vs w.memory).1 with
  | ok v => exact .ok (h.current v).symm { h with memory := rfl }
  | error f => exact .error { h with memory := rfl }

theorem mirrors (host : Host σ) : host.Mirrors host.traced .full World.Tracks where
  select {w w'} h selector := by
    rw [Sight.reveals_full_iff, World.select, World.select, h.context, h.current]
  functions h := by rw [h.context]
  note message _ _ h := { h with journal := congrArg (Journal.note message) h.journal }
  change _ c {w w'} h := by
    rw [World.change, World.change]
    by_cases hc : c.id = 0
    · rwa [if_pos hc, if_pos hc]
    · rw [if_neg hc, if_neg hc]
      exact { h with changes := congrArg (· ++ [c]) h.changes }
  invoke id label vs _ := by
    rw [Sight.full_full.seen_eq_id, List.map_id]
    exact (invoke host id label vs).mono fun _ _ => Sight.reveals_full_iff.2
  reaches hf := absurd Sight.full_full hf
  grants hf := absurd Sight.full_full hf

end World.Tracks

theorem Processor.removeEntry_tracks (origin : Origin) :
    Act.Matches (World.Tracks (σ := σ)) Eq (removeEntry origin) (removeEntry origin) := by
  unfold removeEntry
  split
  · refine .modify fun w w' h => { h with context := ?_ }
    exact congrArg (fun c : Context => (c.unset _).2) h.context
  · exact .pure rfl

namespace Engine

variable (e : Engine σ)

def hostCalls (cap : Nat) (text : String) (w : World σ) : Calls :=
  (e.traced.render cap text w.traced).2.memory.2

theorem resolve_traced (t : Tag) : Act.Matches World.Tracks Eq (e.resolve t) (e.traced.resolve t) :=
  resolve_matches t (World.Tracks.mirrors e.host) fun _ => Processor.removeEntry_tracks

theorem render_traced (cap : Nat) (text : String) (w : World σ) :
    (e.render cap text w).1 = (e.traced.render cap text w.traced).1 ∧
      (e.render cap text w).2.Tracks (e.traced.render cap text w.traced).2 :=
  Page.render_matches (fun message _ _ => (World.Tracks.mirrors e.host).note message)
    e.resolve_traced cap text (World.Tracks.traced w)

end Engine

end Inlay
