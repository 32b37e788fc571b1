import Inlay.Proofs.Engine.Resolution
import Inlay.Proofs.Host.Trace
import Inlay.Proofs.Text.Entity

/-! The raw marker: it turns the escaping of a text off, and nothing else. -/

namespace Inlay

def Outcome.escaped (o : Outcome) : Outcome := { o with text := Text.escape o.text }

theorem Outcome.escaped_refused (r : Refusal) : (Outcome.refused r).escaped = .refused r := rfl

namespace Value

variable {σ : Type}

theorem format_sanitized (host : Host σ) (v : Value) :
    v.format host true = Text.escape <$> v.format host false := by
  rw [format, format, Functor.map_map]
  rfl

end Value

namespace Engine

variable {σ : Type}

theorem write_sanitized_eq (e : Engine σ) (path : String) (name : Option String) (v : Value)
    (o : Origin) :
    e.write ⟨path, name, false⟩ v o = Outcome.escaped <$> e.write ⟨path, name, true⟩ v o := by
  rw [write, write, map_bind]
  refine congrArg (Processor.apply e.host e.processors name v o >>= ·) (funext fun w => ?_)
  have hf : w.format e.host (!false) = Text.escape <$> w.format e.host (!true) :=
    w.format_sanitized e.host
  rw [hf, bind_map_left, map_bind]
  rfl

theorem resolve_sanitized_eq (e : Engine σ) (path : String) (name : Option String) :
    e.resolve ⟨path, name, false⟩ = Outcome.escaped <$> e.resolve ⟨path, name, true⟩ := by
  rw [resolve, resolve]
  generalize Path.split (some ':') (some e.maxDepth) path = parts
  rcases parts with f | _ | ⟨selector, segments⟩
  · simp only [map_bind, map_pure, Outcome.escaped_refused]
  · simp only [map_pure, Outcome.escaped_refused]
  · simp only [map_bind]
    refine congrArg (e.locate selector segments >>= ·) (funext fun found => ?_)
    cases found with
    | error f => simp only [map_pure, Outcome.escaped_refused]
    | ok v =>
      have hu : e.unknown? ⟨path, name, false⟩ = e.unknown? ⟨path, name, true⟩ := rfl
      simp only [finish_eq, hu]
      cases e.unknown? ⟨path, name, true⟩ with
      | some name => simp only [map_bind, map_pure, Outcome.escaped_refused]
      | none => exact e.write_sanitized_eq path name v _

theorem resolve_sanitized_apply (e : Engine σ) (path : String) (name : Option String)
    (w : World σ) :
    e.resolve ⟨path, name, false⟩ w =
      match e.resolve ⟨path, name, true⟩ w with
      | .ok o w' => .ok o.escaped w'
      | .error f w' => .error f w' := by
  rw [resolve_sanitized_eq, map_eq_pure_bind, Act.bind_apply]
  cases e.resolve ⟨path, name, true⟩ w with
  | ok o w' => rfl
  | error f w' => rfl

/-- With the raw marker and without it a tag comes to the same end, in the same state and after the
same calls; its text is escaped in the one case. Different texts have different escapes. -/
theorem resolve_raw (e : Engine σ) (path : String) (name : Option String) (w : World σ) :
    ((∃ raw escaped w', e.resolve ⟨path, name, true⟩ w = .ok raw w' ∧
          e.resolve ⟨path, name, false⟩ w = .ok escaped w' ∧
          escaped.success = raw.success ∧ escaped.error = raw.error ∧
          Text.Escapes raw.text.toList escaped.text.toList) ∨
        ∃ f w', e.resolve ⟨path, name, true⟩ w = .error f w' ∧
          e.resolve ⟨path, name, false⟩ w = .error f w') ∧
      (e.traced.resolve ⟨path, name, false⟩).calls w =
        (e.traced.resolve ⟨path, name, true⟩).calls w ∧
      ∀ s s' : String, Text.escape s = Text.escape s' → s = s' := by
  refine ⟨?_, ?_, fun s s' h => ?_⟩
  · rw [resolve_sanitized_apply]
    cases e.resolve ⟨path, name, true⟩ w with
    | ok o w' => exact .inl ⟨o, o.escaped, w', rfl, rfl, rfl, rfl, Text.escapes_escape o.text⟩
    | error f w' => exact .inr ⟨f, w', rfl, rfl⟩
  · rw [Act.calls, Act.calls, Act.final, Act.final, resolve_sanitized_apply]
    cases e.traced.resolve ⟨path, name, true⟩ w.traced with
    | ok o w' => rfl
    | error f w' => rfl
  · have hs := Text.escapes_escape s
    rw [h] at hs
    exact String.ext_iff.2 (hs.unique (Text.escapes_escape s'))

end Engine

end Inlay
