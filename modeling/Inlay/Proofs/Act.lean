import Inlay.Act

/-! Acts as wholes: what holds of all that an act gives, and relations between states that an act
keeps while it comes to the same end from both. Either follows the steps of an act. -/

namespace Inlay.Act

variable {τ α β : Type}

theorem bind_apply (act : Act τ α) (next : α → Act τ β) (s : τ) :
    (act >>= next) s =
      match act s with
      | .ok a s => next a s
      | .error f s => .error f s := by
  change EStateM.bind act next s = _
  rw [EStateM.bind]
  cases act s with
  | ok a s => rfl
  | error f s => rfl

theorem ofExcept_eq_ok_iff {e : Except Fault α} {a : α} {s : τ} :
    (ofExcept e : Act τ α) s = .ok a s ↔ e = .ok a := by
  cases e with
  | ok b =>
    constructor
    · rintro ⟨⟩
      rfl
    · rintro ⟨⟩
      rfl
  | error f => exact ⟨nofun, nofun⟩

theorem ofExcept_bind (e : Except Fault α) (next : α → Except Fault β) :
    (ofExcept (e >>= next) : Act τ β) = ofExcept e >>= fun a => ofExcept (next a) := by
  cases e with
  | ok a => rfl
  | error f => rfl

theorem ofExcept_mapM (step : α → Except Fault β) (as : List α) :
    (ofExcept (as.mapM step) : Act τ (List β)) = as.mapM fun a => ofExcept (step a) := by
  induction as with
  | nil => rfl
  | cons a as ih =>
    rw [List.mapM_cons, List.mapM_cons, ofExcept_bind]
    refine congrArg (ofExcept (step a) >>= ·) (funext fun b => ?_)
    rw [ofExcept_bind, ih]
    rfl

def Yields (P : α → Prop) (act : Act τ α) : Prop := ∀ s a s', act s = .ok a s' → P a

theorem Yields.pure {P : α → Prop} {a : α} (h : P a) : Yields P (pure a : Act τ α) := by
  rintro s _ s' ⟨⟩
  exact h

theorem Yields.bind {P : β → Prop} {act : Act τ α} {next : α → Act τ β}
    (h : ∀ a, Yields P (next a)) : Yields P (act >>= next) := by
  intro s b s' hs
  rw [bind_apply] at hs
  cases ha : act s with
  | ok a s₁ => rw [ha] at hs; exact h a s₁ b s' hs
  | error f s₁ => rw [ha] at hs; cases hs

theorem Yields.seq {Q : α → Prop} {P : β → Prop} {act : Act τ α} {next : α → Act τ β}
    (ha : Yields Q act) (h : ∀ a, Q a → Yields P (next a)) : Yields P (act >>= next) := by
  intro s b s' hs
  rw [bind_apply] at hs
  cases hr : act s with
  | ok a s₁ => rw [hr] at hs; exact h a (ha s a s₁ hr) s₁ b s' hs
  | error f s₁ => rw [hr] at hs; cases hs

theorem Yields.map {Q : α → Prop} {P : β → Prop} {act : Act τ α} {g : α → β} (ha : Yields Q act)
    (h : ∀ a, Q a → P (g a)) : Yields P (g <$> act) := by
  rw [map_eq_pure_bind]
  exact ha.seq fun a hq => .pure (h a hq)

theorem Yields.ofExcept {P : α → Prop} {e : Except Fault α} (h : ∀ a, e = .ok a → P a) :
    Yields P (ofExcept e : Act τ α) := by
  cases e with
  | ok a => exact .pure (h a rfl)
  | error f => nofun

def Extends (act act' : Act τ α) : Prop := ∀ s a s', act s = .ok a s' → act' s = .ok a s'

namespace Extends

theorem refl (act : Act τ α) : Extends act act := fun _ _ _ h => h

theorem throw (f : Fault) (act : Act τ α) : Extends (throw f) act := nofun

theorem ofExcept {e e' : Except Fault α} (h : ∀ a, e = .ok a → e' = .ok a) :
    Extends (ofExcept e : Act τ α) (ofExcept e') := by
  cases e with
  | ok a =>
    rw [h a rfl]
    exact refl _
  | error f => exact throw f _

theorem bind {act act' : Act τ α} {next next' : α → Act τ β} (h : Extends act act')
    (hn : ∀ a, Extends (next a) (next' a)) : Extends (act >>= next) (act' >>= next') := by
  intro s b s' hs
  rw [bind_apply] at hs ⊢
  cases ha : act s with
  | error f s₁ =>
    rw [ha] at hs
    cases hs
  | ok a s₁ =>
    rw [ha] at hs
    rw [h s a s₁ ha]
    exact hn a s₁ b s' hs

theorem mapFault (g : Fault → Fault) {act act' : Act τ α} (h : Extends act act') :
    Extends (mapFault g act) (mapFault g act') := by
  intro s a s' hs
  rw [Act.mapFault] at hs ⊢
  cases ha : act s with
  | ok b s₁ =>
    rw [ha] at hs
    rwa [h s b s₁ ha]
  | error f s₁ =>
    rw [ha] at hs
    cases hs

theorem map (g : α → β) {act act' : Act τ α} (h : Extends act act') :
    Extends (g <$> act) (g <$> act') := by
  rw [map_eq_pure_bind, map_eq_pure_bind]
  exact h.bind fun a => refl _

end Extends

def final (act : Act τ α) (s : τ) : τ :=
  match act s with
  | .ok _ s | .error _ s => s

theorem final_bind (act : Act τ α) (next : α → Act τ β) (s : τ) :
    (act >>= next).final s =
      match act s with
      | .ok a s => (next a).final s
      | .error _ s => s := by
  rw [final, bind_apply]
  cases act s with
  | ok a s => rfl
  | error f s => rfl

/-- An act comes to the same end from two states, in states that are related again. -/
inductive Same (R : τ → τ → Prop) :
    EStateM.Result Fault τ α → EStateM.Result Fault τ α → Prop
  | ok {a : α} {s s' : τ} : R s s' → Same R (.ok a s) (.ok a s')
  | error {f : Fault} {s s' : τ} : R s s' → Same R (.error f s) (.error f s')

def Keeps (R : τ → τ → Prop) (act : Act τ α) : Prop := ∀ s s', R s s' → Same R (act s) (act s')

namespace Keeps

variable {R : τ → τ → Prop}

theorem ends {act : Act τ α} (ha : Keeps R act) {s s' : τ} (h : R s s') :
    (∃ a t t', act s = .ok a t ∧ act s' = .ok a t' ∧ R t t') ∨
      ∃ f t t', act s = .error f t ∧ act s' = .error f t' ∧ R t t' := by
  have hs := ha s s' h
  generalize act s = r at hs
  generalize act s' = r' at hs
  cases hs with
  | ok h => exact .inl ⟨_, _, _, rfl, rfl, h⟩
  | error h => exact .inr ⟨_, _, _, rfl, rfl, h⟩

theorem final {act : Act τ α} (ha : Keeps R act) {s s' : τ} (h : R s s') :
    R (act.final s) (act.final s') := by
  rcases ha.ends h with ⟨a, t, t', hs, hs', ht⟩ | ⟨f, t, t', hs, hs', ht⟩
  · rwa [Act.final, Act.final, hs, hs']
  · rwa [Act.final, Act.final, hs, hs']

theorem pure (a : α) : Keeps R (pure a : Act τ α) := fun _ _ h => .ok h

theorem bind {act : Act τ α} {next : α → Act τ β} (ha : Keeps R act)
    (hn : ∀ a, Keeps R (next a)) : Keeps R (act >>= next) := by
  intro s s' h
  rw [bind_apply, bind_apply]
  rcases ha.ends h with ⟨a, t, t', hs, hs', ht⟩ | ⟨f, t, t', hs, hs', ht⟩
  · rw [hs, hs']
    exact hn a t t' ht
  · rw [hs, hs']
    exact .error ht

theorem map (g : α → β) {act : Act τ α} (ha : Keeps R act) : Keeps R (g <$> act) := by
  rw [map_eq_pure_bind]
  exact ha.bind fun a => pure (g a)

theorem observe {act : Act τ α} (ha : Keeps R act) : Keeps R (observe act) := by
  intro s s' h
  rw [Act.observe, Act.observe]
  rcases ha.ends h with ⟨a, t, t', hs, hs', ht⟩ | ⟨f, t, t', hs, hs', ht⟩
  · rw [hs, hs']
    exact .ok ht
  · rw [hs, hs']
    exact .ok ht

theorem modify {g : τ → τ} (hg : ∀ s s', R s s' → R (g s) (g s')) :
    Keeps R (modify g : Act τ Unit) := fun s s' h => .ok (hg s s' h)

end Keeps

def Ensures (I : τ → Prop) (P : α → τ → Prop) (act : Act τ α) : Prop :=
  ∀ s a s', I s → act s = .ok a s' → P a s'

namespace Ensures

variable {I : τ → Prop}

theorem pure {P : α → τ → Prop} {a : α} (h : ∀ s, I s → P a s) :
    Ensures I P (pure a : Act τ α) := by
  rintro s _ s' hs ⟨⟩
  exact h s hs

theorem bind {Q : α → τ → Prop} {P : β → τ → Prop} {act : Act τ α} {next : α → Act τ β}
    (h : Ensures I Q act) (hn : ∀ a, Ensures (Q a) P (next a)) : Ensures I P (act >>= next) := by
  intro s b s' hs hb
  rw [bind_apply] at hb
  cases ha : act s with
  | error f s₁ => rw [ha] at hb; cases hb
  | ok a s₁ =>
    rw [ha] at hb
    exact hn a s₁ b s' (h s a s₁ hs ha) hb

end Ensures

theorem Keeps.ensures {I : τ → Prop} {act : Act τ α}
    (h : Keeps (fun s s' => s = s' ∧ I s) act) : Ensures I (fun _ => I) act := by
  intro s a s' hs ha
  have hf := (h.final ⟨rfl, hs⟩).2
  rwa [Act.final, ha] at hf

end Inlay.Act
