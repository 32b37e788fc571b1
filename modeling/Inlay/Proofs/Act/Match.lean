import Inlay.Proofs.Act
import Mathlib.Data.List.Forall2

/-! Two acts side by side, each with a state of its own: they match if from related states they come
to related results in related states, or to the same fault. -/

namespace Inlay.Act

variable {τ τ' α α' β β' : Type}

inductive Matched (R : τ → τ' → Prop) (V : α → α' → Prop) :
    EStateM.Result Fault τ α → EStateM.Result Fault τ' α' → Prop
  | ok {a : α} {a' : α'} {s : τ} {s' : τ'} : V a a' → R s s' → Matched R V (.ok a s) (.ok a' s')
  | error {f : Fault} {s : τ} {s' : τ'} : R s s' → Matched R V (.error f s) (.error f s')

def Matches (R : τ → τ' → Prop) (V : α → α' → Prop) (act : Act τ α) (act' : Act τ' α') : Prop :=
  ∀ s s', R s s' → Matched R V (act s) (act' s')

def YieldsBeside (R : τ → τ' → Prop) (P : α' → Prop) (act' : Act τ' α') : Prop :=
  ∀ s s', R s s' → ∀ a t, act' s' = .ok a t → P a

namespace YieldsBeside

variable {R : τ → τ' → Prop} {P : β' → Prop}

theorem pure {b : β'} (h : P b) : YieldsBeside R P (pure b : Act τ' β') := by
  rintro s s' - _ t ⟨⟩
  exact h

theorem throw (f : Fault) : YieldsBeside R P (throw f : Act τ' β') := by
  rintro s s' - b t ⟨⟩

theorem bindExcept {e : Except Fault α'} {next : α' → Act τ' β'}
    (h : ∀ a, e = .ok a → YieldsBeside R P (next a)) :
    YieldsBeside R P (ofExcept e >>= next) := by
  cases e with
  | ok a => exact h a rfl
  | error f => exact throw f

end YieldsBeside

inductive Agree {ε : Type} (V : α → α' → Prop) : Except ε α → Except ε α' → Prop
  | ok {a : α} {a' : α'} : V a a' → Agree V (.ok a) (.ok a')
  | error (f : ε) : Agree V (.error f) (.error f)

namespace Matches

variable {R : τ → τ' → Prop} {V : α → α' → Prop} {W : β → β' → Prop}

theorem ends {act : Act τ α} {act' : Act τ' α'} (ha : Matches R V act act') {s : τ} {s' : τ'}
    (h : R s s') :
    (∃ a a' t t', act s = .ok a t ∧ act' s' = .ok a' t' ∧ V a a' ∧ R t t') ∨
      ∃ f t t', act s = .error f t ∧ act' s' = .error f t' ∧ R t t' := by
  have hs := ha s s' h
  generalize act s = r at hs
  generalize act' s' = r' at hs
  cases hs with
  | ok hv h => exact .inl ⟨_, _, _, _, rfl, rfl, hv, h⟩
  | error h => exact .inr ⟨_, _, _, rfl, rfl, h⟩

theorem pure {a : α} {a' : α'} (h : V a a') :
    Matches R V (pure a : Act τ α) (pure a' : Act τ' α') := fun _ _ hs => .ok h hs

theorem throw (f : Fault) : Matches R V (throw f : Act τ α) (throw f : Act τ' α') :=
  fun _ _ hs => .error hs

theorem bind {act : Act τ α} {act' : Act τ' α'} {next : α → Act τ β} {next' : α' → Act τ' β'}
    (ha : Matches R V act act') (hn : ∀ a a', V a a' → Matches R W (next a) (next' a')) :
    Matches R W (act >>= next) (act' >>= next') := by
  intro s s' h
  rw [bind_apply, bind_apply]
  rcases ha.ends h with ⟨a, a', t, t', hs, hs', hv, ht⟩ | ⟨f, t, t', hs, hs', ht⟩
  · rw [hs, hs']
    exact hn a a' hv t t' ht
  · rw [hs, hs']
    exact .error ht

theorem map {g : α → β} {g' : α' → β'} {act : Act τ α} {act' : Act τ' α'}
    (ha : Matches R V act act') (hg : ∀ a a', V a a' → W (g a) (g' a')) :
    Matches R W (g <$> act) (g' <$> act') := by
  rw [map_eq_pure_bind, map_eq_pure_bind]
  exact ha.bind fun a a' hv => .pure (hg a a' hv)

theorem mono {V' : α → α' → Prop} {act : Act τ α} {act' : Act τ' α'} (ha : Matches R V act act')
    (hv : ∀ a a', V a a' → V' a a') : Matches R V' act act' := by
  intro s s' h
  rcases ha.ends h with ⟨a, a', t, t', hs, hs', ha, ht⟩ | ⟨f, t, t', hs, hs', ht⟩
  · rw [hs, hs']
    exact .ok (hv a a' ha) ht
  · rw [hs, hs']
    exact .error ht

theorem and_yields {P : α' → Prop} {act : Act τ α} {act' : Act τ' α'} (ha : Matches R V act act')
    (hp : YieldsBeside R P act') : Matches R (fun a a' => V a a' ∧ P a') act act' := by
  intro s s' h
  rcases ha.ends h with ⟨a, a', t, t', hs, hs', hv, ht⟩ | ⟨f, t, t', hs, hs', ht⟩
  · rw [hs, hs']
    exact .ok ⟨hv, hp s s' h a' t' hs'⟩ ht
  · rw [hs, hs']
    exact .error ht

theorem ofExcept {g : α → α'} {e : Except Fault α} {e' : Except Fault α'} (he : e' = g <$> e)
    (hv : ∀ a, e = .ok a → V a (g a)) : Matches R V (ofExcept e : Act τ α) (ofExcept e') := by
  subst he
  cases e with
  | ok a => exact pure (hv a rfl)
  | error f => exact throw f

theorem ofSame {V : α → α → Prop} {e e' : Except Fault α} (he : e' = e)
    (hv : ∀ a, e = .ok a → V a a) : Matches R V (Act.ofExcept e) (Act.ofExcept e') :=
  ofExcept (he.trans (id_map e).symm) hv

theorem bindExcept {g : α → α'} {e : Except Fault α} {e' : Except Fault α'} {next : α → Act τ β}
    {next' : α' → Act τ' β'} (he : e' = g <$> e)
    (hn : ∀ a, e = .ok a → Matches R W (next a) (next' (g a))) :
    Matches R W (Act.ofExcept e >>= next) (Act.ofExcept e' >>= next') := by
  subst he
  cases e with
  | ok a => exact hn a rfl
  | error f => exact throw f

theorem bindSame {e e' : Except Fault α} {next : α → Act τ β} {next' : α → Act τ' β'} (he : e' = e)
    (hn : ∀ a, e = .ok a → Matches R W (next a) (next' a)) :
    Matches R W (Act.ofExcept e >>= next) (Act.ofExcept e' >>= next') :=
  bindExcept (he.trans (id_map e).symm) hn

theorem mapFault (g : Fault → Fault) {act : Act τ α} {act' : Act τ' α'}
    (ha : Matches R V act act') : Matches R V (mapFault g act) (mapFault g act') := by
  intro s s' h
  rw [Act.mapFault, Act.mapFault]
  rcases ha.ends h with ⟨a, a', t, t', hs, hs', hv, ht⟩ | ⟨f, t, t', hs, hs', ht⟩
  · rw [hs, hs']
    exact .ok hv ht
  · rw [hs, hs']
    exact .error ht

theorem observe {act : Act τ α} {act' : Act τ' α'} (ha : Matches R V act act') :
    Matches R (Agree V) (observe act) (observe act') := by
  intro s s' h
  rw [Act.observe, Act.observe]
  rcases ha.ends h with ⟨a, a', t, t', hs, hs', hv, ht⟩ | ⟨f, t, t', hs, hs', ht⟩
  · rw [hs, hs']
    exact .ok (.ok hv) ht
  · rw [hs, hs']
    exact .ok (.error f) ht

theorem modify {g : τ → τ} {g' : τ' → τ'} (hg : ∀ s s', R s s' → R (g s) (g' s')) :
    Matches R Eq (modify g : Act τ Unit) (modify g') := fun s s' h => .ok rfl (hg s s' h)

theorem get {next : τ → Act τ β} {next' : τ' → Act τ' β'}
    (hn : ∀ s s', R s s' → Matches R W (next s) (next' s')) :
    Matches R W (do next (← get)) (do next' (← get)) :=
  fun s s' h => hn s s' h s s' h

theorem ite {p : Prop} [Decidable p] {act₁ act₂ : Act τ α} {act₁' act₂' : Act τ' α'}
    (h₁ : p → Matches R V act₁ act₁') (h₂ : ¬p → Matches R V act₂ act₂') :
    Matches R V (if p then act₁ else act₂) (if p then act₁' else act₂') := by
  by_cases h : p
  · rw [if_pos h, if_pos h]
    exact h₁ h
  · rw [if_neg h, if_neg h]
    exact h₂ h

theorem mapM {g : α → α'} {step : α → Act τ β} {step' : α' → Act τ' β'} (as : List α)
    (hs : ∀ a ∈ as, Matches R W (step a) (step' (g a))) :
    Matches R (List.Forall₂ W) (as.mapM step) ((as.map g).mapM step') := by
  induction as with
  | nil => exact .pure .nil
  | cons a as ih =>
    rw [List.forall_mem_cons] at hs
    rw [List.map_cons, List.mapM_cons, List.mapM_cons]
    exact hs.1.bind fun b b' hb => (ih hs.2).bind fun bs bs' hbs => .pure (.cons hb hbs)

theorem mapSame {step : α → Act τ β} {step' : α → Act τ' β'} (as : List α)
    (hs : ∀ a ∈ as, Matches R W (step a) (step' a)) :
    Matches R (List.Forall₂ W) (as.mapM step) (as.mapM step') := by
  have hm := mapM (g := fun a => a) as hs
  rwa [List.map_id'] at hm

end Matches

theorem Matches.keeps {R : τ → τ → Prop} {act : Act τ α} (h : Matches R Eq act act) :
    Keeps R act := by
  intro s s' hs
  rcases h.ends hs with ⟨a, a', t, t', ht, ht', rfl, hr⟩ | ⟨f, t, t', ht, ht', hr⟩
  · rw [ht, ht']
    exact .ok hr
  · rw [ht, ht']
    exact .error hr

theorem Keeps.matches {R : τ → τ → Prop} {act : Act τ α} (h : Keeps R act) :
    Matches R Eq act act := by
  intro s s' hs
  rcases h.ends hs with ⟨a, t, t', ht, ht', hr⟩ | ⟨f, t, t', ht, ht', hr⟩
  · rw [ht, ht']
    exact .ok rfl hr
  · rw [ht, ht']
    exact .error hr

end Inlay.Act
