import Inlay.Proofs.Act
import Mathlib.Data.List.Forall2

/-! Settled acts: from all states of some sort they come to one end, and to a state of that sort. -/

namespace Inlay.Act

variable {τ α β : Type}

/-- The end of an act, a fault or a value, is the same from all states of a sort. -/
def ComesTo (P : τ → Prop) (act : Act τ α) (r : Except Fault α) : Prop :=
  ∀ s, P s → ∃ s', P s' ∧ act s = ofExcept r s'

def Settled (P : τ → Prop) (act : Act τ α) : Prop := ∃ r, ComesTo P act r

variable {P : τ → Prop}

namespace ComesTo

theorem ofExcept (r : Except Fault α) : ComesTo P (ofExcept r) r := fun s hs => ⟨s, hs, rfl⟩

theorem pure (a : α) : ComesTo P (pure a) (.ok a) := ofExcept (.ok a)

theorem throw (f : Fault) : ComesTo P (throw f : Act τ α) (.error f) := ofExcept (.error f)

theorem bind {act : Act τ α} {next : α → Act τ β} {r : Except Fault α} {g : α → Except Fault β}
    (h : ComesTo P act r) (hn : ∀ a, r = .ok a → ComesTo P (next a) (g a)) :
    ComesTo P (act >>= next) (r >>= g) := by
  intro s hs
  obtain ⟨s₁, hs₁, he⟩ := h s hs
  rw [bind_apply, he]
  cases r with
  | ok a => exact hn a rfl s₁ hs₁
  | error f => exact ⟨s₁, hs₁, rfl⟩

theorem bind_ok {act : Act τ α} {next : α → Act τ β} {a : α} {r : Except Fault β}
    (h : ComesTo P act (.ok a)) (hn : ComesTo P (next a) r) : ComesTo P (act >>= next) r :=
  h.bind (g := fun _ => r) fun _ he => Except.ok.inj he ▸ hn

theorem bind_error {act : Act τ α} {next : α → Act τ β} {f : Fault}
    (h : ComesTo P act (.error f)) : ComesTo P (act >>= next) (.error f) :=
  h.bind (g := fun _ => .error f) nofun

theorem bindExcept {e : Except Fault α} {next : α → Act τ β} {g : α → Except Fault β}
    (hn : ∀ a, e = .ok a → ComesTo P (next a) (g a)) :
    ComesTo P (Act.ofExcept e >>= next) (e >>= g) :=
  (ofExcept e).bind hn

theorem map (g : α → β) {act : Act τ α} {r : Except Fault α} (h : ComesTo P act r) :
    ComesTo P (g <$> act) (g <$> r) := by
  rw [map_eq_pure_bind, map_eq_pure_bind]
  exact h.bind fun a _ => pure (g a)

theorem mapFault (g : Fault → Fault) {act : Act τ α} {r : Except Fault α} (h : ComesTo P act r) :
    ComesTo P (mapFault g act) (r.mapError g) := by
  intro s hs
  obtain ⟨s', hs', he⟩ := h s hs
  refine ⟨s', hs', ?_⟩
  rw [Act.mapFault, he]
  cases r <;> rfl

theorem mapM {step : α → Act τ β} {g : α → Except Fault β} (as : List α)
    (h : ∀ a ∈ as, ComesTo P (step a) (g a)) : ComesTo P (as.mapM step) (as.mapM g) := by
  induction as with
  | nil => exact pure []
  | cons a as ih =>
    rw [List.forall_mem_cons] at h
    rw [List.mapM_cons, List.mapM_cons]
    exact h.1.bind fun b _ => (ih h.2).bind fun bs _ => pure (b :: bs)

end ComesTo

namespace Settled

theorem ofExcept (r : Except Fault α) : Settled P (Act.ofExcept r) := ⟨r, .ofExcept r⟩

theorem throw (f : Fault) : Settled P (throw f : Act τ α) := ⟨.error f, .throw f⟩

theorem map (g : α → β) {act : Act τ α} (h : Settled P act) : Settled P (g <$> act) := by
  obtain ⟨r, hr⟩ := h
  exact ⟨g <$> r, hr.map g⟩

theorem mapM {step : α → Act τ β} {as : List α} (h : ∀ a ∈ as, Settled P (step a)) :
    Settled P (as.mapM step) := by
  induction as with
  | nil => exact ⟨.ok [], .pure []⟩
  | cons a as ih =>
    rw [List.forall_mem_cons] at h
    obtain ⟨r, hr⟩ := h.1
    obtain ⟨rs, hrs⟩ := ih h.2
    rw [List.mapM_cons]
    exact ⟨_, hr.bind fun b _ => hrs.bind fun bs _ => .pure (b :: bs)⟩

end Settled

namespace ComesTo

variable {s s' : τ} (hs : P s)

include hs

theorem eq_of_apply {act : Act τ α} {r r' : Except Fault α} (h : ComesTo P act r)
    (ha : act s = Act.ofExcept r' s') : r = r' ∧ P s' := by
  obtain ⟨s₁, hs₁, he⟩ := h s hs
  rw [he] at ha
  cases r <;> cases r' <;> cases ha
  · exact ⟨rfl, hs₁⟩
  · exact ⟨rfl, hs₁⟩

theorem unique {act : Act τ α} {r r' : Except Fault α} (h : ComesTo P act r)
    (h' : ComesTo P act r') : r = r' := by
  obtain ⟨s₁, -, he⟩ := h' s hs
  exact (h.eq_of_apply hs he).1

theorem of_map {g : α → β} {act : Act τ α} {b : β} (hact : Settled P act)
    (h : ComesTo P (g <$> act) (.ok b)) : ∃ a, ComesTo P act (.ok a) ∧ b = g a := by
  obtain ⟨r, hr⟩ := hact
  have he := (hr.map g).unique hs h
  cases r with
  | ok a => exact ⟨a, hr, (Except.ok.inj he).symm⟩
  | error f => cases he

theorem of_mapM {Q : α → β → Prop} {step : α → Act τ β} {as : List α} {bs : List β}
    (hstep : ∀ a ∈ as, Settled P (step a)) (h : ComesTo P (as.mapM step) (.ok bs))
    (hq : ∀ a ∈ as, ∀ b, ComesTo P (step a) (.ok b) → Q a b) : List.Forall₂ Q as bs := by
  induction as generalizing bs with
  | nil =>
    cases (pure []).unique hs h
    exact .nil
  | cons a as ih =>
    rw [List.forall_mem_cons] at hstep hq
    obtain ⟨r, hr⟩ := hstep.1
    obtain ⟨rs, hrs⟩ := Settled.mapM hstep.2
    rw [List.mapM_cons] at h
    have he := (hr.bind fun b _ => hrs.bind fun bs _ => pure (b :: bs)).unique hs h
    cases r with
    | error f => cases he
    | ok b =>
      cases rs with
      | error f => cases he
      | ok bs =>
        cases he
        exact .cons (hq.1 b hr) (ih hstep.2 hrs hq.2)

end ComesTo

end Inlay.Act
