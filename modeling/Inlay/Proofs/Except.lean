import Mathlib.Data.List.Forall2

/-! What a result without a fault tells of the steps that led to it. -/

namespace Inlay.Except

variable {ε α β : Type}

theorem of_bind {e : Except ε α} {next : α → Except ε β} {b : β} (h : e >>= next = .ok b) :
    ∃ a, e = .ok a ∧ next a = .ok b := by
  cases e with
  | ok a => exact ⟨a, rfl, h⟩
  | error f => cases h

theorem of_map {e : Except ε α} {g : α → β} {b : β} (h : g <$> e = .ok b) :
    ∃ a, e = .ok a ∧ b = g a := by
  cases e with
  | ok a => exact ⟨a, rfl, (Except.ok.inj h).symm⟩
  | error f => cases h

theorem exists_bind_eq_ok {e : Except ε α} {next : α → Except ε β} :
    (∃ b, e >>= next = .ok b) ↔ ∃ a, e = .ok a ∧ ∃ b, next a = .ok b := by
  constructor
  · rintro ⟨b, h⟩
    obtain ⟨a, ha, hb⟩ := of_bind h
    exact ⟨a, ha, b, hb⟩
  · rintro ⟨a, rfl, b, hb⟩
    exact ⟨b, hb⟩

theorem exists_map_eq_ok {e : Except ε α} {g : α → β} :
    (∃ b, g <$> e = .ok b) ↔ ∃ a, e = .ok a := by
  constructor
  · rintro ⟨b, h⟩
    obtain ⟨a, ha, -⟩ := of_map h
    exact ⟨a, ha⟩
  · rintro ⟨a, rfl⟩
    exact ⟨g a, rfl⟩

theorem of_mapM {step : α → Except ε β} {as : List α} {bs : List β} (h : as.mapM step = .ok bs) :
    List.Forall₂ (fun a b => step a = .ok b) as bs := by
  induction as generalizing bs with
  | nil =>
    cases h
    exact .nil
  | cons a as ih =>
    rw [List.mapM_cons] at h
    obtain ⟨b, hb, h⟩ := of_bind h
    obtain ⟨bs, hbs, h⟩ := of_bind h
    cases h
    exact .cons hb (ih hbs)

theorem mem_of_mapM {step : α → Except ε β} {as : List α} {bs : List β}
    (h : as.mapM step = .ok bs) :
    (∀ b ∈ bs, ∃ a ∈ as, step a = .ok b) ∧ ∀ a ∈ as, ∃ b ∈ bs, step a = .ok b := by
  have hf := of_mapM h
  clear h
  induction hf with
  | nil => exact ⟨List.forall_mem_nil _, List.forall_mem_nil _⟩
  | @cons a b as bs hb _ ih =>
    refine ⟨List.forall_mem_cons.2 ⟨⟨a, List.mem_cons_self, hb⟩, fun c hc => ?_⟩,
      List.forall_mem_cons.2 ⟨⟨b, List.mem_cons_self, hb⟩, fun c hc => ?_⟩⟩
    · obtain ⟨d, hd, hs⟩ := ih.1 c hc
      exact ⟨d, List.mem_cons_of_mem _ hd, hs⟩
    · obtain ⟨d, hd, hs⟩ := ih.2 c hc
      exact ⟨d, List.mem_cons_of_mem _ hd, hs⟩

end Inlay.Except
