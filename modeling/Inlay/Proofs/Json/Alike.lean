import Inlay.Proofs.Act.Settled
import Inlay.Proofs.Json.Document

/-! Documents under both ways of reporting: what reports differently comes to the same document, or
in both ways to a fault of type or value. -/

namespace Inlay

namespace Json

variable {τ α β : Type} {P : τ → Prop}

/-- However it reports, an act comes to one result, or, in the bad case, to a fault of type or
value. -/
def Alike (P : τ → Prop) (act : Report → Act τ α) (Bad : Prop) (R : α → Prop) : Prop :=
  (¬Bad ∧ ∃ a, R a ∧ ∀ report, (act report).ComesTo P (.ok a)) ∨
    Bad ∧ ∀ report, ∃ f : Fault, f.isTypeOrValue = true ∧ (act report).ComesTo P (.error f)

namespace Alike

variable {act act' : Report → Act τ α} {Bad Bad' : Prop} {R R' : α → Prop}

theorem mono (h : Alike P act Bad R) (hb : Bad' ↔ Bad) (hr : ∀ a, R a → R' a)
    (ha : ∀ report r, (act report).ComesTo P r → (act' report).ComesTo P r) :
    Alike P act' Bad' R' := by
  rcases h with ⟨hn, a, hra, hc⟩ | ⟨hbad, hc⟩
  · exact .inl ⟨fun hb' => hn (hb.1 hb'), a, hr a hra, fun report => ha report _ (hc report)⟩
  · refine .inr ⟨hb.2 hbad, fun report => ?_⟩
    obtain ⟨f, hf, hc⟩ := hc report
    exact ⟨f, hf, ha report _ hc⟩

theorem ofExcept {e : Report → Except Fault α}
    (h : (¬Bad ∧ ∃ a, R a ∧ ∀ report, e report = .ok a) ∨
      Bad ∧ ∀ report, ∃ f : Fault, f.isTypeOrValue = true ∧ e report = .error f) :
    Alike P (fun report => Act.ofExcept (e report)) Bad R := by
  rcases h with ⟨hn, a, hra, he⟩ | ⟨hbad, he⟩
  · exact .inl ⟨hn, a, hra, fun report => he report ▸ .ofExcept _⟩
  · refine .inr ⟨hbad, fun report => ?_⟩
    obtain ⟨f, hf, he⟩ := he report
    exact ⟨f, hf, he ▸ .ofExcept _⟩

theorem bind {next : Report → α → Act τ β} {S : β → Prop} (h : Alike P act Bad R)
    (hn : ∀ a, R a → Alike P (fun report => next report a) Bad' S) :
    Alike P (fun report => act report >>= next report) (Bad ∨ Bad') S := by
  rcases h with ⟨hb, a, hra, hc⟩ | ⟨hbad, hc⟩
  · rcases hn a hra with ⟨hb', b, hs, hc'⟩ | ⟨hbad', hc'⟩
    · exact .inl ⟨not_or.2 ⟨hb, hb'⟩, b, hs, fun report => .bind_ok (hc report) (hc' report)⟩
    · refine .inr ⟨.inr hbad', fun report => ?_⟩
      obtain ⟨f, hf, hc'⟩ := hc' report
      exact ⟨f, hf, .bind_ok (hc report) hc'⟩
  · refine .inr ⟨.inl hbad, fun report => ?_⟩
    obtain ⟨f, hf, hc⟩ := hc report
    exact ⟨f, hf, .bind_error hc⟩

theorem map {S : β → Prop} (g : α → β) (h : Alike P act Bad R) (hr : ∀ a, R a → S (g a)) :
    Alike P (fun report => g <$> act report) Bad S := by
  have hm : Alike P (fun report => act report >>= fun a => pure (g a)) (Bad ∨ False) S :=
    h.bind fun a ha =>
      .ofExcept (e := fun _ => .ok (g a)) (.inl ⟨not_false, g a, hr a ha, fun _ => rfl⟩)
  simp only [map_eq_pure_bind]
  rwa [or_false] at hm

theorem mapM {step : Report → α → Act τ β} {Bad : α → Prop} {R : α → β → Prop} (as : List α)
    (h : ∀ a ∈ as, Alike P (fun report => step report a) (Bad a) (R a)) :
    Alike P (fun report => as.mapM (step report)) (∃ a ∈ as, Bad a) (List.Forall₂ R as) := by
  induction as with
  | nil => exact .inl ⟨by simp, [], .nil, fun report => .pure []⟩
  | cons a as ih =>
    rw [List.forall_mem_cons] at h
    simp only [List.mapM_cons, List.exists_mem_cons_iff]
    refine h.1.bind fun b hb => ?_
    simp only [bind_pure_comp]
    exact (ih h.2).map (b :: ·) fun bs hbs => .cons hb hbs

end Alike

end Json

end Inlay
