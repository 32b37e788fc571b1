import Inlay.Proofs.Engine.Resolution
import Inlay.Proofs.Page.Match
import Inlay.Proofs.Sight.Veil

/-! Worlds that look alike: they have the same page, and look alike after it. -/

namespace Inlay

variable {σ : Type} {s : Sight} {M : σ → σ → Prop}

namespace World

/-- Two worlds that look alike: in sight, neither has anything that the other lacks. No object has
changed yet, unless nothing is hidden. -/
structure Indistinct (s : Sight) (M : σ → σ → Prop) (w w' : World σ) : Prop where
  context : w.context.seen s = w'.context.seen s
  guarded : w.context.Guarded s
  memory : M w.memory w'.memory
  journal : w.journal = w'.journal
  changes : w.changes = w'.changes
  unchanged : s.Full ∨ w.changes = []

def veiled (s : Sight) (m : σ) (w : World σ) : World σ :=
  { w with context := w.context.seen s, memory := m }

theorem Indistinct.veils {w w' : World σ} (hm : Equivalence M) (h : Indistinct s M w w') :
    Veils s M w (w.veiled s w.memory) ∧ Veils s M w' (w.veiled s w.memory) where
  left := ⟨rfl, h.guarded, hm.refl _, rfl, rfl, h.unchanged⟩
  right := ⟨h.context, h.guarded.of_seen h.context, hm.symm h.memory, h.journal, h.changes,
    h.changes ▸ h.unchanged⟩

theorem Indistinct.of_veils {w w' v : World σ} (hm : Equivalence M) (h : Veils s M w v)
    (h' : Veils s M w' v) : Indistinct s M w w' where
  context := h.context.symm.trans h'.context
  guarded := h.guarded
  memory := hm.trans h.memory (hm.symm h'.memory)
  journal := h.journal.symm.trans h'.journal
  changes := h.changes.symm.trans h'.changes
  unchanged := h.unchanged

theorem Veils.unset {w w' : World σ} (h : Veils s M w w') (name : String) :
    Veils s M { w with context := (w.context.unset name).2 }
      { w' with context := (w'.context.unset name).2 } :=
  { h with
    context := by
      change (w'.context.unset name).2 = (w.context.unset name).2.seen s
      rw [h.context, Context.unset_seen]
    guarded := h.guarded.unset name }

end World

theorem Processor.removeEntry_matches (origin : Origin) :
    Act.Matches (World.Veils s M) Eq (removeEntry origin) (removeEntry origin) := by
  unfold removeEntry
  split
  · exact .modify fun _ _ h => h.unset _
  · exact .pure rfl

namespace Engine

variable (e : Engine σ)

theorem render_indistinct (hb : e.host.Blind s M) (cap : Nat) (text : String) {w w' : World σ}
    (h : w.Indistinct s M w') :
    (e.render cap text w).1 = (e.render cap text w').1 ∧
      (e.render cap text w).2.Indistinct s M (e.render cap text w').2 := by
  have hm := World.Veils.mirrors hb
  have hr : ∀ {u u' : World σ}, u.Veils s M u' →
      (e.render cap text u).1 = ((e.withHost (e.host.veiled s)).render cap text u').1 ∧
        (e.render cap text u).2.Veils s M ((e.withHost (e.host.veiled s)).render cap text u').2 :=
    Page.render_matches (fun message _ _ => hm.note message)
      (fun t => resolve_matches t hm fun _ => Processor.removeEntry_matches) cap text
  obtain ⟨hv, hv'⟩ := h.veils hb.memories
  obtain ⟨ho, hw⟩ := hr hv
  obtain ⟨ho', hw'⟩ := hr hv'
  exact ⟨ho.trans ho'.symm, .of_veils hb.memories hw hw'⟩

end Engine

end Inlay
