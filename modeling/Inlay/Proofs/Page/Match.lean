import Inlay.Page
import Inlay.Proofs.Act.Match

/-! Pages side by side: two resolvers that come to the same ends for all tags make the same page. -/

namespace Inlay

namespace Page

variable {α β : Type} [Reports α] [Reports β] {R : α → β → Prop} {resolve : Resolver α}
  {resolve' : Resolver β}

theorem replace_matches
    (hn : ∀ message a b, R a b → R (Reports.note message a) (Reports.note message b))
    {t : Tag} (hr : Act.Matches R Eq (resolve t) (resolve' t)) {a : α} {b : β} (h : R a b) :
    (replace resolve t a).1 = (replace resolve' t b).1 ∧
      R (replace resolve t a).2 (replace resolve' t b).2 := by
  rw [replace, replace]
  rcases hr.ends h with ⟨o, _, a', b', ha, hb, rfl, h'⟩ | ⟨f, a', b', ha, hb, h'⟩
  · rw [ha, hb]
    exact ⟨rfl, h'⟩
  · rw [ha, hb]
    exact ⟨rfl, hn _ _ _ h'⟩

theorem renderPieces_matches
    (hn : ∀ message a b, R a b → R (Reports.note message a) (Reports.note message b))
    (hr : ∀ t, Act.Matches R Eq (resolve t) (resolve' t)) (ps : List Piece) {a : α} {b : β}
    (h : R a b) :
    (renderPieces resolve ps a).1 = (renderPieces resolve' ps b).1 ∧
      R (renderPieces resolve ps a).2 (renderPieces resolve' ps b).2 := by
  induction ps generalizing a b with
  | nil => exact ⟨rfl, h⟩
  | cons p ps ih =>
    cases p with
    | char c =>
      obtain ⟨he, h'⟩ := ih h
      exact ⟨congrArg (Rendering.append _) he, h'⟩
    | tag t =>
      obtain ⟨hd, h'⟩ := replace_matches hn (hr t) h
      obtain ⟨he, h''⟩ := ih h'
      exact ⟨congrArg₂ Rendering.append hd he, h''⟩

theorem render_matches
    (hn : ∀ message a b, R a b → R (Reports.note message a) (Reports.note message b))
    (hr : ∀ t, Act.Matches R Eq (resolve t) (resolve' t)) (cap : Nat) (text : String) {a : α}
    {b : β} (h : R a b) :
    (render resolve cap text a).1 = (render resolve' cap text b).1 ∧
      R (render resolve cap text a).2 (render resolve' cap text b).2 := by
  obtain ⟨he, h'⟩ := renderPieces_matches hn hr (Piece.scan cap text.toList) h
  exact ⟨congrArg Rendering.outcome he, h'⟩

end Page

end Inlay
