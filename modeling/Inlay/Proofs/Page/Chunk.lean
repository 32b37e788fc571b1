import Inlay.Proofs.Page.Seam

/-! Pages in chunks. A text may be divided where nothing that starts before the division can go on
as a tag behind it; its page is then that of the first part and that of the second, rendered in
turn. -/

namespace Inlay

open Tag (OccursAt isInner)

/-- The second text starts a new tag at most, or the last bracket of the first, if there is one, is
followed by some character that no tag holds inside. -/
def Page.Divided (a b : List Char) : Prop :=
  (b = [] ∨ b.head? = some '<') ∨ '<' ∉ a ∨
    ∃ before after c, a = before ++ '<' :: after ∧ '<' ∉ after ∧ c ∈ after ∧ isInner c = false

namespace Tag

variable {cap i : Nat} {a b : List Char} {t : Tag}

theorem OccursAt.append (h : OccursAt cap a i t) (b : List Char) : OccursAt cap (a ++ b) i t := by
  have hi : i < a.length := by
    have hl := h.getElem?_eq
    exact (List.getElem?_eq_some_iff.1 hl).1
  refine ⟨h.1, h.2.trans ?_⟩
  rw [List.drop_append_of_le_length (Nat.le_of_lt hi)]
  exact List.prefix_append _ _

theorem Admissible.lt_notMem_tail (ht : t.Admissible cap) : '<' ∉ t.print.tail := by
  obtain ⟨inner, hp, hin⟩ := ht.print_eq
  rw [hp]
  intro hm
  rcases List.mem_append.1 hm with hm | hm
  · exact absurd (hin _ hm) (by decide)
  · exact absurd hm (by decide)

theorem OccursAt.of_append (hd : Page.Divided a b) (hi : i < a.length)
    (h : OccursAt cap (a ++ b) i t) : OccursAt cap a i t := by
  obtain ⟨ht, hp⟩ := h
  refine ⟨ht, ?_⟩
  rw [List.drop_append_of_le_length (Nat.le_of_lt hi)] at hp
  have hlt : a[i]? = some '<' := by
    have ho : OccursAt cap (a.drop i ++ b) 0 t := ⟨ht, hp⟩
    have hl := ho.getElem?_eq
    rwa [List.getElem?_append_left (by simp; omega), List.getElem?_drop, Nat.add_zero] at hl
  obtain ⟨x, hx⟩ : ∃ x, a.drop i = '<' :: x := by
    rw [List.drop_eq_getElem_cons hi]
    exact ⟨_, congrArg (· :: _) (List.getElem_eq_iff hi |>.2 hlt)⟩
  rw [hx] at hp ⊢
  rcases hd with (rfl | hb) | hno | ⟨before, after, c, rfl, hafter, hc, hin⟩
  · rwa [List.append_nil] at hp
  · obtain ⟨rest, rfl⟩ := List.head?_eq_some_iff.1 hb
    refine List.prefix_of_prefix_length_le hp (List.prefix_append _ _)
      (Nat.le_of_not_lt fun hl => ?_)
    -- A tag that goes on has the bracket of the second text inside.
    have hlong : '<' :: x ++ ['<'] <+: t.print :=
      List.prefix_of_prefix_length_le ⟨rest, by simp⟩ hp (by simp at hl ⊢; omega)
    obtain ⟨u, hu⟩ := hlong
    exact ht.lt_notMem_tail (hu ▸ by simp)
  · exact absurd (List.mem_of_getElem? hlt) hno
  · have hle : i ≤ before.length := by
      by_contra hn
      have hd : (before ++ '<' :: after).drop i <:+ after := by
        obtain ⟨k, rfl⟩ := Nat.exists_eq_add_of_lt (Nat.lt_of_not_le hn)
        rw [Nat.add_assoc, ← List.drop_drop, List.drop_left, List.drop_succ_cons]
        exact List.drop_suffix _ _
      exact hafter (hd.subset (hx ▸ List.mem_cons_self))
    have hm : c ∈ x := by
      have hs : c ∈ '<' :: x := by
        rw [← hx, List.drop_append_of_le_length hle]
        simp [hc]
      exact (List.mem_cons.1 hs).resolve_left fun he => hafter (he ▸ hc)
    exact Piece.print_prefix_of_break ht hm hin hp

theorem occursAt_append_iff (hd : Page.Divided a b) :
    OccursAt cap (a ++ b) i t ↔
      OccursAt cap a i t ∨ ∃ j, i = a.length + j ∧ OccursAt cap b j t := by
  have hdrop (j : Nat) : (a ++ b).drop (a.length + j) = b.drop j := by simp
  constructor
  · intro h
    rcases Nat.lt_or_ge i a.length with hi | hi
    · exact .inl (h.of_append hd hi)
    · obtain ⟨j, rfl⟩ := Nat.exists_eq_add_of_le hi
      rw [OccursAt, hdrop] at h
      exact .inr ⟨j, rfl, h⟩
  · rintro (h | ⟨j, rfl, h⟩)
    · exact h.append b
    · rw [OccursAt, hdrop]
      exact h

end Tag

namespace Piece

theorem tagAt_append_iff {ps qs : List Piece} {i : Nat} {t : Tag} :
    TagAt (ps ++ qs) i t ↔ TagAt ps i t ∨ ∃ j, i = (text ps).length + j ∧ TagAt qs j t := by
  constructor
  · rintro ⟨before, after, h, rfl⟩
    rcases List.append_eq_append_iff.1 h with ⟨more, rfl, hm⟩ | ⟨more, rfl, hm⟩
    · exact .inr ⟨(text more).length, by simp [text], more, after, hm, rfl⟩
    · cases more with
      | nil => exact .inr ⟨0, by simp, [], after, by simpa using hm.symm, rfl⟩
      | cons p more =>
        obtain ⟨rfl, rfl⟩ := List.cons.inj hm
        exact .inl ⟨before, more, rfl, rfl⟩
  · rintro (⟨before, after, rfl, rfl⟩ | ⟨j, rfl, before, after, rfl, rfl⟩)
    · exact ⟨before, after ++ qs, by simp, rfl⟩
    · exact ⟨ps ++ before, after, by simp, by simp [text]⟩

theorem scan_append {cap : Nat} {a b : List Char} (h : Page.Divided a b) :
    scan cap (a ++ b) = scan cap a ++ scan cap b := by
  have hc : Cuts cap (a ++ b) (scan cap a ++ scan cap b) := by
    have ht : text (scan cap a ++ scan cap b) = a ++ b := by
      rw [text, List.flatMap_append]
      exact congrArg₂ _ (text_scan cap a) (text_scan cap b)
    refine ⟨ht, fun i t => ?_⟩
    simp only [tagAt_append_iff, Tag.occursAt_append_iff h, tagAt_scan_iff, text_scan]
  exact hc.eq_scan.symm

end Piece

namespace Page

variable {τ : Type} [Reports τ]

theorem renderPieces_append (resolve : Resolver τ) (ps qs : List Piece) (s : τ) :
    renderPieces resolve (ps ++ qs) s =
      ((renderPieces resolve ps s).1.append
          (renderPieces resolve qs (renderPieces resolve ps s).2).1,
        (renderPieces resolve qs (renderPieces resolve ps s).2).2) := by
  induction ps generalizing s with
  | nil => rfl
  | cons p ps ih =>
    cases p with
    | char c => simp [renderPieces, ih, Rendering.append]
    | tag t => simp [renderPieces, ih, Rendering.append]

theorem outcome_append (r r' : Rendering) :
    (r.append r').outcome =
      ⟨r.outcome.text ++ r'.outcome.text,
        if r'.outcome.success then r.outcome.error else r'.outcome.error,
        r.outcome.success && r'.outcome.success⟩ := by
  have he : (r.append r').outcome = ⟨String.ofList (r.text ++ r'.text),
      (r.failures ++ r'.failures).getLast?, (r.failures ++ r'.failures).isEmpty⟩ := rfl
  rw [he, String.ofList_append]
  cases hf : r'.failures with
  | nil => simp [Rendering.outcome, hf]
  | cons failure failures => simp [Rendering.outcome, hf, List.getLast?_append, List.getLast?_cons]

theorem seen_traced (resolve : Resolver τ) (cap : Nat) (text : String) (s : τ) :
    (render (traced resolve) cap text ⟨s, []⟩).2.seen =
      Piece.tags (Piece.scan cap text.toList) := by
  rw [render_eq (Piece.cuts_scan cap text.toList), calls_traced, List.nil_append]

/-- A page of divided texts makes the calls of both pages in turn and ends in the same state. Its
text is theirs, it succeeds if both do, and its error is that of the second unless only the first
fails. -/
theorem render_divided (resolve : Resolver τ) (cap : Nat) (a b : String) (s : τ)
    (h : Divided a.toList b.toList) :
    let (o, s₁) := render resolve cap a s
    let (o', s₂) := render resolve cap b s₁
    render resolve cap (a ++ b) s =
        (⟨o.text ++ o'.text, if o'.success then o.error else o'.error, o.success && o'.success⟩,
          s₂) ∧
      (render (traced resolve) cap (a ++ b) ⟨s, []⟩).2.seen =
        (render (traced resolve) cap a ⟨s, []⟩).2.seen ++
          (render (traced resolve) cap b ⟨s₁, []⟩).2.seen := by
  have hs : Piece.scan cap (a ++ b).toList =
      Piece.scan cap a.toList ++ Piece.scan cap b.toList := by
    rw [String.toList_append, Piece.scan_append h]
  refine ⟨?_, ?_⟩
  · simp only [render, hs, renderPieces_append, outcome_append]
  · simp only [seen_traced, hs, Piece.tags, List.filterMap_append]

theorem render_divided_at_stop :
    let a := "<b~/><p."
    let b := "c/><d/>"
    Divided a.toList b.toList ∧
      (render echo 4 (a ++ b) (.empty true)).1 = ⟨"<p.c/>d", some "raw", false⟩ := by
  intro a b
  have hd : Divided a.toList b.toList :=
    .inr (.inr ⟨"<b~/>".toList, ['p', '.'], '.', by decide, by decide, by decide, by decide⟩)
  refine ⟨hd, ?_⟩
  exact (congrArg Prod.fst (render_divided echo 4 a b (.empty true) hd).1).trans (by decide)

end Page

end Inlay
