import Inlay.Proofs.Page.Substitution

/-! Seams: where a text in the place of a tag meets the characters around it. If the page lets no
bracket of its own reach a tag, and what is put in holds no bracket, no tag forms at a seam. -/

namespace Inlay

open Tag (OccursAt at? isInner)

namespace Page

/-- After each bracket that opens no tag, some character that no tag holds inside comes before the
next tag. -/
def Delimited (cap : Nat) (cs : List Char) : Prop :=
  ∀ i j t, cs[i]? = some '<' → (∀ u, ¬OccursAt cap cs i u) → i < j → OccursAt cap cs j t →
    ∃ k c, i < k ∧ k < j ∧ cs[k]? = some c ∧ isInner c = false

theorem Delimited.of_append {cap : Nat} (cs : List Char) {rest : List Char}
    (h : Delimited cap (cs ++ rest)) :
    Delimited cap rest := by
  intro i j t hi hn hij hj
  have hd (k : Nat) : (cs ++ rest).drop (cs.length + k) = rest.drop k := by simp
  have hg (k : Nat) : (cs ++ rest)[cs.length + k]? = rest[k]? := by
    rw [List.getElem?_append_right (by omega), Nat.add_sub_cancel_left]
  obtain ⟨k, c, hik, hkj, hk, hc⟩ := h (cs.length + i) (cs.length + j) t (by rw [hg, hi])
    (fun u hu => hn u (by rwa [OccursAt, hd] at hu)) (by omega) (by rwa [OccursAt, hd])
  obtain ⟨k, rfl⟩ := Nat.exists_eq_add_of_le (show cs.length ≤ k by omega)
  exact ⟨k, c, by omega, by omega, by rwa [hg] at hk, hc⟩

end Page

namespace Piece

theorem scan_first (cap : Nat) (cs : List Char) :
    scan cap cs = cs.map .char ∨ ∃ (gap : List Char) (t : Tag) (rest : List Char),
      t.Admissible cap ∧ cs = gap ++ t.print ++ rest ∧
        scan cap cs = gap.map .char ++ .tag t :: scan cap rest := by
  induction cs using scan_induction cap with
  | nil => exact .inl rfl
  | char c rest hc ih =>
    rw [scan_of_none hc]
    rcases ih with ih | ⟨gap, t, rest', ht, rfl, hs⟩
    · exact .inl (by rw [ih]; rfl)
    · exact .inr ⟨c :: gap, t, rest', ht, rfl, by rw [hs]; rfl⟩
  | tag t rest ht ih =>
    exact .inr ⟨[], t, rest, ht, rfl, scan_print_append ht rest⟩

theorem fill_map_char_append (cs : List Char) (ps : List Piece) (rs : List (List Char)) :
    fill (cs.map .char ++ ps) rs = cs ++ fill ps rs := by
  induction cs with
  | nil => rfl
  | cons c cs ih => simp [fill, ih]

theorem print_prefix_of_break {cap : Nat} {t : Tag} (ht : t.Admissible cap) {cs more : List Char}
    {c : Char} (hc : c ∈ cs) (hb : isInner c = false) (hp : t.print <+: '<' :: cs ++ more) :
    t.print <+: '<' :: cs := by
  obtain ⟨inner, hi, hin⟩ := ht.print_eq
  refine List.prefix_of_prefix_length_le hp (List.prefix_append ..) (Nat.le_of_not_lt fun hl => ?_)
  have hcs : '<' :: cs <+: t.print :=
    List.prefix_of_prefix_length_le (List.prefix_append ..) hp (Nat.le_of_lt hl)
  have hle : ('<' :: cs).length ≤ ('<' :: inner).length := by simp [hi] at hl ⊢; omega
  have hin' := List.prefix_of_prefix_length_le hcs (hi ▸ List.prefix_append ..) hle
  have hm : c ∈ inner := (List.cons_prefix_cons.1 hin').2.subset hc
  simp [hin c hm] at hb

theorem not_occursAt_fill {cap : Nat} {cs : List Char} (hd : Page.Delimited cap cs)
    {rs : List (List Char)} (hr : ∀ r ∈ rs, '<' ∉ r) (i : Nat) (t : Tag) :
    ¬OccursAt cap (fill (scan cap cs) rs) i t := by
  induction cs using scan_induction cap generalizing rs i with
  | nil => simp [scan, scanFrom, fill, OccursAt, Tag.print]
  | char c rest hc ih =>
    rw [scan_of_none hc, fill]
    cases i with
    | succ i => exact ih (hd.of_append [c]) hr i
    | zero =>
      intro h
      obtain rfl : c = '<' := Option.some.inj h.getElem?_eq
      have hno (u : Tag) : ¬OccursAt cap ('<' :: rest) 0 u := by
        rw [Tag.occursAt_iff, List.drop_zero, hc]
        rintro ⟨⟩
      rcases scan_first cap rest with hs | ⟨gap, u, more, hu, rfl, hs⟩
      · have hf : fill (rest.map .char) rs = rest := by
          simpa [fill] using fill_map_char_append rest [] rs
        rw [hs, hf] at h
        exact hno t h
      · obtain ⟨k, b, hk, hkl, hb, hbi⟩ := hd 0 (gap.length + 1) u rfl hno (by omega)
          ⟨hu, by simp⟩
        rw [hs, fill_map_char_append] at h
        have hm : b ∈ gap := by
          obtain ⟨k, rfl⟩ : ∃ j, k = j + 1 := ⟨k - 1, by omega⟩
          rw [List.getElem?_cons_succ, List.append_assoc,
            List.getElem?_append_left (by omega)] at hb
          exact List.mem_of_getElem? hb
        have hp := print_prefix_of_break h.1 hm hbi h.2
        exact hno t ⟨h.1, hp.trans (by simp)⟩
  | tag u rest hu ih =>
    rw [scan_print_append hu]
    cases rs with
    | nil => simp [fill, OccursAt, Tag.print]
    | cons r rs =>
      rw [List.forall_mem_cons] at hr
      intro h
      rcases Nat.lt_or_ge i r.length with hi | hi
      · have hlt := h.getElem?_eq
        rw [fill, List.getElem?_append_left hi] at hlt
        exact hr.1 (List.mem_of_getElem? hlt)
      · obtain ⟨j, rfl⟩ := Nat.exists_eq_add_of_le hi
        exact ih (hd.of_append u.print) hr.2 j (by simpa [fill, OccursAt] using h)

theorem scan_of_no_tag {cap : Nat} {cs : List Char} (h : ∀ i t, ¬OccursAt cap cs i t) :
    scan cap cs = cs.map .char := by
  rcases scan_first cap cs with hs | ⟨gap, t, rest, ht, rfl, -⟩
  · exact hs
  · exact absurd ⟨ht, by simp⟩ (h gap.length t)

end Piece

namespace Page

theorem render_of_no_tag {τ : Type} [Reports τ] {cap : Nat} {text : String}
    (h : ∀ i t, ¬OccursAt cap text.toList i t) (resolve : Resolver τ) (s : τ) :
    render resolve cap text s = (⟨text, none, true⟩, s) := by
  have hs := Piece.scan_of_no_tag h
  have ht : Piece.tags (text.toList.map .char) = [] := by simp [Piece.tags, Piece.tag?]
  have hf : Piece.fill (text.toList.map .char) [] = text.toList := by
    simpa [Piece.fill] using Piece.fill_map_char_append text.toList [] []
  rw [render_eq (Piece.cuts_scan cap text.toList), hs, ht]
  simp [calls, hf]

end Page

end Inlay
