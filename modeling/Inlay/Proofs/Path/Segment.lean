import Inlay.Path

/-! Segments of paths: each path has one, and the only complaint about a path is its nesting. -/

namespace Inlay.Path

theorem extend_eq_cons (c : Char) (pieces : List (List Char)) :
    ∃ piece rest, extend c pieces = (c :: piece) :: rest := by
  cases pieces with
  | nil => exact ⟨[], [], rfl⟩
  | cons piece rest => exact ⟨piece, rest, rfl⟩

theorem cut_ne_nil (delimiter : Option Char) (depth : Nat) (cs : List Char) :
    cut delimiter depth cs ≠ [] := by
  cases cs with
  | nil => simp [cut]
  | cons c rest =>
    rw [cut]
    split
    · simp
    · obtain ⟨piece, pieces, h⟩ := extend_eq_cons c (cut delimiter (nest depth c) rest)
      simp [h]

theorem dropFinalEmpty_cons_ne_nil {piece : List Char} {pieces : List (List Char)}
    (h : piece ≠ [] ∨ pieces ≠ []) : dropFinalEmpty (piece :: pieces) ≠ [] := by
  cases pieces with
  | nil => simp_all [dropFinalEmpty]
  | cons next pieces =>
    rw [dropFinalEmpty]
    split <;> simp

theorem split_ne_nil (delimiter : Option Char) (cap : Option Int) {text : String} (h : text ≠ "") :
    split delimiter cap text ≠ .ok [] := by
  have hd : dropFinalEmpty (cut delimiter 0 text.toList) ≠ [] := by
    cases hc : text.toList with
    | nil => exact absurd (String.ext hc) h
    | cons c rest =>
      rw [cut]
      split
      · exact dropFinalEmpty_cons_ne_nil (.inr (cut_ne_nil _ _ _))
      · obtain ⟨piece, pieces, he⟩ := extend_eq_cons c (cut delimiter (nest 0 c) rest)
        rw [he]
        exact dropFinalEmpty_cons_ne_nil (.inl (by simp))
  intro hs
  cases cap with
  | none => exact hd (List.map_eq_nil_iff.1 (Except.ok.inj hs))
  | some cap =>
    rw [split] at hs
    by_cases he : exceeds cap 0 text.toList = true
    · simp [he] at hs
    · simp only [if_neg he] at hs
      exact hd (List.map_eq_nil_iff.1 (Except.ok.inj hs))

theorem eq_nesting_of_split {delimiter : Option Char} {cap : Option Int} {text : String} {f : Fault}
    (h : split delimiter cap text = .error f) : ∃ cap, f = .nesting cap text := by
  cases cap with
  | none => cases h
  | some cap =>
    rw [split] at h
    by_cases he : exceeds cap 0 text.toList = true
    · simp only [if_pos he] at h
      exact ⟨cap, (Except.error.inj h).symm⟩
    · simp [he] at h

end Inlay.Path
