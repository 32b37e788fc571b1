import Inlay.Proofs.Path.Segment
import Mathlib.Data.List.Induction

/-! The nesting of parentheses along a path: it is the excess of those that open over those that
close, as long as none closes that has not been opened. -/

namespace Inlay.Path

theorem foldr_extend (cs piece : List Char) (pieces : List (List Char)) :
    cs.foldr extend (piece :: pieces) = (cs ++ piece) :: pieces := by
  induction cs with
  | nil => rfl
  | cons c cs ih => rw [List.foldr_cons, ih, extend, List.cons_append]

theorem foldl_nest {depth : Nat} {cs : List Char}
    (h : ∀ p, p <+: cs → p.count ')' ≤ depth + p.count '(') :
    cs.foldl nest depth + cs.count ')' = depth + cs.count '(' := by
  induction cs using List.reverseRecOn with
  | nil => rfl
  | append_singleton cs c ih =>
    have hc := ih fun p hp => h p (hp.trans (List.prefix_append _ _))
    have hw := h _ List.prefix_rfl
    rw [List.foldl_append, List.foldl_cons, List.foldl_nil]
    simp only [List.count_append, List.count_singleton] at hw ⊢
    rw [nest]
    by_cases ho : c = '('
    · subst ho
      simp at hw ⊢
      omega
    · by_cases hz : c = ')'
      · subst hz
        simp at hw ⊢
        omega
      · simp [ho, hz] at hw ⊢
        omega

theorem foldl_nest_of_plain {cs : List Char} (h : ∀ c ∈ cs, c ≠ '(' ∧ c ≠ ')') (depth : Nat) :
    cs.foldl nest depth = depth := by
  induction cs with
  | nil => rfl
  | cons c cs ih =>
    rw [List.forall_mem_cons] at h
    rw [List.foldl_cons, nest, if_neg h.1.1, if_neg h.1.2]
    exact ih h.2

theorem cut_eq_singleton {delimiter : Option Char} {depth : Nat} {cs : List Char}
    (h : ∀ p c q, cs = p ++ c :: q → delimiter = some c → 0 < p.foldl nest depth) :
    cut delimiter depth cs = [cs] := by
  induction cs generalizing depth with
  | nil => rfl
  | cons c cs ih =>
    have hc : ¬(depth = 0 ∧ delimiter = some c ∧ c ≠ '(' ∧ c ≠ ')') := by
      rintro ⟨hd, hs, -⟩
      have hpos : 0 < depth := h [] c cs rfl hs
      omega
    have ht : cut delimiter (nest depth c) cs = [cs] := by
      refine ih fun p d q hq hs => ?_
      exact h (c :: p) d q (by rw [hq, List.cons_append]) hs
    rw [cut, if_neg hc, ht, extend]

theorem cut_append_of_plain {delimiter : Option Char} {cs : List Char}
    (h : ∀ c ∈ cs, c ≠ '(' ∧ c ≠ ')' ∧ delimiter ≠ some c) (rest : List Char) :
    cut delimiter 0 (cs ++ rest) = cs.foldr extend (cut delimiter 0 rest) := by
  induction cs with
  | nil => rfl
  | cons c cs ih =>
    rw [List.forall_mem_cons] at h
    obtain ⟨⟨ho, hz, hd⟩, h⟩ := h
    have hc : ¬(0 = 0 ∧ delimiter = some c ∧ c ≠ '(' ∧ c ≠ ')') := fun hc => hd hc.2.1
    rw [List.cons_append, cut, if_neg hc, nest, if_neg ho, if_neg hz, ih h, List.foldr_cons]

theorem cut_eq_splitOn {delimiter : Char} {cs : List Char} (h : ∀ c ∈ cs, c ≠ '(' ∧ c ≠ ')') :
    cut (some delimiter) 0 cs = cs.splitOn delimiter := by
  induction cs with
  | nil => rfl
  | cons c cs ih =>
    rw [List.forall_mem_cons] at h
    obtain ⟨⟨ho, hz⟩, h⟩ := h
    rw [List.splitOn, List.splitOnP_cons_eq_if_modifyHead, ← List.splitOn, ← ih h, cut]
    by_cases hc : c = delimiter
    · subst hc
      simp [ho, hz]
    · have hn : ¬some delimiter = some c := fun hn => hc (Option.some.inj hn).symm
      have hx : extend c (cut (some delimiter) 0 cs) =
          List.modifyHead (List.cons c) (cut (some delimiter) 0 cs) := by
        cases hp : cut (some delimiter) 0 cs with
        | nil => exact absurd hp (cut_ne_nil _ _ _)
        | cons piece pieces => rfl
      simp [ho, hz, hc, hn, nest, hx]

theorem exceeds_append (cap : Int) (depth : Nat) (cs ds : List Char) :
    exceeds cap depth (cs ++ ds) =
      (exceeds cap depth cs || exceeds cap (cs.foldl nest depth) ds) := by
  induction cs generalizing depth with
  | nil => rfl
  | cons c cs ih =>
    rw [List.cons_append, exceeds, exceeds, ih, List.foldl_cons, Bool.or_assoc]

theorem exceeds_of_le {cap : Int} {depth : Nat} {cs : List Char}
    (h : ∀ p, p <+: cs → ((p.foldl nest depth : Nat) : Int) ≤ cap) :
    exceeds cap depth cs = false := by
  induction cs generalizing depth with
  | nil => rfl
  | cons c cs ih =>
    have hc : (nest depth c : Int) ≤ cap := h [c] (List.prefix_append [c] cs)
    have ht : exceeds cap (nest depth c) cs = false :=
      ih fun p hp => h (c :: p) (List.cons_prefix_cons.2 ⟨rfl, hp⟩)
    have hn : ¬cap < (nest depth c : Int) := by omega
    rw [exceeds, ht, decide_eq_false hn, Bool.and_false, Bool.or_false]

theorem exceeds_of_plain {cs : List Char} (h : ∀ c ∈ cs, c ≠ '(') (cap : Int) (depth : Nat) :
    exceeds cap depth cs = false := by
  induction cs generalizing depth with
  | nil => rfl
  | cons c cs ih =>
    rw [List.forall_mem_cons] at h
    rw [exceeds, ih h.2, beq_false_of_ne h.1, Bool.false_and, Bool.or_false]

end Inlay.Path
