import Inlay.Text.Blank
import Mathlib.Data.List.TakeWhile

/-! Trimming: it takes away what is blank at either end of a text, and nothing else. -/

namespace Inlay.Text

theorem ne_of_class {p : Char → Bool} {c d : Char} (h : p c = true) (hd : p d = false) : c ≠ d :=
  ne_of_apply_ne p (by simp [h, hd])

def IsBlankText (cs : List Char) : Prop := ∀ c ∈ cs, isBlank c = true

def IsTrimmed (cs : List Char) : Prop :=
  (∀ c ∈ cs.head?, isBlank c = false) ∧ ∀ c ∈ cs.getLast?, isBlank c = false

theorem isTrimmed_of_forall {cs : List Char} (h : ∀ c ∈ cs, isBlank c = false) : IsTrimmed cs :=
  ⟨fun c hc => h c (List.mem_of_mem_head? hc), fun c hc => h c (List.mem_of_getLast? hc)⟩

theorem dropWhile_blank {cs : List Char} (h : ∀ c ∈ cs.head?, isBlank c = false) :
    cs.dropWhile isBlank = cs := by
  cases cs with
  | nil => rfl
  | cons c rest => exact List.dropWhile_cons_of_neg (by simp [h c rfl])

theorem trim_of_isTrimmed {cs : List Char} (h : IsTrimmed cs) : trim cs = cs := by
  have hr : ∀ c ∈ cs.reverse.head?, isBlank c = false := by
    rw [List.head?_reverse]
    exact h.2
  rw [trim, stripBy, dropWhile_blank h.1, dropWhile_blank hr, List.reverse_reverse]

theorem trim_append_left {front : List Char} (h : IsBlankText front) (cs : List Char) :
    trim (front ++ cs) = trim cs := by
  rw [trim, stripBy, List.dropWhile_append_of_pos h, trim, stripBy]

theorem trim_append_right {back : List Char} (h : IsBlankText back) (cs : List Char) :
    trim (cs ++ back) = trim cs := by
  have hr : ∀ c ∈ back.reverse, isBlank c = true := fun c hc => h c (List.mem_reverse.1 hc)
  rw [trim, stripBy, trim, stripBy, List.dropWhile_append]
  by_cases he : (cs.dropWhile isBlank).isEmpty = true
  · have hd : back.dropWhile isBlank = [] := List.dropWhile_eq_nil_iff.2 h
    rw [if_pos he, hd, List.isEmpty_iff.1 he]
  · rw [if_neg he, List.reverse_append, List.dropWhile_append_of_pos hr]

theorem trim_blank {cs : List Char} (h : IsBlankText cs) : trim cs = [] := trim_append_right h []

theorem exists_trim (cs : List Char) : ∃ front back, IsBlankText front ∧ IsBlankText back ∧
    cs = front ++ trim cs ++ back := by
  refine ⟨cs.takeWhile isBlank, ((cs.dropWhile isBlank).reverse.takeWhile isBlank).reverse,
    fun c hc => List.mem_takeWhile_imp hc,
    fun c hc => List.mem_takeWhile_imp (List.mem_reverse.1 hc), ?_⟩
  rw [trim, stripBy, List.append_assoc, ← List.reverse_append, List.takeWhile_append_dropWhile,
    List.reverse_reverse, List.takeWhile_append_dropWhile]

theorem isBlankText_of_trim_eq_nil {cs : List Char} (h : trim cs = []) : IsBlankText cs := by
  obtain ⟨front, back, hf, hb, hcs⟩ := exists_trim cs
  rw [h, List.append_nil] at hcs
  rw [hcs]
  exact fun c hc => (List.mem_append.1 hc).elim (hf c) (hb c)

theorem trim_trim (cs : List Char) : trim (trim cs) = trim cs := by
  obtain ⟨front, back, hf, hb, hcs⟩ := exists_trim cs
  have h := congrArg trim hcs
  rw [trim_append_right hb, trim_append_left hf] at h
  exact h.symm

theorem isTrimmed_trim (cs : List Char) : IsTrimmed (trim cs) := by
  have hd : ∀ ds : List Char, ∀ c ∈ (ds.dropWhile isBlank).head?, isBlank c = false := by
    intro ds c hc
    have h := List.head?_dropWhile_not isBlank ds
    rw [Option.mem_def.1 hc] at h
    exact h
  refine ⟨fun c hc => ?_, fun c hc => ?_⟩
  · obtain ⟨back, hb⟩ : trim cs <+: cs.dropWhile isBlank := by
      rw [trim, stripBy, ← List.reverse_suffix, List.reverse_reverse]
      exact List.dropWhile_suffix _
    refine hd cs c ?_
    rw [← hb, List.head?_append, Option.mem_def.1 hc]
    rfl
  · rw [trim, stripBy, List.getLast?_reverse] at hc
    exact hd _ c hc

end Inlay.Text
