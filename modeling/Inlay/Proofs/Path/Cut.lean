import Inlay.Proofs.Path.Nesting
import Mathlib.Data.List.Infix

/-! Where paths are cut. The nesting at a place is the largest excess of opening over closing
parentheses in a text that ends there. So a path is cut where no such text has an excess, and it is
refused where some part of it has a larger excess than the cap. -/

namespace Inlay.Path

def excess (cs : List Char) : Int := (cs.count '(' : Int) - cs.count ')'

theorem excess_append (cs ds : List Char) : excess (cs ++ ds) = excess cs + excess ds := by
  simp only [excess, List.count_append]
  omega

theorem nest_eq_max (depth : Nat) (c : Char) :
    (nest depth c : Int) = max 0 (depth + excess [c]) := by
  rw [nest, excess]
  by_cases ho : c = '('
  · subst ho
    simp
    omega
  · by_cases hz : c = ')'
    · subst hz
      simp
      omega
    · simp [ho, hz]

theorem excess_le_foldl_nest {s cs : List Char} (h : s <:+ cs) : excess s ≤ cs.foldl nest 0 := by
  induction cs using List.reverseRecOn generalizing s with
  | nil =>
    rw [List.suffix_nil.1 h]
    decide
  | append_singleton cs c ih =>
    rw [List.foldl_append, List.foldl_cons, List.foldl_nil, nest_eq_max]
    rcases List.suffix_concat_iff.1 h with rfl | ⟨t, rfl, ht⟩
    · have hz : excess [] = 0 := rfl
      omega
    · have hle := ih ht
      rw [excess_append]
      omega

theorem exists_suffix_excess_eq (cs : List Char) :
    ∃ s, s <:+ cs ∧ excess s = (cs.foldl nest 0 : Nat) := by
  induction cs using List.reverseRecOn with
  | nil => exact ⟨[], List.nil_suffix, rfl⟩
  | append_singleton cs c ih =>
    obtain ⟨s, hs, he⟩ := ih
    rw [List.foldl_append, List.foldl_cons, List.foldl_nil, nest_eq_max, ← he, ← excess_append]
    rcases Int.le_total 0 (excess (s ++ [c])) with h | h
    · refine ⟨s ++ [c], List.suffix_concat_iff.2 (.inr ⟨s, rfl, hs⟩), ?_⟩
      rw [Int.max_eq_right h]
    · refine ⟨[], List.nil_suffix, ?_⟩
      rw [Int.max_eq_left h]
      rfl

theorem lt_foldl_nest_iff {n : Int} {cs : List Char} :
    n < (cs.foldl nest 0 : Nat) ↔ ∃ s, s <:+ cs ∧ n < excess s := by
  constructor
  · intro h
    obtain ⟨s, hs, he⟩ := exists_suffix_excess_eq cs
    exact ⟨s, hs, he ▸ h⟩
  · rintro ⟨s, hs, h⟩
    exact Int.lt_of_lt_of_le h (excess_le_foldl_nest hs)

theorem foldl_nest_eq_zero_iff {cs : List Char} :
    cs.foldl nest 0 = 0 ↔ ∀ s, s <:+ cs → excess s ≤ 0 := by
  have h : (0 : Int) < (cs.foldl nest 0 : Nat) ↔ ∃ s, s <:+ cs ∧ 0 < excess s := lt_foldl_nest_iff
  constructor
  · intro hz s hs
    by_contra hn
    have := h.2 ⟨s, hs, by omega⟩
    omega
  · intro hle
    by_contra hn
    obtain ⟨s, hs, hlt⟩ := h.1 (by omega)
    have := hle s hs
    omega

/-! The cap. -/

theorem foldl_nest_le_of_exceeds {cap : Int} {depth : Nat} {cs : List Char}
    (hd : (depth : Int) ≤ cap) (h : exceeds cap depth cs = false) {p : List Char} (hp : p <+: cs) :
    ((p.foldl nest depth : Nat) : Int) ≤ cap := by
  induction cs generalizing depth p with
  | nil => rwa [List.prefix_nil.1 hp]
  | cons c cs ih =>
    rw [exceeds, Bool.or_eq_false_iff] at h
    have hc : (nest depth c : Int) ≤ cap := by
      by_cases ho : c = '('
      · simpa [ho] using h.1
      · have hle : nest depth c ≤ depth := by
          rw [nest, if_neg ho]
          split <;> omega
        omega
    rcases List.prefix_cons_iff.1 hp with rfl | ⟨q, rfl, hq⟩
    · exact hd
    · exact ih hc h.2 hq

theorem exceeds_iff {cap : Int} (hc : 0 ≤ cap) (cs : List Char) :
    exceeds cap 0 cs = true ↔ ∃ s, s <:+: cs ∧ cap < excess s := by
  constructor
  · intro h
    by_contra hn
    have hle : ∀ p, p <+: cs → ((p.foldl nest 0 : Nat) : Int) ≤ cap := by
      intro p hp
      by_contra hlt
      obtain ⟨s, hs, hse⟩ := lt_foldl_nest_iff.1 (Int.not_le.1 hlt)
      exact hn ⟨s, List.infix_iff_suffix_prefix.2 ⟨p, hs, hp⟩, hse⟩
    rw [exceeds_of_le hle] at h
    cases h
  · rintro ⟨s, hs, hlt⟩
    obtain ⟨p, hsp, hp⟩ := List.infix_iff_suffix_prefix.1 hs
    have hn : cap < (p.foldl nest 0 : Nat) := lt_foldl_nest_iff.2 ⟨s, hsp, hlt⟩
    by_contra h
    have hz : ((0 : Nat) : Int) ≤ cap := hc
    have hle := foldl_nest_le_of_exceeds hz (Bool.eq_false_iff.2 h) hp
    omega

/-! The places. -/

/-- A delimiter outside parentheses: nowhere before it is a parenthesis open. -/
def IsCut (delimiter : Char) (cs : List Char) (p : Nat) : Prop :=
  cs[p]? = some delimiter ∧ ∀ s, s <:+ cs.take p → excess s ≤ 0

def between (cs : List Char) (start : Nat) : List Nat → List (List Char)
  | [] => [cs.drop start]
  | p :: ps => (cs.take p).drop start :: between cs (p + 1) ps

theorem isCut_append_cons {delimiter c : Char} {pre rest : List Char} :
    IsCut delimiter (pre ++ c :: rest) pre.length ↔ c = delimiter ∧ pre.foldl nest 0 = 0 := by
  rw [IsCut, foldl_nest_eq_zero_iff, List.getElem?_append_right (Nat.le_refl _), Nat.sub_self,
    List.getElem?_cons_zero, Option.some.injEq, List.take_left]

theorem extend_between {c : Char} {pre rest : List Char} {ps : List Nat}
    (h : ∀ p ∈ ps, pre.length < p) :
    extend c (between (pre ++ c :: rest) (pre.length + 1) ps) =
      between (pre ++ c :: rest) pre.length ps := by
  have hc : (pre ++ c :: rest).drop (pre.length + 1) = rest := by
    rw [← List.drop_drop, List.drop_left]
    rfl
  cases ps with
  | nil => rw [between, between, extend, hc, List.drop_left]
  | cons p ps =>
    have hp : pre.length < p := h p List.mem_cons_self
    rw [between, between, extend, List.drop_take, List.drop_take, hc, List.drop_left]
    obtain ⟨k, rfl⟩ := Nat.exists_eq_add_of_lt hp
    have hk : pre.length + k + 1 - pre.length = k + 1 := by omega
    have hk' : pre.length + k + 1 - (pre.length + 1) = k := by omega
    rw [hk, hk', List.take_succ_cons]

theorem cut_eq_between {delimiter : Char} (hd : delimiter ≠ '(' ∧ delimiter ≠ ')')
    (pre rest : List Char) :
    ∃ ps : List Nat, ps.Pairwise (· < ·) ∧
      (∀ p, p ∈ ps ↔ pre.length ≤ p ∧ IsCut delimiter (pre ++ rest) p) ∧
      cut (some delimiter) (pre.foldl nest 0) rest = between (pre ++ rest) pre.length ps := by
  induction rest generalizing pre with
  | nil =>
    refine ⟨[], .nil, fun p => ?_, by simp [cut, between]⟩
    simp only [List.append_nil, List.not_mem_nil, false_iff, not_and, IsCut]
    intro hp hc
    rw [List.getElem?_eq_none hp] at hc
    cases hc
  | cons c rest ih =>
    obtain ⟨ps, hs, hm, he⟩ := ih (pre ++ [c])
    simp only [List.append_assoc, List.singleton_append, List.length_append, List.length_singleton,
      List.foldl_append, List.foldl_cons, List.foldl_nil] at hm he
    by_cases hc : c = delimiter ∧ pre.foldl nest 0 = 0
    · obtain ⟨rfl, hz⟩ := hc
      have hn : nest 0 c = 0 := by rw [nest, if_neg hd.1, if_neg hd.2]
      rw [hz, hn] at he
      refine ⟨pre.length :: ps, List.pairwise_cons.2 ⟨fun p hp => ((hm p).1 hp).1, hs⟩,
        fun p => ?_, ?_⟩
      · rw [List.mem_cons, hm p]
        constructor
        · rintro (rfl | ⟨hp, hc⟩)
          · exact ⟨Nat.le_refl _, isCut_append_cons.2 ⟨rfl, hz⟩⟩
          · exact ⟨by omega, hc⟩
        · rintro ⟨hp, hc⟩
          rcases Nat.eq_or_lt_of_le hp with rfl | hp
          · exact .inl rfl
          · exact .inr ⟨hp, hc⟩
      · rw [hz, cut, if_pos ⟨rfl, rfl, hd⟩, he, between, List.take_left, List.drop_length]
    · have hno : ¬(pre.foldl nest 0 = 0 ∧ some delimiter = some c ∧ c ≠ '(' ∧ c ≠ ')') :=
        fun h => hc ⟨(Option.some.inj h.2.1).symm, h.1⟩
      refine ⟨ps, hs, fun p => ?_, ?_⟩
      · rw [hm p]
        refine ⟨fun h => ⟨by omega, h.2⟩, fun h => ⟨?_, h.2⟩⟩
        rcases Nat.eq_or_lt_of_le h.1 with rfl | hp
        · exact absurd (isCut_append_cons.1 h.2) hc
        · exact hp
      · rw [cut, if_neg hno, he]
        exact extend_between fun p hp => ((hm p).1 hp).1

/-! The final piece. -/

theorem extend_concat (c : Char) {pieces : List (List Char)} (h : pieces ≠ []) (piece : List Char) :
    extend c (pieces ++ [piece]) = extend c pieces ++ [piece] := by
  cases pieces with
  | nil => exact absurd rfl h
  | cons first pieces => rfl

theorem cut_concat_delimiter {delimiter : Char} (hd : delimiter ≠ '(' ∧ delimiter ≠ ')')
    {depth : Nat} {cs : List Char} (h : cs.foldl nest depth = 0) :
    cut (some delimiter) depth (cs ++ [delimiter]) = cut (some delimiter) depth cs ++ [[]] := by
  induction cs generalizing depth with
  | nil =>
    obtain rfl : depth = 0 := h
    simp [cut, hd]
  | cons c cs ih =>
    rw [List.cons_append, cut, cut]
    split
    · next hc =>
      rw [List.foldl_cons, hc.1, nest, if_neg hc.2.2.1, if_neg hc.2.2.2] at h
      rw [ih h]
      rfl
    · rw [ih h, extend_concat c (cut_ne_nil _ _ _)]

theorem getLast?_extend {c : Char} {pieces : List (List Char)} {piece : List Char}
    (h : pieces.getLast? = some piece) :
    (extend c pieces).getLast? = some piece ∨ (extend c pieces).getLast? = some (c :: piece) := by
  match pieces, h with
  | [first], h =>
    obtain rfl : first = piece := by simpa using h
    exact .inr rfl
  | first :: second :: pieces, h =>
    refine .inl ?_
    rw [extend, List.getLast?_cons_cons]
    rwa [List.getLast?_cons_cons] at h

theorem getLast?_cut_concat {delimiter c : Char} {depth : Nat} {cs : List Char}
    (h : ¬(c = delimiter ∧ cs.foldl nest depth = 0)) :
    ∃ piece, (cut (some delimiter) depth (cs ++ [c])).getLast? = some (piece ++ [c]) := by
  induction cs generalizing depth with
  | nil =>
    have hno : ¬(depth = 0 ∧ some delimiter = some c ∧ c ≠ '(' ∧ c ≠ ')') :=
      fun hc => h ⟨(Option.some.inj hc.2.1).symm, hc.1⟩
    exact ⟨[], by rw [List.nil_append, cut, if_neg hno]; rfl⟩
  | cons d cs ih =>
    rw [List.cons_append, cut]
    split
    · next hc =>
      rw [List.foldl_cons, hc.1, nest, if_neg hc.2.2.1, if_neg hc.2.2.2] at h
      obtain ⟨piece, hp⟩ := ih h
      refine ⟨piece, ?_⟩
      rw [List.getLast?_cons, hp]
      rfl
    · obtain ⟨piece, hp⟩ := ih h
      rcases getLast?_extend (c := d) hp with hl | hl
      · exact ⟨piece, hl⟩
      · exact ⟨d :: piece, hl⟩

theorem intercalate_extend (sep : List Char) (c : Char) (pieces : List (List Char)) :
    sep.intercalate (extend c pieces) = c :: sep.intercalate pieces := by
  match pieces with
  | [] => simp [extend]
  | [piece] => simp [extend]
  | piece :: next :: pieces => simp [extend, List.intercalate_cons_cons]

theorem intercalate_cut (delimiter : Char) (depth : Nat) (cs : List Char) :
    [delimiter].intercalate (cut (some delimiter) depth cs) = cs := by
  induction cs generalizing depth with
  | nil => simp [cut]
  | cons c cs ih =>
    rw [cut]
    split
    · next hc =>
      obtain ⟨-, hdc, -⟩ := hc
      obtain rfl := Option.some.inj hdc
      obtain ⟨piece, pieces, hp⟩ :=
        List.exists_cons_of_ne_nil (cut_ne_nil (some delimiter) 0 cs)
      have hi := ih 0
      rw [hp] at hi ⊢
      rw [List.intercalate_cons_cons, hi]
      rfl
    · rw [intercalate_extend, ih]

theorem intercalate_dropFinalEmpty {delimiter : Char} (hd : delimiter ≠ '(' ∧ delimiter ≠ ')')
    (cs : List Char) :
    (IsCut delimiter cs (cs.length - 1) →
        [delimiter].intercalate (dropFinalEmpty (cut (some delimiter) 0 cs)) = cs.dropLast) ∧
      (¬IsCut delimiter cs (cs.length - 1) →
        [delimiter].intercalate (dropFinalEmpty (cut (some delimiter) 0 cs)) = cs) := by
  induction cs using List.reverseRecOn with
  | nil => exact ⟨fun h => absurd h.1 (by simp), fun _ => rfl⟩
  | append_singleton cs c _ =>
    have hl : (cs ++ [c]).length - 1 = cs.length := by simp
    rw [hl, isCut_append_cons, List.dropLast_concat]
    constructor
    · rintro ⟨rfl, hz⟩
      rw [cut_concat_delimiter hd hz, dropFinalEmpty, if_pos List.getLast?_concat,
        List.dropLast_concat, intercalate_cut]
    · intro hn
      obtain ⟨piece, hp⟩ := getLast?_cut_concat hn
      have hne : ¬(cut (some delimiter) 0 (cs ++ [c])).getLast? = some [] := by
        rw [hp]
        simp
      rw [dropFinalEmpty, if_neg hne, intercalate_cut]

/-! The segments. -/

theorem split_of_within {delimiter : Char} {cap : Option Int} {text : String}
    (h : ∀ n, cap = some n → exceeds n 0 text.toList = false) :
    split (some delimiter) cap text =
      .ok ((dropFinalEmpty (cut (some delimiter) 0 text.toList)).map String.ofList) := by
  cases cap with
  | none => rfl
  | some n => simp [split, h n rfl]

theorem toList_intercalate_ofList (delimiter : Char) (pieces : List (List Char)) :
    (String.intercalate (String.singleton delimiter) (pieces.map String.ofList)).toList =
      [delimiter].intercalate pieces := by
  rw [String.toList_intercalate, String.toList_singleton, List.map_map]
  congr 1
  exact (List.map_congr_left fun piece _ => String.toList_ofList).trans (List.map_id _)

/-- A path is refused if some part of it has a larger excess of opening parentheses than the cap.
Any other is cut at the delimiters outside parentheses, whatever the cap. Its segments are the parts
between them but for a final one that is empty, and joined again they make the path, or the path
without a final cut. -/
theorem split_cuts (text : String) (delimiter : Char) (cap : Option Int)
    (hd : delimiter ≠ '(' ∧ delimiter ≠ ')') (hc : ∀ n, cap = some n → 0 ≤ n) :
    let cs := text.toList
    let nested (n : Int) := ∃ s, s <:+: cs ∧ n < excess s
    (∀ n, cap = some n →
        (nested n ↔ split (some delimiter) cap text = .error (.nesting n text))) ∧
      ((∀ n, cap = some n → ¬nested n) → ∃ (ps : List Nat) (segments : List String),
        split (some delimiter) cap text = .ok segments ∧
          split (some delimiter) none text = .ok segments ∧
          ps.Pairwise (· < ·) ∧ (∀ p, p ∈ ps ↔ IsCut delimiter cs p) ∧
          segments.map String.toList = dropFinalEmpty (between cs 0 ps) ∧
          let joined := String.intercalate (String.singleton delimiter) segments
          (IsCut delimiter cs (cs.length - 1) → joined.toList = cs.dropLast) ∧
            (¬IsCut delimiter cs (cs.length - 1) → joined = text)) := by
  intro cs nested
  constructor
  · rintro n rfl
    have he : nested n ↔ exceeds n 0 text.toList = true := (exceeds_iff (hc n rfl) cs).symm
    rw [he, split]
    cases exceeds n 0 text.toList <;> simp
  · intro hn
    have hw : ∀ n, cap = some n → exceeds n 0 cs = false := fun n hcap =>
      Bool.eq_false_iff.2 fun he => hn n hcap ((exceeds_iff (hc n hcap) cs).1 he)
    obtain ⟨ps, hs, hm, he⟩ := cut_eq_between hd [] cs
    simp only [List.nil_append, List.length_nil, Nat.zero_le, true_and, List.foldl_nil] at hm he
    obtain ⟨hcut, hno⟩ := intercalate_dropFinalEmpty hd cs
    refine ⟨ps, _, split_of_within hw, split_of_within (by simp), hs, hm, ?_, ?_, ?_⟩
    · rw [← he, List.map_map]
      exact (List.map_congr_left fun piece _ => String.toList_ofList).trans (List.map_id _)
    · intro hf
      rw [toList_intercalate_ofList, hcut hf]
    · intro hf
      refine String.toList_injective ?_
      rw [toList_intercalate_ofList, hno hf]

theorem split_cuts_stray_parenthesis :
    let text := ":a)(:):b:"
    split (some ':') (some 0) text = .error (.nesting 0 text) ∧
      ∃ ps : List Nat, (∀ p, p ∈ ps ↔ IsCut ':' text.toList p) ∧
        split (some ':') (some 1) text = .ok ["", "a)(:)", "b"] ∧
        [[], ['a', ')', '(', ':', ')'], ['b']] = dropFinalEmpty (between text.toList 0 ps) := by
  intro text
  have hd : ':' ≠ '(' ∧ ':' ≠ ')' := by decide
  have hw : ∀ n, some (1 : Int) = some n → ¬∃ s, s <:+: text.toList ∧ n < excess s := by
    rintro _ ⟨⟩ h
    exact absurd ((exceeds_iff (by decide) text.toList).2 h) (by decide)
  constructor
  · refine ((split_cuts text ':' (some 0) hd (by simp)).1 0 rfl).1 ⟨['('], ?_, by decide⟩
    exact ⟨[':', 'a', ')'], [':', ')', ':', 'b', ':'], by decide⟩
  · obtain ⟨ps, segments, hs, -, -, hm, hb, -⟩ := (split_cuts text ':' (some 1) hd (by simp)).2 hw
    have he : split (some ':') (some 1) text = .ok ["", "a)(:)", "b"] := by decide
    obtain rfl : ["", "a)(:)", "b"] = segments := Except.ok.inj (he.symm.trans hs)
    exact ⟨ps, hm, he, hb ▸ by decide⟩

end Inlay.Path
