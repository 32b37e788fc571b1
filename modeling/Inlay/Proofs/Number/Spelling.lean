import Inlay.Proofs.Number.Decimal
import Mathlib.Data.List.TakeWhile

/-! How numbers of double precision are spelled: as whole digits, with digits after a point or with
a power of ten. The digits tell the number. -/

namespace Inlay

/-- A number of digits that start with no zero, unless a zero is all there is. -/
structure Number.IsWhole (cs : List Char) : Prop where
  ne_nil : cs ≠ []
  digits : ∀ c ∈ cs, c.isDigit = true
  unpadded : cs = ['0'] ∨ cs.head? ≠ some '0'

theorem Number.isWhole_toDigits (n : Nat) : Number.IsWhole (Nat.toDigits 10 n) where
  ne_nil := Nat.toDigits_ne_nil
  digits _ hc := Nat.isDigit_of_mem_toDigits (by decide) (by decide) hc
  unpadded := by
    induction n using Nat.strongRecOn with
    | _ n ih =>
      by_cases hn : n < 10
      · have hone : ∀ n < 10, [n.digitChar] = ['0'] ∨ [n.digitChar].head? ≠ some '0' := by decide
        rw [Nat.toDigits_of_lt_base hn]
        exact hone n hn
      · have hd := ih (n / 10) (by omega)
        have hz : Nat.toDigits 10 (n / 10) ≠ ['0'] := by
          intro h
          have hv := Nat.ofDigitChars_ten_toDigits (n := n / 10)
          rw [h] at hv
          have : n / 10 = 0 := hv.symm
          omega
        refine .inr ?_
        rw [Nat.toDigits_of_base_le (by decide) (by omega), List.head?_append]
        have := hd.resolve_left hz
        cases h : Nat.toDigits 10 (n / 10) with
        | nil => exact absurd h Nat.toDigits_ne_nil
        | cons c cs => simpa [h] using this

structure Spelling where
  whole : List Char
  part : Option (List Char)
  power : Option (Bool × List Char)
  whole_isWhole : Number.IsWhole whole
  part_digits : ∀ ds, part = some ds → ds ≠ [] ∧ ∀ c ∈ ds, c.isDigit = true
  power_digits : ∀ s ds, power = some (s, ds) → ds ≠ [] ∧ ∀ c ∈ ds, c.isDigit = true
  isFloat : part ≠ none ∨ power ≠ none

namespace Spelling

def fractionText : Option (List Char) → List Char
  | none => []
  | some ds => '.' :: ds

def powerText : Option (Bool × List Char) → List Char
  | none => []
  | some (negative, ds) => 'e' :: (if negative then '-' else '+') :: ds

def text (p : Spelling) : List Char := p.whole ++ fractionText p.part ++ powerText p.power

def exponent : Option (Bool × List Char) → Int
  | none => 0
  | some (negative, ds) => Binary64.signed negative (Nat.ofDigitChars 10 ds 0)

def value (negative : Bool) (p : Spelling) : Binary64 :=
  let part := p.part.getD []
  .ofDecimal negative (Nat.ofDigitChars 10 (p.whole ++ part) 0) (exponent p.power - part.length)

end Spelling

namespace Binary64

theorem exists_dropTrailingZeros (cs : List Char) :
    ∃ k, cs = dropTrailingZeros cs ++ List.replicate k '0' := by
  have hs := List.takeWhile_append_dropWhile (p := (· == '0')) (l := cs.reverse)
  have ht : cs.reverse.takeWhile (· == '0') =
      List.replicate (cs.reverse.takeWhile (· == '0')).length '0' :=
    List.eq_replicate_iff.2 ⟨rfl, fun c hc => by simpa using List.mem_takeWhile_imp hc⟩
  refine ⟨(cs.reverse.takeWhile (· == '0')).length, ?_⟩
  rw [dropTrailingZeros, ← List.reverse_replicate, ← ht, ← List.reverse_append, hs,
    List.reverse_reverse]

theorem ofDigitChars_concat_zeros (cs : List Char) (k : Nat) :
    Nat.ofDigitChars 10 (cs ++ List.replicate k '0') 0 = Nat.ofDigitChars 10 cs 0 * 10 ^ k := by
  rw [Nat.ofDigitChars_append, Nat.ofDigitChars_replicate_zero, Nat.mul_comm]

theorem ofDigitChars_zeros_append (k : Nat) (cs : List Char) :
    Nat.ofDigitChars 10 (List.replicate k '0' ++ cs) 0 = Nat.ofDigitChars 10 cs 0 := by
  rw [Nat.ofDigitChars_append, Nat.ofDigitChars_replicate_zero, Nat.mul_zero]

structure Shortest (m : Nat) (e : Int) (h : Canonical m e) (ds : List Char) (point : Int) :
    Prop where
  head : ds.head? ≠ some '0'
  ne_nil : ds ≠ []
  digits : ∀ c ∈ ds, c.isDigit = true
  value : ∀ negative, ofDecimal negative (Nat.ofDigitChars 10 ds 0) (point - ds.length) =
    .finite negative m e h

theorem shortest_digits {m : Nat} {e : Int} (h : Canonical m e) (hm : 0 < m) :
    Shortest m e h (dropTrailingZeros (Nat.toDigits 10 (shortest m e).1))
      ((Nat.toDigits 10 (shortest m e).1).length + (shortest m e).2) := by
  have hd := ofDecimal_shortest h hm
  generalize (shortest m e).1 = n at hd ⊢
  generalize (shortest m e).2 = unit at hd ⊢
  have hn : n ≠ 0 := by
    rintro rfl
    have hz : ofDecimal false 0 unit = zero false := by simp [ofDecimal]
    rw [hz] at hd
    cases hd
    exact absurd hm (lt_irrefl _)
  have hw := Number.isWhole_toDigits n
  obtain ⟨k, hk⟩ := exists_dropTrailingZeros (Nat.toDigits 10 n)
  generalize dropTrailingZeros (Nat.toDigits 10 n) = ds at hk ⊢
  have hv : n = Nat.ofDigitChars 10 ds 0 * 10 ^ k := by
    rw [← ofDigitChars_concat_zeros, ← hk, Nat.ofDigitChars_ten_toDigits]
  have hz : Nat.toDigits 10 n ≠ ['0'] := by
    intro h
    have hv := Nat.ofDigitChars_ten_toDigits (n := n)
    rw [h] at hv
    exact hn hv.symm
  have hhead := hw.unpadded.resolve_left hz
  have hne : ds ≠ [] := by
    rintro rfl
    rw [List.nil_append] at hk
    cases k with
    | zero => exact hw.ne_nil hk
    | succ k => exact hhead (by rw [hk]; rfl)
  refine ⟨?_, hne, fun c hc => hw.digits c (hk ▸ List.mem_append_left _ hc), fun negative => ?_⟩
  · obtain ⟨c, cs, rfl⟩ := List.exists_cons_of_ne_nil hne
    rw [hk] at hhead
    exact hhead
  · have hl := congrArg List.length hk
    rw [List.length_append, List.length_replicate] at hl
    rw [← ofDecimal_signed negative hd, hv, ofDecimal_mul_pow, ← hv, hl]
    congr 1
    push_cast
    ring

variable {m : Nat} {e : Int} {h : Canonical m e} {ds : List Char} {point : Int}

theorem Shortest.spelling_below (hs : Shortest m e h ds point) (hp : point ≤ 0) :
    ∃ p : Spelling, '0' :: '.' :: (List.replicate (-point).toNat '0' ++ ds) = p.text ∧
      ∀ negative, p.value negative = .finite negative m e h := by
  refine ⟨⟨['0'], some (List.replicate (-point).toNat '0' ++ ds), none,
    ⟨by simp, by simp, .inl rfl⟩, ?_, by simp, by simp⟩, by simp [Spelling.text,
      Spelling.fractionText, Spelling.powerText], fun negative => ?_⟩
  · rintro _ ⟨⟩
    refine ⟨List.append_ne_nil_of_right_ne_nil _ hs.ne_nil, fun c hc => ?_⟩
    rcases List.mem_append.1 hc with hc | hc
    · rw [List.eq_of_mem_replicate hc]
      rfl
    · exact hs.digits c hc
  · rw [← hs.value negative, Spelling.value]
    have hz : Nat.ofDigitChars 10 (['0'] ++ (List.replicate (-point).toNat '0' ++ ds)) 0 =
        Nat.ofDigitChars 10 ds 0 := by
      rw [← List.append_assoc, Nat.ofDigitChars_append, ← List.replicate_one, ← List.replicate_add,
        Nat.ofDigitChars_replicate_zero, Nat.mul_zero]
    simp only [Option.getD_some, hz, Spelling.exponent]
    congr 1
    simp only [List.length_append, List.length_replicate]
    omega

theorem Shortest.spelling_within (hs : Shortest m e h ds point) (hp : 0 < point)
    (hl : point < ds.length) :
    ∃ p : Spelling, ds.take point.toNat ++ '.' :: ds.drop point.toNat = p.text ∧
      ∀ negative, p.value negative = .finite negative m e h := by
  obtain ⟨k, rfl⟩ := Int.eq_ofNat_of_zero_le hp.le
  rw [Int.toNat_natCast]
  have hne : ds.take k ≠ [] := by
    rw [Ne, List.take_eq_nil_iff]
    exact not_or.2 ⟨by omega, hs.ne_nil⟩
  have hhead : (ds.take k).head? ≠ some '0' := by
    rw [List.head?_take, if_neg (by omega)]
    exact hs.head
  refine ⟨⟨ds.take k, some (ds.drop k), none,
    ⟨hne, fun c hc => hs.digits c (List.mem_of_mem_take hc), .inr hhead⟩, ?_, by simp, by simp⟩,
    by simp [Spelling.text, Spelling.fractionText, Spelling.powerText], fun negative => ?_⟩
  · rintro _ ⟨⟩
    refine ⟨?_, fun c hc => hs.digits c (List.mem_of_mem_drop hc)⟩
    rw [Ne, List.drop_eq_nil_iff]
    omega
  · rw [← hs.value negative, Spelling.value]
    simp only [Option.getD_some, List.take_append_drop, Spelling.exponent, List.length_drop]
    congr 1
    omega

theorem Shortest.spelling_above (hs : Shortest m e h ds point) (hl : ds.length ≤ point) :
    ∃ p : Spelling,
      ds ++ List.replicate (point.toNat - ds.length) '0' ++ ['.', '0'] = p.text ∧
        ∀ negative, p.value negative = .finite negative m e h := by
  refine ⟨⟨ds ++ List.replicate (point.toNat - ds.length) '0', some ['0'], none,
    ⟨List.append_ne_nil_of_left_ne_nil hs.ne_nil _, fun c hc => ?_, .inr ?_⟩, by simp, by simp,
    by simp⟩, by simp [Spelling.text, Spelling.fractionText, Spelling.powerText],
    fun negative => ?_⟩
  · rcases List.mem_append.1 hc with hc | hc
    · exact hs.digits c hc
    · rw [List.eq_of_mem_replicate hc]
      rfl
  · obtain ⟨c, cs, rfl⟩ := List.exists_cons_of_ne_nil hs.ne_nil
    exact hs.head
  · have hz : Nat.ofDigitChars 10
        (ds ++ List.replicate (point.toNat - ds.length) '0' ++ ['0']) 0 =
          Nat.ofDigitChars 10 ds 0 * 10 ^ (point.toNat - ds.length + 1) := by
      rw [List.append_assoc, ← List.replicate_one, ← List.replicate_add, ofDigitChars_concat_zeros]
    rw [← hs.value negative, Spelling.value]
    simp only [Option.getD_some, hz, Spelling.exponent, List.length_singleton, ofDecimal_mul_pow]
    congr 1
    push_cast
    omega

theorem ofDigitChars_padded (k n : Nat) :
    Nat.ofDigitChars 10 (List.replicate k '0' ++ Nat.toDigits 10 n) 0 = n := by
  rw [ofDigitChars_zeros_append, Nat.ofDigitChars_ten_toDigits]

theorem signed_natAbs (n : Int) : signed (decide (n < 0)) n.natAbs = n := by
  rw [signed]
  split
  · next h =>
    have : n < 0 := by simpa using h
    omega
  · next h =>
    have : ¬n < 0 := by simpa using h
    omega

theorem Shortest.spelling_power (hs : Shortest m e h ds point) (k : Nat) :
    ∃ p : Spelling, ds.take 1 ++ (if (ds.drop 1).isEmpty then [] else '.' :: ds.drop 1) ++
        'e' :: (if point - 1 < 0 then '-' else '+') ::
          (List.replicate k '0' ++ Nat.toDigits 10 (point - 1).natAbs) = p.text ∧
      ∀ negative, p.value negative = .finite negative m e h := by
  obtain ⟨c, cs, rfl⟩ := List.exists_cons_of_ne_nil hs.ne_nil
  let part := if cs.isEmpty then none else some cs
  have hc : c ≠ '0' := fun hc => hs.head (congrArg some hc)
  refine ⟨⟨[c], part, some (decide (point - 1 < 0),
      List.replicate k '0' ++ Nat.toDigits 10 (point - 1).natAbs),
    ⟨by simp, fun d hd => ?_, .inr (by simpa using hc)⟩, fun ds hds => ?_, ?_, by simp⟩, ?_,
    fun negative => ?_⟩
  · rw [List.mem_singleton.1 hd]
    exact hs.digits c List.mem_cons_self
  · simp only [part] at hds
    split at hds
    · cases hds
    · next hcs =>
      cases hds
      exact ⟨by simpa using hcs, fun d hd => hs.digits d (List.mem_cons_of_mem _ hd)⟩
  · rintro _ _ ⟨⟩
    refine ⟨List.append_ne_nil_of_right_ne_nil _ Nat.toDigits_ne_nil, fun d hd => ?_⟩
    rcases List.mem_append.1 hd with hd | hd
    · rw [List.eq_of_mem_replicate hd]
      rfl
    · exact Nat.isDigit_of_mem_toDigits (by decide) (by decide) hd
  · cases cs <;> simp [part, Spelling.text, Spelling.fractionText, Spelling.powerText]
  · have hp : part.getD [] = cs := by
      cases cs <;> rfl
    rw [← hs.value negative, Spelling.value]
    simp only [hp, Spelling.exponent, ofDigitChars_padded, signed_natAbs, List.singleton_append,
      List.length_cons]
    congr 1
    push_cast
    ring

theorem exists_spelling (h : Canonical m e) :
    ∃ p : Spelling, magnitudeText m e = p.text ∧
      ∀ negative, p.value negative = .finite negative m e h := by
  rw [magnitudeText]
  split
  · next hm =>
    subst hm
    obtain rfl : e = -1074 := h.2.2.2.resolve_left (by decide)
    exact ⟨⟨['0'], some ['0'], none, ⟨by simp, by simp, .inl rfl⟩, by simp, by simp, by simp⟩, rfl,
      fun negative => rfl⟩
  · next hm =>
    have hs := shortest_digits h (Nat.pos_of_ne_zero hm)
    dsimp only
    generalize dropTrailingZeros _ = ds at hs ⊢
    generalize ((Nat.toDigits 10 (shortest m e).1).length : Int) + (shortest m e).2 = point at hs ⊢
    rw [layout]
    split
    · split
      · next hp => exact hs.spelling_below hp
      · next hp =>
        rcases lt_or_ge point ds.length with hl | hl
        · have ht : (ds.take point.toNat).length = point.toNat := by
            rw [List.length_take]
            omega
          have hd : (ds.drop point.toNat).isEmpty = false := by
            rw [List.isEmpty_eq_false_iff, Ne, List.drop_eq_nil_iff]
            omega
          simp only [ht, hd, Nat.sub_self, List.replicate_zero, List.append_nil]
          exact hs.spelling_within (by omega) hl
        · have ht : ds.take point.toNat = ds := List.take_of_length_le (by omega)
          have hd : ds.drop point.toNat = [] := List.drop_eq_nil_of_le (by omega)
          simp only [ht, hd]
          exact hs.spelling_above hl
    · exact hs.spelling_power _

end Binary64

end Inlay
