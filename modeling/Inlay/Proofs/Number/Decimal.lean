import Inlay.Number.Literal
import Inlay.Proofs.Number.Rounding

/-! Decimals of numbers: zeros at their ends do not count, and the shortest decimal of a number is
read back as the number. -/

namespace Inlay.Binary64

theorem length_toDigits_mul_ten {n : Nat} (hn : 0 < n) :
    (Nat.toDigits 10 (n * 10)).length = (Nat.toDigits 10 n).length + 1 := by
  have h := Nat.toDigits_append_toDigits (b := 10) (d := 0) (by decide) hn (by decide)
  rw [Nat.toDigits_zero, Nat.add_zero, Nat.mul_comm] at h
  rw [← h, List.length_append, List.length_singleton]

theorem ofDecimal_mul_ten (negative : Bool) {n : Nat} (hn : 0 < n) (e : Int) :
    ofDecimal negative (n * 10) e = ofDecimal negative n (e + 1) := by
  have hl : e + ((Nat.toDigits 10 (n * 10)).length : Int) =
      e + 1 + ((Nat.toDigits 10 n).length : Int) := by
    rw [length_toDigits_mul_ten hn]
    omega
  have hz : n * 10 = 0 ↔ n = 0 := by omega
  simp only [ofDecimal, hl, hz]
  congr 2
  by_cases h : 0 ≤ e
  · obtain ⟨k, rfl⟩ := Int.eq_ofNat_of_zero_le h
    rw [if_pos h, if_pos (by omega)]
    refine congrArg (ofRatio negative · 1) ?_
    rw [show ((k : Int) + 1).toNat = k + 1 by omega, Int.toNat_natCast, Nat.pow_eq, Nat.pow_eq,
      Nat.mul_assoc, pow_succ']
  · rw [if_neg h]
    obtain ⟨k, hk⟩ := Int.eq_ofNat_of_zero_le (a := -e - 1) (by omega)
    obtain rfl : e = -(k : Int) - 1 := by omega
    have hp : (10 : ℚ) ^ k ≠ 0 := by positivity
    rw [show (-(-(k : Int) - 1)).toNat = k + 1 by omega]
    split
    · obtain rfl : k = 0 := by omega
      refine ofRatio_congr negative (by decide) (by decide) ?_
      norm_num
    · rw [show (-(-(k : Int) - 1 + 1)).toNat = k by omega]
      refine ofRatio_congr negative (Nat.pow_pos (by decide)) (Nat.pow_pos (by decide)) ?_
      simp only [Nat.pow_eq]
      push_cast
      field_simp
      ring

theorem ofDecimal_mul_pow (negative : Bool) (n k : Nat) (e : Int) :
    ofDecimal negative (n * 10 ^ k) e = ofDecimal negative n (e + k) := by
  rcases Nat.eq_zero_or_pos n with rfl | hn
  · simp [ofDecimal]
  · induction k generalizing e with
    | zero => simp
    | succ k ih =>
      rw [pow_succ, ← Nat.mul_assoc, ofDecimal_mul_ten negative (by positivity), ih]
      congr 1
      push_cast
      ring

theorem pack_signed {k m : Nat} {u e : Int} {h : Canonical m e} (negative : Bool)
    (hp : pack false k u = .finite false m e h) : pack negative k u = .finite negative m e h := by
  rw [pack] at hp ⊢
  split at hp
  · next hc =>
    cases hp
    exact dif_pos hc
  · cases hp

theorem ofRatio_signed {num den m : Nat} {e : Int} {h : Canonical m e} (negative : Bool)
    (hr : ofRatio false num den = .finite false m e h) :
    ofRatio negative num den = .finite negative m e h := by
  simp only [ofRatio] at hr ⊢
  split_ifs at hr ⊢
  · cases hr
    rfl
  · exact pack_signed negative hr
  · exact pack_signed negative hr

theorem ofDecimal_signed {digits m : Nat} {unit e : Int} {h : Canonical m e} (negative : Bool)
    (hd : ofDecimal false digits unit = .finite false m e h) :
    ofDecimal negative digits unit = .finite negative m e h := by
  simp only [ofDecimal] at hd ⊢
  split_ifs at hd ⊢
  · cases hd
    rfl
  · exact ofRatio_signed negative hd
  · exact ofRatio_signed negative hd

theorem ofDecimal_eq_ofRatio (negative : Bool) {n : Nat} {u : Int} (hn : 0 < n)
    (hlow : -330 ≤ u + (Nat.toDigits 10 n).length) (hhigh : u + (Nat.toDigits 10 n).length ≤ 310) :
    ofDecimal negative n u =
      if 0 ≤ u then ofRatio negative (n * 10 ^ u.toNat) 1
      else ofRatio negative n (10 ^ (-u).toNat) := by
  have hz : ¬(n = 0 ∨ u + (Nat.toDigits 10 n).length < -330) := by omega
  have hf : ¬310 < u + ((Nat.toDigits 10 n).length : Int) := by omega
  simp only [ofDecimal, if_neg hz, if_neg hf, Nat.pow_eq]

theorem length_toDigits_le {n k : Nat} (hk : 0 < k) (h : n < 10 ^ k) :
    (Nat.toDigits 10 n).length ≤ k :=
  (Nat.length_toDigits_le_iff (by decide) hk).2 h

theorem two_pow_lt_ten_pow : (2 : Nat) ^ 1024 < 10 ^ 310 := by
  calc (2 : Nat) ^ 1024 = (2 ^ 93) ^ 11 * 2 := by rw [← pow_mul, ← pow_succ]
    _ ≤ (10 ^ 28) ^ 11 * 2 := Nat.mul_le_mul_right _ (Nat.pow_le_pow_left (by norm_num) _)
    _ < (10 ^ 28) ^ 11 * 100 := Nat.mul_lt_mul_of_pos_left (by norm_num) (by positivity)
    _ = 10 ^ 310 := by rw [← pow_mul, show 100 = 10 ^ 2 from rfl, ← pow_add]

theorem two_pow_le_ten_pow : (2 : Nat) ^ 1074 ≤ 10 ^ 330 := by
  calc (2 : Nat) ^ 1074 = (2 ^ 93) ^ 11 * 2 ^ 51 := by rw [← pow_mul, ← pow_add]
    _ ≤ (10 ^ 28) ^ 11 * 10 ^ 22 :=
      Nat.mul_le_mul (Nat.pow_le_pow_left (by norm_num) _) (by norm_num)
    _ = 10 ^ 330 := by rw [← pow_mul, ← pow_add]

/-- The digits of a fraction start at most 330 places after the point. -/
theorem le_length_toDigits_mul_five_pow {m k : Nat} (hm : 0 < m) (hk : k ≤ 1074) :
    k ≤ (Nat.toDigits 10 (m * 5 ^ k)).length + 330 := by
  by_contra hlt
  have hpos : 0 < (Nat.toDigits 10 (m * 5 ^ k)).length := Nat.length_toDigits_pos
  have hl : m * 5 ^ k < 10 ^ (Nat.toDigits 10 (m * 5 ^ k)).length :=
    (Nat.length_toDigits_le_iff (by decide) hpos).1 le_rfl
  refine absurd hl (not_lt.2 ?_)
  generalize (Nat.toDigits 10 (m * 5 ^ k)).length = j at hlt
  refine Nat.le_of_mul_le_mul_right ?_ (by positivity : 0 < 2 ^ k)
  calc 10 ^ j * 2 ^ k ≤ 10 ^ j * 2 ^ 1074 := by gcongr; decide
    _ ≤ 10 ^ j * 10 ^ 330 := Nat.mul_le_mul_left _ two_pow_le_ten_pow
    _ = 10 ^ (j + 330) := (pow_add ..).symm
    _ ≤ 10 ^ k := Nat.pow_le_pow_right (by decide) (by omega)
    _ = 5 ^ k * 2 ^ k := mul_pow 5 2 k
    _ ≤ m * 5 ^ k * 2 ^ k := Nat.mul_le_mul_right _ (Nat.le_mul_of_pos_left _ hm)

theorem ofDecimal_exactDecimal {m : Nat} {e : Int} (h : Canonical m e) (hm : 0 < m) :
    ofDecimal false (exactDecimal m e).1 (exactDecimal m e).2 = .finite false m e h := by
  obtain ⟨hlt, hlow, hhigh, -⟩ := id h
  rw [leadingBit] at hlt
  rw [exactDecimal]
  by_cases he : 0 ≤ e
  · obtain ⟨k, rfl⟩ := Int.eq_ofNat_of_zero_le he
    rw [if_pos he, Int.toNat_natCast]
    have hn : m * 2 ^ k < 10 ^ 310 := by
      calc m * 2 ^ k < 2 ^ 53 * 2 ^ k := Nat.mul_lt_mul_of_pos_right hlt (by positivity)
        _ = 2 ^ (53 + k) := (pow_add ..).symm
        _ < 10 ^ 310 := (Nat.pow_le_pow_right (by decide) (by omega)).trans_lt two_pow_lt_ten_pow
    have hl := length_toDigits_le (by decide) hn
    dsimp only
    rw [Nat.pow_eq, ofDecimal_eq_ofRatio false (by positivity) (by omega) (by omega), if_pos le_rfl]
    refine ofRatio_exact false h hm (by decide) ?_
    push_cast
    simp
  · obtain ⟨k, hk⟩ := Int.eq_ofNat_of_zero_le (a := -e) (by omega)
    obtain rfl : e = -(k : Int) := by omega
    rw [if_neg he, neg_neg, Int.toNat_natCast]
    have hn : m * 5 ^ k < 10 ^ (k + 310) := by
      calc m * 5 ^ k ≤ 2 ^ 53 * 10 ^ k := Nat.mul_le_mul hlt.le (Nat.pow_le_pow_left (by decide) k)
        _ < 10 ^ 16 * 10 ^ k := Nat.mul_lt_mul_of_pos_right (by norm_num) (by positivity)
        _ = 10 ^ (16 + k) := (pow_add ..).symm
        _ ≤ 10 ^ (k + 310) := Nat.pow_le_pow_right (by decide) (by omega)
    have hl := length_toDigits_le (by omega) hn
    have hg := le_length_toDigits_mul_five_pow (m := m) (k := k) hm (by omega)
    dsimp only
    rw [Nat.pow_eq, ofDecimal_eq_ofRatio false (by positivity) (by omega) (by omega), if_neg he,
      neg_neg, Int.toNat_natCast]
    refine ofRatio_exact false h hm (by positivity) ?_
    rw [zpow_neg, zpow_natCast]
    push_cast
    rw [show (10 : ℚ) ^ k = 5 ^ k * 2 ^ k by rw [← mul_pow]; norm_num]
    field_simp

theorem ofDecimal_shortest {m : Nat} {e : Int} (h : Canonical m e) (hm : 0 < m) :
    ofDecimal false (shortest m e).1 (shortest m e).2 = .finite false m e h := by
  rw [shortest]
  dsimp only
  generalize hs : List.findSome? _ (List.range 17) = found
  cases found with
  | none => exact ofDecimal_exactDecimal h hm
  | some d =>
    obtain ⟨i, -, hi⟩ := List.exists_of_findSome?_eq_some hs
    obtain ⟨digits, hd, rfl⟩ := Option.map_eq_some_iff.1 hi
    have hb := List.find?_some hd
    rw [beq_iff_eq, pack, dif_pos h] at hb
    exact hb

end Inlay.Binary64
