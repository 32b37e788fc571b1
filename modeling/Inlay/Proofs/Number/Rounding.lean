import Inlay.Number.Shortest
import Mathlib.Algebra.Order.Field.Power
import Mathlib.Data.Rat.Cast.Order
import Mathlib.Tactic.FieldSimp
import Mathlib.Tactic.Linarith
import Mathlib.Tactic.Positivity
import Mathlib.Tactic.Ring

/-! Rounding of ratios: what a ratio is rounded to depends on its value alone, and a number of
double precision is rounded to itself. -/

namespace Inlay.Binary64

variable {num den num' den' : Nat}

/-- The exponent at which a number has 53 bits before the point, or the least one. -/
structure Fits (x : ℚ) (e : Int) : Prop where
  least : -1074 ≤ e
  lt : x * 2 ^ (-e) < 2 ^ 53
  full : 2 ^ 52 ≤ x * 2 ^ (-e) ∨ e = -1074

theorem Fits.le {x : ℚ} {e e' : Int} (hx : 0 < x) (h : Fits x e) (h' : Fits x e') : e' ≤ e := by
  by_contra hlt
  have hfull : 2 ^ 52 ≤ x * 2 ^ (-e') := by
    rcases h'.full with hf | hf
    · exact hf
    · have := h.least
      omega
  have hsplit : x * 2 ^ (-e) = x * 2 ^ (-e') * 2 ^ (e' - e) := by
    rw [mul_assoc, ← zpow_add₀ (by norm_num)]
    congr 2
    ring
  have htwo : (2 : ℚ) ≤ 2 ^ (e' - e) := by
    calc (2 : ℚ) = 2 ^ (1 : Int) := by norm_num
      _ ≤ 2 ^ (e' - e) := zpow_le_zpow_right₀ (by norm_num) (by omega)
  have hlow : (2 : ℚ) ^ 53 ≤ x * 2 ^ (-e) := by
    calc (2 : ℚ) ^ 53 = 2 ^ 52 * 2 := by norm_num
      _ ≤ x * 2 ^ (-e') * 2 ^ (e' - e) := mul_le_mul hfull htwo (by norm_num) (by positivity)
      _ = x * 2 ^ (-e) := hsplit.symm
  exact absurd h.lt (not_lt.2 hlow)

theorem shift_pos (hd : 0 < den) (e : Int) : 0 < (shift num den e).2 := by
  rw [shift]
  split
  · exact Nat.mul_pos hd (Nat.pow_pos (by decide))
  · exact hd

theorem shift_div (hd : 0 < den) (e : Int) :
    ((shift num den e).1 : ℚ) / (shift num den e).2 = (num : ℚ) / den * 2 ^ (-e) := by
  have hd' : (den : ℚ) ≠ 0 := by positivity
  rw [shift]
  split
  · next h =>
    obtain ⟨n, rfl⟩ := Int.eq_ofNat_of_zero_le h
    simp only [Int.toNat_natCast, zpow_neg, zpow_natCast, Nat.pow_eq]
    push_cast
    field_simp
  · next h =>
    obtain ⟨n, hn⟩ := Int.eq_ofNat_of_zero_le (a := -e) (by omega)
    rw [hn]
    simp only [Int.toNat_natCast, zpow_natCast, Nat.pow_eq]
    push_cast
    field_simp

theorem ratio_bounds (hn : 0 < num) (hd : 0 < den) :
    (2 : ℚ) ^ ((num.log2 : Int) - den.log2 - 1) < (num : ℚ) / den ∧
      (num : ℚ) / den < 2 ^ ((num.log2 : Int) - den.log2 + 1) := by
  have hd' : (0 : ℚ) < den := by exact_mod_cast hd
  have hnl : (2 : ℚ) ^ num.log2 ≤ num := by exact_mod_cast Nat.log2_self_le hn.ne'
  have hnu : (num : ℚ) < 2 ^ (num.log2 + 1) := by exact_mod_cast Nat.lt_log2_self
  have hdl : (2 : ℚ) ^ den.log2 ≤ den := by exact_mod_cast Nat.log2_self_le hd.ne'
  have hdu : (den : ℚ) < 2 ^ (den.log2 + 1) := by exact_mod_cast Nat.lt_log2_self
  have hlow : (2 : ℚ) ^ ((num.log2 : Int) - den.log2 - 1) = 2 ^ num.log2 / 2 ^ (den.log2 + 1) := by
    rw [← zpow_natCast, ← zpow_natCast, ← zpow_sub₀ (by norm_num)]
    congr 1
    push_cast
    ring
  have hhigh : (2 : ℚ) ^ ((num.log2 : Int) - den.log2 + 1) = 2 ^ (num.log2 + 1) / 2 ^ den.log2 := by
    rw [← zpow_natCast, ← zpow_natCast, ← zpow_sub₀ (by norm_num)]
    congr 1
    push_cast
    ring
  rw [hlow, hhigh, div_lt_div_iff₀ (by positivity) hd', div_lt_div_iff₀ hd' (by positivity)]
  exact ⟨mul_lt_mul' hnl hdu hd'.le (by positivity),
    mul_lt_mul hnu hdl (by positivity) (by positivity)⟩

theorem shift_lt_leadingBit_iff (hd : 0 < den) (e : Int) :
    (shift num den e).1 / (shift num den e).2 < leadingBit ↔
      (num : ℚ) / den * 2 ^ (-e) < 2 ^ 52 := by
  have hs : 0 < (shift num den e).2 := shift_pos hd e
  have hs' : (0 : ℚ) < (shift num den e).2 := by exact_mod_cast hs
  rw [Nat.div_lt_iff_lt_mul hs, ← shift_div hd, div_lt_iff₀ hs', leadingBit]
  norm_cast

theorem exponentFor_fits (hn : 0 < num) (hd : 0 < den) :
    Fits ((num : ℚ) / den) (exponentFor num den) := by
  obtain ⟨hlow, hhigh⟩ := ratio_bounds hn hd
  set x : ℚ := (num : ℚ) / den
  set e₁ : Int := (num.log2 : Int) - den.log2 - 52
  have hpos : ∀ e : Int, (0 : ℚ) < 2 ^ e := fun e => by positivity
  -- What the guess leaves before the point has 52 or 53 bits.
  have hupper : ∀ e, e₁ ≤ e → x * 2 ^ (-e) < 2 ^ 53 := by
    intro e he
    calc x * 2 ^ (-e) < 2 ^ (e₁ + 53) * 2 ^ (-e) := by
          refine mul_lt_mul_of_pos_right ?_ (hpos _)
          rw [show e₁ + 53 = (num.log2 : Int) - den.log2 + 1 by omega]
          exact hhigh
      _ = 2 ^ (e₁ + 53 - e) := by rw [← zpow_add₀ (by norm_num)]; rfl
      _ ≤ 2 ^ (53 : Int) := zpow_le_zpow_right₀ (by norm_num) (by omega)
      _ = 2 ^ 53 := by norm_num
  have hlower : 2 ^ 51 < x * 2 ^ (-e₁) := by
    calc (2 : ℚ) ^ 51 = 2 ^ (e₁ + 51) * 2 ^ (-e₁) := by
          rw [← zpow_add₀ (by norm_num)]
          norm_num
      _ < x * 2 ^ (-e₁) := by
          refine mul_lt_mul_of_pos_right ?_ (hpos _)
          rw [show e₁ + 51 = (num.log2 : Int) - den.log2 - 1 by omega]
          exact hlow
  have he : exponentFor num den = if -1074 < max (-1074) e₁ ∧
      (shift num den (max (-1074) e₁)).1 / (shift num den (max (-1074) e₁)).2 < leadingBit
      then max (-1074) e₁ - 1 else max (-1074) e₁ := rfl
  rw [he]
  by_cases hle : e₁ ≤ -1074
  · rw [max_eq_left hle, if_neg fun h => absurd h.1 (lt_irrefl _)]
    exact ⟨le_rfl, hupper _ hle, .inr rfl⟩
  · have hlt : -1074 < e₁ := lt_of_not_ge hle
    rw [max_eq_right hlt.le]
    split
    · next h =>
      have hs := (shift_lt_leadingBit_iff hd e₁).1 h.2
      have hdouble : x * 2 ^ (-(e₁ - 1)) = x * 2 ^ (-e₁) * 2 := by
        rw [show -(e₁ - 1) = -e₁ + 1 by ring, zpow_add_one₀ (by norm_num), mul_assoc]
      refine ⟨by omega, ?_, .inl ?_⟩
      · rw [hdouble]
        linarith
      · rw [hdouble]
        linarith
    · next h =>
      refine ⟨hlt.le, hupper e₁ le_rfl, .inl (not_lt.1 fun hs => ?_)⟩
      exact h ⟨hlt, (shift_lt_leadingBit_iff hd e₁).2 hs⟩

theorem exponentFor_eq (hn : 0 < num) (hd : 0 < den) {e : Int} (h : Fits ((num : ℚ) / den) e) :
    exponentFor num den = e := by
  have hx : (0 : ℚ) < (num : ℚ) / den := by positivity
  have hf := exponentFor_fits hn hd
  exact le_antisymm (h.le hx hf) (hf.le hx h)

/-! What a ratio is rounded to. -/

theorem roundDiv_scale {k : Nat} (hk : 0 < k) (num den : Nat) :
    roundDiv (k * num) (k * den) = roundDiv num den := by
  have hlt : ∀ a b, k * a < k * b ↔ a < b := fun a b => Nat.mul_lt_mul_left hk
  simp only [roundDiv, Nat.mul_div_mul_left _ _ hk, Nat.mul_mod_mul_left, Nat.mul_left_comm 2 k,
    hlt]

theorem roundDiv_congr (hd : 0 < den) (hd' : 0 < den') (h : num * den' = num' * den) :
    roundDiv num den = roundDiv num' den' := by
  calc roundDiv num den = roundDiv (den' * num) (den' * den) := (roundDiv_scale hd' _ _).symm
    _ = roundDiv (den * num') (den * den') := by
        rw [Nat.mul_comm den' num, h, Nat.mul_comm num' den, Nat.mul_comm den' den]
    _ = roundDiv num' den' := roundDiv_scale hd _ _

theorem roundDiv_mul (m : Nat) (hd : 0 < den) : roundDiv (m * den) den = m := by
  simp [roundDiv, Nat.mul_div_cancel _ hd, hd]

theorem ofRatio_congr (negative : Bool) (hd : 0 < den) (hd' : 0 < den')
    (h : (num : ℚ) / den = (num' : ℚ) / den') :
    ofRatio negative num den = ofRatio negative num' den' := by
  have hdq : (den : ℚ) ≠ 0 := by positivity
  have hdq' : (den' : ℚ) ≠ 0 := by positivity
  have hz : num = 0 ↔ num' = 0 := by
    have hc : num * den' = num' * den := by exact_mod_cast (div_eq_div_iff hdq hdq').1 h
    constructor
    · rintro rfl
      rw [Nat.zero_mul] at hc
      exact (Nat.mul_eq_zero.1 hc.symm).resolve_right hd.ne'
    · rintro rfl
      rw [Nat.zero_mul] at hc
      exact (Nat.mul_eq_zero.1 hc).resolve_right hd'.ne'
  by_cases hn : num = 0
  · rw [ofRatio, ofRatio, if_pos hn, if_pos (hz.1 hn)]
  · have hn' : num' ≠ 0 := fun h => hn (hz.2 h)
    have he : exponentFor num den = exponentFor num' den' := by
      refine exponentFor_eq (Nat.pos_of_ne_zero hn) hd ?_
      rw [h]
      exact exponentFor_fits (Nat.pos_of_ne_zero hn') hd'
    have hm : ∀ e, roundDiv (shift num den e).1 (shift num den e).2 =
        roundDiv (shift num' den' e).1 (shift num' den' e).2 := by
      intro e
      have hs : 0 < (shift num den e).2 := shift_pos hd e
      have hs' : 0 < (shift num' den' e).2 := shift_pos hd' e
      refine roundDiv_congr hs hs' ?_
      have hq : ((shift num den e).1 : ℚ) / (shift num den e).2 =
          (shift num' den' e).1 / (shift num' den' e).2 := by
        rw [shift_div hd, shift_div hd', h]
      exact_mod_cast (div_eq_div_iff (by positivity) (by positivity)).1 hq
    simp only [ofRatio, if_neg hn, if_neg hn', he, hm]

theorem ofRatio_exact (negative : Bool) {m : Nat} {e : Int} (h : Canonical m e) (hm : 0 < m)
    (hd : 0 < den) (hx : (num : ℚ) / den = m * 2 ^ e) :
    ofRatio negative num den = .finite negative m e h := by
  have hn : num ≠ 0 := by
    rintro rfl
    have : (0 : ℚ) < m * 2 ^ e := by positivity
    rw [← hx] at this
    simp at this
  have hone : (m : ℚ) * 2 ^ e * 2 ^ (-e) = m := by
    rw [mul_assoc, ← zpow_add₀ (by norm_num), add_neg_cancel, zpow_zero, mul_one]
  have he : exponentFor num den = e := by
    refine exponentFor_eq (Nat.pos_of_ne_zero hn) hd ⟨h.2.1, ?_, ?_⟩
    · rw [hx, hone]
      have := h.1
      rw [leadingBit] at this
      exact_mod_cast this
    · rw [hx, hone]
      refine h.2.2.2.imp_left fun hl => ?_
      rw [leadingBit] at hl
      exact_mod_cast hl
  have hs : 0 < (shift num den e).2 := shift_pos hd e
  have hr : roundDiv (shift num den e).1 (shift num den e).2 = m := by
    have hq : ((shift num den e).1 : ℚ) / (shift num den e).2 = m := by
      rw [shift_div hd, hx, hone]
    have hc : (shift num den e).1 = m * (shift num den e).2 := by
      rw [div_eq_iff (by positivity)] at hq
      exact_mod_cast hq
    rw [hc, roundDiv_mul m hs]
  have hlt : m ≠ 2 * leadingBit := by
    have := h.1
    omega
  simp only [ofRatio, if_neg hn, he, hr, if_neg hlt, pack, dif_pos h]

end Inlay.Binary64
