import Inlay.Proofs.Argument.Number
import Inlay.Proofs.Json.Reading
import Inlay.Value.Render

/-! Numbers as pages show them: the text of a finite number is that of a number in call arguments,
and an equal number is read back from it. -/

namespace Inlay

namespace Binary64

def toRat? : Binary64 → Option ℚ
  | .finite negative m e _ => some ((if negative then -1 else 1) * (m * 2 ^ e))
  | _ => none

theorem isFinite_iff {x : Binary64} : x.isFinite = true ↔ ∃ q, x.toRat? = some q := by
  cases x <;> simp [isFinite, toRat?]

theorem cast_signed (negative : Bool) (n : Nat) :
    ((signed negative n : Int) : ℚ) = (if negative then -1 else 1) * n := by
  cases negative <;> simp [signed]

theorem ratio_pos (m : Nat) (e : Int) : 0 < (ratio m e).2 := by
  rw [ratio]
  split
  · exact Nat.one_pos
  · exact Nat.pow_pos (by decide)

theorem ratio_div (m : Nat) (e : Int) : ((ratio m e).1 : ℚ) / (ratio m e).2 = m * 2 ^ e := by
  rw [ratio]
  split
  · next h =>
    obtain ⟨k, rfl⟩ := Int.eq_ofNat_of_zero_le h
    simp
  · next h =>
    obtain ⟨k, hk⟩ := Int.eq_ofNat_of_zero_le (a := -e) (by omega)
    obtain rfl : e = -(k : Int) := by omega
    simp [div_eq_mul_inv]

theorem magnitude_eq_natCast_iff {m n : Nat} {e : Int} :
    (m : ℚ) * 2 ^ e = n ↔
      (ratio m e).1 % (ratio m e).2 = 0 ∧ (ratio m e).1 / (ratio m e).2 = n := by
  have hd := ratio_pos m e
  have hd' : ((ratio m e).2 : ℚ) ≠ 0 := by positivity
  rw [← ratio_div, div_eq_iff hd']
  norm_cast
  constructor
  · intro h
    rw [h]
    exact ⟨Nat.mul_mod_left _ _, Nat.mul_div_cancel _ hd⟩
  · rintro ⟨hr, rfl⟩
    exact (Nat.div_mul_cancel (Nat.dvd_of_mod_eq_zero hr)).symm

theorem signed_eq_iff {r : ℚ} (hr : 0 ≤ r) (negative : Bool) (n : Int) :
    (if negative then -1 else 1) * r = n ↔ ∃ k : Nat, r = k ∧ signed negative k = n := by
  constructor
  · intro hn
    have hk : r = n.natAbs := by
      rw [Nat.cast_natAbs, Int.cast_abs, ← hn]
      cases negative <;> simp [abs_of_nonneg hr]
    refine ⟨n.natAbs, hk, ?_⟩
    rw [hk, ← cast_signed] at hn
    exact_mod_cast hn
  · rintro ⟨k, rfl, rfl⟩
    rw [cast_signed]

theorem toInt?_eq_some_iff {x : Binary64} {n : Int} :
    x.toInt? = some n ↔ x.toRat? = some (n : ℚ) := by
  cases x with
  | nan => simp [toInt?, toRat?]
  | infinite negative => simp [toInt?, toRat?]
  | finite negative m e h =>
    have hm : (0 : ℚ) ≤ m * 2 ^ e := by positivity
    rw [toRat?, Option.some.injEq, signed_eq_iff hm, toInt?]
    simp only [magnitude_eq_natCast_iff]
    split
    · next hr => simp [hr]
    · next hr => simp [hr]

end Binary64

namespace Number

def toRat? : Number → Option ℚ
  | .int n => some n
  | .float x => x.toRat?

theorem lt_digitCap {n : Nat} (hn : n < wholeCap) : n < 10 ^ digitCap := by
  have hcap : 15 < digitCap := by decide
  calc n < 10 ^ 15 := hn
    _ < 10 ^ digitCap := Nat.pow_lt_pow_right (by decide) hcap

theorem ofText_intText {n : Int} (hn : n.natAbs < 10 ^ digitCap) :
    ofText (String.ofList (intText n)).toList = .ok (some (.int n)) := by
  rw [String.toList_ofList]
  exact ofText_int (Json.numberText_intText hn)

theorem ofText_text {x : Binary64} (hx : x.isFinite = true) :
    ofText x.text.toList = .ok (some (.float x)) := ofText_float (Json.numberText_float hx)

end Number

namespace Value

theorem numberText_int {n : Int} (hn : n.natAbs < 10 ^ Number.digitCap) :
    numberText (.int n) = .ok (String.ofList (Number.intText n)) := by
  rw [numberText, Number.format, Number.writeInt, Nat.pow_eq, if_pos hn]

theorem numberText_whole {x : Binary64} {n : Int} (hx : x.toRat? = some (n : ℚ))
    (hn : n.natAbs < Number.wholeCap) : numberText (.float x) = numberText (.int n) := by
  rw [numberText_int (Number.lt_digitCap hn), numberText, Number.format,
    Binary64.toInt?_eq_some_iff.2 hx]
  exact if_pos hn

theorem numberText_float {x : Binary64}
    (hx : ∀ n : Int, x.toRat? = some (n : ℚ) → Number.wholeCap ≤ n.natAbs) :
    numberText (.float x) = .ok x.text := by
  rw [numberText, Number.format]
  split
  · next n hn => exact if_neg (not_lt.2 (hx n (Binary64.toInt?_eq_some_iff.1 hn)))
  · rfl

theorem float_reads_back {x : Binary64} {q : ℚ} (hx : x.toRat? = some q) :
    ∃ text n, numberText (.float x) = .ok text ∧ Number.ofText text.toList = .ok (some n) ∧
      n.toRat? = some q := by
  by_cases hwhole : ∃ n : Int, q = n ∧ n.natAbs < Number.wholeCap
  · obtain ⟨n, rfl, hn⟩ := hwhole
    have hcap := Number.lt_digitCap hn
    refine ⟨_, .int n, ?_, Number.ofText_intText hcap, rfl⟩
    rw [numberText_whole hx hn, numberText_int hcap]
  · have hother : ∀ n : Int, x.toRat? = some (n : ℚ) → Number.wholeCap ≤ n.natAbs := by
      intro n hn
      rw [hx, Option.some.injEq] at hn
      exact not_lt.1 fun hlt => hwhole ⟨n, hn, hlt⟩
    have hfinite := Binary64.isFinite_iff.2 ⟨q, hx⟩
    exact ⟨x.text, .float x, numberText_float hother, Number.ofText_text hfinite, hx⟩

/-- Every number that is shown is read back as an equal one: an integer of no more digits than are
read as itself, and a finite float as the rational number that it is. A whole float below
`10 ^ 15` is shown as the integer that it is, and the negative zero as zero. -/
theorem numberText_reads_back :
    (∀ n : Int, (Nat.toDigits 10 n.natAbs).length ≤ Number.digitCap →
      ∃ text, numberText (.int n) = .ok text ∧
        Number.ofText text.toList = .ok (some (.int n))) ∧
    (∀ x : Binary64, x.isFinite = true →
      ∃ q text n, x.toRat? = some q ∧ numberText (.float x) = .ok text ∧
        Number.ofText text.toList = .ok (some n) ∧ n.toRat? = some q) ∧
    (∀ (x : Binary64) (n : Int), x.toRat? = some (n : ℚ) → n.natAbs < 10 ^ 15 →
      numberText (.float x) = numberText (.int n)) ∧
    numberText (.float (.zero true)) = .ok "0" := by
  refine ⟨fun n hn => ?_, fun x hx => ?_, fun x n hx hn => numberText_whole hx hn, ?_⟩
  · have hcap : n.natAbs < 10 ^ Number.digitCap :=
      (Nat.length_toDigits_le_iff (by decide) (by decide)).1 hn
    exact ⟨_, numberText_int hcap, Number.ofText_intText hcap⟩
  · obtain ⟨q, hq⟩ := Binary64.isFinite_iff.1 hx
    obtain ⟨text, n, htext, hread, hn⟩ := float_reads_back hq
    exact ⟨q, text, n, hq, htext, hread, hn⟩
  · have hzero : (Binary64.zero true).toRat? = some ((0 : Int) : ℚ) := by
      simp [Binary64.zero, Binary64.toRat?]
    rw [numberText_whole hzero (by decide), numberText_int (Nat.pow_pos (by decide))]
    rfl

theorem numberText_reads_back_least :
    let x : Binary64 := .finite true 1 (-1074) (by decide)
    let y : Binary64 := .finite true 7999999999999992 (-3) (by decide)
    (Nat.toDigits 10 (-7 : Int).natAbs).length ≤ Number.digitCap ∧ x.isFinite = true ∧
      y.toRat? = some ((-999999999999999 : Int) : ℚ) ∧ (-999999999999999 : Int).natAbs < 10 ^ 15 ∧
      (∃ text, numberText (.int (-7)) = .ok text ∧
        Number.ofText text.toList = .ok (some (.int (-7)))) ∧
      numberText (.float x) = .ok "-5e-324" ∧
      (∃ n, Number.ofText "-5e-324".toList = .ok (some n) ∧ n.toRat? = x.toRat?) ∧
      numberText (.float y) = numberText (.int (-999999999999999)) := by
  intro x y
  obtain ⟨hint, hfloat, hwhole, -⟩ := numberText_reads_back
  have hdigits : (Nat.toDigits 10 (-7 : Int).natAbs).length ≤ Number.digitCap := by decide
  have hy : y.toRat? = some ((-999999999999999 : Int) : ℚ) := by
    simp only [y, Binary64.toRat?]
    norm_num
  have htext : numberText (.float x) = .ok "-5e-324" := by decide +kernel
  obtain ⟨q, text, n, hq, hx, hread, hn⟩ := hfloat x rfl
  obtain rfl : "-5e-324" = text := Except.ok.inj (htext.symm.trans hx)
  exact ⟨hdigits, rfl, hy, by decide, hint (-7) hdigits, htext, ⟨n, hread, hn.trans hq.symm⟩,
    hwhole y _ hy (by decide)⟩

end Value

end Inlay
