import Inlay.Proofs.Argument.Literal

/-! Tokens that cannot be read: the integers of too many digits, and no others. -/

namespace Inlay

namespace Number

theorem splitDigits_eq_iff {cs : List Char} {digits : List Nat} :
    splitDigits cs = (digits, []) ↔ cs.mapM Text.digit? = some digits := by
  induction cs generalizing digits with
  | nil => simp [splitDigits, eq_comm]
  | cons c cs ih =>
    obtain ⟨ds, tail, hs⟩ : ∃ ds tail, splitDigits cs = (ds, tail) := ⟨_, _, rfl⟩
    rw [splitDigits, List.mapM_cons]
    cases Text.digit? c with
    | none => simp
    | some d =>
      simp only [hs, Prod.mk.injEq, Option.bind_eq_bind, Option.bind_some, Option.bind_eq_some_iff,
        Option.pure_def, Option.some.injEq]
      simp only [← ih, hs, Prod.mk.injEq]
      constructor
      · rintro ⟨rfl, rfl⟩
        exact ⟨ds, ⟨rfl, rfl⟩, rfl⟩
      · rintro ⟨_, ⟨rfl, rfl⟩, rfl⟩
        exact ⟨rfl, rfl⟩

theorem digits?_eq_some_iff {cs : List Char} {digits : List Nat} :
    Text.digits? cs = some digits ↔ splitDigits cs = (digits, []) ∧ digits ≠ [] := by
  cases cs with
  | nil => simp [Text.digits?, splitDigits, eq_comm]
  | cons c cs =>
    have hd : Text.digits? (c :: cs) = (c :: cs).mapM Text.digit? := rfl
    rw [hd, splitDigits_eq_iff, iff_self_and]
    rintro h rfl
    rw [← splitDigits_eq_iff, splitDigits] at h
    cases hc : Text.digit? c with
    | none => simp [hc] at h
    | some d => simp [hc] at h

theorem ofText_eq_ok_iff {cs : List Char} (ht : Text.IsTrimmed cs) :
    (∃ n, ofText cs = .ok n) ↔
      ∀ digits, Text.digits? (splitSign cs).2 = some digits → digits.length ≤ digitCap := by
  obtain ⟨negative, body, hs⟩ : ∃ negative body, splitSign cs = (negative, body) := ⟨_, _, rfl⟩
  obtain ⟨whole, rest, hd⟩ : ∃ whole rest, splitDigits body = (whole, rest) := ⟨_, _, rfl⟩
  have hdigits : ∀ digits, Text.digits? body = some digits ↔
      (whole = digits ∧ rest = []) ∧ digits ≠ [] := by
    intro digits
    rw [digits?_eq_some_iff, hd, Prod.mk.injEq]
  rw [ofText, dropFinalLineFeed_of_isTrimmed ht, hs]
  simp only [hd, hdigits]
  by_cases hr : rest = [] ∧ whole ≠ []
  · obtain ⟨rfl, hw⟩ := hr
    rw [if_pos (by simp [hw]), readNat]
    split
    · next hl => exact ⟨fun _ digits h => h.1.1 ▸ hl, fun _ => ⟨_, rfl⟩⟩
    · next hl =>
      constructor
      · rintro ⟨n, ⟨⟩⟩
      · exact fun h => absurd (h whole ⟨⟨rfl, rfl⟩, hw⟩) hl
  · rw [if_neg (by simpa using hr)]
    refine ⟨fun _ digits h => ?_, fun _ => ?_⟩
    · exact absurd ⟨h.1.2, h.1.1 ▸ h.2⟩ hr
    · split
      · split
        · exact ⟨_, rfl⟩
        · exact ⟨_, rfl⟩
      · exact ⟨_, rfl⟩

end Number

namespace Argument

def Overlong (token : List Char) : Prop :=
  ∃ digits, Text.digits? (Number.splitSign token).2 = some digits ∧ Number.digitCap < digits.length

theorem Overlong.head {c : Char} {cs : List Char} (h : Overlong (c :: cs)) :
    c = '-' ∨ c = '+' ∨ Text.isDigit c = true := by
  obtain ⟨digits, hd, -⟩ := h
  by_cases hm : c = '-'
  · exact .inl hm
  by_cases hp : c = '+'
  · exact .inr (.inl hp)
  rw [Number.splitSign_cons hm hp, Number.digits?_eq_some_iff, Number.splitDigits] at hd
  cases hc : Text.digit? c with
  | none =>
    rw [hc] at hd
    cases hd.1
  | some d => exact .inr (.inr (by rw [Text.isDigit, hc]; rfl))

theorem isDigit_of_isQuote {c : Char} (h : isQuote c = true) : Text.isDigit c = false := by
  rcases Bool.or_eq_true_iff.1 h with h | h
  all_goals
    rw [beq_iff_eq.1 h]
    decide

theorem not_overlong_of_string? {token : List Char} {s : String} (h : string? token = some s) :
    ¬Overlong token := by
  cases token with
  | nil => cases h
  | cons c cs =>
    rw [string?] at h
    split at h
    · next hq =>
      intro ho
      rcases ho.head with rfl | rfl | hd
      · exact absurd hq.1 (by decide)
      · exact absurd hq.1 (by decide)
      · rw [isDigit_of_isQuote hq.1] at hd
        cases hd
    · cases h

theorem not_overlong_of_reference? {token : List Char} (ht : Text.IsTrimmed token)
    {r : String × List String} (h : reference? token = some r) : ¬Overlong token := by
  cases token with
  | nil => cases h
  | cons c cs =>
    rw [reference?, Number.dropFinalLineFeed_of_isTrimmed ht] at h
    intro ho
    have hl : isLowerLetter c = true := by
      by_contra hl
      rw [List.takeWhile_cons_of_neg hl] at h
      cases h
    have ha : c.isAlpha = true := isAlpha_of_isLower hl
    rcases ho.head with rfl | rfl | hd
    · exact absurd ha (by decide)
    · exact absurd ha (by decide)
    · rw [Text.isDigit, Number.digit?_of_isAlpha ha] at hd
      cases hd

/-- A trimmed token is read unless it is an overlong integer. -/
theorem ofToken_eq_ok_iff {token : List Char} (ht : Text.IsTrimmed token) :
    (∃ a, ofToken token = .ok a) ↔ ¬Overlong token := by
  rw [ofToken]
  cases hs : string? token with
  | some s => exact ⟨fun _ => not_overlong_of_string? hs, fun _ => ⟨_, rfl⟩⟩
  | none =>
    cases hr : reference? token with
    | some r => exact ⟨fun _ => not_overlong_of_reference? ht hr, fun _ => ⟨_, rfl⟩⟩
    | none =>
      have hn := Number.ofText_eq_ok_iff ht
      have ho : ¬Overlong token ↔ ∃ n, Number.ofText token = .ok n := by
        rw [hn, Overlong]
        simp only [not_exists, not_and, not_lt]
      rw [ho]
      cases Number.ofText token with
      | error f =>
        constructor
        · rintro ⟨a, ⟨⟩⟩
        · rintro ⟨n, ⟨⟩⟩
      | ok n =>
        refine ⟨fun _ => ⟨n, rfl⟩, fun _ => ?_⟩
        cases n with
        | some n => exact ⟨_, rfl⟩
        | none =>
          cases keyword? token with
          | some v => exact ⟨_, rfl⟩
          | none => exact ⟨_, rfl⟩

end Argument

end Inlay
