import Inlay.Proofs.Argument.Literal
import Inlay.Proofs.Json.Lines

/-! Numbers as they are written in JSON documents are numbers of call arguments too, and the same
numbers. -/

namespace Inlay.Number

theorem digit?_of_isDigit {c : Char} (h : c.isDigit = true) :
    Text.digit? c = some (c.toNat - 0x30) := by
  simp only [Char.isDigit, Bool.and_eq_true, decide_eq_true_eq, UInt32.le_iff_toNat_le, ge_iff_le,
    Char.toNat_val, Char.reduceToNat] at h
  rw [Text.digit?, Text.digitZeros, List.find?_cons_of_pos]
  · rfl
  · simp only [Bool.and_eq_true, decide_eq_true_eq]
    omega

theorem splitDigits_append {ds rest : List Char} (hd : ∀ c ∈ ds, c.isDigit = true)
    (hr : ∀ c, rest.head? = some c → Text.digit? c = none) :
    splitDigits (ds ++ rest) = (Json.digitValues ds, rest) := by
  induction ds with
  | nil =>
    cases rest with
    | nil => rfl
    | cons c rest => simp only [List.nil_append, splitDigits, hr c rfl]; rfl
  | cons c ds ih =>
    have htail := ih fun d h => hd d (List.mem_cons_of_mem _ h)
    simp only [List.cons_append, splitDigits, digit?_of_isDigit (hd c List.mem_cons_self), htail]
    rfl

theorem splitDigits_of_digits {ds : List Char} (hd : ∀ c ∈ ds, c.isDigit = true) :
    splitDigits ds = (Json.digitValues ds, []) := by
  have h : splitDigits (ds ++ []) = (Json.digitValues ds, []) := splitDigits_append hd nofun
  rwa [List.append_nil] at h

theorem exponent?_of_exponent {power : List Char} {n : Int} (h : Json.Exponent power n) :
    exponent? power = some n := by
  cases h with
  | absent => rfl
  | @digits mark sign ds hm hs hd =>
    have hsign := Json.splitSign_append hs hd []
    rw [List.append_nil] at hsign
    have hmark : (mark == 'e' || mark == 'E') = true := by
      rcases hm with rfl | rfl <;> rfl
    obtain ⟨v, vs, hv⟩ :=
      List.exists_cons_of_ne_nil (fun hn => hd.1 (Json.digitValues_eq_nil.1 hn))
    rw [exponent?, if_pos hmark, hsign, ← Json.ofDigits_digitValues]
    simp only [splitDigits_of_digits hd.2, hv]

theorem mark_of_head {power : List Char} {n : Int} (he : Json.Exponent power n) {c : Char}
    (hc : power.head? = some c) : c = 'e' ∨ c = 'E' := by
  cases he with
  | absent => cases hc
  | digits hm => exact Option.some.inj hc ▸ hm

theorem digit?_of_head {part digits power : List Char} {n : Int} (hp : Json.Fraction part digits)
    (he : Json.Exponent power n) :
    ∀ c, (part ++ power).head? = some c → Text.digit? c = none := by
  intro c hc
  cases hp with
  | absent => rcases mark_of_head he hc with rfl | rfl <;> decide
  | digits =>
    cases hc
    decide

theorem fraction?_of_fraction {part digits power : List Char} {n : Int}
    (hp : Json.Fraction part digits) (he : Json.Exponent power n) :
    fraction? (part ++ power) = some (Json.digitValues digits, n) := by
  have hpower := exponent?_of_exponent he
  cases hp with
  | absent =>
    rw [List.nil_append, fraction?, hpower]
    · rfl
    · rintro rest rfl
      exact absurd (mark_of_head he rfl) (by decide)
  | digits hd =>
    have hstop : ∀ c, power.head? = some c → Text.digit? c = none := digit?_of_head .absent he
    rw [List.cons_append, fraction?]
    simp only [splitDigits_append hd.2 hstop, hpower, Option.map_some]

theorem splitSign_minus (negative : Bool) {ds : List Char} (hd : Json.AreDigits ds)
    (rest : List Char) :
    splitSign (Json.minus negative ++ (ds ++ rest)) = (negative, ds ++ rest) := by
  have hsign : Json.minus negative ∈ [[], ['+'], ['-']] := by
    cases negative <;> simp [Json.minus]
  rw [Json.splitSign_append hsign hd]
  cases negative <;> rfl

theorem dropFinalLineFeed_of_isLine {cs : List Char} (h : Json.IsLine cs) :
    dropFinalLineFeed cs = cs :=
  if_neg fun hl => h.notMem.2 (List.mem_of_getLast? hl)

theorem ofText_int {cs : List Char} {n : Int} (h : Json.NumberText cs (.int n)) :
    ofText cs = .ok (some (.int n)) := by
  have hline := dropFinalLineFeed_of_isLine h.isLine
  cases h with
  | @int negative ds hd hl =>
    have hsign := splitSign_minus negative ⟨hd.ne_nil, hd.digits⟩ []
    rw [List.append_nil] at hsign
    have hv : (Json.digitValues ds).isEmpty = false := by
      simpa [Json.digitValues_eq_nil] using hd.ne_nil
    rw [ofText, hline, hsign]
    simp only [splitDigits_of_digits hd.digits, hv, readNat, Json.length_digitValues, if_pos hl,
      Json.ofDigits_digitValues]
    rfl

theorem ofText_float {cs : List Char} {x : Binary64} (h : Json.NumberText cs (.float x)) :
    ofText cs = .ok (some (.float x)) := by
  have hline := dropFinalLineFeed_of_isLine h.isLine
  cases h with
  | @float negative ds part digits power n hd hp he hne =>
    have hv : (Json.digitValues ds).isEmpty = false := by
      simpa [Json.digitValues_eq_nil] using hd.ne_nil
    have hrest : (part ++ power).isEmpty = false := by
      rw [List.isEmpty_eq_false_iff, Ne, List.append_eq_nil_iff]
      exact fun hn => hne.elim (· hn.1) (· hn.2)
    rw [ofText, hline, splitSign_minus negative ⟨hd.ne_nil, hd.digits⟩]
    simp only [splitDigits_append hd.digits (digit?_of_head hp he), hrest, hv,
      fraction?_of_fraction hp he, Json.digitValues_append, Json.ofDigits_digitValues,
      Json.length_digitValues]
    rfl

end Inlay.Number
