import Inlay.Proofs.Except
import Inlay.Proofs.Json.Grammar

/-! Strings of JSON texts: what is read of them is what the grammar says that they spell. -/

namespace Inlay.Json

/-! Units. -/

theorem hexDigit?_eq_some_iff {c : Char} {d : Nat} : hexDigit? c = some d ↔ IsHexDigit c d := by
  constructor
  · intro h
    have hc : c.toNat < 0x80 := by
      have hle : ∀ {a b : Char}, a ≤ b → a.toNat ≤ b.toNat := fun h => h
      rw [hexDigit?] at h
      split at h
      · next hr => exact Nat.lt_of_le_of_lt (hle hr.2) (by decide)
      split at h
      · next hr => exact Nat.lt_of_le_of_lt (hle hr.2) (by decide)
      split at h
      · next hr => exact Nat.lt_of_le_of_lt (hle hr.2) (by decide)
      · cases h
    have hall : ∀ n < 0x80, ∀ d ∈ hexDigit? (Char.ofNat n), d < 16 ∧
        (Char.ofNat n = Nat.digitChar d ∨ Char.ofNat n = (Nat.digitChar d).toUpper) := by decide
    rw [← Char.ofNat_toNat c] at h ⊢
    exact hall c.toNat hc d h
  · rintro ⟨hd, hc⟩
    have hall : ∀ d < 16, hexDigit? (Nat.digitChar d) = some d ∧
        hexDigit? (Nat.digitChar d).toUpper = some d := by decide
    rcases hc with rfl | rfl
    · exact (hall d hd).1
    · exact (hall d hd).2

theorem hexUnit?_eq_some_iff {a b c d : Char} {n : Nat} :
    hexUnit? a b c d = some n ↔ IsUnit [a, b, c, d] n := by
  simp only [hexUnit?, Option.bind_eq_bind, Option.bind_eq_some_iff, hexDigit?_eq_some_iff]
  constructor
  · rintro ⟨w, hw, x, hx, y, hy, z, hz, h⟩
    have hn : n = w * 0x1000 + x * 0x100 + y * 0x10 + z := by
      have := Option.some.inj h
      omega
    exact hn ▸ .digits hw hx hy hz
  · rintro ⟨hw, hx, hy, hz⟩
    refine ⟨_, hw, _, hx, _, hy, _, hz, congrArg some ?_⟩
    omega

theorem readUnit_eq_ok_iff {cs rest : List Char} {n : Nat} :
    readUnit cs = .ok (n, rest) ↔
      ∃ unit, IsUnit unit n ∧ rest ≠ [] ∧ cs = 'u' :: (unit ++ rest) := by
  constructor
  · intro h
    unfold readUnit at h
    split at h
    · next a b c d e tail =>
      split at h
      · next m hm =>
        cases h
        exact ⟨[a, b, c, d], hexUnit?_eq_some_iff.1 hm, List.cons_ne_nil e tail, rfl⟩
      · cases h
    · cases h
  · rintro ⟨_, ⟨hw, hx, hy, hz⟩, hr, rfl⟩
    obtain ⟨e, rest, rfl⟩ := List.exists_cons_of_ne_nil hr
    have hu := hexUnit?_eq_some_iff.2 (.digits hw hx hy hz)
    simp [readUnit, hu]

theorem IsUnit.length_eq {unit : List Char} {n : Nat} (h : IsUnit unit n) : unit.length = 4 := by
  cases h
  rfl

theorem isLowSurrogate_of_high {n : Nat} (h : isHighSurrogate n = true) :
    isLowSurrogate n = false := by
  simp only [isHighSurrogate, isLowSurrogate, Bool.and_eq_true, Bool.and_eq_false_iff,
    decide_eq_true_eq, decide_eq_false_iff_not] at h ⊢
  omega

theorem charOfUnit_of_half {n : Nat} (h : isHighSurrogate n = true ∨ isLowSurrogate n = true) :
    charOfUnit n = Char.ofNat 0xFFFD := by
  rw [charOfUnit, if_pos (by simpa using h)]

/-! Pairs. -/

theorem readPair_unit {unit rest : List Char} (high : Nat) {n : Nat} (hu : IsUnit unit n)
    (hr : rest ≠ []) : readPair high ('\\' :: 'u' :: (unit ++ rest)) =
      if isLowSurrogate n then .ok (charOfPair high n, rest)
      else .ok (charOfUnit high, '\\' :: 'u' :: (unit ++ rest)) := by
  have hlength : ¬(unit ++ rest).length < 5 := by
    have hpos := List.length_pos_iff.2 hr
    rw [List.length_append, hu.length_eq]
    omega
  rw [readPair, if_neg hlength, readUnit_eq_ok_iff.2 ⟨unit, hu, hr, rfl⟩]

theorem readPair_alone {cs es : List Char} (h : StringBody cs es) (hl : ¬StartsLow cs) (high : Nat)
    (rest : List Char) :
    readPair high (cs ++ '"' :: rest) = .ok (charOfUnit high, cs ++ '"' :: rest) := by
  have hunit : ∀ {unit tail : List Char} {n : Nat}, cs = '\\' :: 'u' :: (unit ++ tail) →
      IsUnit unit n →
      readPair high (cs ++ '"' :: rest) = .ok (charOfUnit high, cs ++ '"' :: rest) := by
    rintro unit tail n rfl hu
    have hn : ¬isLowSurrogate n = true := fun hn => hl ⟨unit, n, tail, rfl, hu, hn⟩
    rw [List.cons_append, List.cons_append, List.append_assoc, readPair_unit high hu (by simp),
      if_neg hn]
  cases h with
  | nil => exact readPair.eq_2 high _ nofun
  | @plain c cs es _ _ hb _ =>
    exact readPair.eq_2 high _ fun tail ht => hb (List.cons.inj ht).1
  | @escape mark c cs es hm _ =>
    refine readPair.eq_2 high _ fun tail ht => ?_
    rw [List.cons_append, List.cons_append, List.cons.injEq, List.cons.injEq] at ht
    rw [ht.2.1] at hm
    cases hm
  | unit hu => exact hunit rfl hu
  | pair hu => exact hunit rfl hu
  | half hu => exact hunit rfl hu

theorem of_readPair {high : Nat} {cs rest : List Char} {c : Char}
    (h : readPair high cs = .ok (c, rest)) :
    (∃ unit low, IsUnit unit low ∧ isLowSurrogate low = true ∧ rest ≠ [] ∧
      cs = '\\' :: 'u' :: (unit ++ rest) ∧ c = charOfPair high low) ∨
    (c = charOfUnit high ∧ rest = cs ∧
      ∀ body tail, cs = body ++ '"' :: tail → ¬StartsLow body) := by
  have halone : (∀ low after, readUnit cs.tail = .ok (low, after) → isLowSurrogate low = false) →
      ∀ body tail, cs = body ++ '"' :: tail → ¬StartsLow body := by
    rintro hlow body tail rfl ⟨unit, low, more, rfl, hu, hl⟩
    have hread := readUnit_eq_ok_iff.2
      ⟨unit, hu, List.append_ne_nil_of_right_ne_nil more (List.cons_ne_nil '"' tail), rfl⟩
    have hf := hlow low (more ++ '"' :: tail) (by simpa using hread)
    rw [hf] at hl
    cases hl
  unfold readPair at h
  split at h
  · next after =>
    split at h
    · next hlt =>
      obtain ⟨rfl, rfl⟩ := Prod.mk.inj (Except.ok.inj h)
      refine .inr ⟨rfl, rfl, halone fun low more hread => ?_⟩
      obtain ⟨unit, hu, hne, he⟩ := readUnit_eq_ok_iff.1 hread
      have hlength := congrArg List.length he
      have hpos := List.length_pos_iff.2 hne
      simp only [List.tail_cons, List.length_cons, List.length_append, hu.length_eq] at hlength
      omega
    · split at h
      · next low more hread =>
        split at h
        · next hl =>
          obtain ⟨rfl, rfl⟩ := Prod.mk.inj (Except.ok.inj h)
          obtain ⟨unit, hu, hne, he⟩ := readUnit_eq_ok_iff.1 hread
          exact .inl ⟨unit, low, hu, hl, hne, congrArg _ he, rfl⟩
        · next hl =>
          obtain ⟨rfl, rfl⟩ := Prod.mk.inj (Except.ok.inj h)
          refine .inr ⟨rfl, rfl, halone fun low' more' hread' => ?_⟩
          cases hread.symm.trans hread'
          exact Bool.not_eq_true _ ▸ hl
      · cases h
  · next hno =>
    obtain ⟨rfl, rfl⟩ := Prod.mk.inj (Except.ok.inj h)
    refine .inr ⟨rfl, rfl, ?_⟩
    rintro body tail rfl ⟨unit, low, more, rfl, -⟩
    exact hno _ rfl

/-! Strings. -/

theorem readEscape_unit (opening : List Char) {unit rest : List Char} {n : Nat} (hu : IsUnit unit n)
    (hr : rest ≠ []) : readEscape opening ('u' :: (unit ++ rest)) =
      if isHighSurrogate n then readPair n rest else .ok (charOfUnit n, rest) := by
  rw [readEscape, if_pos rfl, readUnit_eq_ok_iff.2 ⟨unit, hu, hr, rfl⟩]

theorem readChars_backslash {opening rest after : List Char} {e : Char}
    (h : readEscape opening rest = .ok (e, after)) :
    readChars opening ('\\' :: rest) =
      (fun (es, tail) => (e :: es, tail)) <$> readChars opening after := by
  rw [readChars, if_neg (by decide), if_pos rfl]
  split
  · next he =>
    rw [h] at he
    cases he
    rfl
  · next he =>
    rw [h] at he
    cases he

theorem readChars_of_body {cs es : List Char} (h : StringBody cs es) (opening rest : List Char) :
    readChars opening (cs ++ '"' :: rest) = .ok (es, rest) := by
  have hne : ∀ cs : List Char, cs ++ '"' :: rest ≠ [] := fun cs => by simp
  induction h with
  | nil => rw [List.nil_append, readChars, if_pos rfl]
  | plain hc hq hb _ ih =>
    rw [List.cons_append, readChars, if_neg hq, if_neg hb, if_neg (Nat.not_lt.2 hc), ih]
    rfl
  | @escape mark c cs es hm _ ih =>
    have hu : mark ≠ 'u' := by
      rintro rfl
      cases hm
    have he : readEscape opening (mark :: (cs ++ '"' :: rest)) = .ok (c, cs ++ '"' :: rest) := by
      rw [readEscape, if_neg hu, hm]
    rw [List.cons_append, List.cons_append, readChars_backslash he, ih]
    rfl
  | @unit unit cs es n hu hh hl _ ih =>
    have he := readEscape_unit opening hu (hne cs)
    rw [hh, if_neg Bool.false_ne_true, charOfUnit, hh, hl, if_neg (by simp)] at he
    rw [List.cons_append, List.cons_append, List.append_assoc, readChars_backslash he, ih]
    rfl
  | @pair unit unit' cs es high low hu hu' hh hl _ ih =>
    have hnext : '\\' :: 'u' :: (unit' ++ (cs ++ '"' :: rest)) ≠ [] := List.cons_ne_nil _ _
    have he := readEscape_unit opening hu hnext
    rw [if_pos hh, readPair_unit high hu' (hne cs), if_pos hl] at he
    simp only [List.cons_append, List.append_assoc]
    rw [readChars_backslash he, ih]
    rfl
  | @half unit cs es n hu hn hb ih =>
    have he : readEscape opening ('u' :: (unit ++ (cs ++ '"' :: rest))) =
        .ok (Char.ofNat 0xFFFD, cs ++ '"' :: rest) := by
      rw [readEscape_unit opening hu (hne cs)]
      rcases hn with ⟨hh, hl⟩ | hl
      · rw [if_pos hh, readPair_alone hb hl, charOfUnit_of_half (.inl hh)]
      · have hh : ¬isHighSurrogate n = true := fun hh => by
          rw [isLowSurrogate_of_high hh] at hl
          cases hl
        rw [if_neg hh, charOfUnit_of_half (.inr hl)]
    rw [List.cons_append, List.cons_append, List.append_assoc, readChars_backslash he, ih]
    rfl

theorem body_of_readEscape {opening cs body es tail : List Char} {c : Char}
    (h : readEscape opening cs = .ok (c, body ++ '"' :: tail)) (hb : StringBody body es) :
    ∃ front, cs = front ++ '"' :: tail ∧ StringBody ('\\' :: front) (c :: es) := by
  unfold readEscape at h
  split at h
  · cases h
  · next mark rest =>
    split at h
    · next hm =>
      subst hm
      split at h
      · next n after hread =>
        obtain ⟨unit, hu, hne, he⟩ := readUnit_eq_ok_iff.1 hread
        rw [he]
        split at h
        · next hh =>
          rcases of_readPair h with ⟨unit', low, hu', hl, -, rfl, hc⟩ | ⟨hc, he, hl⟩
          · rw [hc]
            refine ⟨'u' :: (unit ++ '\\' :: 'u' :: (unit' ++ body)), ?_, .pair hu hu' hh hl hb⟩
            simp
          · rw [hc, charOfUnit_of_half (.inl hh), ← he]
            refine ⟨'u' :: (unit ++ body), ?_, .half hu (.inl ⟨hh, hl body tail he.symm⟩) hb⟩
            simp
        · next hh =>
          obtain ⟨rfl, rfl⟩ := Prod.mk.inj (Except.ok.inj h)
          refine ⟨'u' :: (unit ++ body), by simp, ?_⟩
          rw [Bool.not_eq_true] at hh
          cases hl : isLowSurrogate n with
          | true =>
            rw [charOfUnit_of_half (.inr hl)]
            exact .half hu (.inr hl) hb
          | false =>
            rw [charOfUnit, hh, hl, if_neg (by simp)]
            exact .unit hu hh hl hb
      · cases h
    · split at h
      · next e he =>
        cases h
        exact ⟨mark :: body, rfl, .escape he hb⟩
      · cases h

theorem body_of_readChars {opening cs es rest : List Char}
    (h : readChars opening cs = .ok (es, rest)) :
    ∃ body, StringBody body es ∧ cs = body ++ '"' :: rest := by
  fun_induction readChars opening cs generalizing es with
  | case1 => cases h
  | case2 =>
    cases h
    exact ⟨[], .nil, rfl⟩
  | case3 tail e after he _ _ ih =>
    obtain ⟨⟨fs, more⟩, hread, heq⟩ := Except.of_map h
    obtain ⟨rfl, rfl⟩ := Prod.mk.inj heq
    obtain ⟨body, hb, rfl⟩ := ih hread
    obtain ⟨front, rfl, hf⟩ := body_of_readEscape he hb
    exact ⟨'\\' :: front, hf, rfl⟩
  | case4 => cases h
  | case5 => cases h
  | case6 c tail hq hb hc ih =>
    obtain ⟨⟨fs, more⟩, hread, heq⟩ := Except.of_map h
    obtain ⟨rfl, rfl⟩ := Prod.mk.inj heq
    obtain ⟨body, hbody, rfl⟩ := ih hread
    exact ⟨c :: body, .plain (Nat.le_of_not_lt hc) hq hb hbody, rfl⟩

theorem readText_of_body {cs es : List Char} (h : StringBody cs es) (rest : List Char) :
    readText (quoted cs ++ rest) = .ok (String.ofList es, rest) := by
  have hq : quoted cs ++ rest = '"' :: (cs ++ '"' :: rest) := by simp [quoted]
  rw [hq, readText, List.tail_cons, readChars_of_body h]
  rfl

theorem body_of_readText {cs rest : List Char} {s : String}
    (h : readText ('"' :: cs) = .ok (s, rest)) :
    ∃ body es, StringBody body es ∧ s = String.ofList es ∧ '"' :: cs = quoted body ++ rest := by
  obtain ⟨⟨es, tail⟩, hread, heq⟩ := Except.of_map h
  obtain ⟨rfl, rfl⟩ := Prod.mk.inj heq
  obtain ⟨body, hb, hc⟩ := body_of_readChars hread
  refine ⟨body, es, hb, rfl, ?_⟩
  rw [List.tail_cons] at hc
  simp [quoted, hc]

end Inlay.Json
