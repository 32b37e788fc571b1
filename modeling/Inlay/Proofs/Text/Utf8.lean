import Inlay.Proofs.Except
import Inlay.Text.Utf8

/-! UTF-8 as it is decoded: octets are decoded as the characters that they encode, and are those
that encode them. -/

namespace Inlay.Text.Utf8

theorem isContinuation_iff {o : UInt8} :
    isContinuation o = true ↔ 0x80 ≤ o.toNat ∧ o.toNat < 0xC0 := by
  simp [isContinuation, UInt8.le_iff_toNat_le, UInt8.lt_iff_toNat_lt]

theorem isSecond_iff {a b : UInt8} : isSecond a b = true ↔
    (0x80 ≤ b.toNat ∧ b.toNat < 0xC0) ∧ (a.toNat = 0xE0 → 0xA0 ≤ b.toNat) ∧
      (a.toNat = 0xED → b.toNat < 0xA0) ∧ (a.toNat = 0xF0 → 0x90 ≤ b.toNat) ∧
      (a.toNat = 0xF4 → b.toNat < 0x90) := by
  simp only [isSecond, Bool.and_eq_true, isContinuation_iff, Bool.not_eq_true',
    Bool.or_eq_false_iff,
    Bool.and_eq_false_iff, beq_eq_false_iff_ne, decide_eq_false_iff_not, UInt8.lt_iff_toNat_lt,
    UInt8.le_iff_toNat_le, ne_eq, ← UInt8.toNat_inj, UInt8.reduceToNat]
  omega

theorem toNat_ofNat {n : Nat} (h : n.isValidChar) : (Char.ofNat n).toNat = n := by
  rw [Char.ofNat, dif_pos h]
  rfl

theorem isValidChar_toNat (c : Char) :
    c.toNat < 0xD800 ∨ 0xDFFF < c.toNat ∧ c.toNat < 0x110000 := c.valid

/-! The octets of characters, by the number of octets. -/

theorem encode_one {a : UInt8} (h : a.toNat < 0x80) :
    String.utf8EncodeChar (Char.ofNat a.toNat) = [a] := by
  have hn : (Char.ofNat a.toNat).val.toNat = a.toNat := toNat_ofNat (.inl (by omega))
  simp only [String.utf8EncodeChar, hn]
  rw [if_pos (by omega), UInt8.ofNat_toNat]

theorem encode_two {a b : UInt8} (ha : 0xC2 ≤ a.toNat ∧ a.toNat < 0xE0)
    (hb : 0x80 ≤ b.toNat ∧ b.toNat < 0xC0) :
    String.utf8EncodeChar (assemble (a.toNat % 32) [b]) = [a, b] := by
  rw [assemble, List.foldl_cons, List.foldl_nil]
  generalize hn : a.toNat % 32 * 64 + b.toNat % 64 = n
  have hv : (Char.ofNat n).val.toNat = n := toNat_ofNat (.inl (by omega))
  simp only [String.utf8EncodeChar, hv]
  rw [if_neg (by omega), if_pos (by omega)]
  simp only [List.cons.injEq, and_true, ← UInt8.toNat_inj, UInt8.toNat_ofNat']
  omega

theorem encode_three {a b c : UInt8} (ha : 0xE0 ≤ a.toNat ∧ a.toNat < 0xF0)
    (hb : isSecond a b = true) (hc : 0x80 ≤ c.toNat ∧ c.toNat < 0xC0) :
    String.utf8EncodeChar (assemble (a.toNat % 16) [b, c]) = [a, b, c] := by
  rw [isSecond_iff] at hb
  rw [assemble, List.foldl_cons, List.foldl_cons, List.foldl_nil]
  generalize hn : (a.toNat % 16 * 64 + b.toNat % 64) * 64 + c.toNat % 64 = n
  have hv : (Char.ofNat n).val.toNat = n := by
    refine toNat_ofNat ?_
    rw [Nat.isValidChar]
    omega
  simp only [String.utf8EncodeChar, hv]
  rw [if_neg (by omega), if_neg (by omega), if_pos (by omega)]
  simp only [List.cons.injEq, and_true, ← UInt8.toNat_inj, UInt8.toNat_ofNat']
  omega

theorem encode_four {a b c d : UInt8} (ha : 0xF0 ≤ a.toNat ∧ a.toNat < 0xF5)
    (hb : isSecond a b = true) (hc : 0x80 ≤ c.toNat ∧ c.toNat < 0xC0)
    (hd : 0x80 ≤ d.toNat ∧ d.toNat < 0xC0) :
    String.utf8EncodeChar (assemble (a.toNat % 8) [b, c, d]) = [a, b, c, d] := by
  rw [isSecond_iff] at hb
  rw [assemble, List.foldl_cons, List.foldl_cons, List.foldl_cons, List.foldl_nil]
  generalize hn :
    ((a.toNat % 8 * 64 + b.toNat % 64) * 64 + c.toNat % 64) * 64 + d.toNat % 64 = n
  have hv : (Char.ofNat n).val.toNat = n := by
    refine toNat_ofNat ?_
    rw [Nat.isValidChar]
    omega
  simp only [String.utf8EncodeChar, hv]
  rw [if_neg (by omega), if_neg (by omega), if_neg (by omega)]
  simp only [List.cons.injEq, and_true, ← UInt8.toNat_inj, UInt8.toNat_ofNat']
  omega

/-! A step of the decoder, by the number of octets. -/

section

variable (position : Nat) {a b c d : UInt8} (rest : List UInt8)

theorem decodeAt_one (h : a.toNat < 0x80) : decodeAt position (a :: rest) =
    (Char.ofNat a.toNat :: ·) <$> decodeAt (position + 1) rest := by
  have h1 : a < 0x80 := UInt8.lt_iff_toNat_lt.2 h
  rw [decodeAt.eq_def]
  exact if_pos h1

theorem lead_iff : (¬a < 0x80 ∧ ¬(decide (a < 0xC2) || decide (0xF5 ≤ a)) = true) ↔
    0xC2 ≤ a.toNat ∧ a.toNat < 0xF5 := by
  simp only [Bool.or_eq_true, decide_eq_true_eq, UInt8.lt_iff_toNat_lt, UInt8.le_iff_toNat_le,
    UInt8.reduceToNat]
  omega

theorem decodeAt_two (ha : 0xC2 ≤ a.toNat ∧ a.toNat < 0xE0)
    (hb : 0x80 ≤ b.toNat ∧ b.toNat < 0xC0) : decodeAt position (a :: b :: rest) =
      (assemble (a.toNat % 32) [b] :: ·) <$> decodeAt (position + 2) rest := by
  obtain ⟨h1, h2⟩ := lead_iff.2 ⟨ha.1, by omega⟩
  have h3 : a < 0xE0 := UInt8.lt_iff_toNat_lt.2 ha.2
  rw [decodeAt.eq_def]
  dsimp only
  rw [if_neg h1, if_neg h2, if_pos h3, isContinuation_iff.2 hb]
  rfl

theorem decodeAt_three (ha : 0xE0 ≤ a.toNat ∧ a.toNat < 0xF0) (hb : isSecond a b = true)
    (hc : 0x80 ≤ c.toNat ∧ c.toNat < 0xC0) : decodeAt position (a :: b :: c :: rest) =
      (assemble (a.toNat % 16) [b, c] :: ·) <$> decodeAt (position + 3) rest := by
  obtain ⟨h1, h2⟩ := (lead_iff (a := a)).2 ⟨by omega, by omega⟩
  have h3 : ¬a < 0xE0 := fun h => absurd (UInt8.lt_iff_toNat_lt.1 h) (Nat.not_lt.2 ha.1)
  have h4 : a < 0xF0 := UInt8.lt_iff_toNat_lt.2 ha.2
  rw [decodeAt.eq_def]
  dsimp only
  rw [if_neg h1, if_neg h2, if_neg h3, if_pos h4, hb, isContinuation_iff.2 hc]
  rfl

theorem decodeAt_four (ha : 0xF0 ≤ a.toNat ∧ a.toNat < 0xF5) (hb : isSecond a b = true)
    (hc : 0x80 ≤ c.toNat ∧ c.toNat < 0xC0) (hd : 0x80 ≤ d.toNat ∧ d.toNat < 0xC0) :
    decodeAt position (a :: b :: c :: d :: rest) =
      (assemble (a.toNat % 8) [b, c, d] :: ·) <$> decodeAt (position + 4) rest := by
  obtain ⟨h1, h2⟩ := (lead_iff (a := a)).2 ⟨by omega, by omega⟩
  have h3 : ¬a < 0xE0 := fun h =>
    absurd (UInt8.lt_iff_toNat_lt.1 h) (Nat.not_lt.2 (Nat.le_trans (by decide) ha.1))
  have h4 : ¬a < 0xF0 := fun h => absurd (UInt8.lt_iff_toNat_lt.1 h) (Nat.not_lt.2 ha.1)
  rw [decodeAt.eq_def]
  dsimp only
  rw [if_neg h1, if_neg h2, if_neg h3, if_neg h4, hb, isContinuation_iff.2 hc,
    isContinuation_iff.2 hd]
  rfl

end

theorem decodeAt_encode (position : Nat) (c : Char) (rest : List UInt8) :
    ∃ next, decodeAt position (String.utf8EncodeChar c ++ rest) =
      (c :: ·) <$> decodeAt next rest := by
  have hv := isValidChar_toNat c
  have hc : Char.ofNat c.toNat = c := Char.ofNat_toNat c
  have hn : c.val.toNat = c.toNat := rfl
  generalize c.toNat = n at hv hc hn
  subst hc
  simp only [String.utf8EncodeChar, hn]
  split
  · next h1 =>
    refine ⟨position + 1, ?_⟩
    rw [List.cons_append, List.nil_append, decodeAt_one position rest
      (by rw [UInt8.toNat_ofNat']; omega), UInt8.toNat_ofNat', Nat.mod_eq_of_lt (by omega)]
  split
  · next h1 h2 =>
    refine ⟨position + 2, ?_⟩
    rw [List.cons_append, List.cons_append, List.nil_append, decodeAt_two position rest
      (by rw [UInt8.toNat_ofNat']; omega) (by rw [UInt8.toNat_ofNat']; omega), assemble]
    refine congrArg (fun m => (Char.ofNat m :: ·) <$> _) ?_
    simp only [List.foldl_cons, List.foldl_nil, UInt8.toNat_ofNat']
    omega
  split
  · next h1 h2 h3 =>
    refine ⟨position + 3, ?_⟩
    rw [List.cons_append, List.cons_append, List.cons_append, List.nil_append,
      decodeAt_three position rest (by rw [UInt8.toNat_ofNat']; omega)
        (by simp only [isSecond_iff, UInt8.toNat_ofNat']; omega)
        (by rw [UInt8.toNat_ofNat']; omega), assemble]
    refine congrArg (fun m => (Char.ofNat m :: ·) <$> _) ?_
    simp only [List.foldl_cons, List.foldl_nil, UInt8.toNat_ofNat']
    omega
  · next h1 h2 h3 =>
    refine ⟨position + 4, ?_⟩
    rw [List.cons_append, List.cons_append, List.cons_append, List.cons_append, List.nil_append,
      decodeAt_four position rest (by rw [UInt8.toNat_ofNat']; omega)
        (by simp only [isSecond_iff, UInt8.toNat_ofNat']; omega)
        (by rw [UInt8.toNat_ofNat']; omega) (by rw [UInt8.toNat_ofNat']; omega), assemble]
    refine congrArg (fun m => (Char.ofNat m :: ·) <$> _) ?_
    simp only [List.foldl_cons, List.foldl_nil, UInt8.toNat_ofNat']
    omega

theorem decodeAt_flatMap (position : Nat) (cs : List Char) :
    decodeAt position (cs.flatMap String.utf8EncodeChar) = .ok cs := by
  induction cs generalizing position with
  | nil => rfl
  | cons c cs ih =>
    obtain ⟨next, h⟩ := decodeAt_encode position c (cs.flatMap String.utf8EncodeChar)
    rw [List.flatMap_cons, h, ih]
    rfl

theorem flatMap_of_decodeAt {position : Nat} {octets : List UInt8} {cs : List Char}
    (h : decodeAt position octets = .ok cs) : octets = cs.flatMap String.utf8EncodeChar := by
  fun_induction decodeAt position octets generalizing cs with
  | case1 => cases h; rfl
  | case2 position a rest h1 ih =>
    obtain ⟨tail, ht, rfl⟩ := Except.of_map h
    rw [List.flatMap_cons, encode_one (UInt8.lt_iff_toNat_lt.1 h1), ← ih ht]
    rfl
  | case6 position a h1 h2 h3 b rest hb ih =>
    obtain ⟨tail, ht, rfl⟩ := Except.of_map h
    have ha := lead_iff.1 ⟨h1, h2⟩
    rw [UInt8.lt_iff_toNat_lt] at h3
    rw [Bool.not_eq_true', Bool.not_eq_false] at hb
    rw [List.flatMap_cons, encode_two ⟨ha.1, h3⟩ (isContinuation_iff.1 hb), ← ih ht]
    rfl
  | case11 position a h1 h2 h3 h4 b hb c rest hc ih =>
    obtain ⟨tail, ht, rfl⟩ := Except.of_map h
    rw [UInt8.lt_iff_toNat_lt] at h3 h4
    rw [Bool.not_eq_true', Bool.not_eq_false] at hb hc
    rw [List.flatMap_cons, encode_three ⟨Nat.le_of_not_lt h3, h4⟩ hb (isContinuation_iff.1 hc),
      ← ih ht]
    rfl
  | case18 position a h1 h2 h3 h4 b hb c hc d rest hd ih =>
    obtain ⟨tail, ht, rfl⟩ := Except.of_map h
    have ha := lead_iff.1 ⟨h1, h2⟩
    rw [UInt8.lt_iff_toNat_lt] at h4
    rw [Bool.not_eq_true', Bool.not_eq_false] at hb hc hd
    rw [List.flatMap_cons, encode_four ⟨Nat.le_of_not_lt h4, ha.2⟩ hb (isContinuation_iff.1 hc)
      (isContinuation_iff.1 hd), ← ih ht]
    rfl
  | _ => cases h

theorem decode_eq_ok_iff {octets : List UInt8} {cs : List Char} :
    decode octets = .ok cs ↔ octets = cs.flatMap String.utf8EncodeChar := by
  refine ⟨flatMap_of_decodeAt, ?_⟩
  rintro rfl
  exact decodeAt_flatMap 0 cs

end Inlay.Text.Utf8
