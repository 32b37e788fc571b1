import Inlay.Proofs.Except
import Inlay.Proofs.Json.Grammar

/-! Numbers of JSON texts: what is read of them is what the grammar says that they spell. -/

namespace Inlay.Json

def digitValues (ds : List Char) : List Nat := ds.map fun c => c.toNat - 0x30

theorem ofDigits_digitValues (ds : List Char) : Number.ofDigits (digitValues ds) = numberOf ds := by
  rw [digitValues, Number.ofDigits, List.foldl_map, numberOf, Nat.ofDigitChars_eq_foldl]
  simp only [Nat.mul_comm]
  rfl

theorem digitValues_append (ds es : List Char) :
    digitValues ds ++ digitValues es = digitValues (ds ++ es) := List.map_append.symm

theorem length_digitValues (ds : List Char) : (digitValues ds).length = ds.length := by
  simp [digitValues]

theorem digitValues_eq_nil {ds : List Char} : digitValues ds = [] ↔ ds = [] := List.map_eq_nil_iff

theorem isDigit_eq (c : Char) : isDigit c = c.isDigit := by
  rw [isDigit, Char.isDigit, Bool.eq_iff_iff]
  simp only [Bool.and_eq_true, decide_eq_true_eq]
  exact Iff.rfl

theorem isDigit_of_head {ds rest : List Char} (hd : Number.IsWhole ds) {c : Char}
    (hc : (ds ++ rest).head? = some c) : c.isDigit = true := by
  obtain ⟨d, ds', rfl⟩ := List.exists_cons_of_ne_nil hd.ne_nil
  obtain rfl : d = c := Option.some.inj hc
  exact hd.digits d List.mem_cons_self

/-! What is spelled is read. -/

def Stops (rest : List Char) : Prop :=
  ∀ c, rest.head? = some c → c.isDigit = false ∧ c ≠ '.' ∧ c ≠ 'e' ∧ c ≠ 'E'

theorem splitDigits_append {ds rest : List Char} (hd : ∀ c ∈ ds, c.isDigit = true)
    (hr : ∀ c, rest.head? = some c → c.isDigit = false) :
    splitDigits (ds ++ rest) = (digitValues ds, rest) := by
  have hd' : ∀ c ∈ ds, isDigit c = true := fun c hc => (isDigit_eq c).trans (hd c hc)
  have ht : rest.takeWhile isDigit = [] := by
    cases rest with
    | nil => rfl
    | cons c rest => exact List.takeWhile_cons_of_neg (by simp [isDigit_eq, hr c rfl])
  have hw : rest.dropWhile isDigit = rest := by
    cases rest with
    | nil => rfl
    | cons c rest => exact List.dropWhile_cons_of_neg (by simp [isDigit_eq, hr c rfl])
  rw [splitDigits, List.takeWhile_append_of_pos hd', List.dropWhile_append_of_pos hd', ht, hw,
    List.append_nil, digitValues]

theorem splitSign_append {sign ds : List Char} (hs : sign ∈ [[], ['+'], ['-']])
    (hd : AreDigits ds) (rest : List Char) :
    Number.splitSign (sign ++ (ds ++ rest)) = (sign == ['-'], ds ++ rest) := by
  obtain ⟨d, ds, rfl⟩ := List.exists_cons_of_ne_nil hd.1
  have hdigit := hd.2 d List.mem_cons_self
  simp only [List.mem_cons, List.not_mem_nil, or_false] at hs
  rcases hs with rfl | rfl | rfl
  · refine Number.splitSign.eq_3 _ (fun tail ht => ?_) (fun tail ht => ?_) <;>
    · rw [(List.cons.inj ht).1] at hdigit
      exact absurd hdigit (by decide)
  · rfl
  · rfl

theorem splitWhole_append {ds rest : List Char} (hd : Number.IsWhole ds)
    (hr : ∀ c, rest.head? = some c → c.isDigit = false) :
    splitWhole (ds ++ rest) = (digitValues ds, rest) := by
  rcases hd.unpadded with rfl | hz
  · rfl
  · rw [← splitDigits_append hd.digits hr]
    refine splitWhole.eq_2 _ fun tail hc => ?_
    obtain ⟨c, cs, rfl⟩ := List.exists_cons_of_ne_nil hd.ne_nil
    rw [List.cons_append, List.cons.injEq] at hc
    exact hz (congrArg some hc.1)

theorem splitFraction_of_fraction {part digits rest : List Char} (h : Fraction part digits)
    (hr : ∀ c, rest.head? = some c → c.isDigit = false ∧ c ≠ '.') :
    ∃ fraction, splitFraction (part ++ rest) = (fraction, rest) ∧
      fraction.getD [] = digitValues digits ∧ (fraction.isNone = true ↔ part = []) := by
  cases h with
  | absent =>
    refine ⟨none, splitFraction.eq_2 _ fun tail ht => ?_, rfl, by simp⟩
    exact (hr '.' (congrArg List.head? ht)).2 rfl
  | digits hd =>
    refine ⟨some (digitValues digits), ?_, rfl, by simp⟩
    rw [List.cons_append, splitFraction, splitDigits_append hd.2 fun c hc => (hr c hc).1]
    split
    · next he => exact absurd (digitValues_eq_nil.1 (congrArg Prod.fst he)) hd.1
    · next he =>
      cases he
      rfl

theorem splitExponent_of_exponent {part rest : List Char} {n : Int} (h : Exponent part n)
    (hr : Stops rest) :
    ∃ power, splitExponent (part ++ rest) = (power, rest) ∧ power.getD 0 = n ∧
      (power.isNone = true ↔ part = []) := by
  cases h with
  | absent =>
    refine ⟨none, ?_, rfl, by simp⟩
    cases rest with
    | nil => rfl
    | cons c rest =>
      obtain ⟨-, -, he, hE⟩ := hr c rfl
      exact if_neg (not_or.2 ⟨he, hE⟩)
  | @digits mark sign ds hm hs hd =>
    have hsign := splitSign_append hs hd rest
    have hdigits := splitDigits_append hd.2 fun c hc => (hr c hc).1
    refine ⟨some (Binary64.signed (sign == ['-']) (numberOf ds)), ?_, rfl, by simp⟩
    rw [List.cons_append, List.append_assoc, splitExponent, if_pos hm, hsign]
    dsimp only
    rw [hdigits]
    split
    · next he => exact absurd (digitValues_eq_nil.1 (congrArg Prod.fst he)) hd.1
    · next he =>
      cases he
      rw [← ofDigits_digitValues]

theorem head_of_fraction {part digits power rest : List Char} {n : Int} (hp : Fraction part digits)
    (he : Exponent power n) (hr : Stops rest) :
    (∀ c, (power ++ rest).head? = some c → c.isDigit = false ∧ c ≠ '.') ∧
      ∀ c, (part ++ (power ++ rest)).head? = some c → c.isDigit = false := by
  have hpower : ∀ c, (power ++ rest).head? = some c → c.isDigit = false ∧ c ≠ '.' := by
    intro c hc
    cases he with
    | absent => exact ⟨(hr c hc).1, (hr c hc).2.1⟩
    | digits hm hs hd =>
      obtain rfl := Option.some.inj hc
      rcases hm with rfl | rfl <;> decide
  refine ⟨hpower, fun c hc => ?_⟩
  cases hp with
  | absent => exact (hpower c hc).1
  | digits hd =>
    obtain rfl := Option.some.inj hc
    decide

theorem readNumber_parts (negative : Bool) {body rest₁ rest₂ rest : List Char} {whole : List Nat}
    {fraction : Option (List Nat)} {power : Option Int} (hb : body.head? ≠ some '-')
    (hw : splitWhole body = (whole, rest₁)) (hne : whole ≠ [])
    (hf : splitFraction rest₁ = (fraction, rest₂)) (hp : splitExponent rest₂ = (power, rest)) :
    readNumber (minus negative ++ body) =
      if fraction.isNone && power.isNone then
        if Number.digitCap < whole.length then
          .error ⟨.longInteger whole.length, minus negative ++ body⟩
        else .ok (.int (Binary64.signed negative (Number.ofDigits whole)), rest)
      else
        .ok (.float (.ofDecimal negative (Number.ofDigits (whole ++ fraction.getD []))
          (power.getD 0 - (fraction.getD []).length)), rest) := by
  obtain ⟨d, ds, rfl⟩ := List.exists_cons_of_ne_nil hne
  cases negative with
  | true => simp [minus, readNumber, hw, hf, hp]
  | false =>
    rw [minus, if_neg Bool.false_ne_true, List.nil_append]
    unfold readNumber
    split
    · next hm =>
      split at hm
      · exact absurd rfl hb
      · cases hm
        simp [hw, hf, hp]

theorem readNumber_of_parts (negative : Bool) {ds part digits power rest : List Char} {n : Int}
    (hd : Number.IsWhole ds) (hp : Fraction part digits) (he : Exponent power n) (hr : Stops rest) :
    readNumber (minus negative ++ (ds ++ (part ++ (power ++ rest)))) =
      if part = [] ∧ power = [] then
        if Number.digitCap < ds.length then
          .error ⟨.longInteger ds.length, minus negative ++ (ds ++ (part ++ (power ++ rest)))⟩
        else .ok (.int (Binary64.signed negative (numberOf ds)), rest)
      else
        .ok (.float (.ofDecimal negative (numberOf (ds ++ digits)) (n - digits.length)), rest) := by
  obtain ⟨hpower, hpart⟩ := head_of_fraction hp he hr
  obtain ⟨fraction, hfraction, hfv, hfn⟩ := splitFraction_of_fraction hp hpower
  obtain ⟨exponent, hexponent, hev, hen⟩ := splitExponent_of_exponent he hr
  have hwhole : splitWhole (ds ++ (part ++ (power ++ rest))) =
      (digitValues ds, part ++ (power ++ rest)) := splitWhole_append hd hpart
  rw [readNumber_parts negative
    (fun hb => absurd (isDigit_of_head hd hb) (by decide)) hwhole
    (fun hn => hd.ne_nil (digitValues_eq_nil.1 hn)) hfraction hexponent]
  simp only [hfv, hev, Bool.and_eq_true, hfn, hen, digitValues_append, length_digitValues,
    ofDigits_digitValues]

theorem readNumber_of_text {cs rest : List Char} {j : Json} (h : NumberText cs j)
    (hr : Stops rest) : readNumber (cs ++ rest) = .ok (j, rest) := by
  cases h with
  | @int negative ds hd hl =>
    have hread := readNumber_of_parts negative hd .absent .absent hr
    rw [if_pos ⟨rfl, rfl⟩, if_neg (Nat.not_lt.2 hl)] at hread
    rw [List.append_assoc]
    exact hread
  | @float negative ds part digits power n hd hp he hne =>
    have hread := readNumber_of_parts negative hd hp he hr
    rw [if_neg fun hn => hne.elim (· hn.1) (· hn.2)] at hread
    simp only [List.append_assoc]
    exact hread

/-! What is read has been spelled. -/

theorem of_splitDigits {cs rest : List Char} {digits : List Nat}
    (h : splitDigits cs = (digits, rest)) :
    ∃ ds, (∀ c ∈ ds, c.isDigit = true) ∧ digits = digitValues ds ∧ cs = ds ++ rest := by
  obtain ⟨rfl, rfl⟩ := Prod.mk.inj h
  refine ⟨cs.takeWhile isDigit, fun c hc => ?_, rfl, List.takeWhile_append_dropWhile.symm⟩
  exact (isDigit_eq c).symm.trans (List.mem_takeWhile_imp hc)

theorem of_splitWhole {cs rest : List Char} {whole : List Nat} (h : splitWhole cs = (whole, rest))
    (hn : whole ≠ []) : ∃ ds, Number.IsWhole ds ∧ whole = digitValues ds ∧ cs = ds ++ rest := by
  unfold splitWhole at h
  split at h
  · next tail =>
    cases h
    exact ⟨['0'], ⟨by simp, List.forall_mem_singleton.2 rfl, .inl rfl⟩, rfl, rfl⟩
  · next hz =>
    obtain ⟨ds, hd, rfl, rfl⟩ := of_splitDigits h
    have hne : ds ≠ [] := by
      rintro rfl
      exact hn rfl
    refine ⟨ds, ⟨hne, hd, .inr fun hc => ?_⟩, rfl, rfl⟩
    obtain ⟨c, ds, rfl⟩ := List.exists_cons_of_ne_nil hne
    exact hz _ (congrArg (· :: (ds ++ rest)) (Option.some.inj hc))

theorem of_splitFraction {cs rest : List Char} {fraction : Option (List Nat)}
    (h : splitFraction cs = (fraction, rest)) :
    ∃ part digits, Fraction part digits ∧ fraction.getD [] = digitValues digits ∧
      (fraction.isNone = true ↔ part = []) ∧ cs = part ++ rest := by
  unfold splitFraction at h
  split at h
  · next tail =>
    split at h
    · cases h
      exact ⟨[], [], .absent, rfl, by simp, rfl⟩
    · next digits after hne hs =>
      cases h
      obtain ⟨ds, hd, rfl, rfl⟩ := of_splitDigits hs
      have hds : ds ≠ [] := by
        rintro rfl
        exact hne rfl
      exact ⟨'.' :: ds, ds, .digits ⟨hds, hd⟩, rfl, by simp, rfl⟩
  · cases h
    exact ⟨[], [], .absent, rfl, by simp, rfl⟩

theorem of_splitExponent {cs rest : List Char} {power : Option Int}
    (h : splitExponent cs = (power, rest)) :
    ∃ part n, Exponent part n ∧ power.getD 0 = n ∧ (power.isNone = true ↔ part = []) ∧
      cs = part ++ rest := by
  have habsent : ∀ {cs rest : List Char} {power : Option Int},
      ((none : Option Int), cs) = (power, rest) → ∃ part n, Exponent part n ∧ power.getD 0 = n ∧
        (power.isNone = true ↔ part = []) ∧ cs = part ++ rest := by
    rintro cs rest power ⟨⟩
    exact ⟨[], 0, .absent, rfl, by simp, rfl⟩
  have hsign : ∀ cs : List Char, ∃ sign ∈ [[], ['+'], ['-']],
      cs = sign ++ (Number.splitSign cs).2 ∧ (Number.splitSign cs).1 = (sign == ['-']) := by
    intro cs
    unfold Number.splitSign
    split
    · exact ⟨['-'], by simp, rfl, rfl⟩
    · exact ⟨['+'], by simp, rfl, rfl⟩
    · exact ⟨[], by simp, rfl, rfl⟩
  unfold splitExponent at h
  split at h
  · exact habsent h
  · next c tail =>
    split at h
    · next hc =>
      obtain ⟨sign, hs, htail, hneg⟩ := hsign tail
      dsimp only at h
      split at h
      · exact habsent h
      · next digits after hne hd =>
        cases h
        obtain ⟨ds, hall, rfl, hds⟩ := of_splitDigits hd
        have hne' : ds ≠ [] := by
          rintro rfl
          exact hne rfl
        refine ⟨c :: (sign ++ ds), _, .digits hc hs ⟨hne', hall⟩, ?_, by simp, ?_⟩
        · rw [Option.getD_some, hneg, ofDigits_digitValues]
        · rw [htail, hds]
          simp
    · exact habsent h

theorem text_of_readNumber {cs rest : List Char} {j : Json} (h : readNumber cs = .ok (j, rest)) :
    ∃ text, NumberText text j ∧ cs = text ++ rest := by
  unfold readNumber at h
  split at h
  next negative body hm =>
  have hcs : cs = minus negative ++ body := by
    split at hm
    · cases hm
      rfl
    · cases hm
      rfl
  split at h
  · cases h
  · next whole after hne hw =>
    split at h
    next fraction after₁ hf =>
    split at h
    next power after₂ hp =>
    obtain ⟨ds, hd, rfl, rfl⟩ := of_splitWhole hw hne
    obtain ⟨part, digits, hpart, hfv, hfn, rfl⟩ := of_splitFraction hf
    obtain ⟨exponent, n, hexponent, hev, hen, rfl⟩ := of_splitExponent hp
    simp only [hfv, hev, Bool.and_eq_true, hfn, hen, digitValues_append, length_digitValues,
      ofDigits_digitValues] at h
    split at h
    · split at h
      · cases h
      · next hnone hl =>
        cases h
        refine ⟨minus negative ++ ds, .int hd (Nat.le_of_not_lt hl), ?_⟩
        rw [hcs, hnone.1, hnone.2]
        simp
    · next hsome =>
      cases h
      refine ⟨_, .float hd hpart hexponent (not_and_or.1 hsome), ?_⟩
      rw [hcs]
      simp

end Inlay.Json
