import Inlay.Argument
import Inlay.Proofs.Path.Nesting
import Inlay.Proofs.Text.Trim
import Mathlib.Data.Nat.Digits.Defs

/-! Literals as they are written in call arguments, and what is read from their texts. -/

namespace Inlay

namespace Number

theorem ofDigits_eq (digits : List Nat) : ofDigits digits = Nat.ofDigits 10 digits.reverse := by
  induction digits using List.reverseRecOn with
  | nil => rfl
  | append_singleton digits d ih =>
    rw [ofDigits, List.foldl_append, ← ofDigits, ih, List.reverse_concat, Nat.ofDigits_cons,
      List.foldl_cons, List.foldl_nil, Nat.mul_comm, Nat.add_comm]

theorem splitDigits_map_digitChar (digits : List (Fin 10)) :
    splitDigits (digits.map fun d : Fin 10 => Nat.digitChar d) = (digits.map Fin.val, []) := by
  have hd : ∀ d : Fin 10, Text.digit? (Nat.digitChar d) = some d.val := by decide
  induction digits with
  | nil => rfl
  | cons d digits ih =>
    simp only [List.map_cons, splitDigits, hd, ih]

theorem dropFinalLineFeed_of_isTrimmed {cs : List Char} (h : Text.IsTrimmed cs) :
    dropFinalLineFeed cs = cs := by
  have hl : cs.getLast? ≠ some '\n' := fun hl => absurd (h.2 _ hl) (by decide)
  rw [dropFinalLineFeed, if_neg hl]

end Number

namespace Argument

structure Quotation where
  quote : Char
  marked : List (Bool × Char)
  isQuote_quote : isQuote quote = true
  plain : ∀ c, (false, c) ∈ marked → c ≠ quote ∧ c ≠ '\\'

structure Numeral where
  minus : Option Bool
  digits : List (Fin 10)
  digits_ne : digits ≠ []
  digits_le : digits.length ≤ Number.digitCap

/-- A reference: a source and the keys that follow it, between colons. A token that lacks the one or
the other is no reference. -/
structure Mention where
  source : List Char
  path : List Char
  source_ne : source ≠ []
  source_lower : ∀ c ∈ source, isLowerLetter c = true
  path_ne : path ≠ []
  path_chars : ∀ c ∈ path, isReferenceChar c = true

def word : Option Bool → List Char
  | some true => ['t', 'r', 'u', 'e']
  | some false => ['f', 'a', 'l', 's', 'e']
  | none => ['n', 'u', 'l', 'l']

/-- A literal as it is written; the letters of a word may be of either case. -/
inductive Literal where
  | quotation (q : Quotation)
  | numeral (n : Numeral)
  | word (b : Option Bool) (letters : List Char) (h : letters.map Char.toLower = word b)
  | mention (m : Mention)

namespace Quotation

def body : List (Bool × Char) → List Char
  | [] => []
  | (marked, c) :: rest => (if marked then ['\\', c] else [c]) ++ body rest

def print (q : Quotation) : List Char := q.quote :: body q.marked ++ [q.quote]

def text (q : Quotation) : String := String.ofList (q.marked.map Prod.snd)

end Quotation

namespace Numeral

def sign : Option Bool → List Char
  | none => []
  | some true => ['-']
  | some false => ['+']

def print (n : Numeral) : List Char :=
  sign n.minus ++ n.digits.map fun d : Fin 10 => Nat.digitChar d

def value (n : Numeral) : Int :=
  let magnitude : Nat := Nat.ofDigits 10 (n.digits.map Fin.val).reverse
  if n.minus == some true then -magnitude else magnitude

end Numeral

namespace Mention

def print (m : Mention) : List Char := m.source ++ ':' :: m.path

def keys (m : Mention) : List String := (m.path.splitOn ':').map String.ofList

end Mention

namespace Literal

def print : Literal → List Char
  | quotation q => q.print
  | numeral n => n.print
  | word _ letters _ => letters
  | mention m => m.print

def argument : Literal → Argument
  | quotation q => .literal (.text q.text)
  | numeral n => .literal (.int n.value)
  | word (some b) _ _ => .literal (.bool b)
  | word none _ _ => .literal .null
  | mention m => .reference (String.ofList m.source) m.keys

end Literal

/-! What stands outside quotes is written in few characters. -/

def isPlain (c : Char) : Bool := isReferenceChar c || c == '+'

theorem isPlain_of_isAlphanum {c : Char} (h : c.isAlphanum = true) : isPlain c = true := by
  simp [isPlain, isReferenceChar, h]

theorem isAlpha_of_isLower {c : Char} (h : c.isLower = true) : c.isAlpha = true := by
  change (c.isUpper || c.isLower) = true
  rw [h, Bool.or_true]

theorem toNat_of_isAlpha {c : Char} (h : c.isAlpha = true) : 65 ≤ c.toNat ∧ c.toNat ≤ 122 := by
  have hc : (65 ≤ c.toNat ∧ c.toNat ≤ 90) ∨ (97 ≤ c.toNat ∧ c.toNat ≤ 122) := by
    rcases Bool.or_eq_true_iff.1 h with h | h
    · exact .inl (of_decide_eq_true h)
    · obtain ⟨hl, hu⟩ := Bool.and_eq_true_iff.1 h
      exact .inr ⟨of_decide_eq_true hl, of_decide_eq_true hu⟩
  omega

theorem isBlank_of_isPlain {c : Char} (h : isPlain c = true) : Text.isBlank c = false := by
  have hb : 33 ≤ c.toNat ∧ c.toNat ≤ 122 := by
    simp only [isPlain, isReferenceChar, Char.isAlphanum, Bool.or_eq_true, beq_iff_eq,
      or_assoc] at h
    rcases h with h | h | rfl | rfl | rfl | rfl
    · have := toNat_of_isAlpha h
      omega
    · simp only [Char.isDigit, Bool.and_eq_true, decide_eq_true_eq, UInt32.le_iff_toNat_le,
        ge_iff_le, Char.toNat_val, Char.reduceToNat] at h
      omega
    all_goals decide
  simp [Text.isBlank, Text.isWhiteSpace]
  omega

theorem isQuote_of_isPlain {c : Char} (h : isPlain c = true) : isQuote c = false := by
  rw [isQuote, beq_false_of_ne (Text.ne_of_class h (by decide)),
    beq_false_of_ne (Text.ne_of_class h (by decide)), Bool.or_false]

theorem word_isLower (b : Option Bool) : ∀ c ∈ word b, c.isLower = true := by
  rcases b with _ | _ | _ <;> simp [word]

theorem isAlpha_of_isLower_toLower {c : Char} (h : c.toLower.isLower = true) :
    c.isAlpha = true := by
  by_cases hc : c.isUpper = true
  · change (c.isUpper || c.isLower) = true
    rw [hc, Bool.true_or]
  · have hl : c.toLower = c := dif_neg fun hu => hc (decide_eq_true hu)
    rw [hl] at h
    exact isAlpha_of_isLower h

theorem letters_isAlpha {b : Option Bool} {letters : List Char}
    (h : letters.map Char.toLower = word b) : ∀ c ∈ letters, c.isAlpha = true := by
  intro c hc
  refine isAlpha_of_isLower_toLower (word_isLower b _ ?_)
  rw [← h]
  exact List.mem_map_of_mem hc

theorem letters_isPlain {b : Option Bool} {letters : List Char}
    (h : letters.map Char.toLower = word b) : ∀ c ∈ letters, isPlain c = true := fun c hc =>
  isPlain_of_isAlphanum (by rw [Char.isAlphanum, letters_isAlpha h c hc, Bool.true_or])

theorem Numeral.eq_of_mem_print {n : Numeral} {c : Char} (h : c ∈ n.print) :
    c = '-' ∨ c = '+' ∨ ∃ d : Fin 10, c = Nat.digitChar d := by
  rcases List.mem_append.1 h with h | h
  · rcases hm : n.minus with _ | _ | _ <;> simp [hm, sign] at h
    · exact .inr (.inl h)
    · exact .inl h
  · obtain ⟨d, -, rfl⟩ := List.mem_map.1 h
    exact .inr (.inr ⟨d, rfl⟩)

theorem Numeral.print_isPlain (n : Numeral) : ∀ c ∈ n.print, isPlain c = true := by
  have hd : ∀ d : Fin 10, isPlain (Nat.digitChar d) = true := by decide
  intro c hc
  rcases eq_of_mem_print hc with rfl | rfl | ⟨d, rfl⟩
  · decide
  · decide
  · exact hd d

theorem Numeral.colon_notMem (n : Numeral) : ':' ∉ n.print := by
  have hd : ∀ d : Fin 10, ':' ≠ Nat.digitChar d := by decide
  intro h
  rcases eq_of_mem_print h with h | h | ⟨d, h⟩
  · exact absurd h (by decide)
  · exact absurd h (by decide)
  · exact hd d h

theorem isPlain_of_isLowerLetter {c : Char} (h : isLowerLetter c = true) : isPlain c = true := by
  have ha : c.isAlpha = true := isAlpha_of_isLower h
  exact isPlain_of_isAlphanum (by rw [Char.isAlphanum, ha, Bool.true_or])

theorem Mention.print_isPlain (m : Mention) : ∀ c ∈ m.print, isPlain c = true := by
  intro c hc
  rcases List.mem_append.1 hc with hc | hc
  · exact isPlain_of_isLowerLetter (m.source_lower c hc)
  · rcases List.mem_cons.1 hc with rfl | hc
    · decide
    · rw [isPlain, m.path_chars c hc, Bool.true_or]

theorem isTrimmed_of_isPlain {cs : List Char} (h : ∀ c ∈ cs, isPlain c = true) :
    Text.IsTrimmed cs := Text.isTrimmed_of_forall fun c hc => isBlank_of_isPlain (h c hc)

/-! A text in quotes is read without its backslashes. -/

theorem unescape_cons {c : Char} (h : c ≠ '\\') (cs : List Char) :
    unescape (c :: cs) = c :: unescape cs := by
  cases cs with
  | nil => simp only [unescape, if_neg h]
  | cons d cs => rw [unescape, if_neg h]

theorem Quotation.unescape_body {quote : Char} {marked : List (Bool × Char)}
    (h : ∀ c, (false, c) ∈ marked → c ≠ quote ∧ c ≠ '\\') :
    unescape (body marked) = marked.map Prod.snd := by
  induction marked with
  | nil => rfl
  | cons m marked ih =>
    obtain ⟨b, c⟩ := m
    have ht : unescape (body marked) = marked.map Prod.snd :=
      ih fun d hd => h d (List.mem_cons_of_mem _ hd)
    cases b with
    | true => rw [body, if_pos rfl, List.cons_append, List.singleton_append, unescape, if_pos rfl,
        ht, List.map_cons]
    | false => rw [body, if_neg (by decide), List.singleton_append,
        unescape_cons (h c List.mem_cons_self).2, ht, List.map_cons]

theorem string?_quotation (q : Quotation) : string? q.print = some q.text := by
  have hl : q.print.getLast? = some q.quote := List.getLast?_concat
  rw [Quotation.print] at hl ⊢
  rw [List.cons_append] at hl ⊢
  rw [string?, if_pos ⟨q.isQuote_quote, hl⟩, List.dropLast_concat,
    Quotation.unescape_body q.plain, Quotation.text]

theorem string?_of_isPlain {cs : List Char} (h : ∀ c ∈ cs, isPlain c = true) :
    string? cs = none := by
  cases cs with
  | nil => rfl
  | cons c cs =>
    have hq := isQuote_of_isPlain (h c List.mem_cons_self)
    rw [string?, if_neg (by simp [hq])]

/-! A reference is a source, a colon and keys. -/

theorem reference?_mention (m : Mention) :
    reference? m.print = some (String.ofList m.source, m.keys) := by
  have hc : ∀ c ∈ m.path, c ≠ '(' ∧ c ≠ ')' := fun c hc =>
    have hp : isPlain c = true := by rw [isPlain, m.path_chars c hc, Bool.true_or]
    ⟨Text.ne_of_class hp (by decide), Text.ne_of_class hp (by decide)⟩
  have ht : m.print.takeWhile isLowerLetter = m.source := by
    rw [Mention.print, List.takeWhile_append_of_pos m.source_lower,
      List.takeWhile_cons_of_neg (by decide), List.append_nil]
  have hd : m.print.dropWhile isLowerLetter = ':' :: m.path := by
    rw [Mention.print, List.dropWhile_append_of_pos m.source_lower,
      List.dropWhile_cons_of_neg (by decide)]
  have hp : (!m.path.isEmpty && m.path.all isReferenceChar) = true := by
    simpa [m.path_ne] using m.path_chars
  obtain ⟨letter, letters, hs⟩ := List.exists_cons_of_ne_nil m.source_ne
  rw [reference?, Number.dropFinalLineFeed_of_isTrimmed (isTrimmed_of_isPlain m.print_isPlain),
    ht, hd, hs]
  simp only [hp, if_true, Path.cut_eq_splitOn hc, Mention.keys]

theorem reference?_of_notMem {cs : List Char} (ht : Text.IsTrimmed cs) (h : ':' ∉ cs) :
    reference? cs = none := by
  rw [reference?, Number.dropFinalLineFeed_of_isTrimmed ht]
  split
  · next path _ hd =>
    refine absurd ?_ h
    exact (List.dropWhile_suffix isLowerLetter).subset (hd ▸ List.mem_cons_self)
  · rfl

end Argument

/-! A numeral is read as a number, and a word is not. -/

namespace Number

theorem splitSign_cons {c : Char} {cs : List Char} (hm : c ≠ '-') (hp : c ≠ '+') :
    splitSign (c :: cs) = (false, c :: cs) := by
  rw [splitSign]
  · exact fun _ h => hm (List.cons.inj h).1
  · exact fun _ h => hp (List.cons.inj h).1

theorem splitSign_digits (digits : List (Fin 10)) :
    splitSign (digits.map fun d : Fin 10 => Nat.digitChar d) =
      (false, digits.map fun d : Fin 10 => Nat.digitChar d) := by
  have hd : ∀ d : Fin 10, Nat.digitChar d ≠ '-' ∧ Nat.digitChar d ≠ '+' := by decide
  cases digits with
  | nil => rfl
  | cons d digits => exact splitSign_cons (hd d).1 (hd d).2

theorem splitSign_numeral (n : Argument.Numeral) :
    splitSign n.print =
      (n.minus == some true, n.digits.map fun d : Fin 10 => Nat.digitChar d) := by
  rw [Argument.Numeral.print]
  rcases n.minus with _ | _ | _
  · exact splitSign_digits n.digits
  · rfl
  · rfl

theorem ofText_numeral (n : Argument.Numeral) : ofText n.print = .ok (some (.int n.value)) := by
  have hw : ((n.digits.map Fin.val).isEmpty) = false := by simp [n.digits_ne]
  have hl : (n.digits.map Fin.val).length ≤ digitCap := by
    rw [List.length_map]
    exact n.digits_le
  rw [ofText, dropFinalLineFeed_of_isTrimmed (Argument.isTrimmed_of_isPlain n.print_isPlain),
    splitSign_numeral]
  simp only [splitDigits_map_digitChar, hw, readNat, if_pos hl, ofDigits_eq]
  rfl

theorem digit?_of_isAlpha {c : Char} (h : c.isAlpha = true) : Text.digit? c = none := by
  have hz : ∀ z ∈ Text.digitZeros, z = 0x30 ∨ 0x660 ≤ z := by decide
  have hb := Argument.toNat_of_isAlpha h
  have hf : Text.digitZeros.find? (fun z => z ≤ c.toNat && c.toNat < z + 10) = none := by
    refine List.find?_eq_none.2 fun z hm => ?_
    have := hz z hm
    simp only [Bool.and_eq_true, decide_eq_true_eq]
    omega
  rw [Text.digit?, hf, Option.map_none]

theorem ofText_of_isAlpha {c : Char} {cs : List Char} (ht : Text.IsTrimmed (c :: cs))
    (h : c.isAlpha = true) (hl : c ≠ 'e') (hu : c ≠ 'E') : ofText (c :: cs) = .ok none := by
  have hne : ∀ d : Char, d.isAlpha = false → c ≠ d := fun d hd => Text.ne_of_class h hd
  have hs : splitSign (c :: cs) = (false, c :: cs) :=
    splitSign_cons (hne '-' (by decide)) (hne '+' (by decide))
  have hd : splitDigits (c :: cs) = ([], c :: cs) := by
    simp only [splitDigits, digit?_of_isAlpha h]
  have hx : exponent? (c :: cs) = none := by
    simp [exponent?, hl, hu]
  have hf : fraction? (c :: cs) = none := by
    rw [fraction?, hx, Option.map_none]
    exact fun rest hr => hne '.' (by decide) (List.cons.inj hr).1
  rw [ofText, dropFinalLineFeed_of_isTrimmed ht, hs]
  simp only [hd, hf, List.isEmpty_cons, Bool.false_and, Bool.false_eq_true, if_false]

end Number

namespace Argument

theorem ofText_letters {b : Option Bool} {letters : List Char}
    (h : letters.map Char.toLower = word b) : Number.ofText letters = .ok none := by
  have ht := isTrimmed_of_isPlain (letters_isPlain h)
  cases letters with
  | nil => rcases b with _ | _ | _ <;> cases h
  | cons c letters =>
    have hc : c.toLower ≠ 'e' := by
      rcases b with _ | _ | _
      all_goals
        rw [List.map_cons, word] at h
        rw [(List.cons.inj h).1]
        decide
    refine Number.ofText_of_isAlpha ht (letters_isAlpha h c List.mem_cons_self) ?_ ?_
    · rintro rfl
      exact hc (by decide)
    · rintro rfl
      exact hc (by decide)

namespace Literal

theorem print_ne_nil (l : Literal) : l.print ≠ [] := by
  cases l with
  | quotation q => exact List.cons_ne_nil _ _
  | numeral n =>
    intro h
    exact n.digits_ne (List.map_eq_nil_iff.1 (List.append_eq_nil_iff.1 h).2)
  | word b letters h =>
    rintro rfl
    rcases b with _ | _ | _ <;> cases h
  | mention m => exact List.append_ne_nil_of_right_ne_nil _ (List.cons_ne_nil _ _)

theorem isTrimmed_print (l : Literal) : Text.IsTrimmed l.print := by
  cases l with
  | quotation q =>
    have hq : Text.isBlank q.quote = false := by
      rcases Bool.or_eq_true_iff.1 q.isQuote_quote with h | h
      all_goals
        rw [beq_iff_eq.1 h]
        decide
    have hl : q.print.getLast? = some q.quote := List.getLast?_concat
    refine ⟨?_, ?_⟩
    · rintro _ ⟨⟩
      exact hq
    · rw [print, hl]
      rintro _ ⟨⟩
      exact hq
  | numeral n => exact isTrimmed_of_isPlain n.print_isPlain
  | word b letters h => exact isTrimmed_of_isPlain (letters_isPlain h)
  | mention m => exact isTrimmed_of_isPlain m.print_isPlain

theorem ofToken_print (l : Literal) : ofToken l.print = .ok l.argument := by
  rw [ofToken]
  cases l with
  | quotation q => simp only [print, string?_quotation]; rfl
  | numeral n =>
    simp only [print, string?_of_isPlain n.print_isPlain,
      reference?_of_notMem (isTrimmed_of_isPlain n.print_isPlain) n.colon_notMem,
      Number.ofText_numeral]
    rfl
  | word b letters h =>
    have hc : ':' ∉ letters := fun hc => absurd (letters_isAlpha h _ hc) (by decide)
    simp only [print, string?_of_isPlain (letters_isPlain h),
      reference?_of_notMem (isTrimmed_of_isPlain (letters_isPlain h)) hc, ofText_letters h,
      keyword?, h]
    rcases b with _ | _ | _ <;> rfl
  | mention m =>
    simp only [print, string?_of_isPlain m.print_isPlain, reference?_mention]
    rfl

end Literal

end Argument

end Inlay
