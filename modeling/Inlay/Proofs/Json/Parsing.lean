import Inlay.Proofs.Json.Lexeme
import Inlay.Proofs.Json.Numeral

/-! JSON texts are read as the documents that they spell, and other texts are not read. -/

namespace Inlay.Json

/-! Blanks. -/

theorem isBlank_nil : IsBlank [] := List.forall_mem_nil _

theorem IsBlank.append {front back : List Char} (hf : IsBlank front) (hb : IsBlank back) :
    IsBlank (front ++ back) :=
  List.forall_mem_append.2 ⟨hf, hb⟩

theorem skipSpace_append {blanks : List Char} (hb : IsBlank blanks)
    (cs : List Char) : skipSpace (blanks ++ cs) = skipSpace cs :=
  List.dropWhile_append_of_pos hb

theorem skipSpace_cons {c : Char} (hc : isSpace c = false) (cs : List Char) :
    skipSpace (c :: cs) = c :: cs :=
  List.dropWhile_cons_of_neg (by simp [hc])

theorem exists_blank_skipSpace (cs : List Char) : ∃ blanks, IsBlank blanks ∧
    cs = blanks ++ skipSpace cs :=
  ⟨cs.takeWhile isSpace, fun _ hc => List.mem_takeWhile_imp hc,
    List.takeWhile_append_dropWhile.symm⟩

def Phrase.isValue : Phrase → Bool
  | .value _ => true
  | _ => false

theorem Spells.prepend {phrase : Phrase} {cs : List Char} (h : Spells phrase cs)
    (hp : phrase.isValue = false) {blanks : List Char} (hb : IsBlank blanks) :
    Spells phrase (blanks ++ cs) := by
  induction h with
  | item hf hv hback =>
    rw [← List.append_assoc]
    exact .item (hb.append hf) hv hback
  | lastItem _ ih => exact .lastItem (ih rfl)
  | nextItem _ hs ih =>
    rw [← List.append_assoc]
    exact .nextItem (ih rfl) hs
  | member hf hbody hback hv =>
    rw [← List.append_assoc]
    exact .member (hb.append hf) hbody hback hv
  | lastMember _ ih => exact .lastMember (ih rfl)
  | nextMember _ hs ih =>
    rw [← List.append_assoc]
    exact .nextMember (ih rfl) hs
  | _ => cases hp

/-! What is read has been spelled. -/

theorem spells_of_readScalar {cs rest : List Char} {j : Json}
    (h : readScalar cs = .ok (j, rest)) : ∃ text, Spells (.value j) text ∧ cs = text ++ rest := by
  unfold readScalar at h
  split at h
  · cases h; exact ⟨_, .null, rfl⟩
  · cases h; exact ⟨_, .isTrue, rfl⟩
  · cases h; exact ⟨_, .isFalse, rfl⟩
  · cases h; exact ⟨_, .nan, rfl⟩
  · cases h; exact ⟨_, .infinite false, rfl⟩
  · cases h; exact ⟨_, .infinite true, rfl⟩
  · obtain ⟨text, ht, rfl⟩ := text_of_readNumber h
    exact ⟨text, .number ht, rfl⟩

theorem of_expect {c : Char} {reason : Reason} {cs rest : List Char}
    (h : expect c reason cs = .ok rest) :
    ∃ front back, IsBlank front ∧ IsBlank back ∧ cs = front ++ c :: (back ++ rest) := by
  obtain ⟨front, hf, hcs⟩ := exists_blank_skipSpace cs
  unfold expect at h
  split at h
  · next d tail hs =>
    split at h
    · next hd =>
      cases h
      obtain ⟨back, hb, ht⟩ := exists_blank_skipSpace tail
      exact ⟨front, back, hf, hb, by rw [← ht, ← hd, ← hs, ← hcs]⟩
    · cases h
  · cases h

structure Sound (fuel : Nat) : Prop where
  value : ∀ {cs j rest}, readValue fuel cs = .ok (j, rest) →
    ∃ text, Spells (.value j) text ∧ cs = text ++ rest
  items : ∀ {cs js rest}, readItems fuel cs = .ok (js, rest) →
    ∃ text, Spells (.items js) text ∧ cs = text ++ ']' :: rest
  members : ∀ {cs ms rest}, readMembers fuel cs = .ok (ms, rest) →
    ∃ text, Spells (.members ms) text ∧ cs = text ++ '}' :: rest

namespace Sound

variable {fuel : Nat} (h : Sound fuel)

include h

theorem value_succ {cs rest : List Char} {j : Json} (hr : readValue (fuel + 1) cs = .ok (j, rest)) :
    ∃ text, Spells (.value j) text ∧ cs = text ++ rest := by
  unfold readValue at hr
  split at hr
  · next tail =>
    obtain ⟨⟨s, after⟩, ht, he⟩ := Except.of_map hr
    obtain ⟨rfl, rfl⟩ := Prod.mk.inj he
    obtain ⟨body, es, hb, rfl, hcs⟩ := body_of_readText ht
    exact ⟨quoted body, .text hb, hcs⟩
  · next tail =>
    obtain ⟨blanks, hb, htail⟩ := exists_blank_skipSpace tail
    split at hr
    · next after hs =>
      cases hr
      refine ⟨'[' :: (blanks ++ [']']), .emptyArray hb, ?_⟩
      rw [htail, hs]
      simp
    · obtain ⟨⟨js, after⟩, hi, he⟩ := Except.of_map hr
      obtain ⟨rfl, rfl⟩ := Prod.mk.inj he
      obtain ⟨text, ht, hs⟩ := h.items hi
      refine ⟨'[' :: ((blanks ++ text) ++ [']']), .array (ht.prepend rfl hb), ?_⟩
      rw [htail, hs]
      simp
  · next tail =>
    obtain ⟨blanks, hb, htail⟩ := exists_blank_skipSpace tail
    split at hr
    · next after hs =>
      cases hr
      refine ⟨'{' :: (blanks ++ ['}']), .emptyObject hb, ?_⟩
      rw [htail, hs]
      simp
    · obtain ⟨⟨ms, after⟩, hm, he⟩ := Except.of_map hr
      obtain ⟨rfl, rfl⟩ := Prod.mk.inj he
      obtain ⟨text, ht, hs⟩ := h.members hm
      refine ⟨'{' :: ((blanks ++ text) ++ ['}']), .object (ht.prepend rfl hb), ?_⟩
      rw [htail, hs]
      simp
  · exact spells_of_readScalar hr

theorem items_succ {cs rest : List Char} {js : List Json}
    (hr : readItems (fuel + 1) cs = .ok (js, rest)) :
    ∃ text, Spells (.items js) text ∧ cs = text ++ ']' :: rest := by
  obtain ⟨⟨j, tail⟩, hj, hnext⟩ := Except.of_bind hr
  obtain ⟨text, ht, rfl⟩ := h.value hj
  obtain ⟨blanks, hb, htail⟩ := exists_blank_skipSpace tail
  have hitem : ∀ {back : List Char}, IsBlank back → Spells (.item j) (text ++ back) := fun hback =>
    Spells.item isBlank_nil ht hback
  dsimp only at hnext
  split at hnext
  · next after hs =>
    cases hnext
    refine ⟨text ++ blanks, .lastItem (hitem hb), ?_⟩
    rw [htail, hs]
    simp
  · obtain ⟨more, he, hmore⟩ := Except.of_bind hnext
    obtain ⟨⟨js, after⟩, hjs, hend⟩ := Except.of_bind hmore
    cases hend
    obtain ⟨front, back, hf, hback, hs⟩ := of_expect he
    obtain ⟨text', ht', rfl⟩ := h.items hjs
    refine ⟨(text ++ (blanks ++ front)) ++ ',' :: (back ++ text'),
      .nextItem (hitem (hb.append hf)) (ht'.prepend rfl hback), ?_⟩
    rw [htail, hs]
    simp

theorem members_succ {cs rest : List Char} {ms : List (String × Json)}
    (hr : readMembers (fuel + 1) cs = .ok (ms, rest)) :
    ∃ text, Spells (.members ms) text ∧ cs = text ++ '}' :: rest := by
  unfold readMembers at hr
  split at hr
  · next name =>
    obtain ⟨⟨s, afterName⟩, hn, hcolon⟩ := Except.of_bind hr
    obtain ⟨value, hc, hvalue⟩ := Except.of_bind hcolon
    obtain ⟨⟨j, tail⟩, hj, hnext⟩ := Except.of_bind hvalue
    obtain ⟨body, es, hbody, rfl, hcs⟩ := body_of_readText hn
    obtain ⟨before, after, hbefore, hafter, rfl⟩ := of_expect hc
    obtain ⟨text, ht, rfl⟩ := h.value hj
    obtain ⟨blanks, hb, htail⟩ := exists_blank_skipSpace tail
    have hmember : ∀ {back : List Char}, IsBlank back → Spells (.member (String.ofList es) j)
        (quoted body ++ (before ++ ':' :: (after ++ (text ++ back)))) := fun hback =>
      Spells.member isBlank_nil hbody hbefore (.item hafter ht hback)
    rw [hcs]
    dsimp only at hnext
    split at hnext
    · next more hs =>
      cases hnext
      refine ⟨_, .lastMember (hmember hb), ?_⟩
      rw [htail, hs]
      simp
    · obtain ⟨more, he, hmore⟩ := Except.of_bind hnext
      obtain ⟨⟨ms, last⟩, hms, hend⟩ := Except.of_bind hmore
      cases hend
      obtain ⟨front, back, hf, hback, hs⟩ := of_expect he
      obtain ⟨text', ht', rfl⟩ := h.members hms
      refine ⟨_, .nextMember (hmember (hb.append hf)) (ht'.prepend rfl hback), ?_⟩
      rw [htail, hs]
      simp
  · cases hr

end Sound

theorem sound (fuel : Nat) : Sound fuel := by
  -- Each reader calls the others with less fuel, so all three are proved at once.
  induction fuel with
  | zero => exact ⟨nofun, nofun, nofun⟩
  | succ fuel ih => exact ⟨ih.value_succ, ih.items_succ, ih.members_succ⟩

/-! What is spelled is read. -/

/-- The start of a document: no space, no end of another and no mark of the order of bytes. -/
def Starts (cs : List Char) : Prop :=
  ∃ c tail, cs = c :: tail ∧ isSpace c = false ∧ c ≠ ']' ∧ c ≠ '}' ∧ c ≠ Char.ofNat 0xFEFF

theorem Starts.skipSpace {cs : List Char} (h : Starts cs) : skipSpace cs = cs := by
  obtain ⟨c, tail, rfl, hc, -⟩ := h
  rw [Json.skipSpace, List.dropWhile_cons_of_neg (by simp [hc])]

theorem Starts.ne_close {cs tail : List Char} (h : Starts cs) :
    cs ≠ ']' :: tail ∧ cs ≠ '}' :: tail := by
  obtain ⟨c, cs, rfl, -, hb, hc, -⟩ := h
  exact ⟨fun he => hb (List.cons.inj he).1, fun he => hc (List.cons.inj he).1⟩

theorem Starts.head_ne {cs : List Char} (h : Starts cs) :
    cs.head? ≠ some (Char.ofNat 0xFEFF) := by
  obtain ⟨c, cs, rfl, -, -, -, hc⟩ := h
  exact fun he => hc (Option.some.inj he)

theorem Starts.of_isDigit {c : Char} (h : c.isDigit = true) (tail : List Char) :
    Starts (c :: tail) := by
  refine ⟨c, tail, rfl, ?_, ?_, ?_, ?_⟩
  · rw [isSpace, Bool.eq_false_iff]
    intro hs
    simp only [Bool.or_eq_true, beq_iff_eq] at hs
    rcases hs with ((rfl | rfl) | rfl) | rfl <;> exact absurd h (by decide)
  all_goals
    rintro rfl
    exact absurd h (by decide)

theorem Starts.signed (negative : Bool) {ds : List Char} (hd : Number.IsWhole ds)
    (rest : List Char) : Starts (minus negative ++ (ds ++ rest)) := by
  cases negative with
  | true => exact ⟨'-', ds ++ rest, rfl, by decide, by decide, by decide, by decide⟩
  | false =>
    obtain ⟨d, ds', rfl⟩ := List.exists_cons_of_ne_nil hd.ne_nil
    exact .of_isDigit (hd.digits d List.mem_cons_self) _

theorem readValue_signed (fuel : Nat) (negative : Bool) {ds : List Char} (hd : Number.IsWhole ds)
    (rest : List Char) :
    readValue (fuel + 1) (minus negative ++ (ds ++ rest)) =
      readNumber (minus negative ++ (ds ++ rest)) := by
  obtain ⟨d, ds', rfl⟩ := List.exists_cons_of_ne_nil hd.ne_nil
  have hdigit := hd.digits d List.mem_cons_self
  have hne : ∀ {c : Char} {tail : List Char}, c.isDigit = false →
      d :: (ds' ++ rest) ≠ c :: tail := by
    rintro c tail hc ht
    rw [(List.cons.inj ht).1] at hdigit
    rw [hdigit] at hc
    cases hc
  cases negative with
  | true =>
    have hs : readScalar ('-' :: d :: (ds' ++ rest)) = readNumber ('-' :: d :: (ds' ++ rest)) := by
      refine readScalar.eq_7 _ nofun nofun nofun nofun nofun fun tail ht => ?_
      exact hne (by decide) (List.cons.inj ht).2
    exact hs
  | false =>
    have hv : readValue (fuel + 1) (d :: (ds' ++ rest)) = readScalar (d :: (ds' ++ rest)) :=
      readValue.eq_5 _ _ (fun _ => hne (by decide)) (fun _ => hne (by decide))
        fun _ => hne (by decide)
    have hs : readScalar (d :: (ds' ++ rest)) = readNumber (d :: (ds' ++ rest)) :=
      readScalar.eq_7 _ (fun _ => hne (by decide)) (fun _ => hne (by decide))
        (fun _ => hne (by decide)) (fun _ => hne (by decide)) (fun _ => hne (by decide))
        fun _ => hne (by decide)
    exact hv.trans hs

theorem NumberText.starts {cs : List Char} {j : Json} (h : NumberText cs j) (rest : List Char) :
    Starts (cs ++ rest) := by
  cases h with
  | int hd _ =>
    rw [List.append_assoc]
    exact .signed _ hd rest
  | float hd _ _ _ =>
    rw [List.append_assoc, List.append_assoc]
    exact .signed _ hd _

theorem NumberText.readValue {cs : List Char} {j : Json} (h : NumberText cs j) (fuel : Nat)
    (rest : List Char) : readValue (fuel + 1) (cs ++ rest) = readNumber (cs ++ rest) := by
  cases h with
  | int hd _ =>
    rw [List.append_assoc]
    exact readValue_signed fuel _ hd rest
  | float hd _ _ _ =>
    rw [List.append_assoc, List.append_assoc]
    exact readValue_signed fuel _ hd _

theorem Spells.starts {cs : List Char} {j : Json} (h : Spells (.value j) cs) (rest : List Char) :
    Starts (cs ++ rest) := by
  have hc : ∀ {c : Char} {tail : List Char}, isSpace c = false → c ≠ ']' → c ≠ '}' →
      c ≠ Char.ofNat 0xFEFF → Starts (c :: tail) := fun hs hb hc hm => ⟨_, _, rfl, hs, hb, hc, hm⟩
  cases h with
  | number hn => exact hn.starts rest
  | infinite negative => cases negative <;> exact hc (by decide) (by decide) (by decide) (by decide)
  | _ => exact hc (by decide) (by decide) (by decide) (by decide)

theorem Spells.starts_skipSpace {phrase : Phrase} {cs : List Char} (h : Spells phrase cs)
    (hp : phrase.isValue = false) (rest : List Char) : Starts (skipSpace (cs ++ rest)) := by
  induction h generalizing rest with
  | item hf hv _ =>
    have hstart := fun tail => hv.starts tail
    rw [List.append_assoc, List.append_assoc, skipSpace_append hf, (hstart _).skipSpace]
    exact hstart _
  | lastItem _ ih => exact ih rfl rest
  | nextItem _ _ ih =>
    rw [List.append_assoc]
    exact ih rfl _
  | member hf _ _ _ =>
    rw [List.append_assoc, skipSpace_append hf]
    exact ⟨'"', _, rfl, by decide, by decide, by decide, by decide⟩
  | lastMember _ ih => exact ih rfl rest
  | nextMember _ _ ih =>
    rw [List.append_assoc]
    exact ih rfl _
  | _ => cases hp

theorem Stops.of_break {blanks : List Char} (hb : IsBlank blanks) {c : Char}
    (hc : c = ',' ∨ c = ']' ∨ c = '}') (rest : List Char) : Stops (blanks ++ c :: rest) := by
  intro d hd
  have hcase : d = c ∨ isSpace d = true := by
    cases blanks with
    | nil => exact .inl (Option.some.inj hd).symm
    | cons b blanks => exact .inr (hb d (Option.some.inj hd ▸ List.mem_cons_self))
  rcases hcase with rfl | hs
  · rcases hc with rfl | rfl | rfl <;> decide
  · simp only [isSpace, Bool.or_eq_true, beq_iff_eq] at hs
    rcases hs with ((rfl | rfl) | rfl) | rfl <;> decide

def Ends (cs : List Char) : Prop := ∀ c tail, cs = c :: tail → c = ',' ∨ c = ']' ∨ c = '}'

theorem Ends.of_cons {c : Char} (hc : c = ',' ∨ c = ']' ∨ c = '}') (tail : List Char) :
    Ends (c :: tail) := by
  rintro d _ ⟨⟩
  exact hc

theorem Ends.stops {rest blanks : List Char} (h : Ends rest) (hb : IsBlank blanks) :
    Stops (blanks ++ rest) := by
  cases rest with
  | cons c tail => exact .of_break hb (h c tail rfl) tail
  | nil =>
    -- At the end of the text blanks stop a number as they do before a comma.
    have hs := Stops.of_break hb (c := ',') (.inl rfl) []
    cases blanks with
    | nil => exact nofun
    | cons b blanks => exact hs

theorem Ends.skipSpace {rest blanks : List Char} (h : Ends rest) (hb : IsBlank blanks) :
    skipSpace (blanks ++ rest) = rest := by
  rw [skipSpace_append hb]
  cases rest with
  | nil => rfl
  | cons c tail =>
    rcases h c tail rfl with rfl | rfl | rfl <;> exact skipSpace_cons (by decide) tail

theorem expect_of_skipSpace {c : Char} {reason : Reason} {cs rest : List Char}
    (h : skipSpace cs = c :: rest) : expect c reason cs = .ok (skipSpace rest) := by
  rw [expect, h]
  exact if_pos rfl

/-! One step of a list: its last part, or a part with a comma after it. -/

theorem readItems_last {fuel : Nat} {cs rest after : List Char} {j : Json}
    (hj : readValue fuel cs = .ok (j, rest)) (h : skipSpace rest = ']' :: after) :
    readItems (fuel + 1) cs = .ok ([j], after) := by
  simp [readItems, hj, h, bind, Except.bind, pure, Except.pure]

theorem readItems_next {fuel : Nat} {cs rest more after : List Char} {j : Json} {js : List Json}
    (hj : readValue fuel cs = .ok (j, rest)) (h : skipSpace rest = ',' :: more)
    (hjs : readItems fuel (skipSpace more) = .ok (js, after)) :
    readItems (fuel + 1) cs = .ok (j :: js, after) := by
  have hsep : expect ',' .comma (',' :: more) = .ok (skipSpace more) :=
    expect_of_skipSpace (skipSpace_cons (by decide) more)
  simp [readItems, hj, h, hsep, hjs, bind, Except.bind, pure, Except.pure]

theorem readMembers_last {fuel : Nat} {cs text value rest after : List Char} {name : String}
    {j : Json} (hn : readText ('"' :: cs) = .ok (name, text))
    (hc : expect ':' .colon text = .ok value) (hj : readValue fuel value = .ok (j, rest))
    (h : skipSpace rest = '}' :: after) :
    readMembers (fuel + 1) ('"' :: cs) = .ok ([(name, j)], after) := by
  simp [readMembers, hn, hc, hj, h, bind, Except.bind, pure, Except.pure]

theorem readMembers_next {fuel : Nat} {cs text value rest more after : List Char} {name : String}
    {j : Json} {ms : List (String × Json)} (hn : readText ('"' :: cs) = .ok (name, text))
    (hc : expect ':' .colon text = .ok value) (hj : readValue fuel value = .ok (j, rest))
    (h : skipSpace rest = ',' :: more) (hms : readMembers fuel (skipSpace more) = .ok (ms, after)) :
    readMembers (fuel + 1) ('"' :: cs) = .ok ((name, j) :: ms, after) := by
  have hsep : expect ',' .comma (',' :: more) = .ok (skipSpace more) :=
    expect_of_skipSpace (skipSpace_cons (by decide) more)
  simp [readMembers, hn, hc, hj, h, hsep, hms, bind, Except.bind, pure,
    Except.pure]

theorem readValue_array {fuel : Nat} {rest after : List Char} {js : List Json}
    (hs : ∀ tail, skipSpace rest ≠ ']' :: tail)
    (h : readItems fuel (skipSpace rest) = .ok (js, after)) :
    readValue (fuel + 1) ('[' :: rest) = .ok (.array js, after) := by
  rw [readValue]
  split
  · next he => exact absurd he (hs _)
  · rw [h]
    rfl

theorem readValue_object {fuel : Nat} {rest after : List Char} {ms : List (String × Json)}
    (hs : ∀ tail, skipSpace rest ≠ '}' :: tail)
    (h : readMembers fuel (skipSpace rest) = .ok (ms, after)) :
    readValue (fuel + 1) ('{' :: rest) = .ok (.object ms, after) := by
  rw [readValue]
  split
  · next he => exact absurd he (hs _)
  · rw [h]
    rfl

/-- The text of a phrase is read as the phrase, in front of any text that can follow it, with fuel
for each of its characters. -/
def ReadAs : Phrase → List Char → Prop
  | .value j, cs => ∀ fuel rest, Stops rest → 2 * cs.length < fuel →
    readValue fuel (cs ++ rest) = .ok (j, rest)
  | .item j, cs => ∀ fuel rest, Ends rest → 2 * cs.length < fuel →
    ∃ tail, readValue fuel (skipSpace (cs ++ rest)) = .ok (j, tail) ∧ skipSpace tail = rest
  | .items js, cs => ∀ fuel rest, 2 * cs.length + 1 < fuel →
    readItems fuel (skipSpace (cs ++ ']' :: rest)) = .ok (js, rest)
  | .member name j, cs => ∀ fuel rest, Ends rest → 2 * cs.length < fuel →
    ∃ text colon value tail, skipSpace (cs ++ rest) = '"' :: text ∧
      readText ('"' :: text) = .ok (name, colon) ∧ expect ':' .colon colon = .ok value ∧
      readValue fuel value = .ok (j, tail) ∧ skipSpace tail = rest
  | .members ms, cs => ∀ fuel rest, 2 * cs.length + 1 < fuel →
    readMembers fuel (skipSpace (cs ++ '}' :: rest)) = .ok (ms, rest)

namespace ReadAs

theorem of_value {cs : List Char} {j : Json} (h : ∀ fuel rest, Stops rest → 2 * cs.length ≤ fuel →
    readValue (fuel + 1) (cs ++ rest) = .ok (j, rest)) : ReadAs (.value j) cs := by
  intro fuel rest hr hf
  obtain ⟨fuel, rfl⟩ := Nat.exists_eq_succ_of_ne_zero (n := fuel) (by omega)
  exact h fuel rest hr (by omega)

variable {cs ds : List Char}

theorem emptyArray {blanks : List Char} (hb : IsBlank blanks) :
    ReadAs (.value (.array [])) ('[' :: (blanks ++ [']'])) := by
  refine of_value fun fuel rest _ _ => ?_
  have hs : skipSpace ((blanks ++ [']']) ++ rest) = ']' :: rest := by
    rw [List.append_assoc, skipSpace_append hb]
    exact skipSpace_cons (by decide) rest
  rw [List.cons_append, Json.readValue, hs]
  rfl

theorem array {js : List Json} (h : Spells (.items js) cs) (ih : ReadAs (.items js) cs) :
    ReadAs (.value (.array js)) ('[' :: (cs ++ [']'])) := by
  refine of_value fun fuel rest _ hf => ?_
  simp only [List.length_cons, List.length_append, List.length_nil] at hf
  rw [List.cons_append, List.append_assoc]
  exact readValue_array (fun _ => (h.starts_skipSpace rfl _).ne_close.1) (ih fuel rest (by omega))

theorem emptyObject {blanks : List Char} (hb : IsBlank blanks) :
    ReadAs (.value (.object [])) ('{' :: (blanks ++ ['}'])) := by
  refine of_value fun fuel rest _ _ => ?_
  have hs : skipSpace ((blanks ++ ['}']) ++ rest) = '}' :: rest := by
    rw [List.append_assoc, skipSpace_append hb]
    exact skipSpace_cons (by decide) rest
  rw [List.cons_append, Json.readValue, hs]
  rfl

theorem object {ms : List (String × Json)} (h : Spells (.members ms) cs)
    (ih : ReadAs (.members ms) cs) : ReadAs (.value (.object ms)) ('{' :: (cs ++ ['}'])) := by
  refine of_value fun fuel rest _ hf => ?_
  simp only [List.length_cons, List.length_append, List.length_nil] at hf
  rw [List.cons_append, List.append_assoc]
  exact readValue_object (fun _ => (h.starts_skipSpace rfl _).ne_close.2)
    (ih fuel rest (by omega))

theorem item {front back : List Char} {j : Json} (hf : IsBlank front) (h : Spells (.value j) cs)
    (hb : IsBlank back) (ih : ReadAs (.value j) cs) : ReadAs (.item j) (front ++ (cs ++ back)) := by
  intro fuel rest hr hfuel
  simp only [List.length_append] at hfuel
  refine ⟨back ++ rest, ?_, hr.skipSpace hb⟩
  rw [List.append_assoc, List.append_assoc, skipSpace_append hf, (h.starts _).skipSpace]
  exact ih fuel (back ++ rest) (hr.stops hb) (by omega)

theorem lastItem {j : Json} (ih : ReadAs (.item j) cs) : ReadAs (.items [j]) cs := by
  intro fuel rest hf
  obtain ⟨fuel, rfl⟩ := Nat.exists_eq_succ_of_ne_zero (n := fuel) (by omega)
  obtain ⟨tail, hj, ht⟩ := ih fuel (']' :: rest) (.of_cons (by decide) rest) (by omega)
  exact readItems_last hj ht

theorem nextItem {j : Json} {js : List Json} (ih : ReadAs (.item j) cs)
    (ihs : ReadAs (.items js) ds) : ReadAs (.items (j :: js)) (cs ++ ',' :: ds) := by
  intro fuel rest hf
  simp only [List.length_append, List.length_cons] at hf
  obtain ⟨fuel, rfl⟩ := Nat.exists_eq_succ_of_ne_zero (n := fuel) (by omega)
  obtain ⟨tail, hj, ht⟩ := ih fuel (',' :: (ds ++ ']' :: rest)) (.of_cons (by decide) _) (by omega)
  rw [List.append_assoc, List.cons_append]
  exact readItems_next hj ht (ihs fuel rest (by omega))

theorem member {front body es back : List Char} {j : Json} (hf : IsBlank front)
    (hbody : StringBody body es) (hb : IsBlank back)
    (ih : ReadAs (.item j) ds) :
    ReadAs (.member (String.ofList es) j) (front ++ (quoted body ++ (back ++ ':' :: ds))) := by
  intro fuel rest hr hfuel
  simp only [List.length_append, List.length_cons] at hfuel
  obtain ⟨tail, hj, ht⟩ := ih fuel rest hr (by omega)
  refine ⟨body ++ '"' :: (back ++ ':' :: (ds ++ rest)), back ++ ':' :: (ds ++ rest),
    skipSpace (ds ++ rest), tail, ?_, ?_, ?_, hj, ht⟩
  · rw [List.append_assoc, skipSpace_append hf, quoted, List.cons_append, List.cons_append,
      skipSpace_cons (by decide)]
    simp
  · have htext := readText_of_body hbody (back ++ ':' :: (ds ++ rest))
    rwa [quoted, List.cons_append, List.append_assoc] at htext
  · refine expect_of_skipSpace ?_
    rw [skipSpace_append hb, skipSpace_cons (by decide)]

theorem lastMember {name : String} {j : Json} (ih : ReadAs (.member name j) cs) :
    ReadAs (.members [(name, j)]) cs := by
  intro fuel rest hf
  obtain ⟨fuel, rfl⟩ := Nat.exists_eq_succ_of_ne_zero (n := fuel) (by omega)
  obtain ⟨text, colon, value, tail, hs, hn, hc, hj, ht⟩ :=
    ih fuel ('}' :: rest) (.of_cons (by decide) rest) (by omega)
  rw [hs]
  exact readMembers_last hn hc hj ht

theorem nextMember {name : String} {j : Json} {ms : List (String × Json)}
    (ih : ReadAs (.member name j) cs) (ihs : ReadAs (.members ms) ds) :
    ReadAs (.members ((name, j) :: ms)) (cs ++ ',' :: ds) := by
  intro fuel rest hf
  simp only [List.length_append, List.length_cons] at hf
  obtain ⟨fuel, rfl⟩ := Nat.exists_eq_succ_of_ne_zero (n := fuel) (by omega)
  obtain ⟨text, colon, value, tail, hs, hn, hc, hj, ht⟩ :=
    ih fuel (',' :: (ds ++ '}' :: rest)) (.of_cons (by decide) _) (by omega)
  rw [List.append_assoc, List.cons_append, hs]
  exact readMembers_next hn hc hj ht (ihs fuel rest (by omega))

end ReadAs

theorem Spells.readAs {phrase : Phrase} {cs : List Char} (h : Spells phrase cs) :
    ReadAs phrase cs := by
  -- By induction on what is spelled; the fuel and the text that follows stay free.
  induction h with
  | null | isTrue | isFalse | nan => exact .of_value fun fuel rest _ _ => rfl
  | infinite negative => exact .of_value fun fuel rest _ _ => by cases negative <;> rfl
  | number hn =>
    refine .of_value fun fuel rest hr _ => ?_
    rw [hn.readValue, readNumber_of_text hn hr]
  | text hb =>
    refine .of_value fun fuel rest _ _ => ?_
    have hread := readText_of_body hb rest
    rw [quoted, List.cons_append] at hread ⊢
    rw [readValue, hread]
    rfl
  | emptyArray hb => exact .emptyArray hb
  | array h ih => exact .array h ih
  | emptyObject hb => exact .emptyObject hb
  | object h ih => exact .object h ih
  | item hf h hb ih => exact .item hf h hb ih
  | lastItem _ ih => exact .lastItem ih
  | nextItem _ _ ih ihs => exact .nextItem ih ihs
  | member hf hbody hb _ ih => exact .member hf hbody hb ih
  | lastMember _ ih => exact .lastMember ih
  | nextMember _ _ ih ihs => exact .nextMember ih ihs

theorem ofText_eq_ok_iff {text : List Char} {j : Json} :
    ofText text = .ok j ↔ IsDocument text j := by
  constructor
  · intro h
    unfold ofText at h
    split at h
    · cases h
    · obtain ⟨⟨j, tail⟩, hj, hend⟩ := Except.of_bind h
      obtain ⟨front, hf, ht⟩ := exists_blank_skipSpace text
      obtain ⟨cs, hcs, hs⟩ := (sound _).value hj
      obtain ⟨back, hb, hback⟩ := exists_blank_skipSpace tail
      dsimp only at hend
      split at hend
      · next hnil =>
        cases hend
        rw [hnil, List.append_nil] at hback
        rw [IsDocument, ht, hs, hback]
        exact .item hf hcs hb
      · cases hend
  · intro h
    obtain ⟨tail, hj, ht⟩ := h.readAs (2 * text.length + 2) [] nofun (by omega)
    have hmark : text.head? ≠ some (Char.ofNat 0xFEFF) := by
      intro hhead
      obtain ⟨rest, rfl⟩ := List.head?_eq_some_iff.1 hhead
      have hstart := h.starts_skipSpace rfl []
      rw [List.append_nil, skipSpace_cons (by decide)] at hstart
      exact hstart.head_ne rfl
    rw [List.append_nil] at hj
    rw [ofText, if_neg hmark, hj]
    simp [ht, bind, Except.bind, pure, Except.pure]

end Inlay.Json
