import Inlay.Proofs.Tag.Grammar

/-! Occurrences of tags in a text. A scan cuts a text into pieces without loss, and the tags among
the pieces are all that occur in it, each where it stands. -/

namespace Inlay

namespace Tag

def OccursAt (cap : Nat) (text : List Char) (i : Nat) (t : Tag) : Prop :=
  t.Admissible cap ∧ t.print <+: text.drop i

def isInner (c : Char) : Bool := isBody c || c == '~' || c == '/'

theorem occursAt_iff {cap i : Nat} {text : List Char} {t : Tag} :
    OccursAt cap text i t ↔ at? cap (text.drop i) = some t :=
  at?_eq_some_iff.symm

theorem OccursAt.unique {cap i : Nat} {text : List Char} {t u : Tag}
    (ht : OccursAt cap text i t) (hu : OccursAt cap text i u) : t = u := by
  rw [occursAt_iff] at ht hu
  exact Option.some.inj (ht.symm.trans hu)

theorem OccursAt.getElem?_eq {cap i : Nat} {text : List Char} {t : Tag}
    (h : OccursAt cap text i t) : text[i]? = some '<' := by
  obtain ⟨-, u, hu⟩ := h
  rw [← List.head?_drop, ← hu]
  rfl

theorem Admissible.print_eq {cap : Nat} {t : Tag} (ht : t.Admissible cap) :
    ∃ inner, t.print = '<' :: inner ++ ['>'] ∧ ∀ c ∈ inner, isInner c := by
  have hp : ∀ c ∈ t.path.toList, isInner c := fun c hc => by simp [isInner, ht.path_body c hc]
  have hs : ∀ c ∈ (if t.raw then ['~'] else []) ++ ['/'], isInner c := by
    cases t.raw <;> simp [isInner]
  cases hn : t.processor with
  | none =>
    refine ⟨t.path.toList ++ ((if t.raw then ['~'] else []) ++ ['/']), ?_, fun c hc => ?_⟩
    · simp [print, ending, hn]
    · exact (List.mem_append.1 hc).elim (hp c) (hs c)
  | some name =>
    have hb : ∀ c ∈ ':' :: ':' :: name.toList, isInner c := fun c hc => by
      simp [isInner, (ht.name name hn).body c hc]
    refine ⟨t.path.toList ++ (':' :: ':' :: name.toList ++
      ((if t.raw then ['~'] else []) ++ ['/'])), ?_, fun c hc => ?_⟩
    · simp [print, ending, hn]
    · rcases List.mem_append.1 hc with hc | hc
      · exact hp c hc
      · exact (List.mem_append.1 hc).elim (hb c) (hs c)

theorem print_length_pos (t : Tag) : 0 < t.print.length := by simp [print]

theorem Admissible.not_occursAt_within {cap i : Nat} {t u : Tag} (ht : t.Admissible cap)
    (rest : List Char) (hi : 0 < i) (hl : i < t.print.length) :
    ¬OccursAt cap (t.print ++ rest) i u := by
  intro hu
  obtain ⟨inner, hp, hin⟩ := ht.print_eq
  have hc := hu.getElem?_eq
  rw [List.getElem?_append_left hl, hp] at hc
  obtain ⟨j, rfl⟩ : ∃ j, i = j + 1 := ⟨i - 1, by omega⟩
  have hm : '<' ∈ inner ++ ['>'] := List.mem_of_getElem? (by simpa using hc)
  rcases List.mem_append.1 hm with hm | hm
  · exact absurd (hin _ hm) (by decide)
  · exact absurd hm (by decide)

end Tag

namespace Piece

open Tag (OccursAt at?)

def text (ps : List Piece) : List Char := ps.flatMap print

def TagAt (ps : List Piece) (i : Nat) (t : Tag) : Prop :=
  ∃ before after, ps = before ++ .tag t :: after ∧ (text before).length = i

theorem not_tagAt_nil {i : Nat} {t : Tag} : ¬TagAt [] i t := by
  rintro ⟨before, after, h, -⟩
  simp at h

theorem tagAt_char_cons {c : Char} {ps : List Piece} {i : Nat} {t : Tag} :
    TagAt (.char c :: ps) i t ↔ ∃ j, i = j + 1 ∧ TagAt ps j t := by
  constructor
  · rintro ⟨before, after, h, rfl⟩
    cases before with
    | nil => simp at h
    | cons p before =>
      obtain ⟨rfl, rfl⟩ := List.cons.inj h
      exact ⟨_, by simp [text, print, Nat.add_comm], before, after, rfl, rfl⟩
  · rintro ⟨j, rfl, before, after, rfl, rfl⟩
    exact ⟨.char c :: before, after, rfl, by simp [text, print, Nat.add_comm]⟩

theorem tagAt_tag_cons {u : Tag} {ps : List Piece} {i : Nat} {t : Tag} :
    TagAt (.tag u :: ps) i t ↔ (i = 0 ∧ t = u) ∨ ∃ j, i = u.print.length + j ∧ TagAt ps j t := by
  constructor
  · rintro ⟨before, after, h, rfl⟩
    cases before with
    | nil =>
      obtain ⟨h, -⟩ := List.cons.inj h
      exact .inl ⟨rfl, (Piece.tag.inj h).symm⟩
    | cons p before =>
      obtain ⟨rfl, rfl⟩ := List.cons.inj h
      exact .inr ⟨_, by simp [text, print], before, after, rfl, rfl⟩
  · rintro (⟨rfl, rfl⟩ | ⟨j, rfl, before, after, rfl, rfl⟩)
    · exact ⟨[], ps, rfl, rfl⟩
    · exact ⟨.tag u :: before, after, rfl, by simp [text, print]⟩

theorem scanFrom_eq_scan_drop (cap skip : Nat) (cs : List Char) :
    scanFrom cap skip cs = scan cap (cs.drop skip) := by
  induction skip generalizing cs with
  | zero => rfl
  | succ skip ih =>
    cases cs with
    | nil => simp [scan, scanFrom]
    | cons c cs => simpa [scanFrom] using ih cs

theorem scan_of_none {cap : Nat} {c : Char} {rest : List Char} (h : at? cap (c :: rest) = none) :
    scan cap (c :: rest) = .char c :: scan cap rest := by
  simp [scan, scanFrom, h]

theorem scan_print_append {cap : Nat} {t : Tag} (ht : t.Admissible cap) (rest : List Char) :
    scan cap (t.print ++ rest) = .tag t :: scan cap rest := by
  have ha : at? cap (t.print ++ rest) = some t :=
    Tag.at?_eq_some_iff.2 ⟨ht, List.prefix_append ..⟩
  obtain ⟨c, cs, hc⟩ := List.exists_cons_of_length_pos t.print_length_pos
  have hd : (cs ++ rest).drop (t.print.length - 1) = rest := by simp [hc]
  rw [hc, List.cons_append] at ha ⊢
  rw [scan, scanFrom, ha]
  simp only [scanFrom_eq_scan_drop, hd]

@[elab_as_elim]
theorem scan_induction (cap : Nat) {motive : List Char → Prop} (nil : motive [])
    (char : ∀ c rest, at? cap (c :: rest) = none → motive rest → motive (c :: rest))
    (tag : ∀ (t : Tag) rest, t.Admissible cap → motive rest → motive (t.print ++ rest))
    (cs : List Char) : motive cs := by
  induction h : cs.length using Nat.strongRecOn generalizing cs with
  | ind n ih =>
    subst h
    cases ha : at? cap cs with
    | none =>
      cases cs with
      | nil => exact nil
      | cons c rest => exact char c rest ha (ih _ (by simp) rest rfl)
    | some t =>
      obtain ⟨ht, rest, rfl⟩ := Tag.at?_eq_some_iff.1 ha
      exact tag t rest ht (ih _ (by simp [t.print_length_pos]) rest rfl)

theorem text_scan (cap : Nat) (cs : List Char) : text (scan cap cs) = cs := by
  induction cs using scan_induction cap with
  | nil => rfl
  | char c rest h ih => rw [scan_of_none h]; simpa [text, print] using ih
  | tag t rest ht ih => rw [scan_print_append ht]; simpa [text, print] using ih

theorem tagAt_scan_iff {cap : Nat} {cs : List Char} {i : Nat} {t : Tag} :
    TagAt (scan cap cs) i t ↔ OccursAt cap cs i t := by
  induction cs using scan_induction cap generalizing i with
  | nil => simp [scan, scanFrom, not_tagAt_nil, OccursAt, Tag.print]
  | char c rest h ih =>
    rw [scan_of_none h, tagAt_char_cons]
    cases i with
    | zero => simp [Tag.occursAt_iff, h]
    | succ i => simp [ih, OccursAt]
  | tag u rest hu ih =>
    rw [scan_print_append hu, tagAt_tag_cons]
    constructor
    · rintro (⟨rfl, rfl⟩ | ⟨j, rfl, hj⟩)
      · exact ⟨hu, List.prefix_append ..⟩
      · simpa [OccursAt] using ih.1 hj
    · intro ht
      rcases Nat.eq_zero_or_pos i with rfl | hi
      · exact .inl ⟨rfl, ht.unique ⟨hu, List.prefix_append ..⟩⟩
      · have hl : u.print.length ≤ i :=
          Nat.le_of_not_lt fun hl => hu.not_occursAt_within rest hi hl ht
        obtain ⟨j, rfl⟩ := Nat.exists_eq_add_of_le hl
        exact .inr ⟨j, rfl, ih.2 (by simpa [OccursAt] using ht)⟩

structure Cuts (cap : Nat) (cs : List Char) (ps : List Piece) : Prop where
  text_eq : text ps = cs
  tagAt_iff : ∀ i t, TagAt ps i t ↔ OccursAt cap cs i t

theorem cuts_scan (cap : Nat) (cs : List Char) : Cuts cap cs (scan cap cs) :=
  ⟨text_scan cap cs, fun _ _ => tagAt_scan_iff⟩

theorem Cuts.of_char_cons {cap : Nat} {c d : Char} {cs : List Char} {ps : List Piece}
    (h : Cuts cap (c :: cs) (.char d :: ps)) : d = c ∧ Cuts cap cs ps := by
  obtain ⟨rfl, ht⟩ : d = c ∧ text ps = cs := by simpa [text, print] using h.text_eq
  refine ⟨rfl, ht, fun i t => ?_⟩
  have hi := h.tagAt_iff (i + 1) t
  simpa [tagAt_char_cons, OccursAt] using hi

theorem Cuts.of_tag_cons {cap : Nat} {t : Tag} {cs : List Char} {ps : List Piece}
    (h : Cuts cap (t.print ++ cs) (.tag t :: ps)) : Cuts cap cs ps := by
  refine ⟨by simpa [text, print] using h.text_eq, fun i u => ?_⟩
  have hi := h.tagAt_iff (t.print.length + i) u
  have := t.print_length_pos
  rw [tagAt_tag_cons] at hi
  simpa [OccursAt, Nat.ne_of_gt this] using hi

theorem Cuts.eq_scan {cap : Nat} {cs : List Char} {ps : List Piece} (h : Cuts cap cs ps) :
    ps = scan cap cs := by
  induction cs using scan_induction cap generalizing ps with
  | nil =>
    cases ps with
    | nil => rfl
    | cons p ps =>
      have ht := h.text_eq
      cases p <;> simp [text, print, Tag.print] at ht
  | char c rest hc ih =>
    cases ps with
    | nil => cases h.text_eq
    | cons p ps =>
      cases p with
      | char d =>
        obtain ⟨rfl, ht⟩ := h.of_char_cons
        rw [scan_of_none hc, ih ht]
      | tag u =>
        have hu := (h.tagAt_iff 0 u).1 (tagAt_tag_cons.2 (.inl ⟨rfl, rfl⟩))
        rw [Tag.occursAt_iff, List.drop_zero, hc] at hu
        cases hu
  | tag t rest ht ih =>
    have h0 := (h.tagAt_iff 0 t).2 ⟨ht, List.prefix_append ..⟩
    cases ps with
    | nil => exact absurd h0 not_tagAt_nil
    | cons p ps =>
      cases p with
      | char d =>
        obtain ⟨j, hj, -⟩ := tagAt_char_cons.1 h0
        omega
      | tag u =>
        have := u.print_length_pos
        obtain ⟨-, rfl⟩ | ⟨j, hj, -⟩ := tagAt_tag_cons.1 h0
        · rw [scan_print_append ht, ih h.of_tag_cons]
        · omega

/-- A scan reports a tag at a position if and only if the text of one of the grammar stands there,
and then no other does. So whatever surrounds a printed tag, it is read back. -/
theorem scan_decodes_grammar (cap : Nat) (text : String) (i : Nat) :
    (∀ t, TagAt (scan cap text.toList) i t ↔
        t.Admissible cap ∧ t.print <+: text.toList.drop i) ∧
      (∀ t u : Tag, t.Admissible cap → t.print <+: text.toList.drop i →
        u.Admissible cap → u.print <+: text.toList.drop i → t = u) ∧
      ∀ (t : Tag) (before after : List Char), t.Admissible cap →
        TagAt (scan cap (before ++ t.print ++ after)) before.length t := by
  refine ⟨fun t => tagAt_scan_iff, fun t u ht htp hu hup => ?_, fun t before after ht => ?_⟩
  · exact Tag.OccursAt.unique ⟨ht, htp⟩ ⟨hu, hup⟩
  · exact tagAt_scan_iff.2 ⟨ht, by simp⟩

theorem scan_decodes_grammar_three_colons :
    let t : Tag := ⟨"a:", some "json", true⟩
    t.Admissible 2 ∧ TagAt (scan 2 ("<b<".toList ++ t.print ++ "/>".toList)) 3 t ∧
      scan 2 "<a:::json~/>".toList = [.tag t] := by
  have ht : Tag.Admissible 2 ⟨"a:", some "json", true⟩ :=
    ⟨by decide, List.all_eq_true.1 (by decide), by decide,
      by rintro _ ⟨⟩; exact ⟨by decide, List.all_eq_true.1 (by decide)⟩, by rintro ⟨⟩⟩
  exact ⟨ht, (scan_decodes_grammar 2 "" 0).2.2 _ "<b<".toList _ ht, by decide⟩

end Piece

end Inlay
