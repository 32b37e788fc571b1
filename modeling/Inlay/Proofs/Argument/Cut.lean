import Inlay.Argument
import Inlay.Proofs.Path.Cut
import Inlay.Proofs.Text.Trim

/-! Where argument lists are cut: at the delimiters outside strings, and nowhere else. What is
outside is told by a grammar of strings, which the state of the cut follows from character to
character. -/

namespace Inlay.Argument

/-! Strings. -/

/-- What stands in a string between its quotes. A backslash goes together with the character after
it, and that may be the quote. -/
inductive StringBody (quote : Char) : List Char → Prop
  | nil : StringBody quote []
  | plain {c : Char} {cs : List Char} : c ≠ quote → c ≠ '\\' → StringBody quote cs →
    StringBody quote (c :: cs)
  | guarded {c : Char} {cs : List Char} : StringBody quote cs → StringBody quote ('\\' :: c :: cs)

inductive Closed : List Char → Prop
  | nil : Closed []
  | plain {c : Char} {cs : List Char} : isQuote c = false → Closed cs → Closed (c :: cs)
  | string {quote : Char} {body cs : List Char} : isQuote quote = true → StringBody quote body →
    Closed cs → Closed (quote :: (body ++ quote :: cs))

theorem ne_backslash_of_isQuote {quote : Char} (h : isQuote quote = true) : quote ≠ '\\' :=
  Text.ne_of_class h (by decide)

theorem step_inside_quote {quote : Char} (hq : isQuote quote = true) :
    QuoteState.step (.inside quote) quote = .outside := by
  rw [QuoteState.step, if_neg (ne_backslash_of_isQuote hq), if_pos rfl]

theorem StringBody.foldl_inside {quote : Char} {body : List Char} (h : StringBody quote body) :
    body.foldl QuoteState.step (.inside quote) = .inside quote := by
  induction h with
  | nil => rfl
  | plain hq hb _ ih => rwa [List.foldl_cons, QuoteState.step, if_neg hb, if_neg hq]
  | guarded _ ih => exact ih

theorem exists_stringBody {quote : Char} {cs : List Char}
    (h : cs.foldl QuoteState.step (.inside quote) = .outside) :
    ∃ body rest, cs = body ++ quote :: rest ∧ StringBody quote body ∧
      rest.foldl QuoteState.step .outside = .outside := by
  induction hl : cs.length using Nat.strongRecOn generalizing cs with
  | ind n ih =>
    subst hl
    match cs, h with
    | c :: cs, h =>
      by_cases hb : c = '\\'
      · subst hb
        match cs, h with
        | d :: cs, h =>
          have h : cs.foldl QuoteState.step (.inside quote) = .outside := h
          have hl : cs.length < cs.length + 2 := Nat.lt_add_of_pos_right (by decide)
          obtain ⟨body, rest, rfl, hbody, hrest⟩ := ih cs.length hl h rfl
          exact ⟨_, rest, rfl, .guarded hbody, hrest⟩
      rw [List.foldl_cons, QuoteState.step, if_neg hb] at h
      by_cases hq : c = quote
      · rw [if_pos hq] at h
        exact ⟨[], cs, by rw [hq]; rfl, .nil, h⟩
      · rw [if_neg hq] at h
        obtain ⟨body, rest, rfl, hbody, hrest⟩ := ih cs.length (by simp) h rfl
        exact ⟨_, rest, rfl, .plain hq hb hbody, hrest⟩

theorem step_outside_of_isQuote {c : Char} (h : isQuote c = true) :
    QuoteState.step .outside c = .inside c := by
  rw [QuoteState.step, if_pos h]

theorem step_outside_of_plain {c : Char} (h : isQuote c = false) :
    QuoteState.step .outside c = .outside := by
  rw [QuoteState.step, h]
  rfl

theorem foldl_eq_outside_iff {cs : List Char} :
    cs.foldl QuoteState.step .outside = .outside ↔ Closed cs := by
  constructor
  · intro h
    induction hl : cs.length using Nat.strongRecOn generalizing cs with
    | ind n ih =>
      subst hl
      match cs, h with
      | [], _ => exact .nil
      | c :: cs, h =>
        cases hc : isQuote c with
        | false =>
          rw [List.foldl_cons, step_outside_of_plain hc] at h
          exact .plain hc (ih cs.length (by simp) h rfl)
        | true =>
          rw [List.foldl_cons, step_outside_of_isQuote hc] at h
          obtain ⟨body, rest, rfl, hbody, hrest⟩ := exists_stringBody h
          exact .string hc hbody (ih rest.length (by simp; omega) hrest rfl)
  · intro h
    induction h with
    | nil => rfl
    | plain hc _ ih => rwa [List.foldl_cons, step_outside_of_plain hc]
    | string hq hbody _ ih =>
      rwa [List.foldl_cons, step_outside_of_isQuote hq, List.foldl_append, hbody.foldl_inside,
        List.foldl_cons, step_inside_quote hq]

/-! Tokens. -/

def Whole (delimiter : Char) (state : QuoteState) (cs : List Char) : Prop :=
  ∀ before after, cs = before ++ delimiter :: after →
    before.foldl QuoteState.step state ≠ .outside

inductive Tokens (delimiter : Char) : QuoteState → List (List Char) → Prop
  | last {state : QuoteState} {t : List Char} : Whole delimiter state t →
    Tokens delimiter state [t]
  | more {state : QuoteState} {t : List Char} {ts : List (List Char)} : Whole delimiter state t →
    t.foldl QuoteState.step state = .outside → Tokens delimiter .outside ts →
    Tokens delimiter state (t :: ts)

theorem Tokens.ne_nil {delimiter : Char} {state : QuoteState} {ts : List (List Char)}
    (h : Tokens delimiter state ts) : ts ≠ [] := by
  cases h <;> exact List.cons_ne_nil _ _

variable {delimiter c : Char} {state : QuoteState} {cs t : List Char} {ts : List (List Char)}

theorem whole_nil : Whole delimiter state [] := by
  rintro (_ | _) after ⟨⟩

theorem whole_of_notMem (h : delimiter ∉ cs) : Whole delimiter state cs := by
  rintro before after rfl
  simp at h

theorem whole_cons_iff : Whole delimiter state (c :: cs) ↔
    ¬(state = .outside ∧ c = delimiter) ∧ Whole delimiter (state.step c) cs := by
  constructor
  · refine fun h => ⟨?_, ?_⟩
    · rintro ⟨rfl, rfl⟩
      exact h [] cs rfl rfl
    · rintro before after rfl
      exact h (c :: before) after rfl
  · rintro ⟨hc, h⟩ before after he
    cases before with
    | nil => exact fun hs => hc ⟨hs, (List.cons.inj he).1⟩
    | cons b before =>
      obtain ⟨rfl, rfl⟩ := List.cons.inj he
      exact h before after rfl

theorem whole_outside_iff : Whole delimiter .outside cs ↔
    ∀ before after, cs = before ++ delimiter :: after → ¬Closed before :=
  forall₃_congr fun _ _ _ => not_congr foldl_eq_outside_iff

theorem Tokens.extend (hc : ¬(state = .outside ∧ c = delimiter))
    (h : Tokens delimiter (state.step c) ts) : Tokens delimiter state (Path.extend c ts) := by
  cases h with
  | last hw => exact .last (whole_cons_iff.2 ⟨hc, hw⟩)
  | more hw ho h => exact .more (whole_cons_iff.2 ⟨hc, hw⟩) ho h

theorem cut_at_delimiter (hd : isQuote delimiter = false) :
    cut (some delimiter) .outside (delimiter :: cs) = [] :: cut (some delimiter) .outside cs := by
  rw [cut, if_pos ⟨rfl, rfl, by simp [hd]⟩]

theorem cut_elsewhere (hc : ¬(state = .outside ∧ c = delimiter)) :
    cut (some delimiter) state (c :: cs) =
      Path.extend c (cut (some delimiter) (state.step c) cs) := by
  rw [cut, if_neg fun h => hc ⟨h.1, (Option.some.inj h.2.1).symm⟩]

theorem tokens_cut (hd : isQuote delimiter = false) (state : QuoteState) (cs : List Char) :
    Tokens delimiter state (cut (some delimiter) state cs) := by
  induction cs generalizing state with
  | nil => exact .last whole_nil
  | cons c cs ih =>
    by_cases hc : state = .outside ∧ c = delimiter
    · obtain ⟨rfl, rfl⟩ := hc
      rw [cut_at_delimiter hd]
      exact .more whole_nil rfl (ih .outside)
    · rw [cut_elsewhere hc]
      exact (ih _).extend hc

theorem intercalate_cons_nil {pieces : List (List Char)} (h : pieces ≠ []) :
    [delimiter].intercalate ([] :: pieces) = delimiter :: [delimiter].intercalate pieces := by
  rw [List.intercalate_cons_of_ne_nil h]
  rfl

theorem intercalate_cut (hd : isQuote delimiter = false) (state : QuoteState) (cs : List Char) :
    [delimiter].intercalate (cut (some delimiter) state cs) = cs := by
  induction cs generalizing state with
  | nil => simp [cut]
  | cons c cs ih =>
    by_cases hc : state = .outside ∧ c = delimiter
    · obtain ⟨rfl, rfl⟩ := hc
      rw [cut_at_delimiter hd, intercalate_cons_nil (tokens_cut hd _ _).ne_nil, ih]
    · rw [cut_elsewhere hc, Path.intercalate_extend, ih]

theorem cut_whole (h : Whole delimiter state t) : cut (some delimiter) state t = [t] := by
  induction t generalizing state with
  | nil => rfl
  | cons c t ih =>
    obtain ⟨hc, ht⟩ := whole_cons_iff.1 h
    rw [cut_elsewhere hc, ih ht, Path.extend]

theorem cut_whole_append (hd : isQuote delimiter = false) (h : Whole delimiter state t)
    (ho : t.foldl QuoteState.step state = .outside) (cs : List Char) :
    cut (some delimiter) state (t ++ delimiter :: cs) =
      t :: cut (some delimiter) .outside cs := by
  induction t generalizing state with
  | nil =>
    obtain rfl : state = .outside := ho
    exact cut_at_delimiter hd
  | cons c t ih =>
    obtain ⟨hc, ht⟩ := whole_cons_iff.1 h
    rw [List.cons_append, cut_elsewhere hc, ih ht ho, Path.extend]

theorem Tokens.cut_intercalate (hd : isQuote delimiter = false) (h : Tokens delimiter state ts) :
    cut (some delimiter) state ([delimiter].intercalate ts) = ts := by
  induction h with
  | last hw => rw [List.intercalate_singleton, cut_whole hw]
  | more hw ho h ih =>
    rw [List.intercalate_cons_of_ne_nil h.ne_nil, List.append_assoc, List.singleton_append,
      cut_whole_append hd hw ho, ih]

/-! Lists. -/

structure Divides (delimiter : Char) (raw : List Char) (tokens : List (List Char)) : Prop where
  join : [delimiter].intercalate tokens = raw
  closed : ∀ t ∈ tokens.dropLast, Closed t
  whole : ∀ t ∈ tokens, ∀ before after, t = before ++ delimiter :: after → ¬Closed before

theorem tokens_outside_iff : Tokens delimiter .outside ts ↔
    ts ≠ [] ∧ (∀ t ∈ ts.dropLast, Closed t) ∧
      ∀ t ∈ ts, ∀ before after, t = before ++ delimiter :: after → ¬Closed before := by
  constructor
  · intro h
    refine ⟨h.ne_nil, ?_⟩
    generalize hs : QuoteState.outside = state at h
    induction h with
    | last hw =>
      subst hs
      exact ⟨nofun, List.forall_mem_singleton.2 (whole_outside_iff.1 hw)⟩
    | more hw ho h ih =>
      subst hs
      obtain ⟨hclosed, hwhole⟩ := ih rfl
      rw [List.dropLast_cons_of_ne_nil h.ne_nil]
      exact ⟨List.forall_mem_cons.2 ⟨foldl_eq_outside_iff.1 ho, hclosed⟩,
        List.forall_mem_cons.2 ⟨whole_outside_iff.1 hw, hwhole⟩⟩
  · rintro ⟨hne, hclosed, hwhole⟩
    induction ts with
    | nil => exact absurd rfl hne
    | cons t ts ih =>
      rw [List.forall_mem_cons] at hwhole
      have hw : Whole delimiter .outside t := whole_outside_iff.2 hwhole.1
      by_cases hts : ts = []
      · rw [hts]
        exact .last hw
      · rw [List.dropLast_cons_of_ne_nil hts, List.forall_mem_cons] at hclosed
        exact .more hw (foldl_eq_outside_iff.2 hclosed.1) (ih hts hclosed.2 hwhole.2)

theorem split_blank {delimiter : Option Char} (h : Text.IsBlankText cs) :
    split delimiter cs = [] := by
  rw [split, Text.trim_blank h]
  rfl

theorem split_of_not_blank {delimiter : Option Char} (h : ¬Text.IsBlankText cs) :
    split delimiter cs = cut delimiter .outside cs := by
  rw [split, if_neg fun he => h (Text.isBlankText_of_trim_eq_nil (List.isEmpty_iff.1 he))]

theorem divides_iff (hd : isQuote delimiter = false) (hraw : cs ≠ []) :
    Divides delimiter cs ts ↔ ts = cut (some delimiter) .outside cs := by
  constructor
  · rintro ⟨rfl, hclosed, hwhole⟩
    have hne : ts ≠ [] := by
      rintro rfl
      exact hraw rfl
    exact ((tokens_outside_iff.2 ⟨hne, hclosed, hwhole⟩).cut_intercalate hd).symm
  · rintro rfl
    obtain ⟨-, hclosed, hwhole⟩ := tokens_outside_iff.1 (tokens_cut hd .outside cs)
    exact ⟨intercalate_cut hd .outside cs, hclosed, hwhole⟩

/-- A blank list has no tokens. Any other is divided outside strings: its tokens are the only ones
that it is so divided into, and none of them is split any further. -/
theorem split_outside_strings (delimiter : Char) (hd : isQuote delimiter = false)
    (raw : List Char) :
    (Text.IsBlankText raw → split (some delimiter) raw = []) ∧
      (¬Text.IsBlankText raw →
        (∀ tokens, Divides delimiter raw tokens ↔ tokens = split (some delimiter) raw) ∧
          ∀ t ∈ split (some delimiter) raw, ¬Text.IsBlankText t →
            split (some delimiter) t = [t]) := by
  refine ⟨split_blank, fun hraw => ?_⟩
  have hne : raw ≠ [] := by
    rintro rfl
    exact hraw nofun
  have hdivides : ∀ tokens, Divides delimiter raw tokens ↔
      tokens = cut (some delimiter) .outside raw := fun _ => divides_iff hd hne
  rw [split_of_not_blank hraw]
  refine ⟨hdivides, fun t ht hblank => ?_⟩
  have hw : Whole delimiter .outside t := whole_outside_iff.2 (((hdivides _).2 rfl).whole t ht)
  rw [split_of_not_blank hblank, cut_whole hw]

/-- A backslash divides outside strings. In a string it guards a quote, and the last string is never
closed. -/
theorem split_outside_strings_backslash :
    let raw := "a\\'b\\'c'\\\"d\\".toList
    let quoted := "'b\\'c'".toList
    isQuote '\\' = false ∧ ¬Text.IsBlankText raw ∧ ¬Text.IsBlankText quoted ∧
      Divides '\\' raw [['a'], quoted, ['"', 'd', '\\']] ∧
      split (some '\\') quoted = [quoted] := by
  intro raw quoted
  have hd : isQuote '\\' = false := by decide
  have hraw : ¬Text.IsBlankText raw := fun h => absurd (h 'a' (by decide)) (by decide)
  have hquoted : ¬Text.IsBlankText quoted := fun h => absurd (h 'b' (by decide)) (by decide)
  have hs : split (some '\\') raw = [['a'], quoted, ['"', 'd', '\\']] := by decide
  obtain ⟨hdivides, hagain⟩ := (split_outside_strings '\\' hd raw).2 hraw
  exact ⟨hd, hraw, hquoted, (hdivides _).2 hs.symm, hagain quoted (by simp [hs]) hquoted⟩

end Inlay.Argument
