import Inlay.Proofs.Argument.Cut
import Inlay.Proofs.Argument.Literal
import Mathlib.Data.List.Forall2

/-! Lists of literals as they are written. A list is split where its commas stand between literals,
and each literal is read back, whatever commas, colons and parentheses are in it. -/

namespace Inlay.Argument

/-- The texts of lists: literals between commas, with blanks around each. -/
inductive Written : List Literal → List Char → Prop
  | none {cs : List Char} (h : Text.IsBlankText cs) : Written [] cs
  | one {front back : List Char} (hf : Text.IsBlankText front) (l : Literal)
    (hb : Text.IsBlankText back) : Written [l] (front ++ l.print ++ back)
  | more {front back cs : List Char} {ls : List Literal} (hf : Text.IsBlankText front)
    (l : Literal) (hb : Text.IsBlankText back) (hn : ls ≠ []) (h : Written ls cs) :
    Written (l :: ls) (front ++ l.print ++ back ++ ',' :: cs)

def spaced : List Literal → List Char
  | [] => []
  | [l] => l.print
  | l :: l' :: ls => l.print ++ ',' :: ' ' :: spaced (l' :: ls)

theorem Written.prepend {front cs : List Char} {ls : List Literal} (hf : Text.IsBlankText front)
    (h : Written ls cs) : Written ls (front ++ cs) := by
  have hb : ∀ {cs}, Text.IsBlankText cs → Text.IsBlankText (front ++ cs) := fun h c hc =>
    (List.mem_append.1 hc).elim (hf c) (h c)
  cases h with
  | none h => exact .none (hb h)
  | one h l ht => simpa using Written.one (hb h) l ht
  | more h l ht hn h' => simpa using Written.more (hb h) l ht hn h'

theorem written_spaced (ls : List Literal) : Written ls (spaced ls) := by
  have hn : Text.IsBlankText [] := nofun
  have hs : Text.IsBlankText [' '] := by
    rintro c hc
    rw [List.mem_singleton.1 hc]
    decide
  induction ls with
  | nil => exact .none hn
  | cons l ls ih =>
    cases ls with
    | nil => simpa [spaced] using Written.one hn l hn
    | cons l' ls =>
      simpa [spaced] using Written.more hn l hn (List.cons_ne_nil l' ls) (ih.prepend hs)

/-! What a text between two states adds to the pieces. -/

def Passes (state : QuoteState) (cs : List Char) (state' : QuoteState) : Prop :=
  ∀ rest, cut (some ',') state (cs ++ rest) = cs.foldr Path.extend (cut (some ',') state' rest)

namespace Passes

variable {state state' state'' : QuoteState} {cs ds : List Char} {c : Char}

theorem nil : Passes state [] state := fun _ => rfl

theorem append (h : Passes state cs state') (h' : Passes state' ds state'') :
    Passes state (cs ++ ds) state'' := by
  intro rest
  rw [List.append_assoc, h, h', List.foldr_append]

theorem step (h : state = .outside → c ≠ ',') (hs : state.step c = state') :
    Passes state [c] state' := by
  intro rest
  rw [List.singleton_append, cut_elsewhere fun hc => h hc.1 hc.2, hs, List.foldr_cons,
    List.foldr_nil]

theorem outside (hq : ∀ c ∈ cs, isQuote c = false) (hc : ',' ∉ cs) :
    Passes .outside cs .outside := by
  induction cs with
  | nil => exact nil
  | cons c cs ih =>
    rw [List.forall_mem_cons] at hq
    rw [List.mem_cons, not_or] at hc
    have h : Passes .outside [c] .outside :=
      step (fun _ => Ne.symm hc.1) (step_outside_of_plain hq.1)
    exact h.append (ih hq.2 hc.2)

end Passes

theorem Quotation.passes_body {quote : Char} {marked : List (Bool × Char)}
    (h : ∀ c, (false, c) ∈ marked → c ≠ quote ∧ c ≠ '\\') :
    Passes (.inside quote) (body marked) (.inside quote) := by
  induction marked with
  | nil => exact .nil
  | cons m marked ih =>
    obtain ⟨b, c⟩ := m
    have ht : Passes (.inside quote) (body marked) (.inside quote) :=
      ih fun d hd => h d (List.mem_cons_of_mem _ hd)
    refine Passes.append ?_ ht
    cases b with
    | true =>
      have hb : Passes (.inside quote) ['\\'] (.escaped quote) := Passes.step (by rintro ⟨⟩) rfl
      have hc : Passes (.escaped quote) [c] (.inside quote) := Passes.step (by rintro ⟨⟩) rfl
      exact hb.append hc
    | false =>
      obtain ⟨hq, hb⟩ := h c List.mem_cons_self
      have hs : QuoteState.step (.inside quote) c = .inside quote := by
        rw [QuoteState.step, if_neg hb, if_neg hq]
      exact Passes.step (by rintro ⟨⟩) hs

theorem Quotation.passes (q : Quotation) : Passes .outside q.print .outside := by
  have hne : q.quote ≠ ',' := Text.ne_of_class q.isQuote_quote (by decide)
  have ho : Passes .outside [q.quote] (.inside q.quote) :=
    Passes.step (fun _ => hne) (step_outside_of_isQuote q.isQuote_quote)
  have hc : Passes (.inside q.quote) [q.quote] .outside :=
    Passes.step (by rintro ⟨⟩) (step_inside_quote q.isQuote_quote)
  exact (ho.append (passes_body q.plain)).append hc

theorem passes_of_isPlain {cs : List Char} (h : ∀ c ∈ cs, isPlain c = true) :
    Passes .outside cs .outside :=
  .outside (fun c hc => isQuote_of_isPlain (h c hc)) fun hc => absurd (h _ hc) (by decide)

theorem Literal.passes (l : Literal) : Passes .outside l.print .outside := by
  cases l with
  | quotation q => exact q.passes
  | numeral n => exact passes_of_isPlain n.print_isPlain
  | word b letters h => exact passes_of_isPlain (letters_isPlain h)
  | mention m => exact passes_of_isPlain m.print_isPlain

theorem passes_of_isBlankText {cs : List Char} (h : Text.IsBlankText cs) :
    Passes .outside cs .outside := by
  refine .outside (fun c hc => ?_) fun hc => absurd (h _ hc) (by decide)
  rw [isQuote, beq_false_of_ne (Text.ne_of_class (h c hc) (by decide)),
    beq_false_of_ne (Text.ne_of_class (h c hc) (by decide)), Bool.or_false]

namespace Literal

variable {front back : List Char}

theorem passes_padded (hf : Text.IsBlankText front) (l : Literal) (hb : Text.IsBlankText back) :
    Passes .outside (front ++ l.print ++ back) .outside :=
  ((passes_of_isBlankText hf).append l.passes).append (passes_of_isBlankText hb)

theorem trim_padded (hf : Text.IsBlankText front) (l : Literal) (hb : Text.IsBlankText back) :
    Text.trim (front ++ l.print ++ back) = l.print := by
  rw [Text.trim_append_right hb, Text.trim_append_left hf, Text.trim_of_isTrimmed l.isTrimmed_print]

theorem exists_mem_print (l : Literal) : ∃ c ∈ l.print, Text.isBlank c = false := by
  obtain ⟨c, cs, h⟩ := List.exists_cons_of_ne_nil l.print_ne_nil
  refine ⟨c, h ▸ List.mem_cons_self, l.isTrimmed_print.1 c ?_⟩
  rw [h, List.head?_cons]
  rfl

end Literal

/-! A list is split into the texts of its literals. -/

namespace Written

variable {ls : List Literal} {cs : List Char}

theorem trim_cut (h : Written ls cs) (hn : ls ≠ []) :
    (cut (some ',') .outside cs).map Text.trim = ls.map Literal.print := by
  induction h with
  | none => exact absurd rfl hn
  | @one front back hf l hb =>
    have hp := l.passes_padded hf hb []
    rw [List.append_nil] at hp
    rw [hp, cut, Path.foldr_extend, List.append_nil, List.map_singleton, l.trim_padded hf hb,
      List.map_singleton]
  | @more front back cs ls hf l hb hne _ ih =>
    have hc : cut (some ',') .outside (',' :: cs) = [] :: cut (some ',') .outside cs := by
      rw [cut, if_pos ⟨rfl, rfl, by decide⟩]
    rw [l.passes_padded hf hb (',' :: cs), hc, Path.foldr_extend, List.append_nil, List.map_cons,
      l.trim_padded hf hb, ih hne, List.map_cons]

theorem exists_mem (h : Written ls cs) (hn : ls ≠ []) : ∃ c ∈ cs, Text.isBlank c = false := by
  cases h with
  | none => exact absurd rfl hn
  | one hf l hb =>
    obtain ⟨c, hc, hl⟩ := l.exists_mem_print
    exact ⟨c, by simp [hc], hl⟩
  | more hf l hb =>
    obtain ⟨c, hc, hl⟩ := l.exists_mem_print
    exact ⟨c, by simp [hc], hl⟩

theorem trim_split (h : Written ls cs) :
    (split (some ',') cs).map Text.trim = ls.map Literal.print := by
  rw [split]
  cases ls with
  | nil =>
    cases h with
    | none hb => rw [Text.trim_blank hb]; rfl
  | cons l ls =>
    have hn : ¬(Text.trim cs).isEmpty = true := by
      intro he
      obtain ⟨c, hc, hl⟩ := h.exists_mem (List.cons_ne_nil l ls)
      have hb := Text.isBlankText_of_trim_eq_nil (List.isEmpty_iff.1 he) c hc
      rw [hl] at hb
      cases hb
    rw [if_neg hn, h.trim_cut (List.cons_ne_nil l ls)]

end Written

/-! To trim a list first makes no difference. -/

def PaddedAlike (pieces pieces' : List (List Char)) : Prop :=
  List.Forall₂ (fun piece piece' => ∃ back, Text.IsBlankText back ∧ piece = piece' ++ back)
    pieces pieces'

theorem PaddedAlike.extend (c : Char) {pieces pieces' : List (List Char)}
    (h : PaddedAlike pieces pieces') :
    PaddedAlike (Path.extend c pieces) (Path.extend c pieces') := by
  cases h with
  | nil => exact .cons ⟨[], List.forall_mem_nil _, rfl⟩ .nil
  | cons hp h =>
    obtain ⟨back, hb, rfl⟩ := hp
    exact .cons ⟨back, hb, rfl⟩ h

theorem PaddedAlike.trim {pieces pieces' : List (List Char)} (h : PaddedAlike pieces pieces') :
    pieces.map Text.trim = pieces'.map Text.trim := by
  induction h with
  | nil => rfl
  | cons hp _ ih =>
    obtain ⟨back, hb, rfl⟩ := hp
    rw [List.map_cons, List.map_cons, ih, Text.trim_append_right hb]

theorem cut_append_blank {back : List Char} (h : Text.IsBlankText back) (state : QuoteState)
    (cs : List Char) :
    PaddedAlike (cut (some ',') state (cs ++ back)) (cut (some ',') state cs) := by
  induction cs generalizing state with
  | nil =>
    -- No blank is a comma, so there is no cut here, in whatever state a text leaves.
    rw [List.nil_append, cut_whole (whole_of_notMem fun hc => absurd (h _ hc) (by decide)), cut]
    exact .cons ⟨back, h, rfl⟩ .nil
  | cons c cs ih =>
    rw [List.cons_append, cut, cut]
    split
    · exact .cons ⟨[], List.forall_mem_nil _, rfl⟩ (ih .outside)
    · exact (ih _).extend c

theorem trim_cut_append_left {front : List Char} (h : Text.IsBlankText front) (cs : List Char) :
    (cut (some ',') .outside (front ++ cs)).map Text.trim =
      (cut (some ',') .outside cs).map Text.trim := by
  rw [passes_of_isBlankText h cs]
  cases hc : cut (some ',') .outside cs with
  | nil => exact absurd hc (tokens_cut (by decide) _ _).ne_nil
  | cons piece pieces =>
    rw [Path.foldr_extend, List.map_cons, List.map_cons, Text.trim_append_left h]

theorem trim_split_trim (cs : List Char) :
    (split (some ',') (Text.trim cs)).map Text.trim = (split (some ',') cs).map Text.trim := by
  obtain ⟨front, back, hf, hb, hcs⟩ := Text.exists_trim cs
  have hc := congrArg (fun cs => (cut (some ',') .outside cs).map Text.trim) hcs
  simp only [(cut_append_blank hb .outside _).trim, trim_cut_append_left hf] at hc
  rw [split, split, Text.trim_trim]
  split
  · rfl
  · exact hc.symm

variable {τ : Type} [Reports τ] (resolve : String → List String → Act τ Value)

def Literal.eval (l : Literal) : Act τ Value := Argument.eval resolve l.argument

theorem evalAll_eq (raw : String) :
    evalAll resolve raw =
      ((split (some ',') raw.toList).map Text.trim).mapM (evalToken resolve) := by
  rw [evalAll, List.mapM_map]
  rfl

theorem evalAll_trim (cs : List Char) :
    evalAll resolve (String.ofList (Text.trim cs)) = evalAll resolve (String.ofList cs) := by
  rw [evalAll_eq, evalAll_eq, String.toList_ofList, String.toList_ofList, trim_split_trim]

theorem evalAll_written {ls : List Literal} {cs : List Char} (h : Written ls cs) :
    evalAll resolve (String.ofList cs) = ls.mapM (Literal.eval resolve) := by
  have he : evalToken resolve ∘ Literal.print = Literal.eval resolve := by
    funext l
    rw [Function.comp_apply, evalToken, l.ofToken_print]
    rfl
  rw [evalAll_eq, String.toList_ofList, h.trim_split, List.mapM_map, he]

/-! Only references are asked for. -/

def Literal.constant? (l : Literal) : Option Value :=
  match l.argument with
  | .literal v => some v
  | _ => none

def Literal.reference? (l : Literal) : Option (String × List String) :=
  match l.argument with
  | .reference selector keys => some (selector, keys)
  | _ => none

def values : List Literal → List Value → List Value
  | [], _ => []
  | l :: ls, answers =>
    match l.constant?, answers with
    | some v, answers => v :: values ls answers
    | none, answer :: answers => answer :: values ls answers
    | none, [] => []

theorem Literal.eval_constant {l : Literal} {v : Value} (h : l.constant? = some v) :
    l.eval resolve = pure v ∧ l.reference? = none := by
  rw [Literal.constant?] at h
  rw [Literal.eval, Literal.reference?]
  cases ha : l.argument with
  | literal u =>
    rw [ha] at h
    cases h
    exact ⟨rfl, rfl⟩
  | _ =>
    rw [ha] at h
    cases h

theorem Literal.eval_reference {l : Literal} (h : l.constant? = none) :
    ∃ selector keys, l.eval resolve = resolve selector keys ∧
      l.reference? = some (selector, keys) := by
  cases l with
  | mention m => exact ⟨_, _, rfl, rfl⟩
  | word b letters hl => rcases b with _ | b <;> cases h
  | _ => cases h

theorem mapM_eval (ls : List Literal) :
    ls.mapM (Literal.eval resolve) =
      values ls <$> (ls.filterMap Literal.reference?).mapM fun r => resolve r.1 r.2 := by
  induction ls with
  | nil => rfl
  | cons l ls ih =>
    rw [List.mapM_cons, ih]
    cases hc : l.constant? with
    | some v =>
      obtain ⟨he, hr⟩ := l.eval_constant resolve hc
      rw [he, List.filterMap_cons_none hr, pure_bind, bind_pure_comp, Functor.map_map]
      simp only [values, hc]
    | none =>
      obtain ⟨selector, keys, he, hr⟩ := l.eval_reference resolve hc
      rw [he, List.filterMap_cons_some hr, List.mapM_cons]
      simp only [map_bind, bind_pure_comp, Functor.map_map, values, hc]

/-- A written list is read back: what comes out are the values of its literals, in order. For its
references and for nothing else there is one question each, in order, and the answers to these are
their values. -/
theorem evalAll_reads_back {ls : List Literal} {cs : List Char} (h : Written ls cs) :
    evalAll resolve (String.ofList cs) =
      values ls <$> (ls.filterMap Literal.reference?).mapM fun (selector, keys) =>
        resolve selector keys := by
  rw [evalAll_written resolve h]
  exact mapM_eval resolve ls

theorem evalAll_reads_back_quoted_comma :
    let ls : List Literal := [
      .quotation ⟨'\'', [(false, 'a'), (false, ','), (true, '\''), (true, 'b')], rfl, by simp⟩,
      .mention ⟨['g', 'e', 't'], [':', 'x'], by decide, List.all_eq_true.1 rfl, by decide,
        List.all_eq_true.1 rfl⟩,
      .numeral ⟨some true, [0, 7], by decide, by decide⟩,
      .word (some true) ['T', 'r', 'U', 'e'] rfl]
    let ask : String → List String → Act Journal Value := fun selector keys => do
      Act.report selector
      return .list (keys.map .text)
    Written ls "'a,\\'\\b', get::x, -07, TrUe".toList ∧
      evalAll ask "'a,\\'\\b', get::x, -07, TrUe" (.empty false) =
        .ok [.text "a,'b", .list [.text "", .text "x"], .int (-7), .bool true]
          ⟨false, ["get"]⟩ := by
  intro ls ask
  have h : Written ls "'a,\\'\\b', get::x, -07, TrUe".toList := written_spaced ls
  refine ⟨h, ?_⟩
  have he := congrFun (evalAll_reads_back ask h) (.empty false)
  rw [String.ofList_toList] at he
  rw [he]
  rfl

end Inlay.Argument
