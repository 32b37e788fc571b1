import Inlay.Accessor
import Inlay.Proofs.Path.Cut
import Mathlib.Data.List.TakeWhile

/-! Segments as accessors. A word and a text in parentheses is a call, whatever parentheses there
are in the text, and a line feed may follow it. So a segment is taken for a call although its first
parenthesis is closed before the end, or never, and the last section says just where. -/

namespace Inlay

namespace Number

theorem exists_dropFinalLineFeed (cs : List Char) :
    ∃ tail, (tail = [] ∨ tail = ['\n']) ∧ cs = dropFinalLineFeed cs ++ tail := by
  rw [dropFinalLineFeed]
  split
  · next h => exact ⟨['\n'], .inr rfl, (List.dropLast_append_getLast? _ h).symm⟩
  · exact ⟨[], .inl rfl, (List.append_nil cs).symm⟩

theorem dropFinalLineFeed_append {cs tail : List Char} (h : cs.getLast? ≠ some '\n')
    (ht : tail = [] ∨ tail = ['\n']) : dropFinalLineFeed (cs ++ tail) = cs := by
  rcases ht with rfl | rfl
  · rw [List.append_nil, dropFinalLineFeed, if_neg h]
  · rw [dropFinalLineFeed, if_pos List.getLast?_concat, List.dropLast_concat]

end Number

namespace Accessor

structure Parenthesised (name text tail segment : List Char) : Prop where
  name_ne : name ≠ []
  name_chars : ∀ c ∈ name, isWord c = true
  tail_eq : tail = [] ∨ tail = ['\n']
  segment_eq : segment = name ++ '(' :: (text ++ ')' :: tail)

namespace Parenthesised

variable {name text tail segment : List Char} (h : Parenthesised name text tail segment)

include h

theorem takeWhile_eq : segment.takeWhile isWord = name := by
  rw [h.segment_eq, List.takeWhile_append_of_pos h.name_chars,
    List.takeWhile_cons_of_neg (by decide), List.append_nil]

theorem dropWhile_eq : segment.dropWhile isWord = '(' :: (text ++ ')' :: tail) := by
  rw [h.segment_eq, List.dropWhile_append_of_pos h.name_chars,
    List.dropWhile_cons_of_neg (by decide)]

theorem dropFinalLineFeed_eq :
    Number.dropFinalLineFeed (text ++ ')' :: tail) = text ++ [')'] := by
  have hl : (text ++ [')']).getLast? ≠ some '\n' := by
    rw [List.getLast?_concat]
    decide
  rw [← List.singleton_append, ← List.append_assoc, Number.dropFinalLineFeed_append hl h.tail_eq]

theorem unique {name' text' tail' : List Char} (h' : Parenthesised name' text' tail' segment) :
    name' = name ∧ text' = text ∧ tail' = tail := by
  -- The word ends at the first parenthesis, and the text at the last one, a line feed left aside.
  have hr : text' ++ ')' :: tail' = text ++ ')' :: tail :=
    List.tail_eq_of_cons_eq (h'.dropWhile_eq.symm.trans h.dropWhile_eq)
  have ht : text' ++ [')'] = text ++ [')'] := by
    rw [← h'.dropFinalLineFeed_eq, hr, h.dropFinalLineFeed_eq]
  obtain rfl : text' = text := List.append_cancel_right ht
  refine ⟨h'.takeWhile_eq.symm.trans h.takeWhile_eq, rfl, ?_⟩
  exact List.tail_eq_of_cons_eq (List.append_cancel_left hr)

end Parenthesised

theorem ofSegment_of_parenthesised {segment : String} {name text tail : List Char}
    (h : Parenthesised name text tail segment.toList) :
    ofSegment segment = .call (String.ofList name) (String.ofList (Text.trim text)) := by
  have hn : name.isEmpty = false := List.isEmpty_eq_false_iff.2 h.name_ne
  simp [ofSegment, h.takeWhile_eq, h.dropWhile_eq, h.dropFinalLineFeed_eq, hn]

theorem ofSegment_cases (segment : String) :
    ofSegment segment = .key segment ∨
      ∃ name text tail, Parenthesised name text tail segment.toList := by
  rw [ofSegment]
  dsimp only
  split
  · next rest hd =>
    split
    · exact .inl rfl
    · next hc =>
      rw [Bool.or_eq_true, not_or, List.isEmpty_iff, bne_iff_ne, not_not] at hc
      obtain ⟨tail, ht, hr⟩ := Number.exists_dropFinalLineFeed rest
      refine .inr ⟨_, (Number.dropFinalLineFeed rest).dropLast, tail, hc.1,
        fun c hm => List.mem_takeWhile_imp hm, ht, ?_⟩
      have hb : (Number.dropFinalLineFeed rest).dropLast ++ ')' :: tail = rest := by
        rw [← List.singleton_append, ← List.append_assoc, List.dropLast_append_getLast? _ hc.2,
          ← hr]
      rw [hb, ← hd, List.takeWhile_append_dropWhile]
  · exact .inl rfl

theorem ofSegment_of_notMem {segment : String} (h : '(' ∉ segment.toList) :
    ofSegment segment = .key segment := by
  rcases ofSegment_cases segment with hk | ⟨name, text, tail, hp⟩
  · exact hk
  · refine absurd ?_ h
    simp [hp.segment_eq]

theorem eq_of_ofSegment_key {segment name : String} (h : ofSegment segment = .key name) :
    name = segment := by
  rcases ofSegment_cases segment with hk | ⟨name', text, tail, hp⟩
  · exact key.inj (h.symm.trans hk)
  · cases h.symm.trans (ofSegment_of_parenthesised hp)

theorem ofSegment_eq_call_iff {segment name arguments : String} :
    ofSegment segment = .call name arguments ↔
      ∃ text tail, Parenthesised name.toList text tail segment.toList ∧
        arguments = String.ofList (Text.trim text) := by
  constructor
  · intro h
    rcases ofSegment_cases segment with hk | ⟨name', text, tail, hp⟩
    · cases h.symm.trans hk
    · obtain ⟨rfl, rfl⟩ := call.inj (h.symm.trans (ofSegment_of_parenthesised hp))
      exact ⟨text, tail, by rwa [String.toList_ofList], rfl⟩
  · rintro ⟨text, tail, hp, rfl⟩
    rw [ofSegment_of_parenthesised hp, String.ofList_toList]

/-! Calls by the count of their parentheses. -/

def Spans (text : List Char) : Prop :=
  Path.excess text = 0 ∧ ∀ p, p <+: text → 0 ≤ Path.excess p

/-- What a segment is by count: a call if it is a word and one balanced span in parentheses, which
runs to the end, and a key otherwise. -/
inductive Counted (segment : String) : Accessor → Prop
  | call {name text : List Char} : Parenthesised name text [] segment.toList → Spans text →
    Counted segment (.call (String.ofList name) (String.ofList (Text.trim text)))
  | key : (∀ name text, Parenthesised name text [] segment.toList → ¬Spans text) →
    Counted segment (.key segment)

theorem counted_ofSegment_iff {segment : String} :
    Counted segment (ofSegment segment) ↔
      ∀ name text tail, Parenthesised name text tail segment.toList →
        tail = [] ∧ Spans text := by
  constructor
  · intro hc name text tail hp
    rw [ofSegment_of_parenthesised hp] at hc
    generalize ha : Accessor.call (String.ofList name) (String.ofList (Text.trim text)) = a at hc
    cases hc with
    | call hp' hs =>
      obtain ⟨rfl, rfl, rfl⟩ := hp.unique hp'
      exact ⟨rfl, hs⟩
    | key => cases ha
  · intro h
    rcases ofSegment_cases segment with hk | ⟨name, text, tail, hp⟩
    · rw [hk]
      refine .key fun name text hp _ => ?_
      cases hk.symm.trans (ofSegment_of_parenthesised hp)
    · obtain ⟨rfl, hs⟩ := h name text tail hp
      rw [ofSegment_of_parenthesised hp]
      exact .call hp hs

/-- A segment is taken for a call if it is a word and a text in parentheses, which a line feed may
follow, and then carries the word and the text without the blanks around it; any other segment is a
key. This is what it is by count unless its first parenthesis is closed before the end or never, or
a line feed follows. -/
theorem ofSegment_classifies (segment : String) :
    (∀ name arguments, ofSegment segment = .call name arguments ↔
      ∃ text tail, Parenthesised name.toList text tail segment.toList ∧
        arguments = String.ofList (Text.trim text)) ∧
    ((∀ name text tail, ¬Parenthesised name text tail segment.toList) →
      ofSegment segment = .key segment) ∧
    (Counted segment (ofSegment segment) ↔
      ∀ name text tail, Parenthesised name text tail segment.toList →
        tail = [] ∧ Spans text) := by
  refine ⟨fun name arguments => ofSegment_eq_call_iff, fun hn => ?_, counted_ofSegment_iff⟩
  exact (ofSegment_cases segment).resolve_right fun ⟨name, text, tail, hp⟩ => hn name text tail hp

/-- Two spans, a parenthesis that is never closed, and a line feed after the end. -/
theorem not_counted_ofSegment :
    (ofSegment "f(a)(b)" = .call "f" "a)(b" ∧ ¬Counted "f(a)(b)" (ofSegment "f(a)(b)")) ∧
    (ofSegment "f(()" = .call "f" "(" ∧ ¬Counted "f(()" (ofSegment "f(()")) ∧
    (ofSegment "f(a)\n" = .call "f" "a" ∧ ¬Counted "f(a)\n" (ofSegment "f(a)\n")) := by
  have hf : ∀ c ∈ ['f'], isWord c = true := List.forall_mem_singleton.2 rfl
  have hne : ['f'] ≠ [] := by decide
  refine ⟨⟨by decide, fun hc => ?_⟩, ⟨by decide, fun hc => ?_⟩, ⟨by decide, fun hc => ?_⟩⟩
  · obtain ⟨-, -, hs⟩ := counted_ofSegment_iff.1 hc ['f'] ['a', ')', '(', 'b'] []
      ⟨hne, hf, .inl rfl, by decide⟩
    exact absurd (hs ['a', ')'] ⟨['(', 'b'], rfl⟩) (by decide)
  · obtain ⟨-, hs, -⟩ := counted_ofSegment_iff.1 hc ['f'] ['('] [] ⟨hne, hf, .inl rfl, by decide⟩
    exact absurd hs (by decide)
  · obtain ⟨ht, -⟩ := counted_ofSegment_iff.1 hc ['f'] ['a'] ['\n'] ⟨hne, hf, .inr rfl, by decide⟩
    exact absurd ht (by decide)

end Accessor

end Inlay
