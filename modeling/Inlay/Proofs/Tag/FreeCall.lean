import Inlay.Context
import Inlay.Proofs.Argument.Written
import Inlay.Proofs.Path.Accessor
import Inlay.Proofs.Tag.Occurrence

/-! Calls of free functions as tags write them. A page that is one such tag is scanned as that tag,
and its path is split into the selector and the call, with the arguments as they are written. -/

namespace Inlay

theorem Accessor.plain_of_isWord {c : Char} (h : isWord c = true) :
    c ≠ '(' ∧ c ≠ ')' ∧ some ':' ≠ some c := by
  refine ⟨Text.ne_of_class h (by decide), Text.ne_of_class h (by decide), fun hc => ?_⟩
  exact Text.ne_of_class h (by decide) (Option.some.inj hc).symm

theorem Tag.isBody_of_isWord {c : Char} (h : Accessor.isWord c = true) : isBody c = true := by
  simp only [Accessor.isWord, Bool.or_eq_true] at h
  rcases h with h | h <;> simp [isBody, h]

/-- A call of a free function: a selector that names no store, and in parentheses the text of a list
of literals in which no parenthesis closes that has not been opened. -/
structure FreeCall where
  selector : String
  function : String
  literals : List Argument.Literal
  arguments : String
  selector_chars : ∀ c ∈ selector.toList, Accessor.isWord c = true ∨ c = '-'
  selector_global : Source.ofSelector selector = .global
  function_ne : function ≠ ""
  function_chars : ∀ c ∈ function.toList, Accessor.isWord c = true
  written : Argument.Written literals arguments.toList
  arguments_body : ∀ c ∈ arguments.toList, Tag.isBody c = true
  count_le : ∀ p, p <+: arguments.toList → p.count ')' ≤ p.count '('

namespace FreeCall

variable (k : FreeCall)

def segment : String := k.function ++ "(" ++ k.arguments ++ ")"

def path : String := k.selector ++ ":" ++ k.segment

def tag : Tag := ⟨k.path, none, false⟩

def text : String := "<" ++ k.path ++ "/>"

def NestsWithin (cap : Int) : Prop :=
  ∀ p, p <+: k.arguments.toList → 1 + ((p.count '(' : Int) - p.count ')') ≤ cap

theorem toList_segment :
    k.segment.toList = k.function.toList ++ '(' :: (k.arguments.toList ++ [')']) := by
  simp [segment]

theorem toList_path : k.path.toList = k.selector.toList ++ ':' :: k.segment.toList := by
  simp [path]

theorem toList_text : k.text.toList = k.tag.print := by
  simp [text, tag, Tag.print, Tag.ending]

theorem getLast?_path : k.path.toList.getLast? = some ')' := by
  rw [toList_path, toList_segment, ← List.cons_append, ← List.append_assoc, ← List.cons_append,
    ← List.append_assoc]
  exact List.getLast?_concat

theorem path_body : ∀ c ∈ k.path.toList, Tag.isBody c = true := by
  intro c hc
  simp only [toList_path, toList_segment, List.mem_append, List.mem_cons, List.not_mem_nil,
    or_false] at hc
  rcases hc with hc | rfl | hc | rfl | hc | rfl
  · rcases k.selector_chars c hc with hw | rfl
    · exact Tag.isBody_of_isWord hw
    · decide
  · decide
  · exact Tag.isBody_of_isWord (k.function_chars c hc)
  · decide
  · exact k.arguments_body c hc
  · decide

theorem admissible {cap : Nat} (h : k.path.toList.length ≤ cap) : k.tag.Admissible cap where
  path_ne := by
    rw [tag, toList_path]
    exact List.append_ne_nil_of_right_ne_nil _ (List.cons_ne_nil _ _)
  path_body := k.path_body
  path_le := h
  name := nofun
  unnamed := by
    rintro - ⟨path, name, -, hn, hp⟩
    have hl := k.getLast?_path
    have hm : ')' ∈ name := by
      have hp : k.path.toList = path ++ ':' :: ':' :: name := hp
      rw [hp, List.getLast?_append_of_ne_nil _ (List.cons_ne_nil _ _), List.getLast?_cons_cons,
        List.getLast?_cons_of_ne_nil hn.1] at hl
      exact List.mem_of_getLast? hl
    exact absurd (hn.2 _ hm) (by decide)

theorem scan_text {cap : Nat} (h : k.path.toList.length ≤ cap) :
    Piece.scan cap k.text.toList = [.tag k.tag] := by
  have hs := Piece.scan_print_append (k.admissible h) []
  rwa [List.append_nil, ← toList_text] at hs

/-! The path of a call is split once. -/

theorem selector_plain : ∀ c ∈ k.selector.toList, c ≠ '(' ∧ c ≠ ')' ∧ some ':' ≠ some c := by
  intro c hc
  rcases k.selector_chars c hc with hw | rfl
  · exact Accessor.plain_of_isWord hw
  · decide

theorem function_plain : ∀ c ∈ k.function.toList, c ≠ '(' ∧ c ≠ ')' ∧ some ':' ≠ some c :=
  fun c hc => Accessor.plain_of_isWord (k.function_chars c hc)

theorem foldl_nest_arguments {p : List Char} (hp : p <+: k.arguments.toList) :
    ((p.foldl Path.nest 1 : Nat) : Int) = 1 + ((p.count '(' : Int) - p.count ')') := by
  have hn : p.foldl Path.nest 1 + p.count ')' = 1 + p.count '(' := by
    refine Path.foldl_nest fun q hq => ?_
    have := k.count_le q (hq.trans hp)
    omega
  omega

theorem cut_segment : Path.cut (some ':') 0 k.segment.toList = [k.segment.toList] := by
  have hb : Path.cut (some ':') 1 (k.arguments.toList ++ [')']) =
      [k.arguments.toList ++ [')']] := by
    refine Path.cut_eq_singleton fun p c q hq hc => ?_
    obtain rfl := Option.some.inj hc
    -- The colon is not the last character, so what is before it belongs to the arguments.
    have hp : p <+: k.arguments.toList := by
      have hc : p ++ [':'] <+: k.arguments.toList ++ [')'] := ⟨q, by simp [hq]⟩
      rcases List.prefix_concat_iff.1 hc with he | hp
      · have hl := congrArg List.getLast? he
        simp at hl
      · exact (List.prefix_append p [':']).trans hp
    have hn := k.foldl_nest_arguments hp
    have := k.count_le p hp
    omega
  rw [toList_segment, Path.cut_append_of_plain k.function_plain, Path.cut, if_neg (by simp)]
  rw [show Path.nest 0 '(' = 1 from rfl, hb, Path.extend, Path.foldr_extend]

theorem cut_path :
    Path.cut (some ':') 0 k.path.toList = [k.selector.toList, k.segment.toList] := by
  rw [toList_path, Path.cut_append_of_plain k.selector_plain, Path.cut,
    if_pos ⟨rfl, rfl, by decide, by decide⟩, cut_segment, Path.foldr_extend, List.append_nil]

theorem exceeds_path {cap : Int} (h : k.NestsWithin cap) :
    Path.exceeds cap 0 k.path.toList = false := by
  have hcap : 1 ≤ cap := by simpa using h [] (List.nil_prefix)
  have hf : ∀ c ∈ k.selector.toList ++ ':' :: k.function.toList, c ≠ '(' ∧ c ≠ ')' := by
    intro c hc
    simp only [List.mem_append, List.mem_cons] at hc
    rcases hc with hc | rfl | hc
    · exact ⟨(k.selector_plain c hc).1, (k.selector_plain c hc).2.1⟩
    · decide
    · exact ⟨(k.function_plain c hc).1, (k.function_plain c hc).2.1⟩
  have hfront : Path.exceeds cap 0 (k.selector.toList ++ ':' :: k.function.toList) = false := by
    refine Path.exceeds_of_le fun p hp => ?_
    rw [Path.foldl_nest_of_plain (fun c hc => hf c (hp.subset hc)) 0]
    omega
  have hopen : Path.exceeds cap 0 ['('] = false := by
    have hn : ¬cap < 1 := by omega
    simp [Path.exceeds, Path.nest, hn]
  have hargs : Path.exceeds cap 1 k.arguments.toList = false := by
    refine Path.exceeds_of_le fun p hp => ?_
    rw [k.foldl_nest_arguments hp]
    exact h p hp
  have hp : k.path.toList =
      (k.selector.toList ++ ':' :: k.function.toList) ++ ['('] ++ k.arguments.toList ++ [')'] := by
    simp [toList_path, toList_segment]
  have hd : ((k.selector.toList ++ ':' :: k.function.toList) ++ ['(']).foldl Path.nest 0 = 1 := by
    rw [List.foldl_append, Path.foldl_nest_of_plain hf 0]
    rfl
  rw [hp, Path.exceeds_append, Path.exceeds_append, Path.exceeds_append, hfront,
    Path.foldl_nest_of_plain hf 0, hopen, hd, hargs]
  simp [Path.exceeds]

theorem split_path {cap : Int} (h : k.NestsWithin cap) :
    Path.split (some ':') (some cap) k.path = .ok [k.selector, k.segment] := by
  have hl : [k.selector.toList, k.segment.toList].getLast? ≠ some [] := by
    simp [toList_segment]
  rw [Path.split, cut_path, Path.dropFinalEmpty, if_neg hl]
  simp [k.exceeds_path h]

theorem ofSegment_segment :
    Accessor.ofSegment k.segment =
      .call k.function (String.ofList (Text.trim k.arguments.toList)) := by
  have hp : Accessor.Parenthesised k.function.toList k.arguments.toList [] k.segment.toList :=
    ⟨by simp [k.function_ne], k.function_chars, .inl rfl, k.toList_segment⟩
  rw [Accessor.ofSegment_of_parenthesised hp, String.ofList_toList]

end FreeCall

end Inlay
