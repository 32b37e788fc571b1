import Inlay.Engine
import Inlay.Proofs.Argument.Literal
import Inlay.Proofs.Path.Accessor
import Inlay.Proofs.Walk.Composition
import Inlay.Proofs.Walk.Return

/-! References and tags with the same path. Both lead over the same keys; but the empty segment
after a final colon is dropped from the path of a tag, and is a key of a reference. -/

namespace Inlay

namespace Path

theorem subset_of_mem_cut {delimiter : Option Char} {depth : Nat} {cs piece : List Char}
    (h : piece ∈ cut delimiter depth cs) : piece ⊆ cs := by
  induction cs generalizing depth piece with
  | nil =>
    obtain rfl := List.mem_singleton.1 h
    exact List.Subset.refl _
  | cons c cs ih =>
    rw [cut] at h
    split at h
    · rcases List.mem_cons.1 h with rfl | h
      · exact List.nil_subset _
      · exact List.subset_cons_of_subset c (ih h)
    · have hr : ∀ piece ∈ cut delimiter (nest depth c) cs, piece ⊆ c :: cs :=
        fun piece hp => List.subset_cons_of_subset c (ih hp)
      cases hp : cut delimiter (nest depth c) cs with
      | nil => exact absurd hp (cut_ne_nil delimiter _ cs)
      | cons first pieces =>
        rw [hp, List.forall_mem_cons] at hr
        rw [hp, extend, List.mem_cons] at h
        rcases h with rfl | h
        · exact List.cons_subset.2 ⟨List.mem_cons_self, hr.1⟩
        · exact hr.2 piece h

theorem dropFinalEmpty_cons {piece : List Char} {pieces : List (List Char)} (h : pieces ≠ []) :
    dropFinalEmpty (piece :: pieces) = piece :: dropFinalEmpty pieces := by
  rw [dropFinalEmpty, dropFinalEmpty, List.getLast?_cons_of_ne_nil h,
    List.dropLast_cons_of_ne_nil h]
  split <;> rfl

theorem cut_eq_dropFinalEmpty {delimiter : Char} {cs : List Char}
    (hd : delimiter ≠ '(' ∧ delimiter ≠ ')') (h : ∀ c ∈ cs, c ≠ '(' ∧ c ≠ ')') (hn : cs ≠ []) :
    cut (some delimiter) 0 cs = dropFinalEmpty (cut (some delimiter) 0 cs) ++
      if cs.getLast? = some delimiter then [[]] else [] := by
  obtain ⟨front, c, rfl⟩ := List.eq_nil_or_concat cs |>.resolve_left hn
  have hz : front.foldl nest 0 = 0 := foldl_nest_of_plain (fun c hc => h c (by simp [hc])) 0
  rw [List.concat_eq_append, List.getLast?_concat]
  -- The last piece is empty just where the text ends in a delimiter.
  by_cases hc : c = delimiter
  · subst hc
    rw [cut_concat_delimiter hd hz, dropFinalEmpty, if_pos List.getLast?_concat,
      List.dropLast_concat, if_pos rfl]
  · obtain ⟨piece, hp⟩ := @getLast?_cut_concat delimiter c 0 front fun hh => hc hh.1
    have hl : ¬(cut (some delimiter) 0 (front ++ [c])).getLast? = some [] := by
      rw [hp]
      simp
    rw [dropFinalEmpty, if_neg hl, if_neg (fun he => hc (Option.some.inj he)), List.append_nil]

end Path

namespace Argument.Mention

variable (m : Mention)

def segments : List String :=
  (Path.dropFinalEmpty (Path.cut (some ':') 0 m.path)).map String.ofList

theorem path_plain : ∀ c ∈ m.path, c ≠ '(' ∧ c ≠ ')' := fun c hc =>
  ⟨Text.ne_of_class (m.path_chars c hc) (by decide),
    Text.ne_of_class (m.path_chars c hc) (by decide)⟩

theorem keys_eq : m.keys = m.segments ++ if m.path.getLast? = some ':' then [""] else [] := by
  rw [keys, ← Path.cut_eq_splitOn m.path_plain,
    Path.cut_eq_dropFinalEmpty (by decide) m.path_plain m.path_ne, List.map_append, ← segments]
  split <;> rfl

theorem split_print (cap : Int) :
    Path.split (some ':') (some cap) (String.ofList m.print) =
      .ok (String.ofList m.source :: m.segments) := by
  have hsource : ∀ c ∈ m.source, c ≠ '(' ∧ c ≠ ')' ∧ some ':' ≠ some c := fun c hc =>
    have hl := m.source_lower c hc
    ⟨Text.ne_of_class hl (by decide), Text.ne_of_class hl (by decide),
      fun he => Text.ne_of_class hl (by decide) (Option.some.inj he).symm⟩
  have hprint : ∀ c ∈ m.print, c ≠ '(' := fun c hc =>
    Text.ne_of_class (m.print_isPlain c hc) (by decide)
  have hcut : Path.cut (some ':') 0 m.print = m.source :: Path.cut (some ':') 0 m.path := by
    rw [print, Path.cut_append_of_plain hsource, Path.cut, if_pos (by decide), Path.foldr_extend,
      List.append_nil]
  rw [Path.split_of_within, String.toList_ofList, hcut,
    Path.dropFinalEmpty_cons (Path.cut_ne_nil _ _ _), List.map_cons, ← segments]
  rintro n -
  rw [String.toList_ofList, Path.exceeds_of_plain hprint]

theorem ofSegment_segments : m.segments.map Accessor.ofSegment = m.segments.map .key := by
  refine List.map_congr_left fun segment hs => Accessor.ofSegment_of_notMem fun hp => ?_
  obtain ⟨piece, hm, rfl⟩ := List.mem_map.1 hs
  have hcut : piece ∈ Path.cut (some ':') 0 m.path := by
    rw [Path.cut_eq_dropFinalEmpty (by decide) m.path_plain m.path_ne]
    exact List.mem_append_left _ hm
  rw [String.toList_ofList] at hp
  exact (m.path_plain _ (Path.subset_of_mem_cut hcut hp)).1 rfl

end Argument.Mention

namespace Engine

variable {σ : Type} (e : Engine σ) (m : Argument.Mention)

theorem locate_eq_followKeys (selector : String) :
    e.locate selector m.segments =
      (do Walk.followKeys e.host ((← get).select selector) m.segments) := by
  simp only [locate, m.ofSegment_segments, Walk.followKeys_eq]

theorem followKeys_keys (v : Value) :
    Walk.followKeys e.host v m.keys =
      Walk.followKeys e.host v m.segments >>= Walk.walkOn e.host
        (if m.path.getLast? = some ':' then [.key ""] else []) := by
  rw [Walk.followKeys_eq, Walk.followKeys_eq, m.keys_eq, List.map_append, Walk.walk_append_eq]
  split <;> rfl

def valueOf (found : Found) : Value := found.toOption.getD .null

theorem resolveReference_eq (selector : String) (keys : List String) :
    Walk.resolveReference e.host selector keys =
      (do valueOf <$> Walk.followKeys e.host ((← get).select selector) keys) := by
  refine congrArg (get >>= ·) (funext fun world => ?_)
  rw [map_eq_pure_bind]
  refine congrArg (_ >>= ·) (funext fun found => ?_)
  cases found <;> rfl

/-- A reference and a tag with the same path lead to the same end. Only where the path ends in a
colon does the reference go on, and looks up the empty key. -/
theorem reference_resolves_as_tag :
    ∃ segments,
      Path.split (some ':') (some e.maxDepth) (String.ofList m.print) =
        .ok (String.ofList m.source :: segments) ∧
      (∀ t : Tag, e.resolve { t with path := String.ofList m.print } = do
        match ← e.locate (String.ofList m.source) segments with
        | .error f => return .refused (.lookup f)
        | .ok v =>
          e.finish { t with path := String.ofList m.print } (String.ofList m.source) segments v) ∧
      Argument.evalToken (Walk.resolveReference e.host) m.print =
        if m.path.getLast? = some ':' then do
          match ← e.locate (String.ofList m.source) segments with
          | .error _ => return .null
          | .ok v => valueOf <$> Walk.lookupKey e.host v ""
        else valueOf <$> e.locate (String.ofList m.source) segments := by
  refine ⟨m.segments, m.split_print e.maxDepth, fun t => ?_, ?_⟩
  · unfold resolve
    split
    · next h => cases h.symm.trans (m.split_print _)
    · next h => cases h.symm.trans (m.split_print _)
    · next h =>
      cases h.symm.trans (m.split_print _)
      refine congrArg (_ >>= ·) (funext fun found => ?_)
      cases found <;> rfl
  · have ht : Argument.evalToken (Walk.resolveReference e.host) m.print =
        Walk.resolveReference e.host (String.ofList m.source) m.keys := by
      rw [Argument.evalToken, show m.print = (Argument.Literal.mention m).print from rfl,
        Argument.Literal.ofToken_print]
      rfl
    simp only [ht, resolveReference_eq, followKeys_keys, locate_eq_followKeys]
    split
    · rw [bind_assoc]
      refine congrArg (get >>= ·) (funext fun world => ?_)
      rw [map_bind]
      refine congrArg (_ >>= ·) (funext fun found => ?_)
      cases found with
      | error f => rfl
      | ok v => exact congrArg (valueOf <$> ·) (Walk.walk_one e.host v (.key ""))
    · have hid : Walk.walkOn e.host [] = pure := funext fun found => by cases found <;> rfl
      rw [hid, map_bind]
      refine congrArg (get >>= ·) (funext fun world => ?_)
      rw [bind_pure]

/-- A token without a path is no reference, nor is one without a source; a tag still leads to what
its source holds. -/
theorem reference_needs_source_and_path :
    let e := ofSettings Host.none .standard
    let one : Table Value := [("a", .int 1)]
    let w := World.start ⟨⟨one, [], [], [], []⟩, .empty, [("", .ofTable one)], []⟩ () (.empty false)
    (Path.split (some ':') (some e.maxDepth) "get:" = .ok ["get"] ∧
      e.locate "get" [] w = .ok (.ok (.ofTable one)) w ∧
      Argument.evalToken (Walk.resolveReference e.host) "get:".toList w = .ok .null
        { w with journal := ⟨false, ["Unrecognized argument treated as null: get:"]⟩ }) ∧
    Path.split (some ':') (some e.maxDepth) ":a" = .ok ["", "a"] ∧
      e.locate "" ["a"] w = .ok (.ok (.int 1)) w ∧
      Argument.evalToken (Walk.resolveReference e.host) ":a".toList w = .ok .null
        { w with journal := ⟨false, ["Unrecognized argument treated as null: :a"]⟩ } := by
  intro e one w
  exact ⟨⟨rfl, rfl, rfl⟩, rfl, rfl, rfl⟩

end Engine

end Inlay
