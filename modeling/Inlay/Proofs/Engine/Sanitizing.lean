import Inlay.Host.Recipe
import Inlay.Proofs.Engine.Resolution
import Inlay.Proofs.Page.Seam

/-! Sanitizing: no escaped text holds an angle bracket, so a tag can form on a page only around
what the page itself leaves open. A page that leaves nothing open has no tags left once it is
rendered. -/

namespace Inlay

theorem Text.lt_notMem_entity (c : Char) : '<' ∉ Text.entity c := by
  fun_cases Text.entity c with
  | case6 _ _ hc => simpa using Ne.symm hc
  | _ => decide

theorem Text.lt_notMem_escape (s : String) : '<' ∉ (Text.escape s).toList := by
  rw [Text.escape, String.toList_ofList, List.mem_flatMap]
  rintro ⟨c, -, hc⟩
  exact Text.lt_notMem_entity c hc

namespace Engine

variable {σ : Type}

theorem write_sanitized (e : Engine σ) {t : Tag} (ht : t.raw = false) (v : Value) (o : Origin) :
    (e.write t v o).Yields fun out => '<' ∉ out.text.toList := by
  refine .bind fun w => ?_
  rw [Value.format, ht, bind_map_left]
  exact .bind fun s => .pure (Text.lt_notMem_escape s)

theorem resolve_sanitized (e : Engine σ) {t : Tag} (ht : t.raw = false) :
    (e.resolve t).Yields fun out => '<' ∉ out.text.toList := by
  have hr (r : Refusal) : '<' ∉ (Outcome.refused r).text.toList := by
    simp [Outcome.refused]
  rw [resolve]
  split
  · exact .bind fun _ => .pure (hr _)
  · exact .pure (hr _)
  · refine .bind fun found => ?_
    cases found with
    | error f => exact .pure (hr _)
    | ok v =>
      simp only [finish_eq]
      split
      · exact .bind fun _ => .pure (hr _)
      · exact e.write_sanitized ht v _

theorem call_sanitized (e : Engine σ) {t : Tag} (ht : t.raw = false) (w : World σ) :
    '<' ∉ Page.substitution (Page.call e.resolve t w).1 := by
  rw [Page.call]
  cases hr : e.resolve t w with
  | ok o w' => exact e.resolve_sanitized ht w o w' hr
  | error f w' => simp [Page.substitution]

theorem calls_sanitized (e : Engine σ) {ts : List Tag} (ht : ∀ t ∈ ts, t.raw = false)
    (w : World σ) : ∀ r ∈ (Page.calls e.resolve ts w).1.map Page.substitution, '<' ∉ r := by
  induction ts generalizing w with
  | nil => simp [Page.calls]
  | cons t ts ih =>
    simp only [Page.calls, List.map_cons, List.forall_mem_cons] at ht ⊢
    exact ⟨e.call_sanitized ht.1 w, ih ht.2 _⟩

/-- A page without raw tags, on which no bracket of its own reaches a tag, has no tags left once it
is rendered. To render it again, for whatever context, changes nothing and calls no resolver. -/
theorem render_sanitized_inert (e : Engine σ) (cap : Nat) (text : String) (w : World σ)
    (hraw : ∀ i t, Tag.OccursAt cap text.toList i t → t.raw = false)
    (hd : Page.Delimited cap text.toList) :
    let out := (e.render cap text w).1.text
    (∀ i t, ¬Tag.OccursAt cap out.toList i t) ∧
      ∀ {ρ : Type} (e' : Engine ρ) (w' : World ρ),
        e'.render cap out w' = (⟨out, none, true⟩, w') ∧
          (Page.render (Page.traced e'.resolve) cap out ⟨w', []⟩).2.seen = [] := by
  intro out
  have hc := Piece.cuts_scan cap text.toList
  have ht : ∀ t ∈ Piece.tags (Piece.scan cap text.toList), t.raw = false := by
    intro t ht
    obtain ⟨i, hi⟩ := Piece.mem_tags_iff.1 ht
    exact hraw i t ((hc.tagAt_iff i t).1 hi)
  have hn : ∀ i t, ¬Tag.OccursAt cap out.toList i t := by
    have ho : out.toList = Piece.fill (Piece.scan cap text.toList)
        ((Page.calls e.resolve (Piece.tags (Piece.scan cap text.toList)) w).1.map
          Page.substitution) := by
      rw [← String.toList_ofList (l := Piece.fill _ _)]
      exact congrArg (fun r => r.1.text.toList) (Page.render_eq hc e.resolve w)
    rw [ho]
    exact Piece.not_occursAt_fill hd (e.calls_sanitized ht w)
  refine ⟨hn, fun e' w' => ⟨Page.render_of_no_tag hn _ _, ?_⟩⟩
  rw [Page.render_of_no_tag hn]

/-- A value that is a tag itself, after a bracket that a semicolon keeps apart from it. -/
theorem render_sanitized_inert_tag_value :
    let e := ofSettings Host.none .standard
    let w := World.start (Context.empty.put "get" "q" (.text "<a/>")) () (.empty true)
    (∀ i t, Tag.OccursAt 9 "1<2;<get:q/>".toList i t → t.raw = false) ∧
      Page.Delimited 9 "1<2;<get:q/>".toList ∧
      (e.render 9 "1<2;<get:q/>" w).1.text = "1<2;&lt;a/&gt;" ∧
      ∀ i t, ¬Tag.OccursAt 9 "1<2;&lt;a/&gt;".toList i t := by
  intro e w
  have hocc : ∀ i t, Tag.OccursAt 9 "1<2;<get:q/>".toList i t → i = 4 ∧ t.raw = false := by
    intro i t h
    have hi : i < 12 := (List.getElem?_eq_some_iff.1 h.getElem?_eq).1
    have hall : ∀ i < 12, (Tag.at? 9 ("1<2;<get:q/>".toList.drop i)).all
        (fun t => i = 4 ∧ t.raw = false) := by decide
    have ha := hall i hi
    rw [Tag.occursAt_iff.1 h] at ha
    simpa using ha
  have hd : Page.Delimited 9 "1<2;<get:q/>".toList := by
    intro i j t hi hno hij hj
    obtain ⟨rfl, -⟩ := hocc j t hj
    have hall : ∀ i < 4, "1<2;<get:q/>".toList[i]? = some '<' → i = 1 := by decide
    obtain rfl := hall i hij hi
    exact ⟨3, ';', by decide, by decide, by decide, by decide⟩
  have hr : (e.render 9 "1<2;<get:q/>" w).1.text = "1<2;&lt;a/&gt;" := by decide
  refine ⟨fun i t h => (hocc i t h).2, hd, hr, ?_⟩
  have hi := (render_sanitized_inert e 9 "1<2;<get:q/>" w (fun i t h => (hocc i t h).2) hd).1
  rwa [hr] at hi

end Engine

end Inlay
