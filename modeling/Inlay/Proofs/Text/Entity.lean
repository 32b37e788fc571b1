import Inlay.Text.Entity

/-! Escaped texts: what the escape of a text is, and that each is the escape of one text alone. -/

namespace Inlay.Text

def marked : List Char := ['&', '<', '>', '"', '\'']

def replace (c : Char) (other cs : List Char) : List Char :=
  cs.flatMap fun d => if d = c then other else [d]

/-- A text is the escape of another: it arises if the references are put in one kind after the
other, it has none of the other characters with a meaning, each of its ampersands starts a
reference, and the references read back. -/
structure Escapes (raw escaped : List Char) : Prop where
  replaced : escaped = marked.foldl (fun cs c => replace c (entity c) cs) raw
  unmarked : ∀ c ∈ marked, c ≠ '&' → c ∉ escaped
  referenced : ∀ before after, escaped = before ++ '&' :: after →
    ∃ c ∈ marked, entity c <+: '&' :: after
  read_back : unescape escaped = raw

theorem Escapes.unique {raw raw' escaped : List Char} (h : Escapes raw escaped)
    (h' : Escapes raw' escaped) : raw = raw' :=
  h.read_back.symm.trans h'.read_back

theorem entity_of_notMem {c : Char} (h : c ∉ marked) : entity c = [c] := by
  simp only [marked, List.mem_cons, not_or] at h
  obtain ⟨h1, h2, h3, h4, h5, -⟩ := h
  simp [entity]

theorem amp_notMem_tail_entity (c : Char) : '&' ∉ (entity c).tail := by
  by_cases hc : c ∈ marked
  · simp only [marked, List.mem_cons, List.not_mem_nil, or_false] at hc
    rcases hc with rfl | rfl | rfl | rfl | rfl <;> decide
  · simp [entity_of_notMem hc]

theorem mem_marked_of_entity {c : Char} {rest : List Char} (h : entity c = '&' :: rest) :
    c ∈ marked := by
  by_cases hc : c ∈ marked
  · exact hc
  · rw [entity_of_notMem hc] at h
    obtain ⟨rfl, -⟩ := List.cons.inj h
    exact absurd (by decide) hc

theorem notMem_entity {c d : Char} (hc : c ∈ marked) (ha : c ≠ '&') : c ∉ entity d := by
  by_cases hd : d ∈ marked
  · have hall : marked.all (fun d => marked.all fun c => c ≠ '&' → c ∉ entity d) = true := by
      decide
    exact of_decide_eq_true (List.all_eq_true.1 (List.all_eq_true.1 hall d hd) c hc) ha
  · rw [entity_of_notMem hd, List.mem_singleton]
    rintro rfl
    exact hd hc

theorem replace_append (c : Char) (other cs ds : List Char) :
    replace c other (cs ++ ds) = replace c other cs ++ replace c other ds := by
  simp [replace]

theorem foldl_replace_append (marks cs ds : List Char) :
    marks.foldl (fun cs c => replace c (entity c) cs) (cs ++ ds) =
      marks.foldl (fun cs c => replace c (entity c) cs) cs ++
        marks.foldl (fun cs c => replace c (entity c) cs) ds := by
  induction marks generalizing cs ds with
  | nil => rfl
  | cons c marks ih => rw [List.foldl_cons, replace_append, ih]; rfl

theorem foldl_replace_singleton (d : Char) :
    marked.foldl (fun cs c => replace c (entity c) cs) [d] = entity d := by
  by_cases hd : d ∈ marked
  · have hall : marked.all (fun d =>
        marked.foldl (fun cs c => replace c (entity c) cs) [d] = entity d) = true := by
      decide
    exact of_decide_eq_true (List.all_eq_true.1 hall d hd)
  · rw [entity_of_notMem hd]
    simp only [marked, List.mem_cons, not_or] at hd
    obtain ⟨h1, h2, h3, h4, h5, -⟩ := hd
    simp [marked, replace, h1, h2, h3, h4, h5]

theorem flatMap_entity_eq_replace (cs : List Char) :
    cs.flatMap entity = marked.foldl (fun cs c => replace c (entity c) cs) cs := by
  induction cs with
  | nil => rfl
  | cons c cs ih =>
    rw [List.flatMap_cons, ih, ← foldl_replace_singleton, ← foldl_replace_append]
    rfl

theorem amp_of_flatMap_entity {cs before after : List Char}
    (h : cs.flatMap entity = before ++ '&' :: after) : ∃ c ∈ marked, entity c <+: '&' :: after := by
  induction cs generalizing before with
  | nil => simp at h
  | cons c cs ih =>
    rw [List.flatMap_cons] at h
    rcases List.append_eq_append_iff.1 h with ⟨more, -, hm⟩ | ⟨rest, hc, hr⟩
    · exact ih hm
    · cases rest with
      | nil =>
        have hn : cs.flatMap entity = [] ++ '&' :: after := hr.symm
        exact ih hn
      | cons d rest =>
        obtain ⟨rfl, hr⟩ := List.cons.inj hr
        cases before with
        | nil => exact ⟨c, mem_marked_of_entity hc, by rw [hc, hr]; simp⟩
        | cons b before =>
          -- within a reference there is no second ampersand
          have ht := amp_notMem_tail_entity c
          rw [hc] at ht
          simp at ht

theorem escapes_escape (s : String) : Escapes s.toList (escape s).toList := by
  have he : (escape s).toList = s.toList.flatMap entity := by
    rw [escape, String.toList_ofList]
  refine ⟨he.trans (flatMap_entity_eq_replace _), fun c hc ha hm => ?_, fun before after h => ?_,
    unescape_escape s⟩
  · rw [he, List.mem_flatMap] at hm
    obtain ⟨d, -, hd⟩ := hm
    exact notMem_entity hc ha hd
  · exact amp_of_flatMap_entity (he.symm.trans h)

end Inlay.Text
