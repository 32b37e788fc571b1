import Inlay.Page
import Inlay.Proofs.Tag.Occurrence

/-! Substitution: a page keeps its characters, calls its resolver once for each tag in order, and
puts what each call comes to in the place of the tag. -/

namespace Inlay

namespace Piece

def tag? : Piece → Option Tag
  | .char _ => none
  | .tag t => some t

def tags (ps : List Piece) : List Tag := ps.filterMap tag?

theorem mem_tags_iff {ps : List Piece} {t : Tag} : t ∈ tags ps ↔ ∃ i, TagAt ps i t := by
  constructor
  · intro h
    obtain ⟨p, hp, ht⟩ := List.mem_filterMap.1 h
    cases p with
    | char c => cases ht
    | tag u =>
      cases ht
      obtain ⟨before, after, rfl⟩ := List.append_of_mem hp
      exact ⟨_, before, after, rfl, rfl⟩
  · rintro ⟨i, before, after, rfl, -⟩
    exact List.mem_filterMap.2 ⟨.tag t, by simp, rfl⟩

theorem tags_scan_eq_nil_iff {cap : Nat} {cs : List Char} :
    tags (scan cap cs) = [] ↔ ∀ i t, ¬Tag.OccursAt cap cs i t := by
  rw [List.eq_nil_iff_forall_not_mem, forall_comm]
  simp only [mem_tags_iff, tagAt_scan_iff, not_exists]

theorem Cuts.path_ne_empty {cap : Nat} {cs : List Char} {ps : List Piece} (h : Cuts cap cs ps) :
    ∀ t ∈ tags ps, t.path ≠ "" := by
  intro t ht hp
  obtain ⟨i, hi⟩ := mem_tags_iff.1 ht
  exact ((h.tagAt_iff i t).1 hi).1.path_ne (by rw [hp]; rfl)

def fill : List Piece → List (List Char) → List Char
  | .char c :: ps, rs => c :: fill ps rs
  | .tag _ :: ps, r :: rs => r ++ fill ps rs
  | _, _ => []

end Piece

namespace Page

open Piece (Cuts tags fill)

variable {τ : Type} [Reports τ]

def call (resolve : Resolver τ) (t : Tag) (s : τ) : Except Fault Outcome × τ :=
  match resolve t s with
  | .ok o s => (.ok o, s)
  | .error f s => (.error f, Reports.note (faultMessage t f) s)

def calls (resolve : Resolver τ) : List Tag → τ → List (Except Fault Outcome) × τ
  | [], s => ([], s)
  | t :: ts, s =>
    let (ended, s) := call resolve t s
    let (ends, s) := calls resolve ts s
    (ended :: ends, s)

def substitution : Except Fault Outcome → List Char
  | .ok o => o.text.toList
  | .error _ => []

def recorded? : Except Fault Outcome → Option String
  | .ok ⟨_, some reason, false⟩ => if reason = "" then none else some reason
  | .ok _ => none
  | .error f => some f.message

theorem failure?_eq_recorded? (o : Outcome) : failure? o = recorded? (.ok o) := by
  obtain ⟨text, _ | reason, _ | _⟩ := o
  · rfl
  · rfl
  · by_cases h : reason = "" <;> simp [failure?, recorded?, Option.filter, h]
  · rfl

theorem replace_eq (resolve : Resolver τ) (t : Tag) (s : τ) :
    replace resolve t s =
      (⟨substitution (call resolve t s).1, (recorded? (call resolve t s).1).toList⟩,
        (call resolve t s).2) := by
  rw [replace, call]
  cases resolve t s with
  | ok o s => simp [substitution, failure?_eq_recorded?]
  | error f s => rfl

theorem calls_length (resolve : Resolver τ) (ts : List Tag) (s : τ) :
    (calls resolve ts s).1.length = ts.length := by
  induction ts generalizing s with
  | nil => rfl
  | cons t ts ih => simp [calls, ih]

theorem calls_getElem? (resolve : Resolver τ) (s : τ) {ts : List Tag} {i : Nat} {t : Tag}
    (h : ts[i]? = some t) : (calls resolve ts s).1[i]? =
      some (call resolve t (calls resolve (ts.take i) s).2).1 := by
  induction ts generalizing i s with
  | nil => simp at h
  | cons u ts ih =>
    cases i with
    | zero =>
      obtain rfl : u = t := by simpa using h
      rfl
    | succ i => exact ih _ (by simpa using h)

theorem calls_forall (resolve : Resolver τ) {P : Except Fault Outcome → Prop} {ts : List Tag}
    (h : ∀ t ∈ ts, ∀ s, P (call resolve t s).1) (s : τ) :
    ∀ ended ∈ (calls resolve ts s).1, P ended := by
  induction ts generalizing s with
  | nil => exact List.forall_mem_nil _
  | cons t ts ih =>
    rw [List.forall_mem_cons] at h
    rw [calls, List.forall_mem_cons]
    exact ⟨h.1 s, ih h.2 _⟩

theorem calls_take_succ (resolve : Resolver τ) (s : τ) {ts : List Tag} {i : Nat} {t : Tag}
    (h : ts[i]? = some t) : (calls resolve (ts.take (i + 1)) s).2 =
      (call resolve t (calls resolve (ts.take i) s).2).2 := by
  induction ts generalizing i s with
  | nil => simp at h
  | cons u ts ih =>
    cases i with
    | zero =>
      obtain rfl : u = t := by simpa using h
      simp [calls]
    | succ i => exact ih _ (by simpa using h)

theorem renderPieces_eq (resolve : Resolver τ) (ps : List Piece) (s : τ) :
    renderPieces resolve ps s =
      (⟨fill ps ((calls resolve (tags ps) s).1.map substitution),
        (calls resolve (tags ps) s).1.filterMap recorded?⟩, (calls resolve (tags ps) s).2) := by
  induction ps generalizing s with
  | nil => rfl
  | cons p ps ih =>
    cases p with
    | char c =>
      have ht : tags (.char c :: ps) = tags ps := rfl
      rw [renderPieces, ih, ht]
      rfl
    | tag t =>
      have ht : tags (.tag t :: ps) = t :: tags ps := rfl
      rw [renderPieces, replace_eq, ht, calls]
      simp only [ih, Rendering.append, fill, List.map_cons, List.filterMap_cons]
      cases recorded? (call resolve t s).1 with
      | none => rfl
      | some e => rfl

theorem render_eq {cap : Nat} {text : String} {ps : List Piece} (h : Cuts cap text.toList ps)
    (resolve : Resolver τ) (s : τ) :
    render resolve cap text s =
      (⟨String.ofList (fill ps ((calls resolve (tags ps) s).1.map substitution)),
        ((calls resolve (tags ps) s).1.filterMap recorded?).getLast?,
        ((calls resolve (tags ps) s).1.filterMap recorded?).isEmpty⟩,
      (calls resolve (tags ps) s).2) := by
  rw [render, ← h.eq_scan, renderPieces_eq]
  rfl

structure Traced (τ : Type) where
  state : τ
  seen : List Tag

instance : Reports (Traced τ) := ⟨fun message s => { s with state := Reports.note message s.state }⟩

def traced (resolve : Resolver τ) : Resolver (Traced τ) := fun t s =>
  match resolve t s.state with
  | .ok o state => .ok o ⟨state, s.seen ++ [t]⟩
  | .error f state => .error f ⟨state, s.seen ++ [t]⟩

theorem call_traced (resolve : Resolver τ) (t : Tag) (s : Traced τ) :
    call (traced resolve) t s =
      ((call resolve t s.state).1, ⟨(call resolve t s.state).2, s.seen ++ [t]⟩) := by
  rw [call, traced, call]
  cases resolve t s.state with
  | ok o state => rfl
  | error f state => rfl

theorem calls_traced (resolve : Resolver τ) (ts : List Tag) (s : Traced τ) :
    calls (traced resolve) ts s =
      ((calls resolve ts s.state).1, ⟨(calls resolve ts s.state).2, s.seen ++ ts⟩) := by
  induction ts generalizing s with
  | nil => simp [calls]
  | cons t ts ih => simp [calls, call_traced, ih]

/-- However a text is cut at the tags that occur in it, its page calls the resolver on these tags
in order, once each; the text keeps its characters and has what the calls come to in between. The
page fails if a call leaves a failure on record, and its error is the last of them. -/
theorem render_substitutes (resolve : Resolver τ) (cap : Nat) (text : String) (s : τ) :
    (∃ ps, Cuts cap text.toList ps) ∧
      ∀ ps, Cuts cap text.toList ps →
        let (ends, after) := calls resolve (tags ps) s
        let failures := ends.filterMap recorded?
        (render (traced resolve) cap text ⟨s, []⟩).2 = ⟨after, tags ps⟩ ∧
          ends.length = (tags ps).length ∧
          render resolve cap text s =
            (⟨String.ofList (fill ps (ends.map substitution)), failures.getLast?,
              failures.isEmpty⟩, after) := by
  refine ⟨⟨_, Piece.cuts_scan cap text.toList⟩, fun ps h => ⟨?_, calls_length .., render_eq h ..⟩⟩
  rw [render_eq h, calls_traced]
  rfl

def echo : Resolver Journal := fun t j =>
  if t.raw then .error (.host "ValueError" "raw") j else .ok ⟨t.path, none, true⟩ j

theorem render_substitutes_echo :
    let ps := [.tag ⟨"b", none, true⟩, .char '<', .tag ⟨"c", none, false⟩, .char 'd']
    Cuts 4 "<b~/><<c/>d".toList ps ∧
      (render echo 4 "<b~/><<c/>d" (.empty true)).1 = ⟨"<cd", some "raw", false⟩ := by
  intro ps
  have hs : ps = Piece.scan 4 "<b~/><<c/>d".toList := by decide
  have hc : Cuts 4 "<b~/><<c/>d".toList ps := hs ▸ Piece.cuts_scan 4 _
  refine ⟨hc, ?_⟩
  rw [((render_substitutes echo 4 "<b~/><<c/>d" (.empty true)).2 ps hc).2.2]
  decide

end Page

end Inlay
