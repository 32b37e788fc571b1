import Inlay.Host.Recipe
import Inlay.Proofs.Engine.Resolution
import Inlay.Proofs.Page.Substitution
import Inlay.Proofs.Path.Segment
import Inlay.Proofs.World.Report

/-! Failures: a tag that fails leaves nothing on its page and says why at the end of what it
reports, and a page succeeds if all its tags do. -/

namespace Inlay

theorem Text.append_ne_empty {s : String} (h : s ≠ "") (t : String) : s ++ t ≠ "" := by
  intro he
  have hl := congrArg String.toList he
  rw [String.toList_append] at hl
  exact h (String.ext (List.append_eq_nil_iff.1 hl).1)

theorem LookupFailure.message_ne_empty (f : LookupFailure) : f.message ≠ "" := by
  cases f with
  | noKey name =>
    have h : "No key or property '" ≠ "" := by decide
    exact Text.append_ne_empty (Text.append_ne_empty h name) _
  | noCallable name =>
    have h : "No callable '" ≠ "" := by decide
    exact Text.append_ne_empty (Text.append_ne_empty h name) _
  | raised name f =>
    have h : "Call '" ≠ "" := by decide
    have hr := Text.append_ne_empty (Text.append_ne_empty h name) "' raised "
    exact Text.append_ne_empty (Text.append_ne_empty (Text.append_ne_empty hr f.kind) _) f.message

theorem Fault.message_nesting_ne_empty (cap : Int) (path : String) :
    (Fault.nesting cap path).message ≠ "" := by
  have h : "Parenthesis nesting exceeds " ≠ "" := by decide
  exact Text.append_ne_empty (Text.append_ne_empty (Text.append_ne_empty h (toString cap)) _) _

theorem Processor.unknown_ne_empty (name : String) : unknown name ≠ "" := by
  have h : "Unknown post-processor: " ≠ "" := by decide
  exact Text.append_ne_empty h name

variable {σ : Type}

namespace World

/-- How a tag may have come out whose handling began in a world: it has succeeded, or there is
nothing in its place and the reason is the end of what was reported last. -/
def Settles (w : World σ) (o : Outcome) (v : World σ) : Prop :=
  (o.success = true ∧ w.Precedes v) ∨
    ∃ reason, reason ≠ "" ∧ o = ⟨"", some reason, false⟩ ∧ w.Reported reason v

theorem Reported.settles {w v : World σ} {r : Refusal} (hr : r.message ≠ "")
    (h : w.Reported r.message v) : w.Settles (.refused r) v :=
  .inr ⟨r.message, hr, rfl, h⟩

theorem removeEntry_keeps_precedes (w : World σ) (o : Origin) :
    (Processor.removeEntry o : Act (World σ) Unit).Keeps fun v v' => v = v' ∧ w.Precedes v := by
  unfold Processor.removeEntry
  split
  · refine .modify ?_
    rintro v _ ⟨rfl, hv⟩
    exact ⟨rfl, hv⟩
  · exact .pure _

end World

namespace Engine

open World (Precedes Settles)

variable (e : Engine σ) (w : World σ)

theorem refuse_settles {r : Refusal} (hr : r.message ≠ "") :
    (do Act.report r.message; return Outcome.refused r : Act (World σ) Outcome).Ensures
      w.Precedes w.Settles := by
  refine .bind (Act.report_ensures w _) fun _ => .pure ?_
  rintro _ ⟨u, hu, rfl⟩
  have hs := hu.reported "" r.message
  rw [String.empty_append] at hs
  exact hs.settles hr

theorem finish_settles (t : Tag) (selector : String) (segments : List String) (v : Value) :
    (e.finish t selector segments v).Ensures w.Precedes w.Settles := by
  rw [finish_eq]
  cases e.unknown? t with
  | some name =>
    exact refuse_settles w (r := .unknownProcessor name) (Processor.unknown_ne_empty name)
  | none =>
    have hr := Precedes.respected e.host w
    have hp := Processor.apply_keeps hr e.processors t.processor v (e.origin selector segments)
      fun _ => w.removeEntry_keeps_precedes _
    rw [write]
    refine .bind hp.ensures fun u => .bind (u.format_keeps hr _).ensures fun text => .pure ?_
    exact fun _ hs => .inl ⟨rfl, hs⟩

theorem resolve_settles {t : Tag} (ht : t.path ≠ "") :
    (e.resolve t).Ensures w.Precedes w.Settles := by
  rw [resolve]
  cases hs : Path.split (some ':') (some e.maxDepth) t.path with
  | error f =>
    obtain ⟨cap, rfl⟩ := Path.eq_nesting_of_split hs
    exact refuse_settles w (r := .nesting _) (Fault.message_nesting_ne_empty cap _)
  | ok parts =>
    cases parts with
    | nil => exact absurd hs (Path.split_ne_nil _ _ ht)
    | cons selector segments =>
      have hw : (e.locate selector segments).Ensures w.Precedes w.Ends := by
        intro u found u' hu hl
        exact Walk.walk_reports w (u.select selector) _ u found u' hu hl
      refine .bind hw fun found => ?_
      cases found with
      | error f => exact .pure fun _ hf => hf.settles f.message_ne_empty
      | ok v => exact e.finish_settles w t selector segments v

end Engine

namespace Page

def Succeeded : Except Fault Outcome → Prop
  | .ok o => o.success = true
  | .error _ => False

def reason? : Except Fault Outcome → Option String
  | .ok o => if o.success then none else o.error
  | .error f => some f.message

structure Failed (w : World σ) (ended : Except Fault Outcome) (v : World σ) (reason : String) :
    Prop where
  because : reason? ended = some reason
  recorded : recorded? ended = some reason
  nothing : substitution ended = []
  reported : w.Reported reason v

theorem recorded?_of_succeeded {ended : Except Fault Outcome} (h : Succeeded ended) :
    recorded? ended = none := by
  cases ended with
  | error f => cases h
  | ok o =>
    obtain ⟨text, error, success⟩ := o
    obtain rfl : success = true := h
    cases error <;> rfl

end Page

namespace Engine

open Page (call calls recorded? substitution Succeeded reason? Failed)

variable (e : Engine σ)

theorem call_settles (w : World σ) {t : Tag} (ht : t.path ≠ "") :
    (Succeeded (call e.resolve t w).1 ∧ w.Precedes (call e.resolve t w).2) ∨
      ∃ reason, Failed w (call e.resolve t w).1 (call e.resolve t w).2 reason := by
  have hw : w.Precedes w := Journal.Extends.refl _
  rw [call]
  cases hr : e.resolve t w with
  | ok o v =>
    rcases e.resolve_settles w ht w o v hw hr with ⟨hs, hv⟩ | ⟨reason, hne, rfl, hv⟩
    · exact .inl ⟨hs, hv⟩
    · exact .inr ⟨reason, rfl, if_neg hne, rfl, hv⟩
  | error f v =>
    have hk := resolve_keeps (e := e) t (World.Precedes.respected e.host w)
      fun _ => w.removeEntry_keeps_precedes
    have hv := (hk.final ⟨rfl, hw⟩).2
    rw [Act.final, hr] at hv
    exact .inr ⟨f.message, rfl, rfl, rfl, hv.reported _ _⟩

theorem call_precedes (w : World σ) {t : Tag} (ht : t.path ≠ "") :
    w.Precedes (call e.resolve t w).2 := by
  rcases e.call_settles w ht with ⟨-, hv⟩ | ⟨reason, hf⟩
  · exact hv
  · exact hf.reported.precedes

theorem calls_precedes (w : World σ) {ts : List Tag} (ht : ∀ t ∈ ts, t.path ≠ "") :
    w.Precedes (calls e.resolve ts w).2 := by
  induction ts generalizing w with
  | nil => exact Journal.Extends.refl _
  | cons t ts ih =>
    rw [List.forall_mem_cons] at ht
    exact (e.call_precedes w ht.1).trans (ih _ ht.2)

theorem recorded?_eq_none_iff (w : World σ) {ts : List Tag} (ht : ∀ t ∈ ts, t.path ≠ "") :
    ∀ ended ∈ (calls e.resolve ts w).1, recorded? ended = none ↔ Succeeded ended := by
  refine Page.calls_forall e.resolve (fun t htm v => ?_) w
  refine ⟨fun hn => ?_, Page.recorded?_of_succeeded⟩
  rcases e.call_settles v (ht t htm) with ⟨hs, -⟩ | ⟨reason, hf⟩
  · exact hs
  · rw [hf.recorded] at hn
    cases hn

theorem substitution_of_not_succeeded (w : World σ) {ts : List Tag} (ht : ∀ t ∈ ts, t.path ≠ "") :
    ∀ ended ∈ (calls e.resolve ts w).1, ¬Succeeded ended → substitution ended = [] := by
  refine Page.calls_forall e.resolve (fun t htm v hn => ?_) w
  rcases e.call_settles v (ht t htm) with ⟨hs, -⟩ | ⟨reason, hf⟩
  · exact absurd hs hn
  · exact hf.nothing

/-- A page succeeds if and only if all its tags do. Of a tag that fails, nothing is left on the
page, and while it was handled something was reported, at last what ends with its reason. -/
theorem render_reports (e : Engine σ) (cap : Nat) (text : String) (w : World σ)
    (hq : w.journal.quiet = false) {ps : List Piece} (h : Piece.Cuts cap text.toList ps) :
    let ts := Piece.tags ps
    let ends := (calls e.resolve ts w).1
    let out := (e.render cap text w).1
    (out.success = true ↔ ∀ ended ∈ ends, Succeeded ended) ∧
      (out.success = true ↔ out.error = none) ∧
      out.text = String.ofList (Piece.fill ps (ends.map substitution)) ∧
      ∀ i t, ts[i]? = some t →
        let before := (calls e.resolve (ts.take i) w).2
        let (ended, after) := call e.resolve t before
        ends[i]? = some ended ∧ (calls e.resolve (ts.take (i + 1)) w).2 = after ∧
          (¬Succeeded ended → ∃ reason logged last, reason? ended = some reason ∧
            after.journal.messages = before.journal.messages ++ logged ++ [last] ∧
            reason.toList <:+ last.toList ∧ substitution ended = []) := by
  intro ts ends out
  have hne : ∀ t ∈ ts, t.path ≠ "" := by
    intro t ht hp
    obtain ⟨i, hi⟩ := Piece.mem_tags_iff.1 ht
    have ho := (h.tagAt_iff i t).1 hi
    exact ho.1.path_ne (by rw [hp]; rfl)
  have hr : out = ⟨String.ofList (Piece.fill ps (ends.map substitution)),
      (ends.filterMap recorded?).getLast?, (ends.filterMap recorded?).isEmpty⟩ :=
    congrArg Prod.fst (Page.render_eq h e.resolve w)
  rw [hr]
  refine ⟨?_, ?_, rfl, fun i t ht => ⟨Page.calls_getElem? e.resolve w ht,
    Page.calls_take_succ e.resolve w ht, fun hs => ?_⟩⟩
  · rw [List.isEmpty_iff, List.filterMap_eq_nil_iff]
    exact forall₂_congr fun ended he => e.recorded?_eq_none_iff w hne ended he
  · rw [List.isEmpty_iff, List.getLast?_eq_none_iff]
  · have ht' : t.path ≠ "" := hne t (List.mem_of_getElem? ht)
    have hbefore : ∀ t' ∈ ts.take i, t'.path ≠ "" := fun t' ht' =>
      hne t' (List.mem_of_mem_take ht')
    have hb := e.calls_precedes w hbefore
    rcases e.call_settles (calls e.resolve (ts.take i) w).2 ht' with ⟨hs', -⟩ | ⟨reason, hf⟩
    · exact absurd hs' hs
    · obtain ⟨logged, last, hm, hl⟩ := hf.reported.messages (hb.quiet.trans hq)
      exact ⟨reason, logged, last, hf.because, hm, hl, hf.nothing⟩

theorem render_reports_raising_property :
    let e := Engine.ofSettings Host.none .standard
    let o := Value.object 1 ⟨"K", ["p"], []⟩ [("p", .raises "RuntimeError" "no")] none
    let w := World.start { Context.empty with globals := [("o", o)] } () (.empty false)
    let text := "<get:q/>-<o:p/>"
    let ps := [.tag ⟨"get:q", none, false⟩, .char '-', .tag ⟨"o:p", none, false⟩]
    w.journal.quiet = false ∧ Piece.Cuts 5 text.toList ps ∧
      (e.render 5 text w).1.text = "-" ∧ (e.render 5 text w).1.success = false := by
  intro e o w text ps
  have hs : ps = Piece.scan 5 text.toList := by decide
  have hc : Piece.Cuts 5 text.toList ps := hs ▸ Piece.cuts_scan 5 _
  obtain ⟨hall, -, ht, -⟩ := render_reports e 5 text w rfl hc
  refine ⟨rfl, hc, ?_, ?_⟩
  · rw [ht]
    decide +kernel
  · rw [Bool.eq_false_iff, Ne, hall]
    intro h
    cases h (.ok ⟨"", some "No key or property 'q'", false⟩) (by decide +kernel)

end Engine

end Inlay
