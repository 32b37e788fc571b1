import Inlay.Proofs.World.Respect

/-! Reports: a journal only grows, and a walk that fails reports why, after all else that it
reports. -/

namespace Inlay

structure Journal.Extends (j j' : Journal) : Prop where
  quiet : j'.quiet = j.quiet
  messages : j.messages <+: j'.messages

theorem Journal.messages_note {j : Journal} (h : j.quiet = false) (message : String) :
    (j.note message).messages = j.messages ++ [message] := by
  simp [Journal.note, h]

namespace Journal.Extends

theorem refl (j : Journal) : j.Extends j := ⟨rfl, List.prefix_rfl⟩

theorem trans {j j' j'' : Journal} (h : j.Extends j') (h' : j'.Extends j'') : j.Extends j'' :=
  ⟨h'.quiet.trans h.quiet, h.messages.trans h'.messages⟩

theorem note {j j' : Journal} (h : j.Extends j') (message : String) :
    j.Extends (j'.note message) := by
  by_cases hq : j'.quiet = true
  · rwa [Journal.note, if_pos hq]
  · rw [Journal.note, if_neg hq]
    exact ⟨h.quiet, h.messages.trans (List.prefix_append _ _)⟩

end Journal.Extends

variable {σ : Type}

theorem Host.respects_invariant (host : Host σ) {I : World σ → Prop}
    (note : ∀ message w, I w → I (Reports.note message w)) (change : ∀ c w, I w → I (w.change c))
    (memory : ∀ w m, I w → I { w with memory := m }) : host.Respects fun v v' => v = v' ∧ I v where
  context hw := by rw [hw.1]
  changes hw := by rw [hw.1]
  note message _ _ hw := ⟨by rw [hw.1], note message _ hw.2⟩
  change c _ _ hw := ⟨by rw [hw.1], change c _ hw.2⟩
  answer _ _ _ _ hw := by rw [hw.1]
  call _ _ _ _ hw := ⟨by rw [hw.1], memory _ _ hw.2⟩

namespace World

def Precedes (w v : World σ) : Prop := w.journal.Extends v.journal

theorem Precedes.respected (host : Host σ) (w : World σ) :
    host.Respects fun v v' => v = v' ∧ w.Precedes v := by
  refine host.respects_invariant (fun message v hv => Journal.Extends.note hv message)
    (fun c v hv => ?_) (fun _ _ hv => hv)
  unfold World.change
  by_cases hc : c.id = 0
  · rwa [if_pos hc]
  · rw [if_neg hc]
    exact hv

/-- A later world, in whose journal the last message is new and ends with a reason. -/
def Reported (w : World σ) (reason : String) (v : World σ) : Prop :=
  ∃ u message, w.Precedes u ∧ v = Reports.note message u ∧ reason.toList <:+ message.toList

theorem Precedes.reported {w u : World σ} (h : w.Precedes u) (front reason : String) :
    w.Reported reason (Reports.note (front ++ reason) u) :=
  ⟨u, _, h, rfl, by rw [String.toList_append]; exact List.suffix_append ..⟩

theorem Reported.precedes {w v : World σ} {reason : String} (h : w.Reported reason v) :
    w.Precedes v := by
  obtain ⟨u, message, hu, rfl, -⟩ := h
  exact Journal.Extends.note hu message

theorem Reported.messages {w v : World σ} {reason : String} (hq : w.journal.quiet = false)
    (h : w.Reported reason v) : ∃ logged last,
      v.journal.messages = w.journal.messages ++ logged ++ [last] ∧
        reason.toList <:+ last.toList := by
  obtain ⟨u, message, hu, rfl, hs⟩ := h
  obtain ⟨logged, hl⟩ := hu.messages
  refine ⟨logged, message, ?_, hs⟩
  have hn : (u.journal.note message).messages = u.journal.messages ++ [message] :=
    Journal.messages_note (hu.quiet.trans hq) message
  rw [← hl] at hn
  exact hn

def Ends (w : World σ) : Found → World σ → Prop
  | .ok _, v => w.Precedes v
  | .error f, v => w.Reported f.message v

end World

open World (Precedes Ends)

theorem Act.report_ensures (w : World σ) (message : String) :
    (Act.report message : Act (World σ) Unit).Ensures w.Precedes
      fun _ v => ∃ u, w.Precedes u ∧ v = Reports.note message u := by
  rintro u _ _ hu ⟨⟩
  exact ⟨u, hu, rfl⟩

namespace Walk

variable {host : Host σ} (w : World σ)

theorem fail_reports (f : LookupFailure) :
    (fail f : Act (World σ) Found).Ensures w.Precedes w.Ends := by
  refine .bind (Act.report_ensures w _) fun _ => .pure ?_
  rintro _ ⟨u, hu, rfl⟩
  exact hu.reported _ _

theorem lookupKey_reports (v : Value) (name : String) :
    (lookupKey host v name).Ensures w.Precedes w.Ends := by
  refine .bind (v.lookup_keeps (Precedes.respected host w) name).ensures fun found => ?_
  cases found with
  | none => exact fail_reports w _
  | some u => exact .pure fun _ hs => hs

theorem attempt_reports (name : String) (c : Callee) (arguments : List Value) :
    (attempt host name c arguments).Ensures w.Precedes w.Ends := by
  have hc := Callee.invoke_keeps (Precedes.respected host w) arguments c
  refine .bind hc.observe.ensures fun found => ?_
  cases found with
  | error f => exact fail_reports w _
  | ok u => exact .pure fun _ hs => hs

theorem callName_reports (v : Value) (name raw : String) :
    (callName host v name raw).Ensures w.Precedes w.Ends := by
  have hr := Precedes.respected host w
  refine .bind (callee?_keeps hr v name).ensures fun c => ?_
  cases c with
  | none => exact fail_reports w _
  | some c =>
    have ha := Argument.evalAll_keeps hr (resolveReference_keeps hr) raw
    exact .bind ha.ensures fun arguments => attempt_reports w name c arguments

theorem walk_reports (v : Value) (accessors : List Accessor) :
    (walk host v accessors).Ensures w.Precedes w.Ends := by
  induction accessors generalizing v with
  | nil => exact .pure fun _ hs => hs
  | cons a rest ih =>
    have hs : (step host v a).Ensures w.Precedes w.Ends := by
      cases a with
      | key name => exact lookupKey_reports w v name
      | call name raw => exact callName_reports w v name raw
    refine .bind hs fun found => ?_
    cases found with
    | error f => exact .pure fun _ hs => hs
    | ok u => exact ih u

end Walk

end Inlay
