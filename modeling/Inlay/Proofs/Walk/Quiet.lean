import Inlay.Proofs.Handle.Unaltered
import Inlay.Proofs.Host.Trace

/-! Acts that do nothing but report. So are the arguments of a call evaluated whose references lead
over handles that look keys up by themselves: no callable gets a call of it. -/

namespace Inlay

variable {σ α β : Type}

namespace Act

/-- From some world an act does nothing but report. -/
def OnlyReports (act : Act (World σ) α) (w : World σ) : Prop :=
  ∃ journal, act.final w = { w with journal }

namespace OnlyReports

theorem pure (a : α) (w : World σ) : OnlyReports (pure a) w := ⟨w.journal, rfl⟩

theorem ofExcept (e : Except Fault α) (w : World σ) : OnlyReports (ofExcept e) w := by
  cases e <;> exact ⟨w.journal, rfl⟩

theorem report (message : String) (w : World σ) : OnlyReports (report message) w :=
  ⟨w.journal.note message, rfl⟩

theorem bind {act : Act (World σ) α} {next : α → Act (World σ) β} {w : World σ}
    (ha : OnlyReports act w) (hn : ∀ a journal, OnlyReports (next a) { w with journal }) :
    OnlyReports (act >>= next) w := by
  obtain ⟨journal, h⟩ := ha
  rw [OnlyReports, final_bind]
  rw [final] at h
  cases hs : act w with
  | ok a w₁ =>
    rw [hs] at h
    subst h
    exact hn a journal
  | error f w₁ =>
    rw [hs] at h
    exact ⟨journal, h⟩

theorem calls {act : Act (World (σ × Calls)) α} {w : World σ} (h : OnlyReports act w.traced) :
    act.calls w = [] := by
  obtain ⟨journal, h⟩ := h
  rw [Act.calls, h]
  rfl

end OnlyReports

end Act

open Act (OnlyReports)

variable {host : Host σ}

namespace Walk

def Unaltered : Value → List String → Prop
  | _, [] => True
  | v, key :: keys =>
    Handle.Unaltered Handle.keyMembers v ∧ ∀ u, v.find? key = .ok (some u) → Unaltered u keys

theorem followKeys_onlyReports {v : Value} {keys : List String} (h : Unaltered v keys)
    (w : World σ) : OnlyReports (followKeys host v keys) w := by
  induction keys generalizing v w with
  | nil => exact .pure _ w
  | cons key keys ih =>
    obtain ⟨hv, hu⟩ := h
    rw [followKeys, lookupKey, Value.lookup_of_unaltered hv]
    cases hf : v.classify >>= fun _ => v.find? key with
    | error f => exact .ofExcept (.error f) w
    | ok found =>
      cases found with
      | none => exact ⟨_, rfl⟩
      | some u =>
        obtain ⟨k, -, hf⟩ := Except.of_bind hf
        exact ih (hu u hf) w

theorem resolveReference_onlyReports {selector : String} {keys : List String} {w : World σ}
    (h : Unaltered (w.select selector) keys) :
    OnlyReports (resolveReference host selector keys) w := by
  refine (followKeys_onlyReports h w).bind fun found _ => ?_
  cases found <;> exact .pure _ _

end Walk

namespace Argument

def Unaltered (w : World σ) (raw : String) : Prop :=
  ∀ token ∈ split (some ',') raw.toList, ∀ selector keys,
    ofToken (Text.trim token) = .ok (.reference selector keys) →
      Walk.Unaltered (w.select selector) keys

theorem evalToken_onlyReports {token : List Char} {w : World σ}
    (h : ∀ selector keys, ofToken token = .ok (.reference selector keys) →
      Walk.Unaltered (w.select selector) keys) :
    OnlyReports (evalToken (Walk.resolveReference host) token) w := by
  rw [evalToken]
  cases ht : ofToken token with
  | error f => exact .ofExcept (.error f) w
  | ok a =>
    cases a with
    | literal v => exact .pure v w
    | reference selector keys => exact Walk.resolveReference_onlyReports (h selector keys ht)
    | unrecognized token => exact (OnlyReports.report _ w).bind fun _ _ => .pure _ _

theorem evalAll_onlyReports {raw : String} {w : World σ} (h : Unaltered w raw) :
    OnlyReports (evalAll (Walk.resolveReference host) raw) w := by
  rw [Unaltered] at h
  rw [evalAll]
  generalize split (some ',') raw.toList = tokens at h
  induction tokens generalizing w with
  | nil => exact .pure [] w
  | cons token tokens ih =>
    rw [List.forall_mem_cons] at h
    rw [List.mapM_cons]
    refine (evalToken_onlyReports h.1).bind fun v journal => ?_
    -- The contexts of both worlds are the same, and so are the changes, so the references are.
    have ht := @ih { w with journal } h.2
    exact ht.bind fun vs _ => .pure (v :: vs) _

end Argument

end Inlay
