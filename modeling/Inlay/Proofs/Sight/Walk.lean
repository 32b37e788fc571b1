import Inlay.Proofs.Sight.Lookup
import Inlay.Walk

/-! Walks: they take the same steps through values and through what is seen of these. -/

namespace Inlay

variable {σ τ : Type} {s : Sight} {R : World σ → World τ → Prop} {host : Host σ} {host' : Host τ}

namespace Sight

theorem revealsAll_of_forall₂ {vs vs' : List Value} (h : List.Forall₂ s.Reveals vs vs') :
    s.RevealsAll vs vs' := by
  induction h with
  | nil => exact ⟨rfl, List.forall_mem_nil _⟩
  | cons hv _ ih =>
    refine ⟨?_, List.forall_mem_cons.2 ⟨hv.guarded, ih.guarded⟩⟩
    rw [hv.eq, ih.eq, List.map_cons]

inductive RevealsCallee (s : Sight) : Walk.Callee → Walk.Callee → Prop
  | function (c : Callable) : RevealsCallee s (.function c) (.function c)
  | method {owner : Value} (name : String) :
    s.Guards (owner.seen s) → RevealsCallee s (.method owner name) (.method (owner.seen s) name)

end Sight

namespace Argument

variable {resolve : String → List String → Act (World σ) Value}
  {resolve' : String → List String → Act (World τ) Value}

theorem eval_matches (h : host.Mirrors host' s R)
    (hr : ∀ selector keys, Act.Matches R s.Reveals (resolve selector keys) (resolve' selector keys))
    {a : Argument} (ha : ∀ v, a = .literal v → s.Reveals v v) :
    Act.Matches R s.Reveals (eval resolve a) (eval resolve' a) := by
  cases a with
  | literal v => exact .pure (ha v rfl)
  | reference selector keys => exact hr selector keys
  | unrecognized token => exact (h.report _).bind fun _ _ _ => .pure .null

theorem reveals_keyword {token : List Char} {v : Value} (h : keyword? token = some v) :
    s.Reveals v v := by
  rw [keyword?] at h
  split at h
  · cases h
    exact .bool true
  · split at h
    · cases h
      exact .bool false
    · split at h
      · cases h
        exact .null
      · cases h

theorem reveals_literal {token : List Char} {v : Value} (h : ofToken token = .ok (.literal v)) :
    s.Reveals v v := by
  rw [ofToken] at h
  cases hs : string? token with
  | some t =>
    rw [hs] at h
    cases h
    exact .text t
  | none =>
    rw [hs] at h
    cases hr : reference? token with
    | some r =>
      rw [hr] at h
      cases h
    | none =>
      rw [hr] at h
      cases hn : Number.ofText token with
      | error f =>
        rw [hn] at h
        cases h
      | ok found =>
        rw [hn] at h
        cases found with
        | some n =>
          cases h
          cases n with
          | int n => exact .int n
          | float x => exact .atom rfl trivial rfl
        | none =>
          cases hk : keyword? token with
          | some w =>
            rw [hk] at h
            cases h
            exact reveals_keyword hk
          | none =>
            rw [hk] at h
            change Except.ok (if token.isEmpty then literal .null else _) = _ at h
            split at h
            · cases h
              exact .null
            · cases h

theorem evalAll_matches (h : host.Mirrors host' s R)
    (hr : ∀ selector keys, Act.Matches R s.Reveals (resolve selector keys) (resolve' selector keys))
    (raw : String) : Act.Matches R s.RevealsAll (evalAll resolve raw) (evalAll resolve' raw) := by
  refine Act.Matches.mono (.mapSame _ fun token _ => ?_) fun _ _ => Sight.revealsAll_of_forall₂
  refine .bindSame rfl fun a ha => eval_matches h hr ?_
  rintro v rfl
  exact reveals_literal ha

end Argument

namespace Walk

theorem fail_matches (h : host.Mirrors host' s R) (f : LookupFailure) :
    Act.Matches R (Act.Agree s.Reveals) (fail f) (fail f) :=
  (h.report _).bind fun _ _ _ => .pure (.error f)

theorem lookupKey_matches (h : host.Mirrors host' s R) {v : Value} (hv : s.Guards (v.seen s))
    (name : String) :
    Act.Matches R (Act.Agree s.Reveals) (lookupKey host v name)
      (lookupKey host' (v.seen s) name) := by
  refine (v.lookup_matches h hv name).bind fun found found' hf => ?_
  cases hf with
  | none => exact fail_matches h _
  | some hw => exact .pure (.ok hw)

theorem followKeys_matches (h : host.Mirrors host' s R) {v : Value} (hv : s.Guards (v.seen s))
    (keys : List String) :
    Act.Matches R (Act.Agree s.Reveals) (followKeys host v keys)
      (followKeys host' (v.seen s) keys) := by
  induction keys generalizing v with
  | nil => exact .pure (.ok ⟨rfl, hv⟩)
  | cons name names ih =>
    refine (lookupKey_matches h hv name).bind fun found found' hf => ?_
    cases hf with
    | error f => exact .pure (.error f)
    | ok hw =>
      obtain ⟨rfl, hw⟩ := hw
      exact ih hw

theorem resolveReference_matches (h : host.Mirrors host' s R) (selector : String)
    (keys : List String) :
    Act.Matches R s.Reveals (resolveReference host selector keys)
      (resolveReference host' selector keys) := by
  refine .get fun w w' hw => ?_
  obtain ⟨he, hg⟩ := h.select hw selector
  rw [he] at hg ⊢
  refine (followKeys_matches h hg keys).bind fun found found' hf => ?_
  cases hf with
  | error f => exact .pure .null
  | ok hv => exact .pure hv

theorem callee?_matches (h : host.Mirrors host' s R) {v : Value} (hv : s.Guards (v.seen s))
    (name : String) :
    Act.Matches R (Option.Rel s.RevealsCallee) (callee? host v name)
      (callee? host' (v.seen s) name) := by
  rw [callee?, callee?, Value.kind_seen, Value.checkClass_seen]
  refine .ite (fun _ => ?_) fun _ => .bindSame rfl fun _ _ => .ite (fun _ => ?_) fun _ => ?_
  · have hn : ∀ w ∈ [Value.text name], s.Guards (w.seen s) :=
      List.forall_mem_singleton.2 (Sight.Reveals.text name).guarded
    have ha : Act.Matches R s.Reveals (v.ask host .hasMethod [.text name])
        ((v.seen s).ask host' .hasMethod [.text name]) := v.ask_matches h (by decide) hv hn
    refine ha.bind ?_
    rintro known _ ⟨rfl, -⟩
    refine .bindSame (Value.truth_seen known) fun b _ => ?_
    cases b with
    | true => exact .pure (.some (.method name hv))
    | false => exact .pure .none
  · refine .get fun w w' hw => ?_
    rw [h.functions hw]
    cases Table.get? w.context.functions name with
    | none => exact .pure .none
    | some c => exact .pure (.some (.function c))
  · exact .pure .none

theorem Callee.invoke_matches (h : host.Mirrors host' s R) {c c' : Callee}
    (hc : s.RevealsCallee c c') {vs vs' : List Value} (hvs : s.RevealsAll vs vs') :
    Act.Matches R s.Reveals (c.invoke host vs) (c'.invoke host' vs') := by
  obtain ⟨rfl, hg⟩ := hvs
  rw [List.forall_mem_map] at hg
  cases hc with
  | function c => exact c.invoke_matches h vs hg
  | @method owner name ho =>
    have hl : (Value.list vs).seen s = .list (vs.map (Value.seen s)) := by
      rw [Value.seen, Value.seenItems_eq_map]
    have hp : ∀ w ∈ [Value.text name, .list vs], s.Guards (w.seen s) := by
      rw [List.forall_mem_cons, List.forall_mem_singleton, hl, Sight.Guards.list_iff,
        List.forall_mem_map]
      exact ⟨(Sight.Reveals.text name).guarded, hg⟩
    have ha := owner.ask_matches h (m := .callMethod) (by decide) ho hp
    rw [List.map_cons, List.map_cons, List.map_nil, hl] at ha
    exact ha

theorem attempt_matches (h : host.Mirrors host' s R) (name : String) {c c' : Callee}
    (hc : s.RevealsCallee c c') {vs vs' : List Value} (hvs : s.RevealsAll vs vs') :
    Act.Matches R (Act.Agree s.Reveals) (attempt host name c vs) (attempt host' name c' vs') := by
  refine (Callee.invoke_matches h hc hvs).observe.bind fun found found' hf => ?_
  cases hf with
  | error f => exact fail_matches h _
  | ok hv => exact .pure (.ok hv)

theorem callName_matches (h : host.Mirrors host' s R) {v : Value} (hv : s.Guards (v.seen s))
    (name raw : String) :
    Act.Matches R (Act.Agree s.Reveals) (callName host v name raw)
      (callName host' (v.seen s) name raw) := by
  refine (callee?_matches h hv name).bind fun c c' hc => ?_
  cases hc with
  | none => exact fail_matches h _
  | some hc =>
    exact (Argument.evalAll_matches h (resolveReference_matches h) raw).bind fun vs vs' hvs =>
      attempt_matches h name hc hvs

theorem step_matches (h : host.Mirrors host' s R) {v : Value} (hv : s.Guards (v.seen s))
    (a : Accessor) :
    Act.Matches R (Act.Agree s.Reveals) (step host v a) (step host' (v.seen s) a) := by
  cases a with
  | key name => exact lookupKey_matches h hv name
  | call name raw => exact callName_matches h hv name raw

theorem walk_matches (h : host.Mirrors host' s R) {v : Value} (hv : s.Guards (v.seen s))
    (accessors : List Accessor) :
    Act.Matches R (Act.Agree s.Reveals) (walk host v accessors)
      (walk host' (v.seen s) accessors) := by
  induction accessors generalizing v with
  | nil => exact .pure (.ok ⟨rfl, hv⟩)
  | cons a rest ih =>
    refine (step_matches h hv a).bind fun found found' hf => ?_
    cases hf with
    | error f => exact .pure (.error f)
    | ok hw =>
      obtain ⟨rfl, hw⟩ := hw
      exact ih hw

end Walk

end Inlay
