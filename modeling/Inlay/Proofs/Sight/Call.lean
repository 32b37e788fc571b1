import Inlay.Proofs.Sight.Handle
import Inlay.Proofs.Sight.Standard

/-! Calls: two hosts that answer alike about values and about what is seen of them, and all the
calls of members that come down to them. -/

namespace Inlay

variable {σ τ : Type} {s : Sight} {R : World σ → World τ → Prop}

/-- Two hosts, for worlds that are related: the second one is told what is seen of the values that
the first one is told. -/
structure Host.Mirrors (host : Host σ) (host' : Host τ) (s : Sight)
    (R : World σ → World τ → Prop) : Prop where
  select : ∀ {w w'}, R w w' → ∀ selector, s.Reveals (w.select selector) (w'.select selector)
  functions : ∀ {w w'}, R w w' → w'.context.functions = w.context.functions
  note : ∀ message {w w'}, R w w' → R (Reports.note message w) (Reports.note message w')
  change : s.Full → ∀ c {w w'}, R w w' → R (w.change c) (w'.change c)
  invoke : ∀ id label vs, (∀ v ∈ vs, s.Guards (v.seen s)) →
    Act.Matches R s.Reveals ((Callable.hosted id label).invoke host vs)
      ((Callable.hosted id label).invoke host' (vs.map (Value.seen s)))
  reaches : ¬s.Full → ∀ id label,
    ((Callable.hosted id label).invoke host' []).YieldsBeside R fun v =>
      ∀ target, v.number? = some target → s.reaches id target = true
  grants : ¬s.Full → ∀ id label name,
    ((Callable.hosted id label).invoke host' [.text name]).YieldsBeside R fun v =>
      v.truth = .ok true → s.grants id name = true

variable {host : Host σ} {host' : Host τ}

theorem Host.Mirrors.report (h : host.Mirrors host' s R) (message : String) :
    Act.Matches R Eq (Act.report message) (Act.report message) :=
  .modify fun _ _ hw => h.note message hw

def World.answered (w : World σ) (ended : Except Fault Value) (memory : σ) :
    EStateM.Result Fault (World σ) Value :=
  match ended with
  | .ok v => .ok (w.current v) { w with memory }
  | .error f => .error f { w with memory }

theorem Callable.invoke_hosted (host : Host σ) (id : Nat) (label : String) (vs : List Value)
    (w : World σ) :
    (Callable.hosted id label).invoke host vs w =
      w.answered (host.call id vs w.memory).1 (host.call id vs w.memory).2 := by
  delta Callable.invoke
  dsimp only
  generalize host.call id vs w.memory = r
  obtain ⟨e, m⟩ := r
  cases e <;> rfl

theorem Callable.invoke_recased_nil (host : Host σ) (up : Bool) (t : String) :
    (Callable.recased up t).invoke host [] =
      pure (.text (if up then Text.upper t else Text.lower t)) := rfl

theorem Callable.invoke_recased_cons (host : Host σ) (up : Bool) (t : String) (v : Value)
    (vs : List Value) :
    (Callable.recased up t).invoke host (v :: vs) =
      throw (.needlessArguments (if up then "str.upper" else "str.lower") (vs.length + 1)) := rfl

theorem Callable.invoke_matches (h : host.Mirrors host' s R) (c : Callable) (vs : List Value)
    (hvs : ∀ v ∈ vs, s.Guards (v.seen s)) :
    Act.Matches R s.Reveals (c.invoke host vs) (c.invoke host' (vs.map (Value.seen s))) := by
  cases c with
  | hosted id label => exact h.invoke id label vs hvs
  | recased up t =>
    cases vs with
    | nil =>
      rw [List.map_nil, invoke_recased_nil, invoke_recased_nil]
      exact .pure (.text _)
    | cons v rest =>
      rw [List.map_cons, invoke_recased_cons, invoke_recased_cons, List.length_map]
      exact .throw _

namespace Handle

theorem hold_matches (h : host.Mirrors host' s R) (hf : s.Full) (v : Value)
    (holdings : Except Fault (Table Value)) :
    Act.Matches R s.Reveals (v.hold holdings) (v.hold holdings) :=
  .bindSame rfl fun _ _ => .bind (.modify fun _ _ hw => h.change hf _ hw) fun _ _ _ => .pure .null

theorem fixedAnswer_matches (hc : s.Clear) {name : String} (hn : ¬s.Bars name) {v : Value}
    (hv : s.Guards v) (vs : List Value) :
    Act.Matches R s.Reveals (Act.ofExcept (v.fixedAnswer name vs))
      (Act.ofExcept (v.fixedAnswer name vs)) :=
  .ofSame rfl fun w hw =>
    ⟨(Value.seen_of_clear hc w).symm, Value.guards_fixedAnswer vs hv hn hw⟩

theorem standardAnswer_matches (h : host.Mirrors host' s R) {name : String}
    (hn : s.Full ∨ ¬s.Bars name) {v : Value} (hv : s.Guards (v.seen s)) (vs : List Value) :
    Act.Matches R s.Reveals (v.standardAnswer name vs)
      ((v.seen s).standardAnswer name (vs.map (Value.seen s))) := by
  rcases hn with hf | hn
  · rw [hf.seen_eq_id, List.map_id, id, Value.standardAnswer.eq_def, Value.standardAnswer.eq_def]
    split
    · exact hold_matches h hf v _
    · exact hold_matches h hf v _
    · exact .ofSame rfl fun w _ => ⟨(Value.seen_of_clear hf.clear w).symm, .inl hf⟩
  · have hk : name ∉ Sight.changingNames := fun hm => hn (.inl hm)
    rw [Value.standardAnswer_of_kept _ _ hk, Value.standardAnswer_of_kept _ _ hk]
    by_cases hc : s.Clear
    · rw [Value.seen_of_clear hc] at hv
      rw [hc.seen_eq_id, List.map_id, id]
      exact fixedAnswer_matches hc hn hv vs
    · obtain ⟨he, hs⟩ := Value.fixedAnswer_seen (s := s) v vs (Sight.notMem_of_not_bars hc hn)
      rw [he]
      refine .ofSame rfl fun w hw => ?_
      exact ⟨(Value.seen_of_isSimple (hs w hw)).symm, .simple (hs w hw)⟩

variable {call : Caller (World σ)} {call' : Caller (World τ)}

theorem target_reveals {owner : Value} (ho : s.Guards (owner.seen s)) :
    s.Reveals (target owner) (target (owner.seen s)) := by
  cases owner with
  | wrapped id face t => exact .of_guards (ho.constituent (List.mem_singleton.2 rfl))
  | _ => exact .of_guards ho

theorem length_matches (owner : Value) :
    Act.Matches R s.Reveals (answer call owner .length [])
      (answer call' (owner.seen s) .length []) := by
  refine .pure ?_
  cases owner with
  | object id face own size =>
    cases size with
    | none => exact .null
    | some n => exact .int n
  | _ => exact .null

theorem count_matches (hc : s.Callers R call call') {owner : Value} (hh : s.Handles owner)
    (ho : s.Guards (owner.seen s)) :
    Act.Matches R s.Reveals (answer call owner .count [])
      (answer call' (owner.seen s) .count []) := by
  refine (askTarget_matches hc hh ho).bind ?_
  rintro t _ ⟨⟨rfl, -⟩, -⟩
  exact .bindSame (Value.size_seen t) fun n _ => .pure (.int _)

theorem answer_matches (h : host.Mirrors host' s R) (hc : s.Callers R call call') {owner : Value}
    {m : Member} {vs : List Value} (hg : s.Guards ((Value.method owner m).seen s))
    (hvs : ∀ v ∈ vs, s.Guards (v.seen s)) :
    Act.Matches R s.Reveals (answer call owner m vs)
      (answer call' (owner.seen s) m (vs.map (Value.seen s))) := by
  have ho : s.Guards (owner.seen s) := hg.constituent (List.mem_singleton.2 rfl)
  have hh : m ∈ Member.common → s.Handles owner := handles_of_common hg.head
  have ha : Act.Matches R s.Reveals (throw (arityFault owner m vs.length))
      (throw (arityFault (owner.seen s) m (vs.map (Value.seen s)).length)) := by
    rw [arityFault_seen, List.length_map]
    exact .throw _
  cases m with
  | target =>
    cases vs with
    | nil => exact .pure (target_reveals ho)
    | cons => exact ha
  | property =>
    rcases vs with _ | ⟨name, _ | ⟨v, rest⟩⟩
    · exact ha
    · exact property_matches hc (hh (by decide)) ho
    · exact ha
  | hasMethod =>
    rcases vs with _ | ⟨name, _ | ⟨v, rest⟩⟩
    · exact ha
    · exact hasMethod_matches hc (hh (by decide)) ho
    · exact ha
  | callMethod =>
    rcases vs with _ | ⟨name, _ | ⟨arguments, _ | ⟨v, rest⟩⟩⟩
    · exact ha
    · exact ha
    · exact callMethod_matches hc (hh (by decide)) ho (hvs _ (by simp)) (hvs _ (by simp))
    · exact ha
  | exports =>
    cases vs with
    | nil => exact exports_matches hc (hh (by decide)) ho
    | cons => exact ha
  | countable =>
    cases vs with
    | nil => exact countable_matches hc (hh (by decide)) ho
    | cons => exact ha
  | count =>
    cases vs with
    | nil => exact count_matches hc (hh (by decide)) ho
    | cons => exact ha
  | parts =>
    cases vs with
    | nil =>
      refine .pure (.of_guards (.of_constituents (.inr trivial) fun w hw => ?_))
      rwa [List.mem_singleton.1 hw]
    | cons => exact ha
  | length =>
    cases vs with
    | nil => exact length_matches owner
    | cons => exact ha
  | invocation => exact hc.alike _ _ ho hvs
  | standard name =>
    refine standardAnswer_matches h (hg.head.imp_right fun hm => ?_) ho vs
    exact (hm.resolve_left (standard_notMem_members _ _)).2
  | innate typeName name =>
    refine hc.alike (.callable _) (owner :: .text name :: vs) (.simple rfl) ?_
    exact List.forall_mem_cons.2 ⟨ho, List.forall_mem_cons.2 ⟨.simple rfl, hvs⟩⟩

end Handle

namespace Value

open Sight (Callers)

theorem call_callable (host : Host σ) (depth : Nat) (c : Callable) (vs : List Value) :
    call host depth (.callable c) vs = c.invoke host vs := by
  cases depth <;> rfl

theorem call_other (host : Host σ) (depth : Nat) {v : Value} (hc : ∀ c, v ≠ .callable c)
    (hm : ∀ owner m, v ≠ .method owner m) (vs : List Value) :
    call host depth v vs = throw v.callFault := by
  cases v with
  | callable c => exact absurd rfl (hc c)
  | method owner m => exact absurd rfl (hm owner m)
  | _ => cases depth <;> rfl

section

variable (h : host.Mirrors host' s R)
include h

theorem call_target_over (hf : ¬s.Full) (depth : Nat) {v c : Value} (hk : v.kind = .object)
    (hc : v.read Member.target.name = .ok c) :
    (call host' depth c []).YieldsBeside R fun t => ∀ id, t.number? = some id → s.Over v id := by
  rcases own_or_inherited_of_read hc with ho | ⟨ho, hi⟩
  · have hover : ∀ id, s.Leads (.value c) id → s.Over v id := by
      intro id hl
      rw [Sight.Over, ho]
      exact hl
    cases c with
    | callable c =>
      rw [call_callable]
      cases c with
      | hosted id label =>
        exact fun w w' hw t w'' ht target hn =>
          hover _ (h.reaches hf id label w w' hw t w'' ht target hn)
      | recased up t =>
        rw [Callable.invoke_recased_nil]
        refine .pure fun id hn => ?_
        cases hn
    | method owner m => exact fun _ _ _ t _ _ id _ => hover id trivial
    | _ =>
      rw [call_other _ _ (by simp) (by simp)]
      exact .throw _
  · rw [Handle.inherited?_common hk (by decide)] at hi
    obtain rfl := Option.some.inj hi
    cases depth with
    | zero => exact .throw _
    | succ depth => exact .pure fun id hid => Sight.over_of_target ho hid

theorem call_hasMethod_lists (hf : ¬s.Full) (depth : Nat) {v c : Value} {name : String}
    (hk : v.kind = .object)
    (hc : v.read Member.hasMethod.name = .ok c) :
    (call host' depth c [.text name]).YieldsBeside R fun known =>
      known.truth = .ok true → s.Lists v name := by
  rcases own_or_inherited_of_read hc with ho | ⟨ho, hi⟩
  · have hlists : s.Grants (.value c) name → s.Lists v name := fun hg => .inr ⟨_, ho, hg⟩
    cases c with
    | callable c =>
      rw [call_callable]
      cases c with
      | hosted id label =>
        exact fun w w' hw t w'' ht hn => hlists (h.grants hf id label name w w' hw t w'' ht hn)
      | recased up t =>
        rw [Callable.invoke_recased_cons]
        exact .throw _
    | method owner m => exact fun _ _ _ _ _ _ _ => hlists trivial
    | _ =>
      rw [call_other _ _ (by simp) (by simp)]
      exact .throw _
  · rw [Handle.inherited?_common hk (by decide)] at hi
    obtain rfl := Option.some.inj hi
    cases depth with
    | zero => exact .throw _
    | succ depth =>
      change (Handle.hasMethod (call host' depth) v (.text name)).YieldsBeside R _
      refine .bindExcept fun names hr => .bindExcept fun held hh => ?_
      cases held with
      | false => exact .pure fun ht => by cases ht
      | true => exact fun _ _ _ _ _ _ _ => .inl ⟨_, by simp, names, hr, hh⟩

theorem call_matches {depth : Nat} {v : Value}
    (hm : ∀ owner m, v = .method owner m → ∀ vs : List Value, s.Guards (v.seen s) →
      (∀ w ∈ vs, s.Guards (w.seen s)) →
      Act.Matches R s.Reveals (call host depth (.method owner m) vs)
        (call host' depth (.method (owner.seen s) m) (vs.map (Value.seen s))))
    (vs : List Value) (hv : s.Guards (v.seen s)) (hvs : ∀ w ∈ vs, s.Guards (w.seen s)) :
    Act.Matches R s.Reveals (call host depth v vs)
      (call host' depth (v.seen s) (vs.map (Value.seen s))) := by
  have hf := callFault_seen (s := s) v
  cases v with
  | callable c =>
    have hs : (callable c).seen s = callable c := rfl
    rw [hs, call_callable, call_callable]
    exact c.invoke_matches h vs hvs
  | method owner m => exact hm owner m rfl vs hv hvs
  | _ =>
    rw [call_other _ _ (by simp) (by simp), call_other _ _ (by simp [seen]) (by simp [seen]), hf]
    exact .throw _

theorem call_callers (depth : Nat) : s.Callers R (call host depth) (call host' depth) := by
  have ht : ∀ depth v, s.Handles v → s.Guards v →
      (Handle.ask (call host' depth) v .target []).YieldsBeside R
        fun t => ∀ name, s.Lists v name → s.Admits t name := by
    intro depth v hh hg
    by_cases hf : s.Full
    · exact fun _ _ _ _ _ _ _ _ => .inl hf
    · have hk := hh.resolve_left hf
      refine .bindExcept fun c hc w w' hw t w'' ht name hn => hg.admits hk hn ?_
      exact call_target_over h hf depth hk hc w w' hw t w'' ht
  have hm : ∀ depth v name, s.Handles v →
      (Handle.ask (call host' depth) v .hasMethod [.text name]).YieldsBeside R
        fun known => known.truth = .ok true → s.Full ∨ s.Lists v name := by
    intro depth v name hh
    by_cases hf : s.Full
    · exact fun _ _ _ _ _ _ _ => .inl hf
    · have hk := hh.resolve_left hf
      refine .bindExcept fun c hc w w' hw t w'' ht hn => .inr ?_
      exact call_hasMethod_lists h hf depth hk hc w w' hw t w'' ht hn
  induction depth with
  | zero =>
    refine ⟨fun v => call_matches h fun owner m _ vs _ _ => ?_, ht 0, hm 0⟩
    exact .throw _
  | succ depth ih =>
    refine ⟨fun v => call_matches h fun owner m he vs hv hvs => ?_, ht _, hm _⟩
    subst he
    exact Handle.answer_matches h ih hv hvs

theorem ask_matches {v : Value} {m : Member} {vs : List Value} (hm : m ∈ Member.common)
    (hv : s.Guards (v.seen s)) (hvs : ∀ w ∈ vs, s.Guards (w.seen s)) :
    Act.Matches R s.Reveals (v.ask host m vs) ((v.seen s).ask host' m (vs.map (Value.seen s))) :=
  Handle.ask_matches (call_callers h callCap) hm hv hvs

end

end Value

end Inlay
