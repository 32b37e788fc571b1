import Inlay.Host.Recipe
import Inlay.Proofs.Engine.Calls
import Inlay.Proofs.Walk.Quiet

/-! Walks one after the other. A walk goes on where its beginning has led, with the calls of the
beginning before its own, and a call on a value that answers by itself goes to one callable, once
and after its arguments. -/

namespace Inlay.Walk

variable {σ : Type} {host : Host σ}

variable (host) in
def walkOn (accessors : List Accessor) : Found → Act (World σ) Found
  | .ok v => walk host v accessors
  | .error f => return .error f

theorem walk_append_eq (v : Value) (xs ys : List Accessor) :
    walk host v (xs ++ ys) = walk host v xs >>= walkOn host ys := by
  induction xs generalizing v with
  | nil => exact (pure_bind (.ok v) (walkOn host ys)).symm
  | cons x xs ih =>
    rw [List.cons_append, walk, walk, bind_assoc]
    refine congrArg (_ >>= ·) (funext fun found => ?_)
    cases found with
    | ok u => exact ih u
    | error f => rfl

theorem walk_traced (v : Value) (accessors : List Accessor) :
    Act.Matches World.Tracks Eq (walk host v accessors) (walk host.traced v accessors) := by
  have hm := walk_matches (World.Tracks.mirrors host) (Sight.guards_full (v.seen _)) accessors
  rw [Sight.seen_full] at hm
  exact hm.mono fun _ _ => Act.Agree.eq fun _ _ => Sight.reveals_full_iff.1

theorem walkOn_keeps {R : World σ → World σ → Prop} (h : host.Respects R)
    (accessors : List Accessor) (found : Found) : (walkOn host accessors found).Keeps R := by
  cases found with
  | error f => exact .pure _
  | ok v =>
    have hm := walk_matches h.mirrors (Sight.guards_full (v.seen _)) accessors
    rw [Sight.seen_full] at hm
    exact (hm.mono fun _ _ => Act.Agree.eq fun _ _ => Sight.reveals_full_iff.1).keeps

theorem calls_walk_append (v : Value) (xs ys : List Accessor) (w : World σ) :
    (walk host.traced v (xs ++ ys)).calls w = (walk host.traced v xs).calls w ++
      match walk host v xs w with
      | .ok (.ok u) w₁ => (walk host.traced u ys).calls w₁
      | _ => [] := by
  rw [walk_append_eq, Act.calls_seq (walk_traced v xs) fun found before =>
    walkOn_keeps (World.Follows.respects host before) ys found]
  refine congrArg (_ ++ ·) ?_
  rcases walk host v xs w with ⟨u | f, w₁⟩ | ⟨f, w₁⟩ <;> rfl

def callable? (w : World σ) (v : Value) (name : String) : Except Fault (Option Value) :=
  if v.kind = .object then Handle.method? v name
  else do
    v.checkClass
    return if v.kind = .null then (Table.get? w.context.functions name).map .callable else none

def enter (host : Host σ) (c : Value) (arguments : List Value) : Act (World σ) Value :=
  Value.call host (Value.callCap - 1) c arguments

def once (host : Host σ) (name : String) (c : Value) (arguments : List Value) :
    Act (World σ) Found := do
  match ← Act.observe (enter host c arguments) with
  | .ok v => return .ok v
  | .error f => fail (.raised name f)

inductive Stands (v : Value) (name : String) : Callee → Value → Prop
  | function (c : Callable) : Stands v name (.function c) (.callable c)
  | method {a : Value} : v.kind = .object → Handle.method? v name = .ok (some a) →
    Stands v name (.method v name) a

theorem Stands.invoke {v a : Value} {name : String} {c : Callee} (h : Stands v name c a)
    (hv : Handle.Unaltered Handle.callMembers v) (arguments : List Value) :
    c.invoke host arguments = enter host a arguments := by
  cases h with
  | function c => rfl
  | method hk ha =>
    have hm : v.read Member.callMethod.name = .ok (.method v .callMethod) :=
      hv hk .callMethod (by decide)
    rw [Callee.invoke, Value.ask_of_read hm]
    exact Handle.callMethod_eq hv hk ha 997 arguments

theorem Stands.attempt {v a : Value} {name : String} {c : Callee} (h : Stands v name c a)
    (hv : Handle.Unaltered Handle.callMembers v) (arguments : List Value) :
    attempt host name c arguments = once host name a arguments := by
  rw [Walk.attempt, once]
  refine congrArg₂ Bind.bind (congrArg Act.observe (h.invoke hv arguments)) ?_
  funext found
  cases found <;> rfl

theorem callee?_of_callable? {v : Value} {name : String} {w : World σ} {a? : Option Value}
    (hv : Handle.Unaltered Handle.callMembers v) (h : callable? w v name = .ok a?) :
    ∃ c?, callee? host v name w = .ok c? w ∧ Option.Rel (Stands v name) c? a? := by
  rw [callable?] at h
  rw [callee?]
  by_cases hk : v.kind = .object
  · rw [if_pos hk] at h
    have ht : v.read Member.target.name = .ok (.method v .target) := hv hk .target (by decide)
    have hm : v.read Member.hasMethod.name = .ok (.method v .hasMethod) :=
      hv hk .hasMethod (by decide)
    have hask : v.ask host .hasMethod [.text name] = pure (.bool a?.isSome) := by
      rw [Value.ask_of_read hm]
      refine (Handle.hasMethod_eq ht 998 name).trans ?_
      rw [h]
      rfl
    rw [if_pos hk, hask, pure_bind]
    cases a? with
    | none => exact ⟨none, rfl, .none⟩
    | some a => exact ⟨some (.method v name), rfl, .some (.method hk h)⟩
  · rw [if_neg hk] at h
    obtain ⟨_, hc, h⟩ := Except.of_bind h
    cases h
    rw [if_neg hk, hc]
    by_cases hn : v.kind = .null
    · refine ⟨(Table.get? w.context.functions name).map .function, ?_, ?_⟩
      · rw [if_pos hn]
        rfl
      · rw [if_pos hn]
        cases Table.get? w.context.functions name with
        | none => exact .none
        | some c => exact .some (.function c)
    · rw [if_neg hn, if_neg hn]
      exact ⟨none, rfl, .none⟩

theorem callName_of_callable? {v : Value} {name raw : String} {w : World σ} {a? : Option Value}
    (hv : Handle.Unaltered Handle.callMembers v) : callable? w v name = .ok a? →
      callName host v name raw w =
        match a? with
        | none => fail (.noCallable name) w
        | some a => (Argument.evalAll (resolveReference host) raw >>= once host name a) w := by
  intro h
  -- Telling what to call leaves the world as it is, so the arguments are evaluated in this one.
  obtain ⟨c?, hc, hr⟩ : ∃ c?, callee? host v name w = .ok c? w ∧
      Option.Rel (Stands v name) c? a? := callee?_of_callable? hv h
  rw [callName, Act.bind_apply, hc]
  cases hr with
  | none => rfl
  | some hs =>
    have ha : attempt host name _ = once host name _ := funext (hs.attempt hv)
    exact congrFun (congrArg (Argument.evalAll (resolveReference host) raw >>= ·) ha) w

theorem Stands.once_keeps {R : World σ → World σ → Prop} (hr : host.Respects R) {v a : Value}
    {name : String} {c : Callee} (h : Stands v name c a)
    (hv : Handle.Unaltered Handle.callMembers v) (arguments : List Value) :
    (once host name a arguments).Keeps R := by
  rw [once, ← h.invoke hv]
  refine (Callee.invoke_keeps hr arguments c).observe.bind fun found => ?_
  cases found with
  | ok u => exact .pure _
  | error f => exact (hr.report _).bind fun _ => .pure _

theorem calls_once (name : String) (a : Value) (arguments : List Value) (w : World σ) :
    (once host.traced name a arguments).calls w = (enter host.traced a arguments).calls w := by
  rw [once, Act.calls, Act.final_bind, Act.observe, Act.calls, Act.final]
  cases enter host.traced a arguments w.traced <;> rfl

theorem calls_enter_hosted (id : Nat) (label : String) (vs : List Value) (w : World σ) :
    (enter host.traced (.callable (.hosted id label)) vs).calls w = [(id, vs)] := by
  rw [Act.calls, Act.final, enter, Value.call_callable, Callable.invoke_hosted]
  cases (host.traced.call id vs w.traced.memory).1 <;> rfl

theorem evalAll_traced (raw : String) :
    Act.Matches World.Tracks Eq (Argument.evalAll (resolveReference host) raw)
      (Argument.evalAll (resolveReference host.traced) raw) := by
  have hm := World.Tracks.mirrors host
  have hv := Argument.evalAll_matches hm (resolveReference_matches hm) raw
  exact hv.mono fun _ _ => Sight.eq_of_revealsAll_full

theorem calls_callName {v : Value} {name raw : String} {w : World σ} {a? : Option Value}
    (hv : Handle.Unaltered Handle.callMembers v) (hraw : Argument.Unaltered w raw) :
    callable? w v name = .ok a? → (callName host.traced v name raw).calls w =
      match a?, Argument.evalAll (resolveReference host) raw w with
      | some a, .ok vs w₁ => (enter host.traced a vs).calls w₁
      | _, _ => [] := by
  intro h
  have ht : callable? w.traced v name = .ok a? := h
  obtain ⟨c?, -, hr⟩ : ∃ c?, callee? host.traced v name w.traced = .ok c? w.traced ∧
      Option.Rel (Stands v name) c? a? := callee?_of_callable? hv ht
  rw [Act.calls, Act.final, callName_of_callable? hv ht]
  cases hr with
  | none => rfl
  | @some c a hs =>
    -- The arguments call nothing, so what is left are the calls of the callable itself.
    have hq : Act.OnlyReports (Argument.evalAll (resolveReference host.traced) raw) w.traced :=
      Argument.evalAll_onlyReports hraw
    have hkeeps : ∀ vs before, (once host.traced name a vs).Keeps (World.Follows before) :=
      fun vs before => hs.once_keeps (World.Follows.respects host before) hv vs
    refine (Act.calls_seq (evalAll_traced raw) hkeeps w).trans ?_
    rw [hq.calls, List.nil_append]
    cases Argument.evalAll (resolveReference host) raw w with
    | ok vs w₁ => exact calls_once name a vs w₁
    | error f w₁ => rfl

end Inlay.Walk
