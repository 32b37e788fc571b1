import Inlay.Host.Recipe
import Inlay.Proofs.Act.Return
import Inlay.Proofs.Argument.Token
import Inlay.Proofs.Argument.Written
import Inlay.Proofs.Engine.Report
import Inlay.Proofs.Walk.Navigation

/-! Walks that raise faults: which look-ups, questions and arguments do. What is called never makes
a walk raise. -/

namespace Inlay

variable {σ : Type} {host : Host σ}

namespace Value

def Legible (key : String) : Prop :=
  ∀ digits ∈ Text.digits? key.toList, digits.length ≤ Number.digitCap

theorem exists_index?_eq_ok {key : String} : (∃ n, index? key = .ok n) ↔ Legible key := by
  refine ⟨fun ⟨n, hn⟩ digits hd => ?_, fun h => ⟨_, index?_eq h⟩⟩
  rw [index?, Option.mem_def.1 hd] at hn
  obtain ⟨m, hm, -⟩ := Except.of_map hn
  rw [Number.readNat] at hm
  by_contra hl
  rw [if_neg hl] at hm
  cases hm

/-- To look a key up in a value raises nothing. A handle has to answer for the key, an object that
is none has to let its class be read, and digits have to be read as an index unless the key is there
as it is. -/
def Answers (host : Host σ) (w : World σ) (key : String) : Value → Prop
  | .object id face own size =>
    (Value.object id face own size).checkClass = .ok () ∧
      ((Value.object id face own size).ask host .property [.text key]).Returns w
  | .wrapped id face target =>
    ((Value.wrapped id face target).ask host .property [.text key]).Returns w
  | .plain id shown own => (Value.plain id shown own).readClass = .ok ()
  | .mapping _ entries => entry? (isText key) entries = none → Legible key
  | .list _ | .tuple _ => Legible key
  | .range r =>
    Legible key ∧ ((Text.digits? key.toList).isSome = true → r.length < Range.countCap)
  | _ => True

theorem exists_mappingEntry?_eq_ok {entries : List (Value × Value)} {key : String} :
    (∃ found, mappingEntry? entries key = .ok found) ↔
      ( entry? (isText key) entries = none → Legible key) := by
  rw [ mappingEntry?]
  cases entry? (isText key) entries with
  | some v =>
    refine ⟨fun _ hn => ?_, fun _ => ⟨some v, rfl⟩⟩
    cases hn
  | none =>
    refine (Except.exists_bind_eq_ok.trans ?_).trans (forall_prop_of_true rfl).symm
    rw [← exists_index?_eq_ok]
    refine exists_congr fun n => and_iff_left ?_
    cases n with
    | none => exact ⟨_, rfl⟩
    | some n => exact ⟨_, rfl⟩

theorem exists_element?_eq_ok {items : List Value} {key : String} :
    (∃ found, element? items key = .ok found) ↔ Legible key := by
  refine Except.exists_bind_eq_ok.trans ?_
  rw [← exists_index?_eq_ok]
  refine exists_congr fun n => and_iff_left ?_
  cases n with
  | none => exact ⟨_, rfl⟩
  | some n => exact ⟨_, rfl⟩

theorem exists_rangeLength_eq_ok {r : Range} :
    (∃ n, rangeLength r = .ok n) ↔ r.length < Range.countCap := by
  rw [rangeLength]
  split
  · next h => exact ⟨fun _ => h, fun _ => ⟨_, rfl⟩⟩
  · next h =>
    refine ⟨?_, fun hl => absurd hl h⟩
    rintro ⟨n, ⟨⟩⟩

theorem exists_rangeElement?_eq_ok {r : Range} {key : String} :
    (∃ found, rangeElement? r key = .ok found) ↔
      Legible key ∧ ((Text.digits? key.toList).isSome = true → r.length < Range.countCap) := by
  refine Except.exists_bind_eq_ok.trans ?_
  by_cases hk : Legible key
  · rw [index?_eq hk, and_iff_right hk]
    cases Text.digits? key.toList with
    | none => exact ⟨fun _ => nofun, fun _ => ⟨none, rfl, _, rfl⟩⟩
    | some digits =>
      rw [← exists_rangeLength_eq_ok]
      refine Iff.trans ?_ (forall_prop_of_true rfl).symm
      constructor
      · rintro ⟨_, ⟨⟩, h⟩
        obtain ⟨n, hn, -⟩ := Except.exists_bind_eq_ok.1 h
        exact ⟨n, hn⟩
      · rintro ⟨n, hn⟩
        exact ⟨_, rfl, Except.exists_bind_eq_ok.2 ⟨n, hn, _, rfl⟩⟩
  · refine ⟨?_, fun h => absurd h.1 hk⟩
    rintro ⟨n, hn, -⟩
    exact absurd (exists_index?_eq_ok.1 ⟨n, hn⟩) hk

theorem lookup_returns_of_entry {v : Value} {key : String} {k : Kind} (hc : v.classify = .ok k)
    (hk : k ≠ .object) (w : World σ) :
    (v.lookup host key).Returns w ↔ ∃ found, v.entryAt? key = .ok found := by
  rw [lookup_entry hc hk, Act.returns_ofExcept]

theorem lookup_returns_of_handle {v : Value} {key : String} (hc : v.classify = .ok .object)
    (w : World σ) :
    (v.lookup host key).Returns w ↔ (v.ask host .property [.text key]).Returns w := by
  rw [lookup, hc]
  exact Act.returns_bind_pure fun u => present? (some u)

theorem lookup_returns_iff (v : Value) (key : String) (w : World σ) :
    (v.lookup host key).Returns w ↔ v.Answers host w key := by
  cases v with
  | object id face own size =>
    rw [Answers]
    cases hc : (Value.object id face own size).checkClass with
    | ok _ =>
      rw [lookup_returns_of_handle (by rw [classify, hc]; rfl), and_iff_right rfl]
    | error f =>
      rw [lookup, classify, hc]
      constructor
      · rintro ⟨found, w', ⟨⟩⟩
      · rintro ⟨⟨⟩, -⟩
  | wrapped id face target => exact lookup_returns_of_handle rfl w
  | plain id shown own =>
    rw [Answers]
    cases hc : (Value.plain id shown own).readClass with
    | ok _ =>
      have hk : (Value.plain id shown own).classify = .ok .other := by
        simp only [classify, hc]
        rfl
      refine (lookup_returns_of_entry hk (by decide) w).trans ?_
      exact ⟨fun _ => rfl, fun _ => ⟨none, rfl⟩⟩
    | error f =>
      simp only [lookup, classify, hc]
      constructor
      · rintro ⟨found, w', ⟨⟩⟩
      · rintro ⟨⟩
  | mapping form entries =>
    rw [lookup_returns_of_entry (k := .mapping) rfl (by decide), Answers,
      ← exists_mappingEntry?_eq_ok]
    exact Except.exists_map_eq_ok
  | list | tuple =>
    rw [lookup_returns_of_entry (k := .sequence) rfl (by decide), Answers]
    exact Except.exists_map_eq_ok.trans exists_element?_eq_ok
  | range r =>
    rw [lookup_returns_of_entry (k := .sequence) rfl (by decide), Answers]
    exact exists_rangeElement?_eq_ok
  | _ => exact ⟨fun _ => trivial, fun _ => ⟨none, w, rfl⟩⟩

def Tells (host : Host σ) (w : World σ) (name : String) (v : Value) : Prop :=
  if v.kind = .object then
    ∃ known w', v.ask host .hasMethod [.text name] w = .ok known w' ∧ ∃ b, known.truth = .ok b
  else v.checkClass = .ok ()

end Value

namespace Walk

theorem fail_eq {τ : Type} [Reports τ] (f : LookupFailure) (s : τ) :
    (fail f : Act τ Found) s = .ok (.error f) (Reports.note ("Lookup failed: " ++ f.message) s) :=
  rfl

theorem fail_returns {τ : Type} [Reports τ] (f : LookupFailure) (s : τ) :
    (fail f : Act τ Found).Returns s := ⟨_, _, fail_eq f s⟩

theorem lookupKey_returns_iff (v : Value) (key : String) (w : World σ) :
    (lookupKey host v key).Returns w ↔ v.Answers host w key := by
  rw [← Value.lookup_returns_iff, lookupKey, Act.returns_bind]
  refine exists_congr fun found => exists_congr fun w' => and_iff_left ?_
  cases found with
  | some u => exact Act.returns_pure _ w'
  | none => exact fail_returns _ w'

theorem followKeys_eq (v : Value) (keys : List String) :
    followKeys host v keys = walk host v (keys.map .key) := by
  induction keys generalizing v with
  | nil => rfl
  | cons key keys ih =>
    refine congrArg (lookupKey host v key >>= ·) (funext fun found => ?_)
    cases found with
    | ok u => exact ih u
    | error f => rfl

theorem resolveReference_returns_iff (selector : String) (keys : List String) (w : World σ) :
    (resolveReference host selector keys).Returns w ↔
      (walk host (w.select selector) (keys.map .key)).Returns w := by
  have hg : resolveReference host selector keys w =
      (followKeys host (w.select selector) keys >>= fun found =>
        pure (found.toOption.getD .null)) w := by
    rw [resolveReference, Act.bind_apply]
    refine congrFun (congrArg (followKeys host (w.select selector) keys >>= ·)
      (funext fun found => ?_)) w
    cases found with
    | ok v => rfl
    | error f => rfl
  rw [Act.Returns, hg, ← followKeys_eq]
  exact Act.returns_bind_pure _

theorem callee?_returns_iff (v : Value) (name : String) (w : World σ) :
    (callee? host v name).Returns w ↔ v.Tells host w name := by
  rw [callee?, Value.Tells]
  split
  · refine Act.returns_bind.trans (exists_congr fun known => exists_congr fun w' => ?_)
    rw [Act.returns_bind_ofExcept]
    refine and_congr_right fun _ => exists_congr fun b => and_iff_left ?_
    exact Act.returns_pure _ w'
  · refine Act.returns_bind_ofExcept.trans ?_
    constructor
    · rintro ⟨_, h, -⟩
      exact h
    · refine fun h => ⟨(), h, ?_⟩
      split
      · exact ⟨_, w, rfl⟩
      · exact Act.returns_pure _ w

end Walk

namespace Argument

def Evaluable (host : Host σ) : World σ → List (List Char) → Prop
  | _, [] => True
  | w, token :: rest =>
    ¬Overlong token ∧
      (∀ selector keys, ofToken token = .ok (.reference selector keys) →
        (Walk.walk host (w.select selector) (keys.map .key)).Returns w) ∧
      ∀ u w', evalToken (Walk.resolveReference host) token w = .ok u w' → Evaluable host w' rest

theorem eval_returns_iff (a : Argument) (w : World σ) :
    (a.eval (Walk.resolveReference host)).Returns w ↔
      ∀ selector keys, a = .reference selector keys →
        (Walk.walk host (w.select selector) (keys.map .key)).Returns w := by
  cases a with
  | literal v => exact ⟨fun _ => nofun, fun _ => Act.returns_pure v w⟩
  | unrecognized token => exact ⟨fun _ => nofun, fun _ => ⟨_, _, rfl⟩⟩
  | reference selector keys =>
    refine (Walk.resolveReference_returns_iff selector keys w).trans ⟨?_, fun h => h _ _ rfl⟩
    rintro h _ _ ⟨⟩
    exact h

theorem evalToken_returns_iff {token : List Char} (ht : Text.IsTrimmed token) (w : World σ) :
    (evalToken (Walk.resolveReference host) token).Returns w ↔ ¬Overlong token ∧
      ∀ selector keys, ofToken token = .ok (.reference selector keys) →
        (Walk.walk host (w.select selector) (keys.map .key)).Returns w := by
  rw [evalToken, Act.returns_bind_ofExcept, ← ofToken_eq_ok_iff ht]
  cases ofToken token with
  | error f =>
    constructor
    · rintro ⟨_, ⟨⟩, -⟩
    · rintro ⟨⟨_, ⟨⟩⟩, -⟩
  | ok a =>
    have he : (a.eval (Walk.resolveReference host)).Returns w ↔ _ := eval_returns_iff a w
    constructor
    · rintro ⟨_, ⟨⟩, h⟩
      exact ⟨⟨a, rfl⟩, fun selector keys hk => he.1 h selector keys (Except.ok.inj hk)⟩
    · rintro ⟨-, h⟩
      exact ⟨a, rfl, he.2 fun selector keys hk => h selector keys (congrArg _ hk)⟩

theorem mapM_evalToken_returns_iff {tokens : List (List Char)}
    (ht : ∀ token ∈ tokens, Text.IsTrimmed token) (w : World σ) :
    (tokens.mapM (evalToken (Walk.resolveReference host))).Returns w ↔
      Evaluable host w tokens := by
  induction tokens generalizing w with
  | nil => exact ⟨fun _ => trivial, fun _ => Act.returns_pure [] w⟩
  | cons token tokens ih =>
    rw [List.forall_mem_cons] at ht
    rw [List.mapM_cons, Act.returns_bind, Evaluable, ← and_assoc, ← evalToken_returns_iff ht.1]
    constructor
    · rintro ⟨u, w', he, h⟩
      -- An act has one result, so there is one world in which the rest is evaluated.
      refine ⟨⟨u, w', he⟩, fun u₁ w₁ he₁ => ?_⟩
      obtain ⟨rfl, rfl⟩ := EStateM.Result.ok.inj (he.symm.trans he₁)
      exact (ih ht.2 w').1 ((Act.returns_bind_pure _).1 h)
    · rintro ⟨⟨u, w', he⟩, h⟩
      exact ⟨u, w', he, (Act.returns_bind_pure _).2 ((ih ht.2 w').2 (h u w' he))⟩

theorem evalAll_returns_iff (raw : String) (w : World σ) :
    (evalAll (Walk.resolveReference host) raw).Returns w ↔
      Evaluable host w ((split (some ',') raw.toList).map Text.trim) := by
  rw [evalAll_eq]
  refine mapM_evalToken_returns_iff (fun token ht => ?_) w
  obtain ⟨cs, -, rfl⟩ := List.mem_map.1 ht
  exact Text.isTrimmed_trim cs

end Argument

namespace Walk

def Ready (host : Host σ) (w : World σ) (v : Value) : Accessor → Prop
  | .key key => v.Answers host w key
  | .call name raw =>
    v.Tells host w name ∧ ∀ c w', callee? host v name w = .ok (some c) w' →
      Argument.Evaluable host w' ((Argument.split (some ',') raw.toList).map Text.trim)

theorem attempt_returns (name : String) (c : Callee) (arguments : List Value) (w : World σ) :
    (attempt host name c arguments).Returns w := by
  rw [attempt, Act.returns_bind]
  obtain ⟨found, w', h⟩ := Act.returns_observe (c.invoke host arguments) w
  refine ⟨found, w', h, ?_⟩
  cases found with
  | ok v => exact Act.returns_pure _ w'
  | error f => exact fail_returns _ w'

theorem step_returns_iff (v : Value) (a : Accessor) (w : World σ) :
    (step host v a).Returns w ↔ Ready host w v a := by
  cases a with
  | key key => exact lookupKey_returns_iff v key w
  | call name raw =>
    rw [step, callName, Ready, ← callee?_returns_iff, Act.returns_bind]
    constructor
    · rintro ⟨c?, w', he, h⟩
      refine ⟨⟨c?, w', he⟩, fun c w₁ he₁ => ?_⟩
      obtain ⟨rfl, rfl⟩ := EStateM.Result.ok.inj (he.symm.trans he₁)
      obtain ⟨vs, w₁, hv, -⟩ := Act.returns_bind.1 h
      exact (Argument.evalAll_returns_iff raw w').1 ⟨vs, w₁, hv⟩
    · rintro ⟨⟨c?, w', he⟩, h⟩
      refine ⟨c?, w', he, ?_⟩
      cases c? with
      | none => exact fail_returns _ w'
      | some c =>
        obtain ⟨vs, w₁, hv⟩ := (Argument.evalAll_returns_iff raw w').2 (h c w' he)
        exact Act.returns_bind.2 ⟨vs, w₁, hv, attempt_returns name c vs w₁⟩

theorem walk_cons_iff {v : Value} {a : Accessor} {rest : List Accessor} {w w' : World σ}
    {found : Found} :
    walk host v (a :: rest) w = .ok found w' ↔
      (∃ f, found = .error f ∧ step host v a w = .ok (.error f) w') ∨
      ∃ u₁ w₁, step host v a w = .ok (.ok u₁) w₁ ∧ walk host u₁ rest w₁ = .ok found w' := by
  rw [walk, Act.bind_apply]
  constructor
  · intro h
    cases hs : step host v a w with
    | error f w₁ =>
      rw [hs] at h
      cases h
    | ok met w₁ =>
      rw [hs] at h
      cases met with
      | ok u₁ => exact .inr ⟨u₁, w₁, rfl, h⟩
      | error f =>
        cases h
        exact .inl ⟨f, rfl, rfl⟩
  · rintro (⟨f, rfl, hs⟩ | ⟨u₁, w₁, hs, h⟩)
    · rw [hs]
      rfl
    · rw [hs]
      exact h

theorem walk_cons_ok {v u : Value} {a : Accessor} {rest : List Accessor} {w w' : World σ} :
    walk host v (a :: rest) w = .ok (.ok u) w' ↔
      ∃ u₁ w₁, step host v a w = .ok (.ok u₁) w₁ ∧ walk host u₁ rest w₁ = .ok (.ok u) w' := by
  refine walk_cons_iff.trans (or_iff_right ?_)
  rintro ⟨f, ⟨⟩, -⟩

theorem walk_returns_of_ready {v : Value} {accessors : List Accessor} {w : World σ}
    (h : ∀ before a after u w₁, accessors = before ++ a :: after →
      walk host v before w = .ok (.ok u) w₁ → Ready host w₁ u a) :
    (walk host v accessors).Returns w := by
  induction accessors generalizing v w with
  | nil => exact Act.returns_pure _ w
  | cons a rest ih =>
    obtain ⟨found, w₁, hs⟩ := (step_returns_iff v a w).2 (h [] a rest v w rfl rfl)
    refine Act.returns_bind.2 ⟨found, w₁, hs, ?_⟩
    cases found with
    | error f => exact Act.returns_pure _ w₁
    | ok u =>
      refine ih fun before b after u' w' he hb => ?_
      exact h (a :: before) b after u' w' (congrArg (a :: ·) he) (walk_cons_ok.2 ⟨u, w₁, hs, hb⟩)

theorem walk_append {v u : Value} {before : List Accessor} {w w₁ : World σ}
    (h : walk host v before w = .ok (.ok u) w₁) (after : List Accessor) :
    walk host v (before ++ after) w = walk host u after w₁ := by
  induction before generalizing v w with
  | nil =>
    cases h
    rfl
  | cons a before ih =>
    obtain ⟨u₁, w₂, hs, h⟩ := walk_cons_ok.1 h
    rw [List.cons_append, walk, Act.bind_apply, hs]
    exact ih h

theorem ready_of_walk_returns {v u : Value} {before after : List Accessor} {a : Accessor}
    {w w₁ : World σ} (h : (walk host v (before ++ a :: after)).Returns w)
    (hb : walk host v before w = .ok (.ok u) w₁) : Ready host w₁ u a := by
  rw [Act.Returns, walk_append hb] at h
  obtain ⟨found, w', hs, -⟩ := Act.returns_bind.1 h
  exact (step_returns_iff u a w₁).1 ⟨found, w', hs⟩

theorem walk_eq_error_iff (v : Value) (accessors : List Accessor) (w w' : World σ)
    (f : LookupFailure) :
    walk host v accessors w = .ok (.error f) w' ↔
      ∃ before a after u w₁, accessors = before ++ a :: after ∧
        walk host v before w = .ok (.ok u) w₁ ∧ step host u a w₁ = .ok (.error f) w' := by
  constructor
  · intro h
    induction accessors generalizing v w with
    | nil => cases h
    | cons a rest ih =>
      rcases walk_cons_iff.1 h with ⟨_, ⟨⟩, hs⟩ | ⟨u₁, w₁, hs, h⟩
      · exact ⟨[], a, rest, v, w, rfl, rfl, hs⟩
      · obtain ⟨before, b, after, u, w₂, rfl, hb, hf⟩ := ih u₁ w₁ h
        exact ⟨a :: before, b, after, u, w₂, rfl, walk_cons_ok.2 ⟨u₁, w₁, hs, hb⟩, hf⟩
  · rintro ⟨before, a, after, u, w₁, rfl, hb, hs⟩
    rw [walk_append hb]
    exact walk_cons_iff.2 (.inl ⟨f, rfl, hs⟩)

/-- A walk raises a fault where an accessor that it comes to cannot be tried, and only there. Where
an accessor is tried in vain, the walk ends with its failure, which has a message. -/
theorem walk_returns_iff_ready (host : Host σ) (v : Value) (accessors : List Accessor)
    (w : World σ) :
    ((∃ found w', walk host v accessors w = .ok found w') ↔
      ∀ before a after u w₁, accessors = before ++ a :: after →
        walk host v before w = .ok (.ok u) w₁ → Ready host w₁ u a) ∧
    ∀ f w', (walk host v accessors w = .ok (.error f) w' ↔
      ∃ before a after u w₁, accessors = before ++ a :: after ∧
        walk host v before w = .ok (.ok u) w₁ ∧ step host u a w₁ = .ok (.error f) w') ∧
      f.message ≠ "" := by
  refine ⟨⟨?_, walk_returns_of_ready⟩, fun f w' =>
    ⟨walk_eq_error_iff v accessors w w' f, f.message_ne_empty⟩⟩
  rintro h before a after u w₁ rfl hb
  exact ready_of_walk_returns h hb

theorem walk_zeros (host : Host σ) {n : Nat} (hn : Number.digitCap ≤ n) (items : List Value)
    (w : World σ) :
    walk host (.list items) [.key (String.ofList (List.replicate (n + 1) '0'))] w =
      .error (.unreadableInteger (n + 1)) w := by
  have hz : ∀ k, (List.replicate k '0').mapM Text.digit? = some (List.replicate k 0) := by
    intro k
    induction k with
    | zero => rfl
    | succ k ih =>
      rw [List.replicate_succ, List.mapM_cons, ih]
      rfl
  have hd : Text.digits? (List.replicate (n + 1) '0') = some (List.replicate (n + 1) 0) :=
    hz (n + 1)
  have hi : Value.index? (String.ofList (List.replicate (n + 1) '0')) =
      .error (.unreadableInteger (n + 1)) := by
    rw [Value.index?, String.toList_ofList, hd]
    dsimp only
    rw [Number.readNat, List.length_replicate, if_neg (Nat.not_le.2 (Nat.lt_succ_of_le hn))]
    rfl
  rw [walk, Act.bind_apply, step, lookupKey, Act.bind_apply,
    Value.lookup_entry (k := .sequence) rfl (by decide), Value.entryAt?, Value.element?, hi]
  rfl

/-- Neither what raises a fault as it is read nor a key that is not read is taken for a failure. -/
theorem walk_raises :
    let w := World.start Context.empty () (.empty false)
    let o := Value.object 1 ⟨"K", ["p"], ["m"]⟩
      [("p", .raises "RuntimeError" "no"), ("m", .raises "RuntimeError" "no")] none
    let key := String.ofList (List.replicate (Number.digitCap + 1) '0')
    walk Host.none o [.key "p"] w = .error (.host "RuntimeError" "no") w ∧
      walk Host.none o [.call "m" ""] w = .error (.host "RuntimeError" "no") w ∧
      walk Host.none (.list []) [.key key] w =
        .error (.unreadableInteger (Number.digitCap + 1)) w := by
  intro w o key
  exact ⟨rfl, rfl, walk_zeros Host.none (Nat.le_refl _) [] w⟩

end Walk

end Inlay
