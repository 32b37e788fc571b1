import Inlay.Proofs.Engine.Calls
import Inlay.Proofs.Tag.FreeCall
import Inlay.Proofs.World.Session
import Mathlib.Data.List.Infix

/-! Pages that call a free function. The function is invoked once, with the values of the literals
in the order in which they are written. -/

namespace Inlay

variable {σ : Type}

theorem World.current_null (w : World σ) : w.current .null = .null := by
  rw [current]
  induction w.changes with
  | nil => rfl
  | cons c changes ih => exact ih

theorem FreeCall.select_null (k : FreeCall) {w : World σ}
    (h : ∀ v, Table.get? w.context.globals k.selector = some v → v = .null) :
    w.select k.selector = .null := by
  have hc : w.context.select k.selector = .null := by
    rw [Context.select, k.selector_global]
    cases hv : Table.get? w.context.globals k.selector with
    | none => rfl
    | some v => exact h v hv
  rw [World.select, hc, World.current_null]

def FreeCall.values (host : Host σ) (k : FreeCall) : Act (World σ) (List Value) :=
  k.literals.mapM (Argument.Literal.eval (Walk.resolveReference host))

namespace Walk

variable (host : Host σ)

theorem callee?_null {w : World σ} {name : String} {c : Callable}
    (h : Table.get? w.context.functions name = some c) :
    callee? host .null name w = .ok (some (.function c)) w := by
  have hk : Value.kind .null ≠ .object := by decide
  rw [callee?, if_neg hk]
  change EStateM.Result.ok ((Table.get? w.context.functions name).map Callee.function) w = _
  rw [h, Option.map_some]

theorem callName_null {w : World σ} {name : String} {c : Callable}
    (h : Table.get? w.context.functions name = some c) (raw : String) :
    callName host .null name raw w =
      (Argument.evalAll (resolveReference host) raw >>= attempt host name (.function c)) w := by
  rw [callName, Act.bind_apply, callee?_null host h]

end Walk

namespace Engine

variable (e : Engine σ)

def settle (name : String) : Except Fault Value → Act (World σ) Outcome
  | .ok v => Outcome.done <$> v.format e.host true
  | .error f => do
    let _ ← Walk.fail (.raised name f)
    return .refused (.lookup (.raised name f))

variable {e} {k : FreeCall} {w : World σ} {c : Callable}

theorem locate_freeCall (hg : ∀ v, Table.get? w.context.globals k.selector = some v → v = .null)
    (hf : Table.get? w.context.functions k.function = some c) :
    e.locate k.selector [k.segment] w =
      (k.values e.host >>= Walk.attempt e.host k.function (.function c)) w := by
  have hl : e.locate k.selector [k.segment] w =
      Walk.walk e.host (w.select k.selector) [Accessor.ofSegment k.segment] w := rfl
  rw [hl, k.select_null hg, k.ofSegment_segment, Walk.walk_one, Walk.step,
    Walk.callName_null e.host hf, Argument.evalAll_trim, Argument.evalAll_written _ k.written,
    FreeCall.values]

theorem finish_freeCall (v : Value) :
    e.finish k.tag k.selector [k.segment] v = Outcome.done <$> v.format e.host true := by
  have hu : e.unknown? k.tag = none := rfl
  rw [finish_eq, hu]
  rfl

theorem resolve_freeCall (hd : k.NestsWithin e.maxDepth)
    (hg : ∀ v, Table.get? w.context.globals k.selector = some v → v = .null)
    (hf : Table.get? w.context.functions k.function = some c) :
    e.resolve k.tag w =
      (do
        let vs ← k.values e.host
        let result ← Act.observe (c.invoke e.host vs)
        e.settle k.function result) w := by
  have hp : Path.split (some ':') (some e.maxDepth) k.tag.path = .ok [k.selector, k.segment] :=
    k.split_path hd
  rw [resolve, hp]
  simp only [finish_freeCall]
  rw [Act.bind_apply, locate_freeCall hg hf, ← Act.bind_apply, bind_assoc]
  refine congrFun (congrArg (k.values e.host >>= ·) (funext fun vs => ?_)) w
  rw [Walk.attempt, bind_assoc]
  refine congrArg (_ >>= ·) (funext fun result => ?_)
  cases result with
  | ok v => rfl
  | error f => rfl

theorem settle_keeps {R : World σ → World σ → Prop} (h : e.host.Respects R) (name : String)
    (result : Except Fault Value) : (e.settle name result).Keeps R := by
  cases result with
  | ok v => exact (Value.format_keeps h v true).map _
  | error f => exact ((h.report _).bind fun _ => .pure _).bind fun _ => .pure _

theorem values_traced (host : Host σ) (k : FreeCall) :
    Act.Matches World.Tracks Eq (k.values host) (k.values host.traced) := by
  have hm := World.Tracks.mirrors host
  have hv := Argument.evalAll_matches hm (Walk.resolveReference_matches hm) k.arguments
  rw [← String.ofList_toList (s := k.arguments), Argument.evalAll_written _ k.written,
    Argument.evalAll_written _ k.written] at hv
  exact hv.mono fun _ _ => Sight.eq_of_revealsAll_full

theorem calls_freeCall {w₁ w₂ : World σ} {vs : List Value} {result : Except Fault Value} {id : Nat}
    {label : String} (hd : k.NestsWithin e.maxDepth)
    (hg : ∀ v, Table.get? w.context.globals k.selector = some v → v = .null)
    (hf : Table.get? w.context.functions k.function = some (.hosted id label))
    (hv : k.values e.host w = .ok vs w₁)
    (hr : Act.observe ((Callable.hosted id label).invoke e.host vs) w₁ = .ok result w₂) :
    (e.traced.resolve k.tag).calls w =
      (k.values e.host.traced).calls w ++
        (id, vs) :: (e.traced.settle k.function result).calls w₂ := by
  have hk : ∀ before result, (e.traced.settle k.function result).Keeps (World.Follows before) :=
    fun before result => settle_keeps (World.Follows.respects e.host before) k.function result
  have hi : Act.Matches World.Tracks Eq
      (Act.observe ((Callable.hosted id label).invoke e.host vs))
      (Act.observe ((Callable.hosted id label).invoke e.host.traced vs)) :=
    (World.Tracks.invoke e.host id label vs).observe.mono fun _ _ => Act.Agree.eq fun _ _ h => h
  have hh : e.traced.host = e.host.traced := rfl
  have ht : e.traced.resolve k.tag w.traced = _ := resolve_freeCall hd hg hf
  rw [Act.calls, Act.final, ht, hh, ← Act.final, ← Act.calls, Act.calls_bind hv (values_traced _ k),
    Act.calls_bind hr hi (fun before => hk before result), Callable.calls_invoke]
  · rfl
  · intro before
    have hc := Callable.invoke_keeps (World.Follows.respects e.host before) (.hosted id label) vs
    exact hc.observe.bind fun result => hk before result

/-- A page that is a call of a function comes to what is made of the result. The function is invoked
once, with the values of the literals in order, after the references among these are resolved. -/
theorem render_freeCall {cap : Nat} {w₁ : World σ} {vs : List Value}
    (hl : k.path.toList.length ≤ cap) (hd : k.NestsWithin e.maxDepth)
    (hg : ∀ v, Table.get? w.context.globals k.selector = some v → v = .null)
    (hf : Table.get? w.context.functions k.function = some c)
    (hv : k.values e.host w = .ok vs w₁) :
    ∃ result w₂, Act.observe (c.invoke e.host vs) w₁ = .ok result w₂ ∧
      e.render cap k.text w = Page.render (fun _ => e.settle k.function result) cap k.text w₂ ∧
      ∀ id label, c = .hosted id label →
        e.hostCalls cap k.text w =
          (k.values e.host.traced).calls w ++
            (id, vs) :: (e.traced.settle k.function result).calls w₂ := by
  obtain ⟨result, w₂, hr⟩ : ∃ result w₂, Act.observe (c.invoke e.host vs) w₁ = .ok result w₂ := by
    rw [Act.observe]
    cases c.invoke e.host vs w₁ with
    | ok v w₂ => exact ⟨.ok v, w₂, rfl⟩
    | error f w₂ => exact ⟨.error f, w₂, rfl⟩
  refine ⟨result, w₂, hr, ?_, ?_⟩
  · have ht : e.resolve k.tag w = e.settle k.function result w₂ := by
      rw [resolve_freeCall hd hg hf, Act.bind_apply, hv]
      exact (Act.bind_apply ..).trans (by rw [hr])
    rw [render, Page.render_of_scan _ (k.scan_text hl), Page.render_of_scan _ (k.scan_text hl),
      Page.replace, Page.replace, ht]
  · rintro id label rfl
    rw [hostCalls_of_scan e (k.scan_text hl), calls_freeCall hd hg hf hv hr]

end Engine

def FreeCall.join : FreeCall where
  selector := "nothing"
  function := "join"
  literals := [
    .quotation ⟨'\'', ['a', ',', '(', 'b', ':', 'c', ')'].map (false, ·), rfl, by simp⟩,
    .numeral ⟨some true, [0, 2], by decide, by decide⟩,
    .word (some true) ['T', 'R', 'U', 'E'] (by decide),
    .word none ['n', 'u', 'l', 'l'] rfl,
    .mention ⟨['g', 'e', 't'], ['p', 'a', 'g', 'e'], by decide, List.all_eq_true.1 rfl, by decide,
      List.all_eq_true.1 rfl⟩]
  arguments := "'a,(b:c)', -02, TRUE, null, get:page"
  selector_chars c hc := .inl (List.all_eq_true.1 (by decide) c hc)
  selector_global := rfl
  function_ne := by decide
  function_chars := List.all_eq_true.1 (by decide)
  written := Argument.written_spaced _
  arguments_body := List.all_eq_true.1 (by decide)
  count_le p hp := by
    have h : ∀ p ∈ "'a,(b:c)', -02, TRUE, null, get:page".toList.inits,
        p.count ')' ≤ p.count '(' := by decide
    exact h p ((List.mem_inits ..).2 hp)

namespace Engine

theorem render_freeCall_join :
    let host : Host Unit := ⟨fun _ _ m => (.ok (.text "done"), m)⟩
    let e := Engine.ofSettings host .standard
    let stores := { Context.empty.stores with query := [("page", .int 2)] }
    let c := { Context.empty with stores, functions := [("join", .hosted 7 "join")] }
    let vs := [.text "a,(b:c)", .int (-2), .bool true, .null, .int 2]
    FreeCall.join.text = "<nothing:join('a,(b:c)', -02, TRUE, null, get:page)/>" ∧
      e.hostCalls 99 FreeCall.join.text (.start c () (.empty false)) = [(7, vs)] ∧
      (e.render 99 FreeCall.join.text (.start c () (.empty false))).1 = .done "done" := by
  intro host e stores c vs
  let w : World Unit := .start c () (.empty false)
  have hd : FreeCall.join.NestsWithin e.maxDepth := by
    have h : ∀ p ∈ "'a,(b:c)', -02, TRUE, null, get:page".toList.inits,
        1 + ((p.count '(' : Int) - p.count ')') ≤ e.maxDepth := by decide
    exact fun p hp => h p ((List.mem_inits ..).2 hp)
  have hl : FreeCall.join.path.toList.length ≤ 99 := by decide
  have hg : ∀ v, Table.get? w.context.globals FreeCall.join.selector = some v → v = .null := by
    rintro v ⟨⟩
  have hf : Table.get? w.context.functions FreeCall.join.function = some (.hosted 7 "join") := rfl
  have hv : FreeCall.join.values e.host w = .ok vs w := rfl
  obtain ⟨result, w₂, hr, hp, hc⟩ := render_freeCall hl hd hg hf hv
  cases hr
  refine ⟨by decide, hc 7 "join" rfl, (congrArg Prod.fst hp).trans ?_⟩
  decide +kernel

end Engine

end Inlay
