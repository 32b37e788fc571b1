import Inlay.Proofs.Sight.Processor
import Inlay.Proofs.Sight.Walk

/-! Relations between worlds that a host respects. Walks, printers and processors reach a world only
by reading its context, by reports, by host calls and by changes of objects. A relation that these
keep is kept by all of them, and they come to the same end in related worlds: with nothing hidden,
the host mirrors itself. -/

namespace Inlay

variable {σ : Type}

structure Host.Respects (host : Host σ) (R : World σ → World σ → Prop) : Prop where
  context : ∀ {w w'}, R w w' → w.context = w'.context
  changes : ∀ {w w'}, R w w' → w.changes = w'.changes
  note : ∀ message {w w'}, R w w' → R (Reports.note message w) (Reports.note message w')
  change : ∀ c {w w'}, R w w' → R (w.change c) (w'.change c)
  answer : ∀ id arguments {w w'}, R w w' →
    (host.call id arguments w.memory).1 = (host.call id arguments w'.memory).1
  call : ∀ id arguments {w w'}, R w w' →
    R { w with memory := (host.call id arguments w.memory).2 }
      { w' with memory := (host.call id arguments w'.memory).2 }

variable {host : Host σ} {R : World σ → World σ → Prop}

theorem Host.Respects.current (h : host.Respects R) {w w' : World σ} (hw : R w w') (v : Value) :
    w.current v = w'.current v := by
  rw [World.current, h.changes hw, World.current]

theorem Host.Respects.select (h : host.Respects R) {w w' : World σ} (hw : R w w')
    (selector : String) : w.select selector = w'.select selector := by
  rw [World.select, h.context hw, h.current hw, World.select]

theorem Host.Respects.report (h : host.Respects R) (message : String) :
    (Act.report message : Act (World σ) Unit).Keeps R :=
  .modify fun _ _ hw => h.note message hw

namespace Sight

@[simp] theorem seen_full (v : Value) : v.seen full = v := v.seen_of_clear full_full.clear

@[simp] theorem guards_full (v : Value) : full.Guards v := .inl full_full

theorem reveals_full_iff {v w : Value} : full.Reveals v w ↔ v = w := by
  refine ⟨fun h => ?_, ?_⟩
  · rw [h.eq, seen_full]
  · rintro rfl
    exact ⟨(seen_full v).symm, guards_full v⟩

theorem eq_of_revealsAll_full {vs ws : List Value} (h : full.RevealsAll vs ws) : vs = ws := by
  rw [h.eq, full_full.seen_eq_id, List.map_id]

theorem eq_of_revealsCallee_full {c c' : Walk.Callee} (h : full.RevealsCallee c c') : c = c' := by
  cases h with
  | function c => rfl
  | method name _ => rw [seen_full]

end Sight

theorem Option.Rel.eq {α : Type} {V : α → α → Prop} (hv : ∀ a b, V a b → a = b) {o o' : Option α}
    (h : Option.Rel V o o') : o = o' := by
  cases h with
  | none => rfl
  | some h => rw [hv _ _ h]

theorem Act.Agree.eq {α ε : Type} {V : α → α → Prop} (hv : ∀ a b, V a b → a = b)
    {e e' : Except ε α} (h : Act.Agree V e e') : e = e' := by
  cases h with
  | ok h => rw [hv _ _ h]
  | error f => rfl

theorem Host.Respects.invoke (h : host.Respects R) (id : Nat) (label : String)
    (vs : List Value) : ((Callable.hosted id label).invoke host vs).Keeps R := by
  intro w w' hw
  have ha := h.answer id vs hw
  rw [Callable.invoke_hosted, Callable.invoke_hosted, ha]
  cases (host.call id vs w'.memory).1 with
  | ok v =>
    rw [World.answered, World.answered, h.current hw]
    exact .ok (h.call id vs hw)
  | error f => exact .error (h.call id vs hw)

theorem Host.Respects.mirrors (h : host.Respects R) : host.Mirrors host .full R where
  select hw selector := Sight.reveals_full_iff.2 (h.select hw selector)
  functions hw := by rw [h.context hw]
  note := h.note
  change _ := h.change
  invoke id label vs _ := by
    rw [Sight.full_full.seen_eq_id, List.map_id]
    exact (h.invoke id label vs).matches.mono fun _ _ => Sight.reveals_full_iff.2
  reaches hf := absurd Sight.full_full hf
  grants hf := absurd Sight.full_full hf

theorem Callable.invoke_keeps (h : host.Respects R) (c : Callable) (arguments : List Value) :
    (c.invoke host arguments).Keeps R := by
  have hm := c.invoke_matches h.mirrors arguments fun _ _ => Sight.guards_full _
  rw [Sight.full_full.seen_eq_id, List.map_id] at hm
  exact (hm.mono fun _ _ => Sight.reveals_full_iff.1).keeps

theorem Value.lookup_keeps (h : host.Respects R) (v : Value) (key : String) :
    (v.lookup host key).Keeps R := by
  have hm := v.lookup_matches h.mirrors (Sight.guards_full _) key
  rw [Sight.seen_full] at hm
  exact (hm.mono fun _ _ => Option.Rel.eq fun _ _ => Sight.reveals_full_iff.1).keeps

theorem Value.format_keeps (h : host.Respects R) (v : Value) (sanitize : Bool) :
    (v.format host sanitize).Keeps R := by
  have hm := v.format_matches h.mirrors (Sight.guards_full _) sanitize
  rw [Sight.seen_full] at hm
  exact hm.keeps

namespace Walk

theorem resolveReference_keeps (h : host.Respects R) (selector : String) (keys : List String) :
    (resolveReference host selector keys).Keeps R := by
  have hm := resolveReference_matches h.mirrors selector keys
  exact (hm.mono fun _ _ => Sight.reveals_full_iff.1).keeps

theorem callee?_keeps (h : host.Respects R) (v : Value) (name : String) :
    (callee? host v name).Keeps R := by
  have hm := callee?_matches h.mirrors (Sight.guards_full (v.seen _)) name
  rw [Sight.seen_full] at hm
  exact (hm.mono fun _ _ => Option.Rel.eq fun _ _ => Sight.eq_of_revealsCallee_full).keeps

theorem Callee.invoke_keeps (h : host.Respects R) (arguments : List Value) (c : Callee) :
    (c.invoke host arguments).Keeps R := by
  have hc : Sight.full.RevealsCallee c c := by
    cases c with
    | function c => exact .function c
    | method owner name =>
      have hm := Sight.RevealsCallee.method name (Sight.guards_full (owner.seen Sight.full))
      rwa [Sight.seen_full] at hm
  have ha : Sight.full.RevealsAll arguments arguments := by
    refine ⟨?_, fun _ _ => Sight.guards_full _⟩
    rw [Sight.full_full.seen_eq_id, List.map_id]
  exact ((invoke_matches h.mirrors hc ha).mono fun _ _ => Sight.reveals_full_iff.1).keeps

end Walk

theorem Argument.evalAll_keeps (h : host.Respects R)
    {resolve : String → List String → Act (World σ) Value}
    (hr : ∀ selector keys, (resolve selector keys).Keeps R) (raw : String) :
    (evalAll resolve raw).Keeps R := by
  have hm := evalAll_matches h.mirrors
    (fun selector keys => (hr selector keys).matches.mono fun _ _ => Sight.reveals_full_iff.2) raw
  exact (hm.mono fun _ _ => Sight.eq_of_revealsAll_full).keeps

theorem Processor.apply_keeps (h : host.Respects R) (table : Table Processor)
    (name : Option String) (v : Value) (origin : Origin)
    (hu : name.bind (Table.get? table) = some .unset →
      (removeEntry origin : Act (World σ) Unit).Keeps R) :
    (apply host table name v origin).Keeps R := by
  have hm := apply_matches h.mirrors table name (Sight.guards_full (v.seen _)) origin
    fun hp => (hu hp).matches
  rw [Sight.seen_full] at hm
  exact (hm.mono fun _ _ => Sight.reveals_full_iff.1).keeps

end Inlay
