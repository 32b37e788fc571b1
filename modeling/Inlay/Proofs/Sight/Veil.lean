import Inlay.Proofs.Sight.Call

/-! Veiled hosts: a host that does not look at what is out of sight serves worlds of which only what
is seen is left. -/

namespace Inlay

variable {σ : Type} {s : Sight} {M : σ → σ → Prop}

namespace Table

def seen (s : Sight) (t : Table Value) : Table Value := t.map fun (name, v) => (name, v.seen s)

theorem get?_seen (t : Table Value) (name : String) :
    get? (seen s t) name = (get? t name).map (Value.seen s) := get?_map _ t name

theorem names_seen (t : Table Value) : (seen s t).map (·.1) = t.map (·.1) := by
  rw [seen, List.map_map]
  rfl

theorem erase_seen (t : Table Value) (name : String) :
    erase (seen s t) name = seen s (erase t name) := by
  rw [erase, seen, List.filter_map]
  rfl

end Table

namespace Context

def seen (s : Sight) (c : Context) : Context where
  stores := ⟨.seen s c.stores.query, .seen s c.stores.form, .seen s c.stores.cookies,
    .seen s c.stores.server, .seen s c.stores.session⟩
  registry := ⟨.seen s c.registry.entries, c.registry.drawn⟩
  globals := .seen s c.globals
  functions := c.functions

def entries (c : Context) : Table Value :=
  c.stores.query ++ c.stores.form ++ c.stores.cookies ++ c.stores.server ++ c.stores.session ++
    c.registry.entries ++ c.globals

def Guarded (s : Sight) (c : Context) : Prop := ∀ entry ∈ c.entries, s.Guards (entry.2.seen s)

theorem entries_seen (c : Context) : (c.seen s).entries = Table.seen s c.entries := by
  simp only [entries, seen, Table.seen, List.map_append]

theorem Guarded.of_seen {c c' : Context} (h : c.Guarded s) (he : c.seen s = c'.seen s) :
    c'.Guarded s := by
  have hs : Table.seen s c.entries = Table.seen s c'.entries := by
    rw [← entries_seen, he, entries_seen]
  intro entry hm
  have hm' : (entry.1, entry.2.seen s) ∈ Table.seen s c.entries :=
    hs ▸ List.mem_map_of_mem (f := fun e : String × Value => (e.1, e.2.seen s)) hm
  obtain ⟨e, hm, he⟩ := List.mem_map.1 hm'
  exact (Prod.mk.injEq ..).mp he |>.2 ▸ h e hm

theorem select_seen (c : Context) (selector : String) :
    (c.seen s).select selector = (c.select selector).seen s := by
  rw [select, select]
  cases Source.ofSelector selector with
  | global =>
    simp only [seen, Table.get?_seen]
    cases Table.get? c.globals selector <;> rfl
  | _ => exact (Value.ofTable_seen _).symm

theorem Guarded.select {c : Context} (h : c.Guarded s) (selector : String) :
    s.Guards ((c.select selector).seen s) := by
  have ht : ∀ t : Table Value, (∀ entry ∈ t, entry ∈ c.entries) →
      s.Guards ((Value.ofTable t).seen s) := by
    intro t hsub
    rw [Value.ofTable_seen, Sight.Guards.ofTable_iff, List.forall_mem_map]
    exact fun entry he => h entry (hsub entry he)
  rw [Context.select]
  cases Source.ofSelector selector with
  | global =>
    change s.Guards (((Table.get? c.globals selector).getD .null).seen s)
    cases hg : Table.get? c.globals selector with
    | none => exact Sight.Reveals.null.guarded
    | some v => exact h (selector, v) (by simp [entries, Table.get?_mem hg])
  | _ => exact ht _ fun entry he => by simp [entries, he]

theorem unset_seen (c : Context) (name : String) :
    ((c.seen s).unset name).2 = (c.unset name).2.seen s := by
  simp only [unset, seen, Table.erase_seen]

theorem Guarded.unset {c : Context} (h : c.Guarded s) (name : String) :
    (c.unset name).2.Guarded s := by
  intro entry he
  refine h entry ?_
  simp only [Context.unset, entries, Table.erase, List.mem_append, List.mem_filter] at he ⊢
  tauto

end Context

/-- A host that does not look at what is out of sight: what is seen of its answers, and what it
remembers, depend on what is seen of its arguments alone. Its answers are guarded, and as members of
handles its callables name targets and let methods pass as the sight says. -/
structure Host.Blind (host : Host σ) (s : Sight) (M : σ → σ → Prop) : Prop where
  memories : Equivalence M
  answer : ∀ id {vs vs' : List Value} {m m' : σ}, (∀ v ∈ vs, s.Guards (v.seen s)) →
    vs.map (Value.seen s) = vs'.map (Value.seen s) → M m m' →
      Act.Agree (fun v v' => v.seen s = v'.seen s) (host.call id vs m).1 (host.call id vs' m').1 ∧
        M (host.call id vs m).2 (host.call id vs' m').2
  guarded : ∀ id {vs : List Value} {m : σ} {v : Value}, (∀ v ∈ vs, s.Guards (v.seen s)) →
    (host.call id vs m).1 = .ok v → s.Guards (v.seen s)
  reaches : ∀ id {m : σ} {v : Value} {target : Nat}, (host.call id [] m).1 = .ok v →
    v.number? = some target → s.reaches id target = true
  grants : ∀ id {m : σ} {v : Value} {name : String}, (host.call id [.text name] m).1 = .ok v →
    v.truth = .ok true → s.grants id name = true

def Host.veiled (host : Host σ) (s : Sight) : Host σ where
  call id vs m := (Value.seen s <$> (host.call id vs m).1, (host.call id vs m).2)

structure World.Veils (s : Sight) (M : σ → σ → Prop) (w w' : World σ) : Prop where
  context : w'.context = w.context.seen s
  guarded : w.context.Guarded s
  memory : M w.memory w'.memory
  journal : w'.journal = w.journal
  changes : w'.changes = w.changes
  unchanged : s.Full ∨ w.changes = []

namespace World.Veils

variable {w w' : World σ}

theorem current (h : Veils s M w w') (v : Value) :
    w'.current (v.seen s) = (w.current v).seen s := by
  rcases h.unchanged with hf | hn
  · rw [World.current, World.current, h.changes, hf.seen_eq_id]
    rfl
  · rw [World.current, World.current, h.changes, hn]
    rfl

theorem guards_current (h : Veils s M w w') {v : Value} (hv : s.Guards (v.seen s)) :
    s.Guards ((w.current v).seen s) := by
  rcases h.unchanged with hf | hn
  · exact .inl hf
  · rwa [World.current, hn]

theorem call_of_invoke {host : Host σ} (h : Veils s M w w') (hf : ¬s.Full) {id : Nat}
    {label : String} {vs : List Value} {v : Value} {t : World σ}
    (hi : (Callable.hosted id label).invoke (host.veiled s) vs w' = .ok v t) :
    ∃ u, (host.call id vs w'.memory).1 = .ok u ∧ v = u.seen s := by
  have hn : w'.changes = [] := h.changes.trans (h.unchanged.resolve_left hf)
  rw [Callable.invoke_hosted] at hi
  change w'.answered (Value.seen s <$> (host.call id vs w'.memory).1) _ = _ at hi
  cases hc : (host.call id vs w'.memory).1 with
  | error f =>
    rw [hc] at hi
    cases hi
  | ok u =>
    rw [hc] at hi
    cases hi
    refine ⟨u, rfl, ?_⟩
    rw [World.current, hn]
    rfl

theorem mirrors {host : Host σ} (hb : host.Blind s M) :
    host.Mirrors (host.veiled s) s (World.Veils s M) where
  select {w w'} h selector := by
    have hg := h.guards_current (h.guarded.select selector)
    have he : w'.select selector = (w.select selector).seen s := by
      rw [World.select, h.context, Context.select_seen, h.current, World.select]
    exact ⟨he, he ▸ hg⟩
  functions {w w'} h := by
    rw [h.context]
    rfl
  note message {w w'} h := { h with journal := congrArg (Journal.note message) h.journal }
  change hf c {w w'} h := by
    rw [World.change, World.change]
    split
    · exact h
    · exact { h with changes := congrArg (· ++ [c]) h.changes, unchanged := .inl hf }
  invoke id label vs hvs := by
    intro w w' h
    have hm : vs.map (Value.seen s) = (vs.map (Value.seen s)).map (Value.seen s) := by
      simp only [List.map_map, Function.comp_def, Value.seen_seen]
    obtain ⟨ha, hmem⟩ := hb.answer id hvs hm h.memory
    have hg : ∀ v, (host.call id vs w.memory).1 = .ok v → s.Guards (v.seen s) :=
      fun v hv => hb.guarded id hvs hv
    have hv : World.Veils s M { w with memory := (host.call id vs w.memory).2 }
        { w' with memory := (host.call id (vs.map (Value.seen s)) w'.memory).2 } :=
      { h with memory := hmem }
    rw [Callable.invoke_hosted, Callable.invoke_hosted]
    change Act.Matched _ _ _ (w'.answered (Value.seen s <$> (host.call id _ w'.memory).1) _)
    generalize (host.call id vs w.memory).1 = e at ha hg
    generalize (host.call id (vs.map (Value.seen s)) w'.memory).1 = e' at ha
    cases ha with
    | error f => exact .error hv
    | @ok v v' he =>
      have hc : w'.current (v'.seen s) = (w.current v).seen s := by rw [← he, h.current]
      exact .ok ⟨hc, hc ▸ h.guards_current (hg v rfl)⟩ hv
  reaches hf id label := by
    intro w w' h v t hi target hn
    obtain ⟨u, hu, rfl⟩ := h.call_of_invoke hf hi
    exact hb.reaches id hu (by rwa [Value.number?_seen] at hn)
  grants hf id label name := by
    intro w w' h v t hi ht
    obtain ⟨u, hu, rfl⟩ := h.call_of_invoke hf hi
    exact hb.grants id hu (by rwa [Value.truth_seen] at ht)

end World.Veils

end Inlay
