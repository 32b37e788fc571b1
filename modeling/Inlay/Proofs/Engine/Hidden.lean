import Inlay.Host.Recipe
import Inlay.Proofs.Engine.Indistinct
import Inlay.Proofs.Engine.Trace

/-! Hidden attributes: what is out of sight has no influence on a page, on what is reported and
removed, or on what the host is called with. -/

namespace Inlay

variable {σ : Type} {s : Sight} {M : σ → σ → Prop}

def Calls.seen (s : Sight) (calls : Calls) : Calls :=
  calls.map fun (id, vs) => (id, vs.map (Value.seen s))

theorem Host.Blind.traced {host : Host σ} (h : host.Blind s M) :
    host.traced.Blind s fun m m' => M m.1 m'.1 ∧ m.2.seen s = m'.2.seen s where
  memories :=
    ⟨fun _ => ⟨h.memories.refl _, rfl⟩, fun hm => ⟨h.memories.symm hm.1, hm.2.symm⟩,
      fun hm hm' => ⟨h.memories.trans hm.1 hm'.1, hm.2.trans hm'.2⟩⟩
  answer id {vs vs' m m'} hvs he hm := by
    obtain ⟨ha, hmem⟩ := h.answer id hvs he hm.1
    refine ⟨ha, hmem, ?_⟩
    change Calls.seen s (m.2 ++ [(id, vs)]) = Calls.seen s (m'.2 ++ [(id, vs')])
    have hs := hm.2
    rw [Calls.seen, Calls.seen] at hs
    rw [Calls.seen, Calls.seen, List.map_append, List.map_append, hs]
    simp only [List.map_cons, List.map_nil, he]
  guarded id {vs m v} hvs hv := h.guarded id (m := m.1) hvs hv
  reaches id {m v target} hv hn := h.reaches id (m := m.1) hv hn
  grants id {m v name} hv ht := h.grants id (m := m.1) hv ht

namespace Context

def removed (before after : Context) : List String :=
  (before.stores.session.map (·.1)).filter fun key => key ∉ after.stores.session.map (·.1)

theorem removed_seen (before after : Context) :
    (before.seen s).removed (after.seen s) = before.removed after := by
  simp only [removed, seen, Table.names_seen]

theorem removed_eq {before before' after after' : Context} (hb : before.seen s = before'.seen s)
    (ha : after.seen s = after'.seen s) : before.removed after = before'.removed after' := by
  rw [← removed_seen (s := s), hb, ha, removed_seen]

end Context

namespace Engine

def echoHost : Host Nat := ⟨fun _ vs m => (.ok (vs.headD .null), m + 1)⟩

theorem echoHost_blind (s : Sight) (hr : ∀ id target, s.reaches id target = true)
    (hn : ∀ id name, s.grants id name = true) : echoHost.Blind s Eq where
  memories := eq_equivalence
  answer id {vs vs' m m'} hvs he hm := by
    refine ⟨.ok ?_, congrArg (· + 1) hm⟩
    cases vs with
    | nil =>
      obtain rfl := List.map_eq_nil_iff.1 he.symm
      rfl
    | cons v vs =>
      cases vs' with
      | nil => cases he
      | cons v' vs' => exact (List.cons.inj he).1
  guarded id {vs m v} hvs hv := by
    cases hv
    cases vs with
    | nil => exact Sight.Reveals.null.guarded
    | cons v vs => exact hvs v List.mem_cons_self
  reaches id {m v target} _ _ := hr id target
  grants id {m v name} _ _ := hn id name

end Engine

end Inlay
