import Inlay.Proofs.Act.Match
import Inlay.Proofs.Sight.Callee

/-! Handles: what they answer about a value is answered alike about what is seen of it, as long as
those whom they call answer alike. -/

namespace Inlay

variable {σ τ : Type} {s : Sight} {R : World σ → World τ → Prop}

namespace Sight

/-- Two ways of calling: one with values, one with what is seen of them. A handle that is asked for
its target names one that it may be over, and lets pass as methods only what it lists. -/
structure Callers (s : Sight) (R : World σ → World τ → Prop) (call : Caller (World σ))
    (call' : Caller (World τ)) : Prop where
  alike : ∀ v vs, s.Guards (v.seen s) → (∀ w ∈ vs, s.Guards (w.seen s)) →
    Act.Matches R s.Reveals (call v vs) (call' (v.seen s) (vs.map (Value.seen s)))
  target : ∀ h, s.Handles h → s.Guards h →
    (Handle.ask call' h .target []).YieldsBeside R fun t => ∀ name, s.Lists h name → s.Admits t name
  granted : ∀ h name, s.Handles h →
    (Handle.ask call' h .hasMethod [.text name]).YieldsBeside R fun v =>
      v.truth = .ok true → s.Full ∨ s.Lists h name

end Sight

namespace Handle

open Sight (Callers Reveals RevealsAll Admits)

section

variable {call : Caller (World σ)} {call' : Caller (World τ)} (hc : Callers s R call call')
include hc

theorem ask_matches {v : Value} {m : Member} {vs : List Value} (hm : m ∈ Member.common)
    (hv : s.Guards (v.seen s)) (hvs : ∀ w ∈ vs, s.Guards (w.seen s)) :
    Act.Matches R s.Reveals (ask call v m vs) (ask call' (v.seen s) m (vs.map (Value.seen s))) := by
  have ha := Admits.of_asked (s := s) (Member.asked_of_common m hm) v
  exact .bindExcept ha.read_seen fun w hw => hc.alike w vs (ha.guards_read hv hw) hvs

theorem askTarget_matches {h : Value} (hh : s.Handles h) (hg : s.Guards (h.seen s)) :
    Act.Matches R
      (fun t t' => s.Reveals t t' ∧ ∀ name, s.Lists (h.seen s) name → s.Admits t name)
      (ask call h .target []) (ask call' (h.seen s) .target []) := by
  have ha : Act.Matches R s.Reveals (ask call h .target []) (ask call' (h.seen s) .target []) :=
    ask_matches hc (by decide) hg (List.forall_mem_nil _)
  refine (ha.and_yields (hc.target _ hh.seen hg)).mono ?_
  rintro t _ ⟨⟨rfl, ht⟩, hl⟩
  exact ⟨⟨rfl, ht⟩, fun name hn => (hl name hn).of_seen⟩

theorem property_matches {owner name : Value} (hh : s.Handles owner)
    (hg : s.Guards (owner.seen s)) :
    Act.Matches R s.Reveals (property call owner name)
      (property call' (owner.seen s) (name.seen s)) := by
  have ha : s.Admits owner Face.propertiesName := .of_asked (by decide) owner
  refine .bindExcept ha.read_seen fun names hr => ?_
  refine .bindSame (Value.holds_seen names name) fun held hheld => .ite (fun hb => ?_) fun _ => ?_
  · refine (askTarget_matches hc hh hg).bind ?_
    rintro t _ ⟨⟨rfl, ht⟩, hl⟩
    refine .bindSame (Value.attributeName_seen name) fun n hn => ?_
    obtain rfl := Value.eq_text_of_attributeName hn
    subst hb
    have hadmits := hl n (Sight.lists_of_read (by simp) hr hheld)
    refine .bindExcept hadmits.exposed?_seen fun found hf => .pure ?_
    cases found with
    | none => exact .atom rfl trivial rfl
    | some v => exact .of_guards (hadmits.guards_exposed? ht hf)
  · exact .pure (.atom rfl trivial rfl)

theorem hasMethod_matches {owner name : Value} (hh : s.Handles owner)
    (hg : s.Guards (owner.seen s)) :
    Act.Matches R s.Reveals (hasMethod call owner name)
      (hasMethod call' (owner.seen s) (name.seen s)) := by
  have ha : s.Admits owner Face.methodsName := .of_asked (by decide) owner
  refine .bindExcept ha.read_seen fun names hr => ?_
  refine .bindSame (Value.holds_seen names name) fun held hheld => .ite (fun hb => ?_) fun _ => ?_
  · refine (askTarget_matches hc hh hg).bind ?_
    rintro t _ ⟨⟨rfl, ht⟩, hl⟩
    refine .bindSame (Value.attributeName_seen name) fun n hn => ?_
    obtain rfl := Value.eq_text_of_attributeName hn
    subst hb
    have hadmits := hl n (Sight.lists_of_read (by simp) hr hheld)
    refine .bindExcept hadmits.read?_seen fun found hf => .pure ?_
    have hany : (found.map (Value.seen s)).any Value.isCallable = found.any Value.isCallable := by
      cases found with
      | none => rfl
      | some v => exact Value.isCallable_seen v
    rw [hany]
    exact .bool _
  · exact .pure (.atom rfl trivial rfl)

theorem callMethod_matches {owner name vs : Value} (hh : s.Handles owner)
    (hg : s.Guards (owner.seen s)) (hn : s.Guards (name.seen s)) (hvs : s.Guards (vs.seen s)) :
    Act.Matches R s.Reveals (callMethod call owner name vs)
      (callMethod call' (owner.seen s) (name.seen s) (vs.seen s)) := by
  have hname : ∀ w ∈ [name], s.Guards (w.seen s) := by simpa using hn
  have hk := ask_matches hc (m := .hasMethod) (by decide) hg hname
  have hgranted : (ask call' (owner.seen s) .hasMethod [name.seen s]).YieldsBeside R fun v =>
      v.truth = .ok true → ∀ n, name.attributeName = .ok n → s.Full ∨ s.Lists (owner.seen s) n := by
    intro w w' hw v w'' hv ht n hn
    obtain rfl := Value.eq_text_of_attributeName hn
    exact hc.granted _ n hh.seen w w' hw v w'' hv ht
  refine (hk.and_yields hgranted).bind ?_
  rintro known _ ⟨⟨rfl, -⟩, hl⟩
  rw [Value.truth_seen] at hl
  refine .bindSame (Value.truth_seen known) fun b hb => .ite (fun ht => ?_) fun _ => ?_
  · subst ht
    refine (askTarget_matches hc hh hg).bind ?_
    rintro t _ ⟨⟨rfl, ht⟩, hlisted⟩
    have hread : ∀ n, name.attributeName = .ok n → s.Admits t n := fun n hn =>
      (hl hb n hn).elim .inl (hlisted n)
    have hr : ((name.seen s).attributeName >>= (t.seen s).read) =
        Value.seen s <$> (name.attributeName >>= t.read) := by
      rw [Value.attributeName_seen]
      cases hn : name.attributeName with
      | error f => rfl
      | ok n => exact (hread n hn).read_seen
    refine .bindExcept hr fun callee hcallee => ?_
    have hgc : s.Guards (callee.seen s) := by
      cases hn : name.attributeName with
      | error f =>
        rw [hn] at hcallee
        cases hcallee
      | ok n =>
        rw [hn] at hcallee
        exact (hread n hn).guards_read ht hcallee
    refine .bindExcept (spread_seen callee vs) fun items hi => hc.alike callee items hgc ?_
    intro w hw
    have hs : spread (callee.seen s) (vs.seen s) = .ok (items.map (Value.seen s)) := by
      rw [spread_seen, hi]
      rfl
    exact guards_spread hvs hs _ (List.mem_map_of_mem hw)
  · exact .bindSame (Value.formatted_seen name) fun _ _ => .throw _

theorem exports_matches {owner : Value} (hh : s.Handles owner) (hg : s.Guards (owner.seen s)) :
    Act.Matches R s.Reveals (exports call owner) (exports call' (owner.seen s)) := by
  have ha : s.Admits owner Face.propertiesName := .of_asked (by decide) owner
  have hr : ((owner.seen s).read Face.propertiesName >>= names) =
      (List.map (Value.seen s)) <$> (owner.read Face.propertiesName >>= names) := by
    rw [ha.read_seen]
    cases owner.read Face.propertiesName with
    | ok list => exact names_seen list
    | error f => rfl
  refine .bindExcept hr fun ns hns => ?_
  have hlists : ∀ n, .text n ∈ ns → s.Lists (owner.seen s) n := by
    intro n hn
    cases hl : owner.read Face.propertiesName with
    | error f =>
      rw [hl] at hns
      cases hns
    | ok list =>
      rw [hl] at hns
      exact Sight.lists_of_read (by simp) hl (holds_of_names hns hn)
  refine (Act.Matches.mapM (W := s.RevealsEntry) ns fun name hname => ?_).bind
    fun found found' hf => .pure (Sight.reveals_exports hf)
  refine (askTarget_matches hc hh hg).bind ?_
  rintro t _ ⟨⟨rfl, ht⟩, hl⟩
  refine .bindSame (Value.attributeName_seen name) fun n hn => ?_
  obtain rfl := Value.eq_text_of_attributeName hn
  have hadmits := hl n (hlists n hname)
  refine .bindExcept hadmits.exposed?_seen fun v hv => .pure ⟨rfl, rfl, ?_⟩
  intro w hw
  obtain ⟨u, rfl, rfl⟩ := Option.map_eq_some_iff.1 hw
  exact hadmits.guards_exposed? ht hv

theorem countable_matches {owner : Value} (hh : s.Handles owner) (hg : s.Guards (owner.seen s)) :
    Act.Matches R s.Reveals (countable call owner) (countable call' (owner.seen s)) := by
  refine (askTarget_matches hc hh hg).bind ?_
  rintro t _ ⟨⟨rfl, ht⟩, -⟩
  rw [Value.isOwnTarget_seen]
  refine .ite (fun _ => ?_) fun _ => ?_
  · have hl : (owner.seen s).read? Member.length.name =
        (Option.map (Value.seen s)) <$> owner.read? Member.length.name :=
      Value.read?_seen_asked owner (by decide)
    refine .bindExcept hl fun found _ => .pure ?_
    rw [Option.isSome_map]
    exact .bool _
  · exact .bindSame (Value.classify_seen t) fun kind _ => .pure (.bool _)

theorem items_matches {exported : Value} (hg : s.Guards (exported.seen s)) :
    Act.Matches R s.RevealsAll (items call exported) (items call' (exported.seen s)) := by
  have hread : Act.Matches R s.RevealsAll
      (do
        let pairs ← call (← Act.ofExcept (exported.read "items")) []
        Act.ofExcept pairs.elements)
      (do
        let pairs ← call' (← Act.ofExcept ((exported.seen s).read "items")) []
        Act.ofExcept pairs.elements) := by
    have ha : s.Admits exported "items" := .of_asked (by decide) exported
    refine .bindExcept ha.read_seen fun callee hcallee => ?_
    refine (hc.alike callee [] (ha.guards_read hg hcallee) (List.forall_mem_nil _)).bind ?_
    rintro pairs _ ⟨rfl, hp⟩
    refine .ofExcept (Value.elements_seen pairs) fun vs hvs => ⟨rfl, hp.elements ?_⟩
    rw [Value.elements_seen, hvs]
    rfl
  cases exported with
  | mapping form entries =>
    rw [Value.seen, items, items, Value.seenEntries_eq_map]
    refine .pure ⟨?_, ?_⟩
    · simp [Value.seen, Value.seenItems, Function.comp_def]
    · rw [Value.seen, Value.seenEntries_eq_map] at hg
      intro v hv
      obtain ⟨e, he, rfl⟩ := List.mem_map.1 hv
      have hge := Sight.Guards.mapping_iff.1 hg e he
      exact Sight.Guards.tuple_iff.2 (by simpa using hge)
  | _ => exact hread

theorem readParts_matches {owner : Value} (hg : s.Guards (owner.seen s)) :
    Act.Matches R s.RevealsAll (readParts call owner) (readParts call' (owner.seen s)) := by
  refine .mapFault _ ((ask_matches hc (by decide) hg (List.forall_mem_nil _)).bind ?_)
  rintro exported _ ⟨rfl, he⟩
  exact items_matches hc he

theorem ownParts_matches {owner : Value} (hg : s.Guards (owner.seen s)) :
    Act.Matches R (Option.Rel s.RevealsAll) (ownParts call owner)
      (ownParts call' (owner.seen s)) := by
  have hask : Act.Matches R s.Reveals
      (do Act.ofExcept owner.checkClass; ask call owner .parts [])
      (do Act.ofExcept (owner.seen s).checkClass; ask call' (owner.seen s) .parts []) :=
    .bindSame (Value.checkClass_seen owner) fun _ _ =>
      ask_matches hc (by decide) hg (List.forall_mem_nil _)
  refine hask.observe.bind fun found found' hf => ?_
  cases hf with
  | error f => exact .pure .none
  | @ok v _ hv =>
    obtain ⟨rfl, hg⟩ := hv
    have he : Act.Matches R (Option.Rel s.RevealsAll)
        (do return some (← Act.ofExcept v.elements))
        (do return some (← Act.ofExcept (v.seen s).elements)) := by
      refine .bindExcept (Value.elements_seen v) fun vs hvs => .pure (.some ⟨rfl, ?_⟩)
      refine hg.elements ?_
      rw [Value.elements_seen, hvs]
      rfl
    cases v with
    | null => exact .pure .none
    | parts v =>
      exact (readParts_matches hc (hg.constituent (List.mem_singleton.2 rfl))).bind
        fun vs vs' hvs => .pure (.some hvs)
    | _ => exact he

end

end Handle

end Inlay
