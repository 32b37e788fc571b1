import Inlay.Host.Recipe
import Inlay.Proofs.Engine.Indistinct
import Inlay.Proofs.Page.Substitution
import Inlay.Proofs.Path.Accessor
import Inlay.Proofs.World.Session

/-! Unsetting: a tag may take its entry out of the session. A page has no other effect on its
context, and only the tags that follow see it. -/

namespace Inlay

variable {σ : Type}

def Host.Pure (host : Host σ) : Prop :=
  ∀ id arguments m m', (host.call id arguments m).1 = (host.call id arguments m').1

/-- What a host gives out leads to no member that changes objects, and as members of handles its
callables let pass only such methods as are granted to them. -/
structure Host.Guarded (host : Host σ) (granted : Nat → String → Bool) : Prop where
  answers : ∀ id {vs : List Value} {m : σ} {v : Value},
    (∀ v ∈ vs, (Sight.watch granted).Guards v) → (host.call id vs m).1 = .ok v →
      (Sight.watch granted).Guards v
  grants : ∀ id {m : σ} {v : Value} {name : String}, (host.call id [.text name] m).1 = .ok v →
    v.truth = .ok true → granted id name = true

theorem Host.Pure.blind {host : Host σ} (hp : host.Pure) {granted : Nat → String → Bool}
    (hg : host.Guarded granted) : host.Blind (.watch granted) fun _ _ => True where
  memories := ⟨fun _ => trivial, fun _ => trivial, fun _ _ => trivial⟩
  answer id {vs vs' m m'} _ he _ := by
    rw [(Sight.watch_clear granted).seen_eq_id, List.map_id, List.map_id] at he
    subst he
    rw [hp id vs m m']
    refine ⟨?_, trivial⟩
    cases (host.call id vs m').1 with
    | ok v => exact .ok rfl
    | error f => exact .error f
  guarded id {vs m v} hvs hv := by
    rw [(Sight.watch_clear granted).seen_eq_id] at hvs ⊢
    exact hg.answers id hvs hv
  reaches _ {_ _ _} _ _ := rfl
  grants id {_ _ _} hv ht := hg.grants id hv ht

namespace World

structure Alike (w w' : World σ) : Prop where
  context : w.context = w'.context
  changes : w.changes = w'.changes

theorem Alike.respected {host : Host σ} (h : host.Pure) : host.Respects Alike where
  context hw := hw.context
  changes hw := hw.changes
  note _ _ _ hw := ⟨hw.context, hw.changes⟩
  change c w w' hw := by
    unfold World.change
    by_cases hc : c.id = 0
    · rwa [if_pos hc, if_pos hc]
    · rw [if_neg hc, if_neg hc]
      exact ⟨hw.context, congrArg (· ++ [c]) hw.changes⟩
  answer id arguments _ _ _ := h id arguments _ _
  call _ _ _ _ hw := ⟨hw.context, hw.changes⟩

structure Leads (w w' : World σ) : Prop where
  context : w'.context = w.context
  changes : w.changes <+: w'.changes

namespace Leads

theorem refl (w : World σ) : w.Leads w := ⟨rfl, List.prefix_rfl⟩

theorem trans {w w' w'' : World σ} (h : w.Leads w') (h' : w'.Leads w'') : w.Leads w'' :=
  ⟨h'.context.trans h.context, h.changes.trans h'.changes⟩

theorem note {w w' : World σ} (h : w.Leads w') (message : String) :
    w.Leads (Reports.note message w') := ⟨h.context, h.changes⟩

theorem without {w w' : World σ} (h : w.Leads w') (keys : List String) :
    (w.without keys).Leads (w'.without keys) :=
  ⟨congrArg (Context.without keys) h.context, h.changes⟩

theorem respected (host : Host σ) (w : World σ) :
    host.Respects fun v v' => v = v' ∧ w.Leads v where
  context hw := by rw [hw.1]
  changes hw := by rw [hw.1]
  note message _ _ hw := ⟨by rw [hw.1], hw.2.note message⟩
  change c v v' hw := by
    refine ⟨by rw [hw.1], ?_⟩
    unfold World.change
    by_cases hc : c.id = 0
    · rw [if_pos hc]
      exact hw.2
    · rw [if_neg hc]
      exact ⟨hw.2.context, hw.2.changes.trans (List.prefix_append _ _)⟩
  answer _ _ _ _ hw := by rw [hw.1]
  call _ _ _ _ hw := ⟨by rw [hw.1], hw.2.context, hw.2.changes⟩

end Leads

end World

theorem Processor.removeEntry_cases (o : Origin) :
    (∃ name, o.source = .session ∧ o.segments = [name] ∧
        (removeEntry o : Act (World σ) Unit) = modify (World.without [name])) ∨
      (∀ name, ¬(o.source = .session ∧ o.segments = [name])) ∧
        (removeEntry o : Act (World σ) Unit) = pure () := by
  unfold removeEntry
  split
  · next name hsource hsegments =>
    refine .inl ⟨name, hsource, hsegments, ?_⟩
    simp only [Context.unset_eq]
    rfl
  · next hne => exact .inr ⟨fun name h => hne name h.1 h.2, rfl⟩

theorem Processor.removeEntry_keeps_alike (o : Origin) :
    (removeEntry o : Act (World σ) Unit).Keeps World.Alike := by
  rcases removeEntry_cases o with ⟨name, -, -, he⟩ | ⟨-, he⟩
  · rw [he]
    exact .modify fun _ _ hw => ⟨congrArg (Context.without [name]) hw.context, hw.changes⟩
  · rw [he]
    exact .pure _

theorem Table.get?_builtIn_unset {name : String}
    (h : Table.get? Processor.builtIn name = some .unset) : name = "unset" := by
  simpa [Processor.builtIn] using Table.get?_mem h

theorem Source.ofSelector_eq_session {selector : String}
    (h : Source.ofSelector selector = .session) : selector = "session" := by
  unfold Source.ofSelector at h
  split at h <;> first | rfl | cases h

namespace Engine

open Page (call calls)

variable (e : Engine σ)

def unsetKey? (t : Tag) : Option String :=
  match t.processor, Path.split (some ':') (some e.maxDepth) t.path with
  | some "unset", .ok ["session", key] =>
    if Accessor.ofSegment key = .key key then some key else none
  | _, _ => none

def unsets (ts : List Tag) : List String := ts.filterMap e.unsetKey?

theorem unsetKey?_eq_some {t : Tag} {key : String} : e.unsetKey? t = some key ↔
    t.processor = some "unset" ∧
      Path.split (some ':') (some e.maxDepth) t.path = .ok ["session", key] ∧
      Accessor.ofSegment key = .key key := by
  unfold unsetKey?
  constructor
  · intro h
    split at h
    · next key' hp hs =>
      split_ifs at h with hk
      cases h
      exact ⟨hp, hs, hk⟩
    · cases h
  · rintro ⟨hp, hs, hk⟩
    rw [hp, hs]
    exact if_pos hk

variable {e} {w : World σ}

theorem locate_session (hw : w.context.Present) (segment : String) :
    (∃ v w', e.locate "session" [segment] w = .ok (.ok v) w') ↔
      Accessor.ofSegment segment = .key segment ∧
        Table.contains w.context.stores.session segment = true := by
  have hl : e.locate "session" [segment] w =
      Walk.step e.host (w.select "session") (Accessor.ofSegment segment) w := by
    rw [← Walk.walk_one]
    rfl
  rw [hl, World.step_session e.host hw]
  constructor
  · rintro ⟨key, hk, hc⟩
    obtain rfl := Accessor.eq_of_ofSegment_key hk
    exact ⟨hk, hc⟩
  · rintro ⟨hk, hc⟩
    exact ⟨segment, hk, hc⟩

theorem finish_unset (hb : e.processors = Processor.builtIn) {t : Tag}
    (ht : t.processor = some "unset") (selector : String) (segments : List String) (v : Value) :
    e.finish t selector segments v = do
      Processor.removeEntry (e.origin selector segments)
      return .done "" := by
  have hu : e.unknown? t = none := by
    rw [unknown?, ht, hb]
    rfl
  have hf : (Value.text "").format e.host (!t.raw) = pure "" := by
    cases t.raw with
    | false => rfl
    | true => rfl
  rw [finish_eq, hu, write, ht, hb]
  have ha : Processor.apply e.host Processor.builtIn (some "unset") v
      (e.origin selector segments) = do
        Processor.removeEntry (e.origin selector segments)
        return Value.text "" := rfl
  rw [ha]
  simp only [bind_assoc, pure_bind, hf]

theorem leads_of_not_found (hw : w.context.Present) {t : Tag} {selector : String}
    {segments : List String}
    (hs : Path.split (some ':') (some e.maxDepth) t.path = .ok (selector :: segments))
    (hn : ∀ v w', e.locate selector segments w ≠ .ok (.ok v) w') {w' : World σ}
    (h : w.Leads w') : (w.without (e.unsetKey? t).toList).Leads w' := by
  cases hu : e.unsetKey? t with
  | none => rwa [Option.toList_none, World.without_nil]
  | some key =>
    obtain ⟨-, hp, hk⟩ := e.unsetKey?_eq_some.1 hu
    rw [hs] at hp
    cases hp
    have ha : Table.contains w.context.stores.session key = false := by
      by_contra hc
      obtain ⟨v, w'', hl⟩ := (locate_session hw key).2 ⟨hk, by simpa using hc⟩
      exact hn v w'' hl
    rwa [Option.toList_some, World.without_of_absent ha]

theorem leads_of_found (hb : e.processors = Processor.builtIn) (hw : w.context.Present) {t : Tag}
    (ht : t.processor = some "unset") {selector : String} {segments : List String}
    (hs : Path.split (some ':') (some e.maxDepth) t.path = .ok (selector :: segments))
    {v : Value} {w' : World σ} (hl : e.locate selector segments w = .ok (.ok v) w')
    (h : w.Leads w') :
    (w.without (e.unsetKey? t).toList).Leads ((e.finish t selector segments v).final w') := by
  rw [finish_unset hb ht]
  rcases Processor.removeEntry_cases (e.origin selector segments) with
    ⟨name, hsource, hsegments, he⟩ | ⟨hne, he⟩
  · obtain rfl := Source.ofSelector_eq_session hsource
    obtain rfl : segments = [name] := hsegments
    obtain ⟨hk, -⟩ := (locate_session hw name).1 ⟨v, w', hl⟩
    rw [e.unsetKey?_eq_some.2 ⟨ht, hs, hk⟩, he]
    exact h.without [name]
  · rw [he]
    change World.Leads _ w'
    cases hu : e.unsetKey? t with
    | none => rwa [Option.toList_none, World.without_nil]
    | some key =>
      obtain ⟨-, hp, -⟩ := e.unsetKey?_eq_some.1 hu
      rw [hs] at hp
      cases hp
      exact absurd ⟨rfl, rfl⟩ (hne key)

theorem resolve_leads (hb : e.processors = Processor.builtIn) (hw : w.context.Present) (t : Tag) :
    (w.without (e.unsetKey? t).toList).Leads ((e.resolve t).final w) := by
  have hr := World.Leads.respected e.host w
  by_cases ht : t.processor = some "unset"
  · have hn (hs : ∀ key, Path.split (some ':') (some e.maxDepth) t.path ≠ .ok ["session", key]) :
        w.without (e.unsetKey? t).toList = w := by
      cases hu : e.unsetKey? t with
      | none => exact w.without_nil
      | some key => exact absurd (e.unsetKey?_eq_some.1 hu).2.1 (hs key)
    rw [resolve]
    split
    · next f hs =>
      rw [hn (by simp [hs])]
      exact (World.Leads.refl w).note _
    · next hs =>
      rw [hn (by simp [hs])]
      exact .refl w
    · next selector segments hs =>
      have hl := ((locate_keeps selector segments hr).final ⟨rfl, .refl w⟩).2
      rw [Act.final] at hl
      rw [Act.final_bind]
      cases hf : e.locate selector segments w with
      | error f w' =>
        rw [hf] at hl
        exact leads_of_not_found hw hs (by simp [hf]) hl
      | ok found w' =>
        rw [hf] at hl
        cases found with
        | error f => exact leads_of_not_found hw hs (by simp [hf]) hl
        | ok v => exact leads_of_found hb hw ht hs hf hl
  · have hu : e.unsetKey? t = none :=
      Option.eq_none_iff_forall_ne_some.2 fun key hk => ht (e.unsetKey?_eq_some.1 hk).1
    rw [hu, Option.toList_none, World.without_nil]
    refine ((resolve_keeps t hr fun hp => absurd ?_ ht).final ⟨rfl, .refl w⟩).2
    obtain ⟨name, hn, hg⟩ := Option.bind_eq_some_iff.1 hp
    rw [hb] at hg
    rw [hn, Table.get?_builtIn_unset hg]

theorem call_leads (hb : e.processors = Processor.builtIn) (hw : w.context.Present) (t : Tag) :
    (w.without (e.unsetKey? t).toList).Leads (call e.resolve t w).2 := by
  have h := resolve_leads hb hw t
  rw [Act.final] at h
  rw [call]
  cases hr : e.resolve t w with
  | ok o w' =>
    rw [hr] at h
    exact h
  | error f w' =>
    rw [hr] at h
    exact h.note _

theorem unsets_cons (t : Tag) (ts : List Tag) :
    e.unsets (t :: ts) = (e.unsetKey? t).toList ++ e.unsets ts := by
  rw [unsets, unsets, List.filterMap_cons]
  cases e.unsetKey? t with
  | none => rfl
  | some key => rfl

theorem calls_leads (hb : e.processors = Processor.builtIn) (hw : w.context.Present)
    (ts : List Tag) : (w.without (e.unsets ts)).Leads (calls e.resolve ts w).2 := by
  induction ts generalizing w with
  | nil =>
    rw [unsets, List.filterMap_nil, World.without_nil]
    exact .refl w
  | cons t ts ih =>
    have ht := call_leads hb hw t
    have hw' : (call e.resolve t w).2.context.Present := by
      rw [ht.context]
      exact hw.without _
    rw [unsets_cons, ← World.without_append]
    exact (ht.without _).trans (ih hw')

theorem call_alike (hp : e.host.Pure) (t : Tag) {v : World σ} (h : v.Alike w) :
    (call e.resolve t v).1 = (call e.resolve t w).1 ∧
      (call e.resolve t v).2.Alike (call e.resolve t w).2 := by
  have hr := World.Alike.respected hp
  have hk := resolve_keeps t hr fun _ o => Processor.removeEntry_keeps_alike o
  rw [call, call]
  rcases hk.ends h with ⟨o, u, u', hs, hs', hu⟩ | ⟨f, u, u', hs, hs', hu⟩
  · rw [hs, hs']
    exact ⟨rfl, hu⟩
  · rw [hs, hs']
    exact ⟨rfl, hr.note _ hu⟩

/-- As long as no object changes, each of a number of tags is resolved as it is in the first world
without the entries that the tags before it have taken out of the session. -/
theorem calls_eq_mapIdx (hb : e.processors = Processor.builtIn) (hp : e.host.Pure)
    (hw : w.context.Present) {ts : List Tag} {keys : List String} {v : World σ}
    (hv : v.Alike (w.without keys)) (hc : (calls e.resolve ts v).2.changes = w.changes) :
    (calls e.resolve ts v).1 =
      ts.mapIdx fun i t => (call e.resolve t (w.without (keys ++ e.unsets (ts.take i)))).1 := by
  induction ts generalizing keys v with
  | nil => rfl
  | cons t ts ih =>
    have hvp : v.context.Present := by
      rw [hv.context]
      exact hw.without keys
    have ht := call_leads hb hvp t
    have htp : (call e.resolve t v).2.context.Present := by
      rw [ht.context]
      exact hvp.without _
    have hv' : (call e.resolve t v).2.Alike (w.without (keys ++ (e.unsetKey? t).toList)) := by
      rw [← World.without_append]
      refine ⟨?_, ?_⟩
      · rw [ht.context]
        exact congrArg (Context.without _) hv.context
      · -- changes are only added, and in the end there are as many as in the beginning
        have hle : (call e.resolve t v).2.changes <+: w.changes :=
          hc ▸ (calls_leads hb htp ts).changes
        have hge : w.changes <+: (call e.resolve t v).2.changes :=
          hv.changes ▸ ht.changes
        exact hle.eq_of_length_le hge.length_le
    rw [calls, List.mapIdx_cons, List.take_zero, unsets, List.filterMap_nil, List.append_nil]
    refine congrArg₂ _ (call_alike hp t hv).1 ?_
    refine (ih hv' hc).trans ?_
    simp only [List.take_succ_cons, unsets_cons, List.append_assoc]

theorem render_unchanged (hp : e.host.Pure) {granted : Nat → String → Bool}
    (hg : e.host.Guarded granted) (hc : w.context.Guarded (.watch granted)) (hn : w.changes = [])
    (cap : Nat) (text : String) : (e.render cap text w).2.changes = [] := by
  have h : w.Indistinct (.watch granted) (fun _ _ => True) w :=
    ⟨rfl, hc, trivial, rfl, rfl, .inr hn⟩
  obtain ⟨-, hw⟩ := e.render_indistinct (hp.blind hg) cap text h
  exact hw.unchanged.resolve_left (Sight.watch_not_full granted)

/-- A page takes entries out of the session and changes nothing else in its context. If what its
callables return depends on their arguments alone, and no handle lists a member that changes
objects, no object changes, and each tag is resolved as it is in the first world without the entries
that the tags before it have taken out. -/
theorem render_unsets (e : Engine σ) (cap : Nat) (text : String) (w : World σ)
    (hb : e.processors = Processor.builtIn) (hw : w.context.Present) :
    ∀ ps, Piece.Cuts cap text.toList ps →
      let ts := Piece.tags ps
      let ends := ts.mapIdx fun i t => (call e.resolve t (w.without (e.unsets (ts.take i)))).1
      (e.render cap text w).2.context = w.context.without (e.unsets ts) ∧
        ∀ granted, e.host.Pure → e.host.Guarded granted →
          w.context.Guarded (.watch granted) → w.changes = [] →
            (e.render cap text w).2.changes = [] ∧ (calls e.resolve ts w).1 = ends ∧
              (e.render cap text w).1.text =
                String.ofList (Piece.fill ps (ends.map Page.substitution)) := by
  intro ps h ts ends
  have hr := Page.render_eq h e.resolve w
  have hs : (e.render cap text w).2 = (calls e.resolve ts w).2 := congrArg Prod.snd hr
  refine ⟨?_, fun granted hp hg hc hn => ?_⟩
  · rw [hs]
    exact (calls_leads hb hw ts).context
  · have hu := render_unchanged hp hg hc hn cap text
    have hv : w.Alike (w.without []) := by
      rw [World.without_nil]
      exact ⟨rfl, rfl⟩
    have he : (calls e.resolve ts w).1 = ends :=
      calls_eq_mapIdx hb hp hw hv (hs ▸ hu.trans hn.symm)
    refine ⟨hu, he, ?_⟩
    rw [← he]
    exact congrArg (fun r => r.1.text) hr

theorem render_unsets_twice_read :
    let host : Host Unit := ⟨fun _ _ m => (.ok (.text "hello"), m)⟩
    let e := ofSettings host .standard
    let user := Value.object 1 ⟨"User", ["name"], ["greet"]⟩
      [("name", .value (.text "Ann")), ("greet", .value (.callable (.hosted 7 "greet")))] none
    let c := (Context.empty.put "session" "a" (.text "x")).put "session" "b" user
    let w := World.start c () (.empty true)
    let text := "<session:a/><session:a::unset/><session:a/><session:b:greet()/>"
    let ps := [.tag ⟨"session:a", none, false⟩, .tag ⟨"session:a", some "unset", false⟩,
      .tag ⟨"session:a", none, false⟩, .tag ⟨"session:b:greet()", none, false⟩]
    let granted (_ : Nat) (_ : String) := true
    w.context.Present ∧ Piece.Cuts 99 text.toList ps ∧ e.host.Pure ∧ e.host.Guarded granted ∧
      w.context.Guarded (.watch granted) ∧ w.changes = [] ∧
      (e.render 99 text w).2.context.stores.session = [("b", user)] ∧
      (e.render 99 text w).2.changes = [] ∧ (e.render 99 text w).1.text = "xhello" := by
  intro host e user c w text ps granted
  have hw : w.context.Present := by
    change ∀ entry ∈ [("a", Value.text "x"), ("b", user)], entry.2 ≠ .missing
    simp [user]
  have hs : ps = Piece.scan 99 text.toList := by decide
  have hcuts : Piece.Cuts 99 text.toList ps := hs ▸ Piece.cuts_scan 99 _
  have hp : e.host.Pure := fun _ _ _ _ => rfl
  have hg : e.host.Guarded granted := by
    refine ⟨fun id {vs m v} _ hv => ?_, fun _ {_ _ _} _ _ => rfl⟩
    cases hv
    exact .simple rfl
  have hu : (Sight.watch granted).Guards user := by
    have hl : ∀ name ∈ ["name", "greet"],
        name ∉ Sight.reflectiveNames ∧ (Sight.watch granted).shows 1 name = true := by decide
    refine .of_constituents (.inr (Sight.fits_object ?_ fun name hn => ?_)) ?_
    · decide
    · exact ⟨Sight.not_bars (hl name hn).1, (hl name hn).2⟩
    · intro v hv
      simp [user, Value.constituents, Attribute.value?] at hv
      rcases hv with rfl | rfl <;> exact .simple rfl
  have hc : w.context.Guarded (.watch granted) := by
    intro entry he
    rw [(Sight.watch_clear granted).seen_eq_id]
    change entry ∈ [("a", Value.text "x"), ("b", user)] at he
    simp only [List.mem_cons, List.not_mem_nil, or_false] at he
    rcases he with rfl | rfl
    · exact .simple rfl
    · exact hu
  obtain ⟨hx, ht⟩ := render_unsets e 99 text w rfl hw ps hcuts
  obtain ⟨hn, -, ht⟩ := ht granted hp hg hc rfl
  refine ⟨hw, hcuts, hp, hg, hc, rfl, ?_, hn, ?_⟩
  · have hu : e.unsets (Piece.tags ps) = ["a"] := by decide +kernel
    rw [hx, hu]
    rfl
  · rw [ht]
    decide +kernel

/-- A handle may list the member by which its object is changed. A tag that calls it has an effect
that no `unset` has, and what a later tag reads is not what it reads in the first world. -/
theorem render_changes_object :
    let e := ofSettings Host.none .standard
    let o := Value.object 1 ⟨"K", ["a"], ["__setattr__"]⟩ [("a", .value (.text "1"))] none
    let w := World.start { Context.empty with globals := [("o", o)] } () (.empty false)
    let text := "<o:__setattr__(\"a\",\"2\")/><o:a/>"
    let first : Tag := ⟨"o:__setattr__(\"a\",\"2\")", none, false⟩
    let second : Tag := ⟨"o:a", none, false⟩
    e.processors = Processor.builtIn ∧ w.context.Present ∧ e.host.Pure ∧
      Piece.Cuts 99 text.toList [.tag first, .tag second] ∧ e.unsets [first, second] = [] ∧
      (e.render 99 text w).1.text = "2" ∧
      Page.substitution (call e.resolve first w).1 = "".toList ∧
      Page.substitution (call e.resolve second w).1 = "1".toList := by
  intro e o w text first second
  have hw : w.context.Present := by
    change ∀ entry ∈ ([] : Table Value), entry.2 ≠ .missing
    simp
  have hs : [.tag first, .tag second] = Piece.scan 99 text.toList := by decide
  refine ⟨rfl, hw, fun _ _ _ _ => rfl, hs ▸ Piece.cuts_scan 99 _, ?_, ?_, ?_, ?_⟩
  all_goals decide +kernel

end Engine

end Inlay
