import Inlay.Proofs.Act.Return
import Inlay.Proofs.Engine.Report
import Inlay.Proofs.Host.Beside
import Inlay.Proofs.Table

/-! Processing: when a post-processor runs and what it is given. The post-processors may be any
here, and those of an engine are among them. Their runs are seen by recording them, beside the
memory of the host, which changes nothing else. -/

namespace Inlay

variable {σ α : Type}

/-- A post-processor of any kind: what it makes of a value, knowing where a tag read it. -/
abbrev Procedure (σ : Type) := Value → Origin → Act (World σ) Value

structure Run where
  name : String
  value : Value
  origin : Origin

def Procedure.recorded (name : String) (p : Procedure σ) : Procedure (σ × List Run) :=
  fun v origin w => Act.Beside (w.memory.2 ++ [⟨name, v, origin⟩]) (p v origin w.alone)

namespace Engine

variable (e : Engine σ) (ps : Table (Procedure σ)) (t : Tag)

def procedures : Table (Procedure σ) :=
  e.processors.map fun (name, p) => (name, fun v origin => p.run e.host v origin)

def print (v : Value) : Act (World σ) Outcome := do return .done (← v.format e.host !t.raw)

def finishBy (v : Value) (origin : Origin) : Act (World σ) Outcome :=
  match t.processor with
  | none => e.print t v
  | some name =>
    match Table.get? ps name with
    | none => do
      Act.report (Processor.unknown name)
      return .refused (.unknownProcessor name)
    | some p => do e.print t (← p v origin)

def resolveBy : Resolver (World σ) := fun t => do
  match Path.split (some ':') (some e.maxDepth) t.path with
  | .error f =>
    Act.report f.message
    return .refused (.nesting f)
  | .ok [] => return .refused .emptyPath
  | .ok (selector :: segments) =>
    match ← e.locate selector segments with
    | .error f => return .refused (.lookup f)
    | .ok v => e.finishBy ps t v (e.origin selector segments)

theorem get?_procedures (name : String) :
    Table.get? e.procedures name =
      (Table.get? e.processors name).map fun p v origin => p.run e.host v origin :=
  Table.get?_map (fun (p : Processor) v origin => p.run e.host v origin) e.processors name

theorem finish_eq_finishBy (selector : String) (segments : List String) (v : Value) :
    e.finish t selector segments v = e.finishBy e.procedures t v (e.origin selector segments) := by
  rw [finish, finishBy]
  cases t.processor with
  | none => rfl
  | some name =>
    have hp := e.get?_procedures name
    cases hg : Table.get? e.processors name with
    | none =>
      rw [hg] at hp
      simp only [hp, hg, Table.contains]
      rfl
    | some p =>
      rw [hg] at hp
      simp only [hp, hg, Table.contains, Processor.apply]
      rfl

theorem resolve_eq_resolveBy : e.resolve = e.resolveBy e.procedures := by
  funext t
  rw [resolve, resolveBy]
  cases Path.split (some ':') (some e.maxDepth) t.path with
  | error f => rfl
  | ok parts =>
    cases parts with
    | nil => rfl
    | cons selector segments =>
      refine congrArg (e.locate selector segments >>= ·) (funext fun found => ?_)
      cases found with
      | error f => rfl
      | ok v => exact e.finish_eq_finishBy t selector segments v

def beside (μ : Type) : Engine (σ × μ) := e.withHost (e.host.beside μ)

def recorded : Table (Procedure (σ × List Run)) := ps.map fun (name, p) => (name, p.recorded name)

def runs (w : World σ) : List Run :=
  (((e.beside (List Run)).resolveBy (recorded ps) t).final (w.beside [])).memory.2

theorem locate_beside {μ : Type} (m : μ) (selector : String) (segments : List String)
    (w : World σ) :
    (e.beside μ).locate selector segments (w.beside m) =
      Act.Beside m (e.locate selector segments w) := by
  have hm := locate_matches selector segments (e.host.mirrors_beside m)
  exact Act.Matches.beside
    (hm.mono fun _ _ => Act.Agree.eq fun _ _ => Sight.reveals_full_iff.1) w

theorem print_beside {μ : Type} (m : μ) (v : Value) (w : World σ) :
    (e.beside μ).print t v (w.beside m) = Act.Beside m (e.print t v w) := by
  have hm := v.format_matches (e.host.mirrors_beside m) (Sight.guards_full _) !t.raw
  rw [Sight.seen_full] at hm
  refine Act.Matches.beside (hm.bind ?_) w
  rintro s _ rfl
  exact .pure rfl

theorem print_success {v : Value} {w w' : World σ} {o : Outcome}
    (h : e.print t v w = .ok o w') : o.success = true := by
  have hy : Act.Yields (fun o : Outcome => o.success = true) (e.print t v) :=
    .bind fun s => .pure rfl
  exact hy w o w' h

variable (w : World σ)

structure Reaches (selector : String) (segments : List String) (v : Value) (w₁ : World σ) :
    Prop where
  split : Path.split (some ':') (some e.maxDepth) t.path = .ok (selector :: segments)
  locate : e.locate selector segments w = .ok (.ok v) w₁

/-- How a tag is resolved, by cases, and which post-processors run meanwhile. -/
inductive Ends : EStateM.Result Fault (World σ) Outcome → List Run → Prop
  | unsplit {f : Fault} : Path.split (some ':') (some e.maxDepth) t.path = .error f →
    Ends (.ok (.refused (.nesting f)) (Reports.note f.message w)) []
  | empty : Path.split (some ':') (some e.maxDepth) t.path = .ok [] →
    Ends (.ok (.refused .emptyPath) w) []
  | raised {selector : String} {segments : List String} {f : Fault} {w₁ : World σ} :
    Path.split (some ':') (some e.maxDepth) t.path = .ok (selector :: segments) →
    e.locate selector segments w = .error f w₁ → Ends (.error f w₁) []
  | astray {selector : String} {segments : List String} {f : LookupFailure} {w₁ : World σ} :
    Path.split (some ':') (some e.maxDepth) t.path = .ok (selector :: segments) →
    e.locate selector segments w = .ok (.error f) w₁ → Ends (.ok (.refused (.lookup f)) w₁) []
  | unknown {selector : String} {segments : List String} {v : Value} {w₁ : World σ}
      {name : String} : e.Reaches t w selector segments v w₁ → t.processor = some name →
    Table.get? ps name = none →
    Ends (.ok (.refused (.unknownProcessor name)) (Reports.note (Processor.unknown name) w₁)) []
  | unprocessed {selector : String} {segments : List String} {v : Value} {w₁ : World σ} :
    e.Reaches t w selector segments v w₁ → t.processor = none → Ends (e.print t v w₁) []
  | processed {selector : String} {segments : List String} {v : Value} {w₁ : World σ}
      {name : String} {p : Procedure σ} : e.Reaches t w selector segments v w₁ →
    t.processor = some name → Table.get? ps name = some p →
    Ends ((p v (e.origin selector segments) >>= e.print t) w₁)
      [⟨name, v, e.origin selector segments⟩]

theorem get?_recorded (name : String) :
    Table.get? (recorded ps) name = (Table.get? ps name).map (Procedure.recorded name) := by
  induction ps with
  | nil => rfl
  | cons entry ps ih =>
    obtain ⟨n, p⟩ := entry
    have hc : recorded ((n, p) :: ps) = (n, p.recorded n) :: recorded ps := rfl
    rw [hc, Table.get?, Table.get?]
    split
    · next hn => rw [hn, Option.map_some]
    · exact ih

theorem recorded_print (name : String) (p : Procedure σ) (v : Value) (origin : Origin) :
    (p.recorded name v origin >>= (e.beside (List Run)).print t) (w.beside []) =
      Act.Beside [⟨name, v, origin⟩] ((p v origin >>= e.print t) w) := by
  have hr : p.recorded name v origin (w.beside []) =
      Act.Beside [⟨name, v, origin⟩] (p v origin w) := rfl
  rw [Act.bind_apply, Act.bind_apply, hr]
  cases p v origin w with
  | ok u w₁ => exact e.print_beside t _ u w₁
  | error f w₁ => rfl

theorem finishBy_ends {selector : String} {segments : List String} {v : Value} {w₁ : World σ}
    (h : e.Reaches t w selector segments v w₁) :
    ∃ runs, e.Ends ps t w (e.finishBy ps t v (e.origin selector segments) w₁) runs ∧
      (e.beside (List Run)).finishBy (recorded ps) t v (e.origin selector segments)
          (w₁.beside []) =
        Act.Beside runs (e.finishBy ps t v (e.origin selector segments) w₁) := by
  rw [finishBy, finishBy]
  cases ht : t.processor with
  | none => exact ⟨[], .unprocessed h ht, e.print_beside t [] v w₁⟩
  | some name =>
    have hr := get?_recorded ps name
    cases hg : Table.get? ps name with
    | none =>
      rw [hg] at hr
      simp only [hr, hg]
      exact ⟨[], .unknown h ht hg, rfl⟩
    | some p =>
      rw [hg] at hr
      simp only [hr, hg]
      exact ⟨_, .processed h ht hg, e.recorded_print t w₁ name p v _⟩

theorem resolveBy_ends :
    ∃ runs, e.Ends ps t w (e.resolveBy ps t w) runs ∧
      (e.beside (List Run)).resolveBy (recorded ps) t (w.beside []) =
        Act.Beside runs (e.resolveBy ps t w) := by
  have hd : (e.beside (List Run)).maxDepth = e.maxDepth := rfl
  rw [resolveBy, resolveBy, hd]
  cases hs : Path.split (some ':') (some e.maxDepth) t.path with
  | error f => exact ⟨[], .unsplit hs, rfl⟩
  | ok parts =>
    cases parts with
    | nil => exact ⟨[], .empty hs, rfl⟩
    | cons selector segments =>
      have hb := e.locate_beside ([] : List Run) selector segments w
      simp only [Act.bind_apply, hb]
      cases hl : e.locate selector segments w with
      | error f w₁ => exact ⟨[], .raised hs hl, rfl⟩
      | ok found w₁ =>
        cases found with
        | error f => exact ⟨[], .astray hs hl, rfl⟩
        | ok v => exact e.finishBy_ends ps t w ⟨hs, hl⟩

theorem resolveBy_recorded :
    (e.beside (List Run)).resolveBy (recorded ps) t (w.beside []) =
      Act.Beside (e.runs ps t w) (e.resolveBy ps t w) ∧
    e.Ends ps t w (e.resolveBy ps t w) (e.runs ps t w) := by
  obtain ⟨runs, he, hr⟩ := e.resolveBy_ends ps t w
  have hruns : e.runs ps t w = runs := by
    rw [Engine.runs, Act.final, hr]
    cases e.resolveBy ps t w with
    | ok o w' => rfl
    | error f w' => rfl
  rw [hruns]
  exact ⟨hr, he⟩

variable {e ps t w}

theorem Reaches.unique {selector selector' : String} {segments segments' : List String}
    {v v' : Value} {w₁ w₁' : World σ} (h : e.Reaches t w selector segments v w₁)
    (h' : e.Reaches t w selector' segments' v' w₁') :
    selector' = selector ∧ segments' = segments ∧ v' = v ∧ w₁' = w₁ := by
  obtain ⟨hs, hl⟩ := h
  obtain ⟨hs', hl'⟩ := h'
  cases hs.symm.trans hs'
  cases hl.symm.trans hl'
  exact ⟨rfl, rfl, rfl, rfl⟩

variable (e ps t w)

def Astray : Prop := ∀ selector segments v w₁, ¬e.Reaches t w selector segments v w₁

def Ran (run : Run) : Prop :=
  ∃ selector segments w₁, e.Reaches t w selector segments run.value w₁ ∧
    t.processor = some run.name ∧ Table.contains ps run.name = true ∧
    run.origin = e.origin selector segments

def Succeeds : Prop :=
  ∃ selector segments v w₁, e.Reaches t w selector segments v w₁ ∧
    ∀ name, t.processor = some name → Table.contains ps name = true

def walked : World σ :=
  match Path.split (some ':') (some e.maxDepth) t.path with
  | .ok (selector :: segments) => (e.locate selector segments).final w
  | _ => w

structure Failed (o : Outcome) (w' : World σ) : Prop where
  text : o.text = ""
  error : ∃ reason, reason ≠ "" ∧ o.error = some reason
  context : w'.context = w.context
  memory : w'.memory = (e.walked t w).memory
  changes : w'.changes = (e.walked t w).changes

variable {e ps t w}

theorem astray_of_split {r : Except Fault (List String)}
    (hs : Path.split (some ':') (some e.maxDepth) t.path = r)
    (hr : ∀ selector segments, r ≠ .ok (selector :: segments)) : e.Astray t w :=
  fun _ _ _ _ h => hr _ _ (hs.symm.trans h.split)

theorem astray_of_locate {selector : String} {segments : List String}
    (hs : Path.split (some ':') (some e.maxDepth) t.path = .ok (selector :: segments))
    (hl : ∀ v w₁, e.locate selector segments w ≠ .ok (.ok v) w₁) : e.Astray t w := by
  intro _ _ v w₁ h
  cases hs.symm.trans h.split
  exact hl v w₁ h.locate

theorem walked_of_split {r : Except Fault (List String)}
    (hs : Path.split (some ':') (some e.maxDepth) t.path = r)
    (hr : ∀ selector segments, r ≠ .ok (selector :: segments)) : e.walked t w = w := by
  rw [walked, hs]
  cases r with
  | error f => rfl
  | ok parts =>
    cases parts with
    | nil => rfl
    | cons selector segments => exact absurd rfl (hr selector segments)

theorem walked_of_locate {selector : String} {segments : List String} {found : Found} {w₁ : World σ}
    (hs : Path.split (some ':') (some e.maxDepth) t.path = .ok (selector :: segments))
    (hl : e.locate selector segments w = .ok found w₁) : e.walked t w = w₁ := by
  rw [walked, hs]
  dsimp only
  rw [Act.final, hl]

theorem context_respected (host : Host σ) (c : Context) :
    host.Respects fun w w' => w = w' ∧ w.context = c := by
  refine host.respects_invariant (fun _ _ hw => hw) (fun change w hw => ?_) fun _ _ hw => hw
  rw [World.change]
  split
  · exact hw
  · exact hw

theorem final_context {act : Act (World σ) α} (c : Context)
    (h : act.Keeps fun w w' => w = w' ∧ w.context = c) (hw : w.context = c) :
    (act.final w).context = c := (h.final ⟨rfl, hw⟩).2

theorem locate_context (selector : String) (segments : List String) :
    ((e.locate selector segments).final w).context = w.context :=
  final_context _ (locate_keeps selector segments (context_respected e.host _)) rfl

theorem located_context {selector : String} {segments : List String} {found : Found}
    {w₁ : World σ} (hl : e.locate selector segments w = .ok found w₁) :
    w₁.context = w.context := by
  have hc := locate_context (e := e) (w := w) selector segments
  rwa [Act.final, hl] at hc

theorem print_keeps {R : World σ → World σ → Prop} (h : e.host.Respects R) (t : Tag) (v : Value) :
    (e.print t v).Keeps R := (v.format_keeps h _).bind fun _ => .pure _

namespace Ends

variable {r : EStateM.Result Fault (World σ) Outcome} {runs : List Run}

theorem none_ran (h : ∀ run, ¬e.Ran ps t w run) :
    ([] : List Run).length ≤ 1 ∧ ∀ run, [] = [run] ↔ e.Ran ps t w run :=
  ⟨Nat.zero_le 1, fun run => iff_of_false nofun (h run)⟩

theorem none_ran_of_astray (h : e.Astray t w) (run : Run) : ¬e.Ran ps t w run :=
  fun ⟨_, _, _, hr, _⟩ => h _ _ _ _ hr

theorem runs_spec (h : e.Ends ps t w r runs) :
    runs.length ≤ 1 ∧ ∀ run, runs = [run] ↔ e.Ran ps t w run := by
  cases h with
  | unsplit hs => exact none_ran (none_ran_of_astray (astray_of_split hs nofun))
  | empty hs => exact none_ran (none_ran_of_astray (astray_of_split hs nofun))
  | raised hs hl => exact none_ran (none_ran_of_astray (astray_of_locate hs (hl ▸ nofun)))
  | astray hs hl => exact none_ran (none_ran_of_astray (astray_of_locate hs (hl ▸ nofun)))
  | unknown _ ht hg =>
    refine none_ran fun run hran => ?_
    obtain ⟨_, _, _, _, ht', hc, -⟩ := hran
    cases ht.symm.trans ht'
    rw [Table.contains, hg] at hc
    cases hc
  | unprocessed _ ht =>
    refine none_ran fun run hran => ?_
    obtain ⟨_, _, _, _, ht', -⟩ := hran
    cases ht.symm.trans ht'
  | @processed selector segments v w₁ name p hr ht hg =>
    refine ⟨Nat.le_refl 1, fun run => ⟨?_, ?_⟩⟩
    · rintro ⟨⟩
      exact ⟨selector, segments, w₁, hr, ht, by rw [Table.contains, hg]; rfl, rfl⟩
    · rintro ⟨selector', segments', w₁', hr', ht', -, ho⟩
      obtain ⟨name', v', origin'⟩ := run
      obtain ⟨rfl, rfl, hv, rfl⟩ := hr.unique hr'
      cases ht.symm.trans ht'
      dsimp only at hv ho
      rw [hv, ho]

theorem refused_spec {refusal : Refusal} {u w' : World σ} (hm : refusal.message ≠ "")
    (hn : ¬e.Succeeds ps t w) (hu : e.walked t w = u) (hc : u.context = w.context)
    (hw : w'.context = u.context ∧ w'.memory = u.memory ∧ w'.changes = u.changes) :
    ((Outcome.refused refusal).success = true ↔ e.Succeeds ps t w) ∧
      ((Outcome.refused refusal).success = false →
        ([] : List Run) = [] ∧ e.Failed t w (.refused refusal) w') := by
  subst hu
  exact ⟨iff_of_false nofun hn,
    fun _ => ⟨rfl, rfl, ⟨_, hm, rfl⟩, hw.1.trans hc, hw.2.1, hw.2.2⟩⟩

theorem succeeded_spec {o : Outcome} {w' : World σ} (ho : o.success = true)
    (hs : e.Succeeds ps t w) :
    (o.success = true ↔ e.Succeeds ps t w) ∧
      (o.success = false → runs = [] ∧ e.Failed t w o w') :=
  ⟨iff_of_true ho hs, fun h => by cases ho.symm.trans h⟩

theorem not_succeeds_of_astray (h : e.Astray t w) : ¬e.Succeeds ps t w :=
  fun ⟨_, _, _, _, hr, _⟩ => h _ _ _ _ hr

theorem outcome_spec {o : Outcome} {w' : World σ} (h : e.Ends ps t w (.ok o w') runs) :
    (o.success = true ↔ e.Succeeds ps t w) ∧
      (o.success = false → runs = [] ∧ e.Failed t w o w') := by
  -- What printing and processing give is no constructor, so the result is named before the cases.
  generalize hr : EStateM.Result.ok o w' = r at h
  cases h with
  | @unsplit f hs =>
    cases hr
    obtain ⟨cap, rfl⟩ := Path.eq_nesting_of_split hs
    exact refused_spec (Fault.message_nesting_ne_empty cap _)
      (not_succeeds_of_astray (astray_of_split hs nofun)) (walked_of_split hs nofun) rfl
      ⟨rfl, rfl, rfl⟩
  | empty hs =>
    cases hr
    have hm : Refusal.emptyPath.message ≠ "" := by decide
    exact refused_spec hm (not_succeeds_of_astray (astray_of_split hs nofun))
      (walked_of_split hs nofun) rfl ⟨rfl, rfl, rfl⟩
  | raised hs hl => cases hr
  | @astray _ _ f w₁ hs hl =>
    cases hr
    exact refused_spec f.message_ne_empty
      (not_succeeds_of_astray (astray_of_locate hs (hl ▸ nofun))) (walked_of_locate hs hl)
      (located_context hl) ⟨rfl, rfl, rfl⟩
  | @unknown _ _ _ w₁ name h ht hg =>
    cases hr
    have hn : ¬e.Succeeds ps t w := by
      rintro ⟨_, _, _, _, -, hk⟩
      have hc := hk name ht
      rw [Table.contains, hg] at hc
      cases hc
    exact refused_spec (Processor.unknown_ne_empty name) hn (walked_of_locate h.split h.locate)
      (located_context h.locate) ⟨rfl, rfl, rfl⟩
  | unprocessed h ht =>
    have hs : e.Succeeds ps t w := by
      refine ⟨_, _, _, _, h, fun name ht' => ?_⟩
      cases ht.symm.trans ht'
    exact succeeded_spec (e.print_success t hr.symm) hs
  | @processed selector segments v w₁ name p h ht hg =>
    have hs : e.Succeeds ps t w := by
      refine ⟨_, _, _, _, h, fun name' ht' => ?_⟩
      cases ht.symm.trans ht'
      rw [Table.contains, hg]
      rfl
    have hy : Act.Yields (fun o : Outcome => o.success = true)
        (p v (e.origin selector segments) >>= e.print t) :=
      .bind fun u w o w' => e.print_success t
    exact succeeded_spec (hy _ _ _ hr.symm) hs

end Ends

theorem unset_returns (v : Value) (origin : Origin) (w : World σ) :
    (Processor.unset.run e.host v origin >>= e.print t).Returns w := by
  have hr : (Processor.removeEntry origin : Act (World σ) Unit).Returns w := by
    unfold Processor.removeEntry
    split
    · exact ⟨(), _, rfl⟩
    · exact Act.returns_pure () w
  obtain ⟨u, w₁, hr⟩ := hr
  exact Act.returns_bind.2
    ⟨.text "", w₁, by rw [Processor.run, Act.bind_apply, hr]; rfl, .done _, w₁, rfl⟩

theorem context_of_fault {f : Fault} {w' : World σ} (h : e.resolve t w = .error f w') :
    w'.context = w.context := by
  have hc := context_respected e.host w.context
  rw [resolve_eq_resolveBy] at h
  have he := (e.resolveBy_recorded e.procedures t w).2
  rw [h] at he
  generalize hr : EStateM.Result.error f w' = r at he
  generalize e.runs e.procedures t w = runs at he
  cases he with
  | unsplit | empty | astray | unknown => cases hr
  | @raised selector segments _ _ hs hl =>
    cases hr
    have hw := locate_context (e := e) (w := w) selector segments
    rwa [Act.final, hl] at hw
  | @unprocessed _ _ v w₁ h ht =>
    have hw := final_context _ (print_keeps hc t v) (located_context h.locate)
    rwa [Act.final, ← hr] at hw
  | @processed selector segments v w₁ name p h ht hg =>
    rw [get?_procedures, Option.map_eq_some_iff] at hg
    obtain ⟨q, hq, rfl⟩ := hg
    -- Only `unset` writes to the context, and nothing can be raised after it.
    by_cases hu : q = .unset
    · subst hu
      obtain ⟨o, w₂, ho⟩ := unset_returns (e := e) (t := t) v (e.origin selector segments) w₁
      cases hr.trans ho
    · have hk := Processor.apply_keeps hc e.processors (some name) v (e.origin selector segments)
        fun hp => absurd (Option.some.inj (hq.symm.trans hp)) hu
      rw [Processor.apply, hq] at hk
      have hw := final_context _ (hk.bind (print_keeps hc t)) (located_context h.locate)
      rwa [Act.final, ← hr] at hw

/-- Whatever the post-processors, at most one runs for a tag, and one does if the path leads to a
value and a name of the table is given: the one of that name, on that value. A tag that is resolved
succeeds if a value is found and no name is given but one of the table. If it fails, nothing is left
in its place, no post-processor has run, and there is nothing new but what the calls of the walk
have done. With the post-processors of an engine this is how it resolves tags, and then a fault
leaves the context as it was, too. -/
theorem resolveBy_processes (e : Engine σ) (ps : Table (Procedure σ)) (t : Tag) (w : World σ) :
    (e.beside (List Run)).resolveBy (recorded ps) t (w.beside []) =
      Act.Beside (e.runs ps t w) (e.resolveBy ps t w) ∧
    (e.runs ps t w).length ≤ 1 ∧
    (∀ run, e.runs ps t w = [run] ↔ ∃ selector segments w₁,
      Path.split (some ':') (some e.maxDepth) t.path = .ok (selector :: segments) ∧
        e.locate selector segments w = .ok (.ok run.value) w₁ ∧
        t.processor = some run.name ∧ Table.contains ps run.name = true ∧
        run.origin = e.origin selector segments) ∧
    (∀ o w', e.resolveBy ps t w = .ok o w' →
      (o.success = true ↔ ∃ selector segments v w₁,
        Path.split (some ':') (some e.maxDepth) t.path = .ok (selector :: segments) ∧
          e.locate selector segments w = .ok (.ok v) w₁ ∧
          ∀ name, t.processor = some name → Table.contains ps name = true) ∧
      (o.success = false → e.runs ps t w = [] ∧ e.Failed t w o w')) ∧
    e.resolve = e.resolveBy e.procedures ∧
    ∀ f w', e.resolve t w = .error f w' → w'.context = w.context := by
  obtain ⟨hr, he⟩ := e.resolveBy_recorded ps t w
  obtain ⟨hl, hruns⟩ := he.runs_spec
  refine ⟨hr, hl, fun run => (hruns run).trans ?_, fun o w' ho => ?_, e.resolve_eq_resolveBy,
    fun f w' => context_of_fault⟩
  · constructor
    · rintro ⟨selector, segments, w₁, h, hk⟩
      exact ⟨selector, segments, w₁, h.split, h.locate, hk⟩
    · rintro ⟨selector, segments, w₁, hs, hl, hk⟩
      exact ⟨selector, segments, w₁, ⟨hs, hl⟩, hk⟩
  · rw [ho] at he
    refine ⟨he.outcome_spec.1.trans ?_, he.outcome_spec.2⟩
    constructor
    · rintro ⟨selector, segments, v, w₁, h, hk⟩
      exact ⟨selector, segments, v, w₁, h.split, h.locate, hk⟩
    · rintro ⟨selector, segments, v, w₁, hs, hl, hk⟩
      exact ⟨selector, segments, v, w₁, ⟨hs, hl⟩, hk⟩

end Engine

end Inlay
