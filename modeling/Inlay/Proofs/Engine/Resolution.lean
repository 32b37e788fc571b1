import Inlay.Engine
import Inlay.Proofs.World.Respect

/-! How an engine resolves a tag, by cases: the processor of a value that was found is known or it
is not. Engines whose hosts mirror each other come to the same ends. -/

namespace Inlay.Engine

variable {σ τ : Type} (e : Engine σ) (t : Tag) (selector : String) (segments : List String)
  (v : Value)

def origin : Origin := ⟨Source.ofSelector selector, segments, e.indent⟩

def write (origin : Origin) : Act (World σ) Outcome := do
  let w ← Processor.apply e.host e.processors t.processor v origin
  return .done (← w.format e.host !t.raw)

def unknown? : Option String := t.processor.filter fun name => !Table.contains e.processors name

theorem finish_eq : e.finish t selector segments v =
    match e.unknown? t with
    | some name => do
      Act.report (Processor.unknown name)
      return .refused (.unknownProcessor name)
    | none => e.write t v (e.origin selector segments) := by
  rw [finish, unknown?, write]
  cases t.processor with
  | none => rfl
  | some name =>
    cases hn : Table.contains e.processors name with
    | false => simp only [Option.filter, hn]; rfl
    | true => simp only [Option.filter, hn]; rfl

def withHost (host : Host τ) : Engine τ := ⟨host, e.processors, e.maxDepth, e.indent⟩

section

variable {e} {s : Sight} {R : World σ → World τ → Prop} {host' : Host τ}

theorem locate_matches (h : e.host.Mirrors host' s R) :
    Act.Matches R (Act.Agree s.Reveals) (e.locate selector segments)
      ((e.withHost host').locate selector segments) := by
  refine .get fun w w' hw => ?_
  obtain ⟨he, hg⟩ := h.select hw selector
  rw [he] at hg ⊢
  exact Walk.walk_matches h hg _

theorem write_matches (h : e.host.Mirrors host' s R) {v : Value}
    (hv : s.Guards (v.seen s)) (origin : Origin)
    (hu : t.processor.bind (Table.get? e.processors) = some .unset →
      Act.Matches R Eq (Processor.removeEntry origin) (Processor.removeEntry origin)) :
    Act.Matches R Eq (e.write t v origin) ((e.withHost host').write t (v.seen s) origin) := by
  refine (Processor.apply_matches h _ _ hv origin hu).bind ?_
  rintro w _ ⟨rfl, hw⟩
  refine (Value.format_matches h hw _).bind ?_
  rintro text _ rfl
  exact .pure rfl

theorem finish_matches (h : e.host.Mirrors host' s R) {v : Value}
    (hv : s.Guards (v.seen s))
    (hu : t.processor.bind (Table.get? e.processors) = some .unset →
      ∀ origin, Act.Matches R Eq (Processor.removeEntry origin) (Processor.removeEntry origin)) :
    Act.Matches R Eq (e.finish t selector segments v)
      ((e.withHost host').finish t selector segments (v.seen s)) := by
  have hn : (e.withHost host').unknown? t = e.unknown? t := rfl
  rw [finish_eq, finish_eq, hn]
  cases e.unknown? t with
  | some name => exact (h.report _).bind fun _ _ _ => .pure rfl
  | none => exact write_matches t h hv _ fun hp => hu hp _

/-- To resolve a tag comes to the same outcome or to the same fault, if to unset an entry keeps
worlds related or the tag does not unset any. -/
theorem resolve_matches (h : e.host.Mirrors host' s R)
    (hu : t.processor.bind (Table.get? e.processors) = some .unset →
      ∀ origin, Act.Matches R Eq (Processor.removeEntry origin) (Processor.removeEntry origin)) :
    Act.Matches R Eq (e.resolve t) ((e.withHost host').resolve t) := by
  have hd : (e.withHost host').maxDepth = e.maxDepth := rfl
  rw [resolve, resolve, hd]
  cases Path.split (some ':') (some e.maxDepth) t.path with
  | error f => exact (h.report _).bind fun _ _ _ => .pure rfl
  | ok parts =>
    cases parts with
    | nil => exact .pure rfl
    | cons selector segments =>
      refine (locate_matches selector segments h).bind fun found found' hf => ?_
      cases hf with
      | error f => exact .pure rfl
      | ok hv =>
        obtain ⟨rfl, hv⟩ := hv
        exact finish_matches t selector segments h hv hu

end

variable {e} {R : World σ → World σ → Prop}

theorem locate_keeps (h : e.host.Respects R) : (e.locate selector segments).Keeps R :=
  ((locate_matches selector segments h.mirrors).mono fun _ _ =>
    Act.Agree.eq fun _ _ => Sight.reveals_full_iff.1).keeps

theorem resolve_keeps (h : e.host.Respects R)
    (hu : t.processor.bind (Table.get? e.processors) = some .unset →
      ∀ origin, (Processor.removeEntry origin : Act (World σ) Unit).Keeps R) :
    (e.resolve t).Keeps R :=
  (resolve_matches t h.mirrors fun hp origin => (hu hp origin).matches).keeps

end Inlay.Engine
