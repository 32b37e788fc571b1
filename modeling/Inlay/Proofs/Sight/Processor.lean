import Inlay.Processor
import Inlay.Proofs.Sight.Dump
import Inlay.Proofs.Sight.Json

/-! Processors and texts: a value and what is seen of it are processed alike and have the same text
in a page. -/

namespace Inlay

variable {σ τ : Type} {s : Sight} {R : World σ → World τ → Prop} {host : Host σ} {host' : Host τ}

namespace Value

def checkedDisplay (v : Value) : Except Fault String := do
  v.checkClass
  v.display

@[simp] theorem numberText_seen (v : Value) : (v.seen s).numberText = v.numberText := by
  have h : (v.seen s).checkedDisplay = v.checkedDisplay := by
    rw [checkedDisplay, checkedDisplay, checkClass_seen, display_seen]
  cases v with
  | int | float => rfl
  | _ => exact h

theorem render_matches (h : host.Mirrors host' s R) {v : Value} (hv : s.Guards (v.seen s)) :
    Act.Matches R Eq (v.render host) ((v.seen s).render host') := by
  have hd : Act.Matches R Eq
      (do if (← Act.ofExcept v.classify) = .other then Act.ofExcept v.display else v.dump host)
      (do
        if (← Act.ofExcept (v.seen s).classify) = .other then Act.ofExcept (v.seen s).display
        else (v.seen s).dump host') :=
    .bindSame (classify_seen v) fun _ _ => .ite
      (fun _ => .ofSame (display_seen v) fun _ _ => rfl) fun _ => dump_matches h hv
  have hn : Act.Matches R Eq (Act.ofExcept v.numberText) (Act.ofExcept (v.seen s).numberText) :=
    .ofSame (numberText_seen v) fun _ _ => rfl
  cases v with
  | null | bool | text => exact .pure rfl
  | int | float => exact hn
  | _ => exact hd

theorem format_matches (h : host.Mirrors host' s R) {v : Value} (hv : s.Guards (v.seen s))
    (sanitize : Bool) :
    Act.Matches R Eq (v.format host sanitize) ((v.seen s).format host' sanitize) :=
  (render_matches h hv).map fun _ _ he => by rw [he]

end Value

namespace Processor

theorem encodeWithin_matches (h : host.Mirrors host' s R) (room : Nat) (indent : Option Int)
    {v : Value} (hv : s.Guards (v.seen s)) :
    Act.Matches R s.Reveals (encodeWithin host room indent v)
      (encodeWithin host' room indent (v.seen s)) := by
  refine (Json.encode_matches h room indent hv).observe.bind fun encoded encoded' he => ?_
  cases he with
  | ok he =>
    subst he
    exact .pure (.text _)
  | error f =>
    exact .ite (fun _ => (h.report _).bind fun _ _ _ => .pure (.text "")) fun _ => .throw f

theorem countOf_matches (h : host.Mirrors host' s R) {v : Value} (hv : s.Guards (v.seen s)) :
    Act.Matches R s.Reveals (countOf host v) (countOf host' (v.seen s)) := by
  have hsize : Act.Matches R s.Reveals (do return .int (← Act.ofExcept v.size))
      (do return .int (← Act.ofExcept (v.seen s).size)) :=
    .bindSame (Value.size_seen v) fun n _ => .pure (.int n)
  have hask : ∀ m ∈ Member.common, Act.Matches R s.Reveals (v.ask host m [])
      ((v.seen s).ask host' m []) := fun m hm => Value.ask_matches h hm hv (List.forall_mem_nil _)
  refine .bindSame (Value.classify_seen v) fun kind _ => ?_
  cases kind with
  | sequence => exact hsize
  | mapping => exact hsize
  | object =>
    refine (hask .countable (by decide)).bind ?_
    rintro countable _ ⟨rfl, -⟩
    exact .bindSame (Value.truth_seen countable) fun b _ =>
      .ite (fun _ => hask .count (by decide)) fun _ => .pure (.text "")
  | _ => exact .pure (.text "")

theorem ofText_seen (f : String → Value) (v : Value) : ofText f (v.seen s) = ofText f v := by
  have hc := Value.classify_seen (s := s) v
  have he : ((v.seen s).classify >>= fun _ => pure (.text "") : Except Fault Value) =
      v.classify >>= fun _ => pure (.text "") := by rw [hc]
  cases v with
  | text => rfl
  | _ => exact he

theorem ofText_matches {f : String → Value} (hf : ∀ t, s.Reveals (f t) (f t)) (v : Value) :
    Act.Matches R s.Reveals (Act.ofExcept (ofText f v)) (Act.ofExcept (ofText f (v.seen s))) := by
  refine .ofSame (ofText_seen f v) fun w hw => ?_
  rw [ofText.eq_def] at hw
  cases hc : v.classify with
  | error g =>
    rw [hc] at hw
    cases hw
  | ok kind =>
    rw [hc] at hw
    cases v with
    | text t =>
      cases hw
      exact hf t
    | _ =>
      cases hw
      exact .text ""

theorem run_matches (h : host.Mirrors host' s R) {v : Value} (hv : s.Guards (v.seen s))
    (origin : Origin) (p : Processor)
    (hu : p = .unset → Act.Matches R Eq (removeEntry origin) (removeEntry origin)) :
    Act.Matches R s.Reveals (p.run host v origin) (p.run host' (v.seen s) origin) := by
  cases p with
  | json => exact encodeWithin_matches h _ none hv
  | indentedJson => exact encodeWithin_matches h _ _ hv
  | length => exact ofText_matches (fun _ => .int _) v
  | count => exact countOf_matches h hv
  | upper => exact ofText_matches (fun _ => .text _) v
  | lower => exact ofText_matches (fun _ => .text _) v
  | unset => exact (hu rfl).bind fun _ _ _ => .pure (.text "")
  | hosted c => exact c.invoke_matches h [v] (List.forall_mem_singleton.2 hv)

theorem apply_matches (h : host.Mirrors host' s R) (table : Table Processor)
    (name : Option String) {v : Value} (hv : s.Guards (v.seen s)) (origin : Origin)
    (hu : name.bind (Table.get? table) = some .unset →
      Act.Matches R Eq (removeEntry origin) (removeEntry origin)) :
    Act.Matches R s.Reveals (apply host table name v origin)
      (apply host' table name (v.seen s) origin) := by
  cases name with
  | none => exact .pure ⟨rfl, hv⟩
  | some n =>
    rw [apply, apply]
    cases hn : Table.get? table n with
    | none => exact (h.report _).bind fun _ _ _ => .pure (.text "")
    | some p => exact run_matches h hv origin p fun hp => hu (by rw [Option.bind_some, hn, hp])

end Processor

end Inlay
