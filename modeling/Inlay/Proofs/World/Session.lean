import Inlay.Proofs.Act
import Inlay.Proofs.Table
import Inlay.Walk

/-! The session of a world: its entries as they have become, which of them a path segment leads to,
and the session without some of them. -/

namespace Inlay

def Context.without (keys : List String) (c : Context) : Context :=
  { c with stores.session := c.stores.session.filter fun entry => entry.1 ∉ keys }

/-- No entry of the session is the marker of absence. -/
def Context.Present (c : Context) : Prop := ∀ entry ∈ c.stores.session, entry.2 ≠ .missing

namespace Context

theorem Present.without {c : Context} (h : c.Present) (keys : List String) :
    (c.without keys).Present :=
  fun entry he => h entry ((List.mem_filter.1 he).1)

theorem without_nil (c : Context) : c.without [] = c := by
  rw [without, List.filter_eq_self.2 (by simp)]

theorem without_append (keys more : List String) (c : Context) :
    (c.without keys).without more = c.without (keys ++ more) := by
  simp only [without, List.filter_filter, List.mem_append, not_or, Bool.decide_and,
    Bool.and_comm]

theorem unset_eq (c : Context) (name : String) : (c.unset name).2 = c.without [name] := by
  simp [unset, without, Table.erase]

theorem without_of_absent {c : Context} {name : String}
    (h : Table.contains c.stores.session name = false) : c.without [name] = c := by
  rw [← unset_eq, unset]
  simp only [Table.contains, Option.isSome_eq_false_iff, Option.isNone_iff_eq_none] at h
  rw [Table.erase_of_absent h]

end Context

namespace Value

theorem after_ofTable (c : Change) (t : Table Value) :
    (ofTable t).after c = ofTable (t.map fun (name, v) => (name, v.after c)) := by
  rw [ofTable, after, ofTable]
  congr 1
  induction t with
  | nil => rfl
  | cons entry rest ih => simp only [List.map_cons, entriesAfter, ih, after]

theorem after_eq_missing {c : Change} {v : Value} (h : v.after c = .missing) : v = .missing := by
  cases v <;> simp_all [after]

theorem entry?_ofTable (t : Table Value) (key : String) :
    entry? (isText key) (t.map fun (name, v) => (.text name, v)) = Table.get? t key := by
  induction t with
  | nil => rfl
  | cons entry rest ih =>
    obtain ⟨n, v⟩ := entry
    by_cases h : n = key <;> simp [isText, entry?, Table.get?, h, ih]

theorem entry?_integral_ofTable (t : Table Value) (n : Int) :
    entry? (·.integral? = some n) (t.map fun (name, v) => (.text name, v)) = none := by
  induction t with
  | nil => rfl
  | cons entry rest ih => exact ih

theorem present?_of_ne {v : Value} (h : v ≠ .missing) : present? (some v) = some v := by
  cases v <;> first | rfl | exact absurd rfl h

theorem entryAt?_of_get? {t : Table Value} {key : String} {v : Value}
    (h : Table.get? t key = some v) (hv : v ≠ .missing) :
    (ofTable t).entryAt? key = .ok (some v) := by
  rw [ofTable, entryAt?, mappingEntry?, entry?_ofTable, h]
  exact congrArg Except.ok (present?_of_ne hv)

theorem entryAt?_of_absent {t : Table Value} {key : String} (h : Table.get? t key = none)
    (v : Value) : (ofTable t).entryAt? key ≠ .ok (some v) := by
  rw [ofTable, entryAt?, mappingEntry?, entry?_ofTable, h]
  cases index? key with
  | error f => nofun
  | ok n =>
    cases n with
    | none => nofun
    | some n =>
      have hn := entry?_integral_ofTable t n
      change present? <$> Except.ok ( entry? _ _) ≠ _
      rw [hn]
      nofun

end Value

namespace Walk

variable {σ : Type} (host : Host σ)

theorem walk_one (v : Value) (a : Accessor) : walk host v [a] = step host v a := by
  rw [walk]
  refine Eq.trans (congrArg (step host v a >>= ·) (funext fun found => ?_)) (bind_pure _)
  cases found with
  | ok w => rfl
  | error f => rfl

theorem step_ofTable {t : Table Value} (ht : ∀ entry ∈ t, entry.2 ≠ .missing) (a : Accessor)
    (w : World σ) :
    (∃ v w', step host (.ofTable t) a w = .ok (.ok v) w') ↔
      ∃ key, a = .key key ∧ Table.contains t key = true := by
  cases a with
  | call name raw =>
    constructor
    · rintro ⟨v, w', hs⟩
      cases hs
    · rintro ⟨key, hk, -⟩
      cases hk
  | key key =>
    have hl : (Value.ofTable t).lookup host key =
        Act.ofExcept ((Value.ofTable t).entryAt? key) := rfl
    rw [step, lookupKey, hl]
    cases hg : Table.get? t key with
    | some v =>
      have he := Value.entryAt?_of_get? hg (ht _ (Table.get?_mem hg))
      rw [he]
      exact ⟨fun _ => ⟨key, rfl, by rw [Table.contains, hg]; rfl⟩, fun _ => ⟨v, w, rfl⟩⟩
    | none =>
      have he := Value.entryAt?_of_absent hg
      constructor
      · rintro ⟨v, w', hs⟩
        generalize (Value.ofTable t).entryAt? key = r at he hs
        rcases r with f | _ | u
        · cases hs
        · cases hs
        · exact absurd rfl (he u)
      · rintro ⟨_, ⟨⟩, hc⟩
        rw [Table.contains, hg] at hc
        cases hc

end Walk

namespace World

variable {σ : Type}

def without (keys : List String) (w : World σ) : World σ :=
  { w with context := w.context.without keys }

theorem without_nil (w : World σ) : w.without [] = w := by
  rw [without, Context.without_nil]

theorem without_append (keys more : List String) (w : World σ) :
    (w.without keys).without more = w.without (keys ++ more) :=
  congrArg (fun c => { w with context := c }) (Context.without_append keys more w.context)

theorem without_of_absent {w : World σ} {name : String}
    (h : Table.contains w.context.stores.session name = false) : w.without [name] = w := by
  rw [without, Context.without_of_absent h]

theorem current_ofTable (w : World σ) (t : Table Value) :
    w.current (.ofTable t) = .ofTable (t.map fun (name, v) => (name, w.current v)) := by
  unfold current
  generalize w.changes = cs
  induction cs generalizing t with
  | nil => simp
  | cons c cs ih => simp [Value.after_ofTable, ih, Function.comp_def]

theorem current_ne_missing (w : World σ) {v : Value} (h : v ≠ .missing) :
    w.current v ≠ .missing := by
  unfold current
  generalize w.changes = cs
  induction cs generalizing v with
  | nil => exact h
  | cons c cs ih => exact ih fun hc => h (Value.after_eq_missing hc)

theorem step_session (host : Host σ) {w : World σ} (hw : w.context.Present) (a : Accessor)
    (w' : World σ) :
    (∃ v w'', Walk.step host (w.select "session") a w' = .ok (.ok v) w'') ↔
      ∃ key, a = .key key ∧ Table.contains w.context.stores.session key = true := by
  have hs : w.select "session" =
      .ofTable (w.context.stores.session.map fun (name, v) => (name, w.current v)) :=
    w.current_ofTable _
  have hp : ∀ entry ∈ w.context.stores.session.map fun (name, v) => (name, w.current v),
      entry.2 ≠ .missing := by
    intro entry he
    obtain ⟨⟨name, v⟩, hm, rfl⟩ := List.mem_map.1 he
    exact w.current_ne_missing (hw _ hm)
  rw [hs, Walk.step_ofTable host hp]
  simp only [Table.contains, Table.get?_map, Option.isSome_map]

end World

end Inlay
