import Inlay.Lookup
import Inlay.Proofs.Sight.Call

/-! Lookups: a key selects in what is seen of a value what is seen of its choice in the value. -/

namespace Inlay.Value

variable {σ τ : Type} {s : Sight} {R : World σ → World τ → Prop} {host : Host σ} {host' : Host τ}

theorem entry?_seen {p : Value → Bool} (hp : ∀ v : Value, p (v.seen s) = p v)
    (entries : List (Value × Value)) :
    entry? p (seenEntries s entries) = ( entry? p entries).map (seen s) := by
  induction entries with
  | nil => rfl
  | cons e rest ih =>
    obtain ⟨key, v⟩ := e
    rw [seenEntries, entry?, entry?, hp, ih]
    split <;> rfl

theorem mem_of_entry? {p : Value → Bool} {entries : List (Value × Value)} {v : Value}
    (h : entry? p entries = some v) : ∃ key, (key, v) ∈ entries := by
  induction entries with
  | nil => cases h
  | cons e rest ih =>
    obtain ⟨key, w⟩ := e
    rw [ entry?] at h
    split at h
    · cases h
      exact ⟨key, List.mem_cons_self⟩
    · obtain ⟨k, hk⟩ := ih h
      exact ⟨k, List.mem_cons_of_mem _ hk⟩

theorem mappingEntry?_seen (entries : List (Value × Value)) (key : String) :
    mappingEntry? (seenEntries s entries) key =
      (Option.map (seen s)) <$> mappingEntry? entries key := by
  rw [ mappingEntry?, mappingEntry?, entry?_seen (isText_seen key)]
  cases entry? (isText key) entries with
  | some v => rfl
  | none =>
    cases index? key with
    | error f => rfl
    | ok found =>
      cases found with
      | none => rfl
      | some n =>
        exact congrArg Except.ok (entry?_seen (fun v => by rw [integral?_seen]) entries)

theorem mem_of_mappingEntry? {entries : List (Value × Value)} {key : String} {w : Value}
    (h : mappingEntry? entries key = .ok (some w)) : ∃ k, (k, w) ∈ entries := by
  rw [ mappingEntry?] at h
  cases he : entry? (isText key) entries with
  | some v =>
    rw [he] at h
    cases h
    exact mem_of_entry? he
  | none =>
    rw [he] at h
    cases hi : index? key with
    | error f =>
      rw [hi] at h
      cases h
    | ok found =>
      rw [hi] at h
      cases found with
      | none => cases h
      | some n => exact mem_of_entry? (Except.ok.inj h)

theorem element?_seen (items : List Value) (key : String) :
    element? (items.map (seen s)) key = (Option.map (seen s)) <$> element? items key := by
  rw [element?, element?]
  cases index? key with
  | error f => rfl
  | ok found =>
    cases found with
    | none => rfl
    | some n => exact congrArg Except.ok List.getElem?_map

theorem mem_of_element? {items : List Value} {key : String} {w : Value}
    (h : element? items key = .ok (some w)) : w ∈ items := by
  rw [element?] at h
  cases hi : index? key with
  | error f =>
    rw [hi] at h
    cases h
  | ok found =>
    rw [hi] at h
    cases found with
    | none => cases h
    | some n => exact List.mem_of_getElem? (Except.ok.inj h)

theorem rangeElement?_eq (r : Range) (key : String) :
    ∃ e : Except Fault (Option Int), rangeElement? r key = (Option.map .int) <$> e := by
  rw [rangeElement?]
  cases index? key with
  | error f => exact ⟨.error f, rfl⟩
  | ok found =>
    cases found with
    | none => exact ⟨.ok none, rfl⟩
    | some n =>
      cases rangeLength r with
      | error f => exact ⟨.error f, rfl⟩
      | ok length =>
        refine ⟨.ok (if n < length then some (r.nth n) else none), ?_⟩
        change Except.ok (if n < length then some (int (r.nth n)) else none) =
          Except.ok (Option.map _ _)
        by_cases hn : n < length
        · rw [if_pos hn, if_pos hn, Option.map_some]
        · rw [if_neg hn, if_neg hn, Option.map_none]

theorem present?_map_seen (e : Except Fault (Option Value)) :
    present? <$> (Option.map (seen s)) <$> e = (Option.map (seen s)) <$> present? <$> e := by
  cases e with
  | error f => rfl
  | ok found => exact congrArg Except.ok (present?_seen found)

theorem eq_ok_of_present? {e : Except Fault (Option Value)} {w : Value}
    (h : present? <$> e = .ok (some w)) : e = .ok (some w) := by
  cases e with
  | error f => cases h
  | ok found => exact congrArg Except.ok (eq_some_of_present? (Except.ok.inj h))

theorem entryAt?_seen (v : Value) (key : String) :
    (v.seen s).entryAt? key = (Option.map (seen s)) <$> v.entryAt? key := by
  cases v with
  | list items | tuple items =>
    rw [seen, entryAt?, entryAt?, seenItems_eq_map, element?_seen, present?_map_seen]
  | mapping form entries => rw [seen, entryAt?, entryAt?, mappingEntry?_seen, present?_map_seen]
  | range r =>
    obtain ⟨e, he⟩ := rangeElement?_eq r key
    change rangeElement? r key = (Option.map (seen s)) <$> rangeElement? r key
    rw [he]
    cases e with
    | error f => rfl
    | ok found => cases found <;> rfl
  | _ => rfl

theorem guards_entryAt? {v w : Value} {key : String} (h : s.Guards v)
    (hw : v.entryAt? key = .ok (some w)) : s.Guards w := by
  cases v with
  | list | tuple => exact h.constituent (mem_of_element? (eq_ok_of_present? hw))
  | mapping form entries =>
    obtain ⟨k, hk⟩ := mem_of_mappingEntry? (eq_ok_of_present? hw)
    exact (Sight.Guards.mapping_iff.1 h _ hk).2
  | range r =>
    obtain ⟨e, he⟩ := rangeElement?_eq r key
    change rangeElement? r key = _ at hw
    rw [he] at hw
    cases e with
    | error f => cases hw
    | ok found =>
      obtain ⟨n, -, rfl⟩ := Option.map_eq_some_iff.1 (Except.ok.inj hw)
      exact .atom trivial rfl
  | _ => cases hw

theorem lookup_matches (h : host.Mirrors host' s R) {v : Value} (hv : s.Guards (v.seen s))
    (key : String) :
    Act.Matches R (Option.Rel s.Reveals) (v.lookup host key) ((v.seen s).lookup host' key) := by
  refine .bindSame (classify_seen v) fun kind _ => .ite (fun _ => ?_) fun _ => ?_
  · have hk : ∀ w ∈ [Value.text key], s.Guards (w.seen s) :=
      List.forall_mem_singleton.2 (Sight.Reveals.text key).guarded
    have ha : Act.Matches R s.Reveals (v.ask host .property [.text key])
        ((v.seen s).ask host' .property [.text key]) := ask_matches h (by decide) hv hk
    refine ha.bind ?_
    rintro w _ ⟨rfl, hw⟩
    refine .pure ?_
    rw [← Option.map_some, present?_seen]
    refine Sight.reveals_option fun u hu => ?_
    rw [← Option.some.inj (eq_some_of_present? hu)]
    exact hw
  · refine .ofExcept (entryAt?_seen v key) fun found hf => Sight.reveals_option ?_
    rintro w rfl
    have hw : (v.seen s).entryAt? key = .ok (some (w.seen s)) := by
      rw [entryAt?_seen, hf]
      rfl
    exact guards_entryAt? hv hw

end Inlay.Value
