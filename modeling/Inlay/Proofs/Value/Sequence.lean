import Inlay.Host.Recipe
import Inlay.Processor
import Inlay.Proofs.Except
import Inlay.Proofs.World.Session
import Mathlib.Data.Nat.Basic
import Mathlib.Order.Basic

/-! Sequences and the keys into them: a key selects an element if and only if it spells a number
below the count of elements. -/

namespace Inlay

/-! Numbers as they are spelled. -/

namespace Text

/-- Decimal digits of any scripts spell a number. Zeros may lead. -/
inductive Spells : List Char → Nat → Prop
  | digit {c : Char} {d : Nat} : digit? c = some d → Spells [c] d
  | append {cs : List Char} {c : Char} {n d : Nat} : Spells cs n → digit? c = some d →
    Spells (cs ++ [c]) (10 * n + d)

theorem mapM_digit?_concat {cs : List Char} {c : Char} {digits : List Nat} :
    (cs ++ [c]).mapM digit? = some digits ↔
      ∃ ds d, cs.mapM digit? = some ds ∧ digit? c = some d ∧ digits = ds ++ [d] := by
  rw [List.mapM_append, List.mapM_cons, List.mapM_nil]
  cases cs.mapM digit? with
  | none => simp
  | some ds =>
    cases digit? c with
    | none => simp
    | some d => simp [eq_comm]

theorem length_of_mapM_digit? {cs : List Char} {digits : List Nat}
    (h : cs.mapM digit? = some digits) : digits.length = cs.length := by
  induction cs using List.reverseRecOn generalizing digits with
  | nil => cases h; rfl
  | append_singleton cs c ih =>
    obtain ⟨ds, d, hds, -, rfl⟩ := mapM_digit?_concat.1 h
    rw [List.length_append, List.length_append, ih hds, List.length_singleton,
      List.length_singleton]

theorem digits?_of_ne_nil {cs : List Char} (h : cs ≠ []) : digits? cs = cs.mapM digit? :=
  if_neg (by rwa [List.isEmpty_iff])

theorem length_of_digits? {cs : List Char} {digits : List Nat} (h : digits? cs = some digits) :
    digits.length = cs.length := by
  by_cases hn : cs = []
  · rw [hn] at h
    cases h
  · exact length_of_mapM_digit? (digits?_of_ne_nil hn ▸ h)

theorem Spells.ne_nil {cs : List Char} {n : Nat} (h : Spells cs n) : cs ≠ [] := by
  cases h with
  | digit => exact List.cons_ne_nil _ _
  | append => exact List.append_ne_nil_of_right_ne_nil _ (List.cons_ne_nil _ _)

theorem spells_iff {cs : List Char} {n : Nat} :
    Spells cs n ↔ ∃ digits, digits? cs = some digits ∧ Number.ofDigits digits = n := by
  constructor
  · intro h
    rw [digits?_of_ne_nil h.ne_nil]
    induction h with
    | @digit c d hd => exact ⟨[d], by rw [List.mapM_cons, hd]; rfl, by simp [Number.ofDigits]⟩
    | @append cs c n d _ hd ih =>
      obtain ⟨ds, hds, rfl⟩ := ih
      refine ⟨ds ++ [d], mapM_digit?_concat.2 ⟨ds, d, hds, hd, rfl⟩, ?_⟩
      simp [Number.ofDigits, Nat.mul_comm]
  · rintro ⟨digits, h, rfl⟩
    induction cs using List.reverseRecOn generalizing digits with
    | nil => cases h
    | append_singleton cs c ih =>
      rw [digits?_of_ne_nil (by simp), mapM_digit?_concat] at h
      obtain ⟨ds, d, hds, hd, rfl⟩ := h
      by_cases hn : cs = []
      · subst hn
        cases hds
        simpa [Number.ofDigits] using Spells.digit hd
      · rw [← digits?_of_ne_nil hn] at hds
        simpa [Number.ofDigits, Nat.mul_comm] using (ih ds hds).append hd

theorem Spells.unique {cs : List Char} {n m : Nat} (hn : Spells cs n) (hm : Spells cs m) :
    n = m := by
  obtain ⟨digits, hd, rfl⟩ := spells_iff.1 hn
  obtain ⟨_, hd', rfl⟩ := spells_iff.1 hm
  rw [hd] at hd'
  cases hd'
  rfl

theorem spells_toDigits (n : Nat) : Spells (Nat.toDigits 10 n) n := by
  have hd : ∀ d, d < 10 → digit? (Nat.digitChar d) = some d := by decide
  induction n using Nat.strongRecOn with
  | ind n ih =>
    rcases Nat.lt_or_ge n 10 with hn | hn
    · rw [Nat.toDigits_of_lt_base hn]
      exact .digit (hd n hn)
    · have h := (ih (n / 10) (by omega)).append (hd (n % 10) (by omega))
      rwa [← Nat.toDigits_of_base_le (by decide) hn, Nat.div_add_mod] at h

theorem spells_toString (n : Nat) : Spells (toString n).toList n := by
  rw [Nat.toString_eq_repr, Nat.repr_eq_ofList_toDigits, String.toList_ofList]
  exact spells_toDigits n

end Text

/-! Ranges. -/

namespace Range

theorem length_toList (r : Range) : r.toList.length = r.length := by
  rw [toList, List.length_map, List.length_range]

def IsShort (r : Range) (n : Nat) : Prop :=
  if 0 < r.step then r.start + n * r.step < r.stop else r.stop < r.start + n * r.step

theorem lt_length_iff {r : Range} (hr : r.step ≠ 0) (n : Nat) : n < r.length ↔ r.IsShort n := by
  rw [length, IsShort]
  split
  · next h =>
    rw [Int.lt_toNat, ← Int.add_one_le_iff, Int.le_ediv_iff_mul_le h, Int.add_mul]
    omega
  · next h =>
    have hs : 0 < -r.step := by omega
    rw [if_pos (by omega), Int.lt_toNat, ← Int.add_one_le_iff, Int.le_ediv_iff_mul_le hs,
      Int.add_mul, Int.mul_neg]
    omega

end Range

/-! Sequences. -/

namespace Value

inductive Lists : Value → List Value → Prop
  | list (items : List Value) : Lists (.list items) items
  | tuple (items : List Value) : Lists (.tuple items) items
  | range {r : Range} {count : Nat} : r.step ≠ 0 → (∀ n, n < count ↔ r.IsShort n) →
    Lists (.range r) ((List.range count).map fun n : Nat => .int (r.start + n * r.step))

theorem exists_lists {v : Value} (hk : v.kind = .sequence)
    (hs : ∀ r, v = .range r → r.step ≠ 0) : ∃ items, v.Lists items := by
  cases v with
  | list items => exact ⟨items, .list items⟩
  | tuple items => exact ⟨items, .tuple items⟩
  | range r => exact ⟨_, .range (hs r rfl) (Range.lt_length_iff (hs r rfl))⟩
  | _ => cases hk

theorem Lists.of_range {r : Range} {items : List Value} (h : (Value.range r).Lists items) :
    items = r.toList.map .int := by
  cases h with
  | @range _ count hr hc =>
    obtain rfl : count = r.length :=
      eq_of_forall_lt_iff fun n => (hc n).trans (Range.lt_length_iff hr n).symm
    rw [Range.toList, List.map_map]
    rfl

/-! Keys. -/

theorem index?_eq {key : String}
    (hk : ∀ digits ∈ Text.digits? key.toList, digits.length ≤ Number.digitCap) :
    index? key = .ok ((Text.digits? key.toList).map Number.ofDigits) := by
  rw [index?]
  cases hd : Text.digits? key.toList with
  | none => rfl
  | some digits =>
    have hr : Number.readNat digits = .ok (Number.ofDigits digits) := if_pos (hk digits hd)
    exact congrArg (some <$> ·) hr

theorem index?_eq_some_iff {key : String} {n : Nat} :
    index? key = .ok (some n) ↔ Text.Spells key.toList n ∧ key.length ≤ Number.digitCap := by
  rw [index?, Text.spells_iff]
  cases hd : Text.digits? key.toList with
  | none => simp
  | some digits =>
    have hl : digits.length = key.length :=
      (Text.length_of_digits? hd).trans String.length_toList
    dsimp only
    rw [Number.readNat, hl]
    split
    · next h => simp [h, eq_comm]
    · next h => simp [h]

theorem index?_eq_none_iff {key : String} :
    index? key = .ok none ↔ ¬∃ n, Text.Spells key.toList n := by
  rw [index?]
  simp only [Text.spells_iff]
  cases Text.digits? key.toList with
  | none => simp
  | some digits =>
    dsimp only
    rw [Number.readNat]
    split <;> simp

theorem lookup_entry {σ : Type} {host : Host σ} {v : Value} {k : Kind} (hc : v.classify = .ok k)
    (hk : k ≠ .object) (key : String) : v.lookup host key = Act.ofExcept (v.entryAt? key) := by
  rw [lookup, hc]
  exact if_neg hk

/-! A key finds the element at the index that it is, if it is one. -/

theorem entryAt?_items {v : Value} {items : List Value} (hv : v = .list items ∨ v = .tuple items)
    (hm : .missing ∉ items) (key : String) :
    v.entryAt? key = (· >>= (items[·]?)) <$> index? key := by
  have helement : present? <$> element? items key = (· >>= (items[·]?)) <$> index? key := by
    rw [element?]
    rcases index? key with f | _ | n
    · rfl
    · rfl
    · refine congrArg Except.ok ?_
      cases hn : items[n]? with
      | none => exact hn.symm
      | some u =>
        exact (present?_of_ne (ne_of_mem_of_not_mem (List.mem_of_getElem? hn) hm)).trans hn.symm
  rcases hv with rfl | rfl
  · exact helement
  · exact helement

theorem entryAt?_range {r : Range} (hr : r.length < Range.countCap) (key : String) :
    (Value.range r).entryAt? key = (· >>= ((r.toList.map .int)[·]?)) <$> index? key := by
  rw [entryAt?, rangeElement?, rangeLength, if_pos hr]
  rcases index? key with f | _ | n
  · rfl
  · rfl
  · refine congrArg Except.ok (Eq.symm ?_)
    show (r.toList.map Value.int)[n]? = if n < r.length then some (.int (r.nth n)) else none
    rw [Range.toList]
    split
    · next hn => simp [hn]
    · next hn => simp [hn]

namespace Lists

variable {v : Value} {items : List Value} (h : v.Lists items)

include h

theorem classify_eq : v.classify = .ok .sequence := by
  cases h <;> rfl

theorem size_eq (hc : items.length < Range.countCap) : v.size = .ok items.length := by
  cases v with
  | list | tuple => cases h; rfl
  | range r =>
    obtain rfl := h.of_range
    rw [List.length_map, Range.length_toList] at hc ⊢
    exact if_pos hc
  | _ => cases h

theorem entryAt?_eq (hc : items.length < Range.countCap) (hm : .missing ∉ items) (key : String) :
    v.entryAt? key = (· >>= (items[·]?)) <$> index? key := by
  cases v with
  | list => cases h; exact entryAt?_items (.inl rfl) hm key
  | tuple => cases h; exact entryAt?_items (.inr rfl) hm key
  | range r =>
    obtain rfl := h.of_range
    rw [List.length_map, Range.length_toList] at hc
    exact entryAt?_range hc key
  | _ => cases h

variable (hc : items.length < Range.countCap) (hm : .missing ∉ items) {σ : Type} (host : Host σ)
  (w : World σ)

include hc

theorem countOf_eq : Processor.countOf host v w = .ok (.int items.length) w := by
  rw [Processor.countOf, h.classify_eq, h.size_eq hc]
  rfl

include hm

theorem lookup_eq (key : String) :
    v.lookup host key = Act.ofExcept ((· >>= (items[·]?)) <$> index? key) := by
  rw [lookup_entry h.classify_eq (by decide), h.entryAt?_eq hc hm]

theorem lookup_eq_ok_iff (key : String) (found : Option Value) :
    v.lookup host key w = .ok found w ↔
      ∃ index, index? key = .ok index ∧ found = index >>= (items[·]?) := by
  rw [h.lookup_eq hc hm, Act.ofExcept_eq_ok_iff]
  constructor
  · exact Except.of_map
  · rintro ⟨index, hi, rfl⟩
    rw [hi]
    rfl

theorem lookup_eq_some_iff (key : String) (u : Value) :
    v.lookup host key w = .ok (some u) w ↔
      ∃ n, Text.Spells key.toList n ∧ key.length ≤ Number.digitCap ∧ items[n]? = some u := by
  rw [h.lookup_eq_ok_iff hc hm]
  simp only [← and_assoc, ← index?_eq_some_iff]
  constructor
  · rintro ⟨_ | n, hi, hu⟩
    · cases hu
    · exact ⟨n, hi, hu.symm⟩
  · rintro ⟨n, hi, hu⟩
    exact ⟨some n, hi, hu.symm⟩

theorem lookup_eq_none_iff (key : String) (hk : key.length ≤ Number.digitCap) :
    v.lookup host key w = .ok none w ↔ ¬∃ n, Text.Spells key.toList n ∧ n < items.length := by
  rw [h.lookup_eq_ok_iff hc hm]
  constructor
  · rintro ⟨index, hi, hu⟩ ⟨n, hs, hn⟩
    rw [index?_eq_some_iff.2 ⟨hs, hk⟩] at hi
    cases hi
    exact absurd hu.symm (List.getElem?_eq_none_iff.not.2 (Nat.not_le.2 hn))
  · intro hn
    by_cases hs : ∃ n, Text.Spells key.toList n
    · obtain ⟨n, hs⟩ := hs
      refine ⟨some n, index?_eq_some_iff.2 ⟨hs, hk⟩, (List.getElem?_eq_none ?_).symm⟩
      exact Nat.le_of_not_lt fun hl => hn ⟨n, hs, hl⟩
    · exact ⟨none, index?_eq_none_iff.2 hs, rfl⟩

theorem lookup_toString_iff (n : Nat) :
    (∃ u, v.lookup host (toString n) w = .ok (some u) w) ↔ n < items.length := by
  simp only [h.lookup_eq_some_iff hc hm]
  constructor
  · rintro ⟨u, m, hs, -, hu⟩
    rw [hs.unique (Text.spells_toString n)] at hu
    exact (List.getElem?_eq_some_iff.1 hu).1
  · intro hn
    -- What a machine word counts has nineteen digits at most, so the key is not too long.
    have hlt : n < 10 ^ 19 := lt_trans (lt_trans hn hc) (by decide)
    refine ⟨items[n], n, Text.spells_toString n, ?_, List.getElem?_eq_getElem hn⟩
    rw [Nat.toString_eq_repr, Nat.repr_eq_ofList_toDigits, String.length_ofList]
    exact le_trans ((Nat.length_toDigits_le_iff (by decide) (by decide)).2 hlt) (by decide)

end Lists

/-- A sequence is counted as it is looked up: there is an element for each number below the count,
under each key that spells the number, and for no other key. -/
theorem lookup_counted {v : Value} (hk : v.kind = .sequence)
    (hs : ∀ r, v = .range r → r.step ≠ 0) :
    ∃ items, v.Lists items ∧ (items.length < Range.countCap → .missing ∉ items →
      ∀ {σ : Type} (host : Host σ) (w : World σ),
        Processor.countOf host v w = .ok (.int items.length) w ∧
        (∀ key : String, key.length ≤ Number.digitCap →
          (∀ u, v.lookup host key w = .ok (some u) w ↔
            ∃ n, Text.Spells key.toList n ∧ items[n]? = some u) ∧
          (v.lookup host key w = .ok none w ↔
            ¬∃ n, Text.Spells key.toList n ∧ n < items.length)) ∧
        ∀ n : Nat, (∃ u, v.lookup host (toString n) w = .ok (some u) w) ↔ n < items.length) := by
  obtain ⟨items, hl⟩ := exists_lists hk hs
  refine ⟨items, hl, fun hc hm σ host w => ⟨hl.countOf_eq hc host w, fun key hkey => ⟨fun u => ?_,
    hl.lookup_eq_none_iff hc hm host w key hkey⟩, hl.lookup_toString_iff hc hm host w⟩⟩
  rw [hl.lookup_eq_some_iff hc hm]
  simp only [hkey, true_and]

theorem lookup_counted_descending :
    let r : Range := ⟨10, 0, -3⟩
    let w := World.start Context.empty () (.empty false)
    (Value.range r).kind = .sequence ∧ (∀ r', Value.range r = .range r' → r'.step ≠ 0) ∧
      Processor.countOf Host.none (.range r) w = .ok (.int 4) w ∧
      (Value.range r).lookup Host.none "0٣" w = .ok (some (.int 1)) w ∧
      (Value.range r).lookup Host.none "-1" w = .ok none w := by
  intro r w
  have hs : ∀ r', Value.range r = .range r' → r'.step ≠ 0 := by
    rintro _ ⟨⟩
    decide
  obtain ⟨items, hl, hcounted⟩ := lookup_counted (v := .range r) rfl hs
  have hitems : items = [10, 7, 4, 1].map .int := hl.of_range.trans rfl
  subst hitems
  obtain ⟨hcount, hlookup, -⟩ := hcounted (by decide) (by simp) Host.none w
  refine ⟨rfl, hs, hcount, ((hlookup "0٣" (by decide)).1 _).2 ⟨3, ?_, rfl⟩,
    (hlookup "-1" (by decide)).2.2 ?_⟩
  · exact Text.spells_iff.2 ⟨[0, 3], by decide, rfl⟩
  · rintro ⟨n, hn, -⟩
    obtain ⟨digits, hd, -⟩ := Text.spells_iff.1 hn
    cases hd

end Value

end Inlay
