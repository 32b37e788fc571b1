import Inlay.Table
import Mathlib.Data.List.Induction
import Mathlib.Data.List.Nodup

/-! What tables give back after other ways of making them. -/

namespace Inlay

namespace Table

variable {α β : Type}

theorem get?_map (g : α → β) (t : Table α) (name : String) :
    get? (t.map fun (n, a) => (n, g a)) name = (get? t name).map g := by
  induction t with
  | nil => rfl
  | cons entry rest ih =>
    obtain ⟨n, a⟩ := entry
    by_cases h : n = name <;> simp [get?, h, ih]

theorem get?_mem {t : Table α} {name : String} {a : α} (h : get? t name = some a) :
    (name, a) ∈ t := by
  induction t with
  | nil => cases h
  | cons entry rest ih =>
    obtain ⟨n, b⟩ := entry
    by_cases hn : n = name
    · rw [get?, if_pos hn] at h
      cases h
      exact hn ▸ List.mem_cons_self
    · rw [get?, if_neg hn] at h
      exact List.mem_cons_of_mem _ (ih h)

theorem get?_of_mem {t : Table α} (ht : (t.map (·.1)).Nodup) {name : String} {a : α}
    (h : (name, a) ∈ t) : get? t name = some a := by
  induction t with
  | nil => cases h
  | cons entry rest ih =>
    obtain ⟨n, b⟩ := entry
    rw [List.map_cons, List.nodup_cons] at ht
    rcases List.mem_cons.1 h with he | h
    · cases he
      exact if_pos rfl
    · have hn : n ≠ name := by
        rintro rfl
        exact ht.1 (List.mem_map.2 ⟨(n, a), h, rfl⟩)
      rw [get?, if_neg hn]
      exact ih ht.2 h

theorem insert_of_absent {t : Table α} {name : String} (h : name ∉ t.map (·.1)) (a : α) :
    insert t name a = t ++ [(name, a)] := by
  induction t with
  | nil => rfl
  | cons entry rest ih =>
    obtain ⟨n, b⟩ := entry
    rw [List.map_cons, List.mem_cons, not_or] at h
    rw [insert, if_neg (Ne.symm h.1), ih h.2, List.cons_append]

theorem names_insert_of_mem {t : Table α} {name : String} (h : name ∈ t.map (·.1)) (a : α) :
    (insert t name a).map (·.1) = t.map (·.1) := by
  induction t with
  | nil => cases h
  | cons entry rest ih =>
    obtain ⟨n, b⟩ := entry
    by_cases hn : n = name
    · simp [insert, hn]
    · rw [List.map_cons, List.mem_cons] at h
      rw [insert, if_neg hn, List.map_cons, List.map_cons, ih (h.resolve_left (Ne.symm hn))]

theorem nodup_insert {t : Table α} (ht : (t.map (·.1)).Nodup) (name : String) (a : α) :
    ((insert t name a).map (·.1)).Nodup := by
  by_cases h : name ∈ t.map (·.1)
  · rwa [names_insert_of_mem h]
  · rw [insert_of_absent h, List.map_append]
    exact List.concat_eq_append ▸ ht.concat h

theorem ofList_concat (entries : List (String × α)) (name : String) (a : α) :
    ofList (entries ++ [(name, a)]) = insert (ofList entries) name a :=
  List.foldl_concat ..

theorem nodup_ofList (entries : List (String × α)) : ((ofList entries).map (·.1)).Nodup := by
  induction entries using List.reverseRecOn with
  | nil => exact List.nodup_nil
  | append_singleton entries entry ih =>
    rw [ofList_concat]
    exact nodup_insert ih entry.1 entry.2

theorem ofList_of_nodup {entries : List (String × α)} (h : (entries.map (·.1)).Nodup) :
    ofList entries = entries := by
  induction entries using List.reverseRecOn with
  | nil => rfl
  | append_singleton entries entry ih =>
    rw [List.map_append, List.map_singleton, ← List.concat_eq_append, List.nodup_concat] at h
    rw [ofList_concat, ih h.2, insert_of_absent h.1]

/-- Of entries of one name the last counts. -/
theorem get?_ofList (entries : List (String × α)) (name : String) :
    get? (ofList entries) name = entries.reverse.lookup name := by
  induction entries using List.reverseRecOn with
  | nil => rfl
  | append_singleton entries entry ih =>
    obtain ⟨n, a⟩ := entry
    rw [ofList_concat, List.reverse_append, List.reverse_singleton, List.singleton_append,
      List.lookup_cons]
    by_cases h : n = name
    · rw [h, get?_insert_self, beq_self_eq_true]
    · rw [get?_insert_of_ne _ _ h, ih, beq_false_of_ne (Ne.symm h)]

theorem mem_ofList {entries : List (String × α)} {name : String} {a : α} :
    (name, a) ∈ ofList entries ↔ entries.reverse.lookup name = some a := by
  rw [← get?_ofList]
  exact ⟨get?_of_mem (nodup_ofList entries), get?_mem⟩

theorem names_ofList (entries : List (String × α)) :
    (ofList entries).map (·.1) = (entries.map (·.1)).eraseDups := by
  induction entries using List.reverseRecOn with
  | nil => rfl
  | append_singleton entries entry ih =>
    have hmem : entry.1 ∈ (ofList entries).map (·.1) ↔ entry.1 ∈ entries.map (·.1) := by
      rw [ih, List.mem_eraseDups]
    rw [ofList_concat, List.map_append, List.eraseDups_append, ← ih]
    by_cases h : entry.1 ∈ entries.map (·.1)
    · rw [names_insert_of_mem (hmem.2 h)]
      simp [List.removeAll, h]
    · rw [insert_of_absent (mt hmem.1 h)]
      simp [List.removeAll, h, List.eraseDups_cons]

theorem eq_of_names_eq {t u : Table α} (hn : t.map (·.1) = u.map (·.1))
    (h : ∀ name a b, (name, a) ∈ t → (name, b) ∈ u → a = b) : t = u := by
  induction t generalizing u with
  | nil => exact (List.map_eq_nil_iff.1 hn.symm).symm
  | cons entry t ih =>
    cases u with
    | nil => cases hn
    | cons entry' u =>
      obtain ⟨n, a⟩ := entry
      obtain ⟨n', b⟩ := entry'
      -- Both tables list their names in the same order, so they are compared entry by entry.
      obtain ⟨hname, hrest⟩ := List.cons.inj hn
      obtain rfl : n = n' := hname
      rw [h n a b List.mem_cons_self List.mem_cons_self, ih hrest fun name c d hc hd =>
        h name c d (List.mem_cons_of_mem _ hc) (List.mem_cons_of_mem _ hd)]

theorem get?_ofList_of_notMem {entries : List (String × α)} {name : String}
    (h : name ∉ entries.map (·.1)) : get? (ofList entries) name = none := by
  rw [get?_ofList, List.lookup_eq_none_iff]
  intro entry hm
  rw [bne_iff_ne]
  rintro rfl
  exact h (List.mem_map_of_mem (List.mem_reverse.1 hm))

theorem mem_of_lookup_reverse {entries : List (String × α)} {name : String} {a : α}
    (h : entries.reverse.lookup name = some a) : (name, a) ∈ entries := by
  obtain ⟨before, after, he, -⟩ := List.lookup_eq_some_iff.1 h
  rw [← List.mem_reverse, he]
  simp

theorem get?_ofList_of_mem {entries : List (String × α)} {name : String} {a : α}
    (h : (name, a) ∈ entries) (ha : ∀ b, (name, b) ∈ entries → b = a) :
    get? (ofList entries) name = some a := by
  have hs : (entries.reverse.lookup name).isSome = true :=
    List.lookup_isSome_iff.2 ⟨(name, a), List.mem_reverse.2 h, beq_self_eq_true name⟩
  obtain ⟨b, hb⟩ := Option.isSome_iff_exists.1 hs
  rw [get?_ofList, hb, ha b (mem_of_lookup_reverse hb)]

theorem erase_of_absent {t : Table α} {name : String} (h : get? t name = none) :
    erase t name = t := by
  induction t with
  | nil => rfl
  | cons entry rest ih =>
    obtain ⟨n, b⟩ := entry
    by_cases hn : n = name
    · rw [get?, if_pos hn] at h
      cases h
    · rw [get?, if_neg hn] at h
      rw [erase, List.filter_cons_of_pos (by simpa using hn)]
      exact congrArg _ (ih h)

theorem insert_map (g : α → β) (t : Table α) (name : String) (a : α) :
    insert (t.map fun (n, a) => (n, g a)) name (g a) =
      (insert t name a).map fun (n, a) => (n, g a) := by
  induction t with
  | nil => rfl
  | cons entry rest ih =>
    obtain ⟨n, b⟩ := entry
    by_cases h : n = name
    · simp [insert, h]
    · simp [insert, h, ih]

theorem insert_forall {P : α → Prop} {t : Table α} (h : ∀ entry ∈ t, P entry.2) (name : String)
    {a : α} (ha : P a) : ∀ entry ∈ insert t name a, P entry.2 := by
  induction t with
  | nil => simpa [insert] using ha
  | cons entry rest ih =>
    obtain ⟨n, b⟩ := entry
    rw [List.forall_mem_cons] at h
    by_cases hn : n = name
    · rw [insert, if_pos hn, List.forall_mem_cons]
      exact ⟨ha, h.2⟩
    · rw [insert, if_neg hn, List.forall_mem_cons]
      exact ⟨h.1, ih h.2⟩

theorem ofList_forall {P : α → Prop} {entries : List (String × α)}
    (h : ∀ entry ∈ entries, P entry.2) : ∀ entry ∈ ofList entries, P entry.2 := by
  suffices hf : ∀ t : Table α, (∀ entry ∈ t, P entry.2) →
      ∀ entry ∈ entries.foldl (fun t entry => insert t entry.1 entry.2) t, P entry.2 from
    hf [] (List.forall_mem_nil _)
  intro t ht
  induction entries generalizing t with
  | nil => exact ht
  | cons entry rest ih =>
    rw [List.forall_mem_cons] at h
    exact ih h.2 _ (insert_forall ht entry.1 h.1)

theorem ofList_map (g : α → β) (entries : List (String × α)) :
    ofList (entries.map fun (n, a) => (n, g a)) =
      (ofList entries).map fun (n, a) => (n, g a) := by
  suffices h : ∀ t : Table α,
      (entries.map fun (n, a) => (n, g a)).foldl (fun t entry => insert t entry.1 entry.2)
        (t.map fun (n, a) => (n, g a)) =
      (entries.foldl (fun t entry => insert t entry.1 entry.2) t).map fun (n, a) => (n, g a) from
    h []
  intro t
  induction entries generalizing t with
  | nil => rfl
  | cons entry rest ih =>
    rw [List.map_cons, List.foldl_cons, List.foldl_cons, insert_map, ih]

end Table

end Inlay
