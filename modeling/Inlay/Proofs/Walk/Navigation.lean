import Inlay.Proofs.Value.Sequence
import Inlay.Proofs.Walk.Regular
import Inlay.Walk

/-! Walks and navigation: where keys lead in a value, they lead in its document. -/

namespace Inlay

namespace Json

/-- The part of a document that a key names: the member of that name, of which the last counts, or
the item at the index that is written in digits. -/
def child? (key : String) : Json → Option Json
  | .array items => do items[Number.ofDigits (← Text.digits? key.toList)]?
  | .object members => Table.get? (Table.ofList members) key
  | _ => none

def navigate : Json → List String → Option Json
  | j, [] => some j
  | j, key :: keys => do navigate (← child? key j) keys

end Json

variable {σ : Type} {host : Host σ} {P : World σ → Prop} {report : Json.Report}
  {within : List Nat} {depth room : Nat}

structure Encodes (host : Host σ) (P : World σ → Prop) (report : Json.Report) (within : List Nat)
    (depth room : Nat) (v : Value) (j : Json) : Prop where
  regular : v.Regular host P
  document : (Json.ofValue host report within depth room v).ComesTo P (.ok j)

namespace Encodes

theorem mono {within' : List Nat} {depth' room' : Nat} (hi : within' ⊆ within) (hd : depth ≤ depth')
    (hr : room ≤ room') {v : Value} {j : Json} (h : Encodes host P report within depth room v j) :
    Encodes host P report within' depth' room' v j := by
  refine ⟨h.regular, fun w hw => ?_⟩
  obtain ⟨w', hw', he⟩ := h.document w hw
  exact ⟨w', hw', Json.ofValue_extends host report hi hd hr v w j w' he⟩

theorem rise {levels : Nat} {v : Value} {j : Json}
    (h : Encodes host P report within depth (room - levels) v j) :
    Encodes host P report within depth room v j :=
  h.mono (List.Subset.refl _) (Nat.le_refl _) (Nat.sub_le ..)

theorem get?_rel {R : Value → Json → Prop} {t : Table Value} {ms : List (String × Json)}
    (h : List.Forall₂ (fun e m => m.1 = e.1 ∧ R e.2 m.2) t ms) (key : String) :
    Option.Rel R (Table.get? t key) (Table.get? ms key) := by
  induction h with
  | nil => exact .none
  | @cons e m t ms he _ ih =>
    obtain ⟨name, v⟩ := e
    obtain ⟨_, j⟩ := m
    obtain ⟨rfl, hr⟩ := he
    rw [Table.get?, Table.get?]
    split
    · exact .some hr
    · exact ih

theorem getElem?_rel {R : Value → Json → Prop} {vs : List Value} {js : List Json}
    (h : List.Forall₂ R vs js) (n : Nat) : Option.Rel R vs[n]? js[n]? := by
  induction h generalizing n with
  | nil => exact .none
  | cons hr _ ih =>
    cases n with
    | zero => exact .some hr
    | succ n => exact ih n

theorem child?_rel {R : Value → Json → Prop} {t : Table Value} {ms : List (String × Json)}
    (ht : (t.map (·.1)).Nodup) (h : List.Forall₂ (fun e m => m.1 = e.1 ∧ R e.2 m.2) t ms)
    (key : String) : Option.Rel R (Table.get? t key) ((Json.object ms).child? key) := by
  have hn : ms.map (·.1) = t.map (·.1) := by
    clear ht
    induction h with
    | nil => rfl
    | cons he _ ih => rw [List.map_cons, List.map_cons, he.1, ih]
  rw [Json.child?, Table.ofList_of_nodup (hn ▸ ht)]
  exact get?_rel h key

variable {w : World σ} (hw : P w)

include hw

theorem of_members {t : Table Value} {j : Json} (ht : ∀ e ∈ t, e.2.Regular host P)
    (h : Act.ComesTo P (.object <$> Json.ofMembers host report within depth room t) (.ok j)) :
    ∃ ms, j = .object ms ∧ List.Forall₂
      (fun e m => m.1 = e.1 ∧ Encodes host P report within depth room e.2 m.2) t ms := by
  have hs : ∀ e ∈ t, Act.Settled P (Json.ofValue host report within depth room e.2) := fun e he =>
    (ht e he).settled report hw within depth room
  obtain ⟨ms, hms, rfl⟩ := h.of_map hw (.mapM fun e he => (hs e he).map _)
  refine ⟨ms, rfl, hms.of_mapM hw (fun e he => (hs e he).map _) fun e he m hm => ?_⟩
  obtain ⟨j, hj, rfl⟩ := hm.of_map hw (hs e he)
  exact ⟨rfl, ht e he, hj⟩

theorem of_items {items : List Value} {j : Json} (hi : ∀ v ∈ items, v.Regular host P)
    (h : Act.ComesTo P (.array <$> items.mapM (Json.ofValue host report within depth room))
      (.ok j)) :
    ∃ js, j = .array js ∧ List.Forall₂ (Encodes host P report within depth room) items js := by
  have hs : ∀ v ∈ items, Act.Settled P (Json.ofValue host report within depth room v) :=
    fun v hv => (hi v hv).settled report hw within depth room
  obtain ⟨js, hjs, rfl⟩ := h.of_map hw (.mapM hs)
  exact ⟨js, rfl, hjs.of_mapM hw hs fun v hv j hj => ⟨hi v hv, hj⟩⟩

theorem of_sequence {v : Value} {items : List Value} {j : Json}
    (hv : v = .list items ∨ v = .tuple items) (hi : ∀ v ∈ items, v.Regular host P)
    (h : (Json.ofValue host report within (depth + 1) room v).ComesTo P (.ok j)) :
    ∃ js, j = .array js ∧
      List.Forall₂ (Encodes host P report within (depth + 1) room) items js := by
  rw [Json.ofValue_items host report within depth room hv] at h
  obtain ⟨-, h⟩ := Json.descend_comesTo hw h
  obtain ⟨js, rfl, hjs⟩ := of_items hw hi h
  exact ⟨js, rfl, hjs.imp fun _ _ he => he.rise⟩

theorem of_atom {v : Value} {j : Json} (hv : v.isAtom = true)
    (h : Encodes host P report within (depth + 1) room v j) :
    Json.ofLeaf report room v = .ok j := by
  rcases Json.ofValue_atom host P report within hv depth room with he | ⟨f, hf⟩
  · have hd := h.document
    rw [he] at hd
    exact (Act.ComesTo.ofExcept _).unique hw hd
  · cases hf.unique hw h.document

theorem ne_missing {v : Value} {j : Json} (h : Encodes host P report within depth room v j) :
    v ≠ .missing := by
  rintro rfl
  cases depth with
  | zero => cases (Act.ComesTo.throw _).unique hw h.document
  | succ depth => cases h.of_atom hw rfl

theorem missing_notMem {vs : List Value} {js : List Json}
    (h : List.Forall₂ (Encodes host P report within depth room) vs js) : .missing ∉ vs := by
  induction h with
  | nil => exact List.not_mem_nil
  | cons h _ ih => exact List.not_mem_cons_of_ne_of_not_mem (h.ne_missing hw).symm ih

end Encodes

def Finds (host : Host σ) (P : World σ → Prop) (report : Json.Report) (within : List Nat)
    (depth room : Nat) (v : Value) (j : Json) (key : String) : Prop :=
  ∃ found, Option.Rel (Encodes host P report within depth room) found (j.child? key) ∧
    ((v.lookup host key).ComesTo P (.ok found) ∨
      found = none ∧ ∃ f, (v.lookup host key).ComesTo P (.error f))

namespace Finds

variable {w : World σ} (hw : P w) {key : String}

theorem of_entry {v : Value} {j : Json} {k : Kind} (hc : v.classify = .ok k) (hk : k ≠ .object)
    {found : Option Value} (he : v.entryAt? key = .ok found)
    (h : Option.Rel (Encodes host P report within depth room) found (j.child? key)) :
    Finds host P report within depth room v j key := by
  refine ⟨found, h, .inl ?_⟩
  rw [Value.lookup_entry hc hk, he]
  exact .ofExcept _

theorem handle {v : Value} {target : Except Fault Value} {exposed : Table Value}
    {within' : List Nat} {depth' room' : Nat} {ms : List (String × Json)}
    (hc : Handle.Candid host P v target) (hx : v.exposed target = .ok exposed)
    (hi : within ⊆ within') (hd : depth' ≤ depth) (hr : room' ≤ room)
    (h : List.Forall₂ (fun e m => m.1 = e.1 ∧ Encodes host P report within' depth' room' e.2 m.2)
      exposed ms) :
    Finds host P report within depth room v (.object ms) key := by
  have hrel : Option.Rel (Encodes host P report within depth room) (Table.get? exposed key)
      ((Json.object ms).child? key) :=
    Encodes.child?_rel (Value.nodup_exposed hx) (h.imp fun _ _ he => ⟨he.1, he.2.mono hi hd hr⟩) key
  refine ⟨Table.get? exposed key, hrel, ?_⟩
  rcases hc.lookup_comesTo hx key with hl | ⟨hn, hf⟩
  · exact .inl hl
  · exact .inr ⟨hn, hf⟩

variable (hk : ∀ digits ∈ Text.digits? key.toList, digits.length ≤ Number.digitCap)

include hk

theorem of_elements {v : Value} {vs : List Value} {js : List Json}
    (hc : v.classify = .ok .sequence)
    (he : v.entryAt? key = (· >>= (vs[·]?)) <$> Value.index? key)
    (h : List.Forall₂ (Encodes host P report within depth room) vs js) :
    Finds host P report within depth room v (.array js) key := by
  rw [Value.index?_eq hk] at he
  refine of_entry hc (by decide) he ?_
  rw [Json.child?]
  cases Text.digits? key.toList with
  | none => exact .none
  | some digits => exact Encodes.getElem?_rel h _

theorem range {r : Range} {js : List Json} (hl : r.length < Range.countCap)
    (h : r.toList.mapM Json.ofInt = .ok js) :
    Finds host P report within (depth + 1) room (.range r) (.array js) key := by
  have hitems :
      List.Forall₂ (Encodes host P report within (depth + 1) room) (r.toList.map .int) js := by
    rw [List.forall₂_map_left_iff]
    refine (Except.of_mapM h).imp fun n j hn => ⟨.atom rfl, ?_⟩
    have hv : Json.ofValue host report within (depth + 1) room (.int n) =
        Act.ofExcept (Json.ofInt n) := rfl
    rw [hv, hn]
    exact .ofExcept _
  exact of_elements hk rfl (Value.entryAt?_range hl key) hitems

theorem atom {v : Value} {j : Json} (hv : v.isAtom = true)
    (hj : Json.ofLeaf report room v = .ok j) :
    Finds host P report within (depth + 1) room v j key := by
  cases v with
  | null =>
    cases hj
    exact .of_entry (k := .null) rfl (by decide) rfl .none
  | bool b =>
    cases hj
    exact .of_entry (k := .bool) rfl (by decide) rfl .none
  | int n =>
    obtain ⟨s, -, rfl⟩ := Except.of_map hj
    exact .of_entry (k := .number) rfl (by decide) rfl .none
  | float x =>
    rw [Json.ofLeaf, Json.ofFloat] at hj
    split at hj
    · cases hj
      exact .of_entry (k := .number) rfl (by decide) rfl .none
    · cases hj
  | text s =>
    cases hj
    exact .of_entry (k := .string) rfl (by decide) rfl .none
  | range r =>
    obtain ⟨hl, js, hjs, rfl⟩ := Json.of_ofRange report hj
    exact .range hk hl hjs
  | list | tuple | mapping | object | wrapped => cases hv
  | _ => cases hj

include hw

theorem items {v : Value} {items : List Value} {js : List Json}
    (hv : v = .list items ∨ v = .tuple items)
    (h : List.Forall₂ (Encodes host P report within depth room) items js) :
    Finds host P report within depth room v (.array js) key := by
  have hc : v.classify = .ok .sequence := by rcases hv with rfl | rfl <;> rfl
  exact of_elements hk hc (Value.entryAt?_items hv (Encodes.missing_notMem hw h) key) h

theorem mapping {form : MappingForm} {t : Table Value} {ms : List (String × Json)}
    (ht : (t.map (·.1)).Nodup)
    (h : List.Forall₂ (fun e m => m.1 = e.1 ∧ Encodes host P report within depth room e.2 m.2)
      t ms) :
    Finds host P report within depth room (.mapping form (t.map fun (name, v) => (.text name, v)))
      (.object ms) key := by
  have hrel := Encodes.child?_rel ht h key
  have hentry : (Value.ofTable t).entryAt? key = .ok (Table.get? t key) := by
    cases hg : Table.get? t key with
    | some v =>
      rw [hg] at hrel
      generalize (Json.object ms).child? key = child at hrel
      cases hrel with
      | some hv => exact Value.entryAt?_of_get? hg (hv.ne_missing hw)
    | none =>
      rw [Value.ofTable, Value.entryAt?, Value.mappingEntry?, Value.entry?_ofTable, hg,
        Value.index?_eq hk]
      cases Text.digits? key.toList with
      | none => rfl
      | some digits =>
        exact congrArg (fun found => Except.ok (Value.present? found))
          (Value.entry?_integral_ofTable t _)
  exact of_entry (k := .mapping) rfl (by decide) hentry hrel

end Finds

namespace Encodes

variable {w : World σ} (hw : P w)

include hw

theorem depth_ne_zero {v : Value} {j : Json} (h : Encodes host P report within depth room v j) :
    depth ≠ 0 := by
  rintro rfl
  cases (Act.ComesTo.throw _).unique hw h.document

theorem of_handle {v : Value} {target : Except Fault Value} {j : Json}
    (hc : Handle.Candid host P v target)
    (ht : ∀ exposed, v.exposed target = .ok exposed → ∀ e ∈ exposed, e.2.Regular host P)
    (hd : (Json.ofValue host report within (depth + 1) room v).ComesTo P (.ok j)) :
    ∃ exposed, v.exposed target = .ok exposed ∧
      ∃ within', within ⊆ within' ∧ ∃ depth' ≤ depth + 1, ∃ room' ≤ room, ∃ ms, j = .object ms ∧
        List.Forall₂ (fun e m => m.1 = e.1 ∧ Encodes host P report within' depth' room' e.2 m.2)
          exposed ms := by
  cases hx : v.exposed target with
  | error f =>
    obtain ⟨f, hf⟩ := Json.ofValue_unexposed hc hw depth room hx
    cases hf.unique hw hd
  | ok exposed =>
    refine ⟨exposed, rfl, ?_⟩
    rcases Json.ofValue_candid report within hc hw depth room hx with he | he | ⟨f, hf⟩
    · rw [he] at hd
      obtain ⟨-, hd⟩ := Json.descend_comesTo hw hd
      exact ⟨within, List.Subset.refl _, depth + 1, Nat.le_refl _, _, Nat.sub_le ..,
        of_members hw (ht exposed hx) hd⟩
    · have hm : (Value.ofTable exposed).Regular host P :=
        .mapping (Value.nodup_exposed hx) (ht exposed hx)
      obtain ⟨r, hr⟩ := Json.descend_settled fun room => hm.settled report hw _ depth room
      obtain rfl := (he r hr).unique hw hd
      obtain ⟨-, hr⟩ := Json.descend_comesTo hw hr
      cases depth with
      | zero => cases (Act.ComesTo.throw _).unique hw hr
      | succ depth =>
        rw [Value.ofTable, Json.ofValue_mapping] at hr
        obtain ⟨-, hr⟩ := Json.descend_comesTo hw hr
        exact ⟨_, List.subset_cons_self .., depth + 1, Nat.le_succ _, _,
          Nat.le_trans (Nat.sub_le ..) (Nat.sub_le ..), of_members hw (ht exposed hx) hr⟩
    · cases hf.unique hw hd

theorem finds {v : Value} {j : Json} (h : Encodes host P report within depth room v j)
    {key : String}
    (hk : ∀ digits ∈ Text.digits? key.toList, digits.length ≤ Number.digitCap) :
    Finds host P report within depth room v j key := by
  obtain ⟨depth, rfl⟩ := Nat.exists_eq_succ_of_ne_zero (h.depth_ne_zero hw)
  have hd := h.document
  cases h.regular with
  | atom hv => exact .atom hk hv (h.of_atom hw hv)
  | list hi =>
    obtain ⟨js, rfl, hjs⟩ := of_sequence hw (.inl rfl) hi hd
    exact .items hw hk (.inl rfl) hjs
  | tuple hi =>
    obtain ⟨js, rfl, hjs⟩ := of_sequence hw (.inr rfl) hi hd
    exact .items hw hk (.inr rfl) hjs
  | mapping hn ht =>
    rw [Json.ofValue_mapping] at hd
    obtain ⟨-, hd⟩ := Json.descend_comesTo hw hd
    obtain ⟨ms, rfl, hms⟩ := of_members hw ht hd
    exact .mapping hw hk hn (hms.imp fun _ _ he => ⟨he.1, he.2.rise⟩)
  | handle hc ht =>
    obtain ⟨exposed, hx, within', hi, depth', hle, room', hr, ms, rfl, hms⟩ := of_handle hw hc ht hd
    exact .handle hc hx hi hle hr hms

end Encodes

namespace Walk

theorem walk_key_some {w w₁ : World σ} {v u : Value} {key : String}
    (h : v.lookup host key w = .ok (some u) w₁) (rest : List Accessor) :
    walk host v (.key key :: rest) w = walk host u rest w₁ := by
  rw [walk, Act.bind_apply, step, lookupKey, Act.bind_apply, h]
  rfl

theorem walk_key_none {w w₁ : World σ} {v : Value} {key : String} (rest : List Accessor)
    (h : v.lookup host key w = .ok none w₁ ∨ ∃ f, v.lookup host key w = .error f w₁) (u : Value)
    (w' : World σ) : walk host v (.key key :: rest) w ≠ .ok (.ok u) w' := by
  rw [walk, Act.bind_apply, step, lookupKey, Act.bind_apply]
  intro he
  rcases h with h | ⟨f, h⟩
  · rw [h] at he
    cases he
  · rw [h] at he
    cases he

theorem walk_navigates {w : World σ} (hw : P w) {v : Value} {j : Json}
    (h : Encodes host P report within depth room v j) (keys : List String)
    (hk : ∀ key ∈ keys, ∀ digits ∈ Text.digits? key.toList, digits.length ≤ Number.digitCap) :
    (∃ u w' j', walk host v (keys.map .key) w = .ok (.ok u) w' ∧ P w' ∧
      j.navigate keys = some j' ∧ Encodes host P report within depth room u j') ∨
      (∀ u w', walk host v (keys.map .key) w ≠ .ok (.ok u) w') ∧ j.navigate keys = none := by
  induction keys generalizing v j w with
  | nil => exact .inl ⟨v, w, j, rfl, hw, rfl, h⟩
  | cons key keys ih =>
    rw [List.forall_mem_cons] at hk
    obtain ⟨found, hrel, hfound⟩ := h.finds hw hk.1
    rw [Json.navigate, List.map_cons]
    generalize j.child? key = child at hrel
    cases hrel with
    | none =>
      refine .inr ⟨?_, rfl⟩
      rcases hfound with hl | ⟨-, f, hl⟩
      · obtain ⟨w₁, -, hl⟩ := hl w hw
        exact walk_key_none _ (.inl hl)
      · obtain ⟨w₁, -, hl⟩ := hl w hw
        exact walk_key_none _ (.inr ⟨f, hl⟩)
    | some hu =>
      rcases hfound with hl | ⟨he, -⟩
      · obtain ⟨w₁, hw₁, hl⟩ := hl w hw
        rw [walk_key_some hl]
        exact ih hw₁ hu hk.2
      · cases he

end Walk

end Inlay
