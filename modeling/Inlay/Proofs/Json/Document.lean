import Inlay.Json.Encoding
import Inlay.Proofs.Act.Settled
import Inlay.Proofs.Except
import Inlay.Proofs.Json.Reading

/-! The documents of values: how they are put together, that each can be written, and that a value
which has one within some depth and room has the same one within more. -/

namespace Inlay

namespace Json

section

variable {τ α : Type} {levels room : Nat} {act act' : Nat → Act τ α}

theorem descend_of_le (h : levels ≤ room) : descend levels room act = act (room - levels) :=
  if_pos h

theorem descend_of_lt (h : room < levels) : descend levels room act = throw .tooDeep :=
  if_neg (Nat.not_le.2 h)

theorem descend_descend (first second : Nat) :
    (descend first room fun room => descend second room act) =
      descend (first + second) room act := by
  by_cases h : first + second ≤ room
  · rw [descend_of_le (Nat.le_of_add_right_le h), descend_of_le (Nat.le_sub_of_add_le' h),
      descend_of_le h, Nat.sub_add_eq]
  · rw [descend_of_lt (Nat.not_le.1 h)]
    by_cases hf : first ≤ room
    · rw [descend_of_le hf, descend_of_lt (by omega)]
    · rw [descend_of_lt (Nat.not_le.1 hf)]

theorem descend_extends {room' : Nat} (hr : room ≤ room')
    (h : ∀ room room', room ≤ room' → (act room).Extends (act' room')) :
    (descend levels room act).Extends (descend levels room' act') := by
  by_cases hl : levels ≤ room
  · rw [descend_of_le hl, descend_of_le (Nat.le_trans hl hr)]
    exact h _ _ (Nat.sub_le_sub_right hr levels)
  · rw [descend_of_lt (Nat.not_le.1 hl)]
    exact .throw _ _

theorem descend_yields {P : α → Prop} (h : ∀ room, (act room).Yields P) :
    (descend levels room act).Yields P := by
  by_cases hl : levels ≤ room
  · rw [descend_of_le hl]
    exact h _
  · rw [descend_of_lt (Nat.not_le.1 hl)]
    nofun

theorem descend_settled {P : τ → Prop} (h : ∀ room, (act room).Settled P) :
    (descend levels room act).Settled P := by
  by_cases hl : levels ≤ room
  · rw [descend_of_le hl]
    exact h _
  · rw [descend_of_lt (Nat.not_le.1 hl)]
    exact .throw _

theorem descend_comesTo {P : τ → Prop} {s : τ} (hs : P s) {a : α}
    (h : (descend levels room act).ComesTo P (.ok a)) :
    levels ≤ room ∧ (act (room - levels)).ComesTo P (.ok a) := by
  by_cases hl : levels ≤ room
  · rw [descend_of_le hl] at h
    exact ⟨hl, h⟩
  · rw [descend_of_lt (Nat.not_le.1 hl)] at h
    cases (Act.ComesTo.throw _).unique hs h

end

section

variable {τ : Type} (report : Report) {ask ask' : Nat → Value → Act τ Json}

/-- With more room, what is asked comes to the same. -/
def Widens (ask ask' : Nat → Value → Act τ Json) : Prop :=
  ∀ room room' v, room ≤ room' → (ask room v).Extends (ask' room' v)

theorem ofRange_mono {room room' : Nat} (hr : room ≤ room') {r : Range} {j : Json}
    (h : ofRange report room r = .ok j) : ofRange report room' r = .ok j := by
  obtain ⟨n, hl, h⟩ := Except.of_bind h
  rw [ofRange, hl]
  change (if room' < report.detour + 1 then _ else _) = _
  change (if room < report.detour + 1 then _ else _) = _ at h
  by_cases hd : room < report.detour + 1
  · rw [if_pos hd] at h
    cases h
  · rw [if_neg hd] at h
    rw [if_neg (by omega)]
    exact h

theorem ofLeaf_mono {room room' : Nat} (hr : room ≤ room') {v : Value} {j : Json}
    (h : ofLeaf report room v = .ok j) : ofLeaf report room' v = .ok j := by
  cases v with
  | range r => exact ofRange_mono report hr h
  | _ => exact h

mutual

theorem ofShown_extends (h : Widens ask ask') : ∀ (x : Shown) {room room' : Nat}, room ≤ room' →
    (ofShown report ask room x).Extends (ofShown report ask' room' x)
  | .leaf _, _, _, hr => .ofExcept fun _ hj => ofLeaf_mono report hr hj
  | .unreadable _, _, _, _ => .refl _
  | .list items, _, _, hr | .tuple items, _, _, hr =>
    descend_extends hr fun _ _ hr => (ofItems_extends h items hr).map _
  | .mapping _ entries, _, _, hr =>
    descend_extends hr fun _ _ hr => (ofEntries_extends h entries hr).map _
  | .handle _ properties, _, _, hr =>
    descend_extends hr fun _ _ hr => (ofProperties_extends h properties hr).map _
  | .asked v, _, _, hr => h _ _ v hr

theorem ofItems_extends (h : Widens ask ask') : ∀ (items : List Shown) {room room' : Nat},
    room ≤ room' → (ofItems report ask room items).Extends (ofItems report ask' room' items)
  | [], _, _, _ => .refl _
  | x :: rest, _, _, hr => (ofShown_extends h x hr).bind fun _ =>
    (ofItems_extends h rest hr).bind fun _ => .refl _

theorem ofEntries_extends (h : Widens ask ask') :
    ∀ (entries : List (Value × Shown)) {room room' : Nat}, room ≤ room' →
      (ofEntries report ask room entries).Extends (ofEntries report ask' room' entries)
  | [], _, _, _ => .refl _
  | (_, x) :: rest, _, _, hr => (Act.Extends.refl _).bind fun _ =>
    (ofShown_extends h x hr).bind fun _ => (ofEntries_extends h rest hr).bind fun _ => .refl _

theorem ofProperties_extends (h : Widens ask ask') :
    ∀ (properties : List (String × Shown)) {room room' : Nat}, room ≤ room' →
      (ofProperties report ask room properties).Extends (ofProperties report ask' room' properties)
  | [], _, _, _ => .refl _
  | (_, x) :: rest, _, _, hr => (ofShown_extends h x hr).bind fun _ =>
    (ofProperties_extends h rest hr).bind fun _ => .refl _

end

theorem writable_ofInt {n : Int} {j : Json} (h : ofInt n = .ok j) : Writable j := by
  rw [ofInt, Number.writeInt] at h
  split at h
  · next hn =>
    cases h
    refine .int ?_
    generalize Number.digitCap = cap at hn ⊢
    exact hn
  · cases h

theorem writable_ofInts {ns : List Int} {js : List Json} (h : ns.mapM ofInt = .ok js) :
    ∀ j ∈ js, Writable j := by
  intro j hj
  obtain ⟨n, -, hn⟩ := (Except.mem_of_mapM h).1 j hj
  exact writable_ofInt hn

theorem of_ofRange {room : Nat} {r : Range} {j : Json} (h : ofRange report room r = .ok j) :
    r.length < Range.countCap ∧ ∃ js, r.toList.mapM ofInt = .ok js ∧ j = .array js := by
  obtain ⟨n, hl, h⟩ := Except.of_bind h
  change (if room < report.detour + 1 then _ else _) = _ at h
  by_cases hd : room < report.detour + 1
  · rw [if_pos hd] at h
    cases h
  · rw [if_neg hd] at h
    obtain ⟨js, hjs, h⟩ := Except.of_bind h
    cases h
    refine ⟨?_, js, hjs, rfl⟩
    rw [Value.rangeLength] at hl
    split at hl
    · assumption
    · cases hl

theorem writable_ofLeaf {room : Nat} {v : Value} {j : Json} (h : ofLeaf report room v = .ok j) :
    Writable j := by
  cases v with
  | null =>
    cases h
    exact .null
  | bool b =>
    cases h
    exact .bool b
  | int n => exact writable_ofInt h
  | float x =>
    rw [ofLeaf, ofFloat] at h
    split at h
    · next hx =>
      cases h
      exact .float hx
    · cases h
  | text s =>
    cases h
    exact .text s
  | range r =>
    obtain ⟨-, js, hjs, rfl⟩ := of_ofRange report h
    exact .array (writable_ofInts hjs)
  | _ => cases h

mutual

theorem ofShown_writable (h : ∀ room v, (ask room v).Yields Writable) :
    ∀ (room : Nat) (x : Shown), (ofShown report ask room x).Yields Writable
  | _, .leaf _ => .ofExcept fun _ hj => writable_ofLeaf report hj
  | _, .unreadable _ => nofun
  | _, .list items | _, .tuple items =>
    descend_yields fun room => (ofItems_writable h room items).map fun _ hj => .array hj
  | _, .mapping _ entries =>
    descend_yields fun room => (ofEntries_writable h room entries).map fun _ hj => .object hj
  | _, .handle _ properties =>
    descend_yields fun room => (ofProperties_writable h room properties).map fun _ hj => .object hj
  | room, .asked v => h room v

theorem ofItems_writable (h : ∀ room v, (ask room v).Yields Writable) :
    ∀ (room : Nat) (items : List Shown),
      (ofItems report ask room items).Yields fun js => ∀ j ∈ js, Writable j
  | _, [] => .pure (List.forall_mem_nil _)
  | room, x :: rest => (ofShown_writable h room x).seq fun _ hj =>
    (ofItems_writable h room rest).seq fun _ hjs => .pure (List.forall_mem_cons.2 ⟨hj, hjs⟩)

theorem ofEntries_writable (h : ∀ room v, (ask room v).Yields Writable) :
    ∀ (room : Nat) (entries : List (Value × Shown)),
      (ofEntries report ask room entries).Yields fun ms => ∀ m ∈ ms, Writable m.2
  | _, [] => .pure (List.forall_mem_nil _)
  | room, (_, x) :: rest => .bind fun _ => (ofShown_writable h room x).seq fun _ hj =>
    (ofEntries_writable h room rest).seq fun _ hms => .pure (List.forall_mem_cons.2 ⟨hj, hms⟩)

theorem ofProperties_writable (h : ∀ room v, (ask room v).Yields Writable) :
    ∀ (room : Nat) (properties : List (String × Shown)),
      (ofProperties report ask room properties).Yields fun ms => ∀ m ∈ ms, Writable m.2
  | _, [] => .pure (List.forall_mem_nil _)
  | room, (_, x) :: rest => (ofShown_writable h room x).seq fun _ hj =>
    (ofProperties_writable h room rest).seq fun _ hms => .pure (List.forall_mem_cons.2 ⟨hj, hms⟩)

end

end

section

variable {σ : Type} (host : Host σ) (report : Report)

def ofAsked (within : List Nat) (depth room : Nat) (h : Value) : Act (World σ) Json := do
  let exported ← Act.mapFault report.ofReading (askExports host report within h)
  descend report.detour room fun room => ofValue host report (h.id :: within) depth room exported

theorem ofValue_succ (within : List Nat) (depth room : Nat) (v : Value) :
    ofValue host report within (depth + 1) room v =
      ofShown report (ofAsked host report within depth) room v.shown :=
  rfl

theorem isAmong_of_subset {within within' : List Nat} (h : within' ⊆ within) {v : Value}
    (hv : v.isAmong within' = true) : v.isAmong within = true := by
  rw [Value.isAmong, Bool.and_eq_true, List.contains_iff_mem] at hv ⊢
  exact hv.imp_right fun hm => h hm

theorem askExports_extends {within within' : List Nat} (h : within' ⊆ within) (v : Value) :
    (askExports host report within v).Extends (askExports host report within' v) := by
  refine (Act.Extends.refl _).bind fun _ => ?_
  by_cases hv : v.isAmong within = true
  · rw [if_pos hv]
    exact .throw _ _
  · rw [if_neg hv, if_neg fun hv' => hv (isAmong_of_subset h hv')]
    exact .refl _

theorem ofValue_extends {within within' : List Nat} {depth depth' room room' : Nat}
    (hi : within' ⊆ within) (h : depth ≤ depth') (hr : room ≤ room') (v : Value) :
    (ofValue host report within depth room v).Extends
      (ofValue host report within' depth' room' v) := by
  induction depth generalizing within within' depth' room room' v with
  | zero => exact .throw _ _
  | succ depth ih =>
    obtain ⟨depth', rfl⟩ := Nat.exists_eq_succ_of_ne_zero (n := depth') (by omega)
    rw [ofValue_succ, ofValue_succ]
    refine ofShown_extends report (fun room room' u hr => ?_) v.shown hr
    refine ((askExports_extends host report hi u).mapFault _).bind fun exported => ?_
    exact descend_extends hr fun room room' hr =>
      ih (List.cons_subset_cons _ hi) (by omega) hr exported

theorem ofValue_writable (within : List Nat) (depth room : Nat) (v : Value) :
    (ofValue host report within depth room v).Yields Writable := by
  induction depth generalizing within room v with
  | zero => nofun
  | succ depth ih =>
    rw [ofValue_succ]
    refine ofShown_writable report (fun room u => .bind fun exported => ?_) room v.shown
    exact descend_yields fun room => ih _ room exported

def ofMembers (within : List Nat) (depth room : Nat) (t : Table Value) :
    Act (World σ) (List (String × Json)) :=
  t.mapM fun (name, v) => (name, ·) <$> ofValue host report within depth room v

theorem ofValue_items (within : List Nat) (depth room : Nat) {v : Value} {items : List Value}
    (hv : v = .list items ∨ v = .tuple items) :
    ofValue host report within (depth + 1) room v = descend 1 room fun room =>
      .array <$> items.mapM (ofValue host report within (depth + 1) room) := by
  have hi : ∀ room,
      ofItems report (ofAsked host report within depth) room (Value.shownItems items) =
        items.mapM (ofValue host report within (depth + 1) room) := by
    clear hv
    intro room
    induction items with
    | nil => rfl
    | cons v items ih =>
      rw [Value.shownItems, ofItems, ih, List.mapM_cons]
      rfl
  rcases hv with rfl | rfl
  · simp only [ofValue_succ, Value.shown, ofShown, hi]
  · simp only [ofValue_succ, Value.shown, ofShown, hi]

theorem ofValue_mapping (within : List Nat) (depth room : Nat) (form : MappingForm)
    (t : Table Value) :
    ofValue host report within (depth + 1) room
        (.mapping form (t.map fun (name, v) => (.text name, v))) =
      descend (report.levels form) room fun room =>
        .object <$> ofMembers host report within (depth + 1) room t := by
  have ht : ∀ room, ofEntries report (ofAsked host report within depth) room
      (Value.shownEntries (t.map fun (name, v) => (.text name, v))) =
        ofMembers host report within (depth + 1) room t := by
    intro room
    induction t with
    | nil => rfl
    | cons entry t ih =>
      change (do
        let j ← ofValue host report within (depth + 1) room entry.2
        let ms ← ofEntries report (ofAsked host report within depth) room
          (Value.shownEntries (t.map _))
        return (entry.1, j) :: ms) = _
      rw [ih, ofMembers, ofMembers, List.mapM_cons]
      simp only [map_eq_pure_bind, bind_assoc, pure_bind]
  simp only [ofValue_succ, Value.shown, ofShown, ht]

theorem ofProperties_shown (within : List Nat) (depth room : Nat) (t : Table Value) :
    ofProperties report (ofAsked host report within depth) room
        (t.map fun (name, v) => (name, v.shown)) =
      ofMembers host report within (depth + 1) room t := by
  induction t with
  | nil => rfl
  | cons entry t ih =>
    rw [List.map_cons, ofProperties, ih, ofMembers, ofMembers, List.mapM_cons]
    simp only [map_eq_pure_bind, bind_assoc, pure_bind]
    rfl

end

def Report.ofIndent : Option Int → Report
  | none => .silent
  | some _ => .shown

def Layout.ofIndent : Option Int → Layout
  | none => .compact
  | some width => .indented width.toNat

theorem Layout.blank_ofIndent (indent : Option Int) : (Layout.ofIndent indent).Blank := by
  cases indent with
  | none => exact blank_compact
  | some width => exact blank_indented width.toNat

theorem encode_eq {σ : Type} (host : Host σ) (room : Nat) (indent : Option Int) (v : Value) :
    encode host room indent v = do
      Act.ofExcept v.checkClass
      return toText (.ofIndent indent)
        (← ofValue host (.ofIndent indent) [] (room + 1) room v) := by
  cases indent <;> rfl

theorem toText_ne_empty {layout : Layout} {j : Json} (h : Writable j) : toText layout j ≠ "" := by
  rw [toText]
  exact fun he => h.write_ne_nil layout 0 (String.ofList_eq_empty_iff.1 he)

end Json

end Inlay
