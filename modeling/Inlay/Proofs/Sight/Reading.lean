import Inlay.Proofs.Sight.Content
import Inlay.Value.Standard

/-! Reading an attribute that is in sight gives what is seen of the attribute. -/

namespace Inlay.Value

variable {s : Sight}

theorem ofTable_seen (t : Table Value) :
    (ofTable t).seen s = ofTable (t.map fun (name, v) => (name, v.seen s)) := by
  rw [ofTable, ofTable, seen, seenEntries_eq_map, List.map_map, List.map_map]
  rfl

theorem standard?_seen {name : String} (hn : name ≠ holdingsName) (v : Value) :
    (v.seen s).standard? name = (v.standard? name).map (seen s) := by
  simp only [standard?, if_neg hn, kind_seen, isHashed_seen, documentation_seen, moduleName_seen]
  split
  · rfl
  · split
    · rfl
    · split
      · cases v <;> rfl
      · rfl
      · rfl
      · rw [Option.map_map]
        rfl

theorem innateData_seen (v : Value) :
    (v.seen s).innateData = v.innateData.map fun (n, w) => (n, w.seen s) := by
  cases v with
  | mapping form entries => cases form <;> rfl
  | _ => rfl

theorem innateText?_seen (typeName name : String) :
    (innateText? typeName name).map (seen s) = innateText? typeName name := by
  unfold innateText?
  split
  · cases (TypeInfo.find? typeName).bind (·.doc) <;> rfl
  · split <;> rfl

theorem recased?_seen (v : Value) (name : String) :
    (v.seen s).recased? name = (v.recased? name).map (seen s) := by
  cases v with
  | text t =>
    change (text t).recased? name = ((text t).recased? name).map (seen s)
    unfold recased?
    split <;> rfl
  | _ => rfl

theorem isElementary_seen (v : Value) : (v.seen s).isElementary = v.isElementary := by
  cases v <;> rfl

theorem innate?_seen (v : Value) (name : String) :
    (v.seen s).innate? name = (v.innate? name).map (seen s) := by
  have hd : Table.get? (v.seen s).innateData name =
      (Table.get? v.innateData name).map (seen s) := by
    rw [innateData_seen, Table.get?_map]
  rw [innate?, innate?, isElementary_seen, recased?_seen, hd, typeName_seen]
  split
  · cases v.recased? name with
    | some w => rfl
    | none =>
      cases Table.get? v.innateData name with
      | some w => rfl
      | none =>
        have ht := innateText?_seen (s := s) v.typeName name
        cases hi : innateText? v.typeName name with
        | some w =>
          rw [hi] at ht
          exact ht.symm
        | none => cases boundType? v.typeName name <;> rfl
  · rfl

theorem memberNamed?_seen {name : String} (hn : name ≠ holdingsName) (v : Value) :
    inherited?.memberNamed? name (v.seen s) =
      (inherited?.memberNamed? name v).map (seen s) := by
  simp only [inherited?.memberNamed?, members_seen, isHosted_seen, standard?_seen hn]
  cases v.members.find? (·.name = name) with
  | some m => rfl
  | none =>
    cases v.isHosted with
    | true => rfl
    | false => exact innate?_seen v name

theorem lists_seen (face : Face) (name : String) :
    (Table.get? face.lists name).map (seen s) = Table.get? face.lists name := by
  have hl : (face.lists.map fun (n, v) => (n, v.seen s)) = face.lists := by
    simp only [Face.lists, List.map_cons, List.map_nil, ofTexts_seen]
  rw [← Table.get?_map, hl]

theorem inherited?_seen {name : String} (hn : name ≠ holdingsName) (v : Value) :
    (v.seen s).inherited? name = (v.inherited? name).map (seen s) := by
  have h := memberNamed?_seen (s := s) hn v
  cases v with
  | object id face own size =>
    have hl := lists_seen (s := s) face name
    rw [seen] at h
    rw [seen, inherited?, inherited?, h]
    cases hg : Table.get? face.lists name with
    | none => rfl
    | some w =>
      rw [hg] at hl
      exact hl.symm
  | _ => exact h

theorem readPlainly_seen {v : Value} {name : String} (h : s.Sees v name)
    (hn : name ≠ holdingsName) :
    (v.seen s).readPlainly name = seen s <$> v.readPlainly name := by
  rw [readPlainly, readPlainly, get?_own_seen h, inherited?_seen hn, typeName_seen]
  cases Table.get? v.own name with
  | some a => cases a <;> rfl
  | none =>
    cases v.inherited? name with
    | some w => rfl
    | none => rfl

theorem read_seen {v : Value} {name : String} (h : s.Sees v name) (hn : name ≠ holdingsName) :
    (v.seen s).read name = seen s <$> v.read name := by
  have ho : ∀ e : Except Fault Value,
      (v.seen s).orFallback (seen s <$> e) = seen s <$> v.orFallback e := by
    intro e
    cases e with
    | ok w => rfl
    | error f =>
      have hr : (v.seen s).raised? fallbackName = v.raised? fallbackName :=
        raised?_seen_asked v (by decide)
      exact congrArg
        (fun r : Option Fault => Except.error (if f.saysAbsent then r.getD f else f)) hr
  rw [read, read, raised?_seen_asked v (by decide), readPlainly_seen h hn, ← ho]
  cases v.raised? readerName with
  | none => rfl
  | some f => rfl

theorem read_seen_asked (v : Value) {name : String} (h : name ∈ Sight.askedNames) :
    (v.seen s).read name = seen s <$> v.read name :=
  read_seen (Sight.sees_asked h v) fun hn => absurd (hn ▸ h) (by decide)

theorem read?_seen {v : Value} {name : String} (h : s.Sees v name) (hn : name ≠ holdingsName) :
    (v.seen s).read? name = (Option.map (seen s)) <$> v.read? name := by
  rw [read?, read?, read_seen h hn]
  cases v.read name with
  | ok w => rfl
  | error f =>
    by_cases hf : f.saysAbsent = true
    · simp [hf, Functor.map, Except.map]
    · simp [hf, Functor.map, Except.map]

theorem read?_seen_asked (v : Value) {name : String} (h : name ∈ Sight.askedNames) :
    (v.seen s).read? name = (Option.map (seen s)) <$> v.read? name :=
  read?_seen (Sight.sees_asked h v) fun hn => absurd (hn ▸ h) (by decide)

theorem present?_seen (found : Option Value) :
    present? (found.map (seen s)) = (present? found).map (seen s) := by
  rcases found with _ | v
  · rfl
  · cases v <;> rfl

theorem eq_some_of_present? {found : Option Value} {v : Value} (h : present? found = some v) :
    found = some v := by
  rcases found with _ | w
  · cases h
  · cases w <;> cases h <;> rfl

theorem exposed?_seen {target : Value} {name : String} (h : s.Sees target name)
    (hn : name ≠ holdingsName) :
    (target.seen s).exposed? name = (Option.map (seen s)) <$> target.exposed? name := by
  rw [exposed?, exposed?, read?_seen h hn]
  cases target.read? name with
  | ok found => exact congrArg Except.ok (present?_seen found)
  | error f => rfl

@[simp] theorem readClass_seen (v : Value) : (v.seen s).readClass = v.readClass := by
  have h : (fun _ => ()) <$> (v.seen s).read className = (fun _ => ()) <$> v.read className := by
    rw [read_seen_asked v (by decide)]
    cases v.read className with
    | ok w => rfl
    | error f => rfl
  cases v with
  | plain id shown own => exact h
  | object id face own size => exact h
  | _ => rfl

@[simp] theorem checkClass_seen (v : Value) : (v.seen s).checkClass = v.checkClass := by
  rw [checkClass, checkClass, readClass_seen]

@[simp] theorem classify_seen (v : Value) : (v.seen s).classify = v.classify := by
  have hc := checkClass_seen (s := s) v
  have h : (fun _ => (v.seen s).kind) <$> (v.seen s).readClass =
      (fun _ => v.kind) <$> v.readClass := by
    rw [kind_seen, readClass_seen]
  cases v with
  | object id face own size => exact congrArg ((fun _ => Kind.object) <$> ·) hc
  | _ => exact h

@[simp] theorem isOwnTarget_seen (v : Value) : (v.seen s).isOwnTarget = v.isOwnTarget := by
  cases v with
  | object id face own size =>
    have h := get?_seenOwn (s.asked id Member.target.name (by decide)) own
    simp only [seen, isOwnTarget, Table.contains, h, Option.isSome_map]
  | _ => rfl

theorem own_or_inherited_of_read {v w : Value} {name : String} (h : v.read name = .ok w) :
    Table.get? v.own name = some (.value w) ∨
      Table.get? v.own name = none ∧ v.inherited? name = some w := by
  have hp : v.readPlainly name = .ok w := by
    rw [read] at h
    cases hr : v.raised? readerName with
    | some f =>
      rw [hr] at h
      cases h
    | none =>
      rw [hr] at h
      cases hp : v.readPlainly name with
      | ok u =>
        rw [hp] at h
        exact h
      | error f =>
        rw [hp] at h
        cases h
  rw [readPlainly] at hp
  cases ho : Table.get? v.own name with
  | some a =>
    rw [ho] at hp
    cases a with
    | value u =>
      cases hp
      exact .inl rfl
    | raises kind message => cases hp
  | none =>
    rw [ho] at hp
    cases hi : v.inherited? name with
    | some u =>
      rw [hi] at hp
      cases hp
      exact .inr ⟨rfl, rfl⟩
    | none =>
      rw [hi] at hp
      cases hp

end Inlay.Value
