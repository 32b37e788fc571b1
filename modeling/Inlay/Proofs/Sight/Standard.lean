import Inlay.Proofs.Act.Match
import Inlay.Proofs.Sight.Guard
import Inlay.World
import Mathlib.Tactic.SplitIfs

/-! Standard members that are not reflective answer the same whatever is in sight. -/

namespace Inlay

variable {s : Sight}

namespace Value

theorem seen_of_isSimple {v : Value} (h : v.isSimple = true) : v.seen s = v := by
  cases v with
  | tuple items =>
    cases items with
    | nil => rfl
    | cons => cases h
  | plain id shown own =>
    cases own with
    | nil => rfl
    | cons => cases id <;> cases h
  | null | bool | int | float | text | callable => rfl
  | _ => cases h

def GivesSimple (e : Except Fault Value) : Prop := ∀ v, e = .ok v → v.isSimple = true

theorem GivesSimple.ok {v : Value} (h : v.isSimple = true) : GivesSimple (.ok v) := by
  rintro _ ⟨⟩
  exact h

theorem GivesSimple.error (f : Fault) : GivesSimple (.error f) := by
  rintro _ ⟨⟩

theorem GivesSimple.text (e : Except Fault String) : GivesSimple (.text <$> e) := by
  cases e with
  | ok t => exact .ok rfl
  | error f => exact .error f

variable {name : String} (v : Value) (vs : List Value)

theorem slotAnswer_seen (hn : name ≠ readerName) :
    (v.seen s).slotAnswer name (vs.map (Value.seen s)) = v.slotAnswer name vs ∧
      GivesSimple (v.slotAnswer name vs) := by
  have he : (v.seen s).raised? "__eq__" = v.raised? "__eq__" := raised?_seen_asked v (by decide)
  fun_cases slotAnswer v name vs with
  | case1 => exact ⟨rfl, .ok rfl⟩
  | case2 _ h =>
    cases vs with
    | nil => exact absurd rfl h
    | cons w rest => exact ⟨by simp only [List.map_cons, slotAnswer, typeName_seen], .error _⟩
  | case3 => exact ⟨by simp only [List.map_nil, slotAnswer, literal_seen], .text _⟩
  | case4 => exact ⟨by simp only [List.map_nil, slotAnswer, display_seen], .text _⟩
  | case5 => exact ⟨rfl, .ok rfl⟩
  | case6 => exact absurd rfl hn
  | case7 w =>
    refine ⟨by simp only [List.map_cons, List.map_nil, slotAnswer, equals_seen], .ok ?_⟩
    split <;> rfl
  | case8 w =>
    refine ⟨by simp only [List.map_cons, List.map_nil, slotAnswer, equals_seen, he], .ok ?_⟩
    split <;> rfl
  | case9 =>
    refine ⟨?_, .ok rfl⟩
    rcases vs with _ | ⟨w, _ | ⟨u, rest⟩⟩ <;> simp_all [slotAnswer]
  | case10 =>
    refine ⟨?_, .error _⟩
    rcases vs with _ | ⟨w, _ | ⟨u, rest⟩⟩ <;> simp_all [slotAnswer]

theorem laidOut_seen (w : Value) :
    (v.seen s).laidOut (w.seen s) = v.laidOut w ∧ GivesSimple (v.laidOut w) := by
  have h : (Except.error (.layoutNotText (w.seen s).typeName) : Except Fault Value) =
      .error (.layoutNotText w.typeName) := by
    rw [typeName_seen]
  cases w with
  | text t =>
    refine ⟨by simp only [Value.seen, laidOut, display_seen, typeName_seen], ?_⟩
    rw [laidOut]
    split
    · exact .text _
    · exact .error _
  | _ => exact ⟨h, .error _⟩

theorem methodAnswer_seen (hn : name ∉ Sight.reflectiveNames) :
    (v.seen s).methodAnswer name (vs.map (Value.seen s)) = v.methodAnswer name vs ∧
      GivesSimple (v.methodAnswer name vs) := by
  fun_cases methodAnswer v name vs with
  | case1 layout => exact laidOut_seen v layout
  | case3 _ h =>
    refine ⟨?_, .error _⟩
    rcases vs with _ | ⟨w, _ | ⟨u, rest⟩⟩
    · exact congrArg (fun t => Except.error (Fault.notOneArgument (t ++ "." ++ "__format__") 0))
        (typeName_seen v)
    · exact absurd rfl (h w)
    · simp [methodAnswer]
      rfl
  | case7 => exact ⟨rfl, .ok rfl⟩
  | case9 =>
    refine ⟨?_, .ok rfl⟩
    simp_all [methodAnswer]
  | case10 =>
    refine ⟨?_, .error _⟩
    rcases vs with _ | ⟨w, _ | ⟨u, rest⟩⟩ <;> simp_all [methodAnswer] <;> rfl
  | _ => exact absurd hn (by decide)

theorem eq_className_of_property (h : Member.standardForm? name = some .property) :
    name = className := by
  rw [Member.standardForm?, TypeInfo.member?] at h
  split_ifs at h with _ _ hp <;> cases h
  exact List.mem_singleton.1 (List.contains_iff_mem.1 hp)

theorem fixedAnswer_seen (hn : name ∉ Sight.reflectiveNames) :
    (v.seen s).fixedAnswer name (vs.map (Value.seen s)) = v.fixedAnswer name vs ∧
      GivesSimple (v.fixedAnswer name vs) := by
  have hne : ∀ n ∈ Sight.reflectiveNames, name ≠ n := fun n hm he => hn (he ▸ hm)
  have hm := methodAnswer_seen (s := s) v vs hn
  fun_cases fixedAnswer v name vs with
  | case1 _ h =>
    rw [fixedAnswer.eq_def, h]
    exact slotAnswer_seen v vs (hne readerName (by decide))
  | case2 _ h => exact absurd (eq_className_of_property h) (hne className (by decide))
  | case3 _ h =>
    rw [fixedAnswer.eq_def, h]
    refine ⟨?_, .error _⟩
    cases vs with
    | nil => rfl
    | cons w rest =>
      exact congrArg (fun t => Except.error (Fault.noClass (some t))) (typeName_seen w)
  | case4 => exact ⟨rfl, .ok rfl⟩
  | case5 =>
    rw [fixedAnswer.eq_def]
    split <;> simp_all

theorem guards_state {v : Value} (h : s.Guards v) : s.Guards v.state := by
  unfold state
  split
  · exact .simple rfl
  · exact h.holdings

theorem guards_fixedAnswer {v w : Value} (h : s.Guards v) (hn : ¬s.Bars name)
    (hw : v.fixedAnswer name vs = .ok w) : s.Guards w := by
  by_cases hr : name ∈ Sight.reflectiveNames
  · have hh : name ∈ Sight.holdingNames :=
      (List.mem_append.1 hr).resolve_left fun hc => hn (.inl hc)
    simp only [Sight.holdingNames, List.mem_cons, List.not_mem_nil, or_false] at hh
    rcases hh with rfl | rfl | rfl
    · change v.methodAnswer "__dict__" vs = .ok w at hw
      cases vs with
      | nil =>
        cases hw
        exact .simple rfl
      | cons => cases hw
    · change v.methodAnswer "__getstate__" vs = .ok w at hw
      cases vs with
      | nil =>
        cases hw
        exact guards_state h
      | cons => cases hw
    · change v.methodAnswer "__dir__" vs = .ok w at hw
      cases vs with
      | nil =>
        cases hw
        refine Sight.Guards.list_iff.2 fun u hu => ?_
        obtain ⟨n, -, rfl⟩ := List.mem_map.1 hu
        exact .simple rfl
      | cons => cases hw
  · exact .simple ((fixedAnswer_seen (s := s) v vs hr).2 w hw)

theorem standardAnswer_of_kept {τ : Type} [Changes τ] (hn : name ∉ Sight.changingNames) :
    (v.standardAnswer name vs : Act τ Value) = Act.ofExcept (v.fixedAnswer name vs) := by
  have hne : ∀ n ∈ Sight.changingNames, name ≠ n := fun n hm he => hn (he ▸ hm)
  have hs := hne "__setattr__" (by decide)
  have hd := hne "__delattr__" (by decide)
  rw [standardAnswer.eq_def]
  split
  · exact absurd rfl hs
  · exact absurd rfl hd
  · rfl

end Value

end Inlay
