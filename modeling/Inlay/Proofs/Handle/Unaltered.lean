import Inlay.Proofs.Handle.Answer

/-! Handles that have nothing in the place of their members. What such a handle has for a call, and
what a key finds in it, is told by its lists and the attributes of its target alone: nothing is
called to tell. -/

namespace Inlay

variable {σ : Type} {host : Host σ}

namespace Handle

/-- A handle has nothing of its own in the place of some members. -/
def Unaltered (members : List Member) (v : Value) : Prop :=
  v.kind = .object → ∀ m ∈ members, v.read m.name = .ok (.method v m)

def keyMembers : List Member := [.target, .property]

def callMembers : List Member := [.target, .hasMethod, .callMethod]

def method? (v : Value) (name : String) : Except Fault (Option Value) := do
  if ← (← v.read Face.methodsName).holds (.text name) then
    return (← (target v).read? name).filter Value.isCallable
  else return none

def property? (v : Value) (name : String) : Except Fault (Option Value) := do
  if ← (← v.read Face.propertiesName).holds (.text name) then (target v).exposed? name
  else return none

theorem ask_target {v : Value} (h : v.read Member.target.name = .ok (.method v .target))
    (depth : Nat) : ask (Value.call host (depth + 1)) v .target [] = pure (target v) := by
  rw [ask, h]
  rfl

theorem hasMethod_eq {v : Value} (h : v.read Member.target.name = .ok (.method v .target))
    (depth : Nat) (name : String) :
    hasMethod (Value.call host (depth + 1)) v (.text name) =
      Act.ofExcept ((fun a => .bool (Option.isSome a)) <$> method? v name) := by
  rw [hasMethod, method?, ask_target h, map_bind, Act.ofExcept_bind]
  refine congrArg (_ >>= ·) (funext fun names => ?_)
  rw [map_bind, Act.ofExcept_bind]
  refine congrArg (_ >>= ·) (funext fun listed => ?_)
  cases listed with
  | false => rfl
  | true =>
    have ha : Act.ofExcept (τ := World σ) (Value.text name).attributeName = pure name := rfl
    rw [if_pos rfl, if_pos rfl, pure_bind, ha, pure_bind, map_bind, Act.ofExcept_bind]
    refine congrArg (_ >>= ·) (funext fun a => ?_)
    cases a with
    | none => rfl
    | some a =>
      refine congrArg (fun b => (pure (.bool b) : Act (World σ) Value)) ?_
      rw [Option.any_some, Option.filter_some]
      cases a.isCallable <;> rfl

theorem property_eq {v : Value} (h : v.read Member.target.name = .ok (.method v .target))
    (depth : Nat) (name : String) :
    (fun u => Value.present? (some u)) <$>
        property (Value.call host (depth + 1)) v (.text name) =
      Act.ofExcept (property? v name) := by
  rw [property, property?, ask_target h, map_bind, Act.ofExcept_bind]
  refine congrArg (_ >>= ·) (funext fun names => ?_)
  rw [map_bind, Act.ofExcept_bind]
  refine congrArg (_ >>= ·) (funext fun listed => ?_)
  cases listed with
  | false => rfl
  | true =>
    have ha : Act.ofExcept (τ := World σ) (Value.text name).attributeName = pure name := rfl
    rw [if_pos rfl, if_pos rfl, pure_bind, ha, pure_bind, map_bind]
    cases hx : (target v).exposed? name with
    | error f => rfl
    | ok a =>
      cases a with
      | none => rfl
      | some u =>
        have hu : u ≠ .missing := fun hu => (target v).exposed?_ne_missing name (hu ▸ hx)
        change (pure (Value.present? (some u)) : Act (World σ) (Option Value)) = pure (some u)
        rw [Value.present?_of_ne hu]

theorem read_of_method? {v a : Value} {name : String} (h : method? v name = .ok (some a)) :
    (target v).read name = .ok a := by
  obtain ⟨names, -, h⟩ := Except.of_bind h
  obtain ⟨listed, -, h⟩ := Except.of_bind h
  cases listed with
  | false => cases h
  | true =>
    obtain ⟨found, hr, h⟩ := Except.of_bind h
    obtain ⟨rfl, -⟩ := Option.filter_eq_some_iff.1 (Except.ok.inj h)
    rw [Value.read?] at hr
    split at hr
    · next u hu =>
      cases hr
      exact hu
    · split at hr <;> cases hr

theorem callMethod_eq {v a : Value} {name : String} (hv : Unaltered callMembers v)
    (hk : v.kind = .object) (ha : method? v name = .ok (some a)) (depth : Nat) (vs : List Value) :
    callMethod (Value.call host (depth + 2)) v (.text name) (.list vs) =
      Value.call host (depth + 2) a vs := by
  have ht : v.read Member.target.name = .ok (.method v .target) := hv hk .target (by decide)
  have hm : v.read Member.hasMethod.name = .ok (.method v .hasMethod) :=
    hv hk .hasMethod (by decide)
  have hknown : ask (Value.call host (depth + 2)) v .hasMethod [.text name] =
      (pure (.bool true) : Act (World σ) Value) := by
    rw [ask, hm]
    refine (hasMethod_eq ht depth name).trans ?_
    rw [ha]
    rfl
  have hread : (do (target v).read (← (Value.text name).attributeName)) = .ok a :=
    read_of_method? ha
  rw [callMethod, hknown, pure_bind, ask_target ht]
  change (do
    let callee ← Act.ofExcept (do (target v).read (← (Value.text name).attributeName))
    Value.call host (depth + 2) callee (← Act.ofExcept (spread callee (.list vs)))) = _
  rw [hread]
  rfl

end Handle

namespace Value

def find? (v : Value) (key : String) : Except Fault (Option Value) :=
  if v.kind = .object then Handle.property? v key else v.entryAt? key

theorem kind_of_classify {v : Value} {k : Kind} (h : v.classify = .ok k) : k = v.kind := by
  cases v <;> exact (Except.of_map h).choose_spec.2

theorem lookup_of_unaltered {v : Value} (hv : Handle.Unaltered Handle.keyMembers v) (key : String) :
    v.lookup host key = Act.ofExcept (v.classify >>= fun _ => v.find? key) := by
  rw [lookup, find?]
  cases hc : v.classify with
  | error f => rfl
  | ok k =>
    obtain rfl := kind_of_classify hc
    change (if v.kind = .object then do return present? (some (← v.ask host .property [.text key]))
      else Act.ofExcept (v.entryAt? key)) = Act.ofExcept (if v.kind = .object then _ else _)
    by_cases hk : v.kind = .object
    · have ht : v.read Member.target.name = .ok (.method v .target) := hv hk .target (by decide)
      have hp : v.read Member.property.name = .ok (.method v .property) :=
        hv hk .property (by decide)
      rw [if_pos hk, if_pos hk, ask_of_read hp, ← Handle.property_eq ht 998, map_eq_pure_bind]
      rfl
    · rw [if_neg hk, if_neg hk]

end Value

end Inlay
