import Inlay.Proofs.Act.Settled
import Inlay.Proofs.Handle.Exposure
import Inlay.Proofs.World.Session

/-! Handles that answer by themselves what they export and what a key finds in them. -/

namespace Inlay

variable {σ : Type} {host : Host σ} {P : World σ → Prop}

namespace Value

def exposed (v : Value) (target : Except Fault Value) : Except Fault (Table Value) := do
  let names ← Handle.names (← v.read Face.propertiesName)
  Handle.exposures target names

theorem of_exposed {v : Value} {target : Except Fault Value} {exposed : Table Value}
    (h : v.exposed target = .ok exposed) : ∃ p names, v.read Face.propertiesName = .ok p ∧
      Handle.names p = .ok names ∧ Handle.exposures target names = .ok exposed := by
  obtain ⟨p, hp, h⟩ := Except.of_bind h
  obtain ⟨names, hn, hx⟩ := Except.of_bind h
  exact ⟨p, names, hp, hn, hx⟩

theorem ask_of_read {v : Value} {m : Member} (h : v.read m.name = .ok (.method v m))
    (arguments : List Value) :
    v.ask host m arguments = Handle.answer (call host (callCap - 1)) v m arguments := by
  rw [ask, Handle.ask, h]
  rfl

theorem read_common {v : Value} (hk : v.kind = .object) {m : Member} (hm : m ∈ Member.common)
    (ho : Table.get? v.own m.name = none) (hr : v.raised? readerName = none) :
    v.read m.name = .ok (.method v m) := by
  rw [read, hr, readPlainly, ho, Handle.inherited?_common hk hm]
  rfl

end Value

namespace Handle

/-- A handle that is asked for its exports and its properties answers as all handles do, always of
the same target, and lists the names of its properties one by one. -/
structure Candid (host : Host σ) (P : World σ → Prop) (v : Value) (target : Except Fault Value) :
    Prop where
  kind : v.kind = .object
  checkClass : v.checkClass = .ok ()
  property : v.read Member.property.name = .ok (.method v .property)
  exports : v.read Member.exports.name = .ok (.method v .exports)
  listed : ∀ s, v.read Face.propertiesName ≠ .ok (.text s)
  target : (ask (Value.call host (Value.callCap - 1)) v .target []).ComesTo P target

theorem exports_comesTo {v : Value} {target : Except Fault Value}
    (hx : v.read Member.exports.name = .ok (.method v .exports))
    (ht : (ask (Value.call host (Value.callCap - 1)) v .target []).ComesTo P target) :
    (v.ask host .exports []).ComesTo P (Value.ofTable <$> v.exposed target) := by
  have he : Value.ofTable <$> v.exposed target =
      (v.read Face.propertiesName >>= names) >>= fun names =>
        names.mapM (exposure target) >>= fun found =>
          .ok (.ofTable (Table.ofList (found.filterMap fun e => e.2.map (e.1, ·)))) := by
    rw [Value.exposed, map_bind]
    simp only [exposures, map_bind, map_pure, bind_assoc]
    rfl
  rw [Value.ask_of_read hx, answer, Handle.exports, he]
  refine .bindExcept fun names _ => ?_
  refine Act.ComesTo.bind (.mapM names fun name _ => ?_) fun found _ => .pure _
  exact ht.bind fun t _ => .bindExcept fun s _ => .bindExcept fun found _ => .pure _

theorem target_comesTo {v : Value}
    (ht : v.read Member.target.name = .ok (.method v .target)) :
    (ask (Value.call host (Value.callCap - 1)) v .target []).ComesTo P (.ok (target v)) := by
  rw [ask, ht]
  exact .pure _

theorem shown_unasked {v : Value} (hk : v.kind = .object) : v.shown = .asked v ∨
    v.read Member.exports.name = .ok (.method v .exports) ∧
      v.read Member.target.name = .ok (.method v .target) ∧
      ∃ className, v.shown = Shown.ofExports className
        ((List.map fun (name, u) => (name, u.shown)) <$> v.exposed (.ok (Handle.target v))) := by
  have hexposed : ∀ face, v.read Face.propertiesName = .ok (.ofTexts face.properties) →
      Value.exposesOwn face (Handle.target v) = true →
      Shown.exposed face (Value.shownOwn (Handle.target v)) =
        Shown.ofExports face.className
          ((List.map fun (name, u) => (name, u.shown)) <$> v.exposed (.ok (Handle.target v))) := by
    intro face hp ho
    have hx : v.exposed (.ok (Handle.target v)) = face.exports (Handle.target v).exposed? := by
      rw [← exposures_ofTexts, Value.exposed, hp]
      rfl
    rw [Value.exposesOwn, Bool.and_eq_true, Bool.not_eq_true', List.all_eq_true] at ho
    rw [Shown.exposed, hx, Face.exports_map Value.shown fun name hn =>
      Value.shown_exposed? ho.1 (Bool.or_eq_true _ _ ▸ ho.2 name hn)]
  cases v with
  | wrapped id face t =>
    rw [Value.shown]
    split
    · next ho => exact .inr ⟨rfl, rfl, face.className, hexposed face rfl ho⟩
    · exact .inl rfl
  | object id face own size =>
    rw [Value.shown]
    split
    · exact .inl rfl
    · next ho =>
      rw [Bool.or_eq_true, not_or, Bool.not_eq_true, Bool.not_eq_true, Bool.not_eq_false'] at ho
      have hr : (Value.object id face own size).raised? Value.readerName = none :=
        Value.raised?_of_absent (Value.get?_of_hasAny (Value.hasAny_of_exposesOwn ho.2) (by decide))
      have hread : ∀ m ∈ Member.common, m.name ∈ Value.answeringNames →
          (Value.object id face own size).read m.name = .ok (.method _ m) := fun m hm hn =>
        Value.read_common rfl hm (Value.get?_of_hasAny ho.1 hn) hr
      exact .inr ⟨hread .exports (by decide) (by decide), hread .target (by decide) (by decide),
        face.className, hexposed face
          (Value.read_properties (Value.get?_of_hasAny ho.1 (by decide)) hr) ho.2⟩
  | _ => cases hk

namespace Candid

variable {v : Value} {target : Except Fault Value} (h : Candid host P v target)

include h

theorem exports_comesTo :
    (v.ask host .exports []).ComesTo P (Value.ofTable <$> v.exposed target) :=
  Handle.exports_comesTo h.exports h.target

theorem lookup_comesTo {exposed : Table Value} (hx : v.exposed target = .ok exposed)
    (key : String) :
    (v.lookup host key).ComesTo P (.ok (Table.get? exposed key)) ∨
      Table.get? exposed key = none ∧ ∃ f, (v.lookup host key).ComesTo P (.error f) := by
  have hkind : v.classify = .ok .object := by
    have hc := h.checkClass
    cases v with
    | object => rw [Value.classify, hc]; rfl
    | wrapped => rfl
    | _ => cases h.kind
  have hlookup : v.lookup host key = (fun u => Value.present? (some u)) <$>
      Handle.property (Value.call host (Value.callCap - 1)) v (.text key) := by
    rw [Value.lookup, hkind, ← answer, ← Value.ask_of_read h.property, map_eq_pure_bind]
    rfl
  obtain ⟨p, names, hp, hn, hx⟩ := Value.of_exposed hx
  have hproperty : Handle.property (Value.call host (Value.callCap - 1)) v (.text key) = do
      if ← Act.ofExcept (p.holds (.text key)) then
        let target ← ask (Value.call host (Value.callCap - 1)) v .target []
        return (← Act.ofExcept (target.exposed? key)).getD .missing
      else return .missing := by
    rw [Handle.property, hp]
    rfl
  have hlisted : ∀ s, p ≠ .text s := fun s hs => h.listed s (hs ▸ hp)
  have hnone : p.holds (.text key) ≠ .ok true → Table.get? exposed key = none := fun hh =>
    get?_exposures_of_notMem hx fun hm => hh (holds_of_names hn hm)
  rw [hlookup, hproperty]
  cases hh : p.holds (.text key) with
  | error f =>
    exact .inr ⟨hnone (hh ▸ nofun), f, (Act.ComesTo.bind_error (.throw f)).map _⟩
  | ok held =>
    cases held with
    | false =>
      rw [hnone (hh ▸ nofun)]
      exact .inl (Act.ComesTo.map (r := .ok Value.missing) _ (.bind_ok (.pure false) (.pure _)))
    | true =>
      obtain ⟨t, rfl, ht⟩ := get?_exposures hx (mem_of_holds hn hlisted hh)
      have hget : (.ok (Table.get? exposed key) : Except Fault (Option Value)) =
          (fun u => Value.present? (some u)) <$> .ok ((Table.get? exposed key).getD .missing) := by
        cases hg : Table.get? exposed key with
        | none => rfl
        | some u =>
          have hu : u ≠ .missing := fun hu => t.exposed?_ne_missing key (hu ▸ hg ▸ ht)
          exact congrArg Except.ok (Value.present?_of_ne hu).symm
      rw [hget]
      refine .inl ((Act.ComesTo.bind_ok (.pure true) (.bind_ok h.target ?_)).map _)
      rw [ht]
      exact .bind_ok (.ofExcept _) (.pure _)

theorem shown {w : World σ} (hw : P w) : v.shown = .asked v ∨
    ∃ className, v.shown = Shown.ofExports className
      ((List.map fun (name, u) => (name, u.shown)) <$> v.exposed target) := by
  rcases shown_unasked h.kind with hs | ⟨-, ht, hs⟩
  · exact .inl hs
  · rw [h.target.unique hw (target_comesTo ht)]
    exact .inr hs

end Candid

end Handle

end Inlay
