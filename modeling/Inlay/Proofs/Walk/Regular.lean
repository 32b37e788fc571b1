import Inlay.Proofs.Handle.Answer
import Inlay.Proofs.Json.Document

/-! Regular values: what they are encoded as is settled, and is put together from the documents of
their parts. -/

namespace Inlay

variable {σ : Type} {host : Host σ} {P : World σ → Prop} {report : Json.Report}

namespace Value

theorem nodup_exposed {v : Value} {target : Except Fault Value} {exposed : Table Value}
    (h : v.exposed target = .ok exposed) : (exposed.map (·.1)).Nodup := by
  obtain ⟨p, names, -, -, hx⟩ := of_exposed h
  exact Handle.nodup_exposures hx

def isAtom : Value → Bool
  | .list _ | .tuple _ | .mapping .. | .object .. | .wrapped .. => false
  | _ => true

/-- Values whose mappings have texts as keys, each once, and whose handles are candid: so are their
parts, and the parts of these. -/
inductive Regular (host : Host σ) (P : World σ → Prop) : Value → Prop
  | atom {v : Value} : v.isAtom = true → Regular host P v
  | list {items : List Value} : (∀ v ∈ items, Regular host P v) → Regular host P (.list items)
  | tuple {items : List Value} : (∀ v ∈ items, Regular host P v) → Regular host P (.tuple items)
  | mapping {form : MappingForm} {t : Table Value} : (t.map (·.1)).Nodup →
    (∀ e ∈ t, Regular host P e.2) →
    Regular host P (.mapping form (t.map fun (name, v) => (.text name, v)))
  | handle {v : Value} {target : Except Fault Value} : Handle.Candid host P v target →
    (∀ exposed, v.exposed target = .ok exposed → ∀ e ∈ exposed, Regular host P e.2) →
    Regular host P v

theorem shown_atom {v : Value} (h : v.isAtom = true) : v.shown = .leaf v ∨ v.shown = .asked v := by
  cases v with
  | plain id written own =>
    rw [shown]
    split
    · exact .inr rfl
    · exact .inl rfl
  | list | tuple | mapping | object | wrapped => cases h
  | _ => exact .inl rfl

theorem kind_atom {v : Value} (h : v.isAtom = true) : v.kind ≠ .object := by
  cases v with
  | list | tuple | mapping | object | wrapped => cases h
  | _ => nofun

end Value

namespace Json

variable {within : List Nat}

theorem ofAsked_comesTo {v : Value} (hv : v.kind ≠ .object) (depth room : Nat) :
    ∃ f, (ofAsked host report within depth room v).ComesTo P (.error f) := by
  have hask : ∃ f, (askExports host report within v).ComesTo P (.error f) := by
    rw [askExports, if_pos hv]
    cases checkForm report v with
    | error f => exact ⟨f, .bind_error (.throw f)⟩
    | ok _ =>
      refine Exists.imp (fun f => .bind_ok (.pure ())) ?_
      by_cases ha : v.isAmong within = true
      · rw [if_pos ha]
        exact ⟨.circular, .throw _⟩
      · rw [if_neg ha]
        cases v.readClass with
        | error f => exact ⟨f, .bind_error (.throw f)⟩
        | ok _ => exact ⟨.notEncodable v.typeName, .bind_ok (.pure ()) (.throw _)⟩
  obtain ⟨f, hf⟩ := hask
  exact ⟨report.ofReading f, .bind_error (hf.mapFault report.ofReading)⟩

variable (host P report within) in
theorem ofValue_atom {v : Value} (hv : v.isAtom = true) (depth room : Nat) :
    ofValue host report within (depth + 1) room v = Act.ofExcept (ofLeaf report room v) ∨
      ∃ f, (ofValue host report within (depth + 1) room v).ComesTo P (.error f) := by
  rw [ofValue_succ]
  rcases Value.shown_atom hv with h | h
  · rw [h]
    exact .inl rfl
  · rw [h]
    exact .inr (ofAsked_comesTo (Value.kind_atom hv) depth room)

section

variable {v : Value} {target : Except Fault Value} (h : Handle.Candid host P v target)

include h

variable (report within) in
theorem askExports_comesTo : (askExports host report within v).ComesTo P
    (if v.isAmong within then .error .circular else Value.ofTable <$> v.exposed target) := by
  have hform : checkForm report v = .ok () := by
    cases report with
    | silent => rfl
    | shown => exact h.checkClass
  rw [askExports, hform, if_neg (not_not.2 h.kind)]
  refine .bind_ok (.pure ()) ?_
  by_cases ha : v.isAmong within = true
  · rw [if_pos ha, if_pos ha]
    exact .throw _
  · rw [if_neg ha, if_neg ha]
    exact h.exports_comesTo

theorem ofAsked_exposed (depth room : Nat) {exposed : Table Value}
    (hx : v.exposed target = .ok exposed) (ha : ¬v.isAmong within = true) {r : Except Fault Json}
    (hr : Act.ComesTo P (descend report.detour room fun room =>
      ofValue host report (v.id :: within) depth room (.ofTable exposed)) r) :
    (ofAsked host report within depth room v).ComesTo P r := by
  have hask := (askExports_comesTo report within h).mapFault report.ofReading
  rw [if_neg ha, hx] at hask
  exact .bind_ok hask hr

theorem ofAsked_among (depth room : Nat) (ha : v.isAmong within = true) :
    (ofAsked host report within depth room v).ComesTo P
      (.error (report.ofReading .circular)) := by
  have hask := (askExports_comesTo report within h).mapFault report.ofReading
  rw [if_pos ha] at hask
  exact .bind_error hask

theorem ofAsked_unexposed (depth room : Nat) {f : Fault} (hx : v.exposed target = .error f) :
    ∃ f, (ofAsked host report within depth room v).ComesTo P (.error f) := by
  by_cases ha : v.isAmong within = true
  · exact ⟨_, ofAsked_among h depth room ha⟩
  · have hask := (askExports_comesTo report within h).mapFault report.ofReading
    rw [if_neg ha, hx] at hask
    exact ⟨_, .bind_error hask⟩

variable (report within) in
theorem ofValue_candid {w : World σ} (hw : P w) (depth room : Nat) {exposed : Table Value}
    (hx : v.exposed target = .ok exposed) :
    (ofValue host report within (depth + 1) room v = descend (report.detour + 1) room fun room =>
        .object <$> ofMembers host report within (depth + 1) room exposed) ∨
      (∀ r, Act.ComesTo P (descend report.detour room fun room =>
          ofValue host report (v.id :: within) depth room (.ofTable exposed)) r →
        (ofValue host report within (depth + 1) room v).ComesTo P r) ∨
      ∃ f, (ofValue host report within (depth + 1) room v).ComesTo P (.error f) := by
  rw [ofValue_succ]
  rcases h.shown hw with hs | ⟨className, hs⟩
  · rw [hs]
    by_cases ha : v.isAmong within = true
    · exact .inr (.inr ⟨_, ofAsked_among h depth room ha⟩)
    · exact .inr (.inl fun r hr => ofAsked_exposed h depth room hx ha hr)
  · rw [hs, hx]
    refine .inl ?_
    simp only [← ofProperties_shown]
    rfl

theorem ofValue_unexposed {w : World σ} (hw : P w) (depth room : Nat) {f : Fault}
    (hx : v.exposed target = .error f) :
    ∃ f, (ofValue host report within (depth + 1) room v).ComesTo P (.error f) := by
  rw [ofValue_succ]
  rcases h.shown hw with hs | ⟨className, hs⟩
  · rw [hs]
    exact ofAsked_unexposed h depth room hx
  · rw [hs, hx]
    exact ⟨_, .throw _⟩

end

end Json

variable (report) in
theorem Value.Regular.settled {w : World σ} (hw : P w) {v : Value} (h : v.Regular host P)
    (within : List Nat) (depth room : Nat) :
    Act.Settled P (Json.ofValue host report within depth room v) := by
  -- A handle may be encoded as the mapping of its exports, one level down: so the induction on the
  -- value stands inside one on the depth.
  induction depth generalizing within room v with
  | zero => exact .throw _
  | succ depth ih =>
    have hmembers : ∀ t : Table Value,
        (∀ e ∈ t, ∀ room, Act.Settled P (Json.ofValue host report within (depth + 1) room e.2)) →
          ∀ room, Act.Settled P (Json.ofMembers host report within (depth + 1) room t) :=
      fun t ht room => .mapM fun e he => (ht e he room).map _
    induction h generalizing room with
    | @atom v hv =>
      rcases Json.ofValue_atom host P report within hv depth room with he | ⟨f, hf⟩
      · rw [he]
        exact .ofExcept _
      · exact ⟨_, hf⟩
    | list hi hs =>
      rw [Json.ofValue_items host report within depth room (.inl rfl)]
      exact Json.descend_settled fun room => (Act.Settled.mapM fun v hv => hs v hv room).map _
    | tuple hi hs =>
      rw [Json.ofValue_items host report within depth room (.inr rfl)]
      exact Json.descend_settled fun room => (Act.Settled.mapM fun v hv => hs v hv room).map _
    | mapping hn ht hs =>
      rw [Json.ofValue_mapping]
      exact Json.descend_settled fun room => (hmembers _ hs room).map _
    | @handle v target hc ht hs =>
      cases hx : v.exposed target with
      | error f =>
        obtain ⟨f, hf⟩ := Json.ofValue_unexposed hc hw depth room hx
        exact ⟨_, hf⟩
      | ok exposed =>
        rcases Json.ofValue_candid report within hc hw depth room hx with he | he | ⟨f, hf⟩
        · rw [he]
          exact Json.descend_settled fun room => (hmembers exposed (hs exposed hx) room).map _
        · have hm : (Value.ofTable exposed).Regular host P :=
            .mapping (Value.nodup_exposed hx) (ht exposed hx)
          obtain ⟨r, hr⟩ := Json.descend_settled fun room => ih (v := .ofTable exposed) hm _ room
          exact ⟨r, he r hr⟩
        · exact ⟨_, hf⟩

end Inlay
