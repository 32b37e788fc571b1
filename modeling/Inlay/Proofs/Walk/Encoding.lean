import Inlay.Processor
import Inlay.Proofs.Walk.Navigation

/-! Walking a value and encoding it commute. -/

namespace Inlay

variable {σ : Type} {host : Host σ} {P : World σ → Prop} {indent : Option Int}

namespace Processor

variable {room : Nat}

theorem encode_of_text {v : Value} {w w' : World σ} {s : String}
    (h : encodeWithin host room indent v w = .ok (.text s) w') (hs : s ≠ "") :
    Json.encode host room indent v w = .ok s w' := by
  rw [encodeWithin, Act.bind_apply, Act.observe] at h
  cases he : Json.encode host room indent v w with
  | ok t w₁ =>
    rw [he] at h
    cases h
    rfl
  | error f w₁ =>
    rw [he] at h
    dsimp only at h
    split at h
    · cases h
      exact absurd rfl hs
    · cases h

theorem encode_of_json {v : Value} {w w' : World σ} {s : String}
    (h : Json.encode host room indent v w = .ok s w') :
    encodeWithin host room indent v w = .ok (.text s) w' := by
  rw [encodeWithin, Act.bind_apply, Act.observe, h]
  rfl

end Processor

namespace Encodes

variable {room : Nat} {w : World σ} (hw : P w)

include hw

theorem checkClass {report : Json.Report} {within : List Nat} {depth : Nat} {v : Value} {j : Json}
    (h : Encodes host P report within depth room v j) : v.checkClass = .ok () := by
  obtain ⟨depth, rfl⟩ := Nat.exists_eq_succ_of_ne_zero (h.depth_ne_zero hw)
  cases h.regular with
  | handle hc _ => exact hc.checkClass
  | atom hv =>
    have hj := h.of_atom hw hv
    cases v with
    | plain => cases hj
    | object => cases hv
    | _ => rfl
  | _ => rfl

theorem writable {report : Json.Report} {within : List Nat} {depth : Nat} {v : Value} {j : Json}
    (h : Encodes host P report within depth room v j) : j.Writable := by
  obtain ⟨w', -, he⟩ := h.document w hw
  exact Json.ofValue_writable host report within depth room v w j w' he

theorem encode {v : Value} {j : Json}
    (h : Encodes host P (.ofIndent indent) [] (room + 1) room v j) :
    ∃ w', P w' ∧ Processor.encodeWithin host room indent v w =
      .ok (.text (Json.toText (.ofIndent indent) j)) w' := by
  obtain ⟨w', hw', he⟩ := h.document w hw
  refine ⟨w', hw', Processor.encode_of_json ?_⟩
  rw [Json.encode_eq, h.checkClass hw]
  change (Json.ofValue host (.ofIndent indent) [] (room + 1) room v >>= _) w = _
  rw [Act.bind_apply, he]
  rfl

theorem of_encode {v : Value} (hv : v.Regular host P) {w' : World σ} {s : String} (hs : s ≠ "")
    (h : Processor.encodeWithin host room indent v w = .ok (.text s) w') :
    P w' ∧ ∃ j, s = Json.toText (.ofIndent indent) j ∧
      Encodes host P (.ofIndent indent) [] (room + 1) room v j := by
  have he := Processor.encode_of_text h hs
  rw [Json.encode_eq] at he
  cases hc : v.checkClass with
  | error f =>
    rw [hc] at he
    cases he
  | ok _ =>
    rw [hc] at he
    change (Json.ofValue host (.ofIndent indent) [] (room + 1) room v >>= _) w = _ at he
    rw [Act.bind_apply] at he
    obtain ⟨r, hr⟩ := hv.settled (.ofIndent indent) hw [] (room + 1) room
    cases hj : Json.ofValue host (.ofIndent indent) [] (room + 1) room v w with
    | error f w₁ =>
      rw [hj] at he
      cases he
    | ok j w₁ =>
      rw [hj] at he
      cases he
      obtain ⟨rfl, hw'⟩ : r = .ok j ∧ P w' := hr.eq_of_apply hw hj
      exact ⟨hw', j, rfl, hv, hr⟩

end Encodes

namespace Walk

end Walk

end Inlay
