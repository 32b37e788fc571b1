import Inlay.Value.Attribute

/-! The registry: values of one page, under keys that are drawn until one is not yet taken. -/

namespace Inlay

/-- An endless stream of keys that, from every place on, comes to a key outside any given list. -/
structure KeySource where
  draw : Nat → String
  fresh : ∀ (used : List String) (n : Nat), ∃ m, n ≤ m ∧ draw m ∉ used

namespace KeySource

def Awaits (draw : Nat → String) (used : List String) (n : Nat) : Prop :=
  ∃ m, n ≤ m ∧ draw m ∉ used

theorem Awaits.next {draw : Nat → String} {used : List String} {n : Nat}
    (h : Awaits draw used n) (hn : draw n ∈ used) : Awaits draw used (n + 1) := by
  obtain ⟨m, hm, hf⟩ := h
  have : n ≠ m := fun e => hf (e ▸ hn)
  exact ⟨m, by omega, hf⟩

instance (draw : Nat → String) (used : List String) :
    WellFoundedRelation { n // Awaits draw used n } where
  rel a b := a.1 = b.1 + 1 ∧ draw b.1 ∈ used
  wf := ⟨fun ⟨n, h⟩ => by
    obtain ⟨m, hm, hf⟩ := h
    induction hk : m - n generalizing n with
    | zero =>
      refine ⟨_, fun y hy => absurd ?_ hf⟩
      have : n = m := by omega
      exact this ▸ hy.2
    | succ k ih =>
      refine ⟨_, fun ⟨y, hy⟩ hr => ?_⟩
      obtain rfl : y = n + 1 := hr.1
      exact ih (n + 1) (by omega) (by omega)⟩

def nextFrom (draw : Nat → String) (used : List String) (n : Nat) (h : Awaits draw used n) : Nat :=
  if hn : draw n ∈ used then nextFrom draw used (n + 1) (h.next hn) else n
  termination_by (⟨n, h⟩ : { n // Awaits draw used n })
  decreasing_by exact ⟨trivial, hn⟩

theorem draw_nextFrom_notMem (draw : Nat → String) (used : List String) (n : Nat)
    (h : Awaits draw used n) : draw (nextFrom draw used n h) ∉ used := by
  fun_induction nextFrom draw used n h with
  | case1 n h hn ih => exact ih
  | case2 n h hn => exact hn

def padded (width n : Nat) : String :=
  let digits := Nat.toDigits 10 n
  String.ofList (List.replicate (width - digits.length) '0' ++ digits)

def totalLength : List String → Nat
  | [] => 0
  | s :: rest => s.length + totalLength rest

theorem length_le_totalLength {s : String} {used : List String} (h : s ∈ used) :
    s.length ≤ totalLength used := by
  induction used with
  | nil => cases h
  | cons t rest ih =>
    rw [totalLength]
    rcases List.mem_cons.1 h with rfl | h
    · exact Nat.le_add_right _ _
    · exact Nat.le_trans (ih h) (Nat.le_add_left _ _)

def keyLength : Nat := 64

/-- Keys from a list, and after them the numbers of the draws. -/
def listed (keys : List String) : KeySource where
  draw n := keys[n]?.getD (padded keyLength (n + 1))
  fresh used n := by
    generalize hk : totalLength used + 1 = k
    have hp : 0 < 10 ^ k := Nat.pow_pos (by decide)
    refine ⟨n + keys.length + 10 ^ k, by omega, fun hm => ?_⟩
    have h := length_le_totalLength hm
    rw [List.getElem?_eq_none (by omega), Option.getD_none] at h
    have hl : (Nat.toDigits 10 (n + keys.length + 10 ^ k + 1)).length ≤
        (padded keyLength (n + keys.length + 10 ^ k + 1)).length := by simp [padded]
    have hd := (Nat.length_toDigits_le_iff (n := n + keys.length + 10 ^ k + 1) (k := k) (b := 10)
      (by decide) (by omega)).1 (by omega)
    omega

end KeySource

structure Registry where
  entries : Table Value
  drawn : Nat

namespace Registry

def empty : Registry := ⟨[], 0⟩

def contains (r : Registry) (key : String) : Bool := Table.contains r.entries key

def keys (r : Registry) : List String := r.entries.map (·.1)

def Awaits (r : Registry) (draw : Nat → String) : Prop := KeySource.Awaits draw r.keys r.drawn

def registerNext (draw : Nat → String) (v : Value) (r : Registry) (h : r.Awaits draw) :
    String × Registry :=
  let n := KeySource.nextFrom draw r.keys r.drawn h
  (draw n, ⟨Table.insert r.entries (draw n) v, n + 1⟩)

def register (source : KeySource) (v : Value) (r : Registry) : String × Registry :=
  r.registerNext source.draw v (source.fresh r.keys r.drawn)

def keyText (octets : List UInt8) : String :=
  String.ofList (octets.flatMap fun o => Text.hex 2 o.toNat)

def countOctets (n : Int) : Except Fault Nat :=
  if n < -Range.countCap ∨ (Range.countCap : Int) ≤ n then .error .overlongRange
  else if n < 0 then .error .negativeKeyLength
  else .ok n.toNat

def octetCount : List Value → Except Fault Nat
  | [] | [.null] => .ok (KeySource.keyLength / 2)
  | [.int n] => countOctets n
  | [.bool b] => .ok (if b then 1 else 0)
  | [v] => .error ((v.raised? "__index__").getD (.notIndex v.typeName))
  | vs => .error (.surplusKeyArguments vs.length)

def drawKey (octets : Nat → List UInt8) (request : List Value) : Except Fault String :=
  (fun count => keyText (octets count)) <$> octetCount request

end Registry

end Inlay
