import Inlay.Value.Equality

/-! What a value contains: how much it is, whether it counts as true, what comes out of it one by
one and what it holds. -/

namespace Inlay.Value

def reported? : Value → Option Int
  | .object _ _ _ n => n
  | _ => none

def reportedSize (v : Value) : Except Fault Nat :=
  match v.raised? Member.length.name, v.reported? with
  | some f, _ => .error f
  | none, none => .error (.sizeless v.typeName)
  | none, some n =>
    if n < 0 then .error .negativeSize
    else if n < Range.countCap then .ok n.toNat
    else .error .oversize

def size : Value → Except Fault Nat
  | .text s => .ok s.length
  | .list items | .tuple items => .ok items.length
  | .range r => rangeLength r
  | .mapping _ entries => .ok entries.length
  | .bytes _ octets => .ok octets.length
  | v => v.reportedSize

def truth : Value → Except Fault Bool
  | .null | .missing => .ok false
  | .bool b => .ok b
  | .int n => .ok (n ≠ 0)
  | .float x => .ok (x.toInt? ≠ some 0)
  | .text s => .ok !s.isEmpty
  | .list items | .tuple items => .ok !items.isEmpty
  | .range r => .ok (r.length ≠ 0)
  | .mapping _ entries => .ok !entries.isEmpty
  | .bytes _ octets => .ok !octets.isEmpty
  | v =>
    match v.raised? "__bool__", v.reported?, v.raised? Member.length.name with
    | some f, _, _ => .error f
    | none, none, none => .ok true
    | none, _, _ => (· ≠ 0) <$> v.reportedSize

/-- Faults that end the taking of elements, as if there were no more of them. -/
def endsElements (f : Fault) : Bool := f.kind == "IndexError" || f.kind == "StopIteration"

def elements? : Value → Option (Except Fault (List Value))
  | .text s => some (.ok (s.toList.map fun c => .text (String.ofList [c])))
  | .list items | .tuple items => some (.ok items)
  | .range r => some ((fun _ => r.toList.map .int) <$> rangeLength r)
  | .mapping _ entries => some (.ok (entries.map (·.1)))
  | .bytes _ octets => some (.ok (octets.map fun o => .int o.toNat))
  | v =>
    match v.raised? "__iter__", v.raised? "__getitem__" with
    | none, some f => some (if endsElements f then .ok [] else .error f)
    | _, _ => none

def elements (v : Value) : Except Fault (List Value) :=
  v.elements?.getD (.error (.notIterable v.typeName))

/-- What comes of asking an object of the host how many elements to expect. A length of the wrong
type does not count. -/
def checkExpected (v : Value) : Except Fault Unit :=
  match v.reportedSize, v.raised? "__length_hint__" with
  | .ok _, _ => .ok ()
  | .error f, hint =>
    if !f.isType then .error f
    else match hint with
      | some f => .error f
      | none => .ok ()

mutual

def checkHashable : Value → Except Fault Unit
  | .list items => .error (.notHashable (Value.list items).typeName)
  | .mapping form entries => .error (.notHashable (Value.mapping form entries).typeName)
  | .bytes true octets => .error (.notHashable (Value.bytes true octets).typeName)
  | .tuple items => checkItemsHashable items
  | v => if v.isHashed then .ok () else .error (.notHashable v.typeName)

def checkItemsHashable : List Value → Except Fault Unit
  | [] => .ok ()
  | v :: rest => do
    checkHashable v
    checkItemsHashable rest

end

def isPart {α : Type} [BEq α] (part : List α) : List α → Bool
  | [] => part.isEmpty
  | a :: rest => part.isPrefixOf (a :: rest) || isPart part rest

def octetsHold (octets : List UInt8) : Value → Except Fault Bool
  | .bytes _ part => .ok (isPart part octets)
  | .int n =>
    if 0 ≤ n ∧ n < 256 then .ok (octets.contains (UInt8.ofNat n.toNat)) else .error .notOctet
  | .bool b => .ok (octets.contains (if b then 1 else 0))
  | w => .error (.soughtInOctets w.typeName)

def rangeHolds (r : Range) (n : Int) : Bool :=
  if 0 < r.step then r.start ≤ n && n < r.stop && (n - r.start) % r.step == 0
  else r.stop < n && n ≤ r.start && (r.start - n) % -r.step == 0

def holds (v sought : Value) : Except Fault Bool :=
  match v, sought with
  | .text s, .text part => .ok (isPart part.toList s.toList)
  | .text _, w => .error (.soughtInText w.typeName)
  | .bytes _ octets, w => octetsHold octets w
  | .range r, w => .ok (w.integral?.any (rangeHolds r))
  | .mapping _ entries, w => do
    w.checkHashable
    return entries.any (w.equals ·.1)
  | v, w =>
    match v.raised? "__contains__", v.elements? with
    | some f, _ => .error f
    | none, some items => (·.any w.equals) <$> items
    | none, none => .error (.notContainer v.typeName)

end Inlay.Value
