import Inlay.Value.Literal

/-! When values are equal. -/

namespace Inlay

def Range.equals (r s : Range) : Bool :=
  r.length == s.length &&
    (r.length == 0 || r.start == s.start && (r.length == 1 || r.step == s.step))

def Binary64.equals (x y : Binary64) : Bool :=
  match x.toInt?, y.toInt? with
  | some m, some n => m == n
  | _, _ => x != .nan && x == y

namespace Value

mutual

/-- Numbers are equal by what they count; texts, octets, sequences of one form and mappings are by
what they hold, mappings in any order. Objects equal none but themselves. -/
def equals : Value → Value → Bool
  | .null, .null | .missing, .missing => true
  | .text s, .text t => s == t
  | .list vs, .list ws | .tuple vs, .tuple ws => equalItems vs ws
  | .range r, .range s => r.equals s
  | .mapping _ es, .mapping _ fs => es.length == fs.length && equalEntries es fs
  | .bytes _ os, .bytes _ ps => os == ps
  | .callable c, .callable d => c == d
  | .plain i .., .plain j .. | .object i .., .object j .. | .wrapped i .., .wrapped j .. =>
    i != 0 && i == j
  | .method v m, .method w n => m == n && equals v w
  | .float x, .float y => x.equals y
  | v, w =>
    match v.integral?, w.integral? with
    | some m, some n => m == n
    | _, _ => false

def equalItems : List Value → List Value → Bool
  | [], [] => true
  | v :: vs, w :: ws => equals v w && equalItems vs ws
  | _, _ => false

def equalEntries : List (Value × Value) → List (Value × Value) → Bool
  | [], _ => true
  | (key, v) :: rest, fs =>
    fs.any (fun f => equals key f.1 && equals v f.2) && equalEntries rest fs

end

end Value

end Inlay
