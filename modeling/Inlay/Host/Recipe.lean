import Inlay.Value.Literal
import Inlay.World

/-! Hosts whose callables are given by recipes. Their memory is the list of the counters called so
far, each by its number. -/

namespace Inlay

inductive Recipe where
  | echo
  | collect
  | count
  | constant (v : Value)
  | raise (kind message : String)
  | counter
  | join (separator : String)
  | describe (text : String)
  | sum

namespace Recipe

def typeFault (message : String) : Fault := .host "TypeError" message

def textOr (complaint : String) : Value → Except Fault String
  | .text s => .ok s
  | v => do
    v.checkClass
    throw (typeFault complaint)

def add (total : Number) (v : Value) : Except Fault Number :=
  match total, v with
  | .int m, .int n => .ok (.int (m + n))
  | .float x, .float y => .ok (.float (x.add y))
  | .int m, .float y => (fun x => .float (x.add y)) <$> toFloat m
  | .float x, .int n => (fun y => .float (x.add y)) <$> toFloat n
  | _, v => do
    v.checkClass
    throw (typeFault "sum expects numbers")
where
  toFloat (n : Int) : Except Fault Binary64 :=
    match Binary64.ofInt? n with
    | some x => .ok x
    | none => .error (.host "OverflowError" "int too large to convert to float")

def run (id : Nat) (arguments : List Value) (calls : List Nat) :
    Recipe → Except Fault Value × List Nat
  | .echo =>
    match arguments with
    | [] => (.ok .null, calls)
    | [v] => (.ok v, calls)
    | _ =>
      (.error (typeFault ("echo takes at most 1 argument (" ++ toString arguments.length ++
        " given)")), calls)
  | .collect => (.ok (.list arguments), calls)
  | .count => (.ok (.int arguments.length), calls)
  | .constant v => (.ok v, calls)
  | .raise kind message => (.error (.ofHost kind message), calls)
  | .counter => (.ok (.int (calls.count id + 1)), id :: calls)
  | .join separator =>
    let texts := arguments.mapM (textOr "join expects strings")
    ((fun texts => .text (String.intercalate separator texts)) <$> texts, calls)
  | .describe text =>
    let complaint := "describe expects at most one string"
    match arguments with
    | [] => (.ok (.text text), calls)
    | [v] => ((fun s => .text (s ++ text)) <$> textOr complaint v, calls)
    | _ => (.error (typeFault complaint), calls)
  | .sum => (Value.ofNumber <$> arguments.foldlM add (.int 0), calls)

end Recipe

/-- The host whose callables are the recipes, by their places. -/
def Host.ofRecipes (recipes : List Recipe) : Host (List Nat) where
  call id arguments calls :=
    match recipes[id]? with
    | some r => r.run id arguments calls
    | none => (.error (.host "LookupError" "no such callable"), calls)

def Host.none : Host Unit where
  call _ _ memory := (.error (.host "LookupError" "no such callable"), memory)

end Inlay
