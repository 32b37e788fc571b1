import Inlay.Dump.Description
import Inlay.Text.Entity

/-! The text of a value in a page. -/

namespace Inlay.Value

def numberText : Value → Except Fault String
  | .int n => Number.format (.int n)
  | .float x => Number.format (.float x)
  | v => do
    v.checkClass
    v.display

variable {σ : Type}

/-- Scalars in their plain form, null and false as nothing; structures as a dump. -/
def render (host : Host σ) : Value → Act (World σ) String
  | .null => return ""
  | .bool b => return if b then "1" else ""
  | .int n => Act.ofExcept (numberText (.int n))
  | .float x => Act.ofExcept (numberText (.float x))
  | .text s => return s
  | v => do
    if (← Act.ofExcept v.classify) = .other then Act.ofExcept v.display else v.dump host

def format (host : Host σ) (v : Value) (sanitize : Bool) : Act (World σ) String :=
  (fun s => if sanitize then Text.escape s else s) <$> v.render host

end Inlay.Value
