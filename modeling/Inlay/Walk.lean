import Inlay.Accessor
import Inlay.Argument
import Inlay.Lookup

/-! Walks: accessors applied to a value, one after the other. The first that cannot be applied ends
the walk and is reported. -/

namespace Inlay

inductive LookupFailure where
  | noKey (name : String)
  | noCallable (name : String)
  | raised (name : String) (f : Fault)
  deriving DecidableEq

def LookupFailure.message : LookupFailure → String
  | .noKey name => "No key or property '" ++ name ++ "'"
  | .noCallable name => "No callable '" ++ name ++ "'"
  | .raised name f => "Call '" ++ name ++ "' raised " ++ f.kind ++ ": " ++ f.message

abbrev Found := Except LookupFailure Value

namespace Walk

variable {σ : Type}

def fail {τ : Type} [Reports τ] (f : LookupFailure) : Act τ Found := do
  Act.report ("Lookup failed: " ++ f.message)
  return .error f

def lookupKey (host : Host σ) (v : Value) (name : String) : Act (World σ) Found := do
  match ← v.lookup host name with
  | some w => return .ok w
  | none => fail (.noKey name)

def followKeys (host : Host σ) (v : Value) : List String → Act (World σ) Found
  | [] => return .ok v
  | name :: names => do
    match ← lookupKey host v name with
    | .ok w => followKeys host w names
    | .error f => return .error f

def resolveReference (host : Host σ) (selector : String) (keys : List String) :
    Act (World σ) Value := do
  let world ← get
  match ← followKeys host (world.select selector) keys with
  | .ok v => return v
  | .error _ => return .null

inductive Callee where
  | function (c : Callable)
  | method (owner : Value) (name : String)

def Callee.invoke (host : Host σ) (arguments : List Value) : Callee → Act (World σ) Value
  | .function c => c.invoke host arguments
  | .method owner name => owner.ask host .callMethod [.text name, .list arguments]

/-- What a call names: a method that a handle says it has, or a free function if the value is
null. -/
def callee? (host : Host σ) (v : Value) (name : String) : Act (World σ) (Option Callee) := do
  if v.kind = .object then
    let known ← v.ask host .hasMethod [.text name]
    return if ← Act.ofExcept known.truth then some (.method v name) else none
  else
    Act.ofExcept v.checkClass
    if v.kind = .null then return (Table.get? (← get).context.functions name).map .function
    else return none

def attempt (host : Host σ) (name : String) (c : Callee) (arguments : List Value) :
    Act (World σ) Found := do
  match ← Act.observe (c.invoke host arguments) with
  | .ok v => return .ok v
  | .error f => fail (.raised name f)

/-- The arguments are evaluated only if there is something to call. -/
def callName (host : Host σ) (v : Value) (name raw : String) : Act (World σ) Found := do
  match ← callee? host v name with
  | none => fail (.noCallable name)
  | some c => attempt host name c (← Argument.evalAll (resolveReference host) raw)

def step (host : Host σ) (v : Value) : Accessor → Act (World σ) Found
  | .key name => lookupKey host v name
  | .call name raw => callName host v name raw

def walk (host : Host σ) (v : Value) : List Accessor → Act (World σ) Found
  | [] => return .ok v
  | a :: rest => do
    match ← step host v a with
    | .ok w => walk host w rest
    | .error f => return .error f

end Walk

end Inlay
