import Inlay.Registry

/-! What a page may read: the stores of the request, the session, the registry, named globals and
free functions. -/

namespace Inlay

inductive Source where
  | query
  | form
  | cookie
  | server
  | session
  | registry
  | global
  deriving DecidableEq

namespace Source

def ofSelector : String → Source
  | "get" => .query
  | "post" => .form
  | "cookie" => .cookie
  | "server" => .server
  | "session" => .session
  | "registry" => .registry
  | _ => .global

def selector : Source → String
  | .query => "get"
  | .form => "post"
  | .cookie => "cookie"
  | .server => "server"
  | .session => "session"
  | .registry => "registry"
  | .global => "global"

def name : Source → String
  | .query => "QUERY"
  | .form => "FORM"
  | .cookie => "COOKIE"
  | .server => "SERVER"
  | .session => "SESSION"
  | .registry => "REGISTRY"
  | .global => "GLOBAL"

end Source

/-- The tables of a request. Tags may change the session alone. -/
structure Stores where
  query : Table Value
  form : Table Value
  cookies : Table Value
  server : Table Value
  session : Table Value

structure Context where
  stores : Stores
  registry : Registry
  globals : Table Value
  functions : Table Callable

namespace Context

def empty : Context := ⟨⟨[], [], [], [], []⟩, .empty, [], []⟩

def select (c : Context) (selector : String) : Value :=
  match Source.ofSelector selector with
  | .query => .ofTable c.stores.query
  | .form => .ofTable c.stores.form
  | .cookie => .ofTable c.stores.cookies
  | .server => .ofTable c.stores.server
  | .session => .ofTable c.stores.session
  | .registry => .ofTable c.registry.entries
  | .global => (Table.get? c.globals selector).getD .null

/-- Gives a name its value in the store that a selector names; the registry keeps its entries. -/
def put (c : Context) (selector name : String) (v : Value) : Context :=
  match Source.ofSelector selector with
  | .query => { c with stores.query := Table.insert c.stores.query name v }
  | .form => { c with stores.form := Table.insert c.stores.form name v }
  | .cookie => { c with stores.cookies := Table.insert c.stores.cookies name v }
  | .server => { c with stores.server := Table.insert c.stores.server name v }
  | .session => { c with stores.session := Table.insert c.stores.session name v }
  | .registry => c
  | .global => { c with globals := Table.insert c.globals name v }

def unset (c : Context) (name : String) : Bool × Context :=
  (Table.contains c.stores.session name,
    { c with stores.session := Table.erase c.stores.session name })

def registerNext (draw : Nat → String) (c : Context) (v : Value) (h : c.registry.Awaits draw) :
    String × Context :=
  let (key, registry) := c.registry.registerNext draw v h
  (key, { c with registry })

def register (source : KeySource) (c : Context) (v : Value) : String × Context :=
  c.registerNext source.draw v (source.fresh c.registry.keys c.registry.drawn)

end Context

def Callable.addTo (functions : Table Callable) (name : String) (f : Callable) :
    Except Fault (Table Callable) :=
  if Table.contains functions name then .error (.functionTaken name)
  else .ok (Table.insert functions name f)

end Inlay
