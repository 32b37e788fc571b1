import Inlay.Value.Attribute

/-! What a page may show of a value: every handle is replaced by the properties it exposes, unless
these have to be asked for. The printers of values read this view alone, so nothing hidden can reach
them. -/

namespace Inlay

inductive Shown where
  | leaf (v : Value)
  | list (items : List Shown)
  | tuple (items : List Shown)
  | mapping (form : MappingForm) (entries : List (Value × Shown))
  | handle (className : String) (properties : List (String × Shown))
  | unreadable (f : Fault)
  /-- An object of the host that has to be asked for its parts. -/
  | asked (v : Value)

namespace Shown

def ofExports (className : String) : Except Fault (Table Shown) → Shown
  | .ok properties => .handle className properties
  | .error f => .unreadable f

abbrev Attributes := Table (Except Fault (Option Shown))

def ofTexts (ss : List String) : Shown := .tuple (ss.map fun s => .leaf (.text s))

def lists (face : Face) : Attributes :=
  [(Face.propertiesName, .ok (some (ofTexts face.properties))),
    (Face.methodsName, .ok (some (ofTexts face.methods)))]

def exposed (face : Face) (attributes : Attributes) : Shown :=
  ofExports face.className (face.exports fun name => (Table.get? attributes name).getD (.ok none))

end Shown

namespace Value

def readingNames : List String := [className, readerName, fallbackName]

def answeringNames : List String :=
  [Face.propertiesName, Member.target.name, Member.exports.name, Member.parts.name]

def hasAny (own : Table Attribute) (names : List String) : Bool := names.any (Table.contains own)

/-- Whether all that a face exposes of a target is what the target has of its own. -/
def exposesOwn (face : Face) (target : Value) : Bool :=
  !hasAny target.own readingNames && face.properties.all fun name =>
    Table.contains target.own name || (target.inherited? name).isNone

mutual

def shown : Value → Shown
  | .list items => .list (shownItems items)
  | .tuple items => .tuple (shownItems items)
  | .mapping form entries => .mapping form (shownEntries entries)
  | .object id face own size =>
    if hasAny own answeringNames || !exposesOwn face (.object id face own size) then
      .asked (.object id face own size)
    else .exposed face (shownAttributes own)
  | .wrapped id face target =>
    if exposesOwn face target then .exposed face (shownOwn target)
    else .asked (.wrapped id face target)
  | .plain id written own =>
    if hasAny own (Member.parts.name :: readingNames) then .asked (.plain id written own)
    else .leaf (.plain id written own)
  | v => .leaf v

def shownItems : List Value → List Shown
  | [] => []
  | v :: rest => shown v :: shownItems rest

def shownEntries : List (Value × Value) → List (Value × Shown)
  | [] => []
  | (key, v) :: rest => (key, shown v) :: shownEntries rest

def shownAttribute : Attribute → Except Fault (Option Shown)
  | .value .missing => .ok none
  | .value v => .ok (some (shown v))
  | .raises kind message =>
    let f := Fault.ofHost kind message
    if f.saysAbsent then .ok none else .error f

def shownAttributes : List (String × Attribute) → Shown.Attributes
  | [] => []
  | (name, a) :: rest => (name, shownAttribute a) :: shownAttributes rest

def shownOwn : Value → Shown.Attributes
  | .plain _ _ own | .object _ _ own _ => shownAttributes own
  | .wrapped _ face .missing => (wrappedName, .ok none) :: Shown.lists face
  | .wrapped _ face target => (wrappedName, .ok (some (shown target))) :: Shown.lists face
  | _ => []

end

end Value

end Inlay
