import Inlay.Message.Layout
import Inlay.TypeInfo
import Inlay.TypeInfo.Documentation

/-! Subjects: what the references of a template lead to. Each has attributes, some have items, and
all have a text. -/

namespace Inlay.Message

inductive Subject where
  | value (v : Value)
  | type (name : String)
  | member (form : MemberForm) (name owner : String)
  | bound (slot : Bool) (name owner : String) (self : Subject)
  | generic (origin : String) (parameter : Value)
  | tuple (items : List Subject)
  | members (owner : String)

namespace Subject

def none : Subject := .value .null

def text (s : String) : Subject := .value (.text s)

def textOrNone (s : Option String) : Subject := (s.map text).getD none

def typeName : Subject → String
  | .value v => v.typeName
  | .type _ => "type"
  | .member form _ _ =>
    match form with
    | .slot => "wrapper_descriptor"
    | .property => "getset_descriptor"
    | .field => "member_descriptor"
    | .classMethod => "classmethod_descriptor"
    | _ => "method_descriptor"
  | .bound slot _ _ _ => if slot then "method-wrapper" else "builtin_function_or_method"
  | .generic .. => "types.GenericAlias"
  | .tuple _ => "tuple"
  | .members _ => "mappingproxy"

def owner : Subject → String
  | .type name => "type object '" ++ name ++ "'"
  | s => "'" ++ s.typeName ++ "' object"

def literal (v : Value) : Except Complaint String :=
  match v.literal with
  | .ok s => .ok s
  | .error f => .error (.unwritable f)

def typeText (name : String) : String := "<class '" ++ name ++ "'>"

def place : String := " object at 0x7f0000000000>"

def memberText (form : MemberForm) (name owner : String) : String :=
  let form := match form with
    | .slot => "slot wrapper"
    | .property => "attribute"
    | .field => "member"
    | _ => "method"
  "<" ++ form ++ " '" ++ name ++ "' of '" ++ owner ++ "' objects>"

def boundText (slot : Bool) (name typeName : String) : String :=
  let name := if slot then "method-wrapper '" ++ name ++ "'" else "built-in method " ++ name
  "<" ++ name ++ " of " ++ typeName ++ place

def membersText (owner : String) : String :=
  match TypeInfo.find? owner with
  | some t =>
    let texts (form : MemberForm) (names : List String) :=
      names.map fun name => (name, memberText form name owner)
    let entries := t.statics.map (fun name => (name, boundText false name "type")) ++
      texts .slot t.slots ++ texts .method t.methods ++ texts .classMethod t.classMethods ++
      texts .field t.fields ++ texts .property t.properties ++
      (if t.properties.contains "__doc__" then []
        else [("__doc__", (t.doc.map Text.quoted).getD "None")]) ++
      t.absent.map fun name => (name, "None")
    Value.mappingText .plain (entries.map fun (name, shown) => Text.quoted name ++ ": " ++ shown)
  | Option.none => Value.mappingText .plain []

mutual

def literalText : Subject → Except Complaint String
  | .value v => literal v
  | .type name => .ok (typeText name)
  | .member form name owner => .ok (memberText form name owner)
  | .bound slot name _ self => .ok (boundText slot name self.typeName)
  | .generic origin parameter =>
    (fun s => TypeInfo.shortName origin ++ "[" ++ s ++ "]") <$> literal parameter
  | .tuple items => Value.tupleText <$> literalTexts items
  | .members owner => .ok ("mappingproxy(" ++ membersText owner ++ ")")

def literalTexts : List Subject → Except Complaint (List String)
  | [] => .ok []
  | s :: rest => do return (← literalText s) :: (← literalTexts rest)

end

def displayText : Subject → Except Complaint (List Char)
  | .value v => display v
  | .members owner => .ok (membersText owner).toList
  | s => String.toList <$> literalText s

def lay (s : Subject) (layout : List Char) : Except Complaint (List Char) :=
  match s with
  | .value v => Message.lay v layout
  | s => if layout.isEmpty then s.displayText else .error (.unsupportedLayout s.typeName)

def docOf (typeName : String) : Subject :=
  match TypeInfo.find? typeName with
  | some t =>
    if t.doc.isNone && t.properties.contains "__doc__" then .member .property "__doc__" typeName
    else textOrNone t.doc
  | Option.none => none

def sizeNames : List String :=
  ["__basicsize__", "__itemsize__", "__flags__", "__dictoffset__", "__weakrefoffset__"]

def typeAttribute (typeName name : String) : Except Complaint Subject :=
  let bases := (TypeInfo.lineage typeName).drop 1
  match name with
  | "__class__" => .ok (.type "type")
  | "__name__" | "__qualname__" => .ok (text (TypeInfo.shortName typeName))
  | "__module__" => .ok (text (TypeInfo.moduleName typeName))
  | "__base__" => .ok ((bases.head?.map .type).getD none)
  | "__bases__" => .ok (.tuple ((bases.take 1).map .type))
  | "__mro__" => .ok (.tuple ((typeName :: bases).map .type))
  | "__dict__" => .ok (.members typeName)
  | "__doc__" => .ok (docOf typeName)
  | "__text_signature__" =>
    .ok (textOrNone ((TypeInfo.find? typeName).bind (·.signature)))
  | "__abstractmethods__" => .error (.noKey name)
  | _ =>
    match (sizeNames.zip (((TypeInfo.find? typeName).map (·.sizes)).getD [])).lookup name with
    | some n => .ok (.value (.int (n : Nat)))
    | Option.none => .error (.noAttribute (owner (.type typeName)) name)

def property (s : Subject) (name : String) : Subject :=
  match name, s with
  | "__class__", s => .type s.typeName
  | "real", .value (.bool b) | "numerator", .value (.bool b) => .value (.int (if b then 1 else 0))
  | "real", .value v | "numerator", .value v => .value v
  | "imag", .value (.float _) => .value (.float (.zero false))
  | "imag", .value _ => .value (.int 0)
  | "denominator", .value _ => .value (.int 1)
  | "__name__", .member _ name _ | "__name__", .bound _ name _ _ => text name
  | "__objclass__", .member _ _ owner | "__objclass__", .bound _ _ owner _ => .type owner
  | "__qualname__", .member _ name owner | "__qualname__", .bound true name owner _ =>
    text (TypeInfo.shortName owner ++ "." ++ name)
  | "__qualname__", .bound false name _ self =>
    let typeName := match self with | .type t => t | self => self.typeName
    text (TypeInfo.shortName typeName ++ "." ++ name)
  | "__doc__", .member _ name owner | "__doc__", .bound _ name owner _ =>
    textOrNone ((Documentation.find? name owner).bind (·.text))
  | "__text_signature__", .member _ name owner | "__text_signature__", .bound _ name owner _ =>
    textOrNone ((Documentation.find? name owner).bind (·.signature))
  | "__self__", .bound _ _ _ self => self
  | "__origin__", .generic origin _ => .type origin
  | "__args__", .generic _ parameter => .tuple [.value parameter]
  | "__parameters__", .generic .. => .tuple []
  | "__unpacked__", .generic .. => .value (.bool false)
  | _, _ => none

def bind (s : Subject) (form : MemberForm) (name owner : String) : Subject :=
  match form with
  | .slot => .bound true name owner s
  | .method => .bound false name owner s
  | .property | .field => s.property name
  | .classMethod => .bound false name owner (.type s.typeName)
  | .static => .bound false name owner (.type owner)
  | .absent => none

def instanceAttribute (s : Subject) (name : String) : Except Complaint Subject :=
  match TypeInfo.inherited? s.typeName name with
  | some (form, owner) => .ok (s.bind form name owner)
  | Option.none =>
    if name = "__doc__" then .ok (docOf s.typeName) else .error (.noAttribute s.owner name)

/-- What a type has: what says what it is, then its own members, then those of all types. -/
def attributeOfType (typeName name : String) : Except Complaint Subject :=
  match TypeInfo.inherited? "type" name, TypeInfo.inherited? typeName name with
  | some (.property, _), _ | some (.field, _), _ => typeAttribute typeName name
  | _, some (.classMethod, owner) => .ok (.bound false name owner (.type typeName))
  | _, some (.static, owner) => .ok (.bound false name owner (.type owner))
  | _, some (.absent, _) => .ok none
  | _, some (form, owner) => .ok (.member form name owner)
  | _, Option.none => instanceAttribute (.type typeName) name

/-- What a type with a parameter has of its own; all else it has from the type. -/
def genericNames : List String :=
  ["__class__", "__origin__", "__args__", "__unpacked__", "__parameters__",
   "__typing_unpacked_tuple_args__", "__mro_entries__", "__reduce_ex__", "__reduce__", "__copy__",
   "__deepcopy__"]

def attributeNamed (s : Subject) (name : String) : Except Complaint Subject :=
  match s with
  | .type typeName => attributeOfType typeName name
  | .generic origin _ =>
    if genericNames.contains name then s.instanceAttribute name else attributeOfType origin name
  | s => s.instanceAttribute name

def element (items : List Subject) (n : Nat) (typeName : String) : Except Complaint Subject :=
  match items[n]? with
  | some s => .ok s
  | Option.none => .error (.outOfRange typeName)

def withParameter (typeName : String) (parameter : Value) : Except Complaint Subject :=
  match TypeInfo.inherited? typeName "__class_getitem__" with
  | some _ => .ok (.generic typeName parameter)
  | Option.none =>
    if typeName = "type" then .ok (.generic typeName parameter)
    else .error (.notSubscriptable ("type '" ++ typeName ++ "'"))

def memberEntry (typeName name : String) : Except Complaint Subject :=
  match (TypeInfo.find? typeName).bind (·.member? name) with
  | some .absent => .ok none
  | some .static => .ok (.bound false name typeName (.type typeName))
  | some form => .ok (.member form name typeName)
  | Option.none =>
    if name = "__doc__" then .ok (docOf typeName) else .error (.noKey (Text.quoted name))

def notIndex (typeName : String) : Complaint :=
  .badIndex (typeName ++ " indices must be integers or slices, not str")

def item (s : Subject) (n : Nat) : Except Complaint Subject :=
  match s with
  | .value (.text t) => element (t.toList.map fun c => text (String.ofList [c])) n "string"
  | .value (.list items) => element (items.map .value) n "list"
  | .value (.mapping _ entries) =>
    match Value.entry? (·.integral? = some (n : Int)) entries with
    | some v => .ok (.value v)
    | Option.none => .error (.noKey (toString n))
  | .type typeName => withParameter typeName (.int n)
  | .generic .. => do throw (.notGeneric (← s.literalText))
  | .tuple items => element items n "tuple"
  | .members _ => .error (.noKey (toString n))
  | s => .error (.notSubscriptable s.owner)

def entry (s : Subject) (name : String) : Except Complaint Subject :=
  match s with
  | .value (.text _) => .error (.badIndex "string indices must be integers, not 'str'")
  | .value (.list _) => .error (notIndex "list")
  | .value (.mapping _ entries) =>
    match Value.entry? (Value.isText name) entries with
    | some v => .ok (.value v)
    | Option.none => .error (.noKey (Text.quoted name))
  | .type typeName => withParameter typeName (.text name)
  | .generic .. => do throw (.notGeneric (← s.literalText))
  | .tuple _ => .error (notIndex "tuple")
  | .members typeName => memberEntry typeName name
  | s => .error (.notSubscriptable s.owner)

end Subject

end Inlay.Message
