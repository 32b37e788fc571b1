import Inlay.Act
import Inlay.Dump.Label
import Inlay.Value.Shown

/-! Dumps: the structured text of a sequence, a mapping or a handle. What does not fit into a line
of 80 columns is broken into one line for each part. -/

namespace Inlay

inductive Dump where
  | leaf (text : String)
  | branch (opening closing : String) (tuple : Bool) (parts : List (Label × Dump))

namespace Dump

def lineWidth : Nat := 80

def indentation : Nat := 4

def ofParts (opening closing : String) (tuple : Bool) (parts : List (Label × Dump)) : Dump :=
  if parts.isEmpty then .leaf (opening ++ closing) else .branch opening closing tuple parts

section

variable {τ : Type} (ask : Value → Act τ Dump)

mutual

/-- The dump of what is shown of a value. One that is asked what it is has the dump that comes of
that; a handle that cannot be read has none. -/
def ofShown : Shown → Act τ Dump
  | .leaf v => return .leaf v.literalOrFault
  | .list items => ofParts "[" "]" false <$> ofItems items
  | .tuple items => ofParts "(" ")" true <$> ofItems items
  | .mapping .readOnly entries => ofParts "mappingproxy(\x7b" "\x7d)" false <$> ofEntries entries
  | .mapping _ entries => ofParts "\x7b" "\x7d" false <$> ofEntries entries
  | .handle className properties => ofParts (className ++ "(") ")" false <$> ofProperties properties
  | .unreadable f => throw f.ofReading
  | .asked v => ask v

def ofItems : List Shown → Act τ (List (Label × Dump))
  | [] => return []
  | s :: rest => return (.none, ← ofShown s) :: (← ofItems rest)

def ofEntries : List (Value × Shown) → Act τ (List (Label × Dump))
  | [] => return []
  | (key, s) :: rest => return (.ofText key.literalOrFault ": ", ← ofShown s) :: (← ofEntries rest)

def ofProperties : List (String × Shown) → Act τ (List (Label × Dump))
  | [] => return []
  | (name, s) :: rest => return (.ofText name "=", ← ofShown s) :: (← ofProperties rest)

end

end

mutual

/-- The tokens of a dump in one line. A tuple of one part keeps a comma. -/
def tokens : Dump → List Token
  | .leaf text => if text.isEmpty then [] else [.text text]
  | .branch opening closing tuple parts =>
    .text opening :: partTokens parts ++
      (if tuple && parts.length == 1 then [.text ","] else []) ++ [.text closing]

def partTokens : List (Label × Dump) → List Token
  | [] => []
  | [(label, d)] => .label label :: tokens d
  | (label, d) :: rest => .label label :: tokens d ++ .text ", " :: partTokens rest

end

structure Suffix where
  width : Nat
  comma : Bool

def Suffix.none : Suffix := ⟨0, false⟩

/-- The parts of a broken dump are measured with a comma and a space; the comma of the last one is
not printed. The part of a tuple of one is measured and printed with a comma. -/
def Suffix.part (single last : Bool) : Suffix := if single then ⟨1, true⟩ else ⟨2, !last⟩

structure Line where
  depth : Nat
  tokens : List Token
  suffix : Suffix

def Line.text (l : Line) : Except Fault String := do
  return "".pushn ' ' l.depth ++ (← Token.join l.tokens) ++ (if l.suffix.comma then "," else "")

mutual

def lines (depth : Nat) (label : Label) (suffix : Suffix) : Dump → Except Fault (List Line)
  | .leaf text => .ok [⟨depth, .label label :: tokens (.leaf text), suffix⟩]
  | .branch opening closing tuple parts => do
    let whole := .label label :: tokens (.branch opening closing tuple parts)
    if ← Token.fit lineWidth (depth + suffix.width) whole then return [⟨depth, whole, suffix⟩]
    let opened ← label.before opening
    let inner ← partLines (depth + indentation) (tuple && parts.length == 1) parts
    return ⟨depth, [.text opened], .none⟩ :: inner ++ [⟨depth, [.text closing], suffix⟩]

def partLines (depth : Nat) (single : Bool) :
    List (Label × Dump) → Except Fault (List Line)
  | [] => .ok []
  | (label, d) :: rest => do
    return (← lines depth label (.part single rest.isEmpty) d) ++ (← partLines depth single rest)

end

def text (d : Dump) : Except Fault String := do
  let ls ← lines 0 .none .none d
  return String.intercalate "\n" (← ls.mapM Line.text)

end Dump

end Inlay
