import Inlay.Number.Literal
import Inlay.Table

/-! The command line: what it asks for. -/

namespace Inlay

inductive Request where
  | help
  | version
  | misuse (message : String)
  | render (input context : Option String)
  deriving DecidableEq

namespace CommandLine

inductive Flag where
  | help
  | version
  | context
  deriving DecidableEq

def Flag.title : Flag → String
  | .help => "-h/--help"
  | .version => "-V/--version"
  | .context => "--context"

/-- The option names, in the order in which they are tried. -/
def flags : List (String × Flag) :=
  [("-h", .help), ("--help", .help), ("--context", .context), ("-V", .version),
    ("--version", .version)]

/-- What an argument is. A text may be attached to an option: after an equals sign, or after its
letter. -/
inductive Slot where
  | operand
  | separator
  | unknown
  | option (flag : Flag) (long : Bool) (attached : Option (List Char))

def isNegativeNumber (cs : List Char) : Bool :=
  match Number.dropFinalLineFeed cs with
  | '-' :: rest =>
    match Number.splitDigits rest with
    | (_ :: _, []) => true
    | (_, '.' :: rest) =>
      match Number.splitDigits rest with
      | (_ :: _, []) => true
      | _ => false
    | _ => false
  | _ => false

def splitEquals (cs : List Char) : List Char × Option (List Char) :=
  match cs.dropWhile (· ≠ '=') with
  | _ :: value => (cs.takeWhile (· ≠ '='), some value)
  | [] => (cs, none)

def flag? (name : List Char) : Option Flag := Table.get? flags (String.ofList name)

def isLong : List Char → Bool
  | '-' :: '-' :: _ => true
  | _ => false

/-- The options that an argument abbreviates: long ones by a start of their names, short ones by
their letter. -/
def candidates (cs : List Char) : List (String × Slot) :=
  if isLong cs then
    let (start, attached) := splitEquals cs
    (flags.filter fun (name, _) => start.isPrefixOf name.toList).map fun (name, flag) =>
      (name, .option flag true attached)
  else
    (flags.filter fun (name, _) => name.toList = cs.take 2).map fun (name, flag) =>
      (name, .option flag false (some (cs.drop 2)))

def classify (argument : String) : Except String Slot :=
  let cs := argument.toList
  if cs.head? ≠ some '-' then .ok .operand
  else
    match flag? cs with
    | some flag => .ok (.option flag (isLong cs) none)
    | none =>
      if cs.length = 1 then .ok .operand
      else
        match splitEquals cs with
        | (name, some attached) =>
          match flag? name with
          | some flag => .ok (.option flag (isLong cs) (some attached))
          | none => abbreviated cs
        | _ => abbreviated cs
where
  abbreviated (cs : List Char) : Except String Slot :=
    match candidates cs with
    | [(_, slot)] => .ok slot
    | [] => .ok (if isNegativeNumber cs || cs.contains ' ' then .operand else .unknown)
    | several =>
      .error ("ambiguous option: " ++ String.ofList cs ++ " could match " ++
        String.intercalate ", " (several.map (·.1)))

def slots : List String → Except String (List (String × Slot))
  | [] => .ok []
  | argument :: rest =>
    if argument = "--" then .ok ((argument, .separator) :: rest.map (·, .operand))
    else do
      let slot ← classify argument
      return (argument, slot) :: (← slots rest)

def ignored (flag : Flag) (attached : List Char) : Request :=
  .misuse ("argument " ++ flag.title ++ ": ignored explicit argument " ++
    Text.quoted (String.ofList attached))

def clusterFault? (flag : Flag) : List Char → Option Request
  | [] => some (ignored flag [])
  | letter :: rest =>
    match flag? ['-', letter], rest with
    | none, _ => some (ignored flag (letter :: rest))
    | some _, [] => none
    | some next, letter :: rest => clusterFault? next (letter :: rest)

/-- A flag that takes no value. Of a cluster the first flag counts, if all of it fits. -/
def bare (flag : Flag) (long : Bool) (attached : Option (List Char)) (result : Request) : Request :=
  match attached with
  | none => result
  | some cs =>
    if long then ignored flag cs else (clusterFault? flag cs).getD result

structure Progress where
  input : Option String
  /-- Whether the operand has just been taken: a separator next to it is dropped. -/
  adjacent : Bool
  context : Option String
  extras : List String

def Progress.request (p : Progress) : Request :=
  if p.extras.isEmpty then .render p.input p.context
  else .misuse ("unrecognized arguments: " ++ String.intercalate " " p.extras)

def Progress.extra (p : Progress) (argument : String) : Progress :=
  { p with adjacent := false, extras := p.extras ++ [argument] }

def attachedValue (cs : List Char) : Option String :=
  if cs = ['-', '-'] then none else some (String.ofList cs)

def read (p : Progress) : List (String × Slot) → Request
  | [] => p.request
  | (argument, .operand) :: rest =>
    if p.input.isNone then read { p with input := some argument, adjacent := true } rest
    else read (p.extra argument) rest
  | (argument, .separator) :: rest =>
    if p.input.isNone || p.adjacent then read { p with adjacent := false } rest
    else read (p.extra argument) rest
  | (argument, .unknown) :: rest => read (p.extra argument) rest
  | (_, .option .help long attached) :: _ => bare .help long attached .help
  | (_, .option .version long attached) :: _ => bare .version long attached .version
  | (_, .option .context _ (some attached)) :: rest =>
    read { p with adjacent := false, context := attachedValue attached } rest
  | (_, .option .context _ none) :: (value, .operand) :: rest =>
    read { p with adjacent := false, context := some value } rest
  | (_, .option .context _ none) :: _ =>
    .misuse ("argument " ++ Flag.context.title ++ ": expected one argument")

def request (arguments : List String) : Request :=
  match slots arguments with
  | .ok slots => read ⟨none, false, none, []⟩ slots
  | .error message => .misuse message

end CommandLine

end Inlay
