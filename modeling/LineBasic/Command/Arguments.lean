import LineBasic.Command.Word
import LineBasic.Text.Decimal

/-! # Arguments of the command: one file, the output format and two switches, in any order -/
namespace LineBasic
set_option autoImplicit false

/-- The format is checked only when the command runs. -/
structure Options where
  input : String
  format : String
  lenient : Bool
  failFast : Bool
  deriving DecidableEq, Repr

inductive UsageError where
  | missingInput
  | emptyInput
  | unknownFlag (key : String)
  | emptyFormat
  deriving DecidableEq, Repr

/-- A key of one character follows one dash, a longer one two. -/
def dashed (key : String) : String :=
  match key.toList with
  | [c] => if Word.isWide c then "--" ++ key else "-" ++ key
  | _ => "--" ++ key

def UsageError.message : UsageError → String
  | .missingInput => "Missing required argument \"input\""
  | .emptyInput => "Missing value for argument \"input\""
  | .unknownFlag key =>
    "Unknown flag \"" ++ dashed key ++ "\". The mentioned flag is not accepted by the command"
  | .emptyFormat => "Missing value for option \"format\""

inductive Flag where
  | format
  | lenient
  | failFast
  deriving DecidableEq, Repr

namespace Flag

def ofKey? (key : String) : Option Flag :=
  [("format", .format), ("f", .format), ("lenient", .lenient), ("fail-fast", .failFast)].lookup key

def isSwitch : Flag → Bool
  | .format => false
  | .lenient | .failFast => true

end Flag

inductive Argument where
  | positional (value : String)
  | flag (key : String) (setting : Setting)
  deriving DecidableEq, Repr

structure OpenFlag where
  key : String
  naming : Naming

/-- A switch takes only a word that says whether it is on. -/
def OpenFlag.takes (pending : OpenFlag) (word : String) : Bool :=
  if (Flag.ofKey? pending.key).any Flag.isSwitch then word == "true" || word == "false"
  else pending.naming.admits word.toList

namespace Argument

def ofFlags (flags : List (String × Setting)) : List Argument :=
  flags.map fun entry => .flag entry.1 entry.2

def readFrom (pending : Option OpenFlag) : List String → List Argument
  | [] => pending.toList.map fun earlier => .flag earlier.key .bare
  | word :: rest =>
    match pending.filter fun earlier => earlier.takes word with
    | some earlier => .flag earlier.key (.text word) :: readFrom none rest
    | none =>
      (pending.toList.map fun earlier => .flag earlier.key .bare) ++
        match Word.form word with
        | .positional => .positional word :: readFrom none rest
        | .endOfFlags => rest.map .positional
        | .settled flags => ofFlags flags ++ readFrom none rest
        | .awaiting flags key naming => ofFlags flags ++ readFrom (some ⟨key, naming⟩) rest

def positional? : Argument → Option String
  | .positional value => some value
  | .flag _ _ => none

def setting? (flag : Flag) : Argument → Option Setting
  | .positional _ => none
  | .flag key setting => if Flag.ofKey? key = some flag then some setting else none

def unknownKey? : Argument → Option String
  | .positional _ => none
  | .flag key _ => if Flag.ofKey? key = none then some key else none

end Argument

namespace Setting

/-- On unless a value other than `true` was given. -/
def isOn : Setting → Bool
  | .text value => value == "true"
  | .off => false
  | .bare => true

def format : Setting → String
  | .text value => value
  | .off => "false"
  | .bare => "text"

end Setting

namespace Options

/-- A format given more than once counts as the list of all that was given. -/
def formatOf : List Setting → Except UsageError String
  | [] => .ok "text"
  | [.off] => .error .emptyFormat
  | [setting] => if setting.format.isEmpty then .error .emptyFormat else .ok setting.format
  | settings => .ok (",".intercalate (settings.map Setting.format))

def switchOf (settings : List Setting) : Bool := settings.getLast?.any Setting.isOn

/-- The number that a key writes without leading zeros, if it has 32 bits. -/
def index? (key : String) : Option Nat :=
  (Text.natOfDigits? key.toList).filter fun n => n < 4294967295 && n.repr == key

/-- Of several unknown keys the least number counts, or else the first that was given. -/
def unknownKey? (arguments : List Argument) : Option String :=
  let keys := arguments.filterMap Argument.unknownKey?
  match (keys.filterMap index?).min? with
  | some n => some n.repr
  | none => keys.head?

/-- The file is looked for first, then an unknown flag, then the value of the format. -/
def ofArguments (arguments : List Argument) : Except UsageError Options :=
  let settings (flag : Flag) := arguments.filterMap (Argument.setting? flag)
  match arguments.findSome? Argument.positional?, unknownKey? arguments with
  | none, _ => .error .missingInput
  | some "", _ => .error .emptyInput
  | some _, some key => .error (.unknownFlag key)
  | some input, none =>
    (formatOf (settings .format)).map fun format =>
      { input := input
        format := format
        lenient := switchOf (settings .lenient)
        failFast := switchOf (settings .failFast) }

def parse (words : List String) : Except UsageError Options := ofArguments (Argument.readFrom none words)

end Options

end LineBasic
