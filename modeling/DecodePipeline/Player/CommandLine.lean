import DecodePipeline.Decimal.Reading
import DecodePipeline.Text.Blank

/-!
This module contains the command line of the player. Arguments are read from left to right, and the
first that is wrong, or asks for help or the version, decides.
-/

namespace DecodePipeline

structure Settings where
  script : Option String := none
  config : Option String := none
  framedrop : Bool := false
  start : Option Float := none
  record : Option String := none
  decoders : Option String := none
  listDecoders : Bool := false
  deriving DecidableEq, Inhabited

namespace CommandLine

inductive Parameter where
  | script
  | config
  | start
  | record
  | decoders
  deriving DecidableEq

inductive Flag where
  | framedrop
  | listDecoders
  deriving DecidableEq

inductive Purpose where
  | parameter (parameter : Parameter)
  | flag (flag : Flag)
  | help
  | version
  deriving DecidableEq

def longNames : List (String × Purpose) :=
  [("script", .parameter .script), ("config", .parameter .config), ("framedrop", .flag .framedrop),
   ("start", .parameter .start), ("record", .parameter .record),
   ("decoders", .parameter .decoders), ("list-decoders", .flag .listDecoders), ("help", .help),
   ("version", .version)]

def shortNames : List (Char × Purpose) :=
  [('s', .parameter .script), ('c', .parameter .config), ('r', .parameter .record), ('h', .help),
   ('V', .version)]

inductive UsageError where
  | unknownArgument (argument : String)
  | missingValue (argument : String)
  | invalidValue (argument value : String)
  | unwantedValue (argument : String)
  | repeated (argument : String)
  deriving DecidableEq

def UsageError.message : UsageError → String
  | unknownArgument argument => s!"unexpected argument '{argument}'"
  | missingValue argument => s!"a value is required for '{argument}'"
  | invalidValue argument value => s!"invalid value '{value}' for '{argument}'"
  | unwantedValue argument => s!"'{argument}' takes no value"
  | repeated argument => s!"'{argument}' cannot be used multiple times"

inductive Request where
  | help
  | version
  | play (settings : Settings)
  deriving DecidableEq

inductive Word where
  | named (purpose : Purpose) (attached : Option String)
  | stop
  | unknown
  deriving DecidableEq

/--
Read an argument. A value is attached with an equals sign, which short names do not need. A short name
without value may be followed by others, which count for nothing since all of them end the reading.
-/
def Word.ofText (argument : String) : Word :=
  match argument.toList with
  | ['-', '-'] => .stop
  | '-' :: '-' :: rest =>
    let (name, attached) := match Text.cutAt? '=' rest with
      | some (name, value) => (name, some (String.ofList value))
      | none => (rest, none)
    match longNames.lookup (String.ofList name) with
    | some purpose => .named purpose attached
    | none => .unknown
  | '-' :: c :: rest =>
    match shortNames.lookup c, rest with
    | some (.parameter p), '=' :: value => .named (.parameter p) (some (String.ofList value))
    | some (.parameter p), d :: value => .named (.parameter p) (some (String.ofList (d :: value)))
    | some purpose, _ => .named purpose none
    | none, _ => .unknown
  | _ => .unknown

def isValue (argument : String) : Bool :=
  match argument.toList with
  | '-' :: _ :: _ => false
  | _ => true

def assign (settings : Settings) (value : String) : Parameter → Option Settings
  | .script => if value.isEmpty then none else some { settings with script := some value }
  | .config => if value.isEmpty then none else some { settings with config := some value }
  | .record => if value.isEmpty then none else some { settings with record := some value }
  | .decoders => some { settings with decoders := some value }
  | .start => (Decimal.readFloat? value.toList).map fun start => { settings with start := some start }

def isAssigned (settings : Settings) : Parameter → Bool
  | .script => settings.script.isSome
  | .config => settings.config.isSome
  | .record => settings.record.isSome
  | .decoders => settings.decoders.isSome
  | .start => settings.start.isSome

def assignOnce (settings : Settings) (parameter : Parameter) (argument value : String) :
    Except UsageError Settings :=
  if isAssigned settings parameter then .error (.repeated argument)
  else
    match assign settings value parameter with
    | some settings => .ok settings
    | none => .error (.invalidValue argument value)

def raise (settings : Settings) (flag : Flag) (argument : String) : Except UsageError Settings :=
  match flag with
  | .framedrop =>
    if settings.framedrop then .error (.repeated argument)
    else .ok { settings with framedrop := true }
  | .listDecoders =>
    if settings.listDecoders then .error (.repeated argument)
    else .ok { settings with listDecoders := true }

def readFrom (settings : Settings) : List String → Except UsageError Request
  | [] => .ok (.play settings)
  | argument :: rest =>
    match Word.ofText argument with
    | .unknown => .error (.unknownArgument argument)
    | .stop =>
      match rest with
      | [] => .ok (.play settings)
      | extra :: _ => .error (.unknownArgument extra)
    | .named .help none => .ok .help
    | .named .version none => .ok .version
    | .named .help (some _) | .named .version (some _) | .named (.flag _) (some _) =>
      .error (.unwantedValue argument)
    | .named (.flag flag) none => do readFrom (← raise settings flag argument) rest
    | .named (.parameter parameter) (some value) => do
      readFrom (← assignOnce settings parameter argument value) rest
    | .named (.parameter parameter) none =>
      match rest with
      | [] => .error (.missingValue argument)
      | value :: rest =>
        if isValue value then do
          readFrom (← assignOnce settings parameter argument value) rest
        else .error (.missingValue argument)

def read (arguments : List String) : Except UsageError Request := readFrom {} arguments

end CommandLine
end DecodePipeline
