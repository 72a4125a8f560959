import GbaArm.Cli.Path

/-! The arguments of the command line. -/
namespace GbaArm.Cli

structure Options where
  rom : Option Path := none
  bios : Option Path := none
  cycles : Option Nat := none
  logLevel : Option String := none
  dump : Bool := false
  noSave : Bool := false

/-- What the arguments ask for. -/
inductive Request
  | run (options : Options)
  | help
  | version

inductive UsageError
  | unknownOption (text : String)
  | missingValue (option : String)
  | badValue (option value : String)
  | unexpectedValue (option value : String)
  | repeated (option : String)
  | extraArgument (text : String)
  deriving DecidableEq, Repr

def UsageError.message : UsageError → String
  | unknownOption text => "unexpected argument '" ++ text ++ "' found"
  | missingValue option => "a value is required for '" ++ option ++ "' but none was supplied"
  | badValue option value => "invalid value '" ++ value ++ "' for '" ++ option ++ "'"
  | unexpectedValue option value => "unexpected value '" ++ value ++ "' for '" ++ option ++ "' found"
  | repeated option => "the argument '" ++ option ++ "' cannot be used multiple times"
  | extraArgument text => "unexpected argument '" ++ text ++ "' found"

/-- A decimal number of at most 64 bits, maybe after a plus sign. -/
def readCount? (text : String) : Option Nat :=
  let digits := match text.toList with
    | '+' :: rest => rest
    | all => all
  if !digits.isEmpty && digits.all Char.isDigit then
    let n := digits.foldl (fun n c => 10 * n + (c.toNat - '0'.toNat)) 0
    if n < UInt64.size then some n else none
  else none

/-- The options that take a value. -/
inductive ValueOption
  | bios | cycles | logLevel
  deriving DecidableEq, Repr

namespace ValueOption

def all : List ValueOption := [bios, cycles, logLevel]

def name : ValueOption → String
  | bios => "--bios"
  | cycles => "--cycles"
  | logLevel => "--log-level"

def ofName? (name : String) : Option ValueOption := all.find? fun o => o.name == name

end ValueOption

/-- The options that stand alone. -/
inductive FlagOption
  | dump | noSave | help | version
  deriving DecidableEq, Repr

namespace FlagOption

def all : List FlagOption := [dump, noSave, help, version]

def name : FlagOption → String
  | dump => "--dump"
  | noSave => "--no-save"
  | help => "--help"
  | version => "--version"

def ofName? (name : String) : Option FlagOption := all.find? fun o => o.name == name

end FlagOption

/-- How one argument reads on its own. -/
inductive Argument
  | plain (text : String)
  /-- Two dashes: only plain arguments follow. -/
  | separator
  | valued (option : ValueOption) (attached : Option String)
  | flag (option : FlagOption) (attached : Option String)
  | unknown (text : String)

namespace Argument

/-- Splits a long option at the first equals sign. -/
def splitValue (text : List Char) : String × Option String :=
  match text.dropWhile (· != '=') with
  | [] => (String.ofList text, none)
  | _ :: value => (String.ofList (text.takeWhile (· != '=')), some (String.ofList value))

/-- A lone dash is a plain argument. -/
def ofText (text : String) : Argument :=
  match text.toList with
  | ['-', '-'] => separator
  | '-' :: '-' :: _ =>
    let (name, attached) := splitValue text.toList
    match ValueOption.ofName? name, FlagOption.ofName? name with
    | some option, _ => valued option attached
    | none, some option => flag option attached
    | none, none => unknown text
  | '-' :: 'h' :: _ => flag .help none
  | '-' :: 'V' :: _ => flag .version none
  | '-' :: _ :: _ => unknown text
  | _ => plain text

end Argument

namespace Options

/-- Fills a field that must still be empty. -/
def fill {α : Type} (name : String) (value : α) : Option α → Except UsageError (Option α)
  | none => .ok (some value)
  | some _ => .error (.repeated name)

/-- A path may not be empty. -/
def pathOf (name text : String) : Except UsageError Path :=
  if text.isEmpty then .error (.missingValue name) else .ok ⟨text⟩

def withRom (o : Options) (text : String) : Except UsageError Options := do
  match o.rom with
  | none => return { o with rom := some (← pathOf "[ROM_PATH]" text) }
  | some _ => .error (.extraArgument text)

def withValue (o : Options) (option : ValueOption) (text : String) : Except UsageError Options := do
  match option with
  | .bios => return { o with bios := ← fill option.name (← pathOf option.name text) o.bios }
  | .cycles =>
    match readCount? text with
    | some n => return { o with cycles := ← fill option.name n o.cycles }
    | none => .error (.badValue option.name text)
  | .logLevel => return { o with logLevel := ← fill option.name text o.logLevel }

/-- Reads the arguments from left to right. After a separator all are plain. -/
def ofArguments (o : Options) (plainOnly : Bool) : List String → Except UsageError Request
  | [] => .ok (.run o)
  | text :: rest => do
    if plainOnly then ofArguments (← o.withRom text) true rest
    else
      match Argument.ofText text with
      | .plain text => ofArguments (← o.withRom text) false rest
      | .separator => ofArguments o true rest
      | .valued option (some value) => ofArguments (← o.withValue option value) false rest
      | .valued option none =>
        match rest with
        | next :: rest =>
          match Argument.ofText next with
          | .plain value => ofArguments (← o.withValue option value) false rest
          | _ => .error (.missingValue option.name)
        | [] => .error (.missingValue option.name)
      | .flag option (some value) => .error (.unexpectedValue option.name value)
      | .flag .help none => return .help
      | .flag .version none => return .version
      | .flag .dump none =>
        if o.dump then .error (.repeated "--dump")
        else ofArguments { o with dump := true } false rest
      | .flag .noSave none =>
        if o.noSave then .error (.repeated "--no-save")
        else ofArguments { o with noSave := true } false rest
      | .unknown text => .error (.unknownOption text)

end Options

def Request.ofArguments (arguments : List String) : Except UsageError Request :=
  Options.ofArguments {} false arguments

end GbaArm.Cli
