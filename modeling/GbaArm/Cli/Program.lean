import GbaArm.Cli.Arguments
import GbaArm.Cli.Config
import GbaArm.Cli.Failure
import GbaArm.Cli.Host
import GbaArm.Console

/-! One run of the program: settings, images, a budget of cycles, and what is printed and kept. -/
namespace GbaArm.Cli

variable {m : Type → Type} [Monad m] [Host m]

/-- What a run does, and how it may fail. -/
abbrev Run (m : Type → Type) (α : Type) := ExceptT Failure m α

/-- Turns an error into a failure of the run. -/
def orFail {ε α : Type} (failure : ε → Failure) (result : Except ε α) : Run m α :=
  match result with
  | .ok a => return a
  | .error e => throw (failure e)

/-- The settings in a file, or the default ones if there is no such file. -/
def loadConfig : Run m Config := do
  match ← Host.configFile (m := m) with
  | none => return {}
  | some (directory, name) =>
    let path := directory ++ "/" ++ name
    if !(← Host.pathExists (m := m) path) then return {}
    let bytes ← orFail (fun e => .readingConfig path (.file e)) (← Host.readFile (m := m) path)
    match String.fromUTF8? bytes with
    | none => throw (.readingConfig path (.file .notText))
    | some text => orFail (fun e => .readingConfig path (.text e)) (Config.read text)

def saveConfig (config : Config) : Run m Unit := do
  match ← Host.configFile (m := m) with
  | none => return
  | some (directory, name) =>
    let path := directory ++ "/" ++ name
    orFail (.creatingDirectory directory) (← Host.createDirectories (m := m) directory)
    orFail (.writingConfig path) (← Host.writeFile (m := m) path config.text)

def levelOf (name : String) : Except Failure LevelFilter :=
  match LevelFilter.ofName? name with
  | some filter => .ok filter
  | none => .error (.unknownLevel name)

/-- Reads an image and puts it into the machine. -/
def loadImage (kind : ImageKind) (path : Path) (machine : Console) : Run m Console := do
  let file ← Host.readFile (m := m) path.text
  orFail (.loading kind path) (machine.loadFile kind file)

/-- Prints the records that were kept, and says how many were not. -/
def printLog (log : LogBuffer) : m Unit := do
  if 0 < log.dropped then
    Host.printError ("(" ++ toString log.dropped ++ " older log records dropped)\n")
  Host.printError (String.join (log.entries.toList.map fun e => e.text ++ "\n"))

/-- The state of the processor as a TOML document. -/
def dump (machine : Console) : String :=
  let cpu := machine.cpu
  let word (w : UInt32) : String := Toml.stringText (Text.wordText w)
  Toml.entry "cycles" (toString machine.cycles) ++
    Toml.entry "mode" (Toml.stringText cpu.mode.name) ++
    Toml.entry "state" (Toml.stringText cpu.instructionSet.name) ++
    Toml.entry "cpsr" (word cpu.status.raw) ++
    (match cpu.savedStatus with
    | some saved => Toml.entry "spsr" (word saved)
    | none => "") ++
    Toml.entry "registers" (Toml.flatArray (cpu.regs.live.toList.map Text.wordText))

/-- Runs a cartridge as the options and the settings say. The settings are kept even if the run fails. -/
def runImages (options : Options) : Run m Unit := do
  let config ← loadConfig
  let filter ← orFail id (levelOf (options.logLevel.getD config.logLevel))
  let some rom := options.rom <|> config.recentRoms.head? | throw .noRom
  let bios := options.bios <|> config.bios
  let budget := options.cycles.getD config.cycleBudget
  let machine := Console.initial (Log.ofFilter filter config.logCapacity)
  let machine ← match bios with
    | some path => loadImage .bios path machine
    | none => pure machine
  let machine ← loadImage .rom rom machine
  let machine := machine.onBoard (Bus.note (.runStarted rom.text budget))
  let (outcome, machine) := machine.run budget
  printLog (m := m) machine.board.log.buffer
  if options.dump then Host.print (m := m) (dump machine)
  if !options.noSave then
    let config := config.addRecent rom
    saveConfig (if options.bios.isSome then { config with bios } else config)
  let spent ← orFail .stopped outcome
  Host.print (m := m) (toString spent ++ " cycles, PC " ++ Text.wordText machine.cpu.pc ++ "\n")

def version : String := "arm7gba 0.1.0\n"

def usage : String := "Usage: arm7gba [OPTIONS] [ROM_PATH]\n"

def help : String :=
  "Runs the ARM code of a Game Boy Advance ROM image.\n\n" ++ usage ++ "
Arguments:
  [ROM_PATH]  ROM image; defaults to the most recent one in the config

Options:
      --bios <BIOS>            BIOS image. Without one the run starts at the cartridge entry point
      --cycles <CYCLES>        Cycle budget for this run
      --log-level <LOG_LEVEL>  off, error, warn, info, debug or trace
      --dump                   Print the register state as TOML after the run
      --no-save                Do not update the config file
  -h, --help                   Print help
  -V, --version                Print version
"

/-- The whole program. Gives its exit code: 0 for success, 1 for a failed run, 2 for wrong usage. -/
def runProgram (arguments : List String) : m UInt32 := do
  match Request.ofArguments arguments with
  | .error e =>
    Host.printError ("error: " ++ e.message ++ "\n\n" ++ usage)
    return 2
  | .ok .help =>
    Host.print help
    return 0
  | .ok .version =>
    Host.print version
    return 0
  | .ok (.run options) =>
    match ← (runImages options).run with
    | .ok () => return 0
    | .error failure =>
      Host.printError failure.report
      return 1

end GbaArm.Cli
