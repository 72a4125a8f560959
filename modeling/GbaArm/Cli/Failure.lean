import GbaArm.Cli.Path
import GbaArm.Fault
import GbaArm.Text.Quoted
import GbaArm.Toml.Basic

/-! Why a run of the program fails, and the report of it. -/
namespace GbaArm.Cli

/-- Why the settings could not be read. -/
inductive ConfigProblem
  | file (cause : FileError)
  | text (cause : Toml.Problem)

inductive Failure
  | readingConfig (path : String) (cause : ConfigProblem)
  | unknownLevel (name : String)
  | noRom
  | loading (kind : ImageKind) (path : Path) (cause : Fault)
  | creatingDirectory (path : String) (cause : FileError)
  | writingConfig (path : String) (cause : FileError)
  | stopped (cause : Fault)

namespace Failure

/-- A fault, and the error behind it if there is one. -/
def faultChain (fault : Fault) : List String :=
  fault.message :: (fault.cause.map FileError.message).toList

/-- What failed, then each cause behind it. -/
def chain : Failure → String × List String
  | readingConfig path (.file cause) => ("loading config", ["reading " ++ path, cause.message])
  | readingConfig path (.text cause) => ("loading config", ["parsing " ++ path, cause.message])
  | unknownLevel name =>
    ("invalid log level " ++ Text.quoted name ++
      ": attempted to convert a string that doesn't match an existing log level", [])
  | noRom => ("no ROM_PATH given and no recent ROM in the config", [])
  | loading kind path cause => ("loading " ++ kind.name ++ " " ++ path.text, faultChain cause)
  | creatingDirectory path cause => ("saving config", ["creating " ++ path, cause.message])
  | writingConfig path cause => ("saving config", ["writing " ++ path, cause.message])
  | stopped cause => ("execution stopped", faultChain cause)

/-- Puts `start` before the first line of a text and blanks before the others. -/
def indent (start text : String) : String :=
  start ++ ("\n" ++ String.ofList (List.replicate start.length ' ')).intercalate (text.splitOn "\n")

/-- The causes below one another, numbered if there are several. -/
def causesText : List String → String
  | [] => ""
  | [cause] => "\n\nCaused by:\n" ++ indent "    " cause
  | causes =>
    "\n\nCaused by:" ++
      String.join (causes.mapIdx fun i cause => "\n" ++ indent ("    " ++ toString i ++ ": ") cause)

def report (f : Failure) : String := "Error: " ++ f.chain.1 ++ causesText f.chain.2 ++ "\n"

end Failure

end GbaArm.Cli
