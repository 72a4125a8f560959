import GbaArm.Cli.Program

/-! The program on a real computer. -/
namespace GbaArm

def FileError.ofIO : IO.Error → FileError
  | .noFileOrDirectory .. => .notFound
  | .inappropriateType _ 21 _ => .isADirectory
  | .inappropriateType .. => .notADirectory
  | .alreadyExists .. => .alreadyThere
  | e => .other (toString e)

namespace Cli

/-- An action with its error as a value. -/
def attempt {α : Type} (action : IO α) : IO (Except FileError α) := do
  try return .ok (← action)
  catch e => return .error (FileError.ofIO e)

/-- The directory of a user's settings, which must be an absolute path. -/
def configHome : IO (Option String) := do
  match ← IO.getEnv "XDG_CONFIG_HOME" with
  | some directory => if directory.startsWith "/" then return some directory
  | none => pure ()
  match ← IO.getEnv "HOME" with
  | some home => if home.isEmpty then return none else return some (home ++ "/.config")
  | none => return none

instance : Host IO where
  configFile := do return (← configHome).map fun directory => (directory ++ "/arm7gba", "config.toml")
  pathExists path := do return (← attempt (IO.FS.realPath ⟨path⟩)).isOk
  readFile path := attempt (IO.FS.readBinFile ⟨path⟩)
  createDirectories path := attempt (IO.FS.createDirAll ⟨path⟩)
  writeFile path text := attempt (IO.FS.writeFile ⟨path⟩ text)
  print text := do
    let out ← IO.getStdout
    out.putStr text
    out.flush
  printError text := do (← IO.getStderr).putStr text

end Cli

end GbaArm

def main (arguments : List String) : IO UInt32 := GbaArm.Cli.runProgram arguments
