import GbaArm.Fault

/-! What the program asks of the computer it runs on. -/
namespace GbaArm.Cli

class Host (m : Type → Type) where
  /-- Where the settings are kept: a directory, and the file in it. -/
  configFile : m (Option (String × String))
  pathExists : String → m Bool
  readFile : String → m (Except FileError ByteArray)
  /-- Makes a directory and those above it; one that is there already is no error. -/
  createDirectories : String → m (Except FileError Unit)
  writeFile : String → String → m (Except FileError Unit)
  print : String → m Unit
  printError : String → m Unit

end GbaArm.Cli
