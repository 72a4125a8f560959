import GbaArm.Cli.Host
import GbaArm.Cli.Volume

/-! A host of pure values: files, and what was printed. -/
namespace GbaArm.Cli

structure Desk where
  volume : Volume
  /-- Directory of the settings below the working directory. -/
  configDirectory : List String
  configName : String
  printed : String := ""
  printedErrors : String := ""

namespace Desk

variable (d : Desk)

def configPlace : List String := d.volume.workingDirectory ++ d.configDirectory ++ [d.configName]

/-- The settings as they stand, if there is such a file. -/
def config? : Option ByteArray :=
  match d.volume.find? d.configPlace with
  | some (.file bytes) => some bytes
  | _ => none

def pathOf (place : List String) : String := String.join (place.map ("/" ++ ·))

/-- Changes the files unless that fails. -/
def change (f : Volume → Except FileError Volume) : Except FileError Unit × Desk :=
  match f d.volume with
  | .ok volume => (.ok (), { d with volume })
  | .error e => (.error e, d)

end Desk

instance : Host (StateM Desk) where
  configFile := do
    let d ← get
    return some (Desk.pathOf (d.volume.workingDirectory ++ d.configDirectory), d.configName)
  pathExists path := do return (← get).volume.entryAt path |>.isOk
  readFile path := do return (← get).volume.read path
  createDirectories path := modifyGet fun d => d.change fun v => v.makeDirectories path
  writeFile path text := modifyGet fun d => d.change fun v => v.write path text.toUTF8
  print text := modify fun d => { d with printed := d.printed ++ text }
  printError text := modify fun d => { d with printedErrors := d.printedErrors ++ text }

end GbaArm.Cli
