import GbaArm.Memory
import GbaArm.Text.Hex

/-! What can go wrong, and the words for it. -/
namespace GbaArm

/-- Why a file could not be read or written. -/
inductive FileError
  | notFound
  | notADirectory
  | isADirectory
  | alreadyThere
  | nameTooLong
  | badName
  | notText
  | other (description : String)
  deriving DecidableEq, Repr

def FileError.message : FileError → String
  | notFound => "No such file or directory (os error 2)"
  | notADirectory => "Not a directory (os error 20)"
  | isADirectory => "Is a directory (os error 21)"
  | alreadyThere => "File exists (os error 17)"
  | nameTooLong => "File name too long (os error 36)"
  | badName => "file name contained an unexpected NUL byte"
  | notText => "stream did not contain valid UTF-8"
  | other description => description

inductive Fault
  | biosSize (length : Nat)
  | romSize (length : Nat)
  | thumbUnsupported (pc : UInt32)
  | file (cause : FileError)
  deriving DecidableEq, Repr

namespace Fault

def message : Fault → String
  | biosSize length =>
    "BIOS image is " ++ toString length ++ " bytes, expected at most " ++ toString Memory.biosSize
  | romSize length =>
    "ROM image is " ++ toString length ++ " bytes, expected 1..=" ++ toString Memory.romLimit
  | thumbUnsupported pc =>
    "THUMB state entered at 0x" ++ Text.hexLower 8 pc.toNat ++ "; only ARM code is interpreted"
  | file cause => "I/O error: " ++ cause.message

/-- The error behind this one, if there is one. -/
def cause : Fault → Option FileError
  | file cause => some cause
  | _ => none

end Fault

/-- Puts an image in place. A BIOS may be short and is padded; a cartridge may not be empty. -/
def Memory.load (m : Memory) (kind : ImageKind) (image : ByteArray) : Except Fault Memory :=
  match kind with
  | .bios =>
    if image.size ≤ biosSize then .ok { m with bios := padBios image }
    else .error (.biosSize image.size)
  | .rom =>
    if 0 < image.size ∧ image.size ≤ romLimit then .ok { m with rom := image }
    else .error (.romSize image.size)

end GbaArm
