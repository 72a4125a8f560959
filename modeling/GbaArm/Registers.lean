import GbaArm.Status

/-!
The sixteen visible registers and the copies kept out of view. R13 and R14 have a copy for each
exception mode, and FIQ has its own R8 to R14.

`userCopy` holds the User values of R8 to R14 that the live mode hides; the rest of it is stale.
-/
namespace GbaArm

/-- The modes that share one set of registers. -/
inductive Bank
  | user | fiq | irq | supervisor | abort | undefined
  deriving DecidableEq, Repr

def Bank.ofMode : Mode → Bank
  | .user | .system => .user
  | .fiq => .fiq
  | .irq => .irq
  | .supervisor => .supervisor
  | .abort => .abort
  | .undefined => .undefined

/-- A private stack pointer and link register. -/
structure StackPair where
  sp : UInt32
  lr : UInt32
  deriving DecidableEq, Repr

structure RegisterFile where
  live : Vector UInt32 16
  userCopy : Vector UInt32 7
  fiqCopy : Vector UInt32 7
  irqCopy : StackPair
  supervisorCopy : StackPair
  abortCopy : StackPair
  undefinedCopy : StackPair
  saved : Vector UInt32 5
  deriving DecidableEq, Repr

namespace RegisterFile

/-- Every register zero. -/
def zeroed : RegisterFile where
  live := Vector.replicate 16 0
  userCopy := Vector.replicate 7 0
  fiqCopy := Vector.replicate 7 0
  irqCopy := ⟨0, 0⟩
  supervisorCopy := ⟨0, 0⟩
  abortCopy := ⟨0, 0⟩
  undefinedCopy := ⟨0, 0⟩
  saved := Vector.replicate 5 0

variable (r : RegisterFile) (n : Nat) (value : UInt32)

/-- Register numbers are read modulo 16. -/
def read : UInt32 := r.live.get ⟨n % 16, Nat.mod_lt _ (by decide)⟩

def write : RegisterFile := { r with live := r.live.set (n % 16) value (Nat.mod_lt _ (by decide)) }

def pc : UInt32 := r.live[15]

def setPc : RegisterFile := { r with live := r.live.set 15 value }

/-- The program counter moves on by one instruction. -/
def advancePc : RegisterFile := r.setPc (r.pc + 4)

/-- The hidden User copy of a register, whether or not it is stale. R15 has none and is read live. -/
def readCopy : UInt32 :=
  if n < 15 then r.userCopy[n % 8]?.getD 0 else r.pc

/-- R7 and R15 have no hidden copy: writing one does nothing. -/
def writeCopy : RegisterFile := { r with userCopy := r.userCopy.setIfInBounds (n % 8) value }

/-- Whether the User value of register `n` is hidden in `mode`. -/
def hidesUser (mode : Mode) (n : Nat) : Bool :=
  match mode with
  | .user | .system => false
  | .fiq => 8 ≤ n
  | _ => 13 ≤ n

/-- Register `n` as User mode sees it, read in `mode`. -/
def readUser (mode : Mode) : UInt32 :=
  if hidesUser mode n then r.readCopy n else r.read n

/-- Writes register `n` as User mode sees it, in `mode`. -/
def writeUser (mode : Mode) : RegisterFile :=
  if hidesUser mode n then r.writeCopy n value else r.write n value

/-- The live R8 to R14. -/
def window : Vector UInt32 7 := Vector.ofFn fun i => r.live[8 + i.val]

/-- Brings seven values into view as R8 to R14. -/
def setWindow (values : Vector UInt32 7) : RegisterFile :=
  { r with
    live := Vector.ofFn fun i : Fin 16 =>
      if h : 8 ≤ i.val ∧ i.val < 15 then values[i.val - 8] else r.live[i] }

/-- The live R8 to R12 go back to the User copy; its R13 and R14 stay. -/
def keepShared : RegisterFile :=
  { r with
    userCopy := Vector.ofFn fun i : Fin 7 => if i.val < 5 then r.live[8 + i.val] else r.userCopy[i] }

/-- The User R8 to R12 come into view, with a private R13 and R14. -/
def showPair (pair : StackPair) : RegisterFile :=
  r.setWindow ((r.userCopy.set 5 pair.sp).set 6 pair.lr)

def livePair : StackPair := ⟨r.live[13], r.live[14]⟩

/-- Puts the live R8 to R14 away as those of `bank`. -/
def stash : Bank → RegisterFile
  | .user => { r with userCopy := r.window }
  | .fiq => { r with fiqCopy := r.window }
  | .irq => { r.keepShared with irqCopy := r.livePair }
  | .supervisor => { r.keepShared with supervisorCopy := r.livePair }
  | .abort => { r.keepShared with abortCopy := r.livePair }
  | .undefined => { r.keepShared with undefinedCopy := r.livePair }

/-- Brings the R8 to R14 of `bank` into view. -/
def expose : Bank → RegisterFile
  | .user => r.setWindow r.userCopy
  | .fiq => r.setWindow r.fiqCopy
  | .irq => r.showPair r.irqCopy
  | .supervisor => r.showPair r.supervisorCopy
  | .abort => r.showPair r.abortCopy
  | .undefined => r.showPair r.undefinedCopy

/-- Swaps the registers of `old` for those of `new`. -/
def switchBank (old new : Mode) : RegisterFile :=
  if Bank.ofMode old = Bank.ofMode new then r
  else (r.stash (Bank.ofMode old)).expose (Bank.ofMode new)

/-- The saved status word of `mode`, if it has one. -/
def savedStatus (mode : Mode) : Option UInt32 := mode.savedIndex.map fun i => r.saved[i]

/-- Does nothing in User and System mode. -/
def setSavedStatus (mode : Mode) : RegisterFile :=
  match mode.savedIndex with
  | some i => { r with saved := r.saved.set i value }
  | none => r

end RegisterFile

end GbaArm
