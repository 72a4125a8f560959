/-! Processor modes and the status word: flags in the top four bits, control byte in the low eight. -/
namespace GbaArm

inductive InstructionSet
  | arm | thumb
  deriving DecidableEq, Repr

def InstructionSet.name : InstructionSet → String
  | arm => "Arm"
  | thumb => "Thumb"

inductive Mode
  | user | fiq | irq | supervisor | abort | undefined | system
  deriving DecidableEq, Repr

namespace Mode

/-- The mode named by the low five bits. A field that names none stands for User. -/
def ofBits (bits : UInt32) : Mode :=
  match (bits &&& 0x1F).toNat with
  | 0x11 => fiq
  | 0x12 => irq
  | 0x13 => supervisor
  | 0x17 => abort
  | 0x1B => undefined
  | 0x1F => system
  | _ => user

def toBits : Mode → UInt32
  | user => 0x10
  | fiq => 0x11
  | irq => 0x12
  | supervisor => 0x13
  | abort => 0x17
  | undefined => 0x1B
  | system => 0x1F

/-- The saved-status slot of a mode. User and System have none. -/
def savedIndex : Mode → Option (Fin 5)
  | user | system => none
  | fiq => some 0
  | irq => some 1
  | supervisor => some 2
  | abort => some 3
  | undefined => some 4

def isPrivileged : Mode → Bool
  | user => false
  | _ => true

def name : Mode → String
  | user => "User"
  | fiq => "Fiq"
  | irq => "Irq"
  | supervisor => "Supervisor"
  | abort => "Abort"
  | undefined => "Undefined"
  | system => "System"

end Mode

structure StatusWord where
  raw : UInt32
  deriving DecidableEq, Repr

namespace StatusWord

/-- Masks interrupts when set. -/
def irqDisable : UInt32 := 0x80

/-- Masks fast interrupts when set. -/
def fiqDisable : UInt32 := 0x40

/-- Selects the 16-bit instruction set when set. -/
def thumbBit : UInt32 := 0x20

variable (s : StatusWord)

def n : Bool := s.raw &&& 0x80000000 != 0
def z : Bool := s.raw &&& 0x40000000 != 0
def c : Bool := s.raw &&& 0x20000000 != 0
def v : Bool := s.raw &&& 0x10000000 != 0
def i : Bool := s.raw &&& irqDisable != 0
def f : Bool := s.raw &&& fiqDisable != 0
def t : Bool := s.raw &&& thumbBit != 0

def nzcv : UInt32 := s.raw &&& 0xF0000000

def control : UInt32 := s.raw &&& 0xFF

def mode : Mode := Mode.ofBits s.raw

def instructionSet : InstructionSet := if s.t then .thumb else .arm

/-- One letter a flag, a dash for a clear one, then the mode. -/
def text : String :=
  let letter (set : Bool) (c : Char) : Char := if set then c else '-'
  String.ofList [letter s.n 'N', letter s.z 'Z', letter s.c 'C', letter s.v 'V', ' ',
    letter s.i 'I', letter s.f 'F', letter s.t 'T', ' '] ++ s.mode.name

/-- Every flag spelled out with its value. -/
def fullText : String :=
  "Cpsr \x7b N: " ++ toString s.n ++ ", Z: " ++ toString s.z ++ ", C: " ++ toString s.c ++
    ", V: " ++ toString s.v ++ ", I: " ++ toString s.i ++ ", F: " ++ toString s.f ++
    ", T: " ++ toString s.t ++ ", mode: " ++ s.mode.name ++ " \x7d"

end StatusWord

end GbaArm
