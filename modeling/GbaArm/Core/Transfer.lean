import GbaArm.Core.DataProcessing

/-!
Single transfers between a register and memory. The address comes first and writes its base back, so a
store of the base sees the new value and a load into the base wins over it.
-/
namespace GbaArm.Core

/-- The ways a value is moved. -/
inductive TransferWidth
  | word | half | byte | signedHalf | signedByte
  deriving DecidableEq, Repr

/-- Bit 23 chooses between adding and taking off. -/
def offsetBase (word base offset : UInt32) : UInt32 :=
  if bit word 23 then base + offset else base - offset

/-- The offset of a halfword transfer: a register, or eight bits in two parts if bit 22 is set. -/
def halfOffset (c : Cpu) (word : UInt32) : UInt32 :=
  if bit word 22 then
    let high := (word &&& 0xF00) >>> 4
    high ||| (word &&& 0xF)
  else c.regs.read (Field.rm word)

/-- The offset of a word or byte transfer: a scaled register, or twelve bits. -/
def wordOffset (c : Cpu) (word : UInt32) (scaled : Bool) : UInt32 :=
  if scaled then (c.shiftedByImmediate word).value else word &&& 0xFFF

variable {β : Type} [Bus β] (m : Core β)

/-- The address of an access, and the base written back. -/
def transferAddress (word offset : UInt32) (indexing : Indexing) : UInt32 × Core β :=
  let n := Field.rn word
  match indexing with
  | .post =>
    let base := m.cpu.regs.read n
    (base, m.writeRegister n (offsetBase word base offset))
  | .postUser =>
    let base := m.readUser n
    (base, m.writeUserBase n (offsetBase word base offset))
  | .pre =>
    let address := offsetBase word (m.cpu.regs.read n) offset
    (address, if bit word 21 then m.writeRegister n address else m)

/-- The program counter moves on before the register is read. -/
def storeRegister (word address : UInt32) (width : TransferWidth) : Core β :=
  let m := m.onCpu Cpu.advancePc
  let value := m.cpu.regs.read (Field.rd word)
  match width with
  | .word => m.storeWord address value
  | .byte => m.storeByte address value
  | .half | .signedHalf | .signedByte => m.storeHalf address value

def loadRegister (word address : UInt32) (width : TransferWidth) : Core β :=
  let (value, m) :=
    match width with
    | .word => m.loadWord address
    | .half | .signedHalf => m.loadHalf address
    | .byte | .signedByte => m.loadByte address
  let value :=
    match width with
    | .signedHalf => signExtend16 value
    | .signedByte => signExtend8 value
    | .word | .half | .byte => value
  ((m.onCpu Cpu.advancePc).writeRegister (Field.rd word) value).internalCycle

def transferRegister (word offset : UInt32) (indexing : Indexing) (load : Bool)
    (width : TransferWidth) : Core β :=
  let (address, m) := m.transferAddress word offset indexing
  if load then m.loadRegister word address width else m.storeRegister word address width

def transfer (word : UInt32) (load byte : Bool) (indexing : Indexing) (scaled : Bool) : Core β :=
  m.transferRegister word (wordOffset m.cpu word scaled) indexing load (if byte then .byte else .word)

def halfTransfer (word : UInt32) (kind : HalfTransfer) (indexing : Indexing) : Core β :=
  let offset := halfOffset m.cpu word
  match kind with
  | .storeHalf => m.transferRegister word offset indexing false .half
  | .loadHalf => m.transferRegister word offset indexing true .half
  | .loadSignedByte => m.transferRegister word offset indexing true .signedByte
  | .loadSignedHalf => m.transferRegister word offset indexing true .signedHalf

/-- Exchanges a register with memory; the register is read after the load. -/
def swap (word : UInt32) (byte : Bool) : Core β :=
  let base := m.cpu.regs.read (Field.rn word)
  let (data, m) := if byte then m.loadByte base else m.loadWord base
  let m := m.internalCycle
  let value := m.cpu.regs.read (Field.rm word)
  let m := if byte then m.storeByte base value else m.storeWord base value
  (m.onCpu Cpu.advancePc).writeRegister (Field.rd word) data

end GbaArm.Core
