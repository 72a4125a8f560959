import GbaArm.Word

/-!
The form of an instruction, read off its class: bits 27 to 20 and 7 to 4. `Opcode.ofClass` states the
encoding rules, and a `DecodeTable` holds their value for all 4096 classes.
-/
namespace GbaArm

/-- The data-processing operations, in the order of their encodings. -/
inductive AluOp
  | and | eor | sub | rsb | add | adc | sbc | rsc | tst | teq | cmp | cmn | orr | mov | bic | mvn
  deriving DecidableEq, Repr

namespace AluOp

def ofField (field : UInt32) : AluOp :=
  match (field &&& 0xF).toNat with
  | 0 => .and | 1 => .eor | 2 => .sub | 3 => .rsb | 4 => .add | 5 => .adc | 6 => .sbc | 7 => .rsc
  | 8 => .tst | 9 => .teq | 10 => .cmp | 11 => .cmn | 12 => .orr | 13 => .mov | 14 => .bic
  | _ => .mvn

/-- Logical operations take C from the shifter when they set flags. -/
def isLogical : AluOp → Bool
  | .and | .eor | .tst | .teq | .orr | .mov | .bic | .mvn => true
  | _ => false

/-- Comparisons keep no result. -/
def isCompare : AluOp → Bool
  | .tst | .teq | .cmp | .cmn => true
  | _ => false

def name : AluOp → String
  | .and => "And" | .eor => "Eor" | .sub => "Sub" | .rsb => "Rsb" | .add => "Add" | .adc => "Adc"
  | .sbc => "Sbc" | .rsc => "Rsc" | .tst => "Tst" | .teq => "Teq" | .cmp => "Cmp" | .cmn => "Cmn"
  | .orr => "Orr" | .mov => "Mov" | .bic => "Bic" | .mvn => "Mvn"

end AluOp

/-- When a single transfer applies its offset. -/
inductive Indexing
  /-- Access at the base, then write back base plus or minus offset. -/
  | post
  /-- As `post`, with the base of User mode. -/
  | postUser
  /-- Access at base plus or minus offset; write back if asked to. -/
  | pre
  deriving DecidableEq, Repr

/-- The halfword and signed transfers. -/
inductive HalfTransfer
  | storeHalf | loadHalf | loadSignedByte | loadSignedHalf
  deriving DecidableEq, Repr

inductive Opcode
  /-- The last operand is shifted by a register if `byRegister`. -/
  | dataProcessing (op : AluOp) (setFlags byRegister : Bool)
  | readStatus
  | writeStatus
  | branchExchange
  | multiply (accumulate setFlags : Bool)
  | multiplyLong (signed accumulate setFlags : Bool)
  | halfTransfer (kind : HalfTransfer) (indexing : Indexing)
  /-- A word or byte transfer; the offset is a scaled register if `scaled`. -/
  | transfer (load byte : Bool) (indexing : Indexing) (scaled : Bool)
  | swap (byte : Bool)
  | blockTransfer
  | branch (link : Bool)
  | softwareInterrupt
  | undefined
  deriving DecidableEq, Repr

namespace Opcode

/-- Number of instruction classes. -/
def classCount : Nat := 4096

/-- Bits 27 to 20 and 7 to 4 of an instruction. -/
def classOf (word : UInt32) : UInt32 :=
  let high := (word >>> 16) &&& 0xFF0
  let low := (word >>> 4) &&& 0xF
  high ||| low

/-- Multiplies and swaps: bits 7 to 4 are 1001. `high` is bits 27 to 20. -/
def ofMultiply (high : UInt32) : Opcode :=
  if high = 0x10 then swap false
  else if high = 0x14 then swap true
  else if bit high 4 then undefined
  else if bit high 3 then multiplyLong (bit high 2) (bit high 1) (bit high 0)
  else if bit high 2 then undefined
  else multiply (bit high 1) (bit high 0)

/-- Halfword and signed transfers: bits 7 and 4 are set and `low`, bits 7 to 4, is not 1001. -/
def ofHalfTransfer (high low : UInt32) : Opcode :=
  let indexing := if bit high 4 then Indexing.pre else Indexing.post
  if bit high 0 then
    if low = 0xB then halfTransfer .loadHalf indexing
    else if low = 0xD then halfTransfer .loadSignedByte indexing
    else halfTransfer .loadSignedHalf indexing
  else if low = 0xB then halfTransfer .storeHalf indexing
  else undefined

/-- Status transfers and `BX` take the place of comparisons that set no flags. -/
def ofStatusTransfer (high low : UInt32) : Opcode :=
  if low = 0 then if bit high 1 then writeStatus else readStatus
  else if low = 1 ∧ high = 0x12 then branchExchange
  else undefined

def ofTransfer (high : UInt32) (scaled : Bool) : Opcode :=
  let indexing :=
    if bit high 4 then Indexing.pre else if bit high 1 then Indexing.postUser else Indexing.post
  transfer (bit high 0) (bit high 2) indexing scaled

/-- The encoding rules. Classes are read modulo 4096. -/
def ofClass (index : UInt32) : Opcode :=
  let high : UInt32 := (index >>> 4) &&& 0xFF
  let low := index &&& 0xF
  match (high >>> 5).toNat with
  | 0 =>
    if low = 9 then ofMultiply high
    else if low &&& 9 = 9 then ofHalfTransfer high low
    else if high &&& 0x19 = 0x10 then ofStatusTransfer high low
    else dataProcessing (AluOp.ofField (high >>> 1)) (bit high 0) (bit low 0)
  | 1 =>
    if high &&& 0x19 = 0x10 then if bit high 1 then writeStatus else undefined
    else dataProcessing (AluOp.ofField (high >>> 1)) (bit high 0) false
  | 2 => ofTransfer high false
  | 3 => if bit low 0 then undefined else ofTransfer high true
  | 4 => blockTransfer
  | 5 => branch (bit high 4)
  | _ => if high < 0xF0 then undefined else softwareInterrupt

def ofWord (word : UInt32) : Opcode := ofClass (classOf word)

/-- The name of a form: `s` marks one that sets flags, `Rs` a shift by register, `t` a User base. -/
def name : Opcode → String
  | dataProcessing op setFlags byRegister =>
    op.name ++ (if setFlags && !op.isCompare then "s" else "") ++ (if byRegister then "Rs" else "")
  | readStatus => "Mrs"
  | writeStatus => "Msr"
  | branchExchange => "Bx"
  | multiply accumulate setFlags =>
    (if accumulate then "Mla" else "Mul") ++ (if setFlags then "s" else "")
  | multiplyLong signed accumulate setFlags =>
    (if signed then "Sm" else "Um") ++ (if accumulate then "lal" else "ull") ++
      (if setFlags then "s" else "")
  | halfTransfer kind indexing =>
    (match kind with
      | .storeHalf => "Strh"
      | .loadHalf => "Ldrh"
      | .loadSignedByte => "Ldrsb"
      | .loadSignedHalf => "Ldrsh") ++
    (match indexing with
      | .pre => "Pre"
      | _ => "Post")
  | transfer load byte indexing scaled =>
    let offset := if scaled then "Reg" else "Imm"
    (if load then "Ldr" else "Str") ++ (if byte then "b" else "") ++
      (match indexing with
        | .post => offset ++ "Post"
        | .postUser => "t" ++ offset
        | .pre => offset ++ "Pre")
  | swap byte => if byte then "Swpb" else "Swp"
  | blockTransfer => "BlockTransfer"
  | branch link => if link then "Bl" else "B"
  | softwareInterrupt => "Swi"
  | undefined => "Undefined"

end Opcode

/-- One opcode for every class. -/
structure DecodeTable where
  entries : Vector Opcode Opcode.classCount

namespace DecodeTable

inductive LayoutError
  | length (expected found : Nat)
  deriving DecidableEq, Repr

def LayoutError.message : LayoutError → String
  | length expected found =>
    "decode layout covers " ++ toString found ++ " class values, expected " ++ toString expected

/-- A list is a table when it has one opcode for every class. -/
def ofList (opcodes : List Opcode) : Except LayoutError DecodeTable :=
  if h : opcodes.length = Opcode.classCount then .ok ⟨⟨opcodes.toArray, by simpa using h⟩⟩
  else .error (.length Opcode.classCount opcodes.length)

/-- The value of the encoding rules for every class. -/
def standard : DecodeTable := ⟨Vector.ofFn fun index => Opcode.ofClass (UInt32.ofNat index.val)⟩

/-- The opcode of a class, read modulo 4096. -/
def entry (table : DecodeTable) (index : Nat) : Opcode :=
  table.entries.get ⟨index % Opcode.classCount, Nat.mod_lt _ (by decide)⟩

def lookup (table : DecodeTable) (word : UInt32) : Opcode :=
  table.entry (Opcode.classOf word).toNat

end DecodeTable

end GbaArm
