import GbaArm.Text.Hex
import GbaArm.Flags
import GbaArm.Shift
import GbaArm.Registers
import GbaArm.Opcode
import GbaArm.Log
import GbaArm.Wait
import GbaArm.IoPage
import GbaArm.Fault
import GbaArm.Bus
import GbaArm.Cpu
import GbaArm.Core.Step
import GbaArm.Console
import GbaArm.Toml.Reader
import GbaArm.Toml.Writer
import GbaArm.Cli.Config
import GbaArm.Cli.Desk
import GbaArm.Main
import GbaArm.Proofs.IdealRegisters
import GbaArm.Proofs.Pipeline
import GbaArm.Proofs.Confinement
import GbaArm.Proofs.RunLoop
import GbaArm.Proofs.InterruptLine
import GbaArm.Proofs.TimingErasure
import GbaArm.Proofs.MemoryMap
import GbaArm.Proofs.ThumbRefusal
import GbaArm.Proofs.StateShape
import GbaArm.Proofs.StackRoundTrip
import GbaArm.Proofs.UserTransfers
import GbaArm.Proofs.Comparisons
import GbaArm.Proofs.LongArithmetic
import GbaArm.Proofs.DataProcessing
import GbaArm.Proofs.SingleTransfers
import GbaArm.Proofs.ModeFields
import GbaArm.Proofs.CartridgeTail
import GbaArm.Proofs.SaveMemory
import GbaArm.Proofs.RenderStatus
import GbaArm.Proofs.PrefetchRange
import GbaArm.Proofs.SequenceMark
import GbaArm.Proofs.WaitReadback
import GbaArm.Proofs.IoHistory
import GbaArm.Proofs.Halting
import GbaArm.Proofs.Loading
import GbaArm.Proofs.Multiplication
import GbaArm.Proofs.AccessGroups
import GbaArm.Proofs.LogRecords
import GbaArm.Proofs.RecentCartridges
import GbaArm.Proofs.PackedFlags
