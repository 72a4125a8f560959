import GbaArm.Cli.Path
import GbaArm.Log
import GbaArm.Toml.Reader
import GbaArm.Toml.Writer

/-! The settings that outlive a run, as values and as a TOML document. -/
namespace GbaArm.Cli

/-- Puts an item in front of a list of recent ones, which holds no equal items and at most `limit`. -/
def mostRecent {α : Type} [BEq α] (limit : Nat) (item : α) (recent : List α) : List α :=
  (item :: recent.filter fun other => other != item).take limit

structure Config where
  recentRoms : List Path := []
  bios : Option Path := none
  /-- Cycles of a run; one frame by default. -/
  cycleBudget : Nat := 280896
  logLevel : String := "info"
  logCapacity : Nat := LogBuffer.defaultCapacity

namespace Config

def recentLimit : Nat := 10

/-- Puts a cartridge in front of the recent ones. -/
def addRecent (c : Config) (rom : Path) : Config :=
  { c with recentRoms := mostRecent recentLimit rom c.recentRoms }

def textOf (key : String) : Toml.Value → Except Toml.Problem String
  | .string text => .ok text
  | _ => .error (.wrongType key)

def pathOf (key : String) (v : Toml.Value) : Except Toml.Problem Path := Path.mk <$> textOf key v

def pathsOf (key : String) : Toml.Value → Except Toml.Problem (List Path)
  | .array _ items => items.mapM (pathOf key)
  | _ => .error (.wrongType key)

/-- A count of at most 64 bits. -/
def countOf (key : String) : Toml.Value → Except Toml.Problem Nat
  | .integer n => if 0 ≤ n ∧ n.toNat < UInt64.size then .ok n.toNat else .error (.wrongType key)
  | _ => .error (.wrongType key)

/-- The value of a key, or the default if the table does not have it. -/
def fieldOr {α : Type} (table : Toml.Table) (key : String)
    (read : String → Toml.Value → Except Toml.Problem α) (unset : α) : Except Toml.Problem α :=
  match table.find? key with
  | some v => read key v
  | none => .ok unset

/-- The settings in a table. Other keys are ignored. -/
def ofTable (table : Toml.Table) : Except Toml.Problem Config := do
  let unset : Config := {}
  let recentRoms ← fieldOr table "recent_roms" pathsOf unset.recentRoms
  let bios ← fieldOr table "bios" (fun key v => some <$> pathOf key v) unset.bios
  let cycleBudget ← fieldOr table "cycle_budget" countOf unset.cycleBudget
  let logLevel ← fieldOr table "log_level" textOf unset.logLevel
  let logCapacity ← fieldOr table "log_capacity" countOf unset.logCapacity
  return { recentRoms, bios, cycleBudget, logLevel, logCapacity }

def read (text : String) : Except Toml.Problem Config := do ofTable (← Toml.read text)

def text (c : Config) : String :=
  Toml.entry "recent_roms" (Toml.tallArray (c.recentRoms.map Path.text)) ++
    (match c.bios with
    | some bios => Toml.entry "bios" (Toml.stringText bios.text)
    | none => "") ++
    Toml.entry "cycle_budget" (toString c.cycleBudget) ++
    Toml.entry "log_level" (Toml.stringText c.logLevel) ++
    Toml.entry "log_capacity" (toString c.logCapacity)

end Config

end GbaArm.Cli
