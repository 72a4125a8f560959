import GbaArm.Event

/-! A log that keeps the newest records: a bounded buffer behind a level filter. -/
namespace GbaArm

structure LogEntry where
  level : Level
  target : String
  message : String
  deriving DecidableEq, Repr

def LogEntry.text (e : LogEntry) : String :=
  "[" ++ e.level.name ++ String.ofList (List.replicate (5 - e.level.name.length) ' ') ++ " " ++
    e.target ++ "] " ++ e.message

/-- At most `limit` records, oldest first, and the count of those pushed out. -/
structure LogBuffer where
  limit : Nat
  limit_pos : 0 < limit
  entries : Array LogEntry := #[]
  dropped : Nat := 0

namespace LogBuffer

/-- A buffer always has room for one record. -/
def ofCapacity (capacity : Nat) : LogBuffer where
  limit := max capacity 1
  limit_pos := by omega

def defaultCapacity : Nat := 1024

variable (b : LogBuffer)

/-- The oldest record gives way when the buffer is full. -/
def push (e : LogEntry) : LogBuffer :=
  if b.limit ≤ b.entries.size then
    { b with entries := (b.entries.extract 1 b.entries.size).push e, dropped := b.dropped + 1 }
  else { b with entries := b.entries.push e }

/-- Discards the oldest records that no longer fit. -/
def setCapacity (capacity : Nat) : LogBuffer :=
  let excess := b.entries.size - max capacity 1
  { limit := max capacity 1
    limit_pos := by omega
    entries := b.entries.extract excess b.entries.size
    dropped := b.dropped + excess }

/-- Takes all records out. -/
def drain : Array LogEntry × LogBuffer := (b.entries, { b with entries := #[] })

def clear : LogBuffer := { b with entries := #[], dropped := 0 }

end LogBuffer

/-- Which records are kept: none, or those of a level and all graver ones. -/
inductive LevelFilter
  | off
  | upTo (level : Level)
  deriving DecidableEq, Repr

namespace LevelFilter

def admits : LevelFilter → Level → Bool
  | off, _ => false
  | upTo most, level => level.rank ≤ most.rank

/-- The filter of a level name or `off`, in any case. -/
def ofName? (text : String) : Option LevelFilter :=
  if text.toUpper == "OFF" then some off else (Level.ofName? text).map upTo

end LevelFilter

structure Log where
  filter : LevelFilter
  buffer : LogBuffer

namespace Log

/-- A log that keeps nothing. -/
def silent : Log := ⟨.off, LogBuffer.ofCapacity LogBuffer.defaultCapacity⟩

def ofFilter (filter : LevelFilter) (capacity : Nat) : Log := ⟨filter, LogBuffer.ofCapacity capacity⟩

def note (log : Log) (e : Event) : Log :=
  if log.filter.admits e.level then
    { log with buffer := log.buffer.push ⟨e.level, e.source.name, e.message⟩ }
  else log

def noteAll (log : Log) (events : List Event) : Log := events.foldl note log

end Log

end GbaArm
