import GbaArm.Log
import GbaArm.Proofs.History
import Mathlib.Data.List.Induction

/-!
The bounded buffer of a log over its history. It holds the newest of the records pushed since it was last
emptied; every record is held, was taken out or is counted as pushed out; and none is pushed out while
there is room for it.
-/
namespace GbaArm

/-- What may be asked of the buffer of a log. -/
inductive LogRequest
  | push (e : LogEntry)
  | setCapacity (capacity : Nat)
  | drain
  | clear

namespace LogRequest

/-- The records that a request brings. -/
def records : LogRequest → List LogEntry
  | push e => [e]
  | _ => []

def capacity? : LogRequest → Option Nat
  | setCapacity capacity => some capacity
  | _ => none

/-- Whether the buffer is made anew, its count included. -/
def clears : LogRequest → Bool
  | clear => true
  | _ => false

/-- Whether no record stays in the buffer. -/
def empties : LogRequest → Bool
  | drain | clear => true
  | _ => false

/-- The records pushed since the last request that stops, the oldest first. -/
def pushedSince (stops : LogRequest → Bool) (past : List LogRequest) : List LogEntry :=
  broughtSince stops records past

/-- The last capacity that was asked for, at first `initial`. -/
def capacityAfter (initial : Nat) (past : List LogRequest) : Nat :=
  (lastSupplied capacity? past).getD initial

end LogRequest

namespace LogBuffer

open LogRequest (clears empties pushedSince capacityAfter)

/-- The records that a request gives back, and the buffer it leaves. -/
def serve (b : LogBuffer) : LogRequest → Array LogEntry × LogBuffer
  | .push e => (#[], b.push e)
  | .setCapacity capacity => (#[], b.setCapacity capacity)
  | .drain => b.drain
  | .clear => (#[], b.clear)

def run (b : LogBuffer) (requests : List LogRequest) : LogBuffer :=
  requests.foldl (fun b request => (b.serve request).2) b

/-- The records in the buffer, the oldest first. -/
def held (b : LogBuffer) : List LogEntry := b.entries.toList

/-- The requests, each with the records that it gave back. -/
def exchanges (b : LogBuffer) : List LogRequest → List (LogRequest × List LogEntry)
  | [] => []
  | request :: rest => (request, (b.serve request).1.toList) :: (b.serve request).2.exchanges rest

/-- The records taken out since the buffer was last cleared, in order. -/
def takenSinceClear (b : LogBuffer) (past : List LogRequest) : List LogEntry :=
  broughtSince (fun exchange => exchange.1.clears) Prod.snd (b.exchanges past)

variable {b : LogBuffer} {e : LogEntry} {capacity : Nat} {past : List LogRequest} {next : LogRequest}

theorem held_extract (entries : Array LogEntry) (count : Nat) :
    (entries.extract count entries.size).toList = entries.toList.drop count := by
  rw [Array.toList_extract, List.extract_eq_take_drop, List.take_of_length_le]
  simp

theorem limit_serve : (b.serve next).2.limit = (next.capacity?.map (max · 1)).getD b.limit := by
  cases next with
  | push e => exact (apply_ite LogBuffer.limit _ _ _).trans (ite_self _)
  | setCapacity capacity => rfl
  | drain => rfl
  | clear => rfl

theorem held_serve_of_empties (emptied : next.empties = true) : (b.serve next).2.held = [] := by
  cases next with
  | push e => cases emptied
  | setCapacity capacity => cases emptied
  | drain => rfl
  | clear => rfl

theorem held_push (fits : b.held.length ≤ b.limit) :
    (b.push e).held = (b.held ++ [e]).drop (b.held.length + 1 - b.limit) ∧
    (b.push e).dropped = b.dropped + (b.held.length + 1 - b.limit) := by
  -- What is held fits, so a push exceeds the limit by one record at most.
  have positive := b.limit_pos
  have size : b.held.length = b.entries.size := rfl
  rw [push]
  split
  · next full =>
    have one : b.held.length + 1 - b.limit = 1 := by omega
    rw [one, List.drop_append_of_le_length (by omega)]
    exact ⟨(Array.toList_push ..).trans (congrArg (· ++ [e]) (held_extract b.entries 1)), rfl⟩
  · next room =>
    have none : b.held.length + 1 - b.limit = 0 := by omega
    rw [none]
    exact ⟨Array.toList_push .., rfl⟩

theorem getLast?_push : (b.push e).held.getLast? = some e := by
  rw [push, held]
  split <;> rw [Array.toList_push, List.getLast?_concat]

/-- A request that does not empty the buffer pushes out the oldest records, as many as there is no room
for. -/
theorem held_serve (fits : b.held.length ≤ b.limit) (stays : next.empties = false) :
    let all := b.held ++ next.records
    (b.serve next).2.held = all.drop (all.length - (b.serve next).2.limit) ∧
    (b.serve next).2.dropped = b.dropped + (all.length - (b.serve next).2.limit) := by
  intro all
  rw [limit_serve]
  cases next with
  | push e =>
    have count : all.length = b.held.length + 1 := List.length_append
    rw [count]
    exact held_push fits
  | setCapacity capacity =>
    have same : all = b.held := List.append_nil b.held
    rw [same]
    exact ⟨held_extract b.entries _, rfl⟩
  | drain => cases stays
  | clear => cases stays

theorem serve_fits (fits : b.held.length ≤ b.limit) :
    (b.serve next).2.held.length ≤ (b.serve next).2.limit := by
  cases emptied : next.empties with
  | true =>
    rw [held_serve_of_empties emptied]
    exact Nat.zero_le _
  | false =>
    rw [(held_serve fits emptied).1, List.length_drop]
    omega

/-- Unless the buffer is cleared, what it held and what is pushed is pushed out, given back or held on, in
this order. What is pushed out is counted, and then the buffer is full. -/
theorem serve_splits (fits : b.held.length ≤ b.limit) (kept : next.clears = false) :
    ∃ out, b.held ++ next.records = out ++ ((b.serve next).1.toList ++ (b.serve next).2.held) ∧
      (b.serve next).2.dropped = b.dropped + out.length ∧
      (out ≠ [] → (b.serve next).2.held.length = (b.serve next).2.limit) := by
  cases emptied : next.empties with
  | true =>
    have drained : next = .drain := by cases next <;> trivial
    subst drained
    exact ⟨[], rfl, rfl, fun lost => absurd rfl lost⟩
  | false =>
    have nothing : (b.serve next).1.toList = [] := by cases next <;> trivial
    obtain ⟨held, counted⟩ := held_serve fits emptied
    generalize b.held ++ next.records = all at held counted ⊢
    refine ⟨all.take (all.length - (b.serve next).2.limit), ?_, ?_, fun lost => ?_⟩
    · rw [nothing, List.nil_append, held, List.take_append_drop]
    · rw [counted, List.length_take]
      omega
    · have pushedOut := List.length_pos_iff.mpr lost
      rw [List.length_take] at pushedOut
      rw [held, List.length_drop]
      omega

theorem run_concat (b : LogBuffer) (past : List LogRequest) (next : LogRequest) :
    b.run (past ++ [next]) = ((b.run past).serve next).2 := List.foldl_append

theorem exchanges_concat (b : LogBuffer) (past : List LogRequest) (next : LogRequest) :
    b.exchanges (past ++ [next]) =
      b.exchanges past ++ [(next, ((b.run past).serve next).1.toList)] := by
  induction past generalizing b with
  | nil => rfl
  | cons first rest ih => exact congrArg (_ :: ·) (ih _)

theorem takenSinceClear_of_clears (cleared : next.clears = true) :
    b.takenSinceClear (past ++ [next]) = [] := by
  rw [takenSinceClear, exchanges_concat]
  exact broughtSince_concat_of_stops cleared

theorem takenSinceClear_concat (kept : next.clears = false) : b.takenSinceClear (past ++ [next]) =
    b.takenSinceClear past ++ ((b.run past).serve next).1.toList := by
  rw [takenSinceClear, exchanges_concat]
  exact broughtSince_concat kept

theorem run_fits (capacity : Nat) (past : List LogRequest) :
    ((ofCapacity capacity).run past).held.length ≤ ((ofCapacity capacity).run past).limit := by
  induction past using List.reverseRecOn with
  | nil => exact Nat.zero_le _
  | append_singleton past next ih =>
    rw [run_concat]
    exact serve_fits ih

theorem limit_run (capacity : Nat) (past : List LogRequest) :
    ((ofCapacity capacity).run past).limit = max (capacityAfter capacity past) 1 := by
  induction past using List.reverseRecOn with
  | nil => rfl
  | append_singleton past next ih =>
    rw [run_concat, limit_serve, ih, capacityAfter, capacityAfter, lastSupplied_concat]
    cases next.capacity? <;> rfl

theorem held_suffix (capacity : Nat) (past : List LogRequest) :
    ((ofCapacity capacity).run past).held <:+ pushedSince empties past := by
  induction past using List.reverseRecOn with
  | nil => exact List.nil_suffix
  | append_singleton past next ih =>
    rw [run_concat]
    cases emptied : next.empties with
    | true =>
      rw [held_serve_of_empties emptied]
      exact List.nil_suffix
    | false =>
      obtain ⟨older, earlier⟩ := ih
      rw [pushedSince, broughtSince_concat emptied, (held_serve (run_fits capacity past) emptied).1,
        ← pushedSince, ← earlier, List.append_assoc]
      exact (List.drop_suffix _ _).trans (List.suffix_append older _)

/-- The records taken out and those held are, in this order, among those pushed since the buffer was last
cleared, and the count of those pushed out makes up the difference. -/
theorem taken_accounted (capacity : Nat) (past : List LogRequest) :
    let b := ofCapacity capacity
    (b.takenSinceClear past ++ (b.run past).held).Sublist (pushedSince clears past) ∧
    (pushedSince clears past).length =
      (b.run past).dropped + (b.takenSinceClear past).length + (b.run past).held.length := by
  intro b
  induction past using List.reverseRecOn with
  | nil => exact ⟨.slnil, rfl⟩
  | append_singleton past next ih =>
    obtain ⟨among, counted⟩ := ih
    have fits : (b.run past).held.length ≤ (b.run past).limit := run_fits capacity past
    rw [run_concat, pushedSince]
    cases cleared : next.clears with
    | true =>
      have clear : next = .clear := by cases next <;> trivial
      rw [broughtSince_concat_of_stops cleared, takenSinceClear_of_clears cleared, clear]
      exact ⟨.slnil, rfl⟩
    | false =>
      -- What is pushed out stands in front of what is given back and held, so the order stays without it.
      obtain ⟨out, split, dropped, -⟩ := serve_splits fits cleared
      rw [broughtSince_concat cleared, takenSinceClear_concat cleared, ← pushedSince]
      constructor
      · rw [List.append_assoc]
        refine ((List.sublist_append_right out _).append_left _).trans ?_
        rw [← split, ← List.append_assoc]
        exact among.append_right _
      · have lengths := congrArg List.length split
        simp only [List.length_append] at lengths ⊢
        omega

/-- From any capacity on and after any requests, the buffer holds the newest of the records pushed since it
was last emptied, no more than the present capacity allows, and after a push that record at least. Every
record pushed since it was last cleared is taken out, held or counted as dropped. The next request pushes a
record out only if there is no room for it. -/
theorem newest_kept (capacity : Nat) (past : List LogRequest) :
    let b := (ofCapacity capacity).run past
    let taken := (ofCapacity capacity).takenSinceClear past
    b.held <:+ pushedSince empties past ∧
    b.held.length ≤ max (capacityAfter capacity past) 1 ∧
    (∀ e, ((ofCapacity capacity).run (past ++ [.push e])).held.getLast? = some e) ∧
    (taken ++ b.held).Sublist (pushedSince clears past) ∧
    (pushedSince clears past).length = b.dropped + taken.length + b.held.length ∧
    ∀ next : LogRequest, next.clears = false →
      let after := (ofCapacity capacity).run (past ++ [next])
      ∃ out, b.held ++ next.records = out ++ ((b.serve next).1.toList ++ after.held) ∧
        after.dropped = b.dropped + out.length ∧
        (out ≠ [] → max (capacityAfter capacity (past ++ [next])) 1 < after.held.length + 1) := by
  intro b taken
  have fits := run_fits capacity past
  obtain ⟨among, counted⟩ := taken_accounted capacity past
  refine ⟨held_suffix capacity past, limit_run capacity past ▸ fits, fun e => ?_, among, counted,
    fun next kept => ?_⟩
  · rw [run_concat]
    exact getLast?_push
  · obtain ⟨out, split, dropped, full⟩ := serve_splits fits kept
    rw [← limit_run, run_concat]
    exact ⟨out, split, dropped, fun lost => by rw [full lost]; exact Nat.lt_succ_self _⟩

/-- Five records through a buffer for two that is then cut to one: `a` is pushed out, `b` and `c` are taken
out, and `e` pushes `d` out. -/
theorem newest_kept_cut :
    let note (message : String) : LogEntry := ⟨.info, "log", message⟩
    let past : List LogRequest := [.push (note "a"), .push (note "b"), .push (note "c"), .drain,
      .push (note "d"), .setCapacity 0]
    let last := LogRequest.push (note "e")
    let after := (ofCapacity 2).run (past ++ [last])
    last.clears = false ∧
      (ofCapacity 2).takenSinceClear past = [note "b", note "c"] ∧ after.held = [note "e"] ∧
      ∃ out, [note "d"] ++ [note "e"] = out ++ [note "e"] ∧ after.dropped = 1 + out.length ∧
        (out ≠ [] → 1 < after.held.length + 1) := by
  intro note past last after
  have pushes : last.clears = false := rfl
  have before : ((ofCapacity 2).run past).held = [note "d"] := by decide +kernel
  have pushedOut : ((ofCapacity 2).run past).dropped = 1 := by decide +kernel
  have given : (((ofCapacity 2).run past).serve last).1.toList = [] := by decide +kernel
  have held : after.held = [note "e"] := by decide +kernel
  obtain ⟨-, -, -, -, -, evicts⟩ := newest_kept 2 past
  obtain ⟨out, split, counted, full⟩ := evicts last pushes
  rw [before, given, held] at split
  rw [pushedOut] at counted
  exact ⟨pushes, by decide +kernel, held, out, split, counted, full⟩

end LogBuffer

end GbaArm
