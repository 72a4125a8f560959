import GbaArm.Proofs.Bits
import GbaArm.Proofs.Trace

/-!
Words that cross the bus one after the other: what a record of the calls shows of them, and what a
flat memory keeps of them.
-/
namespace GbaArm

/-- The address of word `i` of a run that starts at `lowest`. -/
def slot (lowest : UInt32) (i : Nat) : UInt32 := alignWord (lowest + 4 * i.toUInt32)

variable {lowest : UInt32} {i j : Nat}

theorem slot_zero : slot lowest 0 = alignWord lowest := by
  rw [slot]
  exact congrArg alignWord (UInt32.add_zero lowest)

theorem slot_succ : slot lowest (i + 1) = slot (lowest + 4) i := by
  have next : (i + 1).toUInt32 = i.toUInt32 + 1 := UInt32.ofNat_add i 1
  rw [slot, slot, next, UInt32.mul_add, UInt32.add_comm (4 * _), ← UInt32.add_assoc]
  rfl

theorem alignWord_alignWord (address : UInt32) : alignWord (alignWord address) = alignWord address := by
  rw [alignWord, alignWord, UInt32.and_assoc]
  rfl

theorem alignWord_slot : alignWord (slot lowest i) = slot lowest i := alignWord_alignWord _

/-- The words of a run lie apart, also where it wraps around the top of memory. -/
theorem slot_inj (hi : i < 0x40000000) (hj : j < 0x40000000) (h : slot lowest i = slot lowest j) :
    i = j := by
  have place : ∀ n, (slot lowest n).toNat =
      (lowest.toNat + 4 * n) % 4294967296 - (lowest.toNat + 4 * n) % 4294967296 % 4 := by
    intro n
    have offset : (lowest + 4 * n.toUInt32).toNat = (lowest.toNat + 4 * n) % 4294967296 := by
      simp
    rw [slot, toNat_alignWord, offset]
  have same := congrArg UInt32.toNat h
  rw [place, place] at same
  omega

namespace Bus

variable {β : Type} [Bus β]

/-- Writes words from `lowest` on. -/
def storeWords : List UInt32 → (lowest : UInt32) → β → β
  | [], _, b => b
  | value :: rest, lowest, b =>
    storeWords rest (lowest + 4) (Bus.write32 (alignWord lowest) value b)

/-- Reads a number of words from `lowest` on. -/
def loadWords : Nat → (lowest : UInt32) → β → List UInt32 × β
  | 0, _, b => ([], b)
  | n + 1, lowest, b =>
    let (value, b) := Bus.read32 (alignWord lowest) b
    let (rest, b) := loadWords n (lowest + 4) b
    (value :: rest, b)

theorem length_loadWords (n : Nat) (lowest : UInt32) (b : β) :
    (loadWords n lowest b).1.length = n := by
  induction n generalizing lowest b with
  | zero => rfl
  | succ n ih => exact congrArg (· + 1) (ih _ _)

end Bus

namespace Traced

variable {β : Type}

/-- The calls made so far, in their order. -/
def record (t : Traced β) : List BusCall := t.calls.reverse

theorem record_tell (t : Traced β) (bus : β) (call : BusCall) :
    (t.tell bus call).record = t.record ++ [call] := List.reverse_cons

theorem record_ask {α : Type} (t : Traced β) (answer : α × β) (call : α → BusCall) :
    (t.ask answer call).2.record = t.record ++ [call answer.1] := List.reverse_cons

theorem record_start (bus : β) : (start bus).record = [] := rfl

variable [Bus β]

@[simp] theorem record_nonSequential (t : Traced β) :
    (Bus.nonSequential t).record = t.record ++ [.nonSequential] := record_tell t _ _

@[simp] theorem record_executingAt (pc : UInt32) (t : Traced β) :
    (Bus.executingAt pc t).record = t.record ++ [.executingAt pc] := record_tell t _ _

@[simp] theorem record_branched (target : UInt32) (t : Traced β) :
    (Bus.branched target t).record = t.record ++ [.branched target] := record_tell t _ _

@[simp] theorem record_internalCycle (pc : UInt32) (t : Traced β) :
    (Bus.internalCycle pc t).record = t.record ++ [.internalCycle pc] := record_tell t _ _

@[simp] theorem record_read32 (address : UInt32) (t : Traced β) :
    (Bus.read32 address t).2.record = t.record ++ [.read32 address (Bus.read32 address t).1] :=
  record_ask t _ _

theorem record_storeWords {α : Type} (list : List α) (value : α → UInt32) (lowest : UInt32)
    (t : Traced β) : (Bus.storeWords (list.map value) lowest t).record =
      t.record ++ list.mapIdx fun i a => .write32 (slot lowest i) (value a) := by
  induction list generalizing lowest t with
  | nil => exact (List.append_nil _).symm
  | cons a rest ih =>
    have written : (Bus.write32 (alignWord lowest) (value a) t).record =
        t.record ++ [.write32 (slot lowest 0) (value a)] := by
      rw [slot_zero]
      exact record_tell t _ _
    rw [List.map_cons, Bus.storeWords, ih, written, List.mapIdx_cons, List.append_assoc]
    simp only [slot_succ, List.singleton_append]

theorem record_loadWords (n : Nat) (lowest : UInt32) (t : Traced β) :
    (Bus.loadWords n lowest t).2.record = t.record ++
      (Bus.loadWords n lowest t).1.mapIdx fun i value => .read32 (slot lowest i) value := by
  induction n generalizing lowest t with
  | zero => exact (List.append_nil _).symm
  | succ n ih =>
    rw [Bus.loadWords]
    simp only [ih, record_read32, List.mapIdx_cons, List.append_assoc, slot_zero, slot_succ,
      List.singleton_append]

end Traced

/-- A bus that is a flat memory: an aligned word reads as it was last written. What its other calls
do is left open. -/
structure FlatMemory (β : Type) [Bus β] where
  /-- The word at an aligned address. -/
  word : β → UInt32 → UInt32
  read32 (address : UInt32) (b : β) (aligned : alignWord address = address) :
    (Bus.read32 address b).1 = word b address
  word_read32 (address : UInt32) (b : β) : word (Bus.read32 address b).2 = word b
  word_write32 (address value : UInt32) (b : β) (aligned : alignWord address = address)
    (other : UInt32) (alignedOther : alignWord other = other) :
    word (Bus.write32 address value b) other = if other = address then value else word b other
  word_nonSequential (b : β) : word (Bus.nonSequential b) = word b
  word_executingAt (pc : UInt32) (b : β) : word (Bus.executingAt pc b) = word b

namespace FlatMemory

variable {β : Type} [Bus β] (flat : FlatMemory β)

/-- A run of writes leaves the words outside it alone. -/
theorem word_storeWords_other {values : List UInt32} {address : UInt32} {b : β}
    (aligned : alignWord address = address)
    (apart : ∀ i < values.length, slot lowest i ≠ address) :
    flat.word (Bus.storeWords values lowest b) address = flat.word b address := by
  induction values generalizing lowest b with
  | nil => rfl
  | cons value rest ih =>
    have first : address ≠ alignWord lowest := by
      intro h
      exact apart 0 (by simp) (slot_zero.trans h.symm)
    have later : ∀ i < rest.length, slot (lowest + 4) i ≠ address := by
      intro i hi
      rw [← slot_succ]
      exact apart (i + 1) (by simpa using hi)
    rw [Bus.storeWords, ih later, flat.word_write32 _ _ _ (alignWord_alignWord _) _ aligned,
      if_neg first]

theorem word_storeWords {values : List UInt32} {b : β} (short : values.length ≤ 0x40000000)
    (hi : i < values.length) :
    flat.word (Bus.storeWords values lowest b) (slot lowest i) = values[i] := by
  induction values generalizing i lowest b with
  | nil => exact absurd hi (by simp)
  | cons value rest ih =>
    have length : rest.length + 1 ≤ 0x40000000 := short
    rw [Bus.storeWords]
    cases i with
    | zero =>
      -- The words after the first do not come back to its address.
      have apart : ∀ j < rest.length, slot (lowest + 4) j ≠ slot lowest 0 := by
        intro j hj h
        rw [← slot_succ] at h
        have := slot_inj (by omega) (by omega) h
        omega
      rw [flat.word_storeWords_other alignWord_slot apart,
        flat.word_write32 _ _ _ (alignWord_alignWord _) _ alignWord_slot, if_pos slot_zero]
      rfl
    | succ i =>
      have hi : i < rest.length := by simpa using hi
      rw [slot_succ, ih (by omega) hi]
      rfl

theorem loadWords_of_words {values : List UInt32} {b : β}
    (h : ∀ i, ∀ hi : i < values.length, flat.word b (slot lowest i) = values[i]) :
    (Bus.loadWords values.length lowest b).1 = values := by
  induction values generalizing lowest b with
  | nil => rfl
  | cons value rest ih =>
    have first : (Bus.read32 (alignWord lowest) b).1 = value := by
      rw [flat.read32 _ _ (alignWord_alignWord _), ← slot_zero]
      exact h 0 (by simp)
    have later : ∀ i, ∀ hi : i < rest.length,
        flat.word (Bus.read32 (alignWord lowest) b).2 (slot (lowest + 4) i) = rest[i] := by
      intro i hi
      rw [flat.word_read32, ← slot_succ]
      exact h (i + 1) (by simpa using hi)
    rw [List.length_cons, Bus.loadWords]
    simp only [first, ih later]

end FlatMemory

/-- A memory of aligned words. Narrower writes are dropped. -/
structure Ram where
  word : UInt32 → UInt32

instance : Bus Ram where
  read32 address ram := (ram.word (alignWord address), ram)
  read16 address ram := ((ram.word (alignWord address)).toUInt16, ram)
  read8 address ram := ((ram.word (alignWord address)).toUInt8, ram)
  write32 address value ram :=
    ⟨fun other => if other = alignWord address then value else ram.word other⟩
  write16 _ _ ram := ram
  write8 _ _ ram := ram
  internalCycle _ ram := ram
  nonSequential ram := ram
  executingAt _ ram := ram
  branched _ ram := ram

def Ram.flat : FlatMemory Ram where
  word := Ram.word
  read32 address ram aligned := congrArg ram.word aligned
  word_read32 _ _ := rfl
  word_write32 address value ram aligned other _ := by
    show (if other = alignWord address then _ else _) = _
    rw [aligned]
  word_nonSequential _ := rfl
  word_executingAt _ _ := rfl

end GbaArm
