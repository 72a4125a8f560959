import GbaArm.Proofs.Exceptions
import GbaArm.Proofs.WordRuns

/-! The loops of a block transfer: the words that cross the bus, and the registers that take them. -/
namespace GbaArm

section
variable {word : UInt32} {r : Nat}

theorem mem_registerList : r ∈ registerList word ↔ r < 16 ∧ bit word r.toUInt32 = true := by
  simp [registerList]

theorem nodup_registerList (word : UInt32) : (registerList word).Nodup :=
  List.nodup_range.filter _

theorem pairwise_registerList (word : UInt32) : (registerList word).Pairwise (· < ·) :=
  List.pairwise_lt_range.filter _

/-- The listed registers below R15. -/
def innerList (word : UInt32) : List Nat := (List.range 15).filter fun n => bit word n.toUInt32

theorem lt_of_mem_innerList (h : r ∈ innerList word) : r < 15 := by
  simp only [innerList, List.mem_filter, List.mem_range] at h
  exact h.1

/-- R15 comes last. -/
theorem registerList_eq (word : UInt32) :
    registerList word = innerList word ++ if bit word 15 then [15] else [] := by
  rw [registerList, List.range_succ, List.filter_append, List.filter_cons,
    List.filter_nil]
  rfl

theorem registerList_of_pc (h : bit word 15 = true) : registerList word = innerList word ++ [15] := by
  rw [registerList_eq, if_pos h]

theorem registerList_of_not_pc (h : bit word 15 = false) : registerList word = innerList word := by
  rw [registerList_eq, h]
  exact List.append_nil _

theorem nodup_innerList (word : UInt32) : (innerList word).Nodup :=
  List.nodup_range.filter _

theorem pc_mem_registerList : 15 ∈ registerList word ↔ bit word 15 = true := by
  rw [mem_registerList]
  exact and_iff_right (by decide)

theorem bit_of_unlisted (unlisted : 15 ∉ registerList word) : bit word 15 = false := by
  rw [← Bool.not_eq_true, ← pc_mem_registerList]
  exact unlisted

theorem lt_of_mem_registerList (unlisted : 15 ∉ registerList word) (hr : r ∈ registerList word) :
    r < 15 := by
  rw [registerList_of_not_pc (bit_of_unlisted unlisted)] at hr
  exact lt_of_mem_innerList hr

theorem length_registerList_le (word : UInt32) : (registerList word).length ≤ 16 :=
  List.length_filter_le _ (List.range 16)

end

/-- The address at which the lowest register of a block transfer moves, by its bits P and U: at the base
for IA, one word above it for IB, and so that the highest register moves at the base for DA and one
word below it for DB. -/
def lowestAddress (word base : UInt32) : UInt32 :=
  let bytes := 4 * (registerList word).length.toUInt32
  match bit word 24, bit word 23 with
  | false, true => base
  | true, true => base + 4
  | false, false => base - bytes + 4
  | true, false => base - bytes

/-- The base as a block transfer writes it back: four bytes further for each register, up or down by
bit U. -/
def movedBase (word base : UInt32) : UInt32 :=
  let bytes := 4 * (registerList word).length.toUInt32
  if bit word 23 then base + bytes else base - bytes

namespace BlockMode

variable (mode : BlockMode) (word base : UInt32)

theorem accessed_start :
    (ofWord word).accessed ((ofWord word).start base (registerList word).length.toUInt32) =
      lowestAddress word base := by
  unfold accessed start stepsFirst ofWord lowestAddress
  cases bit word 24 <;> cases bit word 23 <;> rfl

theorem finalBase_ofWord :
    (ofWord word).finalBase base (registerList word).length.toUInt32 = movedBase word base := rfl

theorem accessed_add (place distance : UInt32) :
    mode.accessed (place + distance) = mode.accessed place + distance := by
  unfold accessed
  split
  · rw [UInt32.add_assoc, UInt32.add_assoc, UInt32.add_comm distance]
  · rfl

end BlockMode

namespace Cpu

variable {c : Cpu} {asUser : Bool} {p : Nat × UInt32} {pairs : List (Nat × UInt32)} {b : Bank}
  {k : Nat}

/-- A register takes a word, as the present mode sees it or as User mode does. -/
def take (asUser : Bool) (c : Cpu) (p : Nat × UInt32) : Cpu :=
  if asUser then { c with regs := c.regs.writeUser p.1 p.2 c.mode } else c.writeReg p.1 p.2

def takeAll (asUser : Bool) (c : Cpu) (pairs : List (Nat × UInt32)) : Cpu :=
  pairs.foldl (take asUser) c

/-- The bank whose register takes the word. -/
def taker (asUser : Bool) (c : Cpu) (r : Nat) : Bank :=
  if asUser then .user else (Bank.ofMode c.mode).owner r

theorem control_take : (c.take asUser p).control = c.control := by cases asUser <;> rfl

theorem saved_take : (c.take asUser p).regs.saved = c.regs.saved := by
  cases asUser with
  | false => rfl
  | true => exact RegisterFile.saved_writeUser

theorem pc_take (hp : p.1 < 15) : (c.take asUser p).pc = c.pc := by
  cases asUser with
  | false => exact RegisterFile.pc_write hp
  | true => exact RegisterFile.pc_writeUser hp

theorem mode_of_control {c c' : Cpu} (h : c'.control = c.control) : c'.mode = c.mode :=
  congrArg (fun control : UInt8 => Mode.ofBits control.toUInt32) h

theorem taker_take (r : Nat) : (c.take asUser p).taker asUser r = c.taker asUser r := by
  rw [taker, taker, mode_of_control control_take]

theorem cell_writeReg {n : Nat} (hn : n < 15) (hk : k < 16) (value : UInt32) :
    (c.writeReg n value).cell b k =
      if b = (Bank.ofMode c.mode).owner k ∧ k = n then value else c.cell b k := by
  have low : n % 16 = n := Nat.mod_eq_of_lt (by omega)
  have written : (c.regs.write n value).cell (Bank.ofMode c.mode) b k = _ :=
    RegisterFile.cell_write hk
  rw [low] at written
  simp only [eq_comm (a := b)]
  exact written

theorem cell_take (hp : p.1 < 15) (hk : k < 16) : (c.take asUser p).cell b k =
    if b = c.taker asUser k ∧ k = p.1 then p.2 else c.cell b k := by
  cases asUser with
  | false => exact cell_writeReg hp hk p.2
  | true =>
    rw [cell, mode_of_control control_take]
    exact RegisterFile.cell_writeUser hp hk

/-- A register that takes no word keeps its own. -/
theorem cell_takeAll_other (h : ∀ p ∈ pairs, p.1 < 15) (hk : k < 16)
    (apart : b = c.taker asUser k → k ∉ pairs.map Prod.fst) :
    (c.takeAll asUser pairs).cell b k = c.cell b k := by
  induction pairs generalizing c with
  | nil => rfl
  | cons p rest ih =>
    have first : ¬ (b = c.taker asUser k ∧ k = p.1) := by
      rintro ⟨hb, hp⟩
      exact apart hb (by simp [hp])
    have later : b = (c.take asUser p).taker asUser k → k ∉ rest.map Prod.fst := by
      intro hb hm
      rw [taker_take] at hb
      exact apart hb (by simp [hm])
    refine (ih (fun q hq => h q (by simp [hq])) later).trans ?_
    rw [cell_take (h p (by simp)) hk, if_neg first]

/-- Words for different registers do not get in each other's way. -/
theorem cell_takeAll (h : ∀ p ∈ pairs, p.1 < 15) (nodup : (pairs.map Prod.fst).Nodup)
    (hp : p ∈ pairs) : (c.takeAll asUser pairs).cell (c.taker asUser p.1) p.1 = p.2 := by
  induction pairs generalizing c with
  | nil => simp at hp
  | cons q rest ih =>
    have inner : ∀ q ∈ rest, q.1 < 15 := fun q hq => h q (by simp [hq])
    rw [List.map_cons, List.nodup_cons] at nodup
    rw [← taker_take (p := q)]
    rcases List.mem_cons.mp hp with rfl | hr
    · have own := h p (by simp)
      refine (cell_takeAll_other inner (by omega) fun _ => nodup.1).trans ?_
      rw [cell_take own (by omega), taker_take, if_pos ⟨rfl, rfl⟩]
    · exact ih inner nodup.2 hr

/-- From `c` to `c'` the registers of `list` have taken `values`, one each, and that is all. -/
structure Taken (asUser : Bool) (list : List Nat) (values : List UInt32) (c c' : Cpu) : Prop where
  control : c'.control = c.control
  saved : c'.regs.saved = c.regs.saved
  pc : c'.pc = c.pc
  loaded : ∀ p ∈ list.zip values, c'.cell (c.taker asUser p.1) p.1 = p.2
  kept : ∀ b, ∀ r < 16, (b = c.taker asUser r → r ∉ list) → c'.cell b r = c.cell b r

theorem takeAll_keeps (h : ∀ p ∈ pairs, p.1 < 15) :
    (c.takeAll asUser pairs).control = c.control ∧
    (c.takeAll asUser pairs).regs.saved = c.regs.saved ∧ (c.takeAll asUser pairs).pc = c.pc := by
  induction pairs generalizing c with
  | nil => exact ⟨rfl, rfl, rfl⟩
  | cons p rest ih =>
    obtain ⟨control, saved, pc⟩ := ih (c := c.take asUser p) fun q hq => h q (by simp [hq])
    exact ⟨control.trans control_take, saved.trans saved_take,
      pc.trans (pc_take (h p (by simp)))⟩

theorem taken_takeAll {list : List Nat} {values : List UInt32} (low : ∀ r ∈ list, r < 15)
    (nodup : list.Nodup) (length : values.length = list.length) :
    Taken asUser list values c (c.takeAll asUser (list.zip values)) := by
  have names : (list.zip values).map Prod.fst = list :=
    List.map_fst_zip (Nat.le_of_eq length.symm)
  have lowPairs : ∀ p ∈ list.zip values, p.1 < 15 := fun p hp => low p.1 (List.of_mem_zip hp).1
  have kept : (c.takeAll asUser (list.zip values)).control = c.control ∧
      (c.takeAll asUser (list.zip values)).regs.saved = c.regs.saved ∧
      (c.takeAll asUser (list.zip values)).pc = c.pc := takeAll_keeps lowPairs
  exact {
    control := kept.1
    saved := kept.2.1
    pc := kept.2.2
    loaded := fun p hp => cell_takeAll lowPairs (by rwa [names]) hp
    kept := fun b r hr apart => cell_takeAll_other lowPairs hr (by rwa [names]) }

theorem Taken.mode {list : List Nat} {values : List UInt32} {c' : Cpu}
    (h : Taken asUser list values c c') : c'.mode = c.mode := mode_of_control h.control

theorem Taken.read {list : List Nat} {values : List UInt32} {c' : Cpu}
    (h : Taken false list values c c') (hp : p ∈ list.zip values) : c'.regs.read p.1 = p.2 := by
  rw [← cell_owner, h.mode]
  exact h.loaded p hp

theorem Taken.read_other {list : List Nat} {values : List UInt32} {c' : Cpu}
    (h : Taken asUser list values c c') (hk : k < 16) (unlisted : k ∉ list) :
    c'.regs.read k = c.regs.read k := by
  rw [← cell_owner, ← cell_owner, h.mode]
  exact h.kept _ k hk fun _ => unlisted

end Cpu

namespace Core

variable {β : Type} [Bus β] {m : Core β} {mode : BlockMode} {n : Nat} {finalBase place : UInt32}

theorem pc_branch (m : Core β) (target : UInt32) : (m.branch target).cpu.pc = target :=
  RegisterFile.pc_setPc

/-- The word that a block store takes from register `r`. -/
def source (mode : BlockMode) (m : Core β) (r : Nat) : UInt32 :=
  if mode.user then m.readUser r else m.cpu.regs.read r

theorem storeList_still (list : List Nat) {first : Bool} (h : (first && mode.writeback) = false)
    (place : UInt32) (m : Core β) : storeList mode n finalBase list first place m =
      m.onBus (Bus.storeWords (list.map (m.source mode)) (mode.accessed place)) := by
  induction list generalizing first place m with
  | nil => rfl
  | cons r rest ih =>
    rw [storeList, h]
    refine (ih rfl _ _).trans ?_
    rw [BlockMode.accessed_add]
    rfl

/-- All words but the first are taken after the writeback. -/
theorem storeList_writingBack (hw : mode.writeback = true) (hn : n < 15) (r : Nat)
    (rest : List Nat) (place : UInt32) (m : Core β) :
    storeList mode n finalBase (r :: rest) true place m =
      let k := m.onCpu fun c => c.writeReg n finalBase
      k.onBus (Bus.storeWords (m.source mode r :: rest.map (k.source mode)) (mode.accessed place)) := by
  rw [storeList]
  simp only [hw, writeRegister, if_pos hn, Bool.and_self, if_true]
  rw [storeList_still rest rfl, BlockMode.accessed_add]
  rfl

variable {withPc : Bool} {list : List Nat}

theorem writeLoaded_inner {r : Nat} (hr : r < 15) (value : UInt32) (m : Core β) :
    writeLoaded mode withPc r value m =
      m.onCpu fun c => c.take (mode.user && !withPc) (r, value) := by
  unfold writeLoaded writeRegister
  simp only [if_pos hr]
  cases mode.user <;> cases withPc <;> rfl

/-- R15 takes a plain word as a jump. -/
theorem writeLoaded_pc (plain : mode.user = false) (value : UInt32) (m : Core β) :
    writeLoaded mode withPc 15 value m = m.branch (alignWord value) := by
  rw [writeLoaded, plain]
  rfl

theorem writeLoaded_pc_user (user : mode.user = true) (value : UInt32) (m : Core β) :
    writeLoaded mode withPc 15 value m = m.returnTo value := by
  rw [writeLoaded, user]
  rfl

theorem loadList_inner (low : ∀ r ∈ list, r < 15) (place : UInt32) (m : Core β) :
    loadList mode withPc list place m =
      let loaded := Bus.loadWords list.length (mode.accessed place) m.bus
      ⟨m.cpu.takeAll (mode.user && !withPc) (list.zip loaded.1), loaded.2⟩ := by
  induction list generalizing place m with
  | nil => rfl
  | cons r rest ih =>
    have taken : ∀ value (k : Core β), writeLoaded mode withPc r value k =
        k.onCpu fun c => c.take (mode.user && !withPc) (r, value) :=
      writeLoaded_inner (low r (by simp))
    refine (congrArg (loadList mode withPc rest (place + 4)) (taken _ _)).trans ?_
    rw [ih fun q hq => low q (by simp [hq]), BlockMode.accessed_add]
    rfl

/-- Each register of a list without R15 takes the word that was read for it. -/
theorem loadList_taken (mode : BlockMode) (withPc : Bool) (low : ∀ r ∈ list, r < 15)
    (nodup : list.Nodup) (place : UInt32) (m : Core β) :
    let loaded := Bus.loadWords list.length (mode.accessed place) m.bus
    let k := loadList mode withPc list place m
    k.bus = loaded.2 ∧ Cpu.Taken (mode.user && !withPc) list loaded.1 m.cpu k.cpu := by
  intro loaded k
  have inner : k = _ := loadList_inner low place m
  rw [inner]
  exact ⟨rfl, Cpu.taken_takeAll low nodup (Bus.length_loadWords _ _ _)⟩

theorem loadList_append (list more : List Nat) (place : UInt32) (m : Core β) :
    loadList mode withPc (list ++ more) place m =
      loadList mode withPc more (place + 4 * list.length.toUInt32)
        (loadList mode withPc list place m) := by
  induction list generalizing place m with
  | nil => exact congrArg (loadList mode withPc more · m) (UInt32.add_zero place).symm
  | cons r rest ih =>
    have next : place + 4 * (rest.length + 1).toUInt32 =
        place + 4 + 4 * rest.length.toUInt32 := by
      have sum : (rest.length + 1).toUInt32 = rest.length.toUInt32 + 1 := UInt32.ofNat_add _ 1
      rw [sum, UInt32.mul_add, UInt32.add_comm (4 * _), ← UInt32.add_assoc]
      rfl
    rw [List.length_cons, next]
    exact ih _ _

/-- R15 takes the word after those of the other registers. -/
theorem loadList_concat (list : List Nat) (r : Nat) (place : UInt32) (m : Core β) :
    loadList mode withPc (list ++ [r]) place m =
      let k := loadList mode withPc list place m
      let last := Bus.read32 (slot (mode.accessed place) list.length) k.bus
      writeLoaded mode withPc r last.1 { k with bus := last.2 } := by
  rw [loadList_append, slot, ← BlockMode.accessed_add]
  rfl

end Core

end GbaArm
