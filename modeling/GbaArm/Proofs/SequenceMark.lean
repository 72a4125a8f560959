import Mathlib.Data.List.Induction
import GbaArm.Proofs.BusRuns
import GbaArm.Proofs.History
import GbaArm.Proofs.Prefetcher
import GbaArm.Proofs.WaitRuns

/-!
The mark of a broken sequence. Every access that goes over the cartridge bus spends it, and between two of
them it is set by what breaks the sequence and by nothing else, so the history of the requests says which
column of the cost tables an access is charged from.
-/
namespace GbaArm.WaitStates

variable {w : WaitStates} {address : UInt32} {request : WaitRequest}

/-- The state once a fetch has spent the bank on the buffer. -/
def toppedUp (w : WaitStates) (address : UInt32) : WaitStates :=
  fillLoop (w.halfCost (address >>> 24).toNat) (bufferDepth - w.buffered) w

/-- What a fetch takes from the cartridge bus: its word, the one halfword that the buffer lacks, or nothing
if the buffer holds both. -/
def fetchUnit (w : WaitStates) (address : UInt32) : Option Width :=
  if w.prefetch then
    match (w.toppedUp address).buffered with
    | 0 => some .word
    | 1 => some .half
    | _ + 2 => none
  else some .word

theorem fillLoop_frame (cost room : Nat) (w : WaitStates) :
    fillLoop cost room w =
      { w with
        pending := (fillLoop cost room w).pending
        buffered := (fillLoop cost room w).buffered } := by
  induction room generalizing w with
  | zero => rfl
  | succ room ih =>
    rw [fillLoop]
    split
    · exact ih _
    · rfl

theorem fillLoop_mark (cost room : Nat) (w : WaitStates) (mark : Bool) :
    fillLoop cost room { w with nonSequential := mark } =
      { fillLoop cost room w with nonSequential := mark } := by
  induction room generalizing w with
  | zero => rfl
  | succ room ih =>
    rw [fillLoop, fillLoop]
    split
    · exact ih { w with pending := w.pending - cost, buffered := w.buffered + 1 }
    · rfl

theorem toppedUp_mark (w : WaitStates) (address : UInt32) (mark : Bool) :
    { w with nonSequential := mark }.toppedUp address =
      { w with
        nonSequential := mark
        pending := (w.toppedUp address).pending
        buffered := (w.toppedUp address).buffered } := by
  have frame := fillLoop_frame (w.halfCost (address >>> 24).toNat) (bufferDepth - w.buffered) w
  exact (fillLoop_mark _ _ w mark).trans (congrArg (fun k => { k with nonSequential := mark }) frame)

/-- Whether an access to the address starts a new sequence. -/
def startsAnew (w : WaitStates) (address : UInt32) : Bool :=
  w.nonSequential || address &&& (0x1FFFF : UInt32) == 0

/-- The entry of a cost table that an access to the address is charged from. -/
def entryOf (w : WaitStates) (address : UInt32) : Nat :=
  (address >>> 24).toNat ||| if w.startsAnew address then 0x10 else 0

theorem romFetchBuffered_eq (bank : Int) (level : Nat) :
    w.toppedUp address = { w with pending := bank, buffered := level } →
    w.romFetchBuffered address = match level with
      | 0 => settle { w with
          pending := wrapBank (bank - w.wordCost (w.costIndex address))
          buffered := 0, nonSequential := false }
      | 1 => settle { w with
          pending := wrapBank (bank - w.halfCost (w.costIndex address))
          buffered := 0, nonSequential := false }
      | more + 2 => settle { w with pending := wrapBank (bank + 1), buffered := more } := by
  intro fills
  unfold toppedUp at fills
  unfold romFetchBuffered
  rw [fills]
  match level with
  | 0 => rfl
  | 1 => rfl
  | more + 2 => rfl

/-- A fetch with the prefetcher on, told by what the buffer and the bank hold once it is filled. -/
theorem romFetch_filled (on : w.prefetch = true) (address : UInt32) :
    let bank := (w.toppedUp address).pending
    w.romFetch address = match (w.toppedUp address).buffered with
      | 0 => settle { w with
          pending := wrapBank (bank - w.wordCost (w.entryOf address))
          buffered := 0, nonSequential := false }
      | 1 => settle { w with
          pending := wrapBank (bank - w.halfCost (w.entryOf address))
          buffered := 0, nonSequential := false }
      | more + 2 => settle { w with
          pending := wrapBank (bank + 1), buffered := more, nonSequential := w.startsAnew address } :=
  (romFetch_on on address).trans
    (romFetchBuffered_eq (w := { w with nonSequential := w.startsAnew address }) _ _
      (toppedUp_mark w address _))

/-- The unit and the address that a request takes over the cartridge bus, if it does. -/
def busAccess (w : WaitStates) : WaitRequest → Option (Width × UInt32)
  | .romHalf _ address => some (.half, address)
  | .romWord _ address => some (.word, address)
  | .romFetch address => (w.fetchUnit address).map (·, address)
  | .access width _ address => if Region.ofAddress address = .rom then some (width, address) else none
  | .fetch address =>
    if Region.ofAddress address = .rom then (w.fetchUnit address).map (·, address) else none
  | _ => none

/-- A fetch out of the buffer that begins a block of 128 KiB. -/
def SkipsBoundary (w : WaitStates) (address : UInt32) : Prop :=
  w.fetchUnit address = none ∧ address &&& (0x1FFFF : UInt32) = 0

/-- The requests that break the sequence. Without the prefetcher internal cycles do, while code runs from
the cartridge. -/
def Breaks (w : WaitStates) : WaitRequest → Prop
  | .breakSequence | .breakStream => True
  | .internalCycle pc | .internalCycles pc _ => w.prefetch = false ∧ inCartridge pc = true
  | .romFetch address => w.SkipsBoundary address
  | .fetch address => Region.ofAddress address = .rom ∧ w.SkipsBoundary address
  | _ => False

/-- What a fetch is charged and leaves in the bank if it takes `cost` clocks on the bus. With the prefetcher
on the bank pays as far as it goes, as a signed word, and a fetch that lacks nothing takes one clock. -/
def FetchCosts (w : WaitStates) (address : UInt32) (cost : Nat) (charged : Nat × WaitStates) : Prop :=
  if w.prefetch then
    let balance := Int.bmod ((w.toppedUp address).pending - cost) UInt32.size
    charged.1 = (if balance < 0 then balance.natAbs else 1) ∧ charged.2.pending = max 0 balance
  else charged.1 = cost

/-- A request that goes over the bus is charged for `cost` clocks there. A data access pays what the
prefetcher owes on top. -/
def Costs (w : WaitStates) (request : WaitRequest) (cost : Nat) : Prop :=
  match request with
  | .romHalf pc _ | .romWord pc _ | .access _ pc _ => (w.serve request).1 = cost + w.debt pc
  | .romFetch address | .fetch address => w.FetchCosts address cost (w.serve request)
  | _ => False

theorem mark_multiClock (w : WaitStates) (pc : UInt32) (clocks : Nat) :
    (w.multiClock pc clocks).2.nonSequential = w.nonSequential := by
  unfold multiClock
  simp only
  split
  · split <;> rfl
  · rfl

theorem mark_internalCycles (w : WaitStates) (pc : UInt32) (clocks : Nat) :
    (w.internalCycles pc clocks).2.nonSequential = true ↔
      w.nonSequential = true ∨ w.prefetch = false ∧ inCartridge pc = true := by
  unfold internalCycles
  cases on : w.prefetch with
  | true => simp [mark_multiClock]
  | false => cases inCartridge pc <;> simp [breakSequence]

/-- A fetch that goes over the bus spends the mark. -/
theorem romFetch_taken {unit : Width} (taken : w.fetchUnit address = some unit) :
    (w.romFetch address).2.nonSequential = false ∧
      w.FetchCosts address (w.costOf unit (w.entryOf address)) (w.romFetch address) := by
  have settled : ∀ (k : WaitStates) (clocks : Int),
      let balance := Int.bmod clocks UInt32.size
      let paid := settle { k with pending := wrapBank clocks }
      paid.1 = (if balance < 0 then balance.natAbs else 1) ∧ paid.2.pending = max 0 balance := by
    intro k clocks balance paid
    have known : paid = _ := settle_eq { k with pending := balance }
    rw [known]
    exact ⟨rfl, rfl⟩
  unfold fetchUnit at taken
  unfold FetchCosts
  cases on : w.prefetch with
  | false =>
    rw [on] at taken
    obtain rfl := Option.some.inj taken
    refine ⟨?_, romFetch_off on address⟩
    unfold romFetch
    rw [checkBoundary_eq]
    simp [on]
  | true =>
    rw [on] at taken
    rw [romFetch_filled on]
    generalize (w.toppedUp address).pending = bank
    generalize (w.toppedUp address).buffered = level at taken ⊢
    match level with
    | 0 =>
      obtain rfl := Option.some.inj taken
      refine ⟨by simp only [settle_eq], ?_⟩
      rw [if_pos rfl]
      exact settled { w with buffered := 0, nonSequential := false } (bank - w.wordCost (w.entryOf address))
    | 1 =>
      obtain rfl := Option.some.inj taken
      refine ⟨by simp only [settle_eq], ?_⟩
      rw [if_pos rfl]
      exact settled { w with buffered := 0, nonSequential := false } (bank - w.halfCost (w.entryOf address))
    | more + 2 => cases taken

/-- A fetch that the buffer serves sets it at a boundary. -/
theorem romFetch_served (served : w.fetchUnit address = none) :
    (w.romFetch address).2.nonSequential = w.startsAnew address := by
  unfold fetchUnit at served
  cases on : w.prefetch with
  | false => simp [on] at served
  | true =>
    rw [on] at served
    rw [romFetch_filled on]
    generalize (w.toppedUp address).buffered = level at served ⊢
    match level with
    | 0 => cases served
    | 1 => cases served
    | more + 2 => simp only [settle_eq]

theorem mark_access_off (off : Region.ofAddress address ≠ .rom) (width : Width) (pc : UInt32) :
    (w.access width pc address).2.nonSequential = w.nonSequential := by
  unfold access
  cases region : Region.ofAddress address with
  | rom => exact absurd region off
  | _ => cases width <;> exact mark_multiClock w pc _

theorem mark_fetch_off (off : Region.ofAddress address ≠ .rom) :
    (w.fetch address).2.nonSequential = w.nonSequential := by
  unfold fetch
  cases region : Region.ofAddress address with
  | rom => exact absurd region off
  | bios | iwram | io | unmapped => exact mark_multiClock w address 1
  | _ => rfl

theorem fetch_rom (rom : Region.ofAddress address = .rom) : w.fetch address = w.romFetch address := by
  simp only [fetch, rom]

theorem romIndex_entryOf (w : WaitStates) (address : UInt32) : w.romIndex address = w.entryOf address :=
  w.romIndex_eq address

theorem startsAnew_iff (w : WaitStates) (address : UInt32) :
    w.startsAnew address = true ↔ w.nonSequential = true ∨ address &&& (0x1FFFF : UInt32) = 0 := by
  simp [startsAnew]

/-- A request that goes over the bus spends the mark and is charged from its column. -/
theorem serve_taken {unit : Width} (taken : w.busAccess request = some (unit, address)) :
    (w.serve request).2.nonSequential = false ∧
      w.Costs request (w.costOf unit (w.entryOf address)) := by
  have fetched : ∀ code : UInt32, (w.fetchUnit code).map (·, code) = some (unit, address) →
      code = address ∧ w.fetchUnit address = some unit := by
    intro code taken
    obtain ⟨found, hf, same⟩ := Option.map_eq_some_iff.mp taken
    obtain ⟨rfl, rfl⟩ := Prod.mk.inj same
    exact ⟨rfl, hf⟩
  cases request with
  | romHalf pc data =>
    obtain ⟨rfl, rfl⟩ := Prod.mk.inj (Option.some.inj taken)
    exact ⟨rfl, (w.romHalf_charge pc data).trans (by rw [romIndex_entryOf, costOf])⟩
  | romWord pc data =>
    obtain ⟨rfl, rfl⟩ := Prod.mk.inj (Option.some.inj taken)
    exact ⟨rfl, (w.romWord_charge pc data).trans (by rw [romIndex_entryOf, costOf])⟩
  | romFetch code =>
    obtain ⟨rfl, unit⟩ := fetched code taken
    exact romFetch_taken unit
  | access width pc data =>
    simp only [busAccess] at taken
    split at taken
    · next rom =>
      obtain ⟨rfl, rfl⟩ := Prod.mk.inj (Option.some.inj taken)
      refine ⟨?_, (w.access_rom width pc rom).trans (by rw [romIndex_entryOf])⟩
      simp only [serve, access, rom]
      cases width <;> rfl
    · cases taken
  | fetch code =>
    simp only [busAccess] at taken
    split at taken
    · next rom =>
      obtain ⟨rfl, unit⟩ := fetched code taken
      simp only [Costs, serve, fetch_rom rom]
      exact romFetch_taken unit
    · cases taken
  | _ => cases taken

/-- A request that stays off the bus leaves the mark, unless it breaks the sequence. -/
theorem serve_quiet (quiet : w.busAccess request = none) :
    (w.serve request).2.nonSequential = true ↔ w.nonSequential = true ∨ w.Breaks request := by
  have fetched : ∀ code : UInt32, (w.fetchUnit code).map (·, code) = none →
      ((w.romFetch code).2.nonSequential = true ↔ w.nonSequential = true ∨ w.SkipsBoundary code) := by
    intro code quiet
    have served : w.fetchUnit code = none := Option.map_eq_none_iff.mp quiet
    rw [romFetch_served served, startsAnew_iff, SkipsBoundary]
    simp only [served, true_and]
  cases request with
  | configure write => simp only [serve, (reconfigured_configure w write).mark, Breaks, or_false]
  | setWindow window control =>
    simp only [serve, (reconfigured_setWindow w window control).mark, Breaks, or_false]
  | setRendering | resetPrefetch => simp only [serve, setRendering, resetPrefetch, Breaks, or_false]
  | breakSequence | breakStream => simp [serve, breakStream, breakSequence, resetPrefetch, Breaks]
  | internalCycle pc | internalCycles pc clocks => exact w.mark_internalCycles pc _
  | singleClock pc | multiClock pc clocks =>
    simp only [serve, singleClock, mark_multiClock, Breaks, or_false]
  | access width pc data =>
    have off : Region.ofAddress data ≠ .rom := by simpa [busAccess] using quiet
    simp only [serve, mark_access_off off, Breaks, or_false]
  | fetch code =>
    by_cases rom : Region.ofAddress code = .rom
    · simp only [busAccess, if_pos rom] at quiet
      simpa only [serve, fetch_rom rom, Breaks, rom, true_and] using fetched code quiet
    · simp only [serve, mark_fetch_off rom, Breaks, rom, false_and, or_false]
  | romHalf | romWord => cases quiet
  | romFetch code => exact fetched code quiet

/-- A request in the state that it meets. -/
structure Moment where
  state : WaitStates
  request : WaitRequest

def Moment.UsesBus (m : Moment) : Prop := m.state.busAccess m.request ≠ none

def Moment.Breaks (m : Moment) : Prop := m.state.Breaks m.request

/-- The moments of a run. -/
def timeline (w : WaitStates) : List WaitRequest → List Moment
  | [] => []
  | request :: later => ⟨w, request⟩ :: (w.serve request).2.timeline later

theorem timeline_concat (w : WaitStates) (requests : List WaitRequest) (request : WaitRequest) :
    w.timeline (requests ++ [request]) = w.timeline requests ++ [⟨w.run requests, request⟩] := by
  induction requests generalizing w with
  | nil => rfl
  | cons earlier requests ih => exact congrArg (⟨w, earlier⟩ :: ·) (ih _)

theorem run_concat (w : WaitStates) (requests : List WaitRequest) (request : WaitRequest) :
    w.run (requests ++ [request]) = ((w.run requests).serve request).2 := by
  simp only [run, List.foldl_append, List.foldl_cons, List.foldl_nil]

/-- Nothing has gone over the bus yet, or something has broken the sequence since the last access. -/
def Broken (past : List Moment) : Prop :=
  (∀ m ∈ past, ¬ m.UsesBus) ∨ Since Moment.Breaks Moment.UsesBus past

/-- No request both goes over the bus and breaks the sequence. -/
theorem breaks_quiet (broke : w.Breaks request) : w.busAccess request = none := by
  cases request with
  | romFetch code => exact Option.map_eq_none_iff.mpr broke.1
  | fetch code => exact (if_pos broke.1).trans (Option.map_eq_none_iff.mpr broke.2.1)
  | access | romHalf | romWord => exact broke.elim
  | _ => rfl

theorem broken_concat (past : List Moment) (now : Moment) :
    Broken (past ++ [now]) ↔ now.state.busAccess now.request = none ∧ (Broken past ∨ now.Breaks) := by
  have quiet : ¬ now.UsesBus ↔ now.state.busAccess now.request = none := not_not
  unfold Broken
  rw [since_concat, List.forall_mem_append, List.forall_mem_singleton, ← quiet]
  constructor
  · rintro (⟨first, off⟩ | broke | ⟨since, off⟩)
    · exact ⟨off, .inl (.inl first)⟩
    · exact ⟨quiet.mpr (breaks_quiet broke), .inr broke⟩
    · exact ⟨off, .inl (.inr since)⟩
  · rintro ⟨off, (first | since) | broke⟩
    · exact .inl ⟨first, off⟩
    · exact .inr (.inr ⟨since, off⟩)
    · exact .inr (.inl broke)

/-- The mark stands exactly while the sequence is broken. -/
theorem mark_run (requests : List WaitRequest) :
    (initial.run requests).nonSequential = true ↔ Broken (initial.timeline requests) := by
  induction requests using List.reverseRecOn with
  | nil => exact iff_of_true rfl (.inl fun m hm => absurd hm List.not_mem_nil)
  | append_singleton requests request ih =>
    rw [run_concat, timeline_concat, broken_concat, ← ih]
    cases taken : (initial.run requests).busAccess request with
    | none => exact (serve_quiet taken).trans (and_iff_right rfl).symm
    | some used =>
      obtain ⟨unit, address⟩ := used
      simp [(serve_taken taken).1]

/-- A request that goes over the cartridge bus is charged out of sequence exactly if it is the first to do so,
if something has broken the sequence since the last one did, or if its address begins a block of 128 KiB,
and in each case the mark is spent. Of all other requests those that break the sequence set the mark, and
the rest leave it. -/
theorem sequence_mark (before : List WaitRequest) (request : WaitRequest) :
    let w := initial.run before
    let broken := Broken (initial.timeline before)
    (∀ unit address, w.busAccess request = some (unit, address) →
      let top := (address >>> 24).toNat
      let outOfSequence := broken ∨ address &&& (0x1FFFF : UInt32) = 0
      (outOfSequence → w.Costs request (w.costOf unit (top ||| 0x10))) ∧
      (¬ outOfSequence → w.Costs request (w.costOf unit top)) ∧
      (w.serve request).2.nonSequential = false) ∧
    (w.busAccess request = none →
      (w.Breaks request → (w.serve request).2.nonSequential = true) ∧
      (¬ w.Breaks request → (w.serve request).2.nonSequential = w.nonSequential)) ∧
    (w.nonSequential = true ↔ broken) := by
  intro w broken
  have marked : w.nonSequential = true ↔ broken := mark_run before
  refine ⟨?_, ?_, marked⟩
  · intro unit address taken top outOfSequence
    obtain ⟨spent, costs⟩ := serve_taken taken
    have column : w.startsAnew address = true ↔ outOfSequence :=
      (w.startsAnew_iff address).trans (or_congr_left marked)
    refine ⟨fun out => ?_, fun inside => ?_, spent⟩
    · have entry : w.entryOf address = top ||| 0x10 := by rw [entryOf, if_pos (column.mpr out)]
      exact entry ▸ costs
    · have entry : w.entryOf address = top := by
        rw [entryOf, if_neg (mt column.mp inside), Nat.or_zero]
      exact entry ▸ costs
  · intro quiet
    have after := serve_quiet quiet
    exact ⟨fun broke => after.mpr (.inr broke), fun kept =>
      Bool.eq_iff_iff.mpr (after.trans (or_iff_left kept))⟩

/-- A fetch out of the buffer neither pays nor spends the mark. At the start of a block it sets it, and the
next data access pays the five clocks of a first halfword. -/
theorem sequence_mark_served :
    let before : List WaitRequest :=
      [.configure (.waitHigh 0x40), .romFetch 0x0801FFFC, .multiClock 0x0801FFFC 6, .romFetch 0x08020000]
    let w := initial.run before
    w.busAccess (.romHalf 0x08020000 0x08000004) = some (.half, 0x08000004) ∧
    Broken (initial.timeline before) ∧
    (w.romHalf 0x08020000 0x08000004).1 = 5 + w.debt 0x08020000 := by
  intro before w
  have since : Since Moment.Breaks Moment.UsesBus (initial.timeline before) := by
    refine ⟨_, ⟨initial.run (before.take 3), .romFetch 0x08020000⟩, [],
      timeline_concat initial (before.take 3) _, ⟨?_, ?_⟩, fun m hm => absurd hm List.not_mem_nil⟩
    · decide +kernel
    · decide
  have charged := (sequence_mark before (.romHalf 0x08020000 0x08000004)).1 .half 0x08000004 rfl
  refine ⟨rfl, .inr since, (charged.1 (.inl (.inr since))).trans ?_⟩
  decide +kernel

end GbaArm.WaitStates
