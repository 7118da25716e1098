import Mathlib.Algebra.BigOperators.Group.Finset.Piecewise
import Compcache.Proofs.ZramScaleDevice

/-! The counters of the variant's device: the block they live in comes from
`alloc_percpu`, and what they add up to is what the table shows. -/

namespace Compcache.ZramScale
open Library.PagedMemory Library.Ownership Library.PerCpu Library.Runs Xvmalloc
open ZramDrv (Slot Disk sectorsPerPage tally tally_le)

section Counters
variable {Cpu : Type} [Arch] [Fintype Cpu]

section Books
variable {lzo : Lzo} {others : Finset Page} {zram : Zram Cpu} {slots : Nat → Slot} {held : Storage → Prop} {disk : Disk}

/-- The stored length of a disk page, from its entry. -/
def storedLength (zram : Zram Cpu) (index : Nat) : Nat :=
  let addr := zram.table index
  if addr = 0 ∨ addr % 2 = 1 then 0
  else if addr % pageSize = 0 then pageSize
  else xvGetObjectSize zram.xv.memory (addr / pageSize) (addr % pageSize)

/-- The sums over all CPUs are what the table says. -/
structure Books (zram : Zram Cpu) : Prop where
  pagesZero : zramGetStat zram .pagesZero = some ((Finset.range zram.numPages).filter fun index => zram.table index % 2 = 1).card
  pagesStored : zramGetStat zram .pagesStored =
    some ((Finset.range zram.numPages).filter fun index => zram.table index ≠ 0 ∧ zram.table index % 2 = 0).card
  pagesExpand : zramGetStat zram .pagesExpand =
    some ((Finset.range zram.numPages).filter fun index => zram.table index ≠ 0 ∧ zram.table index % pageSize = 0).card
  comprSize : zramGetStat zram .comprSize = some (∑ index ∈ Finset.range zram.numPages, storedLength zram index)

theorem Sound.shown (sound : Sound lzo others zram slots held disk) (index : Nat) :
    (slots index).length = storedLength zram index ∧
    (slots index).pagesStored = (if zram.table index ≠ 0 ∧ zram.table index % 2 = 0 then 1 else 0) ∧
    (slots index).pagesZero = (if zram.table index % 2 = 1 then 1 else 0) ∧
    (slots index).pagesExpand = (if zram.table index ≠ 0 ∧ zram.table index % pageSize = 0 then 1 else 0) := by
  unfold storedLength
  rw [sound.entries index]
  cases found : slots index with
  | empty => exact ⟨rfl, rfl, rfl, rfl⟩
  | zero => exact ⟨rfl, rfl, rfl, rfl⟩
  | stored storage =>
    have here : held storage := sound.stored.holds found
    have placed := sound.placed storage here
    have unpacked := placed.unpack
    have offset : packObj storage.location % pageSize = storage.location.offset := congrArg Location.offset unpacked
    have page : packObj storage.location / pageSize = storage.location.page := congrArg Location.page unpacked
    have unmarked : ¬ (packObj storage.location = 0 ∨ packObj storage.location % 2 = 1) := by
      rintro (zero | odd)
      · exact placed.ne_zero zero
      · rw [placed.even] at odd
        cases odd
    simp only [slotAddr, if_neg unmarked, offset, page]
    refine ⟨?_, (if_pos ⟨placed.ne_zero, placed.even⟩).symm, (if_neg fun odd => unmarked (.inr odd)).symm, ?_⟩
    · cases storage with
      | page frame => exact (if_pos (placed.kind.mpr ⟨frame, rfl⟩)).symm
      | object location size =>
        rw [if_neg fun first => by obtain ⟨frame, same⟩ := placed.kind.mp first; cases same]
        exact (sound.stored.backed.object_size here).symm
    · cases storage with
      | page frame => exact (if_pos ⟨placed.ne_zero, placed.kind.mpr ⟨frame, rfl⟩⟩).symm
      | object location size =>
        refine (if_neg ?_).symm
        rintro ⟨_, first⟩
        obtain ⟨frame, same⟩ := placed.kind.mp first
        cases same

theorem Sound.length_le (sound : Sound lzo others zram slots held disk) (index : Nat) : (slots index).length ≤ pageSize := by
  cases found : slots index with
  | stored storage => cases storage with
    | page frame => exact Nat.le_refl _
    | object location size => exact (Nat.le_add_left ..).trans (sound.stored.backed.object_inside (sound.stored.holds found))
  | _ => exact Nat.zero_le _

/-- No sum is too large for 64 bits, however large the disk: only entries with
numbers of 32 bits are in use. -/
theorem Sound.tally_lt (sound : Sound lzo others zram slots held disk) {weight : Slot → Nat} (free : weight .empty = 0)
    (each : ∀ index, weight (slots index) ≤ pageSize) : tally weight slots zram.numPages < 2 ^ 64 := by
  have most (count : Nat) (few : count ≤ 2 ^ 32) : tally weight slots count < 2 ^ 64 := by
    have bound := tally_le each count
    simp only [pageSize_eq] at bound
    omega
  rcases Nat.le_total zram.numPages (2 ^ 32) with few | many
  · exact most _ few
  · have same : tally weight slots (2 ^ 32) = tally weight slots zram.numPages := by
      refine Finset.sum_subset (fun index member => Finset.mem_range.mpr ?_) fun index _ outside => ?_
      · exact Nat.lt_of_lt_of_le (Finset.mem_range.mp member) many
      · have vacant : slots index = .empty := by
          by_contra occupied
          exact outside (Finset.mem_range.mpr (sound.inside index occupied).2)
        rw [vacant, free]
    rw [← same]
    exact most _ (Nat.le_refl _)

theorem Sound.books (sound : Sound lzo others zram slots held disk) : Books zram := by
  obtain ⟨counters, present, tallied⟩ := sound.counted
  have reads (stat : Stat) {weight : Slot → Nat} (counts : stat.weight = some weight) (each : ∀ index, weight (slots index) ≤ pageSize) :
      zramGetStat zram stat = some (tally weight slots zram.numPages) := by
    rw [zramGetStat, present, Option.map_some, sum_eq (tallied counts) (sound.tally_lt (Stat.weight_empty counts) each)]
  have counted {weight : Slot → Nat} {shows : Nat → Prop} [DecidablePred shows]
      (each : ∀ index, weight (slots index) = if shows index then 1 else 0) :
      tally weight slots zram.numPages = ((Finset.range zram.numPages).filter shows).card := by
    rw [Finset.card_filter]
    exact Finset.sum_congr rfl fun index _ => each index
  have unit {weight : Slot → Nat} (one : ∀ slot, weight slot ≤ 1) (index : Nat) : weight (slots index) ≤ pageSize :=
    (one _).trans (by decide)
  have shown := sound.shown
  exact {
    pagesZero := (reads .pagesZero rfl (unit Slot.pagesZero_le)).trans (congrArg some (counted fun index => (shown index).2.2.1))
    pagesStored := (reads .pagesStored rfl (unit Slot.pagesStored_le)).trans (congrArg some (counted fun index => (shown index).2.1))
    pagesExpand := (reads .pagesExpand rfl (unit Slot.pagesExpand_le)).trans (congrArg some (counted fun index => (shown index).2.2.2))
    comprSize := (reads .comprSize rfl sound.length_le).trans
      (congrArg some (Finset.sum_congr rfl fun index _ => (shown index).1)) }

end Books
variable [DecidableEq Cpu]

/-- The blocks of counters one `zram_init_device` gets from `alloc_percpu`. -/
def blocksObtained (zram : Zram Cpu) (allocations : InitAllocations) : Nat :=
  if zram.initDone ∨ allocations.table = 0 ∨ allocations.stats = 0 then 0 else 1

/-- A device, and how many blocks of counters were obtained and not given back.
Nothing in the driver gives one back. -/
structure Accounts (Cpu : Type) where
  zram : Zram Cpu
  blocks : Nat

def Accounts.step (lzo : Lzo) (accounts : Accounts Cpu) (event : Event Cpu) : Option (Accounts Cpu) :=
  (ZramScale.step lzo accounts.zram event).map fun zram =>
    ⟨zram, accounts.blocks + (event.allocations accounts.zram).elim 0 (blocksObtained accounts.zram)⟩

/-- A device with counters is never reset, neither by its user nor by an
initialisation that fails once it has them. -/
structure Careful (accounts : Accounts Cpu) (event : Event Cpu) : Prop where
  admissible : Admissible accounts.zram event
  init : ∀ {allocations}, event.allocations accounts.zram = some allocations → blocksObtained accounts.zram allocations = 1 →
    allocations.pool ≠ 0
  reset : ∀ {placement totalramPages}, event = .reset placement totalramPages → accounts.zram.stats = none

section Accounts
variable {lzo : Lzo} {others : Finset Page} {zram : Zram Cpu} {slots : Nat → Slot} {disk : Disk} {accounts : Accounts Cpu}

omit [DecidableEq Cpu] in
theorem Device.stats (device : Device lzo others zram slots disk) : zram.stats.isSome = zram.initDone := by
  cases device with
  | idle blank => rw [blank.stats, blank.initDone, Option.isSome_none]
  | ready initDone tableAddress sound =>
    obtain ⟨counters, present, _⟩ := sound.counted
    rw [present, initDone, Option.isSome_some]

omit [DecidableEq Cpu] in
theorem Careful.obtained {event : Event Cpu} (careful : Careful accounts event) (device : Device lzo others accounts.zram slots disk) :
    (if event.ready accounts.zram then 1 else 0) =
      (if accounts.zram.initDone then 1 else 0) + (event.allocations accounts.zram).elim 0 (blocksObtained accounts.zram) := by
  have counts (event : Event Cpu) (granted : ∀ {allocations}, event.allocations accounts.zram = some allocations →
      blocksObtained accounts.zram allocations = 1 → allocations.pool ≠ 0) :
      (if accounts.zram.initDone || (event.allocations accounts.zram).elim false InitAllocations.granted then 1 else 0) =
        (if accounts.zram.initDone then 1 else 0) + (event.allocations accounts.zram).elim 0 (blocksObtained accounts.zram) := by
    cases found : event.allocations accounts.zram with
    | none => simp
    | some allocations =>
      have pool := granted found
      unfold blocksObtained at pool ⊢
      cases initDone : accounts.zram.initDone with
      | true => simp
      | false =>
        simp only [initDone, Bool.false_eq_true, false_or] at pool ⊢
        rcases Classical.em (allocations.table = 0 ∨ allocations.stats = 0) with refused | granted
        · rcases refused with missing | missing <;> simp [InitAllocations.granted, missing]
        · have some_ := pool (if_neg granted)
          simp_all [InitAllocations.granted]
  cases event with
  | reset placement totalramPages =>
    have ended := device.stats
    rw [careful.reset rfl, Option.isSome_none] at ended
    rw [← ended]
    rfl
  | _ => exact counts _ careful.init

/-- As long as no device with counters is reset, nothing ever looks for counters that
are not there, the only block outstanding is the one in use, and its sums are what
the table says. -/
theorem counters_kept {memory : Memory Page} {totalramPages : Nat}
    (run : Run (Accounts.step lzo) Careful ⟨createDevice ⟨⟨memory, others⟩, xvCreatePool⟩ totalramPages, 0⟩ accounts) :
    (∀ event, Careful accounts event → ∃ after, accounts.step lzo event = some after) ∧
    accounts.blocks = (if accounts.zram.stats.isSome then 1 else 0) ∧ (accounts.zram.stats.isSome → Books accounts.zram) := by
  obtain ⟨slots, disk, device, blocks⟩ : ∃ slots disk, Device lzo others accounts.zram slots disk ∧
      accounts.blocks = if accounts.zram.initDone then 1 else 0 := by
    refine run.invariant (fun accounts => ∃ slots disk, Device lzo others accounts.zram slots disk ∧
      accounts.blocks = if accounts.zram.initDone then 1 else 0) ⟨_, _, createDevice_idle others memory totalramPages, rfl⟩ ?_
    rintro before after event ⟨slots, disk, device, blocks⟩ careful taken
    obtain ⟨zram, filled, final, served, later, ready, _⟩ := device.step careful.admissible
    obtain ⟨result, same, rfl⟩ := Option.map_eq_some_iff.mp taken
    obtain rfl : zram = result := Option.some.inj (served.symm.trans same)
    refine ⟨filled, final, later, ?_⟩
    rw [ready, careful.obtained device, blocks]
  refine ⟨fun event careful => ?_, ?_, fun present => ?_⟩
  · obtain ⟨zram, _, _, served, _⟩ := device.step careful.admissible
    exact ⟨_, congrArg (Option.map _) served⟩
  · rw [blocks, device.stats]
  · cases device with
    | idle blank =>
      rw [blank.stats] at present
      cases present
    | ready initDone tableAddress sound => exact sound.books

end Accounts
end Counters

section Sample
local instance statsArch : Arch := Arch.x64

theorem sampleReady_accounts (lzo : Lzo) : Run (Accounts.step lzo) Careful ⟨sampleStart, 0⟩ ⟨sampleReady, 1⟩ := by
  have sized : Careful (⟨sampleStart, 0⟩ : Accounts Unit) (.disksize (some 8192)) := ⟨trivial, nofun, nofun⟩
  have started : Careful (⟨disksizeStore sampleStart (some 8192), 0⟩ : Accounts Unit) (.init granted fun _ => anywhere) := by
    refine ⟨trivial, fun {allocations} found _ => ?_, nofun⟩
    cases found
    decide
  exact (Run.step .start sized rfl).step started rfl

/-- A system of two CPUs, and all of a request on one of them. -/
def on (cpu : Bool) : Placement Bool := fun _ => cpu

def pageOn (cpu : Bool) (data : PageData) : Segment Bool := ⟨data, threeFrames, true, on cpu, on cpu⟩

def writeOn (cpu : Bool) (index : Nat) (data : PageData) :
    Event Bool := .bio (.write (index * sectorsPerPage) [pageOn cpu data] granted (on cpu))

def Accounts.checked (accounts : Accounts Bool) : Event Bool → Bool
  | .bio bio => accounts.zram.initDone && decide (bio.sector / sectorsPerPage + bio.size / pageSize ≤ accounts.zram.numPages ∧
      bio.sector / sectorsPerPage + bio.size / pageSize ≤ 2 ^ 32)
  | .notify index _ => accounts.zram.initDone && decide (index < accounts.zram.numPages ∧ index < 2 ^ 32)
  | .init allocations _ => allocations.pool != 0
  | .disksize _ => true
  | .readStat _ => accounts.zram.initDone
  | .reset _ _ => false

theorem careful_of_checked {accounts : Accounts Bool} {event : Event Bool} (passed : accounts.checked event = true) :
    Careful accounts event := by
  have ready (initDone : accounts.zram.initDone = true) (allocations : InitAllocations) : blocksObtained accounts.zram allocations ≠ 1 := by
    rw [blocksObtained, if_pos (.inl initDone)]
    decide
  cases event with
  | bio bio =>
    obtain ⟨initDone, within⟩ := Bool.and_eq_true_iff.mp passed
    obtain ⟨inside, small⟩ := of_decide_eq_true within
    refine ⟨fun _ => ⟨⟨inside, small⟩, ?_⟩, fun {allocations} _ one => absurd one (ready initDone allocations), nofun⟩
    cases bio with
    | write => exact fun _ _ => Low.of_narrow (Nat.le_refl 64) _
    | read | discard => trivial
  | notify index placement =>
    obtain ⟨initDone, inside⟩ := Bool.and_eq_true_iff.mp passed
    exact ⟨⟨initDone, of_decide_eq_true inside⟩, nofun, nofun⟩
  | init allocations placement =>
    refine ⟨trivial, fun {chosen} found _ => ?_, nofun⟩
    cases found
    exact bne_iff_ne.mp passed
  | disksize value => exact ⟨trivial, nofun, nofun⟩
  | readStat stat => exact ⟨passed, nofun, nofun⟩
  | reset => cases passed

def pairStart : Accounts Bool := ⟨createDevice ⟨⟨fun _ _ => 0, ∅⟩, xvCreatePool⟩ 1024, 0⟩

/-- One CPU writes pages of zeros. The other overwrites one of them with an object and
discards the other, which the first then writes again. -/
def shared : List (Event Bool) :=
  [.disksize (some 8192), .init granted fun _ => on false, writeOn false 0 PageData.zeros, writeOn false 1 PageData.zeros,
    writeOn true 1 (PageData.filled 8), .bio (.discard 0 pageSize fun _ => on true), writeOn false 0 (PageData.filled 5),
      .readStat .pagesZero]

/-- The zeros were counted on one CPU and taken off on the other, and an object is
overwritten. -/
theorem counters_kept_sample : ∃ accounts after : Accounts Bool, Run (Accounts.step Lzo.runs) Careful pairStart accounts ∧
    (accounts.zram.stats.map fun counters => (counters false .pagesZero, counters true .pagesZero)) = some (2, -2) ∧
    zramGetStat accounts.zram .pagesZero = some 0 ∧ zramGetStat accounts.zram .pagesStored = some 2 ∧
    accounts.step Lzo.runs (writeOn false 1 (PageData.filled 9)) = some after ∧ after.blocks = 1 ∧ Books after.zram := by
  have reached : ∃ accounts ∈ steps (tested (Accounts.step Lzo.runs) Accounts.checked) pairStart shared,
      (accounts.zram.stats.map fun counters => (counters false .pagesZero, counters true .pagesZero)) = some (2, -2) ∧
      zramGetStat accounts.zram .pagesZero = some 0 ∧ zramGetStat accounts.zram .pagesStored = some 2 ∧
      accounts.checked (writeOn false 1 (PageData.filled 9)) = true ∧ accounts.zram.initDone = true ∧ accounts.blocks = 1 := by
    decide +kernel
  obtain ⟨accounts, taken, counts, zeros, stored, checked, initDone, blocks⟩ := reached
  have run : Run (Accounts.step Lzo.runs) Careful pairStart accounts := .of_tested careful_of_checked taken
  obtain ⟨after, overwritten⟩ := (counters_kept run).1 _ (careful_of_checked checked)
  obtain ⟨_, outstanding, books⟩ := counters_kept (run.step (careful_of_checked checked) overwritten)
  have one : after.blocks = 1 := by
    obtain ⟨zram, _, rfl⟩ := Option.map_eq_some_iff.mp overwritten
    have none_ (allocations : InitAllocations) : blocksObtained accounts.zram allocations = 0 := if_pos (.inl initDone)
    cases found : (writeOn false 1 (PageData.filled 9)).allocations accounts.zram with
    | none => exact blocks
    | some allocations => exact congrArg₂ (· + ·) blocks (none_ allocations)
  refine ⟨accounts, after, run, counts, zeros, stored, overwritten, one, books ?_⟩
  by_contra missing
  rw [one, if_neg missing] at outstanding
  cases outstanding

/-- A counter is read before there are any; and a device is initialised and reset: it
has no counters any more, and the block they were in was never given back. -/
theorem counters_lost : Accounts.step Lzo.literal ⟨sampleStart, 0⟩ (.readStat .numReads) = none ∧
    Run (Accounts.step Lzo.literal) Careful ⟨sampleStart, 0⟩ ⟨sampleReady, 1⟩ ∧
    ∃ after, Accounts.step Lzo.literal ⟨sampleReady, 1⟩ (.reset (fun _ => anywhere) 1024) = some after ∧
      after.blocks = 1 ∧ after.zram.stats = none :=
  ⟨rfl, sampleReady_accounts _, _, rfl, rfl, rfl⟩

end Sample
end Compcache.ZramScale
