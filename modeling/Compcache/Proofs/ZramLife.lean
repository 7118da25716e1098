import Compcache.Proofs.ZramConcurrent
import Compcache.ZramSysfs

/-! The life of a device: its disksize, its capacity and whether it is initialised,
through writes to its attributes, resets and requests. -/

namespace Compcache.ZramDrv
open Library.PagedMemory Library.Runs Xvmalloc

section Requests
variable [Arch] {lzo : Lzo} {zram after : Zram}

theorem writeSegments_same {segments : List (PageData × PageAllocator)} {index served : Nat} {completion : Completion}
    (ended : writeSegments lzo zram index served segments = some completion) : SameDevice zram completion.zram := by
  induction segments generalizing zram index served with
  | nil =>
    cases ended
    exact .refl zram
  | cons segment rest ih =>
    obtain ⟨data, allocator⟩ := segment
    have written {after : Zram} {stored : Bool} (written : writeSegment lzo zram index data allocator = some (after, stored)) :
        SameDevice zram after := by
      obtain ⟨freed, released, shown⟩ := Option.map_eq_some_iff.mp written
      have same := lockedSection_same lzo freed index data allocator
      generalize lockedSection lzo freed index data allocator = result at same shown
      cases result <;> cases shown
      · exact (releaseSlot_same released).trans ⟨rfl, rfl, rfl⟩
      all_goals exact (releaseSlot_same released).trans same
    unfold writeSegments at ended
    split at ended
    next => cases ended
    next _ found =>
      cases ended
      exact written found
    next _ found => exact (written found).trans (ih ended)

theorem discardPages_same {npages index : Nat} (ended : discardPages zram index npages = some after) : SameDevice zram after := by
  induction npages generalizing zram index with
  | zero =>
    cases ended
    exact .refl _
  | succ npages ih =>
    obtain ⟨freed, released, rest⟩ := Option.bind_eq_some_iff.mp ended
    exact (zramFreePage_same released).trans (ih rest)

theorem writeInitialised_same {sector : Nat} {segments : List (PageData × PageAllocator)} {completion : Completion}
    (ended : writeInitialised lzo zram sector segments = some completion) : SameDevice zram completion.zram := by
  have same := writeSegments_same ended
  exact ⟨same.disksize, same.initDone, same.tableAddress⟩

theorem zramRead_same (lzo : Lzo) (zram : Zram) (sector : Nat) (pages : List PageData) :
    SameDevice zram (zramRead lzo zram sector pages).zram := by
  unfold zramRead
  split
  next =>
    dsimp only
    split
    all_goals exact ⟨rfl, rfl, rfl⟩
  next => exact ⟨rfl, rfl, rfl⟩

theorem zramDiscard_same {sector size : Nat} {completion : Completion} (ended : zramDiscard zram sector size = some completion) :
    SameDevice zram completion.zram := by
  obtain ⟨freed, released, rfl⟩ := Option.map_eq_some_iff.mp ended
  split at released
  next => exact (discardPages_same released).trans ⟨rfl, rfl, rfl⟩
  next =>
    cases released
    exact ⟨rfl, rfl, rfl⟩

end Requests

section Life
variable [Arch]

inductive Event
  | disksize (value : Option Nat)
  | reset (holders : Bool) (value : Option Nat)
  | init (allocations : InitAllocations)
  | bio (bio : Bio)
  | notify (index : Nat)

def GenDisk.step (lzo : Lzo) (disk : GenDisk) : Event → Option GenDisk
  | .disksize value => some (disk.disksizeStore value).1
  | .reset holders value => (disk.resetStore holders value).map Prod.fst
  | .init allocations => (disk.initDevice allocations).map Prod.fst
  | .bio bio => disk.makeRequest lzo bio
  | .notify index => disk.slotFreeNotify index

def InitAllocations.Short (allocations : InitAllocations) : Prop :=
  allocations.workmem = 0 ∨ allocations.buffer = 0 ∨ allocations.table = 0 ∨ allocations.pool = 0

instance (allocations : InitAllocations) : Decidable allocations.Short := inferInstanceAs (Decidable (_ ∨ _ ∨ _ ∨ _))

/-- The disksize an initialisation is to round down: the one set, or its share of the RAM. -/
def GenDisk.sought (disk : GenDisk) (totalramBytes : Nat) : Nat :=
  if disk.zram.disksize = 0 then defaultDisksizePercRam * (totalramBytes / 100) else disk.zram.disksize

/-- Where an initialisation will fail, no capacity was announced before; if only the
pool will be missing, it is the disk that has no page. -/
def GenDisk.FailsQuietly (disk : GenDisk) (allocations : InitAllocations) : Prop :=
  disk.zram.initDone = false → allocations.Short →
    if allocations.workmem = 0 ∨ allocations.buffer = 0 ∨ allocations.table = 0 then disk.capacity = 0
    else disk.sought allocations.totalramBytes % 2 ^ bitsPerLong < pageSize

instance (disk : GenDisk) (allocations : InitAllocations) : Decidable (disk.FailsQuietly allocations) :=
  inferInstanceAs (Decidable (_ → _ → ite _ _ _))

/-- Text that does not parse comes when the disksize is 0 anyway, and a reset or a
failed initialisation when no capacity is announced. -/
def GenDisk.Announces (disk : GenDisk) : Event → Prop
  | .disksize none => disk.zram.initDone = false → disk.zram.disksize = 0
  | .reset false (some (_ + 1)) => disk.zram.initDone = true → disk.capacity = 0
  | .init allocations => disk.FailsQuietly allocations
  | .bio (.write sector segments allocations) =>
    validIoRequest disk.zram (.write sector segments allocations) = true → disk.FailsQuietly allocations
  | _ => True

instance (disk : GenDisk) : (event : Event) → Decidable (disk.Announces event)
  | .disksize none => inferInstanceAs (Decidable (_ → _))
  | .disksize (some _) => inferInstanceAs (Decidable True)
  | .reset true _ => inferInstanceAs (Decidable True)
  | .reset false none => inferInstanceAs (Decidable True)
  | .reset false (some 0) => inferInstanceAs (Decidable True)
  | .reset false (some (_ + 1)) => inferInstanceAs (Decidable (_ → _))
  | .init _ => inferInstanceAs (Decidable (GenDisk.FailsQuietly _ _))
  | .bio (.write _ _ _) => inferInstanceAs (Decidable (_ → _))
  | .bio (.read _ _) => inferInstanceAs (Decidable True)
  | .bio (.discard _ _) => inferInstanceAs (Decidable True)
  | .notify _ => inferInstanceAs (Decidable True)

/-- The capacity announced is that of the disk. -/
def GenDisk.Announced (disk : GenDisk) : Prop := disk.capacity = disk.zram.disksize / 2 ^ sectorShift

section Steps
variable {lzo : Lzo} {disk after : GenDisk} {event : Event}

theorem zramResetDevice_disksize {zram after : Zram} (ended : zramResetDevice zram = some after) : after.disksize = 0 := by
  unfold zramResetDevice at ended
  split at ended
  next => cases ended
  next =>
    obtain ⟨xv, _, rfl⟩ := Option.map_eq_some_iff.mp ended
    rfl

theorem initSection_result {zram : Zram} (idle : zram.initDone = false) (allocations : InitAllocations) :
    allocations.Short ∧ (initSection zram allocations).2 ≠ 0 ∨
      ¬ allocations.Short ∧ (initSection zram allocations).2 = 0 ∧
        (initSection zram allocations).1.disksize = (zramSetDisksize zram allocations.totalramBytes).disksize := by
  have error : -enomem ≠ 0 := by decide
  unfold initSection
  rw [if_neg (by simp [idle])]
  dsimp only
  split
  next missing => exact .inl ⟨.inl missing, error⟩
  next workmem =>
    split
    next missing => exact .inl ⟨.inr (.inl missing), error⟩
    next buffer =>
      split
      next missing => exact .inl ⟨.inr (.inr (.inl missing)), error⟩
      next table =>
        split
        next missing => exact .inl ⟨.inr (.inr (.inr missing)), error⟩
        next pool =>
          have enough : ¬ allocations.Short := by
            simp only [InitAllocations.Short, workmem, buffer, table, pool, or_self, not_false_eq_true]
          exact .inr ⟨enough, rfl, rfl⟩

theorem andPageMask_sectors {value : Nat} (small : value % 2 ^ bitsPerLong < pageSize) : andPageMask value / 2 ^ sectorShift = 0 := by
  rw [andPageMask, Nat.div_eq_of_lt small]
  rfl

theorem GenDisk.FailsQuietly.initCapacity {allocations : InitAllocations} (quiet : disk.FailsQuietly allocations)
    (idle : disk.zram.initDone = false) (short : allocations.Short) : disk.initCapacity allocations = 0 := by
  have silent := quiet idle short
  unfold GenDisk.initCapacity
  split at silent
  next missing => rw [if_pos (.inr missing), silent]
  next found =>
    rw [if_neg (by simpa [idle] using found)]
    exact andPageMask_sectors silent

theorem GenDisk.initDevice_announced (announced : disk.Announced) {allocations : InitAllocations} (quiet : disk.FailsQuietly allocations)
    {zram : Zram} {ret : Int} (taken : zramInitDevice disk.zram allocations = some (zram, ret)) :
    (⟨zram, disk.initCapacity allocations⟩ : GenDisk).Announced := by
  unfold zramInitDevice at taken
  cases ready : disk.zram.initDone with
  | true =>
    have unchanged : initSection disk.zram allocations = (disk.zram, 0) := if_pos ready
    have kept : disk.initCapacity allocations = disk.capacity := if_pos (.inl ready)
    rw [unchanged] at taken
    cases taken
    rw [kept]
    exact announced
  | false =>
    rcases initSection_result ready allocations with ⟨short, failed⟩ | ⟨enough, done, size⟩
    · obtain ⟨after, reset, same⟩ := Option.map_eq_some_iff.mp ((if_neg failed).symm.trans taken)
      cases same
      have empty : zram.disksize = 0 := zramResetDevice_disksize reset
      unfold GenDisk.Announced
      rw [quiet.initCapacity ready short, empty]
      rfl
    · obtain rfl : (initSection disk.zram allocations).1 = zram := congrArg Prod.fst (Option.some.inj ((if_pos done).symm.trans taken))
      simp only [InitAllocations.Short, not_or] at enough
      unfold GenDisk.Announced GenDisk.initCapacity
      rw [if_neg (by simp [ready, enough]), size]

theorem GenDisk.request_announced (announced : disk.Announced) {bio : Bio} (announces : disk.Announces (.bio bio))
    (taken : disk.makeRequest lzo bio = some after) : after.Announced := by
  obtain ⟨completion, served, rfl⟩ := Option.map_eq_some_iff.mp taken
  have unchanged (same : SameDevice disk.zram completion.zram) : (⟨completion.zram, disk.capacity⟩ : GenDisk).Announced :=
    announced.trans (by rw [same.disksize])
  unfold zramMakeRequest at served
  split at served
  next admitted =>
    cases bio with
    | read sector pages =>
      cases served
      exact unchanged (zramRead_same lzo disk.zram sector pages)
    | discard sector size => exact unchanged (zramDiscard_same served)
    | write sector segments allocations =>
      dsimp only at served ⊢
      rw [if_pos admitted]
      unfold zramWrite at served
      split at served
      next ready =>
        have kept : disk.initCapacity allocations = disk.capacity := if_pos (.inl ready)
        rw [kept]
        exact unchanged (writeInitialised_same served)
      next =>
        split at served
        next => cases served
        next zram ret started =>
          have begun := GenDisk.initDevice_announced announced (announces admitted) started
          split at served
          next => exact begun.trans (by rw [(writeInitialised_same served).disksize])
          next =>
            cases served
            exact begun
  next refused =>
    cases served
    cases bio with
    | write sector segments allocations =>
      dsimp only
      rw [if_neg refused]
      exact announced
    | _ => exact announced

/-- The step lemma. -/
theorem GenDisk.step_announced (announced : disk.Announced) (announces : disk.Announces event) (taken : disk.step lzo event = some after) :
    after.Announced := by
  cases event with
  | disksize value =>
    cases taken
    unfold GenDisk.disksizeStore
    dsimp only
    split
    next => exact announced
    next idle =>
      cases value with
      | none =>
        have unset : disk.zram.initDone = false := by simpa using idle
        have zero := announces unset
        unfold GenDisk.Announced at announced ⊢
        rw [announced, zero]
        simp [ZramDrv.disksizeStore, unset]
      | some bytes => rfl
  | reset holders value =>
    obtain ⟨⟨result, ret⟩, stored, rfl⟩ := Option.map_eq_some_iff.mp taken
    unfold GenDisk.resetStore at stored
    split at stored
    next =>
      cases stored
      exact announced
    next open_ =>
      obtain rfl : holders = false := by simpa using open_
      cases value with
      | none =>
        cases stored
        exact announced
      | some value =>
        cases value with
        | zero =>
          cases stored
          exact announced
        | succ value =>
          obtain ⟨zram, reset, same⟩ := Option.map_eq_some_iff.mp stored
          cases same
          unfold ZramDrv.resetStore at reset
          split at reset
          next ready =>
            have empty : zram.disksize = 0 := zramResetDevice_disksize reset
            have nothing : disk.capacity = 0 := announces ready
            unfold GenDisk.Announced
            rw [nothing, empty]
            rfl
          next =>
            cases reset
            exact announced
  | init allocations =>
    obtain ⟨result, moved, rfl⟩ := Option.map_eq_some_iff.mp taken
    obtain ⟨⟨zram, ret⟩, started, rfl⟩ := Option.map_eq_some_iff.mp moved
    exact GenDisk.initDevice_announced announced announces started
  | bio bio => exact GenDisk.request_announced announced announces taken
  | notify index =>
    obtain ⟨zram, notified, rfl⟩ := Option.map_eq_some_iff.mp taken
    unfold zramSlotFreeNotify at notified
    split at notified
    next => cases notified
    next =>
      obtain ⟨freed, released, rfl⟩ := Option.map_eq_some_iff.mp notified
      exact announced.trans (by rw [(zramFreePage_same released).disksize])

/-- A write to the attribute that returns an error changes nothing. -/
def GenDisk.ErrorsQuietly (disk : GenDisk) : Prop := ∀ value, disk.Announces (.disksize value) → (disk.disksizeStore value).2 ≠ 0 →
  (disk.disksizeStore value).1 = disk

theorem disksizeStore_quiet (disk : GenDisk) : disk.ErrorsQuietly := by
  intro value announces failed
  unfold GenDisk.disksizeStore at failed ⊢
  dsimp only at failed ⊢
  split at failed
  next ready => rw [if_pos ready]
  next idle =>
    rw [if_neg idle]
    cases value with
    | none =>
      have unset : disk.zram.initDone = false := by simpa using idle
      have zero := announces unset
      have same : ZramDrv.disksizeStore disk.zram none = disk.zram := by
        obtain ⟨⟨xv, table, stats, disksize, initDone, compressWorkmem, compressBuffer, tableAddress, memPool⟩, capacity⟩ := disk
        obtain rfl : disksize = 0 := zero
        exact if_neg idle
      rw [same]
    | some bytes => exact absurd rfl failed

theorem announced_runs {xv : XvState} (run : Run (GenDisk.step lzo) GenDisk.Announces (GenDisk.createDevice xv) disk) :
    disk.capacity = disk.zram.disksize / 2 ^ sectorShift ∧ disk.ErrorsQuietly := by
  refine ⟨run.invariant GenDisk.Announced ?_ fun announced announces taken => GenDisk.step_announced announced announces taken,
    disksizeStore_quiet disk⟩
  exact (Nat.zero_div _).symm

end Steps
end Life

section Sample
local instance sampleLife : Arch := Arch.x64

def freshDisk : GenDisk := GenDisk.createDevice ⟨⟨fun _ _ => 0, ∅⟩, xvCreatePool⟩

/-- Text that does not parse, initialisations that fail, a reset of a disk of no page,
then a disk of two pages written to, and more text that does not parse. -/
def quietEvents : List Event := [.disksize none, .init { granted with table := 0 }, .init { granted with totalramBytes := 4096, pool := 0 },
  .init { granted with totalramBytes := 4096 }, .reset false (some 1), .disksize (some 8192),
  .bio (.write 0 [(PageData.zeros, firstPage)] granted), .disksize none]

theorem announced_runs_sample : ∃ disk : GenDisk, Run (GenDisk.step Lzo.literal) GenDisk.Announces freshDisk disk ∧
    disk.zram.initDone = true ∧ disk.capacity = 16 ∧ disk.zram.disksize = 8192 ∧
    disk.capacity = disk.zram.disksize / 2 ^ sectorShift ∧ disk.ErrorsQuietly := by
  have reached : ∃ disk ∈ steps (tested (GenDisk.step Lzo.literal) fun disk event => decide (disk.Announces event)) freshDisk quietEvents,
      disk.zram.initDone = true ∧ disk.capacity = 16 ∧ disk.zram.disksize = 8192 := by
    decide +kernel
  obtain ⟨disk, taken, ready, capacity, size⟩ := reached
  have run : Run (GenDisk.step Lzo.literal) GenDisk.Announces freshDisk disk := .of_tested of_decide_eq_true taken
  exact ⟨disk, run, ready, capacity, size, announced_runs run⟩

/-- Text that does not parse leaves the disksize at 0 and the capacity as it was,
although the write fails; so does a reset. -/
theorem capacity_lags : (∃ disk, AnyRun (GenDisk.step Lzo.literal) freshDisk disk ∧
      (disk.disksizeStore none).2 ≠ 0 ∧ (disk.disksizeStore none).1.zram.disksize = 0 ∧ disk.zram.disksize = 8192 ∧
      (disk.disksizeStore none).1.capacity ≠ (disk.disksizeStore none).1.zram.disksize / 2 ^ sectorShift) ∧
    ∃ disk, AnyRun (GenDisk.step Lzo.literal) freshDisk disk ∧ disk.capacity = 16 ∧ disk.zram.disksize = 0 := by
  constructor
  · exact ⟨⟨sampleDisk.zram, 16⟩, .step .start (show True from trivial) (show GenDisk.step _ _ (.disksize (some 8192)) = _ from rfl),
      by decide, rfl, rfl, by decide⟩
  · exact AnyRun.exists_of_steps [.disksize (some 8192), .bio (.write 0 [] granted), .reset false (some 1)] ⟨_, rfl, rfl, rfl⟩

end Sample
end Compcache.ZramDrv
