import Compcache.Proofs.ZramLife
import Compcache.ZramMemory

/-! The memory of a device over its life: what a failed initialisation gives back,
and what a first write finds. -/

namespace Compcache.ZramDrv
open Library Library.PagedMemory Library.Blocks Library.Runs Xvmalloc

section Host
variable [Arch]

/-- A device without memory of its own. -/
structure Zram.Idle (zram : Zram) : Prop where
  initDone : zram.initDone = false
  compressWorkmem : zram.compressWorkmem = 0
  compressBuffer : zram.compressBuffer = 0
  tableAddress : zram.tableAddress = 0
  memPool : zram.memPool = 0

/-- A device as `zram_reset_device` leaves it. -/
def Zram.cleared (zram : Zram) : Zram :=
  { zram with
    table := fun _ => Entry.empty
    stats := Stats.zero
    disksize := 0
    initDone := false
    compressWorkmem := 0
    compressBuffer := 0
    tableAddress := 0
    memPool := 0 }

section Resets
variable {host after : Host} {first second third fourth : Allocated Block}

/-- The device with its buffers released, at the walk over the table. -/
def Host.atTable (host : Host) (blocks : Allocated Block) : Host :=
  ⟨{ host.zram with initDone := false, compressWorkmem := 0, compressBuffer := 0 }, blocks⟩

theorem Host.resetDevice_walk (workmem : Blocks.release Block.isKmalloc host.blocks host.zram.compressWorkmem = some first)
    (buffer : Blocks.release Block.isPages first host.zram.compressBuffer = some second) :
    host.resetDevice = ((host.atTable second).resetEntries (List.range host.zram.numPages)).bind fun host =>
      (host.release Block.isVmalloc host.zram.tableAddress).bind fun host =>
      (host.release Block.isKmalloc host.zram.memPool).map fun host =>
        { host with
          zram := { host.zram with table := fun _ => Entry.empty, stats := Stats.zero, disksize := 0, tableAddress := 0, memPool := 0 }
            } := by
  simp only [resetDevice, Host.release, workmem, buffer, Option.map_some, Option.bind_some]
  rfl

theorem Host.resetDevice_empty (workmem : Blocks.release Block.isKmalloc host.blocks host.zram.compressWorkmem = some first)
    (buffer : Blocks.release Block.isPages first host.zram.compressBuffer = some second)
    (walk : (host.atTable second).resetEntries (List.range host.zram.numPages) = some (host.atTable second))
    (table : Blocks.release Block.isVmalloc second host.zram.tableAddress = some third)
    (pool : Blocks.release Block.isKmalloc third host.zram.memPool = some fourth) :
    host.resetDevice = some ⟨host.zram.cleared, fourth⟩ := by
  rw [resetDevice_walk workmem buffer, walk, Option.bind_some]
  simp only [atTable, Host.release, table, pool, Option.map_some, Option.bind_some]
  rfl

theorem Host.resetDevice_missing (workmem : Blocks.release Block.isKmalloc host.blocks host.zram.compressWorkmem = some first)
    (buffer : Blocks.release Block.isPages first host.zram.compressBuffer = some second) (table : host.zram.tableAddress = 0)
    (pages : host.zram.numPages ≠ 0) : host.resetDevice = none := by
  obtain ⟨count, same⟩ := Nat.exists_eq_succ_of_ne_zero pages
  have range : List.range host.zram.numPages = 0 :: (List.range count).map Nat.succ := by rw [same, List.range_succ_eq_map]
  rw [resetDevice_walk workmem buffer, range, resetEntries, Host.entry,
    if_pos (show (host.atTable second).zram.tableAddress = 0 from table),
    Option.bind_none, Option.bind_none]

theorem Host.resetEntries_empty {indices : List Nat} (entries : ∀ index ∈ indices, host.entry index = some Entry.empty) :
    host.resetEntries indices = some host := by
  induction indices with
  | nil => rfl
  | cons index rest ih =>
    rw [resetEntries, entries index List.mem_cons_self, Option.bind_some, if_pos (show Entry.empty.page = noPage from rfl)]
    exact ih fun other member => entries other (List.mem_cons_of_mem _ member)

theorem Host.resetEntries_kept {indices : List Nat} (ended : host.resetEntries indices = some after) :
    ∃ xv, after = ⟨{ host.zram with xv }, host.blocks⟩ := by
  induction indices generalizing host with
  | nil => exact ⟨host.zram.xv, (Option.some.inj ended).symm⟩
  | cons index rest ih =>
    obtain ⟨entry, _, ended⟩ := Option.bind_eq_some_iff.mp ended
    split at ended
    next => exact ih ended
    next =>
      split at ended
      next =>
        obtain ⟨xv, _, ended⟩ := Option.bind_eq_some_iff.mp ended
        obtain ⟨last, rfl⟩ := ih ended
        exact ⟨last, rfl⟩
      next =>
        split at ended
        next => cases ended
        next =>
          obtain ⟨xv, _, ended⟩ := Option.bind_eq_some_iff.mp ended
          obtain ⟨last, rfl⟩ := ih ended
          exact ⟨last, rfl⟩

theorem Host.release_kept {accepts : Block → Bool} {address : Nat} (released : host.release accepts address = some after) :
    after.zram = host.zram := by
  obtain ⟨_, _, rfl⟩ := Option.map_eq_some_iff.mp released
  rfl

theorem Host.resetDevice_cleared (ended : host.resetDevice = some after) : ∃ xv, after.zram = { host.zram.cleared with xv } := by
  obtain ⟨one, workmem, ended⟩ := Option.bind_eq_some_iff.mp ended
  obtain ⟨two, buffer, ended⟩ := Option.bind_eq_some_iff.mp ended
  obtain ⟨three, walk, ended⟩ := Option.bind_eq_some_iff.mp ended
  obtain ⟨four, table, ended⟩ := Option.bind_eq_some_iff.mp ended
  obtain ⟨five, pool, rfl⟩ := Option.map_eq_some_iff.mp ended
  obtain ⟨xv, rfl⟩ := resetEntries_kept walk
  refine ⟨xv, ?_⟩
  dsimp only
  rw [release_kept pool, release_kept table]
  dsimp only
  rw [release_kept buffer, release_kept workmem]
  rfl

theorem Host.resetEntries_forgets {indices : List Nat} (ended : host.resetEntries indices = some after) :
    ZramDrv.resetEntries host.zram.xv (indices.map host.zram.table) = some after.zram.xv := by
  induction indices generalizing host with
  | nil =>
    cases ended
    rfl
  | cons index rest ih =>
    obtain ⟨entry, found, ended⟩ := Option.bind_eq_some_iff.mp ended
    obtain rfl : host.zram.table index = entry := by
      unfold Host.entry at found
      split at found
      next => cases found
      next =>
        split at found
        next =>
          split at found
          next => exact Option.some.inj found
          next => cases found
        next => cases found
    rw [List.map_cons, ZramDrv.resetEntries]
    split at ended
    next empty =>
      rw [if_pos empty]
      exact ih ended
    next stored =>
      rw [if_neg stored]
      split at ended
      next whole =>
        rw [if_pos whole]
        obtain ⟨xv, freed, ended⟩ := Option.bind_eq_some_iff.mp ended
        exact Option.bind_eq_some_iff.mpr ⟨xv, freed, ih ended⟩
      next object =>
        rw [if_neg object]
        split at ended
        next => cases ended
        next =>
          obtain ⟨xv, freed, ended⟩ := Option.bind_eq_some_iff.mp ended
          exact Option.bind_eq_some_iff.mpr ⟨xv, freed, ih ended⟩

theorem Host.resetDevice_forgets (ended : host.resetDevice = some after) : zramResetDevice host.zram = some after.zram := by
  have released {accepts : Block → Bool} {address : Nat} {before next : Host} (taken : before.release accepts address = some next) :
      ∃ blocks, Blocks.release accepts before.blocks address = some blocks ∧ next = ⟨before.zram, blocks⟩ := by
    obtain ⟨blocks, given, rfl⟩ := Option.map_eq_some_iff.mp taken
    exact ⟨blocks, given, rfl⟩
  have whole := ended
  obtain ⟨one, workmem, ended⟩ := Option.bind_eq_some_iff.mp ended
  obtain ⟨first, one, rfl⟩ := released workmem
  obtain ⟨two, buffer, _⟩ := Option.bind_eq_some_iff.mp ended
  obtain ⟨second, two, rfl⟩ := released buffer
  have one : Blocks.release Block.isKmalloc host.blocks host.zram.compressWorkmem = some first := one
  have two : Blocks.release Block.isPages first host.zram.compressBuffer = some second := two
  have mapped : ¬ (host.zram.tableAddress = 0 ∧ host.zram.numPages ≠ 0) := by
    rintro ⟨table, pages⟩
    rw [resetDevice_missing one two table pages] at whole
    cases whole
  rw [resetDevice_walk one two] at whole
  obtain ⟨three, walk, whole⟩ := Option.bind_eq_some_iff.mp whole
  obtain ⟨four, table, whole⟩ := Option.bind_eq_some_iff.mp whole
  obtain ⟨five, pool, rfl⟩ := Option.map_eq_some_iff.mp whole
  have entries : ZramDrv.resetEntries host.zram.xv ((List.range host.zram.numPages).map host.zram.table) = some three.zram.xv :=
    show ZramDrv.resetEntries (host.atTable second).zram.xv _ = _ from resetEntries_forgets walk
  rw [zramResetDevice, if_neg mapped, entries, release_kept pool, release_kept table]
  obtain ⟨xv, rfl⟩ := resetEntries_kept walk
  rfl

end Resets

/-- Each allocation of the call succeeds, and a quarter of the memory makes a page. -/
structure Choices.Plenty (choices : Choices) : Prop where
  workmem : ∀ blocks, (choices.workmem.pick blocks).isSome
  buffer : ∀ blocks, (choices.buffer.pick blocks).isSome
  table : ∀ blocks, (choices.table.pick blocks).isSome
  pool : ∀ blocks, (choices.pool.pick blocks).isSome
  default : pageSize ≤ defaultDisksizePercRam * (choices.totalramBytes / 100)

/-- A call that fails reports it and leaves the memory and the device as they were
before, and a call for which there is memory succeeds. -/
def Host.FailsCleanly (host : Host) (choices : Choices) : Prop :=
  ∃ after, host.initDevice choices = some (after, -enomem) ∧ after.blocks = host.blocks ∧ after.zram.initDone = false ∧
    ∀ later : Choices, later.Plenty → ∃ final, after.initDevice later = some (final, 0) ∧ final.zram.initDone = true

section Attempts
variable {host : Host} {choices : Choices} {missing : Missing}

def Host.sized (host : Host) (choices : Choices) : Zram := zramSetDisksize host.zram choices.totalramBytes

theorem Host.tableSize (host : Host) (choices : Choices) :
    (host.sized choices).numPages % 2 ^ bitsPerLong * tableEntrySize % 2 ^ bitsPerLong =
      (host.sized choices).numPages * tableEntrySize := by
  have bounded (value : Nat) : andPageMask value / pageSize = value % 2 ^ bitsPerLong / pageSize := by
    rw [andPageMask, Nat.mul_div_cancel _ (by decide)]
  have pages : ∃ value, (host.sized choices).numPages = value % 2 ^ bitsPerLong / pageSize := ⟨_, bounded _⟩
  obtain ⟨value, same⟩ := pages
  rw [same]
  rcases Arch.bitsPerLong_cases with width | width
  · rw [show tableEntrySize = 8 from if_pos width, width, pageSize_eq]
    omega
  · rw [show tableEntrySize = 16 from if_neg (by rw [width]; decide), width, pageSize_eq]
    omega

theorem Host.entry_present {table index size : Nat} (present : host.zram.tableAddress = table) (real : table ≠ 0)
    (block : host.blocks table = some (.vmalloc size)) (inside : (index + 1) * tableEntrySize ≤ size) :
    host.entry index = some (host.zram.table index) := by
  rw [Host.entry, present, if_neg real, block]
  exact if_pos inside

theorem tableEntrySize_pos : 0 < tableEntrySize := by
  unfold tableEntrySize
  split <;> decide

theorem Host.vmallocTable_sized (host : Host) (choices : Choices) {other : Host}
    (same : other.zram.disksize = (host.sized choices).disksize) (allocator : Allocator Block) :
    other.vmallocTable allocator = if (host.sized choices).numPages = 0 then none
      else Blocks.obtain other.blocks allocator (.vmalloc ((host.sized choices).numPages * tableEntrySize)) := by
  have pages : other.zram.numPages = (host.sized choices).numPages := congrArg (· / pageSize) same
  rw [vmallocTable, pages, tableSize]
  have entry := tableEntrySize_pos
  refine if_congr ?_ rfl rfl
  rw [Nat.mul_eq_zero]
  omega

/-- What the section under the init lock comes to: the first allocation that fails, or none. -/
inductive Host.Attempt (host : Host) (choices : Choices) : Host × Option Missing → Prop
  | workmem (failed : Blocks.obtain host.blocks choices.workmem Block.kmalloc = none) :
      Attempt host choices (⟨{ host.sized choices with compressWorkmem := 0 }, host.blocks⟩, some .workmem)
  | buffer {workmem : Nat} {first : Allocated Block} (one : Blocks.obtain host.blocks choices.workmem .kmalloc = some (workmem, first))
      (failed : Blocks.obtain first choices.buffer .getFreePages = none) :
      Attempt host choices (⟨{ host.sized choices with compressWorkmem := workmem, compressBuffer := 0 }, first⟩, some .buffer)
  | table {workmem buffer : Nat} {first second : Allocated Block}
      (one : Blocks.obtain host.blocks choices.workmem .kmalloc = some (workmem, first))
      (two : Blocks.obtain first choices.buffer .getFreePages = some (buffer, second))
      (failed : (host.sized choices).numPages = 0 ∨ (choices.table.pick second).isNone) :
      Attempt host choices
        (⟨{ host.sized choices with compressWorkmem := workmem, compressBuffer := buffer, tableAddress := 0, disksize := 0 }, second⟩,
        some .table)
  | pool {workmem buffer table : Nat} {first second third : Allocated Block}
      (one : Blocks.obtain host.blocks choices.workmem .kmalloc = some (workmem, first))
      (two : Blocks.obtain first choices.buffer .getFreePages = some (buffer, second))
      (three : Blocks.obtain second choices.table (.vmalloc ((host.sized choices).numPages * tableEntrySize)) = some (table, third))
      (failed : Blocks.obtain third choices.pool .kmalloc = none) :
      Attempt host choices
        (⟨{ host.sized choices with
            compressWorkmem := workmem
            compressBuffer := buffer
            tableAddress := table
            table := fun _ => Entry.empty
            memPool := 0 }, third⟩, some .pool)
  | done {workmem buffer table pool : Nat} {first second third fourth : Allocated Block}
      (one : Blocks.obtain host.blocks choices.workmem .kmalloc = some (workmem, first))
      (two : Blocks.obtain first choices.buffer .getFreePages = some (buffer, second))
      (three : Blocks.obtain second choices.table (.vmalloc ((host.sized choices).numPages * tableEntrySize)) = some (table, third))
      (four : Blocks.obtain third choices.pool .kmalloc = some (pool, fourth)) :
      Attempt host choices
        (⟨{ host.sized choices with
            compressWorkmem := workmem, compressBuffer := buffer, tableAddress := table, table := fun _ => Entry.empty, memPool := pool,
            xv := ⟨host.zram.xv.kernel, xvCreatePool⟩, initDone := true }, fourth⟩, none)

theorem Host.attempt (unused : host.zram.initDone = false) (choices : Choices) : host.Attempt choices (host.initSection choices) := by
  rw [initSection, if_neg (by simp [unused])]
  dsimp only
  cases one : Blocks.obtain host.blocks choices.workmem .kmalloc with
  | none => exact .workmem one
  | some first =>
    obtain ⟨workmem, first⟩ := first
    dsimp only
    cases two : Blocks.obtain first choices.buffer .getFreePages with
    | none => exact .buffer one two
    | some second =>
      obtain ⟨buffer, second⟩ := second
      dsimp only
      rw [vmallocTable_sized host choices rfl]
      split
      next none_ =>
        refine .table one two ?_
        split at none_
        next empty => exact .inl empty
        next => exact .inr (Option.isNone_iff_eq_none.mpr (Option.map_eq_none_iff.mp none_))
      next table third some_ =>
        split at some_
        next => cases some_
        next =>
          cases four : Blocks.obtain third choices.pool .kmalloc with
          | none => exact .pool one two some_ four
          | some fourth => exact .done one two some_ four

omit [Arch] in
theorem obtain_none {blocks : Allocated Block} {allocator : Allocator Block} {block : Block}
    (supplied : ∀ blocks, (allocator.pick blocks).isSome) : Blocks.obtain blocks allocator block ≠ none := by
  intro failed
  have some_ := supplied blocks
  rw [Option.map_eq_none_iff.mp failed] at some_
  cases some_

theorem Host.sized_default (unset : host.zram.disksize = 0) (plenty : choices.Plenty) : (host.sized choices).numPages ≠ 0 := by
  have enough := plenty.default
  have small : choices.totalramBytes < 2 ^ bitsPerLong := Nat.mod_lt _ (Nat.two_pow_pos _)
  have size : (host.sized choices).disksize = andPageMask (defaultDisksizePercRam * (choices.totalramBytes / 100)) := by
    rw [sized, zramSetDisksize, if_pos unset]
  have fits : defaultDisksizePercRam * (choices.totalramBytes / 100) < 2 ^ bitsPerLong := by
    rw [show defaultDisksizePercRam = 25 from rfl]
    omega
  rw [Zram.numPages, size, andPageMask, Nat.mod_eq_of_lt fits]
  simp only [pageSize_eq] at *
  omega

theorem Host.initDevice_plenty (unused : host.zram.initDone = false) (unset : host.zram.disksize = 0) (plenty : choices.Plenty) :
    ∃ final, host.initDevice choices = some (final, 0) ∧ final.zram.initDone = true := by
  have attempt := host.attempt unused choices
  generalize same : host.initSection choices = result at attempt
  rw [initDevice, same]
  cases attempt with
  | workmem failed => exact absurd failed (obtain_none plenty.workmem)
  | buffer _ failed => exact absurd failed (obtain_none plenty.buffer)
  | @table _ _ _ second _ _ failed =>
    rcases failed with empty | failed
    · exact absurd empty (sized_default unset plenty)
    · have some_ := plenty.table second
      rw [Option.isNone_iff_eq_none.mp failed] at some_
      cases some_
  | pool _ _ _ failed => exact absurd failed (obtain_none plenty.pool)
  | done => exact ⟨_, rfl, rfl⟩

/-- A first use that goes through is one of the device without its memory, for some
outcome of its allocations. -/
theorem Host.initDevice_forgets {after : Host} {ret : Int} (unused : host.zram.initDone = false)
    (ended : host.initDevice choices = some (after, ret)) :
    ∃ allocations : InitAllocations, allocations.totalramBytes = choices.totalramBytes ∧
      zramInitDevice host.zram allocations = some (after.zram, ret) := by
  have attempt := host.attempt unused choices
  rw [initDevice] at ended
  generalize host.initSection choices = result at attempt ended
  have failed {attempted : Host} {allocations : InitAllocations} (same : ZramDrv.initSection host.zram allocations =
    (attempted.zram, -enomem))
      (ended : (attempted.resetDevice.map fun host => (host, -enomem)) = some (after, ret)) : zramInitDevice host.zram allocations =
          some (after.zram, ret) := by
    obtain ⟨last, reset, paired⟩ := Option.map_eq_some_iff.mp ended
    cases paired
    rw [zramInitDevice, same, if_neg (show ¬ -enomem = 0 by decide), resetDevice_forgets reset]
    rfl
  have entered : ¬ host.zram.initDone = true := by simp [unused]
  cases attempt with
  | workmem => exact ⟨⟨_, 0, 0, 0, 0⟩, rfl, failed (by rw [ZramDrv.initSection, if_neg entered]; rfl) ended⟩
  | @buffer workmem first one =>
    have some_ := Nat.ne_of_gt (obtain_spec one).2.1
    refine ⟨⟨_, workmem, 0, 0, 0⟩, rfl, failed ?_ ended⟩
    simp only [ZramDrv.initSection, unused, some_, Bool.false_eq_true, if_false, if_true]
    rfl
  | @table workmem buffer first second one two =>
    have some_ := Nat.ne_of_gt (obtain_spec one).2.1
    have pages := Nat.ne_of_gt (obtain_spec two).2.1
    refine ⟨⟨_, workmem, buffer, 0, 0⟩, rfl, failed ?_ ended⟩
    simp only [ZramDrv.initSection, unused, some_, pages, Bool.false_eq_true, if_false, if_true]
    rfl
  | @pool workmem buffer table first second third one two three =>
    have some_ := Nat.ne_of_gt (obtain_spec one).2.1
    have pages := Nat.ne_of_gt (obtain_spec two).2.1
    have mapped := Nat.ne_of_gt (obtain_spec three).2.1
    refine ⟨⟨_, workmem, buffer, table, 0⟩, rfl, failed ?_ ended⟩
    simp only [ZramDrv.initSection, unused, some_, pages, mapped, Bool.false_eq_true, if_false, if_true]
    rfl
  | @done workmem buffer table pool first second third fourth one two three four =>
    have some_ := Nat.ne_of_gt (obtain_spec one).2.1
    have pages := Nat.ne_of_gt (obtain_spec two).2.1
    have mapped := Nat.ne_of_gt (obtain_spec three).2.1
    have pooled := Nat.ne_of_gt (obtain_spec four).2.1
    cases ended
    refine ⟨⟨_, workmem, buffer, table, pool⟩, rfl, ?_⟩
    simp only [zramInitDevice, ZramDrv.initSection, unused, some_, pages, mapped, pooled, Bool.false_eq_true, if_false, if_true]
    rfl

theorem Host.FailsCleanly.of_reset {attempted : Host} (same : host.initSection choices = (attempted, some missing))
    (reset : attempted.resetDevice = some ⟨attempted.zram.cleared, host.blocks⟩) : host.FailsCleanly choices := by
  refine ⟨⟨attempted.zram.cleared, host.blocks⟩, ?_, rfl, rfl, fun later plenty => ?_⟩
  · rw [initDevice, same]
    dsimp only
    rw [reset]
    rfl
  · exact initDevice_plenty rfl rfl plenty

/-- A failure before there is a table is cleaned up if the device has no pages to look for. -/
theorem Host.failsCleanly_unmapped {attempted : Host} {first : Allocated Block}
    (same : host.initSection choices = (attempted, some missing))
    (workmem : Blocks.release Block.isKmalloc attempted.blocks attempted.zram.compressWorkmem = some first)
    (buffer : Blocks.release Block.isPages first attempted.zram.compressBuffer = some host.blocks)
    (table : attempted.zram.tableAddress = 0) (pool : attempted.zram.memPool = 0) :
    host.FailsCleanly choices ↔ attempted.zram.numPages = 0 := by
  constructor
  · rintro ⟨after, ended, _⟩
    apply Classical.byContradiction
    intro pages
    rw [initDevice, same] at ended
    dsimp only at ended
    rw [resetDevice_missing workmem buffer table pages] at ended
    cases ended
  · intro empty
    refine .of_reset same (resetDevice_empty workmem buffer ?_ (?_ : _ = some host.blocks) ?_)
    · rw [empty]
      rfl
    · rw [table, release_null]
    · rw [pool, release_null]

theorem Host.failsCleanly_idle (idle : host.zram.Idle) (fails : (host.initSection choices).2 = some missing) :
    host.FailsCleanly choices ↔ missing = .table ∨ missing = .pool ∨ (host.sized choices).numPages = 0 := by
  have attempt := host.attempt idle.initDone choices
  generalize same : host.initSection choices = result at attempt fails
  have table : (host.sized choices).tableAddress = 0 := idle.tableAddress
  have pool : (host.sized choices).memPool = 0 := idle.memPool
  have buffer : (host.sized choices).compressBuffer = 0 := idle.compressBuffer
  cases attempt with
  | workmem failed =>
    cases fails
    rw [failsCleanly_unmapped same release_null (by dsimp only; rw [buffer, release_null]) table pool]
    simp [Zram.numPages]
  | @buffer workmem first one failed =>
    cases fails
    obtain ⟨vacant, positive, rfl⟩ := obtain_spec one
    rw [failsCleanly_unmapped same (release_held vacant positive rfl) rfl table pool]
    simp [Zram.numPages]
  | @table workmem buffer first second one two failed =>
    cases fails
    obtain ⟨vacant, positive, rfl⟩ := obtain_spec one
    obtain ⟨free, real, rfl⟩ := obtain_spec two
    obtain ⟨apart, free⟩ := vacant_beside free
    have first : Blocks.release Block.isKmalloc (Function.update (Function.update host.blocks workmem (some .kmalloc)) buffer
      (some .getFreePages)) workmem =
        some (Function.update host.blocks buffer (some .getFreePages)) := release_behind apart (release_held vacant positive rfl)
    rw [failsCleanly_unmapped same first (release_held free real rfl) rfl pool]
    simp [Zram.numPages]
  | @pool workmem buffer table first second third one two three failed =>
    cases fails
    obtain ⟨vacant, positive, rfl⟩ := obtain_spec one
    obtain ⟨free, real, rfl⟩ := obtain_spec two
    obtain ⟨unused, there, rfl⟩ := obtain_spec three
    obtain ⟨apart, free⟩ := vacant_beside free
    obtain ⟨behind, unused⟩ := vacant_beside unused
    obtain ⟨beside, unused⟩ := vacant_beside unused
    generalize size : (host.sized choices).numPages * tableEntrySize = bytes at *
    have first : Blocks.release Block.isKmalloc
        (Function.update (Function.update (Function.update host.blocks workmem (some .kmalloc)) buffer (some .getFreePages)) table
          (some (.vmalloc bytes))) workmem =
          some (Function.update (Function.update host.blocks buffer (some .getFreePages)) table (some (.vmalloc bytes))) :=
      release_behind beside (release_behind apart (release_held vacant positive rfl))
    have second : Blocks.release Block.isPages (Function.update (Function.update host.blocks buffer (some .getFreePages)) table
      (some (.vmalloc bytes))) buffer =
        some (Function.update host.blocks table (some (.vmalloc bytes))) := release_behind behind (release_held free real rfl)
    have third : Blocks.release Block.isVmalloc (Function.update host.blocks table (some (.vmalloc bytes))) table = some host.blocks :=
      release_held unused there rfl
    refine iff_of_true ?_ (.inr (.inl rfl))
    refine .of_reset same (resetDevice_empty first second ?_ third rfl)
    refine resetEntries_empty fun index inside => ?_
    refine entry_present rfl (Nat.ne_of_gt there) (Function.update_self ..) ?_
    rw [← size]
    exact Nat.mul_le_mul_right _ (List.mem_range.mp inside)
  | done => cases fails

end Attempts

section Lives
variable {lzo : Lzo} {host after : Host} {xv : XvState} {blocks : Allocated Block} {missing : Missing}

/-- A device is initialised or has no memory. -/
def Host.Settled (host : Host) : Prop := host.zram.initDone = true ∨ host.zram.Idle

theorem Host.Settled.of_same {zram : Zram} (ready : host.zram.initDone = true) (same : SameDevice host.zram zram) :
    Host.Settled ⟨zram, blocks⟩ :=
  .inl (same.initDone.trans ready)

theorem Host.Settled.of_reset (ended : host.resetDevice = some after) : after.Settled := by
  obtain ⟨xv, cleared⟩ := resetDevice_cleared ended
  refine .inr ?_
  rw [cleared]
  exact ⟨rfl, rfl, rfl, rfl, rfl⟩

theorem Host.initDevice_settled (unused : host.zram.initDone = false) {choices : Choices} {ret : Int}
    (ended : host.initDevice choices = some (after, ret)) :
    (ret = 0 ∧ after.zram.initDone = true) ∨ (ret ≠ 0 ∧ after.Settled) := by
  have attempt := host.attempt unused choices
  rw [initDevice] at ended
  generalize host.initSection choices = result at attempt ended
  have failed {attempted : Host} (ended : (attempted.resetDevice.map fun host => (host, -enomem)) = some (after, ret)) : ret ≠ 0 ∧
      after.Settled := by
    obtain ⟨last, reset, same⟩ := Option.map_eq_some_iff.mp ended
    cases same
    exact ⟨by decide, .of_reset reset⟩
  cases attempt with
  | workmem => exact .inr (failed ended)
  | buffer => exact .inr (failed ended)
  | table => exact .inr (failed ended)
  | pool => exact .inr (failed ended)
  | done =>
    cases ended
    exact .inl ⟨rfl, rfl⟩

theorem Host.write_settled {sector : Nat} {segments : List (PageData × PageAllocator)} {choices : Choices} {reply : Reply}
    (ended : host.write lzo sector segments choices = some reply) : reply.host.Settled := by
  have finish {other : Host} (ready : other.zram.initDone = true)
      (ended : ((writeInitialised lzo other.zram sector segments).map other.complete) = some reply) : reply.host.Settled := by
    obtain ⟨completion, written, rfl⟩ := Option.map_eq_some_iff.mp ended
    exact .of_same ready (writeInitialised_same written)
  rw [Host.write] at ended
  split at ended
  next ready => exact finish ready ended
  next unused =>
    obtain ⟨⟨other, ret⟩, initialised, ended⟩ := Option.bind_eq_some_iff.mp ended
    dsimp only at ended
    rcases initDevice_settled (Bool.eq_false_iff.mpr unused) initialised with ⟨zero, ready⟩ | ⟨error, settled⟩
    · rw [if_pos zero] at ended
      exact finish ready ended
    · rw [if_neg error] at ended
      cases ended
      exact settled

theorem Host.Settled.congr {zram : Zram} (settled : host.Settled)
    (same : zram = { host.zram with xv := zram.xv, table := zram.table, stats := zram.stats, disksize := zram.disksize }) :
    Host.Settled ⟨zram, blocks⟩ := by
  rcases settled with ready | ⟨initDone, workmem, buffer, table, pool⟩
  · refine .inl ?_
    rw [same]
    exact ready
  · refine .inr ?_
    rw [same]
    exact ⟨initDone, workmem, buffer, table, pool⟩

theorem Host.step_settled (settled : host.Settled) {call : Call} (taken : host.step lzo call = some after) : after.Settled := by
  cases call with
  | disksize value =>
    cases taken
    refine settled.congr ?_
    unfold disksizeStore
    split
    next => rfl
    next => cases value <;> rfl
  | reset =>
    simp only [Host.step] at taken
    split at taken
    next => exact .of_reset taken
    next =>
      cases taken
      exact settled
  | notify index =>
    obtain ⟨zram, freed, rfl⟩ := Option.map_eq_some_iff.mp taken
    rcases settled with ready | idle
    · simp only [zramSlotFreeNotify] at freed
      split at freed
      next => cases freed
      next =>
        obtain ⟨last, released, rfl⟩ := Option.map_eq_some_iff.mp freed
        exact .inl ((zramFreePage_same released).initDone.trans ready)
    · rw [zramSlotFreeNotify, if_pos idle.tableAddress] at freed
      cases freed
  | bio bio choices =>
    obtain ⟨reply, ended, rfl⟩ := Option.map_eq_some_iff.mp taken
    unfold makeRequest at ended
    split at ended
    next =>
      cases bio with
      | read sector pages =>
        cases ended
        rcases settled with ready | idle
        · exact .of_same ready (zramRead_same lzo host.zram sector pages)
        · refine .inr ?_
          show (zramRead lzo host.zram sector pages).zram.Idle
          rw [zramRead, if_neg (by simp [idle.initDone])]
          exact idle
      | write sector segments allocations => exact write_settled ended
      | discard sector size =>
        obtain ⟨completion, discarded, rfl⟩ := Option.map_eq_some_iff.mp ended
        rcases settled with ready | idle
        · exact .of_same ready (zramDiscard_same discarded)
        · rw [zramDiscard, if_neg (by simp [idle.initDone])] at discarded
          cases discarded
          exact .inr ⟨idle.initDone, idle.compressWorkmem, idle.compressBuffer, idle.tableAddress, idle.memPool⟩
    next =>
      cases ended
      exact settled.congr rfl

/-- Whenever a device is not initialised, a first use of it that fails cleans up
after itself just when it is the table or the pool that could not be had, or the
device has no pages yet. -/
theorem failsCleanly_iff (run : AnyRun (Host.step lzo) (Host.create xv blocks) host)
    (unused : host.zram.initDone = false) {choices : Choices}
    (fails : (host.initSection choices).2 = some missing) :
    host.FailsCleanly choices ↔ missing = .table ∨ missing = .pool ∨ (zramSetDisksize host.zram choices.totalramBytes).numPages = 0 := by
  have settled : host.Settled :=
    run.invariant Host.Settled (.inr ⟨rfl, rfl, rfl, rfl, rfl⟩) fun settled _ taken => Host.step_settled settled taken
  rcases settled with ready | idle
  · rw [unused] at ready
    cases ready
  · exact Host.failsCleanly_idle idle fails

def Host.Renewed (lzo : Lzo) (xv : XvState) (blocks : Allocated Block) (host : Host) : Prop :=
  host = Host.create xv blocks ∨ ∃ before, AnyRun (Host.step lzo) (Host.create xv blocks) before ∧ before.resetDevice = some host

def Call.Unsized : Call → Prop
  | disksize _ => False
  | _ => True

/-- A write to the device finds it of the default size, and what is written is read back. -/
def Host.Defaults (lzo : Lzo) (host : Host) (sector : Nat) (data : PageData) (allocator : PageAllocator) (choices : Choices) : Prop :=
  ∀ unread, ∃ reply last, host.makeRequest lzo (.write sector [(data, allocator)] unread) choices = some reply ∧ reply.ok = true ∧
    reply.host.zram.initDone = true ∧ reply.host.zram.disksize = andPageMask (defaultDisksizePercRam * (choices.totalramBytes / 100)) ∧
    reply.host.makeRequest lzo (.read sector [PageData.zeros]) choices = some last ∧ last.ok = true ∧ last.pages = [data]

theorem validIoRequest_unset {zram : Zram} (unset : zram.disksize = 0) (bio : Bio) : validIoRequest zram bio = false := by
  rw [validIoRequest, unset, Nat.zero_div]
  exact decide_eq_false (not_not.mpr (.inl (Nat.zero_le _)))

theorem Host.makeRequest_unset (unset : host.zram.disksize = 0) (bio : Bio) (choices : Choices) :
    host.makeRequest lzo bio choices =
      some ⟨{ host with zram := { host.zram with stats := { host.zram.stats with invalidIo := zramStat64Inc host.zram.stats.invalidIo } } },
        false, []⟩ :=
  if_neg (by rw [validIoRequest_unset unset]; decide)

theorem Host.step_unsized (unset : host.zram.disksize = 0 ∧ host.zram.initDone = false) {call : Call} (unsized : call.Unsized)
    (taken : host.step lzo call = some after) : after.zram.disksize = 0 ∧ after.zram.initDone = false := by
  cases call with
  | disksize value => exact unsized.elim
  | reset =>
    rw [Host.step, if_neg (by simp [unset.2])] at taken
    cases taken
    exact unset
  | notify index =>
    obtain ⟨zram, notified, rfl⟩ := Option.map_eq_some_iff.mp taken
    unfold zramSlotFreeNotify at notified
    split at notified
    next => cases notified
    next =>
      obtain ⟨last, freed, rfl⟩ := Option.map_eq_some_iff.mp notified
      have same := zramFreePage_same freed
      exact ⟨same.disksize.trans unset.1, same.initDone.trans unset.2⟩
  | bio bio choices =>
    obtain ⟨reply, ended, rfl⟩ := Option.map_eq_some_iff.mp taken
    rw [makeRequest_unset unset.1] at ended
    cases ended
    exact unset

/-- The default size is never the size a write is checked against: without a size
written first, every write to a fresh device or one that was reset is refused. -/
theorem default_unused (renewed : Host.Renewed lzo xv blocks host) (run : Run (Host.step lzo) (fun _ call => call.Unsized) host after)
    (sector : Nat) (data : PageData) (allocator : PageAllocator) (choices : Choices) :
    ¬ after.Defaults lzo sector data allocator choices := by
  have start : host.zram.disksize = 0 ∧ host.zram.initDone = false := by
    rcases renewed with rfl | ⟨before, _, ended⟩
    · exact ⟨rfl, rfl⟩
    · obtain ⟨xv, cleared⟩ := Host.resetDevice_cleared ended
      rw [cleared]
      exact ⟨rfl, rfl⟩
  have unset := run.invariant (fun host => host.zram.disksize = 0 ∧ host.zram.initDone = false) start
    fun unset unsized taken => Host.step_unsized unset unsized taken
  intro defaults
  obtain ⟨reply, _, ended, ok, _⟩ := defaults ⟨0, 0, 0, 0, 0⟩
  rw [Host.makeRequest_unset unset.1] at ended
  cases ended
  cases ok

end Lives
end Host

section Sample
local instance memoryArch : Arch := Arch.x64

/-- Memory of a thousand pages, and whatever of the four blocks is asked for, or not. -/
def choicesWith (workmem table : Bool) : Choices where
  totalramPages := 1000
  workmem := if workmem then .offering 1 (by decide) else .exhausted
  buffer := .offering 2 (by decide)
  table := if table then .offering 3 (by decide) else .exhausted
  pool := .offering 4 (by decide)

/-- A device of two pages that nobody has used yet. -/
def unusedHost : Host := ⟨disksizeStore (createDevice emptyPool) (some 8192), fun _ => none⟩

theorem unusedHost_reached : AnyRun (Host.step Lzo.literal) (Host.create emptyPool fun _ => none) unusedHost :=
  .step .start trivial (show Host.step Lzo.literal _ (.disksize (some 8192)) = some unusedHost from rfl)

theorem failsCleanly_iff_sample : unusedHost.FailsCleanly (choicesWith true false) :=
  (failsCleanly_iff unusedHost_reached rfl (show (unusedHost.initSection (choicesWith true false)).2 = some .table by decide)).mpr
    (.inl rfl)

/-- Without memory for the compressor the walk goes over a table that is not there. -/
theorem reset_walks_null : ∃ host, AnyRun (Host.step Lzo.literal) (Host.create emptyPool fun _ => none) host ∧ host.zram.initDone = false ∧
    (host.initSection (choicesWith false true)).2 = some .workmem ∧ host.initDevice (choicesWith false true) = none :=
  ⟨unusedHost, unusedHost_reached, rfl, by decide, Option.isNone_iff_eq_none.mp (by decide +kernel)⟩

/-- A page is written to the first sector of a fresh device: there is memory for all of it. -/
theorem first_write_refused :
    ∃ reply, (Host.create emptyPool fun _ => none).makeRequest Lzo.literal (.write 0 [(PageData.filled 1, firstPage)] ⟨0, 0, 0, 0, 0⟩)
    (choicesWith true true) = some reply ∧ reply.ok = false ∧ reply.host.zram.initDone = false ∧
      ((Host.create emptyPool fun _ => none).initSection (choicesWith true true)).2 = none ∧
        (zramSetDisksize (createDevice emptyPool) (choicesWith true true).totalramBytes).disksize = 1024000 :=
  ⟨_, rfl, rfl, rfl, by decide +kernel, by decide +kernel⟩

theorem default_unused_sample : ¬ (Host.create emptyPool fun _ => none).Defaults Lzo.literal 0 (PageData.filled 1) firstPage
    (choicesWith true true) :=
  default_unused (.inl rfl) .start 0 (PageData.filled 1) firstPage (choicesWith true true)

end Sample
end Compcache.ZramDrv
