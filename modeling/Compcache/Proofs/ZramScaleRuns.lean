import Compcache.Proofs.ZramRuns
import Compcache.Proofs.ZramScalePages

/-! Whole requests on the variant's device, and whole runs of it. -/

namespace Compcache.ZramScale
open Library.PagedMemory Library.Ownership Library.PerCpu Library.Runs Xvmalloc
open ZramDrv (Slot Content Disk tally discarded discarded_nothing discarded_next next_index sectorsPerPage sectorShift andPageMask)

variable {Cpu : Type} [Arch] [DecidableEq Cpu] [Fintype Cpu]

section Loops
variable {lzo : Lzo} {others : Finset Page} {zram : Zram Cpu} {slots : Nat → Slot} {held : Storage → Prop} {disk : Disk} {index : Nat}

theorem Sound.addStat (sound : Sound lzo others zram slots held disk) (cpu : Cpu) (stat : Stat) (value : Int)
    (uncounted : stat.weight = none) :
    ∃ after, zramAddStat zram cpu stat value = some after ∧ Sound lzo others after slots held disk ∧ SameDevice zram after := by
  obtain ⟨counters, present, tallied⟩ := sound.counted
  exact ⟨_, zramAddStat_some present _ _ _,
    ⟨sound.stored, sound.entries, sound.placed, ⟨_, rfl, tallied.other cpu value uncounted⟩, sound.inside⟩,
    ⟨rfl, rfl, rfl⟩⟩

/-- What a page reads as after a segment of a write: what was written, if it was
zeros or compresses well; else what its new page held before. -/
inductive Shown (lzo : Lzo) (segment : Segment Cpu) : Flow → Option PageData → Prop
  | lost : Shown lzo segment .out none
  | written {flow : Flow} (ended : flow ≠ .out) (good : pageZeroFilled segment.data = true ∨ Compressible lzo segment.data) :
      Shown lzo segment flow (some segment.data)
  | expanded {before after : Kernel} {page : Page} (nonzero : pageZeroFilled segment.data = false) (large : ¬ Compressible lzo segment.data)
      (taken : before.allocPage segment.allocator = some (page, after)) : Shown lzo segment .next (some (PageData.copy after.memory page 0))

theorem Sound.writeSegment (sound : Sound lzo others zram slots held disk) (inside : index < zram.numPages ∧ index < 2 ^ 32)
    {segment : Segment Cpu} (low : Low segment.allocator) : ∃ after flow new now shown, writeSegment lzo zram index segment =
      some (after, flow) ∧
      Sound lzo others after (Function.update slots index new) now (Function.update disk index shown) ∧ SameDevice zram after ∧
      Shown lzo segment flow shown := by
  obtain ⟨freed, now, released, empty, same⟩ := sound.freePage inside.2 segment.freeing
  obtain ⟨result, stored, ended⟩ := empty.storeSegment ⟨same.numPages ▸ inside.1, inside.2⟩ (Function.update_self ..) low
  have written : ZramScale.writeSegment lzo zram index segment = some result := by
    rw [ZramScale.writeSegment, released]
    exact stored
  cases ended with
  | again filled later sound =>
    rw [Function.update_idem, Function.update_idem] at sound
    exact ⟨_, _, _, _, _, written, sound, same.trans later, .written nofun (.inl filled)⟩
  | next later nonzero fits expanded sound =>
    rw [Function.update_idem, Function.update_idem] at sound
    refine ⟨_, _, _, _, _, written, sound, same.trans later, ?_⟩
    rcases Classical.em (Compressible lzo segment.data) with small | large
    · rw [fits small]
      exact .written nofun (.inr small)
    · obtain ⟨page, kernel, taken, rfl⟩ := expanded large
      exact .expanded nonzero large taken
  | out later sound => exact ⟨_, _, _, _, _, written, sound, same.trans later, .lost⟩

theorem Sound.writeSegment_provided (sound : Sound lzo others zram slots held disk) (small : index < 2 ^ 32) {segment : Segment Cpu}
    (provided : segment.Provided lzo (others.card + zram.numPages)) {after : Zram Cpu} {flow : Flow}
    (written : ZramScale.writeSegment lzo zram index segment = some (after, flow)) : flow ≠ .out := by
  obtain ⟨freed, now, released, sound, same⟩ := sound.freePage small segment.freeing
  rw [ZramScale.writeSegment, released, Option.bind_some] at written
  exact sound.storeSegment_provided (same.numPages ▸ provided) written

theorem Sound.writeSegments (sound : Sound lzo others zram slots held disk) {segments : List (Segment Cpu)}
    (low : ∀ segment ∈ segments, Low segment.allocator) (small : index < 2 ^ 32) (inside : index + segments.length ≤ zram.numPages) :
    ∃ completion filled now final, writeSegments lzo zram index segments = some completion ∧
      Sound lzo others completion.zram filled now final ∧ SameDevice zram completion.zram ∧
      (index + segments.length ≤ 2 ^ 32 → ∀ other, other < index ∨ index + segments.length ≤ other → filled other = slots other) := by
  induction segments generalizing zram slots held disk index with
  | nil => exact ⟨_, slots, held, disk, rfl, sound, .refl zram, fun _ _ _ => rfl⟩
  | cons segment rest ih =>
    rw [List.length_cons] at inside
    obtain ⟨here, later⟩ := List.forall_mem_cons.mp low
    obtain ⟨after, flow, new, now, shown, written, sound, same, _⟩ := sound.writeSegment ⟨by omega, small⟩ here
    unfold ZramScale.writeSegments
    rw [written]
    have onwards {next : Nat} (low : next < 2 ^ 32) (next_inside : next + rest.length ≤ zram.numPages)
        (lags : index + (rest.length + 1) ≤ 2 ^ 32 → rest.length = 0 ∨ index ≤ next ∧ next ≤ index + 1) : ∃ completion filled now final,
          ZramScale.writeSegments lzo after next rest = some completion ∧ Sound lzo others completion.zram filled now final ∧
          SameDevice zram completion.zram ∧
          (index + (rest.length + 1) ≤ 2 ^ 32 → ∀ other, other < index ∨ index + (rest.length + 1) ≤ other →
              filled other = slots other) := by
      obtain ⟨completion, filled, now, final, ended, sound, rest_same, frame⟩ := ih sound later low (same.numPages ▸ next_inside)
      refine ⟨completion, filled, now, final, ended, sound, same.trans rest_same, fun short other outside => ?_⟩
      have near := lags short
      rw [frame (by omega) other (by omega), Function.update_of_ne (by omega)]
    cases flow with
    | out =>
      refine ⟨_, _, _, _, rfl, sound, same, fun _ other outside => Function.update_of_ne ?_ ..⟩
      rw [List.length_cons] at outside
      omega
    | again => exact onwards small (show index + rest.length ≤ zram.numPages by omega) fun _ => .inr ⟨Nat.le_refl _, Nat.le_succ _⟩
    | next =>
      refine onwards (Nat.mod_lt _ (by decide)) (next_index index inside) fun short => ?_
      rcases Nat.eq_zero_or_pos rest.length with last | more
      · exact .inl last
      · rw [Flow.index, Nat.mod_eq_of_lt (show index + 1 < 2 ^ 32 by omega)]
        exact .inr ⟨Nat.le_succ _, Nat.le_refl _⟩

theorem bitsPerLong_page {index : Nat} (small : index < 2 ^ 32) : index % 2 ^ bitsPerLong = index := by
  have wide : 32 ≤ bitsPerLong := by
    rcases Arch.bitsPerLong_cases with word | word <;> omega
  exact Nat.mod_eq_of_lt (Nat.lt_of_lt_of_le small (Nat.pow_le_pow_right (by decide) wide))

theorem Sound.discardBytes (sound : Sound lzo others zram slots held disk) (placement : Nat → Placement Cpu) (sector bytes : Nat)
    (low : sector / sectorsPerPage + bytes / pageSize ≤ 2 ^ 32) : ∃ after filled now final,
      discardBytes zram placement sector bytes = some after ∧ Sound lzo others after filled now final ∧ SameDevice zram after ∧
      final = discarded disk (sector / sectorsPerPage) (bytes / pageSize) ∧
      ∀ other, filled other = if sector / sectorsPerPage ≤ other ∧
        other < sector / sectorsPerPage + bytes / pageSize then .empty else slots other := by
  obtain ⟨count, size⟩ : ∃ count, bytes / pageSize = count := ⟨_, rfl⟩
  induction count generalizing zram slots held disk sector bytes with
  | zero =>
    refine ⟨zram, slots, held, disk, ?_, sound, .refl zram, ?_, fun other => ?_⟩
    · unfold ZramScale.discardBytes
      rw [if_neg]
      intro enough
      have positive := Nat.div_pos enough (show 0 < pageSize by decide)
      omega
    · rw [size, discarded_nothing]
    · rw [size, if_neg (by omega)]
  | succ count ih =>
    have enough : bytes ≥ pageSize := by
      by_contra short
      rw [Nat.div_eq_of_lt (Nat.lt_of_not_le short)] at size
      omega
    have fewer : (bytes - pageSize) / pageSize = count := by
      simp only [pageSize_eq] at *
      omega
    have onwards : (sector + pageSize / 2 ^ sectorShift) / sectorsPerPage = sector / sectorsPerPage + 1 :=
      Nat.add_div_right sector (by decide)
    have first : sector / sectorsPerPage < 2 ^ 32 := by omega
    obtain ⟨freed, now, released, sound, same⟩ := sound.freePage first (placement sector)
    obtain ⟨after, filled, now, final, ended, sound, later, shows, frame⟩ :=
      ih sound (sector + pageSize / 2 ^ sectorShift) (bytes - pageSize) (by rw [onwards, fewer]; omega) fewer
    refine ⟨after, filled, now, final, ?_, sound, same.trans later, ?_, fun other => ?_⟩
    · unfold ZramScale.discardBytes
      rw [if_pos enough, bitsPerLong_page first, released, Option.bind_some, ended]
    · rw [shows, onwards, fewer, size, discarded_next]
    · rw [frame, onwards, fewer, size]
      rcases Classical.em (other = sector / sectorsPerPage) with rfl | elsewhere
      · rw [if_neg (by omega), if_pos (by omega), Function.update_self]
      · rw [Function.update_of_ne elsewhere]
        refine if_congr ?_ rfl rfl
        omega

theorem Sound.freePages (sound : Sound lzo others zram slots held disk) (placement : Nat → Placement Cpu) (indices : List Nat)
    (low : ∀ index ∈ indices, index < 2 ^ 32) : ∃ after filled now final,
      freePages zram placement indices = some after ∧ Sound lzo others after filled now final ∧ SameDevice zram after ∧
      ∀ other, filled other = if other ∈ indices then .empty else slots other := by
  induction indices generalizing zram slots held disk with
  | nil => exact ⟨zram, slots, held, disk, rfl, sound, .refl zram, fun other => by simp⟩
  | cons index rest ih =>
    obtain ⟨first, later⟩ := List.forall_mem_cons.mp low
    obtain ⟨freed, now, released, sound, same⟩ := sound.freePage first (placement index)
    obtain ⟨after, filled, now, final, ended, sound, kept, frame⟩ := ih sound later
    refine ⟨after, filled, now, final, ?_, sound, same.trans kept, fun other => ?_⟩
    · rw [ZramScale.freePages, released, Option.bind_some, ended]
    · rw [frame]
      rcases Classical.em (other = index) with rfl | elsewhere
      · simp
      · simp [elsewhere]

end Loops

section Reset
variable {lzo : Lzo} {others : Finset Page} {zram after : Zram Cpu} {slots : Nat → Slot} {held : Storage → Prop} {disk : Disk}

omit [Fintype Cpu] in
theorem freePages_append (zram : Zram Cpu) (placement : Nat → Placement Cpu) (first second : List Nat) :
    freePages zram placement (first ++ second) = (freePages zram placement first).bind fun zram => freePages zram placement second := by
  induction first generalizing zram with
  | nil => rfl
  | cons index rest ih =>
    rw [List.cons_append, freePages, freePages, Option.bind_assoc]
    exact congrArg _ (funext fun freed => ih freed)

omit [Fintype Cpu] in
theorem freePages_nothing (zram : Zram Cpu) (empty : ∀ index, zram.table index = 0) (placement : Nat → Placement Cpu) (indices : List Nat) :
    freePages zram placement indices = some zram := by
  have nothing (index : Nat) (place : Placement Cpu) : zramFreePage zram index place = some zram := by
    unfold zramFreePage zramIsZeroPage zramFindObj
    rw [empty]
    rfl
  induction indices with
  | nil => rfl
  | cons index rest ih => rw [freePages, nothing, Option.bind_some, ih]

/-- A device that is not initialised. -/
structure Blank (others : Finset Page) (zram : Zram Cpu) : Prop where
  backed : Backed others zram.xv fun _ => False
  table : ∀ index, zram.table index = 0
  stats : zram.stats = none
  initDone : zram.initDone = false
  tableAddress : zram.tableAddress = 0

omit [DecidableEq Cpu] in
theorem Sound.nothing (sound : Sound lzo others zram slots held disk) (empty : ∀ index, slots index = .empty) :
    Backed others zram.xv (fun _ => False) ∧ ∀ index, zram.table index = 0 := by
  refine ⟨sound.stored.backed.congr fun storage => ⟨False.elim, fun here => ?_⟩, fun index => ?_⟩
  · obtain ⟨holder, found⟩ := (sound.stored.holders.held_iff storage).mp here
    simp [empty, Slot.storage] at found
  · rw [sound.entries, empty]
    rfl

/-- A reset releases whatever the table names. Behind page 2^32 the loop looks at
entries it has emptied already. -/
theorem Sound.reset (sound : Sound lzo others zram slots held disk) (table : zram.tableAddress ≠ 0) (placement : Nat → Placement Cpu)
    (totalramPages : Nat) : ∃ after, zramResetDevice zram placement totalramPages = some after ∧ Blank others after := by
  have stopped : Sound lzo others { zram with initDone := false } slots held disk :=
    ⟨sound.stored, sound.entries, sound.placed, sound.counted, sound.inside⟩
  obtain ⟨low, high, split⟩ : ∃ low high, zram.numPages = low + high ∧ (low = 2 ^ 32 ∨ low < 2 ^ 32 ∧ high = 0) := by
    rcases Nat.lt_or_ge zram.numPages (2 ^ 32) with few | many
    · exact ⟨zram.numPages, 0, rfl, .inr ⟨few, rfl⟩⟩
    · exact ⟨2 ^ 32, zram.numPages - 2 ^ 32, by omega, .inl rfl⟩
  obtain ⟨freed, filled, now, final, ended, sound, _, frame⟩ := stopped.freePages placement (List.range low)
    fun index member => Nat.lt_of_lt_of_le (List.mem_range.mp member) (by omega)
  have empty (index : Nat) : filled index = .empty := by
    rw [frame]
    split
    next => rfl
    next outside =>
      by_contra occupied
      have inside : index < zram.numPages ∧ index < 2 ^ 32 := stopped.inside index occupied
      exact outside (List.mem_range.mpr (by omega))
  obtain ⟨backed, cleared⟩ := sound.nothing empty
  refine ⟨createDevice freed.xv totalramPages, ?_, ⟨backed, fun _ => rfl, rfl, rfl, rfl⟩⟩
  rw [zramResetDevice, if_neg (fun both => table both.1), split.1, List.range_add, freePages_append, ended, Option.bind_some,
    freePages_nothing _ cleared]
  rfl

omit [DecidableEq Cpu] in
theorem Blank.start (backed : Backed others zram.xv fun _ => False) (table : ∀ index, zram.table index = 0)
    (stats : zram.stats = some Counters.zero) : Sound lzo others zram (fun _ => .empty) (fun _ => False) fun _ => none where
  stored := ⟨backed, .empty, fun _ => .empty⟩
  entries := table
  placed _ := False.elim
  counted := by
    refine ⟨_, stats, fun {stat weight} counts => ?_⟩
    simp [total_zero, tally, Stat.weight_empty counts]
  inside _ occupied := absurd rfl occupied

def InitAllocations.granted (allocations : InitAllocations) : Bool := allocations.table ≠ 0 ∧ allocations.stats ≠ 0 ∧ allocations.pool ≠ 0

/-- How the section of `zram_init_device` under its lock ends on a device that is
not initialised. -/
inductive SectionEnd (zram : Zram Cpu) (allocations : InitAllocations) : Zram Cpu × Int → Prop
  | done {after : Zram Cpu} (granted : allocations.granted = true) (xv : after.xv = ⟨zram.xv.kernel, xvCreatePool⟩)
      (table : ∀ index, after.table index = 0)
      (stats : after.stats = some Counters.zero) (disksize : zram.disksize ≠ 0 → after.disksize = zram.disksize)
      (initDone : after.initDone = true) (tableAddress : after.tableAddress ≠ 0) : SectionEnd zram allocations (after, 0)
  | failed {after : Zram Cpu} {ret : Int} (refused : allocations.granted = false) (xv : after.xv = zram.xv)
    (table : ∀ index, after.table index = 0)
      (reachable : after.tableAddress = 0 → after.numPages = 0) (error : ret ≠ 0) : SectionEnd zram allocations (after, ret)

omit [DecidableEq Cpu] [Fintype Cpu] in
theorem Blank.initSection_end (blank : Blank others zram) (allocations : InitAllocations) :
    SectionEnd zram allocations (initSection zram allocations) := by
  have error : -enomem ≠ 0 := by decide
  unfold initSection
  rw [if_neg (by simp [blank.initDone])]
  dsimp only
  split
  next missing => exact .failed (by simp [InitAllocations.granted, missing]) rfl blank.table (fun _ => Nat.zero_div _) error
  next table =>
    split
    next missing => exact .failed (by simp [InitAllocations.granted, missing]) rfl (fun _ => rfl) (fun none_ => absurd none_ table) error
    next stats =>
      split
      next missing => exact .failed (by simp [InitAllocations.granted, missing]) rfl (fun _ => rfl) (fun none_ => absurd none_ table) error
      next pool =>
        exact .done (by simp [InitAllocations.granted, table, stats, pool]) rfl (fun _ => rfl) rfl (fun sized => if_neg sized) rfl table

/-- How `zram_init_device` ends on a device that is not initialised. -/
inductive InitEnd (lzo : Lzo) (others : Finset Page) (zram : Zram Cpu) (allocations : InitAllocations) : Zram Cpu × Int → Prop
  | done {after : Zram Cpu} (granted : allocations.granted = true) (initDone : after.initDone = true)
      (tableAddress : after.tableAddress ≠ 0)
      (disksize : zram.disksize ≠ 0 → after.disksize = zram.disksize)
      (sound : Sound lzo others after (fun _ => .empty) (fun _ => False) fun _ => none) : InitEnd lzo others zram allocations (after, 0)
  | failed {after : Zram Cpu} {ret : Int} (refused : allocations.granted = false) (error : ret ≠ 0) (blank : Blank others after) :
      InitEnd lzo others zram allocations (after, ret)

theorem Blank.init (lzo : Lzo) (blank : Blank others zram) (allocations : InitAllocations) (placement : Nat → Placement Cpu) :
    ∃ result, zramInitDevice zram allocations placement = some result ∧ InitEnd lzo others zram allocations result := by
  have ended := blank.initSection_end allocations
  unfold zramInitDevice
  generalize initSection zram allocations = result at ended
  cases ended with
  | done granted xv table stats disksize initDone tableAddress =>
    refine ⟨_, if_pos rfl, .done granted initDone tableAddress disksize (Blank.start ?_ table stats)⟩
    have owned : zram.xv.kernel.owned = others := (blank.backed.nothing fun _ => id).1
    rw [xv, ← owned]
    exact .create _
  | failed refused xv table reachable error =>
    rename_i half ret
    have freed : freePages { half with initDone := false } placement (List.range half.numPages) = some { half with initDone := false } :=
      freePages_nothing { half with initDone := false } table placement _
    have safe : ¬ (half.tableAddress = 0 ∧ half.numPages ≠ 0) := fun both => both.2 (reachable both.1)
    dsimp only
    rw [if_neg error, zramResetDevice, if_neg safe, freed]
    refine ⟨_, rfl, .failed refused error ⟨?_, fun _ => rfl, rfl, rfl, rfl⟩⟩
    show Backed others half.xv fun _ => False
    rw [xv]
    exact blank.backed

end Reset

section Requests
variable {lzo : Lzo} {others : Finset Page} {zram : Zram Cpu} {slots : Nat → Slot} {held : Storage → Prop} {disk : Disk}

omit [DecidableEq Cpu] [Fintype Cpu] in
theorem readSegment_some (lzo : Lzo) (zram : Zram Cpu) (index : Nat) (page : PageData) :
    ∃ result, readSegment lzo zram index page = some result := by
  unfold readSegment
  split
  next => exact ⟨_, rfl⟩
  split
  next => exact ⟨_, rfl⟩
  next location found =>
    split
    next whole =>
      rw [handleUncompressedPage, found]
      dsimp only
      rw [if_neg (fun object => object whole)]
      exact ⟨_, rfl⟩
    next => exact ⟨_, rfl⟩

omit [DecidableEq Cpu] [Fintype Cpu] in
theorem readSegments_some (lzo : Lzo) (zram : Zram Cpu) (index : Nat) (pages : List PageData) :
    ∃ result, readSegments lzo zram index pages = some result := by
  induction pages generalizing index with
  | nil => exact ⟨_, rfl⟩
  | cons page rest ih =>
    obtain ⟨⟨flow, after⟩, served⟩ := readSegment_some lzo zram index page
    rw [readSegments, served]
    cases flow with
    | out => exact ⟨_, rfl⟩
    | next | again =>
      obtain ⟨others, ended⟩ := ih _
      exact ⟨_, congrArg (Option.map _) ended⟩

theorem Sound.read (sound : Sound lzo others zram slots held disk) (ready : zram.initDone = true) (sector : Nat) (pages : List PageData)
    (placement : Placement Cpu) : ∃ completion, zramRead lzo zram sector pages placement = some completion ∧
      Sound lzo others completion.zram slots held disk ∧ SameDevice zram completion.zram := by
  obtain ⟨after, counted, sound, same⟩ := sound.addStat (placement .numReads) .numReads 1 rfl
  obtain ⟨result, served⟩ := readSegments_some lzo after (sector / sectorsPerPage % 2 ^ 32) pages
  refine ⟨⟨after, result.1, result.2⟩, ?_, sound, same⟩
  rw [zramRead, if_pos ready, zramIncStat, counted, Option.bind_some, served]
  rfl

/-- What a request covers lies on the disk, and has numbers of 32 bits. -/
structure Within (zram : Zram Cpu) (sector count : Nat) : Prop where
  inside : sector / sectorsPerPage + count ≤ zram.numPages
  small : sector / sectorsPerPage + count ≤ 2 ^ 32

theorem Sound.write (sound : Sound lzo others zram slots held disk) {sector : Nat} {segments : List (Segment Cpu)}
    (within : Within zram sector segments.length) (low : ∀ segment ∈ segments, Low segment.allocator) (placement : Placement Cpu) :
    ∃ completion filled now final, writeInitialised lzo zram sector segments placement = some completion ∧
      Sound lzo others completion.zram filled now final ∧ SameDevice zram completion.zram ∧
      ∀ index, ¬ (sector / sectorsPerPage ≤ index ∧ index < sector / sectorsPerPage + segments.length) → filled index = slots index := by
  obtain ⟨inside, small⟩ := within
  obtain ⟨counted, started, sound, same⟩ := sound.addStat (placement .numWrites) .numWrites 1 rfl
  have least := Nat.mod_le (sector / sectorsPerPage) (2 ^ 32)
  have start : sector / sectorsPerPage % 2 ^ 32 + segments.length ≤ counted.numPages := same.numPages ▸ by omega
  obtain ⟨completion, filled, now, final, ended, sound, later, frame⟩ := sound.writeSegments low (Nat.mod_lt _ (by decide)) start
  refine ⟨completion, filled, now, final, ?_, sound, same.trans later, fun index outside => ?_⟩
  · rw [writeInitialised, zramIncStat, started, Option.bind_some, ended]
  · refine frame (by omega) index ?_
    rcases Nat.eq_zero_or_pos segments.length with none_ | some_
    · omega
    · rw [Nat.mod_eq_of_lt (show sector / sectorsPerPage < 2 ^ 32 by omega)]
      omega

theorem Sound.discard (sound : Sound lzo others zram slots held disk) (ready : zram.initDone = true) {sector size : Nat}
    (small : sector / sectorsPerPage + size / pageSize ≤ 2 ^ 32) (placement : Nat → Placement Cpu) : ∃ after filled now,
      zramDiscard zram sector size placement = some after ∧
      Sound lzo others after filled now (discarded disk (sector / sectorsPerPage) (size / pageSize)) ∧ SameDevice zram after ∧
      ∀ index, filled index =
        if sector / sectorsPerPage ≤ index ∧ index < sector / sectorsPerPage + size / pageSize then .empty else slots index := by
  obtain ⟨counted, started, sound, same⟩ := sound.addStat (placement sector .discard) .discard 1 rfl
  obtain ⟨after, filled, now, final, ended, sound, later, rfl, frame⟩ := sound.discardBytes placement sector size small
  refine ⟨after, filled, now, ?_, sound, same.trans later, frame⟩
  rw [zramDiscard, if_pos ready, zramIncStat, started, Option.bind_some, ended]

end Requests

inductive Event (Cpu : Type)
  | bio (bio : Bio Cpu)
  | notify (index : Nat) (placement : Placement Cpu)
  | init (allocations : InitAllocations) (placement : Nat → Placement Cpu)
  | reset (placement : Nat → Placement Cpu) (totalramPages : Nat)
  | disksize (value : Option Nat)
  | readStat (stat : Stat)

def step (lzo : Lzo) (zram : Zram Cpu) : Event Cpu → Option (Zram Cpu)
  | .bio bio => (zramMakeRequest lzo zram bio).map Completion.zram
  | .notify index placement => zramSlotFreeNotify zram index placement
  | .init allocations placement => (zramInitDevice zram allocations placement).map Prod.fst
  | .reset placement totalramPages => resetStore zram placement totalramPages
  | .disksize value => some (disksizeStore zram value)
  | .readStat stat => (zramGetStat zram stat).map fun _ => zram

/-- The pages a write gets are low enough. -/
def Bio.Low : Bio Cpu → Prop
  | .write _ segments _ _ => ∀ segment ∈ segments, ZramScale.Low segment.allocator
  | _ => True

/-- Requests stay on the disk. There are notifications and counters to look at only
once there are a table and counters. -/
def Admissible (zram : Zram Cpu) : Event Cpu → Prop
  | .bio bio => validIoRequest zram bio = true → Within zram bio.sector (bio.size / pageSize) ∧ bio.Low
  | .notify index _ => zram.initDone = true ∧ index < zram.numPages ∧ index < 2 ^ 32
  | .readStat _ => zram.initDone = true
  | _ => True

def Event.Writes (index : Nat) : Event Cpu → Prop
  | .bio (.write sector segments _ _) => sector / sectorsPerPage ≤ index ∧ index < sector / sectorsPerPage + segments.length
  | _ => False

def Event.Discards (index : Nat) : Event Cpu → Prop
  | .bio (.discard sector size _) => sector / sectorsPerPage ≤ index ∧ index < sector / sectorsPerPage + size / pageSize
  | _ => False

def Event.allocations (zram : Zram Cpu) : Event Cpu → Option InitAllocations
  | .init allocations _ => some allocations
  | .bio (.write sector segments allocations placement) =>
    if validIoRequest zram (.write sector segments allocations placement) then some allocations else none
  | _ => none

def Event.ready (zram : Zram Cpu) : Event Cpu → Bool
  | .reset _ _ => false
  | event => zram.initDone || (event.allocations zram).elim false InitAllocations.granted

/-- A device between two requests: either not initialised, or all its slots account for it. -/
inductive Device (lzo : Lzo) (others : Finset Page) (zram : Zram Cpu) : (Nat → Slot) → Disk → Prop
  | idle (blank : Blank others zram) : Device lzo others zram (fun _ => .empty) fun _ => none
  | ready {slots : Nat → Slot} {held : Storage → Prop} {disk : Disk} (initDone : zram.initDone = true)
    (tableAddress : zram.tableAddress ≠ 0)
      (sound : Sound lzo others zram slots held disk) : Device lzo others zram slots disk

section Steps
variable {lzo : Lzo} {others : Finset Page} {zram after : Zram Cpu} {slots : Nat → Slot} {held : Storage → Prop} {disk : Disk}

omit [DecidableEq Cpu] in
theorem Device.same {filled : Nat → Slot} {now : Storage → Prop} {final : Disk} (initDone : zram.initDone = true)
    (tableAddress : zram.tableAddress ≠ 0)
    (same : SameDevice zram after) (sound : Sound lzo others after filled now final) : Device lzo others after filled final :=
  .ready (same.initDone.trans initDone) (same.tableAddress ▸ tableAddress) sound

omit [DecidableEq Cpu] [Fintype Cpu] in
theorem validIoRequest_sized {bio : Bio Cpu} (valid : validIoRequest zram bio = true) : zram.disksize ≠ 0 := by
  intro none_
  simp [validIoRequest, none_] at valid

omit [DecidableEq Cpu] [Fintype Cpu] in
theorem Event.still_ready (initDone : zram.initDone = true) (event : Event Cpu) (kept : ∀ placement pages, event ≠ .reset placement pages) :
    true = event.ready zram := by
  cases event with
  | reset placement pages => exact absurd rfl (kept placement pages)
  | _ => simp [Event.ready, initDone]

theorem Device.request (device : Device lzo others zram slots disk) {bio : Bio Cpu} (admissible : Admissible zram (.bio bio)) :
    ∃ completion filled final, zramMakeRequest lzo zram bio = some completion ∧ Device lzo others completion.zram filled final ∧
      completion.zram.initDone = (Event.bio bio).ready zram ∧
      ∀ index, slots index = .empty → ¬ (Event.bio bio).Writes index → filled index = .empty := by
  unfold zramMakeRequest
  cases valid : validIoRequest zram bio with
  | false =>
    rw [if_neg Bool.false_ne_true]
    cases device with
    | idle blank =>
      rw [if_neg (by simp [blank.initDone])]
      refine ⟨_, _, _, rfl, .idle blank, ?_, fun _ empty _ => empty⟩
      cases bio <;> simp [Event.ready, Event.allocations, valid]
    | ready initDone tableAddress sound =>
      obtain ⟨after, counted, sound, same⟩ := sound.addStat (bio.cpu .invalidIo) .invalidIo 1 rfl
      rw [if_pos initDone, zramIncStat, counted]
      exact ⟨_, _, _, rfl, .same initDone tableAddress same sound, (same.initDone.trans initDone).trans
        (Event.still_ready initDone _ (by simp)), fun _ empty _ => empty⟩
  | true =>
    obtain ⟨within, low⟩ := admissible valid
    rw [if_pos rfl]
    cases bio with
    | read sector pages placement =>
      cases device with
      | idle blank =>
        dsimp only
        rw [zramRead, if_neg (by simp [blank.initDone])]
        exact ⟨_, _, _, rfl, .idle blank, by simp [Event.ready, Event.allocations], fun _ empty _ => empty⟩
      | ready initDone tableAddress sound =>
        obtain ⟨completion, served, sound, same⟩ := sound.read initDone sector pages placement
        exact ⟨completion, _, _, served, .same initDone tableAddress same sound, (same.initDone.trans initDone).trans
          (Event.still_ready initDone _ (by simp)), fun _ empty _ => empty⟩
    | write sector segments allocations placement =>
      have pages : segments.length * pageSize / pageSize = segments.length := Nat.mul_div_cancel _ (by decide)
      simp only [Bio.sector, Bio.size, pages] at within
      dsimp only
      rw [zramWrite]
      cases device with
      | idle blank =>
        obtain ⟨result, started, ended⟩ := blank.init lzo allocations fun _ => placement
        rw [if_neg (by simp [blank.initDone]), started, Option.bind_some]
        cases ended with
        | done granted initDone tableAddress disksize sound =>
          rename_i ready
          have sized := disksize (validIoRequest_sized valid)
          have still : Within ready sector segments.length := ⟨within.inside.trans_eq (congrArg (· / pageSize) sized.symm), within.small⟩
          obtain ⟨completion, filled, now, final, written, sound, same, frame⟩ := sound.write still low placement
          refine ⟨completion, filled, final, (if_pos rfl).trans written, .same initDone tableAddress same sound, ?_,
            fun index empty outside => (frame index outside).trans empty⟩
          rw [same.initDone, initDone]
          simp [Event.ready, Event.allocations, valid, granted]
        | failed refused error failed =>
          dsimp only
          rw [if_neg error]
          refine ⟨_, _, _, rfl, .idle failed, ?_, fun _ empty _ => empty⟩
          simp [Event.ready, Event.allocations, valid, refused, blank.initDone, failed.initDone]
      | ready initDone tableAddress sound =>
        obtain ⟨completion, filled, now, final, written, sound, same, frame⟩ := sound.write within low placement
        rw [if_pos initDone]
        exact ⟨completion, filled, final, written, .same initDone tableAddress same sound, (same.initDone.trans initDone).trans
          (Event.still_ready initDone _ (by simp)),
          fun index empty outside => (frame index outside).trans empty⟩
    | discard sector size placement =>
      cases device with
      | idle blank =>
        dsimp only
        rw [zramDiscard, if_neg (by simp [blank.initDone])]
        exact ⟨_, _, _, rfl, .idle blank, by simp [Event.ready, Event.allocations], fun _ empty _ => empty⟩
      | ready initDone tableAddress sound =>
        obtain ⟨after, filled, now, served, sound, same, frame⟩ := sound.discard initDone within.small placement
        refine ⟨⟨after, true, []⟩, filled, _, congrArg (Option.map _) served, .same initDone tableAddress same sound,
          (same.initDone.trans initDone).trans (Event.still_ready initDone _ (by simp)), fun index empty _ => ?_⟩
        rw [frame, empty]
        exact ite_self _

theorem Device.step (device : Device lzo others zram slots disk) {event : Event Cpu} (admissible : Admissible zram event) :
    ∃ after filled final, step lzo zram event = some after ∧ Device lzo others after filled final ∧
      after.initDone = event.ready zram ∧ ∀ index, slots index = .empty → ¬ event.Writes index → filled index = .empty := by
  cases event with
  | bio bio =>
    obtain ⟨completion, filled, final, served, device, frame⟩ := device.request admissible
    exact ⟨_, filled, final, congrArg (Option.map _) served, device, frame⟩
  | notify index placement =>
    obtain ⟨initDone, _, small⟩ := admissible
    cases device with
    | idle blank =>
      rw [blank.initDone] at initDone
      cases initDone
    | ready initDone tableAddress sound =>
      obtain ⟨freed, now, released, sound, same⟩ := sound.freePage small placement
      obtain ⟨after, counted, sound, later⟩ := sound.addStat (placement .notifyFree) .notifyFree 1 rfl
      refine ⟨after, _, _, ?_, .same initDone tableAddress (same.trans later) sound,
        ((same.trans later).initDone.trans initDone).trans (Event.still_ready initDone _ (by simp)), fun other empty _ => ?_⟩
      · rw [ZramScale.step, zramSlotFreeNotify, if_neg tableAddress, released, Option.bind_some, zramIncStat, counted]
      · rcases Classical.em (other = index) with rfl | elsewhere
        · rw [Function.update_self]
        · rw [Function.update_of_ne elsewhere, empty]
  | init allocations placement =>
    cases device with
    | idle blank =>
      obtain ⟨result, started, ended⟩ := blank.init lzo allocations placement
      refine ⟨result.1, fun _ => .empty, fun _ => none, congrArg (Option.map _) started, ?_, ?_, fun _ empty _ => empty⟩
      · cases ended with
        | done granted initDone tableAddress disksize sound => exact .ready initDone tableAddress sound
        | failed refused error blank => exact .idle blank
      · cases ended with
        | done granted initDone tableAddress disksize sound => simp [Event.ready, Event.allocations, granted, initDone]
        | failed refused error failed => simp [Event.ready, Event.allocations, refused, blank.initDone, failed.initDone]
    | ready initDone tableAddress sound =>
      have already : initSection zram allocations = (zram, 0) := if_pos initDone
      refine ⟨zram, _, _, ?_, .ready initDone tableAddress sound, initDone.trans (Event.still_ready initDone _ (by simp)),
        fun _ empty _ => empty⟩
      rw [ZramScale.step, zramInitDevice, already]
      rfl
  | reset placement totalramPages =>
    cases device with
    | idle blank => exact ⟨zram, _, _, if_neg (by simp [blank.initDone]), .idle blank, blank.initDone, fun _ empty _ => empty⟩
    | ready initDone tableAddress sound =>
      obtain ⟨after, ended, blank⟩ := sound.reset tableAddress placement totalramPages
      exact ⟨after, _, _, (if_pos initDone).trans ended, .idle blank, blank.initDone, fun _ _ _ => rfl⟩
  | disksize value =>
    cases device with
    | idle blank =>
      have kept : Blank others (disksizeStore zram value) ∧ (disksizeStore zram value).initDone = zram.initDone := by
        unfold disksizeStore
        rw [if_neg (by simp [blank.initDone])]
        cases value with
        | none | some bytes => exact ⟨⟨blank.backed, blank.table, blank.stats, blank.initDone, blank.tableAddress⟩, rfl⟩
      exact ⟨_, _, _, rfl, .idle kept.1, kept.2.trans (by simp [Event.ready, Event.allocations]), fun _ empty _ => empty⟩
    | ready initDone tableAddress sound =>
      have kept : disksizeStore zram value = zram := if_pos initDone
      exact ⟨zram, slots, disk, congrArg some kept, .ready initDone tableAddress sound,
        initDone.trans (Event.still_ready initDone _ (by simp)),
        fun _ empty _ => empty⟩
  | readStat stat =>
    cases device with
    | idle blank =>
      have initDone : zram.initDone = true := admissible
      rw [blank.initDone] at initDone
      cases initDone
    | ready initDone tableAddress sound =>
      obtain ⟨counters, present, _⟩ := sound.counted
      refine ⟨zram, _, _, ?_, .ready initDone tableAddress sound, initDone.trans (Event.still_ready initDone _ (by simp)),
        fun _ empty _ => empty⟩
      rw [ZramScale.step, zramGetStat, present]
      rfl

omit [DecidableEq Cpu] in
theorem createDevice_idle (others : Finset Page) (memory : Memory Page) (totalramPages : Nat) :
    Device lzo others (createDevice ⟨⟨memory, others⟩, xvCreatePool⟩ totalramPages : Zram Cpu) (fun _ => .empty) fun _ => none :=
  .idle ⟨.create memory, fun _ => rfl, rfl, rfl, rfl⟩

/-- The run lemma: some slots account for the device whatever came before. -/
theorem run_device {start : Zram Cpu} {meets : Zram Cpu → Event Cpu → Prop} (run : Run (ZramScale.step lzo) meets start zram)
    (admissible : ∀ zram event, meets zram event → Admissible zram event) (device : ∃ slots disk, Device lzo others start slots disk) :
    ∃ slots disk, Device lzo others zram slots disk := by
  refine run.invariant (fun zram => ∃ slots disk, Device lzo others zram slots disk) device ?_
  rintro before after event ⟨slots, disk, device⟩ met taken
  obtain ⟨result, filled, final, served, device, _⟩ := device.step (admissible before event met)
  obtain rfl : result = after := Option.some.inj (served.symm.trans taken)
  exact ⟨filled, final, device⟩

end Steps
end Compcache.ZramScale
