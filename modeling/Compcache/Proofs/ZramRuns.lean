import Compcache.Library.Runs
import Compcache.Proofs.ZramPages

/-! Whole runs of a device, from its creation through any sequence of requests.
A ghost disk says what each page should read as. -/

namespace Compcache.ZramDrv
open Library.PagedMemory Library.Ownership Library.Runs Xvmalloc

abbrev Disk := Nat → Option PageData

/-- The disk after a write whose first `served` segments were stored; the one
that failed is lost. -/
def wrote (disk : Disk) (first : Nat) (pages : List PageData) (served : Nat) (ok : Bool) : Disk := fun index =>
  if first ≤ index ∧ index < first + served then pages[index - first]?
  else if ok = false ∧ index = first + served then none
  else disk index

/-- The disk after a range of pages is discarded. -/
def discarded (disk : Disk) (first count : Nat) : Disk := fun index =>
  if first ≤ index ∧ index < first + count then none else disk index

section Disk
variable {disk : Disk} {first served count : Nat} {pages : List PageData} {page : PageData} {ok : Bool}

theorem wrote_nothing : wrote disk first pages 0 true = disk := by
  funext index
  simp only [wrote, Nat.add_zero]
  rw [if_neg (by omega), if_neg (by simp)]

theorem wrote_failed : wrote disk first pages 0 false = Function.update disk first none := by
  funext index
  simp only [wrote, Nat.add_zero]
  rw [if_neg (by omega)]
  rcases Classical.em (index = first) with rfl | elsewhere
  · rw [Function.update_self, if_pos ⟨trivial, rfl⟩]
  · rw [Function.update_of_ne elsewhere, if_neg fun both => elsewhere both.2]

theorem wrote_next : wrote (Function.update disk first (some page)) (first + 1) pages served ok = wrote disk first (page :: pages)
    (served + 1) ok := by
  funext index
  simp only [wrote]
  rcases Nat.lt_trichotomy index first with below | rfl | above
  · rw [if_neg (by omega), if_neg (by omega), if_neg (by omega), if_neg (by omega), Function.update_of_ne (Nat.ne_of_lt below)]
  · rw [if_neg (by omega), if_neg (by omega), if_pos (by omega), Function.update_self, Nat.sub_self, List.getElem?_cons_zero]
  · have later : index - first = index - (first + 1) + 1 := by omega
    rw [Function.update_of_ne (Nat.ne_of_gt above), later, List.getElem?_cons_succ]
    have total : first + 1 + served = first + (served + 1) := by omega
    have within : (first + 1 ≤ index ∧ index < first + (served + 1)) ↔ (first ≤ index ∧ index < first + (served + 1)) := by omega
    simp only [total, within]

theorem discarded_nothing : discarded disk first 0 = disk := by
  funext index
  exact if_neg (by omega)

theorem discarded_next : discarded (Function.update disk first none) (first + 1) count = discarded disk first (count + 1) := by
  funext index
  simp only [discarded]
  rcases Classical.em (index = first) with rfl | elsewhere
  · rw [if_neg (by omega), if_pos (by omega), Function.update_self]
  · rw [Function.update_of_ne elsewhere]
    have same : (first + 1 ≤ index ∧ index < first + 1 + count) ↔ (first ≤ index ∧ index < first + (count + 1)) := by omega
    simp only [same]

end Disk

theorem next_index (index : Nat) {count bound : Nat} (inside : index + (count + 1) ≤ bound) : (index + 1) % 2 ^ 32 + count ≤ bound := by
  have small := Nat.mod_le (index + 1) (2 ^ 32)
  omega

variable [Arch]

section Loops
variable {lzo : Lzo} {others : Finset Page} {zram : Zram} {slots : Nat → Slot} {held : Storage → Prop} {disk : Disk} {index : Nat}

/-- The loop of a write. As long as the index does not wrap, it writes the pages it says it served. -/
theorem Sound.writeSegments (sound : Sound lzo others zram slots held disk) {segments : List (PageData × PageAllocator)} (served : Nat)
    (inside : index + segments.length ≤ zram.numPages) : ∃ completion filled now after,
      writeSegments lzo zram index served segments = some completion ∧ Sound lzo others completion.zram filled now after ∧
      SameDevice zram completion.zram ∧ ∃ count, completion.served = served + count ∧
        (index + segments.length ≤ 2 ^ 32 → after = wrote disk index (segments.map Prod.fst) count completion.ok) := by
  induction segments generalizing zram slots held disk index served with
  | nil => exact ⟨_, slots, held, disk, rfl, sound, .refl zram, 0, rfl, fun _ => wrote_nothing.symm⟩
  | cons segment rest ih =>
    obtain ⟨data, allocator⟩ := segment
    rw [List.length_cons] at inside
    obtain ⟨after, stored, new, now, written, sound, same⟩ := sound.writeSegment (show index < zram.numPages by omega) data allocator
    unfold ZramDrv.writeSegments
    rw [written]
    cases stored with
    | false => exact ⟨_, _, _, _, rfl, sound, same, 0, rfl, fun _ => wrote_failed.symm⟩
    | true =>
      obtain ⟨completion, filled, now, final, ended, sound, later, count, total, shows⟩ :=
        ih sound (served + 1) (next_index index (same.numPages ▸ inside))
      refine ⟨completion, filled, now, final, ended, sound, same.trans later, count + 1, by omega, fun short => ?_⟩
      rw [List.length_cons] at short
      rw [List.map_cons, ← wrote_next]
      cases rest with
      | nil =>
        cases ended
        obtain rfl : count = 0 := by simpa using total
        rw [shows (by simp only [List.length_nil]; omega)]
        exact wrote_nothing.trans wrote_nothing.symm
      | cons other more =>
        rw [List.length_cons] at short
        have unwrapped : (index + 1) % 2 ^ 32 = index + 1 := Nat.mod_eq_of_lt (by omega)
        rw [unwrapped] at shows
        exact shows (by rw [List.length_cons]; omega)

theorem Sound.discardPages (sound : Sound lzo others zram slots held disk) (npages : Nat) (index : Nat) :
    ∃ after filled now final, discardPages zram index npages = some after ∧ Sound lzo others after filled now final ∧
      SameDevice zram after ∧
      (index + npages ≤ 2 ^ 32 → final = discarded disk index npages) := by
  induction npages generalizing zram slots held disk index with
  | zero => exact ⟨zram, slots, held, disk, rfl, sound, .refl zram, fun _ => discarded_nothing.symm⟩
  | succ npages ih =>
    obtain ⟨freed, now, released, sound, same⟩ := sound.freePage index
    obtain ⟨after, filled, now, final, ended, sound, later, shows⟩ := ih sound ((index + 1) % 2 ^ 32)
    refine ⟨after, filled, now, final, ?_, sound, same.trans later, fun short => ?_⟩
    · unfold ZramDrv.discardPages
      rw [released]
      exact ended
    · rw [← discarded_next]
      cases npages with
      | zero => rw [shows (by omega), discarded_nothing, discarded_nothing]
      | succ more =>
        have unwrapped : (index + 1) % 2 ^ 32 = index + 1 := Nat.mod_eq_of_lt (by omega)
        rw [unwrapped] at shows
        exact shows (by omega)

end Loops

section Reset
variable {others : Finset Page} {xv : XvState} {slots : Nat → Slot} {held : Storage → Prop}

/-- A walk along part of a table: what the slots walked along held is gone. -/
structure Walked (others : Finset Page) (after : XvState) (held now : Storage → Prop) (slots : Nat → Slot) (indices : List Nat) : Prop where
  backed : Backed others after now
  left : ∀ storage, now storage → held storage ∧ ∀ index ∈ indices, slots index ≠ .stored storage

theorem Walked.cons {after : XvState} {then_ now : Storage → Prop} {index : Nat} {rest : List Nat}
    (walked : Walked others after then_ now slots rest)
    (left : ∀ storage, then_ storage → held storage ∧ slots index ≠ .stored storage) :
    Walked others after held now slots (index :: rest) where
  backed := walked.backed
  left storage remains := by
    obtain ⟨kept, unlisted⟩ := walked.left storage remains
    obtain ⟨first, head⟩ := left storage kept
    exact ⟨first, List.forall_mem_cons.mpr ⟨head, unlisted⟩⟩

/-- The loop of a reset never trips the BUG_ON, and never gives a page back that is not owned. -/
theorem resetEntries_spec (backed : Backed others xv held) (indices : List Nat)
    (names : ∀ index ∈ indices, ∀ storage, slots index = .stored storage → held storage)
    (single : ∀ {first second storage}, slots first = .stored storage → slots second = .stored storage → first = second)
    (distinct : indices.Nodup) :
    ∃ after now, resetEntries xv (indices.map fun index => (slots index).entry) = some after ∧
      Walked others after held now slots indices := by
  induction indices generalizing xv held with
  | nil => exact ⟨xv, held, rfl, backed, by simp⟩
  | cons index rest ih =>
    obtain ⟨apart, distinct⟩ := List.nodup_cons.mp distinct
    obtain ⟨named, names⟩ := List.forall_mem_cons.mp names
    rw [List.map_cons, resetEntries]
    have skipped (unstored : ∀ storage, slots index ≠ .stored storage) : ∃ after now,
        resetEntries xv (rest.map fun index => (slots index).entry) = some after ∧ Walked others after held now slots (index :: rest) := by
      obtain ⟨after, now, ended, walked⟩ := ih backed names distinct
      exact ⟨after, now, ended, walked.cons fun storage kept => ⟨kept, unstored storage⟩⟩
    have remain {storage : Storage} (found : slots index = .stored storage) :
        ∀ other ∈ rest, ∀ piece, slots other = .stored piece → held piece ∧ piece ≠ storage := by
      intro other member piece there
      refine ⟨names other member piece there, ?_⟩
      rintro rfl
      exact apart (single found there ▸ member)
    have taken {storage piece : Storage} (found : slots index = .stored storage) (kept : held piece ∧ piece ≠ storage) :
        held piece ∧ slots index ≠ .stored piece := by
      refine ⟨kept.1, fun same => kept.2 ?_⟩
      rw [found] at same
      injection same with equal
      exact equal.symm
    cases found : slots index with
    | empty =>
      rw [if_pos (show Slot.empty.entry.page = noPage from rfl)]
      exact skipped (by simp [found])
    | zero =>
      rw [if_pos (show Slot.zero.entry.page = noPage from rfl)]
      exact skipped (by simp [found])
    | stored storage =>
      have here := named storage found
      cases storage with
      | page frame =>
        have present : (Slot.stored (.page frame)).entry.page ≠ noPage := backed.page_ne here
        have whole : (Slot.stored (.page frame)).entry.uncompressed = true := rfl
        obtain ⟨freed, released⟩ := backed.releasePage here
        obtain ⟨after, now, ended, walked⟩ := ih released (remain found) distinct
        rw [if_neg present, if_pos whole]
        refine ⟨after, now, ?_, walked.cons fun _ kept => taken found kept⟩
        rw [show (Slot.stored (.page frame)).entry.page = frame from rfl, freed, Option.bind_some, ended]
      | object location size =>
        have present : (Slot.stored (.object location size)).entry.page ≠ noPage := backed.page_ne here
        have small : ¬ (Slot.stored (.object location size)).entry.uncompressed = true := Bool.false_ne_true
        obtain ⟨xv', freed, released, _⟩ := backed.releaseObject here
        obtain ⟨after, now, ended, walked⟩ := ih released (remain found) distinct
        rw [if_neg present, if_neg small]
        refine ⟨after, now, ?_, walked.cons fun _ kept => taken found kept⟩
        simp only [Slot.entry, freed, Option.bind_some]
        exact ended

end Reset

section Device
variable {lzo : Lzo} {others : Finset Page} {zram after : Zram} {slots : Nat → Slot} {held : Storage → Prop} {disk : Disk}

theorem andPageMask_idem (value : Nat) : andPageMask (andPageMask value) = andPageMask value := by
  unfold andPageMask
  rcases Arch.bitsPerLong_cases with word | word <;> rw [word] <;> simp only [pageSize_eq] <;> omega

/-- A device that holds nothing. -/
structure Blank (others : Finset Page) (zram : Zram) : Prop where
  backed : Backed others zram.xv fun _ => False
  table : ∀ index, zram.table index = Entry.empty
  comprSize : zram.stats.comprSize = 0
  pagesStored : zram.stats.pagesStored = 0
  pagesZero : zram.stats.pagesZero = 0
  pagesExpand : zram.stats.pagesExpand = 0
  goodCompress : zram.stats.goodCompress = 0

theorem Blank.sound (blank : Blank others zram) : Sound lzo others zram (fun _ => .empty) (fun _ => False) fun _ => none := by
  have nothing {weight : Slot → Nat} (free : weight .empty = 0) (bound : Nat) :
      tally weight (fun _ => .empty) zram.numPages % bound = 0 := by
    simp [tally, free]
  exact ⟨blank.table, blank.backed, Holders.empty, fun _ => .empty, ⟨blank.comprSize.trans (nothing rfl _).symm,
    blank.pagesStored.trans (nothing rfl _).symm, blank.pagesZero.trans (nothing rfl _).symm, blank.pagesExpand.trans (nothing rfl _).symm,
    blank.goodCompress.trans (nothing rfl _).symm⟩, fun _ occupied => absurd rfl occupied⟩

theorem Sound.blank (sound : Sound lzo others zram slots held disk) (empty : ∀ index, slots index = .empty) :
    Blank others zram ∧ disk = fun _ => none := by
  have nothing {weight : Slot → Nat} (free : weight .empty = 0) (bound : Nat) : tally weight slots zram.numPages % bound = 0 := by
    simp [tally, empty, free]
  refine ⟨⟨sound.backed.congr fun storage => ⟨False.elim, fun here => ?_⟩, fun index => ?_, sound.counts.comprSize.trans (nothing rfl _),
    sound.counts.pagesStored.trans (nothing rfl _), sound.counts.pagesZero.trans (nothing rfl _),
      sound.counts.pagesExpand.trans (nothing rfl _),
    sound.counts.goodCompress.trans (nothing rfl _)⟩, funext fun index => ?_⟩
  · obtain ⟨holder, found⟩ := (sound.holders.held_iff storage).mp here
    simp [empty, Slot.storage] at found
  · rw [sound.entries, empty]
    rfl
  · have content := sound.content index
    rw [empty] at content
    generalize disk index = data at content
    cases content with
    | empty => rfl

theorem Sound.reset (sound : Sound lzo others zram slots held disk) (table : zram.tableAddress ≠ 0 ∨ zram.numPages = 0) :
    ∃ after, zramResetDevice zram = some after ∧ Blank others after ∧ after.initDone = false ∧ after.disksize = 0 ∧
      after.stats = Stats.zero := by
  have entries : (List.range zram.numPages).map zram.table = (List.range zram.numPages).map fun index => (slots index).entry :=
    List.map_congr_left fun index _ => sound.entries index
  have single {first second : Nat} {storage : Storage} (here : slots first = .stored storage) (there : slots second = .stored storage) :
      first = second :=
    sound.holders.single (Slot.storage_eq_some.mpr here) (Slot.storage_eq_some.mpr there)
  obtain ⟨xv, now, ended, walked⟩ := resetEntries_spec sound.backed (List.range zram.numPages) (fun _ _ _ found => sound.holds found)
    single List.nodup_range
  have nothing (storage : Storage) : ¬ now storage := by
    intro remains
    obtain ⟨here, unlisted⟩ := walked.left storage remains
    obtain ⟨holder, found⟩ := (sound.holders.held_iff storage).mp here
    have stored : slots holder = .stored storage := Slot.storage_eq_some.mp found
    exact unlisted holder (List.mem_range.mpr (sound.inside holder (by simp [stored]))) stored
  refine ⟨createDevice xv, ?_, ⟨walked.backed.congr fun storage => ⟨False.elim, nothing storage⟩, fun _ => rfl, rfl, rfl, rfl, rfl, rfl⟩,
    rfl, rfl, rfl⟩
  rw [zramResetDevice, if_neg (by omega), entries, ended]
  rfl

/-- How the locked part of `zram_init_device` ends on a device that is not initialised. -/
inductive InitEnd (zram : Zram) : Zram × Int → Prop
  | done {after : Zram} (xv : after.xv = ⟨zram.xv.kernel, xvCreatePool⟩) (table : after.table = fun _ => Entry.empty)
      (stats : after.stats = zram.stats) (disksize : zram.disksize ≠ 0 → after.disksize = andPageMask zram.disksize)
      (initDone : after.initDone = true) (tableAddress : after.tableAddress ≠ 0) : InitEnd zram (after, 0)
  | failed {after : Zram} {ret : Int} (xv : after.xv = zram.xv) (table : after.table = zram.table ∨ after.table = fun _ => Entry.empty)
      (stats : after.stats = zram.stats) (error : ret ≠ 0) : InitEnd zram (after, ret)

theorem initSection_end (idle : zram.initDone = false) (allocations : InitAllocations) : InitEnd zram (initSection zram allocations) := by
  unfold initSection
  rw [if_neg (by simp [idle])]
  have error : -enomem ≠ 0 := by decide
  dsimp only
  split
  next => exact .failed rfl (.inl rfl) rfl error
  split
  next => exact .failed rfl (.inl rfl) rfl error
  split
  next => exact .failed rfl (.inl rfl) rfl error
  next present =>
    split
    next => exact .failed rfl (.inr rfl) rfl error
    next =>
      refine .done rfl rfl rfl (fun given => ?_) rfl present
      exact congrArg andPageMask (if_neg given)

/-- The state of a device between two requests. -/
structure Valid (lzo : Lzo) (others : Finset Page) (zram : Zram) (slots : Nat → Slot) (held : Storage → Prop) (disk : Disk) : Prop where
  sound : Sound lzo others zram slots held disk
  idle : zram.initDone = false → ∀ index, slots index = .empty
  table : zram.initDone = true → zram.tableAddress ≠ 0
  masked : andPageMask zram.disksize = zram.disksize

/-- Some slots account for the device, and it reads as `disk`. -/
def Reads (lzo : Lzo) (others : Finset Page) (zram : Zram) (disk : Disk) : Prop := ∃ slots held, Valid lzo others zram slots held disk

theorem andPageMask_zero : andPageMask 0 = 0 := by
  simp [andPageMask]

theorem Blank.reads (blank : Blank others zram) (table : zram.initDone = true → zram.tableAddress ≠ 0)
    (masked : andPageMask zram.disksize = zram.disksize) : Reads lzo others zram fun _ => none :=
  ⟨_, _, blank.sound, fun _ _ => rfl, table, masked⟩

theorem Valid.keep (valid : Valid lzo others zram slots held disk) (same : SameDevice zram after) (ready : zram.initDone = true)
    {filled : Nat → Slot} {now : Storage → Prop} {final : Disk} (sound : Sound lzo others after filled now final) :
    Reads lzo others after final := by
  refine ⟨filled, now, sound, fun idle => ?_, fun _ => ?_, ?_⟩
  · rw [same.initDone, ready] at idle
    cases idle
  · rw [same.tableAddress]
    exact valid.table ready
  · rw [same.disksize]
    exact valid.masked

theorem Blank.init (blank : Blank others zram) (idle : zram.initDone = false) (sized : zram.disksize ≠ 0)
    (masked : andPageMask zram.disksize = zram.disksize)
    (allocations : InitAllocations) {ret : Int} (taken : zramInitDevice zram allocations = some (after, ret)) :
    (Reads lzo others after fun _ => none) ∧ (ret = 0 → after.initDone = true ∧ after.disksize = zram.disksize) := by
  have ended := initSection_end idle allocations
  unfold zramInitDevice at taken
  generalize initSection zram allocations = result at ended taken
  cases ended with
  | done xv table stats disksize initDone tableAddress =>
    rename_i fresh
    cases (Option.some.inj taken : (fresh, (0 : Int)) = (after, ret))
    have owned : zram.xv.kernel.owned = others := (blank.backed.nothing fun _ => id).1
    have size : after.disksize = zram.disksize := (disksize sized).trans masked
    have ready : Blank others after := by
      refine ⟨?_, congrFun table, ?_, ?_, ?_, ?_, ?_⟩
      · rw [xv, ← owned]
        exact .create _
      all_goals rw [stats]
      · exact blank.comprSize
      · exact blank.pagesStored
      · exact blank.pagesZero
      · exact blank.pagesExpand
      · exact blank.goodCompress
    exact ⟨ready.reads (fun _ => tableAddress) (by rw [size, masked]), fun _ => ⟨initDone, size⟩⟩
  | failed xv table stats error =>
    rename_i fresh code
    have torn : Blank others fresh := by
      refine ⟨?_, ?_, ?_, ?_, ?_, ?_, ?_⟩
      · rw [xv]
        exact blank.backed
      · rcases table with same | empty
        · rw [same]
          exact blank.table
        · exact congrFun empty
      all_goals rw [stats]
      · exact blank.comprSize
      · exact blank.pagesStored
      · exact blank.pagesZero
      · exact blank.pagesExpand
      · exact blank.goodCompress
    dsimp only at taken
    rw [if_neg error, Option.map_eq_some_iff] at taken
    obtain ⟨reset, ended, same⟩ := taken
    cases same
    rcases Classical.em (fresh.tableAddress ≠ 0 ∨ fresh.numPages = 0) with reachable | missing
    · have sound : Sound lzo others fresh (fun _ => .empty) (fun _ => False) fun _ => none := torn.sound
      obtain ⟨result, found, blank, idle, size, _⟩ := sound.reset reachable
      obtain rfl : result = after := Option.some.inj (found.symm.trans ended)
      refine ⟨blank.reads (fun ready => ?_) ?_, fun zero => absurd zero error⟩
      · rw [idle] at ready
        cases ready
      · rw [size, andPageMask_zero]
    · rw [zramResetDevice, if_pos (by omega)] at ended
      cases ended

end Device

/-- A device and what its pages should read as. -/
structure Session where
  zram : Zram
  disk : Disk

inductive Request
  | bio (bio : Bio)
  | notify (index : Nat)
  | reset
  | disksize (value : Option Nat)

/-- What a bio that ended with `completion` makes of the disk. -/
def Bio.after (disk : Disk) (completion : Completion) : Bio → Disk
  | .read _ _ => disk
  | .write sector segments _ => wrote disk (sector / sectorsPerPage) (segments.map Prod.fst) completion.served completion.ok
  | .discard sector size => discarded disk (sector / sectorsPerPage) (size / pageSize)

def Session.step (lzo : Lzo) (session : Session) : Request → Option Session
  | .bio bio => (zramMakeRequest lzo session.zram bio).map fun completion =>
    ⟨completion.zram, if validIoRequest session.zram bio then bio.after session.disk completion else session.disk⟩
  | .notify index => (zramSlotFreeNotify session.zram index).map fun zram => ⟨zram, Function.update session.disk index none⟩
  | .reset => (resetStore session.zram).map fun zram => ⟨zram, if session.zram.initDone then fun _ => none else session.disk⟩
  | .disksize value => some ⟨disksizeStore session.zram value, session.disk⟩

/-- The block layer and the swap layer keep requests inside the device. -/
def Inside (zram : Zram) : Request → Prop
  | .bio bio => validIoRequest zram bio = true → bio.sector / sectorsPerPage + bio.size / pageSize ≤ zram.numPages
  | .notify index => index < zram.numPages
  | _ => True

instance (zram : Zram) : (request : Request) → Decidable (Inside zram request)
  | .bio _ => inferInstanceAs (Decidable (_ → _))
  | .notify _ => inferInstanceAs (Decidable (_ < _))
  | .reset | .disksize _ => .isTrue trivial

/-- A device just created, with its pages still to come. -/
def Session.create (others : Finset Page) (memory : Memory Page) : Session :=
  ⟨createDevice ⟨⟨memory, others⟩, xvCreatePool⟩, fun _ => none⟩

/-- The pages of a disk of 2^44 bytes have numbers of 32 bits. -/
def smallDisk : Nat := 2 ^ 44

section Sessions
variable {lzo : Lzo} {others : Finset Page} {zram after : Zram} {slots : Nat → Slot} {held : Storage → Prop} {disk : Disk}

theorem create_reads (others : Finset Page) (memory : Memory Page) :
    Reads lzo others (Session.create others memory).zram (Session.create others memory).disk := by
  have blank : Blank others (Session.create others memory).zram := ⟨.create memory, fun _ => rfl, rfl, rfl, rfl, rfl, rfl⟩
  refine blank.reads (fun ready => ?_) andPageMask_zero
  cases ready

theorem smallDisk_pages (small : zram.disksize ≤ smallDisk) : zram.numPages ≤ 2 ^ 32 := by
  unfold Zram.numPages smallDisk at *
  simp only [pageSize_eq]
  omega

theorem first_index {sector count : Nat} (inside : sector / sectorsPerPage + count ≤ zram.numPages) (nonempty : 0 < count)
    (small : zram.disksize ≤ smallDisk) : sector / sectorsPerPage % 2 ^ 32 = sector / sectorsPerPage := by
  have bound := smallDisk_pages small
  exact Nat.mod_eq_of_lt (by omega)

theorem Valid.write (valid : Valid lzo others zram slots held disk) (ready : zram.initDone = true) {sector : Nat}
    {segments : List (PageData × PageAllocator)} (inside : sector / sectorsPerPage + segments.length ≤ zram.numPages) :
    ∃ completion final, writeInitialised lzo zram sector segments = some completion ∧ Reads lzo others completion.zram final ∧
      (zram.disksize ≤ smallDisk →
        final = wrote disk (sector / sectorsPerPage) (segments.map Prod.fst) completion.served completion.ok) := by
  have small := Nat.mod_le (sector / sectorsPerPage) (2 ^ 32)
  have counted : Sound lzo others { zram with stats := { zram.stats with numWrites := zramStat64Inc zram.stats.numWrites } }
      slots held disk :=
    valid.sound.recount rfl rfl rfl rfl rfl
  obtain ⟨completion, filled, now, final, ended, sound, same, count, total, shows⟩ :=
    counted.writeSegments 0 (show sector / sectorsPerPage % 2 ^ 32 + segments.length ≤ zram.numPages by omega)
  refine ⟨completion, final, ended, valid.keep ⟨same.disksize, same.initDone, same.tableAddress⟩ ready sound, fun bounded => ?_⟩
  rw [Nat.zero_add] at total
  subst total
  cases segments with
  | nil =>
    cases ended
    rw [shows (by simp only [List.length_nil]; omega)]
    exact wrote_nothing.trans wrote_nothing.symm
  | cons segment rest =>
    rw [first_index inside (Nat.succ_pos _) bounded] at shows
    exact shows (inside.trans (smallDisk_pages bounded))

theorem Valid.recount (valid : Valid lzo others zram slots held disk) {stats : Stats} (comprSize : stats.comprSize = zram.stats.comprSize)
    (pagesStored : stats.pagesStored = zram.stats.pagesStored) (pagesZero : stats.pagesZero = zram.stats.pagesZero)
    (pagesExpand : stats.pagesExpand = zram.stats.pagesExpand) (goodCompress : stats.goodCompress = zram.stats.goodCompress) :
    Valid lzo others { zram with stats } slots held disk :=
  ⟨valid.sound.recount comprSize pagesStored pagesZero pagesExpand goodCompress, valid.idle, valid.table, valid.masked⟩

theorem Valid.discard (valid : Valid lzo others zram slots held disk) {sector size : Nat}
    (inside : sector / sectorsPerPage + size / pageSize ≤ zram.numPages) :
    ∃ completion final, zramDiscard zram sector size = some completion ∧ Reads lzo others completion.zram final ∧
      (zram.disksize ≤ smallDisk → final = discarded disk (sector / sectorsPerPage) (size / pageSize)) := by
  unfold zramDiscard
  cases ready : zram.initDone with
  | false =>
    refine ⟨_, disk, rfl, ⟨slots, held, valid.recount rfl rfl rfl rfl rfl⟩, fun _ => ?_⟩
    rw [(valid.sound.blank (valid.idle ready)).2]
    funext index
    simp [discarded]
  | true =>
    obtain ⟨after, filled, now, final, ended, sound, same, shows⟩ :=
      valid.sound.discardPages (size / pageSize) (sector / sectorsPerPage % 2 ^ 32)
    rw [if_pos rfl, ended]
    obtain ⟨slots', held', kept⟩ := valid.keep same ready sound
    refine ⟨_, final, rfl, ⟨slots', held', kept.recount rfl rfl rfl rfl rfl⟩, fun bounded => ?_⟩
    rcases Nat.eq_zero_or_pos (size / pageSize) with nothing | some_
    · rw [nothing] at shows ⊢
      rw [shows (by omega), discarded_nothing, discarded_nothing]
    · rw [first_index inside some_ bounded] at shows
      exact shows (inside.trans (smallDisk_pages bounded))

theorem validIoRequest_sized {bio : Bio} (admitted : validIoRequest zram bio = true) : zram.disksize ≠ 0 := by
  intro none
  simp [validIoRequest, none] at admitted

/-- Every request keeps the device valid, and while page numbers have 32 bits it
does to the disk what it should. -/
theorem Valid.request (valid : Valid lzo others zram slots held disk) {bio : Bio} {completion : Completion}
    (inside : Inside zram (.bio bio))
    (taken : zramMakeRequest lzo zram bio = some completion) : ∃ final, Reads lzo others completion.zram final ∧
      (zram.disksize ≤ smallDisk → final = if validIoRequest zram bio then bio.after disk completion else disk) := by
  unfold zramMakeRequest at taken
  cases admitted : validIoRequest zram bio with
  | false =>
    rw [admitted] at taken
    cases taken
    exact ⟨disk, ⟨slots, held, valid.recount rfl rfl rfl rfl rfl⟩, fun _ => rfl⟩
  | true =>
    have range := inside admitted
    rw [admitted, if_pos rfl] at taken
    cases bio with
    | read sector pages =>
      cases taken
      refine ⟨disk, ?_, fun _ => rfl⟩
      unfold zramRead
      split
      next =>
        dsimp only
        split
        next => exact ⟨slots, held, valid.recount rfl rfl rfl rfl rfl⟩
        next => exact ⟨slots, held, valid.recount rfl rfl rfl rfl rfl⟩
      next => exact ⟨slots, held, valid⟩
    | write sector segments allocations =>
      have pages : segments.length * pageSize / pageSize = segments.length := Nat.mul_div_cancel _ (by decide)
      simp only [Bio.sector, Bio.size, pages] at range
      unfold zramWrite at taken
      cases ready : zram.initDone with
      | true =>
        obtain ⟨result, final, ended, reads, shows⟩ := valid.write ready range
        rw [ready] at taken
        obtain rfl : result = completion := Option.some.inj (ended.symm.trans taken)
        exact ⟨final, reads, shows⟩
      | false =>
        obtain ⟨blank, rfl⟩ := valid.sound.blank (valid.idle ready)
        simp only [ready, Bool.false_eq_true, if_false] at taken
        split at taken
        next => cases taken
        next after ret started =>
          obtain ⟨⟨slots', held', kept⟩, fine⟩ := blank.init ready (validIoRequest_sized admitted) valid.masked allocations started
          split at taken
          next zero =>
            obtain ⟨initDone, size⟩ := fine zero
            have pagesSame : after.numPages = zram.numPages := congrArg (· / pageSize) size
            obtain ⟨result, final, ended, reads, shows⟩ := kept.write initDone (pagesSame ▸ range)
            obtain rfl : result = completion := Option.some.inj (ended.symm.trans taken)
            exact ⟨final, reads, fun bounded => shows (size ▸ bounded)⟩
          next =>
            cases taken
            refine ⟨_, ⟨slots', held', kept⟩, fun _ => ?_⟩
            rw [if_pos rfl, Bio.after, wrote_failed]
            exact (Function.update_eq_self _ _).symm
    | discard sector size =>
      obtain ⟨result, final, ended, reads, shows⟩ := valid.discard (show sector / sectorsPerPage + size / pageSize ≤ _ from range)
      obtain rfl : result = completion := Option.some.inj (ended.symm.trans taken)
      exact ⟨final, reads, shows⟩

theorem Valid.step (valid : Valid lzo others zram slots held disk) {request : Request} {session : Session} {ghost : Disk}
    (inside : Inside zram request)
    (taken : Session.step lzo ⟨zram, ghost⟩ request = some session) :
    ∃ final, Reads lzo others session.zram final ∧ (zram.disksize ≤ smallDisk → ghost = disk → session.disk = final) := by
  cases request with
  | bio bio =>
    obtain ⟨completion, served, rfl⟩ := Option.map_eq_some_iff.mp taken
    obtain ⟨final, reads, shows⟩ := valid.request inside served
    exact ⟨final, reads, fun bounded same => by rw [shows bounded, same]⟩
  | notify index =>
    obtain ⟨after, notified, rfl⟩ := Option.map_eq_some_iff.mp taken
    unfold zramSlotFreeNotify at notified
    split at notified
    next => cases notified
    next =>
      obtain ⟨freed, released, rfl⟩ := Option.map_eq_some_iff.mp notified
      obtain ⟨result, now, same, sound, device⟩ := valid.sound.freePage index
      obtain rfl : result = freed := Option.some.inj (same.symm.trans released)
      refine ⟨Function.update disk index none, ?_, fun _ same => by rw [same]⟩
      cases ready : zram.initDone with
      | true =>
        obtain ⟨slots', held', kept⟩ := valid.keep device ready sound
        exact ⟨slots', held', kept.recount rfl rfl rfl rfl rfl⟩
      | false =>
        have idle : Valid lzo others result (Function.update slots index .empty) now (Function.update disk index none) := by
          refine ⟨sound, fun _ other => ?_, fun ready' => ?_, ?_⟩
          · rcases Classical.em (other = index) with rfl | elsewhere
            · rw [Function.update_self]
            · rw [Function.update_of_ne elsewhere, valid.idle ready]
          · rw [device.initDone, ready] at ready'
            cases ready'
          · rw [device.disksize, valid.masked]
        exact ⟨_, _, idle.recount rfl rfl rfl rfl rfl⟩
  | reset =>
    obtain ⟨after, stored, rfl⟩ := Option.map_eq_some_iff.mp taken
    unfold resetStore at stored
    dsimp only at stored ⊢
    cases ready : zram.initDone with
    | false =>
      rw [ready] at stored
      cases stored
      exact ⟨disk, ⟨slots, held, valid⟩, fun _ same => same⟩
    | true =>
      rw [ready, if_pos rfl] at stored
      obtain ⟨result, ended, blank, idle, size, _⟩ := valid.sound.reset (.inl (valid.table ready))
      obtain rfl : result = after := Option.some.inj (ended.symm.trans stored)
      refine ⟨fun _ => none, blank.reads (fun ready' => ?_) (by rw [size, andPageMask_zero]), fun _ _ => if_pos rfl⟩
      rw [idle] at ready'
      cases ready'
  | disksize value =>
    cases taken
    refine ⟨disk, ?_, fun _ same => same⟩
    unfold disksizeStore
    split
    next => exact ⟨slots, held, valid⟩
    next idle =>
      have unset : zram.initDone = false := by simpa using idle
      obtain ⟨blank, rfl⟩ := valid.sound.blank (valid.idle unset)
      have sized {bytes : Nat} (masked : andPageMask bytes = bytes) : Reads lzo others { zram with disksize := bytes } fun _ => none := by
        have still : Blank others { zram with disksize := bytes } := ⟨blank.backed, blank.table, blank.comprSize, blank.pagesStored,
          blank.pagesZero, blank.pagesExpand, blank.goodCompress⟩
        refine still.reads (fun ready => ?_) masked
        rw [unset] at ready
        cases ready
      split
      next => exact sized andPageMask_zero
      next bytes => exact sized (andPageMask_idem _)

/-- The run lemma: whatever the requests, some disk accounts for the device. -/
theorem run_reads {session : Session} {memory : Memory Page}
    (run : Run (Session.step lzo) (fun session request => Inside session.zram request) (Session.create others memory) session) :
    ∃ disk, Reads lzo others session.zram disk := by
  refine run.invariant (fun session => ∃ disk, Reads lzo others session.zram disk) ⟨_, create_reads others memory⟩ ?_
  rintro ⟨zram, ghost⟩ after request ⟨disk, slots, held, valid⟩ inside taken
  obtain ⟨final, reads, _⟩ := valid.step inside taken
  exact ⟨final, reads⟩

end Sessions
end Compcache.ZramDrv
