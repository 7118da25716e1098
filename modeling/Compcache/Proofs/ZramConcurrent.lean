import Compcache.Library.Parties
import Compcache.Proofs.ZramDevice

/-! Requests that interleave. A write releases the old contents of a page before
it takes the device lock, and flags a page of zeros after it drops it, so other
requests may come to the page in between. -/

namespace Compcache.ZramDrv
open Library.PagedMemory Library.Ownership Library.Runs Library.Parties Xvmalloc

section Machine
variable [Arch]

/-- Where a request stands: a write about to release the next page, one between
the release and the lock, one that found zeros and has dropped the lock, or a
discard with some pages left. -/
inductive Pending
  | release (index : Nat) (segments : List (PageData × PageAllocator))
  | lock (index : Nat) (data : PageData) (allocator : PageAllocator) (rest : List (PageData × PageAllocator))
  | mark (index : Nat) (rest : List (PageData × PageAllocator))
  | discard (index npages : Nat)

/-- An initialised device and the requests in progress. -/
structure Machine where
  zram : Zram
  pending : AList fun _ : Nat => Pending

inductive Action
  | start (request : Nat) (bio : Bio)
  | advance (request : Nat)
  | notify (index : Nat)

def Machine.leave (machine : Machine) (request : Nat) (zram : Zram) : Machine := ⟨zram, machine.pending.erase request⟩

def Machine.proceed (machine : Machine) (request : Nat) (zram : Zram) (pending : Pending) : Machine :=
  ⟨zram, machine.pending.insert request pending⟩

/-- The first page of a request, as the loops count. -/
def firstIndex (sector : Nat) : Nat := sector / sectorsPerPage % 2 ^ 32

def Machine.start (machine : Machine) (request : Nat) (bio : Bio) : Option Machine :=
  if (machine.pending.lookup request).isNone ∧ machine.zram.initDone = true ∧ validIoRequest machine.zram bio = true then
    match bio with
    | .write sector segments _ =>
      let stats := { machine.zram.stats with numWrites := zramStat64Inc machine.zram.stats.numWrites }
      some (machine.proceed request { machine.zram with stats } (.release (firstIndex sector) segments))
    | .discard sector size => some (machine.proceed request machine.zram (.discard (firstIndex sector) (size / pageSize)))
    | .read _ _ => none
  else none

/-- Where a write goes on after the section under the lock. -/
def Machine.unlock (machine : Machine) (request index : Nat) (rest : List (PageData × PageAllocator)) : Section → Machine
  | .zeroFilled => machine.proceed request machine.zram (.mark index rest)
  | .stored zram => machine.proceed request zram (.release ((index + 1) % 2 ^ 32) rest)
  | .failed zram => machine.leave request zram

def Machine.advance (lzo : Lzo) (machine : Machine) (request : Nat) : Pending → Option Machine
  | .release _ [] => some (machine.leave request machine.zram)
  | .release index ((data, allocator) :: rest) =>
    (releaseSlot machine.zram index).map fun zram => machine.proceed request zram (.lock index data allocator rest)
  | .lock index data allocator rest => some (machine.unlock request index rest (lockedSection lzo machine.zram index data allocator))
  | .mark index rest => some (machine.proceed request (setZero machine.zram index) (.release ((index + 1) % 2 ^ 32) rest))
  | .discard _ 0 =>
    let stats := { machine.zram.stats with discard := zramStat64Inc machine.zram.stats.discard }
    some (machine.leave request { machine.zram with stats })
  | .discard index (npages + 1) =>
    (zramFreePage machine.zram index).map fun zram => machine.proceed request zram (.discard ((index + 1) % 2 ^ 32) npages)

/-- `none` when the action is not enabled, and at the BUG_ON of `xv_free`. -/
def Machine.step (lzo : Lzo) (machine : Machine) : Action → Option Machine
  | .start request bio => machine.start request bio
  | .advance request => (machine.pending.lookup request).bind (machine.advance lzo request)
  | .notify index => (zramSlotFreeNotify machine.zram index).map fun zram => { machine with zram }

/-- Requests are made inside the device. -/
def Machine.Admits (machine : Machine) : Action → Prop
  | .start _ bio => Inside machine.zram (.bio bio)
  | .notify index => Inside machine.zram (.notify index)
  | .advance _ => True

instance (machine : Machine) : (action : Action) → Decidable (machine.Admits action)
  | .start _ bio => inferInstanceAs (Decidable (Inside machine.zram (.bio bio)))
  | .notify index => inferInstanceAs (Decidable (Inside machine.zram (.notify index)))
  | .advance _ => .isTrue trivial

/-- Nothing is stored at a page, and it is not flagged. -/
def Vacant (zram : Zram) (index : Nat) : Prop := (zram.table index).page = noPage ∧ (zram.table index).zero = false

instance (zram : Zram) (index : Nat) : Decidable (Vacant zram index) := inferInstanceAs (Decidable (_ ∧ _))

/-- A write that is about to store a page or flag it finds the entry as its own
release left it. -/
def Pending.Undisturbed (zram : Zram) : Pending → Prop
  | .lock index data _ _ => pageZeroFilled data = true ∨ Vacant zram index
  | .mark index _ => Vacant zram index
  | .release _ _ | .discard _ _ => True

instance (zram : Zram) : (pending : Pending) → Decidable (pending.Undisturbed zram)
  | .lock index data _ _ => inferInstanceAs (Decidable (pageZeroFilled data = true ∨ Vacant zram index))
  | .mark index _ => inferInstanceAs (Decidable (Vacant zram index))
  | .release _ _ | .discard _ _ => .isTrue trivial

def Machine.Undisturbed (machine : Machine) : Action → Prop
  | .advance request => ∀ pending ∈ machine.pending.lookup request, pending.Undisturbed machine.zram
  | .start _ _ | .notify _ => True

instance (machine : Machine) : (action : Action) → Decidable (machine.Undisturbed action)
  | .advance request => inferInstanceAs (Decidable (∀ pending ∈ machine.pending.lookup request, pending.Undisturbed machine.zram))
  | .start _ _ | .notify _ => .isTrue trivial

/-- A step inside the device that nothing has come between. -/
def Machine.Orderly (machine : Machine) (action : Action) : Prop := machine.Admits action ∧ machine.Undisturbed action

instance (machine : Machine) (action : Action) : Decidable (machine.Orderly action) := inferInstanceAs (Decidable (_ ∧ _))

/-- The pages a request still has to come to are on the disk. -/
def Pending.Within (count : Nat) : Pending → Prop
  | release index segments => index + segments.length ≤ count
  | lock index _ _ rest => index + (rest.length + 1) ≤ count
  | mark index rest => index + (rest.length + 1) ≤ count
  | discard _ _ => True

theorem Machine.step_same {lzo : Lzo} {machine after : Machine} {action : Action} (taken : machine.step lzo action = some after) :
    SameDevice machine.zram after.zram := by
  cases action with
  | start request bio =>
    simp only [Machine.step, Machine.start] at taken
    split at taken
    next =>
      cases bio
      all_goals
        cases taken
        try exact ⟨rfl, rfl, rfl⟩
    next => cases taken
  | notify index =>
    obtain ⟨zram, notified, rfl⟩ := Option.map_eq_some_iff.mp taken
    unfold zramSlotFreeNotify at notified
    split at notified
    next => cases notified
    next =>
      obtain ⟨freed, released, rfl⟩ := Option.map_eq_some_iff.mp notified
      exact (zramFreePage_same released).trans ⟨rfl, rfl, rfl⟩
  | advance request =>
    obtain ⟨pending, _, moved⟩ := Option.bind_eq_some_iff.mp taken
    cases pending with
    | release index segments =>
      cases segments with
      | nil =>
        cases moved
        exact .refl _
      | cons segment rest =>
        obtain ⟨zram, released, rfl⟩ := Option.map_eq_some_iff.mp moved
        exact releaseSlot_same released
    | lock index data allocator rest =>
      obtain rfl : machine.unlock request index rest (lockedSection lzo machine.zram index data allocator) = after := Option.some.inj moved
      have same := lockedSection_same lzo machine.zram index data allocator
      generalize lockedSection lzo machine.zram index data allocator = result at same ⊢
      cases result <;> exact same
    | mark index rest =>
      cases moved
      exact ⟨rfl, rfl, rfl⟩
    | discard index npages =>
      cases npages with
      | zero =>
        cases moved
        exact ⟨rfl, rfl, rfl⟩
      | succ npages =>
        obtain ⟨zram, released, rfl⟩ := Option.map_eq_some_iff.mp moved
        exact zramFreePage_same released

section Steps
variable {lzo : Lzo} {others : Finset Page} {machine after : Machine} {zram : Zram} {slots : Nat → Slot}
    {held : Storage → Prop} {disk : Disk}
  {request index : Nat}

structure Consistent (lzo : Lzo) (others : Finset Page) (machine : Machine) (slots : Nat → Slot) (held : Storage → Prop)
    (disk : Disk) : Prop where
  sound : Sound lzo others machine.zram slots held disk
  within : ∀ {request pending}, machine.pending.lookup request = some pending → pending.Within machine.zram.numPages

theorem Sound.vacant (sound : Sound lzo others zram slots held disk) (vacant : Vacant zram index) : slots index = .empty := by
  have entry := sound.entries index
  unfold Vacant at vacant
  rw [entry] at vacant
  cases found : slots index with
  | empty => rfl
  | zero =>
    rw [found] at vacant
    cases vacant.2
  | stored storage =>
    have present := sound.backed.page_ne (sound.holds found)
    rw [found] at vacant
    refine absurd vacant.1 ?_
    cases storage <;> exact present

theorem Consistent.proceed (consistent : Consistent lzo others machine slots held disk) {filled : Nat → Slot}
    {now : Storage → Prop} {final : Disk}
    (sound : Sound lzo others zram filled now final) (same : SameDevice machine.zram zram) {pending : Pending}
    (within : pending.Within machine.zram.numPages) : Consistent lzo others (machine.proceed request zram pending) filled now final := by
  have pages : zram.numPages = machine.zram.numPages := same.numPages
  refine ⟨sound, fun standing => ?_⟩
  exact pages.symm ▸ forall_insert (fun pending => pending.Within machine.zram.numPages) consistent.within within standing

theorem Consistent.leave (consistent : Consistent lzo others machine slots held disk) {filled : Nat → Slot}
    {now : Storage → Prop} {final : Disk}
    (sound : Sound lzo others zram filled now final) (same : SameDevice machine.zram zram) :
    Consistent lzo others (machine.leave request zram) filled now final := by
  have pages : zram.numPages = machine.zram.numPages := same.numPages
  refine ⟨sound, fun standing => ?_⟩
  exact pages.symm ▸ forall_erase (fun pending => pending.Within machine.zram.numPages) consistent.within standing

theorem Consistent.start (consistent : Consistent lzo others machine slots held disk) {bio : Bio} (inside : Inside machine.zram (.bio bio))
    (taken : machine.start request bio = some after) : Consistent lzo others after slots held disk := by
  unfold Machine.start at taken
  split at taken
  next allowed =>
    have range := inside allowed.2.2
    cases bio with
    | read sector pages => cases taken
    | write sector segments allocations =>
      cases taken
      have pages : segments.length * pageSize / pageSize = segments.length := Nat.mul_div_cancel _ (by decide)
      simp only [Bio.sector, Bio.size, pages] at range
      have small := Nat.mod_le (sector / sectorsPerPage) (2 ^ 32)
      have within : (Pending.release (firstIndex sector) segments).Within machine.zram.numPages := by
        simp only [Pending.Within, firstIndex]
        omega
      have counted :
        Sound lzo others { machine.zram with stats := { machine.zram.stats with numWrites := zramStat64Inc machine.zram.stats.numWrites } }
        slots held disk := consistent.sound.recount rfl rfl rfl rfl rfl
      exact consistent.proceed counted ⟨rfl, rfl, rfl⟩ within
    | discard sector size =>
      cases taken
      exact consistent.proceed consistent.sound (.refl _) trivial
  next => cases taken

/-- The step lemma of a request: whatever it does next, every page of the device
stays accounted for. -/
theorem Consistent.advance (consistent : Consistent lzo others machine slots held disk) {pending : Pending}
    (standing : machine.pending.lookup request = some pending) (undisturbed : machine.Undisturbed (.advance request))
    (taken : machine.advance lzo request pending = some after) :
    ∃ filled now final, Consistent lzo others after filled now final := by
  have within := consistent.within standing
  have undisturbed : pending.Undisturbed machine.zram := undisturbed pending standing
  cases pending with
  | release index segments =>
    cases segments with
    | nil =>
      cases taken
      exact ⟨_, _, _, consistent.leave consistent.sound (.refl _)⟩
    | cons segment rest =>
      obtain ⟨zram, released, rfl⟩ := Option.map_eq_some_iff.mp taken
      obtain ⟨freed, now, found, sound, same⟩ := consistent.sound.releaseSlot index
      obtain rfl : freed = zram := Option.some.inj (found.symm.trans released)
      exact ⟨_, _, _, consistent.proceed sound same within⟩
  | lock index data allocator rest =>
    have next := next_index index within
    obtain rfl : machine.unlock request index rest (lockedSection lzo machine.zram index data allocator) = after := Option.some.inj taken
    cases filled : pageZeroFilled data with
    | true =>
      rw [show lockedSection lzo machine.zram index data allocator = .zeroFilled from if_pos filled]
      exact ⟨_, _, _, consistent.proceed consistent.sound (.refl _) within⟩
    | false =>
      have vacant := consistent.sound.vacant (undisturbed.resolve_left (by simp [filled]))
      simp only [Pending.Within] at within
      have ended := consistent.sound.lockedSection (show index < machine.zram.numPages by omega) vacant data allocator
      generalize lockedSection lzo machine.zram index data allocator = result at ended taken
      cases ended with
      | zeroFilled zeros => exact ⟨_, _, _, consistent.proceed consistent.sound (.refl _) within⟩
      | stored same sound => exact ⟨_, _, _, consistent.proceed sound same next⟩
      | failed same sound => exact ⟨_, _, _, consistent.leave sound same⟩
  | mark index rest =>
    cases taken
    simp only [Pending.Within] at within
    have sound := consistent.sound.setZero (show index < machine.zram.numPages by omega) (consistent.sound.vacant undisturbed)
    exact ⟨_, _, _, consistent.proceed sound ⟨rfl, rfl, rfl⟩ (next_index index within)⟩
  | discard index npages =>
    cases npages with
    | zero =>
      cases taken
      exact ⟨_, _, _, consistent.leave (consistent.sound.recount rfl rfl rfl rfl rfl) ⟨rfl, rfl, rfl⟩⟩
    | succ npages =>
      obtain ⟨zram, released, rfl⟩ := Option.map_eq_some_iff.mp taken
      obtain ⟨freed, now, found, sound, same⟩ := consistent.sound.freePage index
      obtain rfl : freed = zram := Option.some.inj (found.symm.trans released)
      exact ⟨_, _, _, consistent.proceed sound same trivial⟩

theorem Consistent.step (consistent : Consistent lzo others machine slots held disk) {action : Action} (admitted : machine.Admits action)
    (undisturbed : machine.Undisturbed action) (taken : machine.step lzo action = some after) :
    ∃ filled now final, Consistent lzo others after filled now final := by
  cases action with
  | start request bio => exact ⟨_, _, _, consistent.start admitted taken⟩
  | advance request =>
    obtain ⟨pending, standing, moved⟩ := Option.bind_eq_some_iff.mp taken
    exact consistent.advance standing undisturbed moved
  | notify index =>
    obtain ⟨zram, notified, rfl⟩ := Option.map_eq_some_iff.mp taken
    unfold zramSlotFreeNotify at notified
    split at notified
    next => cases notified
    next =>
      obtain ⟨freed, released, rfl⟩ := Option.map_eq_some_iff.mp notified
      obtain ⟨result, now, found, sound, same⟩ := consistent.sound.freePage index
      obtain rfl : result = freed := Option.some.inj (found.symm.trans released)
      refine ⟨_, _, _, sound.recount rfl rfl rfl rfl rfl, fun standing => ?_⟩
      exact same.numPages.symm ▸ consistent.within standing

/-- Every live object of the pool and every page the device took for itself is
named by exactly one entry, and every entry with a page names one of these: `raw`
are the pages taken, `live` the objects the blocks of the pool show. -/
structure Accounted (others : Finset Page) (zram : Zram) (raw : Finset Page) (live : LiveObjects) : Prop where
  heap : ∃ block lists, HeapInvariant (others ∪ raw) zram.xv live block lists
  own : raw ⊆ zram.xv.kernel.owned \ others
  objects : ∀ location size, live location = some size → ∃! index, (zram.table index).page = location.page ∧
    (zram.table index).offset = location.offset ∧ (zram.table index).uncompressed = false
  pages : ∀ page ∈ raw, ∃! index, (zram.table index).page = page ∧ (zram.table index).uncompressed = true
  named : ∀ index, (zram.table index).page ≠ noPage → if (zram.table index).uncompressed then (zram.table index).page ∈ raw
    else (live ⟨(zram.table index).page, (zram.table index).offset⟩).isSome
  exclusive : ∀ index, (zram.table index).page ≠ noPage → (zram.table index).zero = false
  pagesStored : zram.stats.pagesStored = ((Finset.range zram.numPages).filter fun index => (zram.table index).page ≠ noPage).card
  releases : ∀ index, (zramFreePage zram index).isSome

theorem Sound.accounted (sound : Sound lzo others zram slots held disk) (small : zram.disksize < smallDisk) :
    ∃ raw live, Accounted others zram raw live := by
  have books := sound.books small
  obtain ⟨raw, live, layout, lists, backing⟩ := sound.backed
  have stored {index : Nat} (present : (zram.table index).page ≠ noPage) :
      ∃ storage, slots index = .stored storage ∧ zram.table index = (Slot.stored storage).entry := by
    have entry := sound.entries index
    cases found : slots index with
    | stored storage => exact ⟨storage, rfl, found ▸ entry⟩
    | _ => exact absurd (by rw [entry, found]; rfl) present
  refine ⟨raw, live, ⟨layout.block, lists, backing.models.invariant⟩, fun page member => ?_, fun location size allocated => ?_,
    fun page member => ?_,
    fun index present => ?_, books.exclusive, books.pagesStored, fun index => ?_⟩
  · exact sound.backed.owned ((backing.pages page).mpr member)
  · have here := (backing.objects location size).mpr allocated
    obtain ⟨index, found, only⟩ := sound.holders.unique here
    refine ⟨index, ?_, fun other ⟨page, offset, small⟩ => only other (Slot.storage_eq_some.mpr ?_)⟩
    · beta_reduce
      rw [sound.entries index, Slot.storage_eq_some.mp found]
      exact ⟨rfl, rfl, rfl⟩
    · obtain ⟨storage, there, entry⟩ := stored (page ▸ sound.backed.page_ne here)
      rw [entry] at page offset small
      cases storage with
      | page frame => cases small
      | object place length =>
        obtain rfl : place = location := Location.ext page offset
        have same := ((backing.objects _ _).mp (sound.holds there)).symm.trans allocated
        rw [there, Option.some.inj same]
  · have here := (backing.pages page).mpr member
    obtain ⟨index, found, only⟩ := sound.holders.unique here
    refine ⟨index, ?_, fun other ⟨same, whole⟩ => only other (Slot.storage_eq_some.mpr ?_)⟩
    · beta_reduce
      rw [sound.entries index, Slot.storage_eq_some.mp found]
      exact ⟨rfl, rfl⟩
    · obtain ⟨storage, there, entry⟩ := stored (same ▸ sound.backed.page_ne here)
      rw [entry] at same whole
      cases storage with
      | page frame =>
        obtain rfl : frame = page := same
        exact there
      | object place length => cases whole
  · obtain ⟨storage, found, entry⟩ := stored present
    have here := sound.holds found
    rw [entry]
    cases storage with
    | page frame => exact (if_pos rfl).mpr ((backing.pages frame).mp here)
    | object location size =>
      have allocated : live location = some size := (backing.objects location size).mp here
      exact (if_neg Bool.false_ne_true).mpr (Option.isSome_of_eq_some allocated)
  · obtain ⟨freed, _, found, _⟩ := sound.freePage index
    rw [found]
    rfl

/-- As long as every write finds its page as it left it, nothing is leaked or
released twice, whatever the requests and the order of their steps. -/
theorem undisturbed_accounted {memory : Memory Page} {session : Session}
    (built : Run (Session.step lzo) (fun session request => Inside session.zram request) (Session.create others memory) session)
    (run : Run (Machine.step lzo) Machine.Orderly ⟨session.zram, ∅⟩ machine)
    (small : machine.zram.disksize < smallDisk) : ∃ raw live, Accounted others machine.zram raw live := by
  obtain ⟨disk, slots, held, valid⟩ := run_reads built
  have initial : Consistent lzo others ⟨session.zram, ∅⟩ slots held disk := by
    refine ⟨valid.sound, fun standing => ?_⟩
    rw [AList.lookup_empty] at standing
    cases standing
  obtain ⟨filled, now, final, consistent⟩ : ∃ slots held disk, Consistent lzo others machine slots held disk := by
    refine run.invariant (fun machine => ∃ slots held disk, Consistent lzo others machine slots held disk) ⟨_, _, _, initial⟩ ?_
    rintro before after action ⟨slots, held, disk, consistent⟩ ⟨admitted, undisturbed⟩ taken
    exact consistent.step admitted undisturbed taken
  exact consistent.sound.accounted small

end Steps
end Machine

section Sample
local instance sampleWriters : Arch := Arch.x64

/-- Two writes and a discard in turns: one write puts an object in place of the page
stored as it is, the other makes a page of zeros and, after a notification has dropped
that, an object of the page behind. -/
def inTurns : List Action :=
  [.start 1 (.write 0 [(PageData.filled 5, secondPage)] granted),
    .start 2 (.write 8 [(PageData.zeros, .exhausted), (PageData.filled 7, .exhausted)] granted), .start 3 (.discard 24 4096),
    .advance 1, .advance 2, .advance 3, .advance 2, .advance 1, .advance 2, .notify 1, .advance 2, .advance 2, .advance 1,
      .advance 2, .advance 3]

theorem undisturbed_accounted_sample : ∃ (machine : Machine) (raw : Finset Page) (live : LiveObjects), machine.pending.entries = [] ∧
    machine.zram.stats.pagesStored = 2 ∧ machine.zram.xv.kernel.owned = {2} ∧ Accounted ∅ machine.zram raw live := by
  obtain ⟨machine, taken, sized, quiet, stored, owned⟩ :
    ∃ machine ∈ steps (tested (Machine.step Lzo.runs) fun machine action => machine.Orderly action)
      ⟨noiseDisk.zram, ∅⟩ inTurns, machine.zram.disksize = 16384 ∧ machine.pending.entries.length = 0 ∧ machine.zram.stats.pagesStored = 2 ∧
        machine.zram.xv.kernel.owned = {2} := by decide +kernel
  have run : Run (Machine.step Lzo.runs) Machine.Orderly ⟨noiseDisk.zram, ∅⟩ machine := .of_tested of_decide_eq_true taken
  obtain ⟨raw, live, accounted⟩ := undisturbed_accounted (noiseDisk_run.mono fun _ _ both => both.1) run (by rw [sized]; decide)
  exact ⟨machine, raw, live, List.eq_nil_of_length_eq_zero quiet, stored, owned, accounted⟩

/-- Two writes to the first page, both with the old contents released. -/
def racing : Machine where
  zram := { sampleReady with stats := { sampleReady.stats with numWrites := 3 } }
  pending :=
    (((AList.insert 1 (Pending.release 0 [(PageData.noise, firstPage)]) ∅).insert 2 (.release 0 [(PageData.noise, secondPage)])).insert 1
    (.lock 0 PageData.noise firstPage [])).insert 2 (.lock 0 PageData.noise secondPage [])

theorem advances_admitted (requests : List Nat) (machine : Machine) : ∀ action ∈ requests.map Action.advance, machine.Admits action := by
  intro action member
  obtain ⟨request, _, rfl⟩ := List.mem_map.mp member
  trivial

theorem racing_reached : Run (Machine.step Lzo.literal) Machine.Admits ⟨sampleReady, ∅⟩ racing := by
  have first : Run (Machine.step Lzo.literal) Machine.Admits ⟨sampleReady, ∅⟩ _ :=
    .step .start (show Machine.Admits _ (.start 1 sampleWrite) from fun _ => by decide +kernel) rfl
  have second :=
    first.step (show Machine.Admits _ (.start 2 (.write 0 [(PageData.noise, secondPage)] granted)) from fun _ => by decide +kernel) rfl
  exact second.trans (.of_steps (advances_admitted [1, 2]) rfl)

/-- The device once the first of them has stored its page, and once both have. -/
def storedOnce : Zram := storeWhole racing.zram 0 PageData.noise 1 ⟨Function.update (fun _ _ => 0) 1 fun _ => 0, {1}⟩

def storedTwice : Zram := storeWhole storedOnce 0 PageData.noise 2 ⟨Function.update storedOnce.xv.kernel.memory 2 fun _ => 0, {2, 1}⟩

theorem racing_ends : steps (Machine.step Lzo.literal) racing [.advance 1, .advance 2, .advance 1, .advance 2] = some ⟨storedTwice, ∅⟩ := by
  have firstOffered : racing.zram.xv.kernel.allocPage firstPage = some (1, ⟨Function.update (fun _ _ => 0) 1 fun _ => 0, {1}⟩) := rfl
  have secondOffered : storedOnce.xv.kernel.allocPage secondPage =
    some (2, ⟨Function.update storedOnce.xv.kernel.memory 2 fun _ => 0, {2, 1}⟩) := rfl
  have first : racing.step Lzo.literal (.advance 1) = some (racing.proceed 1 storedOnce (.release 1 [])) := by
    show some (racing.unlock 1 0 [] (lockedSection Lzo.literal racing.zram 0 PageData.noise firstPage)) = _
    rw [noise_uncompressed rfl firstOffered]
    rfl
  have second : (racing.proceed 1 storedOnce (.release 1 [])).step Lzo.literal (.advance 2) =
      some ((racing.proceed 1 storedOnce (.release 1 [])).proceed 2 storedTwice (.release 1 [])) := by
    show some (Machine.unlock _ 2 0 [] (lockedSection Lzo.literal storedOnce 0 PageData.noise secondPage)) = _
    rw [noise_uncompressed rfl secondOffered]
    rfl
  unfold steps
  rw [first, Option.bind_some]
  unfold steps
  rw [second, Option.bind_some]
  rfl

theorem storedTwice_page (index : Nat) : (storedTwice.table index).page = if index = 0 then 2 else noPage := by
  rcases Classical.em (index = 0) with rfl | elsewhere
  · rfl
  · rw [if_neg elsewhere]
    unfold storedTwice storedOnce
    rw [storeWhole_table, Function.update_of_ne elsewhere, storeWhole_table, Function.update_of_ne elsewhere]
    rfl

theorem storedTwice_numPages : storedTwice.numPages = 2 := rfl

/-- Two writes to one page both release its old contents and then both store
theirs: the page of the first is leaked, and is counted for good. -/
theorem writers_race : ∃ session machine,
    Run (Session.step Lzo.literal) (fun session request => Inside session.zram request) (Session.create ∅ fun _ _ => 0) session ∧
    Run (Machine.step Lzo.literal) Machine.Admits ⟨session.zram, ∅⟩ machine ∧ machine.pending = ∅ ∧ machine.zram.disksize = 8192 ∧
    (1 ∈ machine.zram.xv.kernel.owned ∧ ∀ index, (machine.zram.table index).page ≠ 1) ∧ machine.zram.stats.pagesStored = 2 ∧
    ¬ ∃ raw live, Accounted ∅ machine.zram raw live := by
  have run := racing_reached.trans (.of_steps (advances_admitted [1, 2, 1, 2]) racing_ends)
  refine ⟨_, _, sampleReady_run.mono fun _ _ both => both.1, run, rfl, rfl, ⟨?_, fun index => ?_⟩, rfl, ?_⟩
  · exact Finset.mem_insert_of_mem (Finset.mem_singleton_self 1)
  · rw [storedTwice_page]
    split <;> decide
  · rintro ⟨raw, live, accounted⟩
    have counted := accounted.pagesStored
    have pages : (Finset.range storedTwice.numPages).filter (fun index => (storedTwice.table index).page ≠ noPage) = {0} := by
      ext index
      rw [Finset.mem_filter, storedTwice_page, Finset.mem_singleton]
      rcases Classical.em (index = 0) with rfl | elsewhere
      · simp [storedTwice_numPages, noPage]
      · simp [elsewhere]
    rw [pages] at counted
    exact absurd counted (by decide)

end Sample
end Compcache.ZramDrv
