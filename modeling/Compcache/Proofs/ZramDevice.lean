import Mathlib.Algebra.BigOperators.Group.Finset.Piecewise
import Compcache.Proofs.ZramRuns

/-! What holds of a device after any run: it reads back what was written, its
counters are right, and a reset gives every page back. -/

namespace Compcache.ZramDrv
open Library.PagedMemory Library.Ownership Library.Runs Xvmalloc

section Contents
variable [Arch] {lzo : Lzo} {others : Finset Page} {zram : Zram} {slots : Nat → Slot} {held : Storage → Prop} {disk : Disk}

theorem Sound.readSegment (sound : Sound lzo others zram slots held disk) (inverts : lzo.Inverts) (index : Nat) (page : PageData) :
    readSegment lzo zram index page = (true, (disk index).getD page) := by
  have entry := sound.entries index
  have content := sound.content index
  unfold ZramDrv.readSegment
  rw [entry]
  cases found : slots index with
  | empty =>
    rw [found] at content
    generalize disk index = data at content
    cases content with
    | empty => rfl
  | zero =>
    rw [found] at content
    generalize disk index = data at content
    cases content with
    | zero => rfl
  | stored storage =>
    have here : held storage := sound.holds found
    have present := sound.backed.page_ne here
    rw [found] at content
    generalize disk index = data at content
    cases content with
    | page copied =>
      rename_i frame data
      refine (if_neg Bool.false_ne_true).trans ((if_neg present).trans ((if_pos rfl).trans ?_))
      rw [Storage.bytes_page] at copied
      have same : PageData.copy zram.xv.memory frame 0 = data := by
        apply Subtype.ext
        rw [PageData.copy_val, copied]
      rw [Option.getD_some, ← same]
      rfl
    | object compressed =>
      rename_i location size data
      have bound := sound.backed.object_inside here
      have clen : sub32 (xvGetObjectSize zram.xv.memory location.page location.offset) zobjHeaderSize = size := by
        rw [sound.backed.object_size here]
        exact sub32_eq (Nat.zero_le _) (by simp only [pageSize_eq] at bound; omega)
      refine (if_neg Bool.false_ne_true).trans ((if_neg present).trans ((if_neg Bool.false_ne_true).trans ?_))
      simp only [Slot.entry, clen]
      have restored := inverts compressed
      rw [show zram.xv.memory.read location.page (location.offset + zobjHeaderSize) size =
        (Storage.object location size).bytes zram.xv.memory from rfl,
        restored]
      exact congrArg (Prod.mk true) (PageData.overwrite_whole page data.property)

theorem Sound.readSegments (sound : Sound lzo others zram slots held disk) (inverts : lzo.Inverts) (index : Nat) (pages : List PageData) :
    (readSegments lzo zram index pages).1 = true ∧
      (index + pages.length ≤ 2 ^ 32 → ∀ position, (readSegments lzo zram index pages).2[position]? =
      pages[position]?.map fun page => (disk (index + position)).getD page) := by
  induction pages generalizing index with
  | nil => exact ⟨rfl, fun _ position => rfl⟩
  | cons page rest ih =>
    obtain ⟨served, shows⟩ := ih ((index + 1) % 2 ^ 32)
    unfold ZramDrv.readSegments
    rw [sound.readSegment inverts]
    refine ⟨served, fun short position => ?_⟩
    rw [List.length_cons] at short
    cases position with
    | zero => rfl
    | succ position =>
      rw [List.getElem?_cons_succ, List.getElem?_cons_succ]
      cases rest with
      | nil => rfl
      | cons other more =>
        rw [List.length_cons] at short
        have unwrapped : (index + 1) % 2 ^ 32 = index + 1 := Nat.mod_eq_of_lt (by omega)
        rw [unwrapped] at shows ⊢
        rw [shows (by rw [List.length_cons]; omega) position, show index + 1 + position = index + (position + 1) by omega]

/-- How many segments of a write are stored shows in its status and in that of the
same write with fewer segments: those of `served` segments or less succeed. -/
structure Reports (segments : List (PageData × PageAllocator)) (write : List (PageData × PageAllocator) → Option Completion) (start : Nat)
    (completion : Completion) : Prop where
  most : completion.served ≤ start + segments.length
  whole : completion.ok = true → completion.served = start + segments.length
  parts : ∀ count, 0 < count → count ≤ segments.length →
    ∃ part, write (segments.take count) = some part ∧ (part.ok = true ↔ start + count ≤ completion.served)

theorem writeSegments_start {index start : Nat} {segments : List (PageData × PageAllocator)} {completion : Completion}
    (ended : writeSegments lzo zram index start segments = some completion) : start ≤ completion.served := by
  induction segments generalizing zram index start with
  | nil =>
    cases ended
    exact Nat.le_refl _
  | cons segment rest ih =>
    unfold writeSegments at ended
    split at ended
    next => cases ended
    next =>
      cases ended
      exact Nat.le_refl _
    next => exact Nat.le_of_succ_le (ih ended)

theorem writeSegments_reports {index start : Nat} {segments : List (PageData × PageAllocator)} {completion : Completion}
    (ended : writeSegments lzo zram index start segments = some completion) :
    Reports segments (writeSegments lzo zram index start) start completion := by
  induction segments generalizing zram index start with
  | nil =>
    cases ended
    exact ⟨Nat.le_refl _, fun _ => rfl, fun count positive small => absurd (Nat.lt_of_lt_of_le positive small) (Nat.lt_irrefl 0)⟩
  | cons segment rest ih =>
    obtain ⟨data, allocator⟩ := segment
    unfold writeSegments at ended
    split at ended
    next => cases ended
    next after stopped =>
      cases ended
      refine ⟨Nat.le_add_right .., nofun, fun count positive small => ?_⟩
      obtain ⟨count, rfl⟩ := Nat.exists_eq_add_of_lt positive
      refine ⟨⟨after, false, start, []⟩, ?_, iff_of_false Bool.false_ne_true (by dsimp only; omega)⟩
      rw [Nat.zero_add, List.take_succ_cons, writeSegments, stopped]
    next after stored =>
      obtain ⟨most, whole, parts⟩ := ih ended
      have length : start + (((data, allocator) :: rest).length) = start + 1 + rest.length := by
        rw [List.length_cons]
        omega
      refine ⟨by rw [length]; exact most, fun ok => by rw [length]; exact whole ok, fun count positive small => ?_⟩
      rw [List.length_cons] at small
      obtain ⟨count, rfl⟩ := Nat.exists_eq_add_of_lt positive
      rw [Nat.zero_add, List.take_succ_cons, writeSegments, stored]
      rcases Nat.eq_zero_or_pos count with rfl | more
      · exact ⟨⟨after, true, start + 1, []⟩, rfl, iff_of_true rfl (writeSegments_start ended)⟩
      · obtain ⟨part, taken, ok⟩ := parts count more (by omega)
        refine ⟨part, taken, ok.trans ?_⟩
        omega

theorem zramMakeRequest_reports {sector : Nat} {segments : List (PageData × PageAllocator)} {allocations : InitAllocations}
    {completion : Completion}
    (served : zramMakeRequest lzo zram (.write sector segments allocations) = some completion) :
    Reports segments (fun segments => zramMakeRequest lzo zram (.write sector segments allocations)) 0 completion := by
  have refused (part : Completion) (failed : part.ok = false ∧ part.served = 0)
      (same : ∀ segments, zramMakeRequest lzo zram (.write sector segments allocations) = some part) :
      Reports segments (fun segments => zramMakeRequest lzo zram (.write sector segments allocations)) 0 part := by
    obtain ⟨ok, none_⟩ := failed
    refine ⟨by omega, fun done => ?_, fun count positive _ => ⟨part, same _, iff_of_false (by simp [ok]) (by omega)⟩⟩
    rw [ok] at done
    cases done
  have whole (count : Nat) : (segments.take count).length * pageSize % pageSize = 0 := Nat.mul_mod_left ..
  have admits (other : List (PageData × PageAllocator)) :
      validIoRequest zram (.write sector other allocations) = validIoRequest zram (.write sector segments allocations) := by
    simp only [validIoRequest, Bio.sector, Bio.size, Nat.mul_mod_left]
  cases admitted : validIoRequest zram (.write sector segments allocations) with
  | false =>
    have rejects (other : List (PageData × PageAllocator)) := (if_neg (by simp [(admits other).trans admitted]) :
      zramMakeRequest lzo zram (.write sector other allocations) = _)
    obtain rfl := Option.some.inj ((rejects segments).symm.trans served)
    exact refused _ ⟨rfl, rfl⟩ rejects
  | true =>
    have goes (other : List (PageData × PageAllocator)) : zramMakeRequest lzo zram (.write sector other allocations) =
        zramWrite lzo zram sector other allocations := if_pos ((admits other).trans admitted)
    have booted {ready : Zram} (same : ∀ other, zramWrite lzo zram sector other allocations = writeInitialised lzo ready sector other) :
        Reports segments (fun segments => zramMakeRequest lzo zram (.write sector segments allocations)) 0 completion := by
      have ended := (goes segments).symm.trans served
      rw [same] at ended
      obtain ⟨most, all, parts⟩ := writeSegments_reports ended
      refine ⟨most, all, fun count positive small => ?_⟩
      obtain ⟨part, taken, ok⟩ := parts count positive small
      exact ⟨part, (goes _).trans ((same _).trans taken), ok⟩
    cases ready : zram.initDone with
    | true => exact booted fun other => if_pos ready
    | false =>
      cases init : zramInitDevice zram allocations with
      | none =>
        rw [goes, zramWrite, if_neg (by simp [ready]), init] at served
        cases served
      | some result =>
        obtain ⟨fresh, ret⟩ := result
        have starts (other : List (PageData × PageAllocator)) : zramWrite lzo zram sector other allocations =
            if ret = 0 then writeInitialised lzo fresh sector other else some ⟨fresh, false, 0, []⟩ := by
          rw [zramWrite, if_neg (by simp [ready]), init]
        rcases Classical.em (ret = 0) with done | failed
        · exact booted fun other => (starts other).trans (if_pos done)
        · have fails (other : List (PageData × PageAllocator)) : zramMakeRequest lzo zram (.write sector other allocations) =
              some ⟨fresh, false, 0, []⟩ :=
            (goes other).trans ((starts other).trans (if_neg failed))
          obtain rfl := Option.some.inj ((fails segments).symm.trans served)
          exact refused _ ⟨rfl, rfl⟩ fails

/-- A page written and not touched since reads back as it was written, however
it is stored and whatever happened to the others. -/
theorem reads_back (inverts : lzo.Inverts) {memory : Memory Page} {session : Session}
    (run : Run (Session.step lzo) (fun session request => Inside session.zram request ∧ session.zram.disksize ≤ smallDisk)
      (Session.create others memory) session)
    (small : session.zram.disksize ≤ smallDisk) {sector : Nat} {pages : List PageData}
    (admitted : validIoRequest session.zram (.read sector pages) = true) (inside : Inside session.zram (.bio (.read sector pages))) :
    (∀ start segments allocations stored, zramMakeRequest lzo session.zram (.write start segments allocations) = some stored →
      Reports segments (fun segments => zramMakeRequest lzo session.zram (.write start segments allocations)) 0 stored) ∧
    ∃ completion, zramMakeRequest lzo session.zram (.read sector pages) = some completion ∧ completion.ok = true ∧
      ∀ position data, position < pages.length → session.disk (sector / sectorsPerPage + position) = some data →
        completion.pages[position]? = some data := by
  refine ⟨fun _ _ _ _ => zramMakeRequest_reports, ?_⟩
  have reads : Reads lzo others session.zram session.disk := by
    refine run.invariant (fun session => Reads lzo others session.zram session.disk) (create_reads others memory) ?_
    rintro ⟨zram, ghost⟩ after request ⟨slots, held, valid⟩ ⟨inside, small⟩ taken
    obtain ⟨final, reads, shows⟩ := valid.step inside taken
    rw [shows small rfl]
    exact reads
  obtain ⟨slots, held, valid⟩ := reads
  have pagesLength : pages.length * pageSize / pageSize = pages.length := Nat.mul_div_cancel _ (by decide)
  have range := inside admitted
  simp only [Bio.sector, Bio.size, pagesLength] at range
  refine ⟨_, if_pos admitted, ?_⟩
  unfold zramRead
  cases ready : session.zram.initDone with
  | false =>
    refine ⟨rfl, fun position data _ shown => ?_⟩
    rw [(valid.sound.blank (valid.idle ready)).2] at shown
    cases shown
  | true =>
    have counted :
      Sound lzo others { session.zram with stats := { session.zram.stats with numReads := zramStat64Inc session.zram.stats.numReads } }
        slots held session.disk := valid.sound.recount rfl rfl rfl rfl rfl
    obtain ⟨served, shows⟩ := counted.readSegments inverts (sector / sectorsPerPage % 2 ^ 32) pages
    simp only [if_true, ← ready, served]
    refine ⟨trivial, fun position data within shown => ?_⟩
    rw [first_index range (by omega) small] at shows ⊢
    rw [shows (range.trans (smallDisk_pages small)), List.getElem?_eq_getElem within, Option.map_some, shown, Option.getD_some]

/-- The device once an incompressible page is kept in a page of its own. -/
def storeWhole (zram : Zram) (index : Nat) (data : PageData) (page : Page) (kernel : Kernel) : Zram :=
  memstore { zram.setEntry index { zram.table index with uncompressed := true, page } with
    xv := ⟨kernel, zram.xv.pool⟩
    stats := { zram.stats with pagesExpand := zramStatInc zram.stats.pagesExpand } } index 0 data.val

theorem storeWhole_table (zram : Zram) (index : Nat) (data : PageData) (page : Page) (kernel : Kernel) :
    (storeWhole zram index data page kernel).table = Function.update zram.table index ⟨page, 0, true, (zram.table index).zero⟩ := by
  refine (memstore_table _ index 0 data.val).trans ?_
  simp only [Zram.setEntry, Function.update_idem, Function.update_self]
  rfl

theorem lockedSection_uncompressed {index : Nat} {data : PageData} {allocator : PageAllocator} {src : List UInt8}
    {page : Page} {kernel : Kernel}
    (nonzero : pageZeroFilled data = false) (compressed : lzo.compress data = some src) (large : maxZpageSize < src.length)
    (taken : zram.xv.kernel.allocPage allocator = some (page, kernel)) :
    lockedSection lzo zram index data allocator = .stored (storeWhole zram index data page kernel) := by
  unfold lockedSection
  rw [if_neg (by simp [nonzero]), compressed]
  dsimp only
  rw [if_pos large, taken]
  rfl

theorem zramWrite_booted {ready : Zram} {sector : Nat} {segments : List (PageData × PageAllocator)} {allocations : InitAllocations}
    (idle : zram.initDone = false) (booted : zramInitDevice zram allocations = some (ready, 0)) :
    zramWrite lzo zram sector segments allocations = writeInitialised lzo ready sector segments := by
  unfold zramWrite
  rw [if_neg (by simp [idle]), booted]
  exact if_pos rfl

theorem Session.step_bio {session : Session} {bio : Bio} {completion : Completion}
    (served : zramMakeRequest lzo session.zram bio = some completion)
    (admitted : validIoRequest session.zram bio = true) :
    session.step lzo (.bio bio) = some ⟨completion.zram, bio.after session.disk completion⟩ := by
  show (zramMakeRequest lzo session.zram bio).map _ = _
  rw [served, Option.map_some, if_pos admitted]

theorem writeSegment_zeros {index : Nat} {allocator : PageAllocator} (entry : zram.table index = Entry.empty) :
    writeSegment lzo zram index PageData.zeros allocator = some (setZero zram index, true) := by
  have filled : pageZeroFilled PageData.zeros = true := List.all_eq_true.mpr fun byte member => by
    rw [List.eq_of_mem_replicate member]
    rfl
  have vacant : releaseSlot zram index = some zram := by
    unfold releaseSlot
    rw [entry]
    exact if_neg (by decide)
  have unlocked : lockedSection lzo zram index PageData.zeros allocator = .zeroFilled := if_pos filled
  unfold writeSegment
  rw [vacant, Option.map_some, unlocked]

end Contents

section Books
variable [Arch] {lzo : Lzo} {others : Finset Page} {zram : Zram} {slots : Nat → Slot} {held : Storage → Prop} {disk : Disk}

def storedLength (zram : Zram) (index : Nat) : Nat :=
  if (zram.table index).page = noPage then 0
  else if (zram.table index).uncompressed then pageSize
  else xvGetObjectSize zram.xv.memory (zram.table index).page (zram.table index).offset

/-- The counters of a device say what its table shows, no entry contradicts
itself, and no release takes more off a counter than there is. -/
structure Books (zram : Zram) : Prop where
  pagesStored : zram.stats.pagesStored = ((Finset.range zram.numPages).filter fun index => (zram.table index).page ≠ noPage).card
  pagesZero : zram.stats.pagesZero = ((Finset.range zram.numPages).filter fun index => (zram.table index).zero = true).card
  pagesExpand : zram.stats.pagesExpand = ((Finset.range zram.numPages).filter fun index => (zram.table index).uncompressed = true).card
  goodCompress : zram.stats.goodCompress = ((Finset.range zram.numPages).filter fun index => (zram.table index).page ≠ noPage ∧
    (zram.table index).uncompressed = false ∧ storedLength zram index ≤ pageSize / 2).card
  comprSize : zram.stats.comprSize = ∑ index ∈ Finset.range zram.numPages, storedLength zram index
  exclusive : ∀ index, (zram.table index).page ≠ noPage → (zram.table index).zero = false
  stored : ∀ index, (zram.table index).uncompressed = true → (zram.table index).page ≠ noPage
  zeroCovered : ∀ index, (zram.table index).zero = true → 1 ≤ zram.stats.pagesZero
  storedCovered : ∀ index, (zram.table index).page ≠ noPage → 1 ≤ zram.stats.pagesStored ∧ storedLength zram index ≤ zram.stats.comprSize
  expandCovered : ∀ index, (zram.table index).uncompressed = true → 1 ≤ zram.stats.pagesExpand
  goodCovered : ∀ index, (zram.table index).page ≠ noPage → (zram.table index).uncompressed = false →
    storedLength zram index ≤ pageSize / 2 → 1 ≤ zram.stats.goodCompress

theorem Sound.shown (sound : Sound lzo others zram slots held disk) (index : Nat) :
    (slots index).length = storedLength zram index ∧
    (slots index).pagesStored = (if (zram.table index).page ≠ noPage then 1 else 0) ∧
    (slots index).pagesZero = (if (zram.table index).zero = true then 1 else 0) ∧
    (slots index).pagesExpand = (if (zram.table index).uncompressed = true then 1 else 0) ∧
    (slots index).goodCompress = (if (zram.table index).page ≠ noPage ∧ (zram.table index).uncompressed = false ∧
      storedLength zram index ≤ pageSize / 2 then 1 else 0) := by
  unfold storedLength
  rw [sound.entries index]
  cases found : slots index with
  | empty => exact ⟨rfl, rfl, rfl, rfl, rfl⟩
  | zero => exact ⟨rfl, rfl, rfl, rfl, rfl⟩
  | stored storage =>
    have here : held storage := sound.holds found
    have present := sound.backed.page_ne here
    cases storage with
    | page frame =>
      have named : (Slot.stored (.page frame)).entry.page ≠ noPage := present
      rw [if_neg named, if_pos named]
      refine ⟨rfl, rfl, rfl, rfl, (if_neg ?_).symm⟩
      rintro ⟨_, small, _⟩
      cases small
    | object location size =>
      have named : (Slot.stored (.object location size)).entry.page ≠ noPage := present
      have sized : xvGetObjectSize zram.xv.memory (Slot.stored (.object location size)).entry.page
        (Slot.stored (.object location size)).entry.offset =
        size := sound.backed.object_size here
      have small : (Slot.stored (.object location size)).entry.uncompressed = false := rfl
      rw [if_neg named, if_pos named, sized, small]
      refine ⟨rfl, rfl, rfl, rfl, ?_⟩
      simp only [Slot.goodCompress, named, ne_eq, not_false_eq_true, true_and, Bool.false_eq_true, if_false]

theorem Sound.length_le (sound : Sound lzo others zram slots held disk) (index : Nat) : (slots index).length ≤ pageSize := by
  cases found : slots index with
  | stored storage => cases storage with
    | page frame => exact Nat.le_refl _
    | object location size => exact (Nat.le_add_left ..).trans (sound.backed.object_inside (sound.holds found))
  | _ => exact Nat.zero_le _

theorem Sound.books (sound : Sound lzo others zram slots held disk) (small : zram.disksize < smallDisk) : Books zram := by
  have few : zram.numPages < 2 ^ 32 := by
    unfold Zram.numPages smallDisk at *
    simp only [pageSize_eq]
    omega
  have unwrapped {weight : Slot → Nat} {value : Nat} (counts : value = tally weight slots zram.numPages % 2 ^ 32)
    (unit : ∀ slot, weight slot ≤ 1) :
      value = tally weight slots zram.numPages := by
    have most := tally_le (fun index => unit (slots index)) zram.numPages
    rw [counts]
    exact Nat.mod_eq_of_lt (by omega)
  have comprSize : zram.stats.comprSize = tally Slot.length slots zram.numPages := by
    have most := tally_le sound.length_le zram.numPages
    rw [sound.counts.comprSize]
    exact Nat.mod_eq_of_lt (by simp only [pageSize_eq] at most; omega)
  have pagesStored := unwrapped sound.counts.pagesStored Slot.pagesStored_le
  have pagesZero := unwrapped sound.counts.pagesZero Slot.pagesZero_le
  have pagesExpand := unwrapped sound.counts.pagesExpand Slot.pagesExpand_le
  have goodCompress := unwrapped sound.counts.goodCompress Slot.goodCompress_le
  have counted {weight : Slot → Nat} {shows : Nat → Prop} [DecidablePred shows]
      (each : ∀ index, weight (slots index) = if shows index then 1 else 0) :
      tally weight slots zram.numPages = ((Finset.range zram.numPages).filter shows).card := by
    rw [Finset.card_filter]
    exact Finset.sum_congr rfl fun index _ => each index
  have covers (weight : Slot → Nat) {index : Nat} (occupied : slots index ≠ .empty) :
      weight (slots index) ≤ tally weight slots zram.numPages :=
    le_tally weight (sound.inside index occupied)
  have occupied {weight : Slot → Nat} {index : Nat} (free : weight .empty = 0) (one : weight (slots index) = 1) : slots index ≠ .empty := by
    intro empty
    rw [empty, free] at one
    cases one
  have shown := sound.shown
  have one {weight : Slot → Nat} {index : Nat} (free : weight .empty = 0) (one : weight (slots index) = 1) :
      1 ≤ tally weight slots zram.numPages := one ▸ covers weight (occupied free one)
  exact {
    pagesStored := pagesStored.trans (counted fun index => (shown index).2.1)
    pagesZero := pagesZero.trans (counted fun index => (shown index).2.2.1)
    pagesExpand := pagesExpand.trans (counted fun index => (shown index).2.2.2.1)
    goodCompress := goodCompress.trans (counted fun index => (shown index).2.2.2.2)
    comprSize := comprSize.trans (Finset.sum_congr rfl fun index _ => (shown index).1)
    exclusive := by
      intro index present
      rw [sound.entries] at present ⊢
      cases found : slots index with
      | stored storage => cases storage <;> rfl
      | _ => exact absurd (by rw [found]; rfl) present
    stored := by
      intro index whole
      rw [sound.entries] at whole ⊢
      cases found : slots index with
      | stored storage =>
        rw [found] at whole
        cases storage with
        | page frame => exact sound.backed.page_ne (sound.holds found)
        | object location size => cases whole
      | _ =>
        rw [found] at whole
        cases whole
    zeroCovered := by
      intro index zero
      rw [pagesZero]
      exact one rfl ((shown index).2.2.1.trans (if_pos zero))
    storedCovered := by
      intro index present
      have held := (shown index).2.1.trans (if_pos present)
      rw [pagesStored, comprSize, ← (shown index).1]
      exact ⟨one rfl held, covers Slot.length (occupied rfl held)⟩
    expandCovered := by
      intro index whole
      rw [pagesExpand]
      exact one rfl ((shown index).2.2.2.1.trans (if_pos whole))
    goodCovered := by
      intro index present small good
      rw [goodCompress]
      exact one rfl ((shown index).2.2.2.2.trans (if_pos ⟨present, small, good⟩)) }

/-- The books of a disk of fewer than 2^32 pages are right after every request,
and, as a bio cut short at any segment is a bio too, between any two of its segments. -/
theorem statistics {memory : Memory Page} {session : Session}
    (run : Run (Session.step lzo) (fun session request => Inside session.zram request) (Session.create others memory) session)
    (small : session.zram.disksize < smallDisk) : Books session.zram := by
  obtain ⟨disk, slots, held, valid⟩ := run_reads run
  exact valid.sound.books small

/-- A reset gives every page of the device back, and each one once: a page given
back again would be one that is not owned. -/
theorem reset_releases {memory : Memory Page} {session : Session}
    (run : Run (Session.step lzo) (fun session request => Inside session.zram request) (Session.create others memory) session)
    (ready : session.zram.initDone = true) :
    ∃ after, zramResetDevice session.zram = some after ∧ after.xv.kernel.owned = others ∧ after.xv.pool.totalPages = 0 ∧
      after.stats = Stats.zero ∧ after.initDone = false := by
  obtain ⟨disk, slots, held, valid⟩ := run_reads run
  obtain ⟨after, ended, blank, idle, _, stats⟩ := valid.sound.reset (.inl (valid.table ready))
  obtain ⟨owned, total⟩ := blank.backed.nothing fun _ => id
  exact ⟨after, ended, owned, total, stats, idle⟩

end Books

section Sample
local instance sampleDevice : Arch := Arch.x64

def granted : InitAllocations := ⟨2 ^ 30, 1, 2, 3, 4⟩

/-- A device of two pages in a system without other owners. -/
def sampleDisk : Session := ⟨disksizeStore (Session.create ∅ fun _ _ => 0).zram (some 8192), fun _ => none⟩

/-- A page that does not compress, written to the start of the disk. -/
def sampleWrite : Bio := .write 0 [(PageData.noise, firstPage)] granted

/-- A run of a new device, each request inside it, and the device small. -/
abbrev SmallRun (lzo : Lzo) (session : Session) : Prop :=
  Run (Session.step lzo) (fun session request => Inside session.zram request ∧ session.zram.disksize ≤ smallDisk)
    (Session.create ∅ fun _ _ => 0) session

theorem sampleDisk_run {lzo : Lzo} : SmallRun lzo sampleDisk :=
  .step .start (show Inside _ (.disksize (some 8192)) ∧ _ from ⟨trivial, by decide⟩) rfl

/-- A device as the first write finds it once it is initialised. -/
def sampleReady : Zram :=
  let zram := (initSection sampleDisk.zram granted).1
  { zram with stats := { zram.stats with numWrites := zramStat64Inc zram.stats.numWrites } }

theorem emptyWrite_run {lzo : Lzo} {zram ready : Zram} (run : SmallRun lzo ⟨zram, fun _ => none⟩) (small : zram.disksize ≤ smallDisk)
    (admitted : validIoRequest zram (.write 0 [] granted) = true)
    (served : zramMakeRequest lzo zram (.write 0 [] granted) = some ⟨ready, true, 0, []⟩) : SmallRun lzo ⟨ready, fun _ => none⟩ := by
  have taken : Session.step lzo ⟨zram, fun _ => none⟩ (.bio (.write 0 [] granted)) = _ := Session.step_bio served admitted
  rw [Bio.after, List.map_nil, wrote_nothing] at taken
  exact run.step (show Inside zram (.bio (.write 0 [] granted)) ∧ _ from ⟨fun _ => Nat.zero_le _, small⟩) taken

theorem sampleReady_run {lzo : Lzo} : SmallRun lzo ⟨sampleReady, fun _ => none⟩ :=
  emptyWrite_run sampleDisk_run (by decide) (by decide +kernel) rfl

theorem noise_uncompressed {lzo : Lzo} {zram : Zram} {index : Nat} {allocator : PageAllocator} {page : Page} {kernel : Kernel}
    (unmatched : lzo.compress PageData.noise = Lzo.literal.compress PageData.noise)
    (taken : zram.xv.kernel.allocPage allocator = some (page, kernel)) :
    lockedSection lzo zram index PageData.noise allocator = .stored (storeWhole zram index PageData.noise page kernel) := by
  have nonzero : pageZeroFilled PageData.noise = false := by decide +kernel
  have long : maxZpageSize < (List.replicate 16 0 ++ 253 :: (PageData.noise.val ++ [17, 0, 0]) : List UInt8).length := by
    have whole := PageData.noise.property
    simp [whole, maxZpageSize]
  exact lockedSection_uncompressed nonzero unmatched long taken

/-- A device of four pages that is initialised, and as its next write finds it. -/
def fourPages : Zram := { sampleReady with disksize := 16384 }

def fourPagesCounted : Zram := { fourPages with stats := { fourPages.stats with numWrites := 2 } }

/-- The device with a page that does not compress at its start. -/
def noiseDisk : Session where
  zram := storeWhole fourPagesCounted 0 PageData.noise 1 ⟨Function.update (fun _ _ => 0) 1 fun _ => 0, {1}⟩
  disk := Function.update (fun _ => none) 0 (some PageData.noise)

theorem noiseDisk_run : SmallRun Lzo.runs noiseDisk := by
  have sized : SmallRun Lzo.runs ⟨disksizeStore (Session.create ∅ fun _ _ => 0).zram (some 16384), fun _ => none⟩ :=
    .step .start (show Inside _ (.disksize (some 16384)) ∧ _ from ⟨trivial, by decide⟩) rfl
  have ready : SmallRun Lzo.runs ⟨fourPages, fun _ => none⟩ := emptyWrite_run sized (by decide) (by decide +kernel) rfl
  have offered : fourPagesCounted.xv.kernel.allocPage firstPage = some (1, ⟨Function.update (fun _ _ => 0) 1 fun _ => 0, {1}⟩) := rfl
  have locked : lockedSection Lzo.runs fourPagesCounted 0 PageData.noise firstPage = .stored noiseDisk.zram :=
    noise_uncompressed Lzo.runs_noise offered
  have segment : writeSegment Lzo.runs fourPagesCounted 0 PageData.noise firstPage = some (noiseDisk.zram, true) := by
    unfold writeSegment
    rw [show releaseSlot fourPagesCounted 0 = some fourPagesCounted from rfl, Option.map_some, locked]
  have served : zramMakeRequest Lzo.runs fourPages sampleWrite = some ⟨noiseDisk.zram, true, 1, []⟩ := by
    have admitted : validIoRequest fourPages sampleWrite = true := by decide +kernel
    have started : zramWrite Lzo.runs fourPages 0 [(PageData.noise, firstPage)] granted =
        writeSegments Lzo.runs fourPagesCounted 0 0 [(PageData.noise, firstPage)] := if_pos rfl
    refine (if_pos admitted).trans (started.trans ?_)
    unfold writeSegments
    rw [segment]
    rfl
  have taken : Session.step Lzo.runs ⟨fourPages, fun _ => none⟩ (.bio sampleWrite) = _ := Session.step_bio served (by decide +kernel)
  refine ready.step (show Inside fourPages (.bio sampleWrite) ∧ _ from ⟨fun _ => by decide +kernel, by decide⟩) (taken.trans ?_)
  show some (⟨noiseDisk.zram, wrote (fun _ => none) 0 [PageData.noise] 1 true⟩ : Session) = some noiseDisk
  rw [← wrote_next, wrote_nothing]
  rfl

def Session.admits (session : Session) (request : Request) : Bool := Inside session.zram request ∧ session.zram.disksize ≤ smallDisk

theorem noiseDisk_leads (shows : Session → Prop) (requests : List Request)
    (taken : ∃ session ∈ steps (tested (Session.step Lzo.runs) Session.admits) noiseDisk requests, shows session) :
    ∃ session, SmallRun Lzo.runs session ∧ shows session := by
  obtain ⟨session, reached, shown⟩ := taken
  exact ⟨session, noiseDisk_run.trans (.of_tested of_decide_eq_true reached), shown⟩

/-- A write of two pages of zeros and one of a page of one byte: the pages of the disk
are one stored as it is, one that is an object and two of zeros. -/
def allClasses : List Request :=
  [.bio (.write 16 [(PageData.zeros, .exhausted), (PageData.zeros, .exhausted)] granted),
    .bio (.write 8 [(PageData.filled 7, secondPage)] granted)]

/-- The first bytes of the pages the disk should read as. -/
def Session.fronts (session : Session) : List (Option (List UInt8)) :=
  (List.range 4).map fun index => (session.disk index).map fun data => data.val.take 2

/-- A write of two pages fails at its second, which no memory is left for; then one of
three pages goes through, and a read covers the disk. -/
theorem reads_back_sample : ∃ session : Session, session.fronts = [some [0, 247], some [5, 5], some [0, 0], some [3, 3]] ∧
    ∃ completion, zramMakeRequest Lzo.runs session.zram (.read 0 (List.replicate 4 PageData.zeros)) = some completion ∧
      completion.ok = true ∧
      ∀ position data, position < 4 → session.disk position = some data → completion.pages[position]? = some data := by
  obtain ⟨session, run, fronts, sized⟩ := noiseDisk_leads
    (fun session : Session => session.fronts = [some [0, 247], some [5, 5], some [0, 0], some [3, 3]] ∧ session.zram.disksize = 16384)
    [.bio (.write 16 [(PageData.zeros, .exhausted), (PageData.filled 7, .exhausted)] granted),
      .bio (.write 8 [(PageData.filled 5, secondPage), (PageData.zeros, .exhausted), (PageData.filled 3, .exhausted)] granted)]
        (by decide +kernel)
  have admitted : validIoRequest session.zram (.read 0 (List.replicate 4 PageData.zeros)) = true := by
    simp only [validIoRequest, sized]
    decide
  have inside : Inside session.zram (.bio (.read 0 (List.replicate 4 PageData.zeros))) := by
    intro _
    simp only [Zram.numPages, sized]
    decide
  obtain ⟨_, completion, served, ok, shows⟩ := reads_back Lzo.runs_inverts run (by rw [sized]; decide) admitted inside
  refine ⟨session, fronts, completion, served, ok, fun position data small there => ?_⟩
  exact shows position data small (by rwa [Nat.zero_div, Nat.zero_add])

/-- The page stored as it is becomes an object, and a page of zeros is discarded. -/
theorem statistics_sample : ∃ session : Session, session.zram.stats.pagesStored = 2 ∧ session.zram.stats.pagesExpand = 0 ∧
    session.zram.stats.pagesZero = 1 ∧
    session.zram.stats.goodCompress = 2 ∧ Books session.zram := by
  obtain ⟨session, run, sized, stored, whole, zero, good⟩ := noiseDisk_leads
    (fun session : Session => session.zram.disksize = 16384 ∧ session.zram.stats.pagesStored = 2 ∧ session.zram.stats.pagesExpand = 0 ∧
      session.zram.stats.pagesZero = 1 ∧ session.zram.stats.goodCompress = 2)
    (allClasses ++ [.bio (.write 0 [(PageData.filled 5, .exhausted)] granted), .bio (.discard 24 4096)]) (by decide +kernel)
  exact ⟨session, stored, whole, zero, good, statistics (run.mono fun _ _ met => met.1) (by rw [sized]; decide)⟩

/-- A device of 2^44 bytes with pages of zeros at its start. -/
def zerosWritten (count : Nat) : Zram where
  xv := ⟨⟨fun _ _ => 0, ∅⟩, xvCreatePool⟩
  table index := if index < count then { Entry.empty with zero := true } else Entry.empty
  stats := { Stats.zero with numWrites := count % 2 ^ 64, pagesZero := count % 2 ^ 32 }
  disksize := 2 ^ 44
  initDone := true
  compressWorkmem := 1
  compressBuffer := 2
  tableAddress := 3
  memPool := 4

theorem zerosWritten_start : zramInitDevice (disksizeStore (Session.create ∅ fun _ _ => 0).zram (some (2 ^ 44))) granted =
    some ({ zerosWritten 0 with table := fun _ => Entry.empty }, 0) := rfl

def zeroBio (count : Nat) : Bio := .write (8 * count) [(PageData.zeros, PageAllocator.exhausted)] granted

theorem zeroBio_admitted (zram : Zram) (count : Nat) (sized : zram.disksize = 2 ^ 44) (small : count < 2 ^ 32) :
    validIoRequest zram (zeroBio count) = true ∧ Inside zram (.bio (zeroBio count)) := by
  constructor
  · simp only [validIoRequest, zeroBio, Bio.sector, Bio.size, sized, sectorShift, sectorsPerPage, sectorsPerPageShift,
      pageShift, pageSize_eq,
      List.length_singleton, decide_eq_true_eq]
    omega
  · intro _
    simp only [zeroBio, Bio.sector, Bio.size, Zram.numPages, sized, sectorShift, sectorsPerPage, sectorsPerPageShift,
      pageShift, pageSize_eq,
      List.length_singleton]
    omega

theorem zeros_next (count : Nat) (small : count < 2 ^ 32) : writeInitialised Lzo.literal (zerosWritten count) (8 * count)
    [(PageData.zeros, PageAllocator.exhausted)] = some ⟨zerosWritten (count + 1), true, 1, []⟩ := by
  have index : 8 * count / sectorsPerPage % 2 ^ 32 = count := by
    simp only [sectorsPerPage, sectorsPerPageShift, pageShift, sectorShift]
    omega
  let zram :=
    { zerosWritten count with stats := { (zerosWritten count).stats with numWrites := zramStat64Inc (zerosWritten count).stats.numWrites } }
  have entry : zram.table count = Entry.empty := if_neg (Nat.lt_irrefl count)
  have filled : setZero zram count = zerosWritten (count + 1) := by
    have table : Function.update zram.table count { zram.table count with zero := true } = (zerosWritten (count + 1)).table := by
      funext other
      rcases Classical.em (other = count) with rfl | elsewhere
      · rw [Function.update_self, entry]
        exact (if_pos (Nat.lt_succ_self other)).symm
      · rw [Function.update_of_ne elsewhere]
        simp only [zram, zerosWritten, Nat.lt_succ_iff, Nat.le_iff_lt_or_eq, elsewhere, or_false]
    have counters : { zram.stats with pagesZero := zramStatInc zram.stats.pagesZero } = (zerosWritten (count + 1)).stats := by
      simp only [zram, zerosWritten, zramStatInc, zramStat64Inc, zramStat64Add, Stats.mk.injEq, true_and, and_true]
      omega
    unfold setZero Zram.setEntry
    rw [table, counters]
    rfl
  unfold writeInitialised
  rw [index]
  show writeSegments Lzo.literal zram count 0 [(PageData.zeros, PageAllocator.exhausted)] = _
  unfold writeSegments
  rw [writeSegment_zeros entry, filled]
  rfl

/-- Once every page of a disk of 2^44 bytes is a page of zeros, the counter of
such pages is back at 0. -/
theorem pagesZero_wraps : ∃ session,
    Run (Session.step Lzo.literal) (fun session request => Inside session.zram request) (Session.create ∅ fun _ _ => 0) session ∧
      session.zram.stats.pagesZero = 0 ∧
      ((Finset.range session.zram.numPages).filter fun index => (session.zram.table index).zero = true).card = 2 ^ 32 := by
  have filling (count : Nat) (small : count + 1 ≤ 2 ^ 32) : ∃ session,
      Run (Session.step Lzo.literal) (fun session request => Inside session.zram request) (Session.create ∅ fun _ _ => 0) session ∧
        session.zram = zerosWritten (count + 1) := by
    induction count with
    | zero =>
      let sized : Session := ⟨disksizeStore (Session.create ∅ fun _ _ => 0).zram (some (2 ^ 44)), fun _ => none⟩
      obtain ⟨admitted, inside⟩ := zeroBio_admitted sized.zram 0 rfl (by decide)
      have empty : (zerosWritten 0).table = fun _ => Entry.empty := funext fun index =>
        show (if index < 0 then ({ Entry.empty with zero := true } : Entry) else Entry.empty) = _ from if_neg (Nat.not_lt_zero index)
      have booted : zramInitDevice sized.zram granted = some (zerosWritten 0, 0) := by
        have fresh : zramInitDevice sized.zram granted = some ({ zerosWritten 0 with table := fun _ => Entry.empty }, 0) :=
          zerosWritten_start
        rw [fresh, ← empty]
      have served : zramMakeRequest Lzo.literal sized.zram (zeroBio 0) = some ⟨zerosWritten 1, true, 1, []⟩ := by
        have started : zramWrite Lzo.literal sized.zram (8 * 0) [(PageData.zeros, PageAllocator.exhausted)] granted =
          writeInitialised Lzo.literal (zerosWritten 0) (8 * 0) [(PageData.zeros, PageAllocator.exhausted)] := zramWrite_booted rfl booted
        unfold zramMakeRequest
        rw [if_pos admitted]
        exact started.trans (zeros_next 0 (by decide))
      have sizing : Run (Session.step Lzo.literal) (fun session request => Inside session.zram request)
          (Session.create ∅ fun _ _ => 0) sized :=
        .step .start (show Inside _ (.disksize (some (2 ^ 44))) from trivial) rfl
      exact ⟨_, sizing.step inside (Session.step_bio served admitted), rfl⟩
    | succ count ih =>
      obtain ⟨session, run, same⟩ := ih (by omega)
      obtain ⟨admitted, inside⟩ := zeroBio_admitted session.zram (count + 1) (by rw [same]; rfl) small
      have served : zramMakeRequest Lzo.literal session.zram (zeroBio (count + 1)) = some ⟨zerosWritten (count + 1 + 1), true, 1, []⟩ := by
        unfold zramMakeRequest
        rw [if_pos admitted, same]
        exact (if_pos rfl).trans (zeros_next _ small)
      exact ⟨_, run.step inside (Session.step_bio served admitted), rfl⟩
  obtain ⟨session, run, same⟩ := filling (2 ^ 32 - 1) (by decide)
  refine ⟨session, run, ?_, ?_⟩
  · rw [same]
    rfl
  · have pages : (zerosWritten (2 ^ 32 - 1 + 1)).numPages = 2 ^ 32 := rfl
    rw [same, pages, Finset.filter_true_of_mem, Finset.card_range]
    intro index member
    have within : index < 2 ^ 32 - 1 + 1 := Finset.mem_range.mp member
    exact congrArg Entry.zero (if_pos within)

/-- The device holds two page frames, one with a page stored as it is and one with an
object, and neither after the reset. -/
theorem reset_releases_sample : ∃ (session : Session) (after : Zram), session.zram.xv.kernel.owned = {1, 2} ∧
    session.zram.xv.pool.totalPages = 1 ∧
    zramResetDevice session.zram = some after ∧ after.xv.kernel.owned = ∅ := by
  obtain ⟨session, run, ready, owned, total⟩ := noiseDisk_leads
    (fun session : Session => session.zram.initDone = true ∧ session.zram.xv.kernel.owned = {1, 2} ∧
      session.zram.xv.pool.totalPages = 1) allClasses
    (by decide +kernel)
  obtain ⟨after, ended, released, _⟩ := reset_releases (run.mono fun _ _ met => met.1) ready
  exact ⟨session, after, owned, total, ended, released⟩

end Sample
end Compcache.ZramDrv
