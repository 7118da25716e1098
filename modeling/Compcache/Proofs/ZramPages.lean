import Mathlib.Algebra.BigOperators.Group.Finset.Basic
import Mathlib.Algebra.Group.Action.Defs
import Mathlib.Algebra.Order.BigOperators.Group.Finset
import Compcache.Proofs.Backing
import Compcache.Zram

/-! What the table of a device stands for: each disk page is absent, a page of
zeros, or kept in storage of its own. The operations on one disk page change
one slot, and the counters follow the slots. -/

namespace Compcache.ZramDrv
open Library.PagedMemory Library.Ownership Xvmalloc

/-- What a disk page is kept in. -/
inductive Slot
  | empty
  | zero
  | stored (storage : Storage)
  deriving DecidableEq

namespace Slot

def storage : Slot → Option Storage
  | stored storage => some storage
  | _ => none

def entry : Slot → Entry
  | empty => Entry.empty
  | zero => { Entry.empty with zero := true }
  | stored (.page frame) => ⟨frame, 0, true, false⟩
  | stored (.object location _) => ⟨location.page, location.offset, false, false⟩

/-- What a slot adds to `compr_size`, `pages_stored`, `pages_zero`, `pages_expand`
and `good_compress`. -/
def length : Slot → Nat
  | stored storage => storage.size
  | _ => 0

def pagesStored : Slot → Nat
  | stored _ => 1
  | _ => 0

def pagesZero : Slot → Nat
  | zero => 1
  | _ => 0

def pagesExpand : Slot → Nat
  | stored (.page _) => 1
  | _ => 0

def goodCompress : Slot → Nat
  | stored (.object _ size) => if size ≤ pageSize / 2 then 1 else 0
  | _ => 0

theorem storage_eq_some {slot : Slot} {storage : Storage} : slot.storage = some storage ↔ slot = .stored storage := by
  cases slot <;> simp [Slot.storage]

theorem pagesStored_le (slot : Slot) : slot.pagesStored ≤ 1 := by
  cases slot <;> simp [pagesStored]

theorem pagesZero_le (slot : Slot) : slot.pagesZero ≤ 1 := by
  cases slot <;> simp [pagesZero]

theorem pagesExpand_le (slot : Slot) : slot.pagesExpand ≤ 1 := by
  rcases slot with _ | _ | (_ | _) <;> simp [pagesExpand]

theorem goodCompress_le (slot : Slot) : slot.goodCompress ≤ 1 := by
  rcases slot with _ | _ | (_ | ⟨location, size⟩) <;> simp only [goodCompress, Nat.zero_le]
  split <;> omega

end Slot

section Counters
variable {slots : Nat → Slot} {weight : Slot → Nat} {stats : Stats} {index count : Nat} {old new : Slot}

def tally (weight : Slot → Nat) (slots : Nat → Slot) (count : Nat) : Nat := ∑ index ∈ Finset.range count, weight (slots index)

theorem tally_update (weight : Slot → Nat) (inside : index < count) (new : Slot) :
    tally weight (Function.update slots index new) count + weight (slots index) = tally weight slots count + weight new := by
  have member : index ∈ Finset.range count := Finset.mem_range.mpr inside
  have others : ∑ i ∈ (Finset.range count).erase index, weight (Function.update slots index new i) =
      ∑ i ∈ (Finset.range count).erase index, weight (slots i) := by
    refine Finset.sum_congr rfl fun i elsewhere => ?_
    rw [Function.update_of_ne (Finset.ne_of_mem_erase elsewhere)]
  have before := Finset.add_sum_erase (Finset.range count) (fun i => weight (slots i)) member
  have after := Finset.add_sum_erase (Finset.range count) (fun i => weight (Function.update slots index new i)) member
  simp only [Function.update_self] at after
  unfold tally
  omega

theorem tally_clear (inside : index < count) (free : weight .empty = 0) :
    tally weight (Function.update slots index .empty) count + weight (slots index) = tally weight slots count := by
  rw [tally_update weight inside, free, Nat.add_zero]

theorem tally_fill (inside : index < count) (free : weight .empty = 0) (vacant : slots index = .empty) :
    tally weight (Function.update slots index new) count = tally weight slots count + weight new := by
  rw [← tally_update weight inside, vacant, free, Nat.add_zero]

theorem tally_le {weight : Slot → Nat} {bound : Nat} (each : ∀ index, weight (slots index) ≤ bound) (count : Nat) :
    tally weight slots count ≤ count * bound := by
  have most := Finset.sum_le_card_nsmul (Finset.range count) (fun index => weight (slots index)) bound fun index _ => each index
  rwa [Finset.card_range, smul_eq_mul] at most

theorem le_tally (weight : Slot → Nat) (inside : index < count) : weight (slots index) ≤ tally weight slots count :=
  Finset.single_le_sum (f := fun index => weight (slots index)) (fun _ _ => Nat.zero_le _) (Finset.mem_range.mpr inside)

/-- The counters of a device, each as wide as it is in the code. -/
structure Counts (stats : Stats) (slots : Nat → Slot) (count : Nat) : Prop where
  comprSize : stats.comprSize = tally Slot.length slots count % 2 ^ 64
  pagesStored : stats.pagesStored = tally Slot.pagesStored slots count % 2 ^ 32
  pagesZero : stats.pagesZero = tally Slot.pagesZero slots count % 2 ^ 32
  pagesExpand : stats.pagesExpand = tally Slot.pagesExpand slots count % 2 ^ 32
  goodCompress : stats.goodCompress = tally Slot.goodCompress slots count % 2 ^ 32

/-- The counters once the contents of a slot are released. -/
def Stats.released (stats : Stats) : Slot → Stats
  | .empty => stats
  | .zero => { stats with pagesZero := zramStatDec stats.pagesZero }
  | .stored (.page _) =>
    { stats with
      comprSize := zramStat64Sub stats.comprSize pageSize
      pagesStored := zramStatDec stats.pagesStored
      pagesExpand := zramStatDec stats.pagesExpand }
  | .stored (.object _ size) =>
    { stats with
      comprSize := zramStat64Sub stats.comprSize size
      pagesStored := zramStatDec stats.pagesStored
      goodCompress := if size ≤ pageSize / 2 then zramStatDec stats.goodCompress else stats.goodCompress }

/-- The counters once a slot that was empty is filled. -/
def Stats.retained (stats : Stats) : Slot → Stats
  | .empty => stats
  | .zero => { stats with pagesZero := zramStatInc stats.pagesZero }
  | .stored (.page _) =>
    { stats with
      comprSize := zramStat64Add stats.comprSize pageSize
      pagesStored := zramStatInc stats.pagesStored
      pagesExpand := zramStatInc stats.pagesExpand }
  | .stored (.object _ size) =>
    { stats with
      comprSize := zramStat64Add stats.comprSize size
      pagesStored := zramStatInc stats.pagesStored
      goodCompress := if size ≤ pageSize / 2 then zramStatInc stats.goodCompress else stats.goodCompress }

section Tally
variable {value before after amount bound : Nat}

theorem kept_tally (counts : value = before % bound) (moved : before = after + amount ∨ after = before + amount) (nothing : amount = 0) :
    value = after % bound := by
  rw [counts]
  congr 1
  omega

theorem dec_tally (counts : value = before % 2 ^ 32) (moved : before = after + amount) (one : amount = 1) :
    zramStatDec value = after % 2 ^ 32 := by
  unfold zramStatDec
  omega

theorem inc_tally (counts : value = before % 2 ^ 32) (moved : after = before + amount) (one : amount = 1) :
    zramStatInc value = after % 2 ^ 32 := by
  unfold zramStatInc
  omega

theorem sub_tally (counts : value = before % 2 ^ 64) (moved : before = after + amount) : zramStat64Sub value amount = after % 2 ^ 64 := by
  unfold zramStat64Sub
  omega

theorem add_tally (counts : value = before % 2 ^ 64) (moved : after = before + amount) : zramStat64Add value amount = after % 2 ^ 64 := by
  unfold zramStat64Add
  omega

end Tally

theorem Counts.released (counts : Counts stats slots count) (inside : index < count) :
    Counts (stats.released (slots index)) (Function.update slots index .empty) count := by
  have moved (weight : Slot → Nat) (free : weight .empty = 0) :
      tally weight slots count = tally weight (Function.update slots index .empty) count + weight (slots index) :=
        (tally_clear inside free).symm
  have kept {value bound : Nat} (weight : Slot → Nat) (free : weight .empty = 0) (counted : value = tally weight slots count % bound)
      (nothing : weight (slots index) = 0) : value = tally weight (Function.update slots index .empty) count % bound :=
    kept_tally counted (.inl (moved weight free)) nothing
  generalize slots index = slot at moved kept ⊢
  obtain ⟨comprSize, pagesStored, pagesZero, pagesExpand, goodCompress⟩ := counts
  rcases slot with _ | _ | ⟨frame | ⟨location, size⟩⟩ <;> dsimp only [Stats.released]
  · exact ⟨kept _ rfl comprSize rfl, kept _ rfl pagesStored rfl, kept _ rfl pagesZero rfl, kept _ rfl pagesExpand rfl,
      kept _ rfl goodCompress rfl⟩
  · exact ⟨kept _ rfl comprSize rfl, kept _ rfl pagesStored rfl, dec_tally pagesZero (moved _ rfl) rfl, kept _ rfl pagesExpand rfl,
      kept _ rfl goodCompress rfl⟩
  · exact ⟨sub_tally comprSize (moved _ rfl), dec_tally pagesStored (moved _ rfl) rfl, kept _ rfl pagesZero rfl,
      dec_tally pagesExpand (moved _ rfl) rfl, kept _ rfl goodCompress rfl⟩
  · refine ⟨sub_tally comprSize (moved _ rfl), dec_tally pagesStored (moved _ rfl) rfl, kept _ rfl pagesZero rfl,
      kept _ rfl pagesExpand rfl, ?_⟩
    split
    next small => exact dec_tally goodCompress (moved _ rfl) (if_pos small)
    next large => exact kept _ rfl goodCompress (if_neg large)

theorem Counts.retained (counts : Counts stats slots count) (inside : index < count) (vacant : slots index = .empty) (new : Slot) :
    Counts (stats.retained new) (Function.update slots index new) count := by
  have moved (weight : Slot → Nat) (free : weight .empty = 0) :
      tally weight (Function.update slots index new) count = tally weight slots count + weight new := tally_fill inside free vacant
  have kept {value bound : Nat} (weight : Slot → Nat) (free : weight .empty = 0) (counted : value = tally weight slots count % bound)
      (nothing : weight new = 0) : value = tally weight (Function.update slots index new) count % bound :=
    kept_tally counted (.inr (moved weight free)) nothing
  obtain ⟨comprSize, pagesStored, pagesZero, pagesExpand, goodCompress⟩ := counts
  rcases new with _ | _ | ⟨frame | ⟨location, size⟩⟩ <;> dsimp only [Stats.retained]
  · exact ⟨kept _ rfl comprSize rfl, kept _ rfl pagesStored rfl, kept _ rfl pagesZero rfl, kept _ rfl pagesExpand rfl,
      kept _ rfl goodCompress rfl⟩
  · exact ⟨kept _ rfl comprSize rfl, kept _ rfl pagesStored rfl, inc_tally pagesZero (moved _ rfl) rfl, kept _ rfl pagesExpand rfl,
      kept _ rfl goodCompress rfl⟩
  · exact ⟨add_tally comprSize (moved _ rfl), inc_tally pagesStored (moved _ rfl) rfl, kept _ rfl pagesZero rfl,
      inc_tally pagesExpand (moved _ rfl) rfl, kept _ rfl goodCompress rfl⟩
  · refine ⟨add_tally comprSize (moved _ rfl), inc_tally pagesStored (moved _ rfl) rfl, kept _ rfl pagesZero rfl,
      kept _ rfl pagesExpand rfl, ?_⟩
    split
    next small => exact inc_tally goodCompress (moved _ rfl) (if_pos small)
    next large => exact kept _ rfl goodCompress (if_neg large)

end Counters

section Invariant

/-- What the disk page of a slot reads as. -/
inductive Content (lzo : Lzo) (memory : Memory Page) : Slot → Option PageData → Prop
  | empty : Content lzo memory .empty none
  | zero : Content lzo memory .zero (some PageData.zeros)
  | page {frame : Page} {data : PageData} (copied : (Storage.page frame).bytes memory = data.val) :
      Content lzo memory (.stored (.page frame)) (some data)
  | object {location : Location} {size : Nat} {data : PageData}
      (compressed : lzo.compress data = some ((Storage.object location size).bytes memory)) :
      Content lzo memory (.stored (.object location size)) (some data)

theorem Content.frame {lzo : Lzo} {memory after : Memory Page} {slot : Slot} {data : Option PageData}
    (content : Content lzo memory slot data)
    (kept : ∀ storage, slot = .stored storage → storage.bytes after = storage.bytes memory) : Content lzo after slot data := by
  cases content with
  | empty => exact .empty
  | zero => exact .zero
  | page copied => exact .page ((kept _ rfl).trans copied)
  | object compressed => exact .object (by rw [kept _ rfl]; exact compressed)

theorem Content.none_iff {lzo : Lzo} {memory : Memory Page} {slot : Slot} {data : Option PageData}
    (content : Content lzo memory slot data) :
    data = none ↔ slot = .empty := by
  cases content <;> simp

theorem storage_update {ι : Type} [DecidableEq ι] (slots : ι → Slot) (index : ι) (new : Slot) :
    (fun other => (Function.update slots index new other).storage) =
      Function.update (fun other => (slots other).storage) index new.storage := by
  funext other
  rcases Classical.em (other = index) with rfl | elsewhere
  · rw [Function.update_self, Function.update_self]
  · rw [Function.update_of_ne elsewhere, Function.update_of_ne elsewhere]

variable [Arch]

/-- A device agrees with its slots: the table shows them, the storage they name
is all there is, the disk reads as they say, and the counters count them. -/
structure Sound (lzo : Lzo) (others : Finset Page) (zram : Zram) (slots : Nat → Slot) (held : Storage → Prop)
    (disk : Nat → Option PageData) : Prop where
  entries : ∀ index, zram.table index = (slots index).entry
  backed : Backed others zram.xv held
  holders : Holders (fun index => (slots index).storage) held
  content : ∀ index, Content lzo zram.xv.memory (slots index) (disk index)
  counts : Counts zram.stats slots zram.numPages
  inside : ∀ index, slots index ≠ .empty → index < zram.numPages

/-- What requests on disk pages leave alone. -/
structure SameDevice (zram after : Zram) : Prop where
  disksize : after.disksize = zram.disksize
  initDone : after.initDone = zram.initDone
  tableAddress : after.tableAddress = zram.tableAddress

theorem SameDevice.refl (zram : Zram) : SameDevice zram zram := ⟨rfl, rfl, rfl⟩

theorem SameDevice.trans {first second third : Zram} (before : SameDevice first second) (after : SameDevice second third) :
    SameDevice first third :=
  ⟨after.disksize.trans before.disksize, after.initDone.trans before.initDone, after.tableAddress.trans before.tableAddress⟩

theorem SameDevice.numPages {zram after : Zram} (same : SameDevice zram after) : after.numPages = zram.numPages :=
  congrArg (· / pageSize) same.disksize

theorem zramFreePage_same {zram after : Zram} {index : Nat} (freed : zramFreePage zram index = some after) : SameDevice zram after := by
  unfold zramFreePage at freed
  dsimp only at freed
  split at freed
  next =>
    split at freed
    all_goals
      cases freed
      exact ⟨rfl, rfl, rfl⟩
  split at freed
  all_goals
    obtain ⟨xv, _, rfl⟩ := Option.map_eq_some_iff.mp freed
    exact ⟨rfl, rfl, rfl⟩

theorem releaseSlot_same {zram after : Zram} {index : Nat} (released : releaseSlot zram index = some after) : SameDevice zram after := by
  unfold releaseSlot at released
  split at released
  next => exact zramFreePage_same released
  next =>
    cases released
    exact .refl zram

/-- The device at the end of the section under the lock. -/
def Section.device (zram : Zram) : Section → Zram
  | .zeroFilled => zram
  | .stored after => after
  | .failed after => after

theorem lockedSection_same (lzo : Lzo) (zram : Zram) (index : Nat) (data : PageData) (allocator : PageAllocator) :
    SameDevice zram ((lockedSection lzo zram index data allocator).device zram) := by
  unfold lockedSection
  dsimp only
  split
  next => exact .refl zram
  split
  next => exact ⟨rfl, rfl, rfl⟩
  split
  next =>
    split
    all_goals exact ⟨rfl, rfl, rfl⟩
  next =>
    split
    all_goals exact ⟨rfl, rfl, rfl⟩

section Steps
variable {lzo : Lzo} {others : Finset Page} {zram after : Zram} {slots : Nat → Slot} {held : Storage → Prop}
  {disk : Nat → Option PageData} {index : Nat}

theorem Sound.change {new : Slot} {now : Storage → Prop} {data : Option PageData} (sound : Sound lzo others zram slots held disk)
    (same : SameDevice zram after) (table : after.table = Function.update zram.table index new.entry) (backed : Backed others after.xv now)
    (holders : Holders (Function.update (fun other => (slots other).storage) index new.storage) now)
    (kept : ∀ other, other ≠ index → ∀ storage, slots other = .stored storage → storage.bytes after.xv.memory =
      storage.bytes zram.xv.memory)
    (content : Content lzo after.xv.memory new data) (counts : Counts after.stats (Function.update slots index new) zram.numPages)
    (inside : new ≠ .empty → index < zram.numPages) :
    Sound lzo others after (Function.update slots index new) now (Function.update disk index data) where
  entries other := by
    rw [table]
    rcases Classical.em (other = index) with rfl | elsewhere
    · rw [Function.update_self, Function.update_self]
    · rw [Function.update_of_ne elsewhere, Function.update_of_ne elsewhere, sound.entries]
  backed := backed
  holders := by
    rw [storage_update]
    exact holders
  content other := by
    rcases Classical.em (other = index) with rfl | elsewhere
    · rw [Function.update_self, Function.update_self]
      exact content
    · rw [Function.update_of_ne elsewhere, Function.update_of_ne elsewhere]
      exact (sound.content other).frame (kept other elsewhere)
  counts := by
    rw [same.numPages]
    exact counts
  inside other occupied := by
    rw [same.numPages]
    rcases Classical.em (other = index) with rfl | elsewhere
    · rw [Function.update_self] at occupied
      exact inside occupied
    · rw [Function.update_of_ne elsewhere] at occupied
      exact sound.inside other occupied

theorem Sound.holds (sound : Sound lzo others zram slots held disk) {storage : Storage} (here : slots index = .stored storage) :
    held storage := by
  exact sound.holders.of_slot (Slot.storage_eq_some.mpr here)

theorem Sound.unstored (sound : Sound lzo others zram slots held disk) {new : Slot} (before : (slots index).storage = none)
    (now : new.storage = none) : Holders (Function.update (fun other => (slots other).storage) index new.storage) held := by
  rw [now, ← before, Function.update_eq_self]
  exact sound.holders

theorem zramFreePage_empty (entry : zram.table index = Slot.empty.entry) : zramFreePage zram index = some zram := by
  rw [zramFreePage, entry]
  exact (if_pos rfl).trans (if_neg Bool.false_ne_true)

theorem zramFreePage_zero (entry : zram.table index = Slot.zero.entry) :
    zramFreePage zram index = some { zram.setEntry index Slot.empty.entry with stats := zram.stats.released .zero } := by
  rw [zramFreePage, entry]
  exact (if_pos rfl).trans (if_pos rfl)

theorem forget_table (zram : Zram) (index clen : Nat) :
    (forget zram index clen).table = Function.update zram.table index { zram.table index with page := noPage, offset := 0 } := rfl

theorem forget_stats (zram : Zram) (index clen : Nat) : (forget zram index clen).stats = { zram.stats with
    comprSize := zramStat64Sub zram.stats.comprSize clen, pagesStored := zramStatDec zram.stats.pagesStored } := rfl

theorem freeUncompressed_table (zram : Zram) (xv : XvState) (index : Nat) :
    (freeUncompressed zram xv index).table = Function.update zram.table index { zram.table index with uncompressed := false } := rfl

theorem freeUncompressed_stats (zram : Zram) (xv : XvState) (index : Nat) :
    (freeUncompressed zram xv index).stats = { zram.stats with pagesExpand := zramStatDec zram.stats.pagesExpand } := rfl

theorem freeCompressed_stats (zram : Zram) (xv : XvState) (clen : Nat) : (freeCompressed zram xv clen).stats = { zram.stats with
    goodCompress := if clen ≤ pageSize / 2 then zramStatDec zram.stats.goodCompress else zram.stats.goodCompress } := rfl

theorem zramFreePage_page {frame : Page} {xv : XvState} (entry : zram.table index = (Slot.stored (.page frame)).entry)
    (present : frame ≠ noPage)
    (freed : zram.xv.freePage frame = some xv) :
    zramFreePage zram index = some (forget (freeUncompressed zram xv index) index pageSize) := by
  rw [zramFreePage, entry]
  refine (if_neg present).trans ((if_pos rfl).trans ?_)
  exact Option.map_eq_some_iff.mpr ⟨xv, freed, rfl⟩

theorem zramFreePage_object {location : Location} {size : Nat} {xv : XvState}
    (entry : zram.table index = (Slot.stored (.object location size)).entry)
    (present : location.page ≠ noPage) (sized : xvGetObjectSize zram.xv.memory location.page location.offset = size)
    (small : size ≤ pageSize)
    (freed : xvFree zram.xv location.page location.offset = some xv) :
    zramFreePage zram index = some (forget (freeCompressed zram xv size) index size) := by
  have clen : sub32 (xvGetObjectSize zram.xv.memory location.page location.offset) zobjHeaderSize = size := by
    rw [sized]
    exact sub32_eq (Nat.zero_le _) (by simp only [pageSize_eq] at small; omega)
  rw [zramFreePage, entry]
  refine (if_neg present).trans ((if_neg Bool.false_ne_true).trans ?_)
  exact Option.map_eq_some_iff.mpr ⟨xv, freed, by rw [← clen]; rfl⟩

theorem Sound.freePage (sound : Sound lzo others zram slots held disk) (index : Nat) :
    ∃ after now, zramFreePage zram index = some after ∧
      Sound lzo others after (Function.update slots index .empty) now (Function.update disk index none) ∧ SameDevice zram after := by
  have entry := sound.entries index
  cases found : slots index with
  | empty =>
    have absent : disk index = none := by
      have content := sound.content index
      rw [found] at content
      generalize disk index = data at content
      cases content with
      | empty => rfl
    rw [found] at entry
    rw [← found, ← absent, Function.update_eq_self, Function.update_eq_self]
    exact ⟨zram, held, zramFreePage_empty entry, sound, .refl zram⟩
  | zero =>
    rw [found] at entry
    refine ⟨_, held, zramFreePage_zero entry, ?_, ⟨rfl, rfl, rfl⟩⟩
    refine sound.change ⟨rfl, rfl, rfl⟩ rfl sound.backed (sound.unstored (by rw [found]; rfl) rfl) (fun _ _ _ _ => rfl) .empty ?_
      (fun occupied => absurd rfl occupied)
    rw [← found]
    exact sound.counts.released (sound.inside index (by simp [found]))
  | stored storage =>
    have here : held storage := sound.holds found
    have holders := sound.holders.clear (Slot.storage_eq_some.mpr found)
    have counts : Counts (zram.stats.released (.stored storage)) (Function.update slots index .empty) zram.numPages := by
      rw [← found]
      exact sound.counts.released (sound.inside index (by simp [found]))
    have present := sound.backed.page_ne here
    rw [found] at entry
    cases storage with
    | page frame =>
      obtain ⟨freed, backed⟩ := sound.backed.releasePage here
      refine ⟨_, _, zramFreePage_page entry present freed, sound.change ⟨rfl, rfl, rfl⟩ ?_ backed holders (fun _ _ _ _ => rfl) .empty ?_
        (fun occupied => absurd rfl occupied), ⟨rfl, rfl, rfl⟩⟩
      · rw [forget_table, freeUncompressed_table, Function.update_idem, Function.update_self, entry]
        rfl
      · rw [forget_stats, freeUncompressed_stats]
        exact counts
    | object location size =>
      obtain ⟨xv, freed, backed, kept⟩ := sound.backed.releaseObject here
      have small : size ≤ pageSize := (Nat.le_add_left ..).trans (sound.backed.object_inside here)
      refine ⟨_, _, zramFreePage_object entry present (sound.backed.object_size here) small freed,
        sound.change ⟨rfl, rfl, rfl⟩ ?_ backed holders ?_ .empty ?_ (fun occupied => absurd rfl occupied), ⟨rfl, rfl, rfl⟩⟩
      · rw [forget_table, show (freeCompressed zram xv size).table = zram.table from rfl, entry]
        rfl
      · intro other elsewhere piece there
        refine kept piece (sound.holds there) ?_
        rintro rfl
        exact elsewhere (sound.holders.single (Slot.storage_eq_some.mpr there) (Slot.storage_eq_some.mpr found))
      · rw [forget_stats, freeCompressed_stats]
        exact counts

theorem memstore_table (zram : Zram) (index offset : Nat) (src : List UInt8) :
    (memstore zram index offset src).table = Function.update zram.table index { zram.table index with offset := offset % 2 ^ 16 } := rfl

theorem memstore_xv (zram : Zram) (index offset : Nat) (src : List UInt8) : (memstore zram index offset src).xv =
    zram.xv.withMemory (zram.xv.memory.write (zram.table index).page (offset % 2 ^ 16) src) := rfl

theorem memstore_stats (zram : Zram) (index offset : Nat) (src : List UInt8) : (memstore zram index offset src).stats = { zram.stats with
    comprSize := zramStat64Add zram.stats.comprSize src.length
    pagesStored := zramStatInc zram.stats.pagesStored
    goodCompress := if src.length ≤ pageSize / 2 then zramStatInc zram.stats.goodCompress else zram.stats.goodCompress } := rfl

theorem Sound.memstore (sound : Sound lzo others zram slots held disk) (inside : index < zram.numPages) (vacant : slots index = .empty)
    (storage : Storage) {before : Zram} {entry : Entry} {src : List UInt8} {data : PageData} (same : SameDevice zram before)
    (table : before.table = Function.update zram.table index entry)
    (points : { entry with offset := storage.location.offset } = (Slot.stored storage).entry) (offset : storage.location.offset < 2 ^ 16)
    (fresh : ¬ held storage) (backed : Backed others before.xv fun other => held other ∨ other = storage)
    (kept : ∀ other, held other → other.bytes before.xv.memory = other.bytes zram.xv.memory) (whole : src.length = storage.size)
    (content : ∀ {memory}, storage.bytes memory = src → Content lzo memory (.stored storage) (some data))
    (stats : (ZramDrv.memstore before index storage.location.offset src).stats = zram.stats.retained (.stored storage)) :
    Sound lzo others (ZramDrv.memstore before index storage.location.offset src) (Function.update slots index (.stored storage))
      (fun other => held other ∨ other = storage) (Function.update disk index (some data)) := by
  have page : entry.page = storage.location.page := by
    have located : (Slot.stored storage).entry.page = storage.location.page := by cases storage <;> rfl
    exact (congrArg Entry.page points).trans located
  obtain ⟨written, stored, untouched⟩ := backed.write (.inr rfl) whole
  have xv : (ZramDrv.memstore before index storage.location.offset src).xv =
      before.xv.withMemory (before.xv.memory.write storage.location.page storage.location.offset src) := by
    rw [memstore_xv, table, Function.update_self, page, Nat.mod_eq_of_lt offset]
  refine sound.change ⟨same.disksize, same.initDone, same.tableAddress⟩ ?_ ?_ ?_ ?_ ?_ ?_ fun _ => inside
  · rw [memstore_table, table, Function.update_idem, Function.update_self, Nat.mod_eq_of_lt offset, points]
  · rw [xv]
    exact written
  · exact sound.holders.fill (by rw [vacant]; rfl) fresh
  · intro other elsewhere piece there
    have here : held piece := sound.holds there
    have different : piece ≠ storage := by
      rintro rfl
      exact fresh here
    rw [xv, XvState.withMemory_memory, untouched piece (.inl here) different, kept piece here]
  · rw [xv, XvState.withMemory_memory]
    exact content stored
  · rw [stats]
    exact sound.counts.retained inside vacant _

/-- How the locked section of a write to an empty slot ends. -/
inductive SectionEnd (lzo : Lzo) (others : Finset Page) (zram : Zram) (slots : Nat → Slot) (held : Storage → Prop)
    (disk : Nat → Option PageData)
    (index : Nat) (data : PageData) : Section → Prop
  | zeroFilled (zeros : data = PageData.zeros) : SectionEnd lzo others zram slots held disk index data .zeroFilled
  | stored {after : Zram} {storage : Storage} {now : Storage → Prop} (same : SameDevice zram after)
      (sound : Sound lzo others after (Function.update slots index (.stored storage)) now (Function.update disk index (some data))) :
      SectionEnd lzo others zram slots held disk index data (.stored after)
  | failed {after : Zram} (same : SameDevice zram after) (sound : Sound lzo others after slots held disk) :
      SectionEnd lzo others zram slots held disk index data (.failed after)

theorem Sound.recount (sound : Sound lzo others zram slots held disk) {stats : Stats} (comprSize : stats.comprSize = zram.stats.comprSize)
    (pagesStored : stats.pagesStored = zram.stats.pagesStored) (pagesZero : stats.pagesZero = zram.stats.pagesZero)
    (pagesExpand : stats.pagesExpand = zram.stats.pagesExpand) (goodCompress : stats.goodCompress = zram.stats.goodCompress) :
    Sound lzo others { zram with stats } slots held disk :=
  ⟨sound.entries, sound.backed, sound.holders, sound.content,
    ⟨comprSize.trans sound.counts.comprSize, pagesStored.trans sound.counts.pagesStored, pagesZero.trans sound.counts.pagesZero,
      pagesExpand.trans sound.counts.pagesExpand, goodCompress.trans sound.counts.goodCompress⟩, sound.inside⟩

theorem Sound.failWrite (sound : Sound lzo others zram slots held disk) : Sound lzo others (failWrite zram) slots held disk :=
  sound.recount rfl rfl rfl rfl rfl

theorem Sound.lockedSection (sound : Sound lzo others zram slots held disk) (inside : index < zram.numPages) (vacant : slots index = .empty)
    (data : PageData) (allocator : PageAllocator) :
    SectionEnd lzo others zram slots held disk index data (lockedSection lzo zram index data allocator) := by
  have entry := sound.entries index
  rw [vacant] at entry
  unfold ZramDrv.lockedSection
  split
  next filled => exact .zeroFilled (pageZeroFilled_zeros filled)
  split
  next => exact .failed ⟨rfl, rfl, rfl⟩ sound.failWrite
  next src compressed =>
    split
    next large =>
      split
      next => exact .failed ⟨rfl, rfl, rfl⟩ sound.failWrite
      next page kernel taken =>
        obtain ⟨fresh, backed, kept⟩ := sound.backed.takePage taken
        refine .stored ⟨rfl, rfl, rfl⟩ (sound.memstore inside vacant (.page page) ⟨rfl, rfl, rfl⟩ rfl ?_ (Nat.two_pow_pos 16) fresh backed
          kept data.property
          (fun copied => .page copied) ?_)
        · rw [entry]
          rfl
        · rw [memstore_stats, data.property, if_neg (by decide)]
          rfl
    next small =>
      have fits : src.length + zobjHeaderSize ≤ 4088 := by
        simp only [maxZpageSize, pageSize_eq, zobjHeaderSize] at *
        omega
      rcases sound.backed.takeObject fits allocator with refused | ⟨ret, fresh, backed, kept⟩
      · rw [refused, if_pos (show -enomem ≠ 0 by decide)]
        have restored : Function.update zram.table index { zram.table index with page := Location.null.page } = zram.table := by
          rw [Function.update_eq_self_iff, entry]
          rfl
        refine .failed ⟨rfl, rfl, rfl⟩ (Sound.failWrite ⟨fun other => ?_, sound.backed, sound.holders, sound.content, sound.counts,
          sound.inside⟩)
        exact (congrFun restored other).trans (sound.entries other)
      · have inPage := backed.object_inside (.inr rfl)
        generalize xvMalloc zram.xv (src.length + zobjHeaderSize) allocator = result at ret fresh backed kept inPage ⊢
        rw [if_neg (by simp only [ret, ne_eq, not_true_eq_false, not_false_eq_true])]
        refine .stored ⟨rfl, rfl, rfl⟩ (sound.memstore inside vacant (.object result.location src.length) ⟨rfl, rfl, rfl⟩ rfl ?_ ?_
          (fresh _) backed kept rfl
          (fun copied => .object (compressed.trans (congrArg some copied.symm))) ?_)
        · rw [entry]
          rfl
        · simp only [Storage.location, pageSize_eq] at *
          omega
        · rw [memstore_stats]
          rfl

/-- A segment that nothing fails: a page that is not zeros compresses to something, and
the system has a page. -/
def Provided (lzo : Lzo) (count : Nat) (segment : PageData × PageAllocator) : Prop :=
  (pageZeroFilled segment.1 = true ∨ ∃ src, lzo.compress segment.1 = some src ∧ src ≠ []) ∧ segment.2.Serves count

theorem Sound.owned_card (sound : Sound lzo others zram slots held disk) : zram.xv.kernel.owned.card ≤ others.card + zram.numPages := by
  refine sound.backed.owned_card sound.holders fun index occupied => sound.inside index ?_
  intro vacant
  rw [vacant] at occupied
  exact occupied rfl

theorem Sound.lockedSection_provided (sound : Sound lzo others zram slots held disk) {data : PageData} {allocator : PageAllocator}
    (provided : Provided lzo (others.card + zram.numPages) (data, allocator)) (failing : Zram) :
    ZramDrv.lockedSection lzo zram index data allocator ≠ .failed failing := by
  obtain ⟨compresses, serves⟩ := provided
  obtain ⟨page, kernel, offered⟩ := serves.allocPage sound.owned_card
  unfold ZramDrv.lockedSection
  split
  next => exact nofun
  next filled =>
    obtain ⟨src, compressed, nonempty⟩ := compresses.resolve_left filled
    rw [compressed]
    dsimp only
    split
    next =>
      rw [offered]
      exact nofun
    next small =>
      have fits : src.length + zobjHeaderSize ≤ 4088 := by
        simp only [maxZpageSize, pageSize_eq, zobjHeaderSize] at *
        omega
      have positive : src.length + zobjHeaderSize ≠ 0 := fun none_ =>
        nonempty (List.eq_nil_of_length_eq_zero (Nat.eq_zero_of_add_eq_zero_right none_))
      have met : (xvMalloc zram.xv (src.length + zobjHeaderSize) allocator).ret = 0 :=
        sound.backed.takeObject_served positive fits (by rw [offered]; rfl)
      rw [if_neg (not_not_intro met)]
      exact nofun

theorem Sound.setZero (sound : Sound lzo others zram slots held disk) (inside : index < zram.numPages) (vacant : slots index = .empty) :
    Sound lzo others (setZero zram index) (Function.update slots index .zero) held (Function.update disk index (some PageData.zeros)) := by
  have entry := sound.entries index
  rw [vacant] at entry
  refine sound.change ⟨rfl, rfl, rfl⟩ ?_ sound.backed (sound.unstored (by rw [vacant]; rfl) rfl) (fun _ _ _ _ => rfl) .zero
    (sound.counts.retained inside vacant .zero) fun _ => inside
  exact congrArg (fun entry => Function.update zram.table index { entry with zero := true }) entry

theorem Sound.releaseSlot (sound : Sound lzo others zram slots held disk) (index : Nat) :
    ∃ after now, releaseSlot zram index = some after ∧
      Sound lzo others after (Function.update slots index .empty) now (Function.update disk index none) ∧ SameDevice zram after := by
  unfold ZramDrv.releaseSlot
  split
  next => exact sound.freePage index
  next unused =>
    obtain ⟨after, now, freed, released, same⟩ := sound.freePage index
    have vacant : (zram.table index).page = noPage ∧ (zram.table index).zero = false := by simpa using unused
    have nothing : zramFreePage zram index = some zram := (if_pos vacant.1).trans (if_neg (by simp [vacant.2]))
    obtain rfl : zram = after := Option.some.inj (nothing.symm.trans freed)
    exact ⟨zram, now, rfl, released, same⟩

theorem Sound.writeSegment (sound : Sound lzo others zram slots held disk) (inside : index < zram.numPages) (data : PageData)
    (allocator : PageAllocator) : ∃ after stored new now, writeSegment lzo zram index data allocator = some (after, stored) ∧
      Sound lzo others after (Function.update slots index new) now (Function.update disk index (if stored then some data else none)) ∧
      SameDevice zram after := by
  obtain ⟨freed, now, released, sound, same⟩ := sound.releaseSlot index
  have vacant : Function.update slots index .empty index = .empty := Function.update_self ..
  have ended := sound.lockedSection (same.numPages ▸ inside) vacant data allocator
  unfold ZramDrv.writeSegment
  rw [released, Option.map_some]
  generalize ZramDrv.lockedSection lzo freed index data allocator = result at ended ⊢
  cases ended with
  | zeroFilled zeros =>
    have filled := sound.setZero (same.numPages ▸ inside) vacant
    rw [Function.update_idem, Function.update_idem] at filled
    subst zeros
    exact ⟨_, true, _, _, rfl, filled, same.trans ⟨rfl, rfl, rfl⟩⟩
  | stored later filled =>
    rw [Function.update_idem, Function.update_idem] at filled
    exact ⟨_, true, _, _, rfl, filled, same.trans later⟩
  | failed later kept => exact ⟨_, false, _, _, rfl, kept, same.trans later⟩

theorem Sound.writeSegment_provided (sound : Sound lzo others zram slots held disk) {segment : PageData × PageAllocator}
    (provided : Provided lzo (others.card + zram.numPages) segment) {stored : Bool}
    (written : ZramDrv.writeSegment lzo zram index segment.1 segment.2 = some (after, stored)) : stored = true := by
  obtain ⟨freed, now, released, sound, same⟩ := sound.releaseSlot index
  have fine (failing : Zram) : ZramDrv.lockedSection lzo freed index segment.1 segment.2 ≠ .failed failing :=
    sound.lockedSection_provided (same.numPages ▸ provided) failing
  rw [ZramDrv.writeSegment, released, Option.map_some] at written
  generalize ZramDrv.lockedSection lzo freed index segment.1 segment.2 = result at fine written
  cases result with
  | failed failing => exact absurd rfl (fine failing)
  | zeroFilled | stored =>
    cases written
    rfl

end Steps
end Invariant
end Compcache.ZramDrv
