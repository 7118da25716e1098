import Compcache.Proofs.Slots
import Compcache.ZramScale

/-! What the packed table of the variant stands for, and what its operations do to
one disk page and to the counters. -/

namespace Compcache.ZramScale
open Library.PagedMemory Library.Ownership Library.PerCpu Xvmalloc
open ZramDrv (Slot Content tally tally_clear tally_fill)

/-- What a slot adds to a counter, for those that count slots. -/
def Stat.weight : Stat → Option (Slot → Nat)
  | comprSize => some Slot.length
  | pagesStored => some Slot.pagesStored
  | pagesZero => some Slot.pagesZero
  | pagesExpand => some Slot.pagesExpand
  | _ => none

theorem Stat.weight_empty {stat : Stat} {weight : Slot → Nat} (counts : stat.weight = some weight) : weight .empty = 0 := by
  cases stat <;> cases counts <;> rfl

section Counters
variable {Cpu : Type} [Fintype Cpu] {counters after : Counters Cpu Stat} {slots : Nat → Slot} {count index : Nat} {new : Slot}

/-- The sums over all CPUs are those over the slots. -/
def Tallied (counters : Counters Cpu Stat) (slots : Nat → Slot) (count : Nat) : Prop :=
  ∀ {stat weight}, Stat.weight stat = some weight → total counters stat = (tally weight slots count : ZMod (2 ^ 64))

theorem Tallied.clear (tallied : Tallied counters slots count) (inside : index < count)
    (moved : ∀ {stat weight}, Stat.weight stat = some weight →
      total after stat = total counters stat - (weight (slots index) : ZMod (2 ^ 64))) :
    Tallied after (Function.update slots index .empty) count := by
  intro stat weight counts
  rw [moved counts, tallied counts, ← tally_clear inside (Stat.weight_empty counts), Nat.cast_add, add_sub_cancel_right]

theorem Tallied.fill (tallied : Tallied counters slots count) (inside : index < count) (vacant : slots index = .empty)
    (moved : ∀ {stat weight}, Stat.weight stat = some weight → total after stat = total counters stat + (weight new : ZMod (2 ^ 64))) :
    Tallied after (Function.update slots index new) count := by
  intro stat weight counts
  rw [moved counts, tallied counts, tally_fill inside (Stat.weight_empty counts) vacant, Nat.cast_add]

theorem Tallied.other [DecidableEq Cpu] (tallied : Tallied counters slots count) (cpu : Cpu) {stat : Stat} (value : Int)
    (uncounted : stat.weight = none) :
    Tallied (counters.add cpu stat value) slots count := by
  intro other weight counts
  have different : other ≠ stat := by
    rintro rfl
    rw [uncounted] at counts
    cases counts
  rw [total_add, if_neg different, add_zero, tallied counts]

end Counters

section Packing
variable [Arch] {storage : Storage}

/-- Storage whose packed address gives its page, offset and kind back. -/
structure Placed (storage : Storage) : Prop where
  low : storage.location.page * pageSize < 2 ^ bitsPerLong
  present : storage.location.page ≠ noPage
  aligned : storage.location.offset % xvAlign = 0
  short : storage.location.offset < pageSize
  kind : storage.location.offset = 0 ↔ ∃ frame, storage = .page frame

def slotAddr : Slot → Nat
  | .empty => 0
  | .zero => 1
  | .stored storage => packObj storage.location

theorem Placed.pack (placed : Placed storage) : packObj storage.location = storage.location.page * pageSize + storage.location.offset := by
  obtain ⟨low, _, _, short, _⟩ := placed
  have merged := Nat.two_pow_add_eq_or_of_lt (i := pageShift) short storage.location.page
  unfold packObj
  rw [Nat.mod_eq_of_lt low, Nat.mod_eq_of_lt short, Nat.mul_comm]
  exact merged.symm

theorem Placed.even (placed : Placed storage) : packObj storage.location % 2 = 0 := by
  have aligned := placed.aligned
  rw [placed.pack]
  simp only [pageSize_eq, xvAlign_eq] at *
  omega

theorem Placed.ne_zero (placed : Placed storage) : packObj storage.location ≠ 0 := by
  have present : 0 < storage.location.page := Nat.pos_of_ne_zero placed.present
  have positive := Nat.mul_pos present (show 0 < pageSize by decide)
  rw [placed.pack]
  omega

theorem Placed.unpack (placed : Placed storage) :
    (⟨packObj storage.location / pageSize, packObj storage.location % pageSize⟩ : Location) = storage.location := by
  have short := placed.short
  rw [placed.pack]
  refine Location.ext ?_ ?_
  · show (storage.location.page * pageSize + storage.location.offset) / pageSize = _
    rw [Nat.mul_comm, Nat.mul_add_div (by decide), Nat.div_eq_of_lt short, Nat.add_zero]
  · exact (Nat.mul_add_mod_self_right ..).trans (Nat.mod_eq_of_lt short)

/-- On a machine with more physical addresses than an unsigned long has, the packed
address keeps the number of a page only if the page is low enough. -/
def Low (allocator : PageAllocator) : Prop := ∀ {owned fresh}, allocator.pick owned = some fresh → fresh.page * pageSize < 2 ^ bitsPerLong

theorem Low.page {allocator : PageAllocator} (low : Low allocator) {kernel : Kernel} {page : Page}
    (offered : (kernel.allocPage allocator).map Prod.fst = some page) : page * pageSize < 2 ^ bitsPerLong := by
  obtain ⟨⟨same, after⟩, taken, rfl⟩ := Option.map_eq_some_iff.mp offered
  obtain ⟨fresh, picked, found⟩ := Option.map_eq_some_iff.mp taken
  cases found
  exact low picked

theorem Low.of_narrow (narrow : physAddrBits ≤ bitsPerLong) (allocator : PageAllocator) : Low allocator := fun picked =>
  Nat.lt_of_lt_of_le (allocator.frame picked).2.2 (Nat.pow_le_pow_right (by decide) narrow)

/-- The page compresses, if at all, to something that is stored compressed. -/
def Compressible (lzo : Lzo) (data : PageData) : Prop := ∀ src, lzo.compress data = some src → src.length ≤ maxZpageSize

end Packing

variable {Cpu : Type} [Arch]

/-- What requests on disk pages leave alone. -/
structure SameDevice (zram after : Zram Cpu) : Prop where
  disksize : after.disksize = zram.disksize
  initDone : after.initDone = zram.initDone
  tableAddress : after.tableAddress = zram.tableAddress

theorem SameDevice.refl (zram : Zram Cpu) : SameDevice zram zram := ⟨rfl, rfl, rfl⟩

theorem SameDevice.trans {first second third : Zram Cpu} (before : SameDevice first second) (after : SameDevice second third) :
    SameDevice first third :=
  ⟨after.disksize.trans before.disksize, after.initDone.trans before.initDone, after.tableAddress.trans before.tableAddress⟩

theorem SameDevice.numPages {zram after : Zram Cpu} (same : SameDevice zram after) : after.numPages = zram.numPages :=
  congrArg (· / pageSize) same.disksize

section Updates
variable [DecidableEq Cpu] {zram : Zram Cpu} {counters : Counters Cpu Stat}

theorem zramAddStat_some (present : zram.stats = some counters) (cpu : Cpu) (stat : Stat) (value : Int) :
    zramAddStat zram cpu stat value = some { zram with stats := some (counters.add cpu stat value) } := by
  rw [zramAddStat, present, Option.map_some]

theorem forgetObj_some (present : zram.stats = some counters) (index zlen : Nat) (placement : Placement Cpu) :
    forgetObj zram index zlen placement = some { zram with
      table := Function.update zram.table index 0
      stats := some ((counters.add (placement .comprSize) .comprSize (-zlen)).add (placement .pagesStored) .pagesStored (-1)) } := by
  rw [forgetObj, zramAddStat_some present]
  rfl

theorem memstore_some (present : zram.stats = some counters) (index : Nat) (location : Location) (src : List UInt8)
    (placement : Placement Cpu) : memstore zram index location src placement = some { zram with
      xv := zram.xv.withMemory (zram.xv.memory.write location.page location.offset src)
      table := Function.update zram.table index (packObj location)
      stats := some ((counters.add (placement .comprSize) .comprSize src.length).add (placement .pagesStored) .pagesStored 1) } := by
  have here : ({ zram with xv := zram.xv.withMemory (zram.xv.memory.write location.page location.offset src) } : Zram Cpu).stats =
    some counters := present
  rw [memstore, zramAddStat_some here]
  rfl

end Updates

variable [Fintype Cpu]

/-- An initialised device agrees with its slots. -/
structure Sound (lzo : Lzo) (others : Finset Page) (zram : Zram Cpu) (slots : Nat → Slot) (held : Storage → Prop)
    (disk : Nat → Option PageData) : Prop where
  stored : Stored lzo others zram.xv slots held disk
  entries : ∀ index, zram.table index = slotAddr (slots index)
  placed : ∀ storage, held storage → Placed storage
  counted : ∃ counters, zram.stats = some counters ∧ Tallied counters slots zram.numPages
  inside : ∀ index, slots index ≠ .empty → index < zram.numPages ∧ index < 2 ^ 32

section Steps
variable {lzo : Lzo} {others : Finset Page} {zram : Zram Cpu} {slots : Nat → Slot} {held : Storage → Prop}
    {disk : Nat → Option PageData} {index : Nat}

theorem Sound.find (sound : Sound lzo others zram slots held disk) (small : index < 2 ^ 32) {storage : Storage}
    (found : slots index = .stored storage) :
    zramIsZeroPage zram index = false ∧ zramFindObj zram index = some storage.location := by
  have placed := sound.placed _ (sound.stored.holds found)
  have entry : zram.table (index % 2 ^ 32) = packObj storage.location := by
    rw [Nat.mod_eq_of_lt small, sound.entries, found]
    rfl
  unfold zramIsZeroPage zramFindObj
  rw [entry, placed.even, if_neg placed.ne_zero, placed.unpack]
  exact ⟨rfl, rfl⟩

theorem Sound.entry_update (sound : Sound lzo others zram slots held disk) (index : Nat) (new : Slot) (other : Nat) :
    Function.update zram.table index (slotAddr new) other = slotAddr (Function.update slots index new other) := by
  rcases Classical.em (other = index) with rfl | elsewhere
  · rw [Function.update_self, Function.update_self]
  · rw [Function.update_of_ne elsewhere, Function.update_of_ne elsewhere, sound.entries]

theorem Sound.inside_update (sound : Sound lzo others zram slots held disk) {new : Slot}
    (inside : new ≠ .empty → index < zram.numPages ∧ index < 2 ^ 32) :
    ∀ other, Function.update slots index new other ≠ .empty → other < zram.numPages ∧ other < 2 ^ 32 := by
  intro other occupied
  rcases Classical.em (other = index) with rfl | elsewhere
  · rw [Function.update_self] at occupied
    exact inside occupied
  · rw [Function.update_of_ne elsewhere] at occupied
    exact sound.inside other occupied

variable [DecidableEq Cpu]

theorem Sound.freePage (sound : Sound lzo others zram slots held disk) (small : index < 2 ^ 32) (placement : Placement Cpu) :
    ∃ after now, zramFreePage zram index placement = some after ∧
      Sound lzo others after (Function.update slots index .empty) now (Function.update disk index none) ∧ SameDevice zram after := by
  obtain ⟨counters, present, tallied⟩ := sound.counted
  have entry : zram.table (index % 2 ^ 32) = slotAddr (slots index) := by rw [Nat.mod_eq_of_lt small, sound.entries]
  cases found : slots index with
  | empty =>
    have absent : disk index = none := sound.stored.absent found
    have nothing : zramFreePage zram index placement = some zram := by
      unfold zramFreePage zramIsZeroPage zramFindObj
      rw [entry, found]
      rfl
    rw [← found, ← absent, Function.update_eq_self, Function.update_eq_self]
    exact ⟨zram, held, nothing, sound, .refl zram⟩
  | zero =>
    have freed : zramFreePage zram index placement = some { zram with
        table := Function.update zram.table index (slotAddr .empty)
        stats := some (counters.add (placement .pagesZero) .pagesZero (-1)) } := by
      have marked : zramIsZeroPage zram index = true := by
        rw [zramIsZeroPage, entry, found]
        rfl
      have cleared : zramClearZeroPage zram index = zram.setAddr index (slotAddr .empty) := by
        rw [zramClearZeroPage, entry, found, Nat.mod_eq_of_lt small]
        rfl
      have here : (zram.setAddr index (slotAddr .empty)).stats = some counters := present
      rw [zramFreePage, if_pos marked, cleared, zramDecStat, zramAddStat_some here]
      rfl
    refine ⟨_, held, freed, ⟨?_, sound.entry_update index .empty, sound.placed, ⟨_, rfl, ?_⟩,
      sound.inside_update fun occupied => absurd rfl occupied⟩, ⟨rfl, rfl, rfl⟩⟩
    · exact sound.stored.unstored (by rw [found]; rfl) rfl .empty
    · refine tallied.clear (sound.inside index (by simp [found])).1 fun {stat weight} counts => ?_
      rw [found]
      cases stat <;> cases counts <;> simp [total_add, Slot.length, Slot.pagesStored, Slot.pagesZero, Slot.pagesExpand, sub_eq_add_neg]
  | stored storage =>
    obtain ⟨notZero, where_⟩ := sound.find small found
    have placed := sound.placed _ (sound.stored.holds found)
    have inside := (sound.inside index (by simp [found])).1
    cases storage with
    | page frame =>
      obtain ⟨given, stored⟩ := sound.stored.releasePage found
      have freed : zramFreePage zram index placement = some { zram with
          xv := zram.xv.without frame
          table := Function.update zram.table index (slotAddr .empty)
          stats := some (((counters.add (placement .pagesExpand) .pagesExpand (-1)).add (placement .comprSize) .comprSize (-pageSize)).add
            (placement .pagesStored) .pagesStored (-1)) } := by
        have gone : ({ zram with xv := zram.xv.without frame } : Zram Cpu).stats = some counters := present
        have located : zramFindObj zram index = some ⟨frame, 0⟩ := where_
        unfold zramFreePage
        rw [notZero, if_neg Bool.false_ne_true, located]
        dsimp only
        rw [if_pos (Eq.refl 0), given, Option.bind_some, zramDecStat, zramAddStat_some gone, Option.bind_some]
        exact forgetObj_some rfl index pageSize placement
      refine ⟨_, _, freed, ⟨stored, sound.entry_update index .empty, fun storage here => sound.placed storage here.1, ⟨_, rfl, ?_⟩,
        sound.inside_update fun occupied => absurd rfl occupied⟩, ⟨rfl, rfl, rfl⟩⟩
      refine tallied.clear inside fun {stat weight} counts => ?_
      rw [found]
      cases stat <;> cases counts <;> simp [total_add, Slot.length, Slot.pagesStored, Slot.pagesZero, Slot.pagesExpand,
        Storage.size, sub_eq_add_neg]
    | object location size =>
      obtain ⟨xv, given, stored⟩ := sound.stored.releaseObject found
      have sized := sound.stored.backed.object_size (sound.stored.holds found)
      have whole : location.offset ≠ 0 := by
        intro zero
        obtain ⟨frame, same⟩ := placed.kind.mp zero
        cases same
      have freed : zramFreePage zram index placement = some { zram with
          xv
          table := Function.update zram.table index (slotAddr .empty)
          stats := some ((counters.add (placement .comprSize) .comprSize (-size)).add (placement .pagesStored) .pagesStored (-1)) } := by
        have located : zramFindObj zram index = some location := where_
        unfold zramFreePage
        rw [notZero, if_neg Bool.false_ne_true, located]
        dsimp only
        rw [if_neg whole, given, Option.bind_some, sized]
        have gone : ({ zram with xv } : Zram Cpu).stats = some counters := present
        exact forgetObj_some gone index size placement
      refine ⟨_, _, freed, ⟨stored, sound.entry_update index .empty, fun storage here => sound.placed storage here.1, ⟨_, rfl, ?_⟩,
        sound.inside_update fun occupied => absurd rfl occupied⟩, ⟨rfl, rfl, rfl⟩⟩
      refine tallied.clear inside fun {stat weight} counts => ?_
      rw [found]
      cases stat <;> cases counts <;> simp [total_add, Slot.length, Slot.pagesStored, Slot.pagesZero, Slot.pagesExpand,
        Storage.size, sub_eq_add_neg]

/-- How the store of a segment ends on an empty slot. -/
inductive StoreEnd (lzo : Lzo) (others : Finset Page) (zram : Zram Cpu) (slots : Nat → Slot) (held : Storage → Prop)
    (disk : Nat → Option PageData)
    (index : Nat) (segment : Segment Cpu) : Zram Cpu × Flow → Prop
  | again {after : Zram Cpu} (filled : pageZeroFilled segment.data = true) (same : SameDevice zram after)
      (sound : Sound lzo others after (Function.update slots index .zero) held (Function.update disk index (some segment.data))) :
      StoreEnd lzo others zram slots held disk index segment (after, .again)
  | next {after : Zram Cpu} {storage : Storage} {now : Storage → Prop} {shown : PageData} (same : SameDevice zram after)
      (nonzero : pageZeroFilled segment.data = false) (fits : Compressible lzo segment.data → shown = segment.data)
      (expanded : ¬ Compressible lzo segment.data → ∃ page kernel, zram.xv.kernel.allocPage segment.allocator = some (page, kernel) ∧
        shown = PageData.copy kernel.memory page 0)
      (sound : Sound lzo others after (Function.update slots index (.stored storage)) now (Function.update disk index (some shown))) :
      StoreEnd lzo others zram slots held disk index segment (after, .next)
  | out {after : Zram Cpu} (same : SameDevice zram after) (sound : Sound lzo others after slots held disk) :
      StoreEnd lzo others zram slots held disk index segment (after, .out)

omit [DecidableEq Cpu] in
theorem Sound.placed_or {storage : Storage} (sound : Sound lzo others zram slots held disk) (new : Placed storage) :
    ∀ other, held other ∨ other = storage → Placed other := by
  rintro other (old | rfl)
  · exact sound.placed other old
  · exact new

theorem Sound.storeZeros (sound : Sound lzo others zram slots held disk) (inside : index < zram.numPages ∧ index < 2 ^ 32)
    (vacant : slots index = .empty) {segment : Segment Cpu} (filled : pageZeroFilled segment.data = true) :
    ∃ after, zramIncStat zram (segment.storing .pagesZero) .pagesZero = some after ∧
      StoreEnd lzo others zram slots held disk index segment (zramSetZeroPage after index, .again) := by
  obtain ⟨counters, present, tallied⟩ := sound.counted
  have zeros := pageZeroFilled_zeros filled
  refine ⟨_, zramAddStat_some present _ _ _, .again filled ⟨rfl, rfl, rfl⟩ ⟨?_, ?_, sound.placed, ⟨_, rfl, ?_⟩, ?_⟩⟩
  · rw [zeros]
    exact sound.stored.unstored (by rw [vacant]; rfl) rfl .zero
  · intro other
    have entry : zram.table index = 0 := by rw [sound.entries, vacant]; rfl
    refine Eq.trans ?_ (sound.entry_update index .zero other)
    simp only [zramSetZeroPage, Zram.setAddr, Nat.mod_eq_of_lt inside.2, entry]
    rfl
  · refine tallied.fill inside.1 vacant fun {stat weight} counts => ?_
    cases stat <;> cases counts <;> simp [total_add, Slot.length, Slot.pagesStored, Slot.pagesZero, Slot.pagesExpand]
  · exact sound.inside_update fun _ => inside

/-- A page that expands gets a page of its own, which keeps what it held. -/
theorem Sound.storeExpanded (sound : Sound lzo others zram slots held disk) (inside : index < zram.numPages ∧ index < 2 ^ 32)
    (vacant : slots index = .empty) {segment : Segment Cpu} (low : Low segment.allocator) (nonzero : pageZeroFilled segment.data = false)
    (expands : ¬ Compressible lzo segment.data) {page : Page} {kernel : Kernel}
    (taken : zram.xv.kernel.allocPage segment.allocator = some (page, kernel)) :
    ∃ counted after, zramIncStat { zram with xv := ⟨kernel, zram.xv.pool⟩ } (segment.storing .pagesExpand) .pagesExpand = some counted ∧
      memstore counted index ⟨page, 0⟩ (counted.xv.memory.read page 0 pageSize) segment.storing = some after ∧
      StoreEnd lzo others zram slots held disk index segment (after, .next) := by
  obtain ⟨counters, present, tallied⟩ := sound.counted
  obtain ⟨_, positive, _, _, _, _⟩ := Kernel.allocPage_spec taken
  have offered : (zram.xv.kernel.allocPage segment.allocator).map Prod.fst = some page := congrArg (Option.map Prod.fst) taken
  have placed : Placed (.page page) :=
    ⟨low.page offered, Nat.ne_of_gt positive, rfl, Nat.two_pow_pos 12, iff_of_true rfl ⟨page, rfl⟩⟩
  have here : ({ zram with xv := ⟨kernel, zram.xv.pool⟩ } : Zram Cpu).stats = some counters := present
  refine ⟨_, _, zramAddStat_some here _ _ _, memstore_some rfl _ _ _ _, ?_⟩
  have kept := sound.stored.storePage vacant taken (PageData.copy kernel.memory page 0)
  have whole : (kernel.memory.read page 0 pageSize).length = pageSize := PageBytes.read_length ..
  have lost (_ : ¬ Compressible lzo segment.data) : ∃ page' kernel', zram.xv.kernel.allocPage segment.allocator = some (page', kernel') ∧
      PageData.copy kernel.memory page 0 = PageData.copy kernel'.memory page' 0 := ⟨page, kernel, taken, rfl⟩
  rw [PageData.copy_val] at kept
  simp only [XvState.memory]
  generalize kernel.memory.read page 0 pageSize = bytes at whole kept ⊢
  refine .next ⟨rfl, rfl, rfl⟩ nonzero (fun fits => absurd fits expands) lost
    ⟨kept, sound.entry_update index (.stored (.page page)), sound.placed_or placed, ⟨_, rfl, ?_⟩, sound.inside_update fun _ => inside⟩
  refine tallied.fill inside.1 vacant fun {stat weight} counts => ?_
  cases stat <;> cases counts <;> simp [total_add, Slot.length, Slot.pagesStored, Slot.pagesZero, Slot.pagesExpand, Storage.size, whole]

theorem Sound.storeObject (sound : Sound lzo others zram slots held disk) (inside : index < zram.numPages ∧ index < 2 ^ 32)
    (vacant : slots index = .empty) {segment : Segment Cpu} (low : Low segment.allocator) (nonzero : pageZeroFilled segment.data = false)
    {src : List UInt8} (compressed : lzo.compress segment.data = some src) (small : src.length ≤ maxZpageSize) :
    let result := xvMalloc zram.xv src.length segment.allocator
    (result.ret ≠ 0 → StoreEnd lzo others zram slots held disk index segment ({ zram with xv := result.state }, .out)) ∧
      (result.ret = 0 → ∃ after, memstore { zram with xv := result.state } index result.location src segment.storing = some after ∧
        StoreEnd lzo others zram slots held disk index segment (after, .next)) := by
  obtain ⟨counters, present, tallied⟩ := sound.counted
  have compressible : Compressible lzo segment.data := by
    intro other same
    rw [compressed] at same
    cases same
    exact small
  have fits : src.length ≤ 4088 := by
    simp only [maxZpageSize, pageSize_eq] at small
    omega
  rcases sound.stored.storeObject vacant compressed fits segment.allocator with refused | ⟨ret, stored⟩
  · rw [refused]
    exact ⟨fun _ => .out ⟨rfl, rfl, rfl⟩ sound, fun met => absurd met (show -enomem ≠ 0 by decide)⟩
  · have page := sound.stored.backed.takeObject_page fits ret
    have object := stored.holds (Function.update_self ..)
    have inPage := stored.backed.object_inside object
    have aligned := stored.backed.object_aligned object
    have unmoved := stored.backed.page_ne object
    have nonempty : src.length ≠ 0 := by
      intro empty
      rw [xvMalloc, if_pos (.inl empty)] at ret
      exact absurd ret (show -enomem ≠ 0 by decide)
    generalize xvMalloc zram.xv src.length segment.allocator = result at ret stored page object inPage aligned unmoved ⊢
    have placed : Placed (.object result.location src.length) := by
      have first : (Storage.object result.location src.length).location.offset ≠ 0 := by
        simp only [Storage.location, xvAlign_eq] at *
        omega
      refine ⟨?_, unmoved, aligned.1, ?_, iff_of_false first (by simp)⟩
      · rcases page with ⟨old, here, same⟩ | offered
        · exact same ▸ (sound.placed old here).low
        · exact low.page offered
      · simp only [Storage.location]
        omega
    have here : ({ zram with xv := result.state } : Zram Cpu).stats = some counters := present
    refine ⟨fun refused => absurd ret refused, fun _ => ⟨_, memstore_some here _ _ _ _, ?_⟩⟩
    refine .next ⟨rfl, rfl, rfl⟩ nonzero (fun _ => rfl) (fun large => absurd compressible large)
      ⟨stored, sound.entry_update index (.stored (.object result.location src.length)), sound.placed_or placed, ⟨_, rfl, ?_⟩,
        sound.inside_update fun _ => inside⟩
    refine tallied.fill inside.1 vacant fun {stat weight} counts => ?_
    cases stat <;> cases counts <;> simp [total_add, Slot.length, Slot.pagesStored, Slot.pagesZero, Slot.pagesExpand, Storage.size]

theorem Sound.storeSegment (sound : Sound lzo others zram slots held disk) (inside : index < zram.numPages ∧ index < 2 ^ 32)
    (vacant : slots index = .empty) {segment : Segment Cpu} (low : Low segment.allocator) :
    ∃ result, storeSegment lzo zram index segment = some result ∧ StoreEnd lzo others zram slots held disk index segment result := by
  unfold ZramScale.storeSegment
  split
  next => exact ⟨_, rfl, .out (.refl zram) sound⟩
  split
  next filled =>
    obtain ⟨after, counted, ends⟩ := sound.storeZeros inside vacant filled
    exact ⟨_, congrArg (Option.map _) counted, ends⟩
  next filled =>
  have nonzero : pageZeroFilled segment.data = false := by simpa using filled
  split
  next => exact ⟨_, rfl, .out (.refl zram) sound⟩
  next src compressed =>
    split
    next large =>
      have expands : ¬ Compressible lzo segment.data := fun fits => absurd (fits src compressed) (Nat.not_le_of_gt large)
      split
      next => exact ⟨_, rfl, .out (.refl zram) sound⟩
      next page kernel taken =>
        obtain ⟨counted, after, counts, stored, ends⟩ := sound.storeExpanded inside vacant low nonzero expands taken
        rw [counts, Option.bind_some]
        exact ⟨_, congrArg (Option.map _) stored, ends⟩
    next small =>
      obtain ⟨refused, met⟩ := sound.storeObject inside vacant low nonzero compressed (Nat.le_of_not_gt small)
      dsimp only
      split
      next failed => exact ⟨_, rfl, refused failed⟩
      next served =>
        obtain ⟨after, stored, ends⟩ := met (not_not.mp served)
        exact ⟨_, congrArg (Option.map _) stored, ends⟩

/-- A segment that nothing fails: the CPU has its buffers, a page that is not zeros
compresses to something, and the system has a page. -/
def Segment.Provided (lzo : Lzo) (count : Nat) (segment : Segment Cpu) : Prop :=
  segment.buffers = true ∧ (pageZeroFilled segment.data = true ∨ ∃ src, lzo.compress segment.data = some src ∧ src ≠ []) ∧
    segment.allocator.Serves count

omit [DecidableEq Cpu] in
theorem Sound.owned_card (sound : Sound lzo others zram slots held disk) : zram.xv.kernel.owned.card ≤ others.card + zram.numPages := by
  refine sound.stored.backed.owned_card sound.stored.holders fun index occupied => (sound.inside index ?_).1
  intro vacant
  rw [vacant] at occupied
  exact occupied rfl

theorem Sound.storeSegment_provided (sound : Sound lzo others zram slots held disk) {segment : Segment Cpu}
    (provided : segment.Provided lzo (others.card + zram.numPages)) {after : Zram Cpu} {flow : Flow}
    (stored : ZramScale.storeSegment lzo zram index segment = some (after, flow)) : flow ≠ .out := by
  obtain ⟨buffers, compresses, serves⟩ := provided
  obtain ⟨page, kernel, offered⟩ := serves.allocPage sound.owned_card
  unfold ZramScale.storeSegment at stored
  rw [if_neg (by simp [buffers])] at stored
  split at stored
  next =>
    obtain ⟨_, _, same⟩ := Option.map_eq_some_iff.mp stored
    cases same
    exact nofun
  next filled =>
    obtain ⟨src, compressed, nonempty⟩ := compresses.resolve_left filled
    rw [compressed] at stored
    dsimp only at stored
    split at stored
    next =>
      rw [offered] at stored
      obtain ⟨_, _, rest⟩ := Option.bind_eq_some_iff.mp stored
      obtain ⟨_, _, same⟩ := Option.map_eq_some_iff.mp rest
      cases same
      exact nofun
    next small =>
      have fits : src.length ≤ 4088 := by
        simp only [maxZpageSize, pageSize_eq] at small
        omega
      have met : (xvMalloc zram.xv src.length segment.allocator).ret = 0 :=
        sound.stored.backed.takeObject_served (mt List.eq_nil_of_length_eq_zero nonempty) fits (by rw [offered]; rfl)
      rw [if_neg (not_not_intro met)] at stored
      obtain ⟨_, _, same⟩ := Option.map_eq_some_iff.mp stored
      cases same
      exact nofun

end Steps
end Compcache.ZramScale
