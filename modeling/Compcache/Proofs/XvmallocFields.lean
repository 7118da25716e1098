import Compcache.Xvmalloc

/-! What the field accessors of xvmalloc read after each store. Headers take
four bytes and links the 32 bytes behind them, so stores to different blocks
do not meet. -/

namespace Compcache.Xvmalloc
open Library.PagedMemory Library.Bitmap

def HeaderBytes (block : Location) (page : Page) (address : Nat) : Prop :=
  page = block.page ∧ block.offset ≤ address ∧ address < block.offset + 4

/-- The bytes that may hold the link of a free block. -/
def LinkBytes (block : Location) (page : Page) (address : Nat) : Prop :=
  page = block.page ∧ block.offset + 4 ≤ address ∧ address < block.offset + 36

/-- A block header, decoded. -/
@[ext] structure Header where
  size : Nat
  prev : Nat
  free : Bool
  prevFree : Bool

def header (memory : Memory Page) (block : Location) : Header where
  size := blockSize memory block
  prev := getBlockprev memory block
  free := testFlag memory block .blockFree
  prevFree := testFlag memory block .prevFree

theorem testFlag_eq (memory : Memory Page) (block : Location) (flag : BlockFlag) :
    testFlag memory block flag = (blockPrev memory block).getLsbD flag.index := by
  simp only [testFlag, BlockFlag.bit, BitVec.and_twoPow]
  cases flag <;> cases bit : (blockPrev memory block).getLsbD _ <;> simp [BlockFlag.index] <;> decide

theorem blockPrev_store (memory : Memory Page) (block : Location) (prev : BitVec 16) :
    blockPrev (storeBlockPrev memory block prev) block = prev := by
  simp only [blockPrev, storeBlockPrev, Memory.load_store]
  apply BitVec.eq_of_toNat_eq
  have bound := prev.isLt
  simp only [BitVec.toNat_ofNat]
  omega

theorem blockSize_storeBlockPrev (memory : Memory Page) (block : Location) (prev : BitVec 16) :
    blockSize (storeBlockPrev memory block prev) block = blockSize memory block :=
  Memory.load_store_apart _ (by omega)

theorem blockPrev_setBlockSize (memory : Memory Page) (block : Location) (size : Nat) :
    blockPrev (setBlockSize memory block size) block = blockPrev memory block := by
  simp only [blockPrev, setBlockSize]
  rw [Memory.load_store_apart _ (by omega)]

theorem header_setBlockSize (memory : Memory Page) (block : Location) {size : Nat} (small : size < 65536) :
    header (setBlockSize memory block size) block = { header memory block with size } := by
  have stored : blockSize (setBlockSize memory block size) block = size := by
    simp only [blockSize, setBlockSize, Memory.load_store]
    omega
  simp only [header, stored, testFlag, getBlockprev, blockPrev_setBlockSize]

private theorem prevMask_bit (index : Nat) : prevMask.getLsbD index = (decide (2 ≤ index) && decide (index < 16)) := by
  by_cases inside : index < 16
  · have all : ∀ index : Fin 16, prevMask.getLsbD index = (decide (2 ≤ index.val) && decide (index.val < 16)) := by decide
    exact all ⟨index, inside⟩
  · simp [inside, BitVec.getLsbD_of_ge prevMask index (by omega)]

private theorem flagsMask_bit (index : Nat) : flagsMask.getLsbD index = decide (index < 2) := by
  by_cases inside : index < 16
  · have all : ∀ index : Fin 16, flagsMask.getLsbD index = decide (index.val < 2) := by decide
    exact all ⟨index, inside⟩
  · simp [BitVec.getLsbD_of_ge flagsMask index (by omega)]
    omega

private theorem flag_index_lt (flag : BlockFlag) : flag.index < 2 := by cases flag <;> decide

theorem testFlag_setFlag (memory : Memory Page) (block : Location) (flag other : BlockFlag) :
    testFlag (setFlag memory block flag) block other = (testFlag memory block other || decide (other = flag)) := by
  rw [testFlag_eq, testFlag_eq, setFlag, blockPrev_store]
  cases flag <;> cases other <;> simp [BlockFlag.bit, BlockFlag.index]

theorem testFlag_clearFlag (memory : Memory Page) (block : Location) (flag other : BlockFlag) :
    testFlag (clearFlag memory block flag) block other = (testFlag memory block other && !decide (other = flag)) := by
  rw [testFlag_eq, testFlag_eq, clearFlag, blockPrev_store]
  cases flag <;> cases other <;> simp [BlockFlag.bit, BlockFlag.index]

theorem getBlockprev_setFlag (memory : Memory Page) (block : Location) (flag : BlockFlag) :
    getBlockprev (setFlag memory block flag) block = getBlockprev memory block := by
  simp only [getBlockprev, setFlag, blockPrev_store]
  congr 1
  apply BitVec.eq_of_getLsbD_eq
  intro index inside
  have small := flag_index_lt flag
  simp only [BitVec.getLsbD_and, BitVec.getLsbD_or, prevMask_bit, BlockFlag.bit, BitVec.getLsbD_twoPow]
  by_cases low : 2 ≤ index
  · simp [show flag.index ≠ index by omega]
  · simp [low]

theorem getBlockprev_clearFlag (memory : Memory Page) (block : Location) (flag : BlockFlag) :
    getBlockprev (clearFlag memory block flag) block = getBlockprev memory block := by
  simp only [getBlockprev, clearFlag, blockPrev_store]
  congr 1
  apply BitVec.eq_of_getLsbD_eq
  intro index inside
  have small := flag_index_lt flag
  simp only [BitVec.getLsbD_and, BitVec.getLsbD_not, prevMask_bit, BlockFlag.bit, BitVec.getLsbD_twoPow]
  by_cases low : 2 ≤ index
  · simp [show flag.index ≠ index by omega, inside]
  · simp [low]

private theorem aligned_bit {offset index : Nat} (aligned : offset % 4 = 0) (low : index < 2) :
    offset.testBit index = false := by
  obtain ⟨quarter, rfl⟩ : ∃ quarter, offset = 2 ^ 2 * quarter := ⟨offset / 4, by omega⟩
  rw [Nat.testBit_two_pow_mul]
  simp [show ¬ 2 ≤ index by omega]

theorem testFlag_setBlockprev (memory : Memory Page) (block : Location) {offset : Nat} (aligned : offset % 4 = 0)
    (flag : BlockFlag) : testFlag (setBlockprev memory block offset) block flag = testFlag memory block flag := by
  have small := flag_index_lt flag
  rw [testFlag_eq, testFlag_eq, setBlockprev, blockPrev_store]
  simp [flagsMask_bit, small, BitVec.getLsbD_ofNat, aligned_bit aligned small]

theorem getBlockprev_setBlockprev (memory : Memory Page) (block : Location) {offset : Nat} (aligned : offset % 4 = 0)
    (small : offset < 65536) : getBlockprev (setBlockprev memory block offset) block = offset := by
  have same : (BitVec.ofNat 16 offset ||| blockPrev memory block &&& flagsMask) &&& prevMask = BitVec.ofNat 16 offset := by
    apply BitVec.eq_of_getLsbD_eq
    intro index inside
    simp only [BitVec.getLsbD_and, BitVec.getLsbD_or, prevMask_bit, flagsMask_bit, BitVec.getLsbD_ofNat, inside,
      decide_true, Bool.true_and, Bool.and_true]
    by_cases low : index < 2
    · simp [low, aligned_bit aligned low]
    · simp [low, show 2 ≤ index by omega]
  simp only [getBlockprev, setBlockprev, blockPrev_store, same, BitVec.toNat_ofNat]
  omega

theorem header_setFlag_free (memory : Memory Page) (block : Location) :
    header (setFlag memory block .blockFree) block = { header memory block with free := true } := by
  simp only [header, testFlag_setFlag, getBlockprev_setFlag]
  simp [setFlag, blockSize_storeBlockPrev]

theorem header_setFlag_prevFree (memory : Memory Page) (block : Location) :
    header (setFlag memory block .prevFree) block = { header memory block with prevFree := true } := by
  simp only [header, testFlag_setFlag, getBlockprev_setFlag]
  simp [setFlag, blockSize_storeBlockPrev]

theorem header_clearFlag_free (memory : Memory Page) (block : Location) :
    header (clearFlag memory block .blockFree) block = { header memory block with free := false } := by
  simp only [header, testFlag_clearFlag, getBlockprev_clearFlag]
  simp [clearFlag, blockSize_storeBlockPrev]

theorem header_clearFlag_prevFree (memory : Memory Page) (block : Location) :
    header (clearFlag memory block .prevFree) block = { header memory block with prevFree := false } := by
  simp only [header, testFlag_clearFlag, getBlockprev_clearFlag]
  simp [clearFlag, blockSize_storeBlockPrev]

theorem header_setBlockprev (memory : Memory Page) (block : Location) {offset : Nat} (aligned : offset % 4 = 0)
    (small : offset < 65536) :
    header (setBlockprev memory block offset) block = { header memory block with prev := offset } := by
  simp only [header, testFlag_setBlockprev memory block aligned, getBlockprev_setBlockprev memory block aligned small]
  simp [setBlockprev, blockSize_storeBlockPrev]

/-! Every header store stays inside its header. -/

section Frame
variable (memory : Memory Page) (block : Location)

theorem setBlockSize_changes (size : Nat) : ChangesOnly (HeaderBytes block) memory (setBlockSize memory block size) :=
  ChangesOnly.store _ _ _ _ _ fun _ _ _ => ⟨rfl, by omega, by omega⟩

theorem storeBlockPrev_changes (prev : BitVec 16) : ChangesOnly (HeaderBytes block) memory (storeBlockPrev memory block prev) :=
  ChangesOnly.store _ _ _ _ _ fun _ _ _ => ⟨rfl, by omega, by omega⟩

theorem setFlag_changes (flag : BlockFlag) : ChangesOnly (HeaderBytes block) memory (setFlag memory block flag) :=
  storeBlockPrev_changes _ _ _

theorem clearFlag_changes (flag : BlockFlag) : ChangesOnly (HeaderBytes block) memory (clearFlag memory block flag) :=
  storeBlockPrev_changes _ _ _

theorem setBlockprev_changes (offset : Nat) : ChangesOnly (HeaderBytes block) memory (setBlockprev memory block offset) :=
  storeBlockPrev_changes _ _ _

end Frame

theorem header_frame {region : Page → Nat → Prop} {before after : Memory Page} {block : Location}
    (changes : ChangesOnly region before after)
    (outside : ∀ address, HeaderBytes block block.page address → ¬ region block.page address) :
    header after block = header before block := by
  have size : blockSize after block = blockSize before block :=
    changes.load fun address lower upper => outside address ⟨rfl, by omega, by omega⟩
  have prev : blockPrev after block = blockPrev before block := by
    simp only [blockPrev]
    rw [changes.load fun address lower upper => outside address ⟨rfl, by omega, by omega⟩]
  simp only [header, size, getBlockprev, testFlag, prev]

/-! Links. -/

variable [Arch]

theorem word_cases : wordBytes = 4 ∧ linkOffset = 4 ∨ wordBytes = 8 ∧ linkOffset = 8 := by
  rcases Arch.bitsPerLong_cases with bits | bits <;> simp [wordBytes, linkOffset, align, bits]

theorem word_range : 256 ^ wordBytes = 2 ^ bitsPerLong := by
  rcases Arch.bitsPerLong_cases with bits | bits <;> simp [wordBytes, bits]

/-- A location that fits in the fields of a link. -/
def Storable (location : Location) : Prop := location.page < 2 ^ bitsPerLong ∧ location.offset < 65536

theorem storable_null : Storable Location.null := ⟨Nat.two_pow_pos _, by decide⟩

section Link
variable (memory : Memory Page) (block : Location)

theorem linkPrev_setLinkPrev {target : Location} (storable : Storable target) :
    linkPrev (setLinkPrev memory block target) block = target := by
  obtain ⟨page, offset⟩ := storable
  have words := word_cases
  ext
  · simp only [linkPrev, setLinkPrev]
    rw [Memory.load_store_apart _ (by omega), Memory.load_store, word_range, Nat.mod_eq_of_lt page]
  · simp only [linkPrev, setLinkPrev]
    rw [Memory.load_store]
    omega

theorem linkNext_setLinkNext {target : Location} (storable : Storable target) :
    linkNext (setLinkNext memory block target) block = target := by
  obtain ⟨page, offset⟩ := storable
  have words := word_cases
  ext
  · simp only [linkNext, setLinkNext]
    rw [Memory.load_store_apart _ (by omega), Memory.load_store, word_range, Nat.mod_eq_of_lt page]
  · simp only [linkNext, setLinkNext]
    rw [Memory.load_store]
    omega

theorem linkNext_setLinkPrev (target : Location) :
    linkNext (setLinkPrev memory block target) block = linkNext memory block := by
  have words := word_cases
  simp only [linkNext, setLinkPrev]
  rw [Memory.load_store_apart _ (by omega), Memory.load_store_apart _ (by omega),
    Memory.load_store_apart _ (by omega), Memory.load_store_apart _ (by omega)]

theorem linkPrev_setLinkNext (target : Location) :
    linkPrev (setLinkNext memory block target) block = linkPrev memory block := by
  have words := word_cases
  simp only [linkPrev, setLinkNext]
  rw [Memory.load_store_apart _ (by omega), Memory.load_store_apart _ (by omega),
    Memory.load_store_apart _ (by omega), Memory.load_store_apart _ (by omega)]

theorem setLinkPrev_changes (target : Location) : ChangesOnly (LinkBytes block) memory (setLinkPrev memory block target) := by
  have words := word_cases
  refine (ChangesOnly.store _ _ _ _ _ ?_).trans (ChangesOnly.store _ _ _ _ _ ?_)
  all_goals exact fun _ _ _ => ⟨rfl, by omega, by omega⟩

theorem setLinkNext_changes (target : Location) : ChangesOnly (LinkBytes block) memory (setLinkNext memory block target) := by
  have words := word_cases
  refine (ChangesOnly.store _ _ _ _ _ ?_).trans (ChangesOnly.store _ _ _ _ _ ?_)
  all_goals exact fun _ _ _ => ⟨rfl, by omega, by omega⟩

end Link

theorem link_frame {region : Page → Nat → Prop} {before after : Memory Page} {block : Location}
    (changes : ChangesOnly region before after)
    (outside : ∀ address, LinkBytes block block.page address → ¬ region block.page address) :
    linkNext after block = linkNext before block ∧ linkPrev after block = linkPrev before block := by
  have words := word_cases
  constructor <;> ext
  all_goals exact changes.load fun address lower upper => outside address ⟨rfl, by omega, by omega⟩

end Compcache.Xvmalloc
