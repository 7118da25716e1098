import Compcache.Kernel
import Compcache.Library.Bitmap

/-! The xvmalloc memory allocator (kernel version): boundary tags in page
memory, segregated free lists threaded through free blocks, and a two-level
bitmap over the lists. -/

namespace Compcache.Xvmalloc
open Library.PagedMemory Library.Bitmap

def xvAlign : Nat := 4
def xvMinAllocSize : Nat := 32
def xvMaxAllocSize : Nat := pageSize - xvAlign
def flDelta : Nat := 8
def numFreeLists : Nat := (xvMaxAllocSize - xvMinAllocSize) / flDelta + 1

@[simp] theorem xvAlign_eq : xvAlign = 4 := by rfl
@[simp] theorem xvMinAllocSize_eq : xvMinAllocSize = 32 := by rfl
@[simp] theorem xvMaxAllocSize_eq : xvMaxAllocSize = 4092 := by rfl
@[simp] theorem flDelta_eq : flDelta = 8 := by rfl
@[simp] theorem numFreeLists_eq : numFreeLists = 508 := by rfl

inductive BlockFlag
  | blockFree
  | prevFree
  deriving DecidableEq

/-- `BIT(flag)`, as it stands in the u16 field `prev`. -/
def BlockFlag.index : BlockFlag → Nat
  | blockFree => 0
  | prevFree => 1

def BlockFlag.bit (flag : BlockFlag) : BitVec 16 := BitVec.twoPow 16 flag.index

def flagsMask : BitVec 16 := 3
def prevMask : BitVec 16 := ~~~flagsMask

/-! The fields of `struct block_header`. A block is named by the location of its header. -/

section Header
variable (memory : Memory Page) (block : Location)

def blockSize : Nat := memory.load block.page block.offset 2

def setBlockSize (size : Nat) : Memory Page := memory.store block.page block.offset 2 size

def blockPrev : BitVec 16 := BitVec.ofNat 16 (memory.load block.page (block.offset + 2) 2)

def storeBlockPrev (prev : BitVec 16) : Memory Page := memory.store block.page (block.offset + 2) 2 prev.toNat

def testFlag (flag : BlockFlag) : Bool := blockPrev memory block &&& flag.bit != 0

def setFlag (flag : BlockFlag) : Memory Page := storeBlockPrev memory block (blockPrev memory block ||| flag.bit)

def clearFlag (flag : BlockFlag) : Memory Page := storeBlockPrev memory block (blockPrev memory block &&& ~~~flag.bit)

def getBlockprev : Nat := (blockPrev memory block &&& prevMask).toNat

def setBlockprev (offset : Nat) : Memory Page :=
  storeBlockPrev memory block (BitVec.ofNat 16 offset ||| (blockPrev memory block &&& flagsMask))

/-- `BLOCK_NEXT`. -/
def blockNext : Location := ⟨block.page, block.offset + (blockSize memory block + xvAlign)⟩

end Header

/-- Free list for blocks of this size; the largest blocks share the last list. -/
def getIndexForInsert (size : Nat) : Nat :=
  let size := if size > xvMaxAllocSize then xvMaxAllocSize else size
  (size / flDelta * flDelta - xvMinAllocSize) / flDelta

/-- First free list all of whose blocks have at least this size. -/
def getIndex (size : Nat) : Nat :=
  let size := if size < xvMinAllocSize then xvMinAllocSize else size
  (align size flDelta - xvMinAllocSize) / flDelta

variable [Arch]

/-! `struct link_free` lies behind the header of a free block, aligned for pointers. -/

section Link
variable (memory : Memory Page) (block : Location)

def wordBytes : Nat := bitsPerLong / 8

/-- `offsetof(struct block_header, link)`. -/
def linkOffset : Nat := align xvAlign wordBytes

def linkPrev : Location where
  page := memory.load block.page (block.offset + linkOffset) wordBytes
  offset := memory.load block.page (block.offset + linkOffset + 2 * wordBytes) 2

def linkNext : Location where
  page := memory.load block.page (block.offset + linkOffset + wordBytes) wordBytes
  offset := memory.load block.page (block.offset + linkOffset + 2 * wordBytes + 2) 2

def setLinkPrev (target : Location) : Memory Page :=
  (memory.store block.page (block.offset + linkOffset) wordBytes target.page).store
    block.page (block.offset + linkOffset + 2 * wordBytes) 2 target.offset

def setLinkNext (target : Location) : Memory Page :=
  (memory.store block.page (block.offset + linkOffset + wordBytes) wordBytes target.page).store
    block.page (block.offset + linkOffset + 2 * wordBytes + 2) 2 target.offset

end Link

/-- `struct xv_pool`. -/
structure XvPool where
  flbitmap : BitVec bitsPerLong
  slbitmap : Nat → BitVec bitsPerLong
  freelist : Nat → Location
  totalPages : Nat

def xvCreatePool : XvPool := ⟨0#_, fun _ => 0#_, fun _ => Location.null, 0⟩

/-- A pool and the kernel its pages live in. -/
structure XvState where
  kernel : Kernel
  pool : XvPool

def XvState.memory (state : XvState) : Memory Page := state.kernel.memory

def XvState.withMemory (state : XvState) (memory : Memory Page) : XvState :=
  { state with kernel := { state.kernel with memory } }

@[simp] theorem XvState.withMemory_memory (state : XvState) (memory : Memory Page) :
    (state.withMemory memory).memory = memory := by rfl

@[simp] theorem XvState.withMemory_owned (state : XvState) (memory : Memory Page) :
    (state.withMemory memory).kernel.owned = state.kernel.owned := by rfl

@[simp] theorem XvState.withMemory_pool (state : XvState) (memory : Memory Page) :
    (state.withMemory memory).pool = state.pool := by rfl

/-- The state with a page given back that is not a page of the pool. -/
def XvState.without (state : XvState) (page : Page) : XvState := { state with kernel := state.kernel.without page }

/-- `__free_page` by a user of the pool. -/
def XvState.freePage (state : XvState) (page : Page) : Option XvState :=
  (state.kernel.freePage page).map fun kernel => { state with kernel }

theorem XvState.freePage_owned {state : XvState} {page : Page} (owned : page ∈ state.kernel.owned) :
    state.freePage page = some (state.without page) := by
  rw [freePage, Kernel.freePage_owned owned, Option.map_some, without]

theorem XvState.freePage_eq_some {state after : XvState} {page : Page} :
    state.freePage page = some after ↔ page ∈ state.kernel.owned ∧ state.without page = after := by
  simp only [freePage, Option.map_eq_some_iff, Kernel.freePage_eq_some, without]
  constructor
  · rintro ⟨kernel, ⟨owned, rfl⟩, rfl⟩
    exact ⟨owned, rfl⟩
  · rintro ⟨owned, rfl⟩
    exact ⟨_, ⟨owned, rfl⟩, rfl⟩

/-- Search the two-level bitmap for a list whose head serves `size`. When none
does, `location` is returned as it was. -/
def findBlock (pool : XvPool) (size : Nat) (location : Location) : Nat × Location :=
  if pool.flbitmap = 0#_ then (0, location)
  else
    let slindex := getIndex size
    let slbitmap := pool.slbitmap (slindex / bitsPerLong)
    let slbitstart := slindex % bitsPerLong
    if slbitmap.getLsbD slbitstart then (slindex, pool.freelist slindex)
    else
      let slbitstart := slbitstart + 1
      let slbitmap := slbitmap >>> slbitstart
      if slbitstart ≠ bitsPerLong ∧ slbitmap ≠ 0#_ then
        let slindex := slindex + (lowestBit slbitmap + 1)
        (slindex, pool.freelist slindex)
      else
        let flindex := slindex / bitsPerLong
        let flbitmap := pool.flbitmap >>> (flindex + 1)
        if flbitmap = 0#_ then (0, location)
        else
          let flindex := flindex + (lowestBit flbitmap + 1)
          let slindex := flindex * bitsPerLong + lowestBit (pool.slbitmap flindex)
          (slindex, pool.freelist slindex)

/-! `find_block` once more, with its arrays as long as they are. `none` is a read
outside of one, or `__ffs` of 0. -/

def maxFli : Nat := (numFreeLists + bitsPerLong - 1) / bitsPerLong

def readSlbitmap (pool : XvPool) (flindex : Nat) : Option (BitVec bitsPerLong) :=
  if flindex < maxFli then some (pool.slbitmap flindex) else none

/-- What is returned with the head of the list. -/
def readFreelist (pool : XvPool) (slindex : Nat) : Option (Nat × Location) :=
  if slindex < numFreeLists then some (slindex, pool.freelist slindex) else none

def ffs (word : BitVec bitsPerLong) : Option Nat := if word = 0#_ then none else some (lowestBit word)

def findBlockBounded (pool : XvPool) (size : Nat) (location : Location) : Option (Nat × Location) :=
  if pool.flbitmap = 0#_ then some (0, location)
  else
    let slindex := getIndex size
    (readSlbitmap pool (slindex / bitsPerLong)).bind fun slbitmap =>
      let slbitstart := slindex % bitsPerLong
      if slbitmap.getLsbD slbitstart then readFreelist pool slindex
      else
        let slbitstart := slbitstart + 1
        if slbitstart ≠ bitsPerLong ∧ slbitmap >>> slbitstart ≠ 0#_ then
          (ffs (slbitmap >>> slbitstart)).bind fun bit => readFreelist pool (slindex + (bit + 1))
        else
          let flindex := slindex / bitsPerLong
          let flbitmap := pool.flbitmap >>> (flindex + 1)
          if flbitmap = 0#_ then some (0, location)
          else
            (ffs flbitmap).bind fun step => (readSlbitmap pool (flindex + (step + 1))).bind fun slbitmap =>
              (ffs slbitmap).bind fun bit => readFreelist pool ((flindex + (step + 1)) * bitsPerLong + bit)

/-- Insert the block at pointer `block`, known as `location`, in its free list. -/
def insertBlock (state : XvState) (location block : Location) : XvState :=
  let slindex := getIndexForInsert (blockSize state.memory block)
  let flindex := slindex / bitsPerLong
  let memory := setLinkPrev state.memory block Location.null
  let memory := setLinkNext memory block (state.pool.freelist slindex)
  let following := linkNext memory block
  let memory := if following.page ≠ noPage then setLinkPrev memory following location else memory
  { state.withMemory memory with
    pool := { state.pool with
      freelist := Function.update state.pool.freelist slindex location
      slbitmap := Function.update state.pool.slbitmap flindex (setBit (state.pool.slbitmap flindex) (slindex % bitsPerLong))
      flbitmap := setBit state.pool.flbitmap flindex } }

/-- Remove the block at the head of free list `slindex`. -/
def removeBlockHead (state : XvState) (block : Location) (slindex : Nat) : XvState :=
  let flindex := slindex / bitsPerLong
  let head := linkNext state.memory block
  let memory := setLinkPrev state.memory block Location.null
  let pool := { state.pool with freelist := Function.update state.pool.freelist slindex head }
  if head.page = noPage then
    let word := clearBit (pool.slbitmap flindex) (slindex % bitsPerLong)
    { state.withMemory memory with
      pool := { pool with
        slbitmap := Function.update pool.slbitmap flindex word
        flbitmap := if word = 0#_ then clearBit pool.flbitmap flindex else pool.flbitmap } }
  else
    -- debug only: nothing depends on the previous pointer of a list head
    { state.withMemory (setLinkPrev memory head Location.null) with pool }

/-- Remove a block from anywhere in free list `slindex`. -/
def removeBlock (state : XvState) (location block : Location) (slindex : Nat) : XvState :=
  if state.pool.freelist slindex = location then removeBlockHead state block slindex
  else
    let previous := linkPrev state.memory block
    let memory :=
      if previous.page ≠ noPage then setLinkNext state.memory previous (linkNext state.memory block) else state.memory
    let following := linkNext memory block
    let memory := if following.page ≠ noPage then setLinkPrev memory following (linkPrev memory block) else memory
    state.withMemory memory

/-- Allocate a page and put it on a free list as one block. -/
def growPool (state : XvState) (allocator : PageAllocator) : Option XvState :=
  (state.kernel.allocPage allocator).map fun (page, kernel) =>
    let block : Location := ⟨page, 0⟩
    let memory := setBlockSize kernel.memory block (pageSize - xvAlign)
    let memory := setFlag memory block .blockFree
    let memory := clearFlag memory block .prevFree
    let memory := setBlockprev memory block 0
    let pool := { state.pool with totalPages := state.pool.totalPages + 1 }
    insertBlock ⟨{ kernel with memory }, pool⟩ block block

/-- The part of `xv_malloc` that turns what exceeds `size` into a free block of its own. -/
def splitBlock (state : XvState) (block : Location) (size : Nat) : XvState :=
  let tmpblock : Location := ⟨block.page, block.offset + size + xvAlign⟩
  let tmpsize := sub32 (blockSize state.memory block) size
  if tmpsize ≠ 0 then
    let memory := setBlockSize state.memory tmpblock (sub32 tmpsize xvAlign)
    let memory := setFlag memory tmpblock .blockFree
    let memory := clearFlag memory tmpblock .prevFree
    let memory := setBlockprev memory tmpblock block.offset
    let state := state.withMemory memory
    let state := if blockSize memory tmpblock ≥ xvMinAllocSize then insertBlock state tmpblock tmpblock else state
    if tmpblock.offset + xvAlign + blockSize state.memory tmpblock ≠ pageSize then
      state.withMemory (setBlockprev state.memory (blockNext state.memory tmpblock) tmpblock.offset)
    else state
  else if tmpblock.offset ≠ pageSize then state.withMemory (clearFlag state.memory tmpblock .prevFree)
  else state

/-- The tail of `xv_malloc`: take the found block off its list, split it, and
mark it used under the requested size. -/
def carveBlock (state : XvState) (index : Nat) (block : Location) (size origsize : Nat) : XvState :=
  let state := splitBlock (removeBlockHead state block index) block size
  let memory := setBlockSize state.memory block origsize
  state.withMemory (clearFlag memory block .blockFree)

/-- What `xv_malloc` returns and writes through its pointer arguments. -/
structure MallocResult where
  ret : Int
  location : Location
  state : XvState

def xvMalloc (state : XvState) (size : Nat) (allocator : PageAllocator) : MallocResult :=
  let location := Location.null
  let origsize := size
  if size = 0 ∨ size > xvMaxAllocSize then ⟨-enomem, location, state⟩
  else
    let size := align size xvAlign
    let finish (index : Nat) (location : Location) (state : XvState) : MallocResult :=
      if location.page = noPage then ⟨-enomem, location, state⟩
      else ⟨0, ⟨location.page, location.offset + xvAlign⟩, carveBlock state index location size origsize⟩
    let (index, location) := findBlock state.pool size location
    if location.page = noPage then
      match growPool state allocator with
      | none => ⟨-enomem, location, state⟩
      | some state =>
        let (index, location) := findBlock state.pool size location
        finish index location state
    else finish index location state

/-- One section of `xv_malloc` under the pool lock: search, and carve what was
found. `none` when nothing was found and the lock is dropped. -/
def searchAndCarve (state : XvState) (size : Nat) : Option MallocResult :=
  let (index, location) := findBlock state.pool (align size xvAlign) Location.null
  if location.page = noPage then none
  else some ⟨0, ⟨location.page, location.offset + xvAlign⟩, carveBlock state index location (align size xvAlign) size⟩

/-- The part of `xv_free` that merges the next block, if there is one and it is free. -/
def mergeNext (state : XvState) (page : Page) (offset : Nat) (block : Location) : XvState :=
  let tmpblock := blockNext state.memory block
  if offset + blockSize state.memory block + xvAlign ≠ pageSize ∧ testFlag state.memory tmpblock .blockFree then
    let tmpsize := blockSize state.memory tmpblock
    let state :=
      if tmpsize ≥ xvMinAllocSize then
        removeBlock state ⟨page, offset + blockSize state.memory block + xvAlign⟩ tmpblock (getIndexForInsert tmpsize)
      else state
    state.withMemory (setBlockSize state.memory block
      (blockSize state.memory block + (blockSize state.memory tmpblock + xvAlign)))
  else state

/-- The part of `xv_free` that merges the previous block if it is free. The
merged block and its offset come back with the state. -/
def mergePrev (state : XvState) (page : Page) (offset : Nat) (block : Location) : XvState × Nat × Location :=
  if testFlag state.memory block .prevFree then
    let tmpblock : Location := ⟨page, getBlockprev state.memory block⟩
    let tmpsize := blockSize state.memory tmpblock
    let offset := sub32 (sub32 offset tmpsize) xvAlign
    let state :=
      if tmpsize ≥ xvMinAllocSize then removeBlock state ⟨page, offset⟩ tmpblock (getIndexForInsert tmpsize)
      else state
    (state.withMemory (setBlockSize state.memory tmpblock
      (blockSize state.memory tmpblock + (blockSize state.memory block + xvAlign))), offset, tmpblock)
  else (state, offset, block)

/-- The part of `xv_free` that marks the merged block free and lists it. -/
def listBlock (state : XvState) (page : Page) (offset : Nat) (block : Location) : XvState :=
  let state := state.withMemory (setFlag state.memory block .blockFree)
  if blockSize state.memory block ≥ xvMinAllocSize then insertBlock state ⟨page, offset⟩ block else state

/-- The part of `xv_free` that tells the next block, if there is one, of the merged block. -/
def announceBlock (state : XvState) (offset : Nat) (block : Location) : XvState :=
  if offset + blockSize state.memory block + xvAlign ≠ pageSize then
    let tmpblock := blockNext state.memory block
    let memory := setFlag state.memory tmpblock .prevFree
    state.withMemory (setBlockprev memory tmpblock offset)
  else state

/-- The end of `xv_free`: a page without used objects is given back. -/
def releaseBlock (state : XvState) (page : Page) (offset : Nat) (block : Location) : Option XvState :=
  if blockSize state.memory block = pageSize - xvAlign then
    (state.kernel.freePage page).map fun kernel => ⟨kernel, { state.pool with totalPages := state.pool.totalPages - 1 }⟩
  else some (announceBlock (listBlock state page offset block) offset block)

/-- Free the object at `<page, offset>`. `none` is the BUG_ON that catches double frees,
or a page given back that is not owned. -/
def xvFree (state : XvState) (page : Page) (offset : Nat) : Option XvState :=
  let offset := sub32 offset xvAlign
  let block : Location := ⟨page, offset⟩
  if testFlag state.memory block .blockFree then none
  else
    let state := state.withMemory (setBlockSize state.memory block (align (blockSize state.memory block) xvAlign))
    let state := mergeNext state page offset block
    let merged := mergePrev state page offset block
    releaseBlock merged.1 page merged.2.1 merged.2.2

/-- The size recorded in the header of the object at `<page, offset>`. -/
def xvGetObjectSize (memory : Memory Page) (page : Page) (offset : Nat) : Nat :=
  blockSize memory ⟨page, offset - xvAlign⟩

end Compcache.Xvmalloc
