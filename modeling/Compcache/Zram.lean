import Compcache.Lzo
import Compcache.Xvmalloc

/-! The compressed block device of `zram_drv.c`. -/

namespace Compcache.ZramDrv
open Library.PagedMemory Xvmalloc

def zobjHeaderSize : Nat := 0
def defaultDisksizePercRam : Nat := 25
def maxZpageSize : Nat := pageSize / 4 * 3
def sectorShift : Nat := 9
def sectorsPerPageShift : Nat := pageShift - sectorShift
def sectorsPerPage : Nat := 2 ^ sectorsPerPageShift

/-- One entry of the table: where a disk page is stored, and its flags
`ZRAM_UNCOMPRESSED` and `ZRAM_ZERO`. -/
structure Entry where
  page : Page
  offset : Nat
  uncompressed : Bool
  zero : Bool
  deriving DecidableEq, Repr

def Entry.empty : Entry := ⟨noPage, 0, false, false⟩

/-- The counters of a device: the first eight are u64, the rest u32. -/
structure Stats where
  comprSize : Nat
  numReads : Nat
  numWrites : Nat
  failedReads : Nat
  failedWrites : Nat
  invalidIo : Nat
  notifyFree : Nat
  discard : Nat
  pagesZero : Nat
  pagesStored : Nat
  goodCompress : Nat
  pagesExpand : Nat
  deriving DecidableEq, Repr

def Stats.zero : Stats := ⟨0, 0, 0, 0, 0, 0, 0, 0, 0, 0, 0, 0⟩

def zramStatInc (value : Nat) : Nat := (value + 1) % 2 ^ 32
def zramStatDec (value : Nat) : Nat := (value + 2 ^ 32 - 1) % 2 ^ 32
def zramStat64Add (value inc : Nat) : Nat := (value + inc) % 2 ^ 64
def zramStat64Sub (value dec : Nat) : Nat := (value + (2 ^ 64 - dec % 2 ^ 64)) % 2 ^ 64
def zramStat64Inc (value : Nat) : Nat := zramStat64Add value 1

variable [Arch]

/-- `struct zram`. The kernel's pages come with the pool; the buffers, the table
and the pool are at the addresses named, 0 when there are none. -/
structure Zram where
  xv : XvState
  table : Nat → Entry
  stats : Stats
  disksize : Nat
  initDone : Bool
  compressWorkmem : Nat
  compressBuffer : Nat
  tableAddress : Nat
  memPool : Nat

def Zram.setEntry (zram : Zram) (index : Nat) (entry : Entry) : Zram :=
  { zram with table := Function.update zram.table index entry }

/-- The number of pages of the disk. -/
def Zram.numPages (zram : Zram) : Nat := zram.disksize / pageSize

/-- The end of `zram_free_page`: the entry no longer names a page. -/
def forget (zram : Zram) (index clen : Nat) : Zram :=
  { zram.setEntry index { zram.table index with page := noPage, offset := 0 } with
    stats := { zram.stats with
      comprSize := zramStat64Sub zram.stats.comprSize clen
      pagesStored := zramStatDec zram.stats.pagesStored } }

/-- The part of `zram_free_page` for a page stored as it is, once it is given back. -/
def freeUncompressed (zram : Zram) (xv : XvState) (index : Nat) : Zram :=
  { zram.setEntry index { zram.table index with uncompressed := false } with
    xv
    stats := { zram.stats with pagesExpand := zramStatDec zram.stats.pagesExpand } }

/-- The part of `zram_free_page` for an object of `clen` bytes that `xv_free` took back. -/
def freeCompressed (zram : Zram) (xv : XvState) (clen : Nat) : Zram :=
  { zram with
    xv
    stats := { zram.stats with
      goodCompress := if clen ≤ pageSize / 2 then zramStatDec zram.stats.goodCompress else zram.stats.goodCompress } }

/-- `none` is the BUG_ON of `xv_free`, or a page given back that is not owned. -/
def zramFreePage (zram : Zram) (index : Nat) : Option Zram :=
  let entry := zram.table index
  if entry.page = noPage then
    if entry.zero then
      some { zram.setEntry index { entry with zero := false } with
        stats := { zram.stats with pagesZero := zramStatDec zram.stats.pagesZero } }
    else some zram
  else if entry.uncompressed then (zram.xv.freePage entry.page).map fun xv => forget (freeUncompressed zram xv index) index pageSize
  else
    let clen := sub32 (xvGetObjectSize zram.xv.memory entry.page entry.offset) zobjHeaderSize
    (xvFree zram.xv entry.page entry.offset).map fun xv => forget (freeCompressed zram xv clen) index clen

/-- From `memstore` on: copy the data to where the entry points. -/
def memstore (zram : Zram) (index offset : Nat) (src : List UInt8) : Zram :=
  let entry := { zram.table index with offset := offset % 2 ^ 16 }
  let goodCompress := if src.length ≤ pageSize / 2 then zramStatInc zram.stats.goodCompress else zram.stats.goodCompress
  { zram.setEntry index entry with
    xv := zram.xv.withMemory (zram.xv.memory.write entry.page entry.offset src)
    stats := { zram.stats with
      comprSize := zramStat64Add zram.stats.comprSize src.length
      pagesStored := zramStatInc zram.stats.pagesStored
      goodCompress } }

def failWrite (zram : Zram) : Zram :=
  { zram with stats := { zram.stats with failedWrites := zramStat64Inc zram.stats.failedWrites } }

/-- What the section of `zram_write` under the device lock comes to. -/
inductive Section
  | zeroFilled
  | stored (zram : Zram)
  | failed (zram : Zram)

def lockedSection (lzo : Lzo) (zram : Zram) (index : Nat) (data : PageData) (allocator : PageAllocator) : Section :=
  if pageZeroFilled data then .zeroFilled
  else match lzo.compress data with
    | none => .failed (failWrite zram)
    | some src =>
      if src.length > maxZpageSize then
        match zram.xv.kernel.allocPage allocator with
        | none => .failed (failWrite zram)
        | some (page, kernel) =>
          let zram := { zram.setEntry index { zram.table index with uncompressed := true, page } with
            xv := ⟨kernel, zram.xv.pool⟩
            stats := { zram.stats with pagesExpand := zramStatInc zram.stats.pagesExpand } }
          .stored (memstore zram index 0 data.val)
      else
        let result := xvMalloc zram.xv (src.length + zobjHeaderSize) allocator
        let zram := { zram.setEntry index { zram.table index with page := result.location.page } with xv := result.state }
        if result.ret ≠ 0 then .failed (failWrite zram)
        else .stored (memstore zram index result.location.offset src)

/-- What `zram_write` does about a page of zeros once it has dropped the lock. -/
def setZero (zram : Zram) (index : Nat) : Zram :=
  { zram.setEntry index { zram.table index with zero := true } with
    stats := { zram.stats with pagesZero := zramStatInc zram.stats.pagesZero } }

/-- The release at the start of each segment of a write. -/
def releaseSlot (zram : Zram) (index : Nat) : Option Zram :=
  if (zram.table index).page ≠ noPage ∨ (zram.table index).zero then zramFreePage zram index else some zram

/-- One segment of a write, and whether it was stored. -/
def writeSegment (lzo : Lzo) (zram : Zram) (index : Nat) (data : PageData) (allocator : PageAllocator) : Option (Zram × Bool) :=
  (releaseSlot zram index).map fun zram =>
    match lockedSection lzo zram index data allocator with
    | .zeroFilled => (setZero zram index, true)
    | .stored zram => (zram, true)
    | .failed zram => (zram, false)

/-- How a bio ends: its status, how many segments were served, and the pages of
a read. -/
structure Completion where
  zram : Zram
  ok : Bool
  served : Nat
  pages : List PageData

/-- The loop of `zram_write`. It stops at the first segment that fails. -/
def writeSegments (lzo : Lzo) (zram : Zram) (index served : Nat) : List (PageData × PageAllocator) → Option Completion
  | [] => some ⟨zram, true, served, []⟩
  | (data, allocator) :: rest =>
    match writeSegment lzo zram index data allocator with
    | none => none
    | some (zram, false) => some ⟨zram, false, served, []⟩
    | some (zram, true) => writeSegments lzo zram ((index + 1) % 2 ^ 32) (served + 1) rest

/-- One segment of a read: whether it could be read, and the page afterwards. -/
def readSegment (lzo : Lzo) (zram : Zram) (index : Nat) (page : PageData) : Bool × PageData :=
  let entry := zram.table index
  if entry.zero then (true, PageData.zeros)
  else if entry.page = noPage then (true, page)
  else if entry.uncompressed then (true, PageData.copy zram.xv.memory entry.page entry.offset)
  else
    let size := sub32 (xvGetObjectSize zram.xv.memory entry.page entry.offset) zobjHeaderSize
    let result := lzo.decompress (zram.xv.memory.read entry.page (entry.offset + zobjHeaderSize) size)
    (result.1, page.overwrite result.2)

/-- The loop of `zram_read`. -/
def readSegments (lzo : Lzo) (zram : Zram) (index : Nat) : List PageData → Bool × List PageData
  | [] => (true, [])
  | page :: rest =>
    match readSegment lzo zram index page with
    | (false, page) => (false, page :: rest)
    | (true, page) =>
      let others := readSegments lzo zram ((index + 1) % 2 ^ 32) rest
      (others.1, page :: others.2)

/-- The loop of `zram_discard`. -/
def discardPages (zram : Zram) (index : Nat) : Nat → Option Zram
  | 0 => some zram
  | npages + 1 => (zramFreePage zram index).bind fun zram => discardPages zram ((index + 1) % 2 ^ 32) npages

/-- `value & PAGE_MASK`. The mask is an unsigned long. -/
def andPageMask (value : Nat) : Nat := value % 2 ^ bitsPerLong / pageSize * pageSize

def zramSetDisksize (zram : Zram) (totalramBytes : Nat) : Zram :=
  let disksize := if zram.disksize = 0 then defaultDisksizePercRam * (totalramBytes / 100) else zram.disksize
  { zram with disksize := andPageMask disksize }

/-- What the allocations of one `zram_init_device` come to; 0 is failure. -/
structure InitAllocations where
  totalramBytes : Nat
  workmem : Nat
  buffer : Nat
  table : Nat
  pool : Nat

/-- The section of `zram_init_device` under the init lock, and its return value.
When that is not 0 the device is still to be reset. -/
def initSection (zram : Zram) (allocations : InitAllocations) : Zram × Int :=
  if zram.initDone then (zram, 0)
  else
    let zram := { zramSetDisksize zram allocations.totalramBytes with compressWorkmem := allocations.workmem }
    if allocations.workmem = 0 then (zram, -enomem)
    else
      let zram := { zram with compressBuffer := allocations.buffer }
      if allocations.buffer = 0 then (zram, -enomem)
      else
        let zram := { zram with tableAddress := allocations.table }
        if allocations.table = 0 then ({ zram with disksize := 0 }, -enomem)
        else
          let zram := { zram with table := fun _ => Entry.empty, memPool := allocations.pool }
          if allocations.pool = 0 then (zram, -enomem)
          else ({ zram with xv := ⟨zram.xv.kernel, xvCreatePool⟩, initDone := true }, 0)

/-- The loop of `zram_reset_device` over the table. -/
def resetEntries (xv : XvState) : List Entry → Option XvState
  | [] => some xv
  | entry :: rest =>
    if entry.page = noPage then resetEntries xv rest
    else if entry.uncompressed then (xv.freePage entry.page).bind fun xv => resetEntries xv rest
    else (xvFree xv entry.page entry.offset).bind fun xv => resetEntries xv rest

/-- `none` is the BUG_ON of `xv_free`, a page given back that is not owned, or an
access to a table that is not there. -/
def zramResetDevice (zram : Zram) : Option Zram :=
  if zram.tableAddress = 0 ∧ zram.numPages ≠ 0 then none
  else
    (resetEntries zram.xv ((List.range zram.numPages).map zram.table)).map fun xv =>
      { xv
        table := fun _ => Entry.empty
        stats := Stats.zero
        disksize := 0
        initDone := false
        compressWorkmem := 0
        compressBuffer := 0
        tableAddress := 0
        memPool := 0 }

/-- `zram_init_device` when nobody else is about. -/
def zramInitDevice (zram : Zram) (allocations : InitAllocations) : Option (Zram × Int) :=
  let result := initSection zram allocations
  if result.2 = 0 then some result else (zramResetDevice result.1).map fun zram => (zram, result.2)

def zramRead (lzo : Lzo) (zram : Zram) (sector : Nat) (pages : List PageData) : Completion :=
  if zram.initDone then
    let zram := { zram with stats := { zram.stats with numReads := zramStat64Inc zram.stats.numReads } }
    let result := readSegments lzo zram (sector / sectorsPerPage % 2 ^ 32) pages
    if result.1 then ⟨zram, true, pages.length, result.2⟩
    else ⟨{ zram with stats := { zram.stats with failedReads := zramStat64Inc zram.stats.failedReads } }, false, 0, result.2⟩
  else ⟨zram, true, pages.length, pages⟩

/-- The body of `zram_write` once the device is initialised. -/
def writeInitialised (lzo : Lzo) (zram : Zram) (sector : Nat) (segments : List (PageData × PageAllocator)) : Option Completion :=
  writeSegments lzo { zram with stats := { zram.stats with numWrites := zramStat64Inc zram.stats.numWrites } }
    (sector / sectorsPerPage % 2 ^ 32) 0 segments

def zramWrite (lzo : Lzo) (zram : Zram) (sector : Nat) (segments : List (PageData × PageAllocator))
    (allocations : InitAllocations) : Option Completion :=
  if zram.initDone then writeInitialised lzo zram sector segments
  else
    match zramInitDevice zram allocations with
    | none => none
    | some (zram, ret) => if ret = 0 then writeInitialised lzo zram sector segments else some ⟨zram, false, 0, []⟩

def zramDiscard (zram : Zram) (sector size : Nat) : Option Completion :=
  let freed := if zram.initDone then discardPages zram (sector / sectorsPerPage % 2 ^ 32) (size / pageSize) else some zram
  freed.map fun zram =>
    ⟨{ zram with stats := { zram.stats with discard := zramStat64Inc zram.stats.discard } }, true, 0, []⟩

/-- A bio: a read into pages, a write with what the page allocator does for each
segment, or a discard. -/
inductive Bio
  | read (sector : Nat) (pages : List PageData)
  | write (sector : Nat) (segments : List (PageData × PageAllocator)) (allocations : InitAllocations)
  | discard (sector size : Nat)

def Bio.sector : Bio → Nat
  | read sector _ => sector
  | write sector _ _ => sector
  | discard sector _ => sector

/-- `bi_size`. -/
def Bio.size : Bio → Nat
  | read _ pages => pages.length * pageSize
  | write _ segments _ => segments.length * pageSize
  | discard _ size => size

def validIoRequest (zram : Zram) (bio : Bio) : Bool :=
  ¬ (bio.sector ≥ zram.disksize / 2 ^ sectorShift ∨ bio.sector % sectorsPerPage ≠ 0 ∨ bio.size % pageSize ≠ 0)

def zramMakeRequest (lzo : Lzo) (zram : Zram) (bio : Bio) : Option Completion :=
  if validIoRequest zram bio then
    match bio with
    | .read sector pages => some (zramRead lzo zram sector pages)
    | .write sector segments allocations => zramWrite lzo zram sector segments allocations
    | .discard sector size => zramDiscard zram sector size
  else some ⟨{ zram with stats := { zram.stats with invalidIo := zramStat64Inc zram.stats.invalidIo } }, false, 0, []⟩

/-- `none` when there is no table to look in. -/
def zramSlotFreeNotify (zram : Zram) (index : Nat) : Option Zram :=
  if zram.tableAddress = 0 then none
  else (zramFreePage zram index).map fun zram =>
    { zram with stats := { zram.stats with notifyFree := zramStat64Inc zram.stats.notifyFree } }

/-- Writing to the `disksize` attribute; `none` is text that does not parse, for
which `strict_strtoull` stores 0. -/
def disksizeStore (zram : Zram) (value : Option Nat) : Zram :=
  if zram.initDone then zram
  else match value with
    | none => { zram with disksize := 0 }
    | some bytes => { zram with disksize := andPageMask (bytes % 2 ^ 64) }

/-- Writing a number to the `reset` attribute of a device nobody holds open. -/
def resetStore (zram : Zram) : Option Zram := if zram.initDone then zramResetDevice zram else some zram

/-- A device as `create_device` leaves it. -/
def createDevice (xv : XvState) : Zram :=
  { xv
    table := fun _ => Entry.empty
    stats := Stats.zero
    disksize := 0
    initDone := false
    compressWorkmem := 0
    compressBuffer := 0
    tableAddress := 0
    memPool := 0 }

end Compcache.ZramDrv
