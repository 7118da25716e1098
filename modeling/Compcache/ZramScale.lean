import Compcache.Library.PerCpu
import Compcache.Zram

/-! The variant of the block device in `zram_scale`: no device lock, counters and
buffers for each CPU, and a table of packed addresses. -/

namespace Compcache.ZramScale
open Library.PagedMemory Library.PerCpu Xvmalloc
open ZramDrv (sectorShift sectorsPerPage andPageMask defaultDisksizePercRam)

def maxZpageSize : Nat := pageSize / 8 * 7

inductive Stat
  | comprSize
  | numReads
  | numWrites
  | invalidIo
  | notifyFree
  | discard
  | pagesZero
  | pagesStored
  | pagesExpand
  deriving DecidableEq, Repr

/-- Where each counter update of an operation is made. A task may move to another
CPU between two of them. -/
abbrev Placement (Cpu : Type) := Stat → Cpu

variable {Cpu : Type} [DecidableEq Cpu]

variable [Arch]

/-- `struct zram`. The counters are `none` when the pointer to them is NULL; the
table and the pool are at the addresses named, 0 when there are none. -/
structure Zram (Cpu : Type) where
  xv : XvState
  table : Nat → Nat
  stats : Option (Counters Cpu Stat)
  disksize : Nat
  initDone : Bool
  tableAddress : Nat
  memPool : Nat

/-- `none` is an access through the NULL pointer. -/
def zramAddStat (zram : Zram Cpu) (cpu : Cpu) (stat : Stat) (value : Int) : Option (Zram Cpu) :=
  zram.stats.map fun counters => { zram with stats := some (counters.add cpu stat value) }

def zramIncStat (zram : Zram Cpu) (cpu : Cpu) (stat : Stat) : Option (Zram Cpu) := zramAddStat zram cpu stat 1
def zramDecStat (zram : Zram Cpu) (cpu : Cpu) (stat : Stat) : Option (Zram Cpu) := zramAddStat zram cpu stat (-1)

/-- `zram_get_stat`: the sum over all CPUs, as a u64. -/
def zramGetStat [Fintype Cpu] (zram : Zram Cpu) (stat : Stat) : Option Nat :=
  zram.stats.map fun counters => (counters.sum stat % 2 ^ 64).toNat

def Zram.setAddr (zram : Zram Cpu) (index addr : Nat) : Zram Cpu := { zram with table := Function.update zram.table index addr }

/-- The number of pages of the disk. -/
def Zram.numPages (zram : Zram Cpu) : Nat := zram.disksize / pageSize

def zramIsZeroPage (zram : Zram Cpu) (index : Nat) : Bool := zram.table (index % 2 ^ 32) % 2 == 1

def zramSetZeroPage (zram : Zram Cpu) (index : Nat) : Zram Cpu := zram.setAddr (index % 2 ^ 32) (zram.table (index % 2 ^ 32) ||| 1)

def zramClearZeroPage (zram : Zram Cpu) (index : Nat) : Zram Cpu :=
  zram.setAddr (index % 2 ^ 32) (zram.table (index % 2 ^ 32) - zram.table (index % 2 ^ 32) % 2)

/-- `none` is the NULL page. -/
def zramFindObj (zram : Zram Cpu) (index : Nat) : Option Location :=
  let addr := zram.table (index % 2 ^ 32)
  if addr = 0 then none else some ⟨addr / pageSize, addr % pageSize⟩

/-- The packed address of an object. The page number is shifted as an unsigned long. -/
def packObj (location : Location) : Nat := location.page * pageSize % 2 ^ bitsPerLong ||| location.offset % pageSize

def zramInsertObj (zram : Zram Cpu) (index : Nat) (location : Location) : Zram Cpu := zram.setAddr index (packObj location)

def zramDefaultDisksize (totalramPages : Nat) : Nat :=
  andPageMask (defaultDisksizePercRam * (totalramPages / 100) % 2 ^ bitsPerLong * pageSize % 2 ^ 64)

/-- The end of `zram_free_page`, for an object or page of `zlen` bytes. -/
def forgetObj (zram : Zram Cpu) (index zlen : Nat) (placement : Placement Cpu) : Option (Zram Cpu) :=
  (zramAddStat zram (placement .comprSize) .comprSize (-zlen)).bind fun zram =>
    (zramDecStat zram (placement .pagesStored) .pagesStored).map fun zram => zram.setAddr index 0

/-- `none` is the BUG_ON of `xv_free`, a page given back that is not owned, or an
access to counters that are not there. -/
def zramFreePage (zram : Zram Cpu) (index : Nat) (placement : Placement Cpu) : Option (Zram Cpu) :=
  if zramIsZeroPage zram index then zramDecStat (zramClearZeroPage zram index) (placement .pagesZero) .pagesZero
  else match zramFindObj zram index with
    | none => some zram
    | some location =>
      if location.offset = 0 then
        (zram.xv.freePage location.page).bind fun xv =>
          (zramDecStat { zram with xv } (placement .pagesExpand) .pagesExpand).bind fun zram => forgetObj zram index pageSize placement
      else
        let zlen := xvGetObjectSize zram.xv.memory location.page location.offset
        (xvFree zram.xv location.page location.offset).bind fun xv => forgetObj { zram with xv } index zlen placement

/-- One segment of a write: its data, what the page allocator does for it, whether
this CPU has its buffers, and where the counters of the release and of the store
are updated. -/
structure Segment (Cpu : Type) where
  data : PageData
  allocator : PageAllocator
  buffers : Bool
  freeing : Placement Cpu
  storing : Placement Cpu

/-- How the body of a loop ends: at its end, by `continue`, or with an error. -/
inductive Flow
  | next
  | again
  | out
  deriving DecidableEq

/-- From `memstore` on, with `src` copied to the place found for it. -/
def memstore (zram : Zram Cpu) (index : Nat) (location : Location) (src : List UInt8) (placement : Placement Cpu) : Option (Zram Cpu) :=
  let zram := { zram with xv := zram.xv.withMemory (zram.xv.memory.write location.page location.offset src) }
  (zramAddStat zram (placement .comprSize) .comprSize src.length).bind fun zram =>
    (zramIncStat zram (placement .pagesStored) .pagesStored).map fun zram => zramInsertObj zram index location

/-- The body of the loop of `zram_write` after the release. -/
def storeSegment (lzo : Lzo) (zram : Zram Cpu) (index : Nat) (segment : Segment Cpu) : Option (Zram Cpu × Flow) :=
  if segment.buffers = false then some (zram, .out)
  else if pageZeroFilled segment.data then
    (zramIncStat zram (segment.storing .pagesZero) .pagesZero).map fun zram => (zramSetZeroPage zram index, .again)
  else match lzo.compress segment.data with
    | none => some (zram, .out)
    | some src =>
      if src.length > maxZpageSize then
        match zram.xv.kernel.allocPage segment.allocator with
        | none => some (zram, .out)
        | some (page, kernel) =>
          -- the new page, and not the page of the bio, is what memstore copies from
          (zramIncStat { zram with xv := ⟨kernel, zram.xv.pool⟩ } (segment.storing .pagesExpand) .pagesExpand).bind fun zram =>
            (memstore zram index ⟨page, 0⟩ (zram.xv.memory.read page 0 pageSize) segment.storing).map (·, .next)
      else
        let result := xvMalloc zram.xv src.length segment.allocator
        if result.ret ≠ 0 then some ({ zram with xv := result.state }, .out)
        else (memstore { zram with xv := result.state } index result.location src segment.storing).map (·, .next)

def writeSegment (lzo : Lzo) (zram : Zram Cpu) (index : Nat) (segment : Segment Cpu) : Option (Zram Cpu × Flow) :=
  (zramFreePage zram index segment.freeing).bind fun zram => storeSegment lzo zram index segment

/-- The index after a body that ended so. -/
def Flow.index (index : Nat) : Flow → Nat
  | next => (index + 1) % 2 ^ 32
  | _ => index

structure Completion (Cpu : Type) where
  zram : Zram Cpu
  ok : Bool
  pages : List PageData

/-- The loop of `zram_write`. -/
def writeSegments (lzo : Lzo) (zram : Zram Cpu) (index : Nat) : List (Segment Cpu) → Option (Completion Cpu)
  | [] => some ⟨zram, true, []⟩
  | segment :: rest =>
    match writeSegment lzo zram index segment with
    | none => none
    | some (zram, .out) => some ⟨zram, false, []⟩
    | some (zram, flow) => writeSegments lzo zram (flow.index index) rest

/-- `handle_uncompressed_page`; `none` is its BUG_ON. -/
def handleUncompressedPage (zram : Zram Cpu) (index : Nat) : Option PageData :=
  match zramFindObj zram index with
  | none => none
  | some location => if location.offset ≠ 0 then none else some (PageData.copy zram.xv.memory location.page 0)

/-- The body of the loop of `zram_read`, and the page afterwards. -/
def readSegment (lzo : Lzo) (zram : Zram Cpu) (index : Nat) (page : PageData) : Option (Flow × PageData) :=
  if zramIsZeroPage zram index then some (.again, PageData.zeros)
  else match zramFindObj zram index with
    | none => some (.again, page)
    | some location =>
      if location.offset = 0 then (handleUncompressedPage zram index).map (.again, ·)
      else
        let size := xvGetObjectSize zram.xv.memory location.page location.offset
        let result := lzo.decompress (zram.xv.memory.read location.page location.offset size)
        some (if result.1 then .next else .out, page.overwrite result.2)

/-- The loop of `zram_read`. -/
def readSegments (lzo : Lzo) (zram : Zram Cpu) (index : Nat) : List PageData → Option (Bool × List PageData)
  | [] => some (true, [])
  | page :: rest =>
    match readSegment lzo zram index page with
    | none => none
    | some (.out, page) => some (false, page :: rest)
    | some (flow, page) => (readSegments lzo zram (flow.index index) rest).map fun others => (others.1, page :: others.2)

def zramRead (lzo : Lzo) (zram : Zram Cpu) (sector : Nat) (pages : List PageData) (placement : Placement Cpu) : Option (Completion Cpu) :=
  if zram.initDone then
    (zramIncStat zram (placement .numReads) .numReads).bind fun zram =>
      (readSegments lzo zram (sector / sectorsPerPage % 2 ^ 32) pages).map fun result => ⟨zram, result.1, result.2⟩
  else some ⟨zram, true, pages⟩

/-- What the allocations of one `zram_init_device` come to; 0 is failure. -/
structure InitAllocations where
  totalramPages : Nat
  table : Nat
  stats : Nat
  pool : Nat

/-- The section of `zram_init_device` under the init lock, and its return value. -/
def initSection (zram : Zram Cpu) (allocations : InitAllocations) : Zram Cpu × Int :=
  if zram.initDone then (zram, 0)
  else
    let disksize := if zram.disksize = 0 then zramDefaultDisksize allocations.totalramPages else zram.disksize
    let zram := { zram with disksize, tableAddress := allocations.table }
    if allocations.table = 0 then ({ zram with disksize := 0 }, -enomem)
    else
      let zram := { zram with table := fun _ => 0 }
      if allocations.stats = 0 then ({ zram with stats := none }, -enomem)
      else
        let zram := { zram with stats := some Counters.zero, memPool := allocations.pool }
        if allocations.pool = 0 then (zram, -enomem)
        else ({ zram with xv := ⟨zram.xv.kernel, xvCreatePool⟩, initDone := true }, 0)

/-- The loop of `zram_reset_device`. -/
def freePages (zram : Zram Cpu) (placement : Nat → Placement Cpu) : List Nat → Option (Zram Cpu)
  | [] => some zram
  | index :: rest => (zramFreePage zram index (placement index)).bind fun zram => freePages zram placement rest

/-- The pointer to the counters is cleared, not the counters. -/
def zramResetDevice (zram : Zram Cpu) (placement : Nat → Placement Cpu) (totalramPages : Nat) : Option (Zram Cpu) :=
  if zram.tableAddress = 0 ∧ zram.numPages ≠ 0 then none
  else
    (freePages { zram with initDone := false } placement (List.range zram.numPages)).map fun zram =>
      { xv := zram.xv
        table := fun _ => 0
        stats := none
        disksize := zramDefaultDisksize totalramPages
        initDone := false
        tableAddress := 0
        memPool := 0 }

/-- A failed initialisation never has anything in its table to release, so no
counter is updated. -/
def zramInitDevice (zram : Zram Cpu) (allocations : InitAllocations) (placement : Nat → Placement Cpu) : Option (Zram Cpu × Int) :=
  let result := initSection zram allocations
  if result.2 = 0 then some result
  else (zramResetDevice result.1 placement allocations.totalramPages).map fun zram => (zram, result.2)

def writeInitialised (lzo : Lzo) (zram : Zram Cpu) (sector : Nat) (segments : List (Segment Cpu)) (placement : Placement Cpu) :
    Option (Completion Cpu) :=
  (zramIncStat zram (placement .numWrites) .numWrites).bind fun zram =>
    writeSegments lzo zram (sector / sectorsPerPage % 2 ^ 32) segments

def zramWrite (lzo : Lzo) (zram : Zram Cpu) (sector : Nat) (segments : List (Segment Cpu)) (allocations : InitAllocations)
    (placement : Placement Cpu) : Option (Completion Cpu) :=
  if zram.initDone then writeInitialised lzo zram sector segments placement
  else (zramInitDevice zram allocations fun _ => placement).bind fun result =>
    if result.2 = 0 then writeInitialised lzo result.1 sector segments placement else some ⟨result.1, false, []⟩

/-- The loop of `zram_discard`, which counts sectors and bytes. -/
def discardBytes (zram : Zram Cpu) (placement : Nat → Placement Cpu) (sector bytes : Nat) : Option (Zram Cpu) :=
  if bytes ≥ pageSize then
    (zramFreePage zram (sector / sectorsPerPage % 2 ^ bitsPerLong) (placement sector)).bind fun zram =>
      discardBytes zram placement (sector + pageSize / 2 ^ sectorShift) (bytes - pageSize)
  else some zram
termination_by bytes
decreasing_by simp only [pageSize_eq] at *; omega

def zramDiscard (zram : Zram Cpu) (sector size : Nat) (placement : Nat → Placement Cpu) : Option (Zram Cpu) :=
  if zram.initDone then
    (zramIncStat zram (placement sector .discard) .discard).bind fun zram => discardBytes zram placement sector size
  else some zram

/-- A bio, with where its counters are updated. -/
inductive Bio (Cpu : Type)
  | read (sector : Nat) (pages : List PageData) (placement : Placement Cpu)
  | write (sector : Nat) (segments : List (Segment Cpu)) (allocations : InitAllocations) (placement : Placement Cpu)
  | discard (sector size : Nat) (placement : Nat → Placement Cpu)

def Bio.sector : Bio Cpu → Nat
  | read sector _ _ => sector
  | write sector _ _ _ => sector
  | discard sector _ _ => sector

def Bio.size : Bio Cpu → Nat
  | read _ pages _ => pages.length * pageSize
  | write _ segments _ _ => segments.length * pageSize
  | discard _ size _ => size

def Bio.cpu (stat : Stat) : Bio Cpu → Cpu
  | read _ _ placement => placement stat
  | write _ _ _ placement => placement stat
  | discard sector _ placement => placement sector stat

/-- The bounds test of `valid_io_request`. -/
def validIoRequest (zram : Zram Cpu) (bio : Bio Cpu) : Bool :=
  ¬ (bio.sector ≥ zram.disksize / 2 ^ sectorShift ∨ bio.sector % sectorsPerPage ≠ 0 ∨ bio.size % pageSize ≠ 0)

def zramMakeRequest (lzo : Lzo) (zram : Zram Cpu) (bio : Bio Cpu) : Option (Completion Cpu) :=
  if validIoRequest zram bio then
    match bio with
    | .read sector pages placement => zramRead lzo zram sector pages placement
    | .write sector segments allocations placement => zramWrite lzo zram sector segments allocations placement
    | .discard sector size placement => (zramDiscard zram sector size placement).map (⟨·, true, []⟩)
  else if zram.initDone then (zramIncStat zram (bio.cpu .invalidIo) .invalidIo).map (⟨·, false, []⟩)
  else some ⟨zram, false, []⟩

/-- `none` also when there is no table to look in. -/
def zramSlotFreeNotify (zram : Zram Cpu) (index : Nat) (placement : Placement Cpu) : Option (Zram Cpu) :=
  if zram.tableAddress = 0 then none
  else (zramFreePage zram index placement).bind fun zram => zramIncStat zram (placement .notifyFree) .notifyFree

/-- Writing to the `disksize` attribute; `none` is text that does not parse. -/
def disksizeStore (zram : Zram Cpu) (value : Option Nat) : Zram Cpu :=
  if zram.initDone then zram
  else match value with
    | none => { zram with disksize := 0 }
    | some bytes => { zram with disksize := andPageMask (bytes % 2 ^ 64) }

/-- Writing a number to the `reset` attribute of a device nobody holds open. -/
def resetStore (zram : Zram Cpu) (placement : Nat → Placement Cpu) (totalramPages : Nat) : Option (Zram Cpu) :=
  if zram.initDone then zramResetDevice zram placement totalramPages else some zram

/-- A device as `create_device` leaves it. -/
def createDevice (xv : XvState) (totalramPages : Nat) : Zram Cpu where
  xv
  table _ := 0
  stats := none
  disksize := zramDefaultDisksize totalramPages
  initDone := false
  tableAddress := 0
  memPool := 0

end Compcache.ZramScale
