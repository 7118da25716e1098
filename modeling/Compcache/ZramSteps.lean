import Mathlib.Data.List.AList
import Compcache.Zram

/-! The block device of `zram_drv.c` at the grain of single accesses: what its
functions load, store, allocate and release, one step after the other, with other
requests in between. Counters are left out, nothing here reads them. -/

namespace Compcache.ZramSteps
open Library.PagedMemory Xvmalloc
open ZramDrv (Zram Entry Bio InitAllocations validIoRequest maxZpageSize sectorsPerPage initSection Stats)

inductive Flag
  | uncompressed
  | zero
  deriving DecidableEq

/-- How a request is done with a page: it has stored it, it has emptied it, or it has
read it into a page that held `before`. -/
inductive Outcome
  | wrote (data : PageData)
  | emptied
  | served (before shown : PageData)

variable [Arch]

/-- What is left of a request, from its next access on. To arrive at a page and to
leave it is no access. -/
inductive Code
  | checkInit (next : Bool → Code)
  | initDevice (allocations : InitAllocations) (next : Int → Code)
  | arrive (index : Nat) (updates : Bool) (next : Code)
  | leave (outcome : Outcome) (next : Code)
  | loadPage (index : Nat) (next : Page → Code)
  | loadOffset (index : Nat) (next : Nat → Code)
  | testFlag (index : Nat) (flag : Flag) (next : Bool → Code)
  | storePage (index : Nat) (page : Page) (next : Code)
  | storeOffset (index offset : Nat) (next : Code)
  | storeFlag (index : Nat) (flag : Flag) (value : Bool) (next : Code)
  | allocPage (allocator : PageAllocator) (next : Option Page → Code)
  | freePage (page : Page) (next : Code)
  | xvMalloc (index size : Nat) (allocator : PageAllocator) (next : Int → Nat → Code)
  | xvFree (page : Page) (offset : Nat) (next : Code)
  | copyIn (page : Page) (offset : Nat) (src : List UInt8) (next : Code)
  | copyOut (page : Page) (offset : Nat) (next : PageData → Code)
  | decompress (page : Page) (offset : Nat) (next : Bool → List UInt8 → Code)
  | lock (next : Code)
  | unlock (next : Code)
  | resetBegin (next : Code)
  | resetEntries (index : Nat) (next : Code)
  | resetTable (next : Code)
  | resetPool (next : Code)
  | resetEnd (next : Code)
  | done (ok : Bool) (pages : List PageData)

/-- The end of `zram_free_page`. -/
def forget (index : Nat) (next : Code) : Code := .storePage index noPage (.storeOffset index 0 next)

def zramFreePage (index : Nat) (next : Code) : Code :=
  .loadPage index fun page => .loadOffset index fun offset =>
    if page = noPage then .testFlag index .zero fun zero => if zero then .storeFlag index .zero false next else next
    else .testFlag index .uncompressed fun uncompressed =>
      if uncompressed then .freePage page (.storeFlag index .uncompressed false (forget index next))
      else .xvFree page offset (forget index next)

/-- The release at the start of each segment of a write. -/
def releaseSlot (index : Nat) (next : Code) : Code :=
  .loadPage index fun page =>
    if page ≠ noPage then zramFreePage index next
    else .testFlag index .zero fun zero => if zero then zramFreePage index next else next

/-- From `memstore` on. The flag is tested to know whether to unmap `src`. -/
def memstore (index offset : Nat) (src : List UInt8) (next : Code) : Code :=
  .storeOffset index (offset % 2 ^ 16) (.loadPage index fun page => .loadOffset index fun offset =>
    .copyIn page offset src (.testFlag index .uncompressed fun _ => .unlock next))

/-- One segment of a write: `next` when it is stored, `failed` when it is not. -/
def writeSegment (lzo : Lzo) (index : Nat) (data : PageData) (allocator : PageAllocator) (next failed : Code) : Code :=
  releaseSlot index (.lock
    (if pageZeroFilled data then .unlock (.storeFlag index .zero true next)
    else match lzo.compress data with
      | none => .unlock failed
      | some src =>
        if src.length > maxZpageSize then
          .allocPage allocator fun
            | none => .unlock failed
            | some page => .storeFlag index .uncompressed true (.storePage index page (memstore index 0 data.val next))
        else
          .storePage index noPage (.xvMalloc index src.length allocator fun ret offset =>
            if ret ≠ 0 then .unlock failed else memstore index offset src next)))

/-- The loop of `zram_write`. -/
def writeSegments (lzo : Lzo) (index : Nat) : List (PageData × PageAllocator) → Code
  | [] => .done true []
  | (data, allocator) :: rest =>
    .arrive index true (writeSegment lzo index data allocator
      (.leave (.wrote data) (writeSegments lzo ((index + 1) % 2 ^ 32) rest)) (.leave .emptied (.done false [])))

/-- One segment of a read: `next` with the page afterwards, or `failed` with it. -/
def readSegment (index : Nat) (page : PageData) (next failed : PageData → Code) : Code :=
  .testFlag index .zero fun zero =>
    if zero then next PageData.zeros
    else .loadPage index fun first =>
      if first = noPage then next page
      else .testFlag index .uncompressed fun uncompressed =>
        .loadPage index fun frame => .loadOffset index fun offset =>
          if uncompressed then .copyOut frame offset next
          else .decompress frame offset fun ok bytes => if ok then next (page.overwrite bytes) else failed (page.overwrite bytes)

/-- The loop of `zram_read`, with the pages already read. -/
def readSegments (index : Nat) (served : List PageData) : List PageData → Code
  | [] => .done true served
  | page :: rest =>
    .arrive index false (readSegment index page
      (fun shown => .leave (.served page shown) (readSegments ((index + 1) % 2 ^ 32) (served ++ [shown]) rest))
      fun shown => .done false (served ++ shown :: rest))

/-- The loop of `zram_discard`. -/
def discardPages (index : Nat) : Nat → Code
  | 0 => .done true []
  | npages + 1 => .arrive index true (zramFreePage index (.leave .emptied (discardPages ((index + 1) % 2 ^ 32) npages)))

def zramResetDevice (next : Code) : Code := .resetBegin (.resetEntries 0 (.resetTable (.resetPool (.resetEnd next))))

def zramRead (sector : Nat) (pages : List PageData) : Code :=
  .checkInit fun ready => if ready then readSegments (sector / sectorsPerPage % 2 ^ 32) [] pages else .done true pages

def zramWrite (lzo : Lzo) (sector : Nat) (segments : List (PageData × PageAllocator)) (allocations : InitAllocations) : Code :=
  let body := writeSegments lzo (sector / sectorsPerPage % 2 ^ 32) segments
  .checkInit fun ready =>
    if ready then body
    else .initDevice allocations fun ret => if ret = 0 then body else zramResetDevice (.done false [])

def zramDiscard (sector size : Nat) : Code :=
  .checkInit fun ready => if ready then discardPages (sector / sectorsPerPage % 2 ^ 32) (size / pageSize) else .done true []

def zramSlotFreeNotify (index : Nat) : Code := .arrive index true (zramFreePage index (.leave .emptied (.done true [])))

/-- The end of `reset_store` on a device nobody holds, once pending requests are flushed. -/
def resetStore : Code := .checkInit fun ready => if ready then zramResetDevice (.done true []) else .done true []

def bioCode (lzo : Lzo) : Bio → Code
  | .read sector pages => zramRead sector pages
  | .write sector segments allocations => zramWrite lzo sector segments allocations
  | .discard sector size => zramDiscard sector size

/-- Whether the next step loads or stores an entry of the table. -/
def Code.usesTable : Code → Bool
  | loadPage _ _ | loadOffset _ _ | testFlag _ _ _ | storePage _ _ _ | storeOffset _ _ _ | storeFlag _ _ _ _ | xvMalloc _ _ _ _ => true
  | _ => false

/-- Whether the next step allocates from the pool or frees to it. -/
def Code.usesPool : Code → Bool
  | xvMalloc _ _ _ _ | xvFree _ _ _ => true
  | _ => false

/-- A request on its way: the page it is at, and whether it updates it. -/
structure Thread where
  place : Option (Nat × Bool)
  code : Code

/-- A device, the requests in progress, the holders of its two mutexes, and what each
page was last given by a request that is done with it. -/
structure Machine where
  zram : Zram
  threads : AList fun _ : Nat => Thread
  lock : Option Nat
  initLock : Option Nat
  disk : Nat → Option PageData

def Machine.onTo (machine : Machine) (thread : Nat) (place : Option (Nat × Bool)) (code : Code) : Machine :=
  { machine with threads := machine.threads.insert thread ⟨place, code⟩ }

def Machine.withZram (machine : Machine) (zram : Zram) : Machine := { machine with zram }

def Machine.setEntry (machine : Machine) (index : Nat) (entry : Entry) : Machine := machine.withZram (machine.zram.setEntry index entry)

def Entry.flag (entry : Entry) : Flag → Bool
  | .uncompressed => entry.uncompressed
  | .zero => entry.zero

def Entry.withFlag (entry : Entry) (value : Bool) : Flag → Entry
  | .uncompressed => { entry with uncompressed := value }
  | .zero => { entry with zero := value }

/-- What a page holds after a request is done with it. -/
def Outcome.after (outcome : Outcome) (place : Option (Nat × Bool)) (disk : Nat → Option PageData) : Nat → Option PageData :=
  match outcome, place with
  | wrote data, some (index, _) => Function.update disk index (some data)
  | emptied, some (index, _) => Function.update disk index none
  | _, _ => disk

/-- One entry of the loop of `zram_reset_device`. -/
def resetEntry (zram : Zram) (index : Nat) : Option Zram :=
  (ZramDrv.resetEntries zram.xv [zram.table index]).map fun xv => { zram with xv }

/-- The next step of a request that is at `place`. `none` when it waits for a mutex,
and when the kernel oopses. -/
def Machine.advance (lzo : Lzo) (machine : Machine) (thread : Nat) (place : Option (Nat × Bool)) : Code → Option Machine
  | .checkInit next => some (machine.onTo thread place (next machine.zram.initDone))
  | .initDevice allocations next =>
    if machine.initLock = none then
      let result := initSection machine.zram allocations
      some ((machine.withZram result.1).onTo thread place (next result.2))
    else none
  | .arrive index updates next => some (machine.onTo thread (some (index, updates)) next)
  | .leave outcome next => some ({ machine with disk := outcome.after place machine.disk }.onTo thread none next)
  | .loadPage index next => some (machine.onTo thread place (next (machine.zram.table index).page))
  | .loadOffset index next => some (machine.onTo thread place (next (machine.zram.table index).offset))
  | .testFlag index flag next => some (machine.onTo thread place (next (Entry.flag (machine.zram.table index) flag)))
  | .storePage index page next => some ((machine.setEntry index { machine.zram.table index with page }).onTo thread place next)
  | .storeOffset index offset next => some ((machine.setEntry index { machine.zram.table index with offset }).onTo thread place next)
  | .storeFlag index flag value next =>
    some ((machine.setEntry index (Entry.withFlag (machine.zram.table index) value flag)).onTo thread place next)
  | .allocPage allocator next =>
    match machine.zram.xv.kernel.allocPage allocator with
    | none => some (machine.onTo thread place (next none))
    | some (page, kernel) =>
      some ((machine.withZram { machine.zram with xv := ⟨kernel, machine.zram.xv.pool⟩ }).onTo thread place (next (some page)))
  | .freePage page next =>
    (machine.zram.xv.freePage page).map fun xv => (machine.withZram { machine.zram with xv }).onTo thread place next
  | .xvMalloc index size allocator next =>
    let result := Xvmalloc.xvMalloc machine.zram.xv size allocator
    let zram := { machine.zram.setEntry index { machine.zram.table index with page := result.location.page } with xv := result.state }
    some ((machine.withZram zram).onTo thread place (next result.ret result.location.offset))
  | .xvFree page offset next =>
    (Xvmalloc.xvFree machine.zram.xv page offset).map fun xv => (machine.withZram { machine.zram with xv }).onTo thread place next
  | .copyIn page offset src next =>
    let xv := machine.zram.xv.withMemory (machine.zram.xv.memory.write page offset src)
    some ((machine.withZram { machine.zram with xv }).onTo thread place next)
  | .copyOut page offset next => some (machine.onTo thread place (next (PageData.copy machine.zram.xv.memory page offset)))
  | .decompress page offset next =>
    let size := xvGetObjectSize machine.zram.xv.memory page offset
    let result := lzo.decompress (machine.zram.xv.memory.read page offset size)
    some (machine.onTo thread place (next result.1 result.2))
  | .lock next => if machine.lock = none then some ({ machine with lock := some thread }.onTo thread place next) else none
  | .unlock next => some ({ machine with lock := none }.onTo thread place next)
  | .resetBegin next =>
    if machine.initLock = none then
      let zram := { machine.zram with initDone := false, compressWorkmem := 0, compressBuffer := 0 }
      some ({ machine with zram, initLock := some thread }.onTo thread place next)
    else none
  | .resetEntries index next =>
    if index < machine.zram.numPages then
      (resetEntry machine.zram index).map fun zram => (machine.withZram zram).onTo thread place (.resetEntries (index + 1) next)
    else some (machine.onTo thread place next)
  | .resetTable next =>
    some ((machine.withZram { machine.zram with table := fun _ => Entry.empty, tableAddress := 0 }).onTo thread place next)
  | .resetPool next => some ((machine.withZram { machine.zram with memPool := 0 }).onTo thread place next)
  | .resetEnd next =>
    let zram := { machine.zram with stats := Stats.zero, disksize := 0 }
    some ({ machine with zram, initLock := none, disk := fun _ => none }.onTo thread place next)
  | .done _ _ => some { machine with threads := machine.threads.erase thread }

inductive Action
  | submit (thread : Nat) (bio : Bio)
  | notify (thread index : Nat)
  | reset (thread : Nat)
  | disksize (value : Option Nat)
  | advance (thread : Nat)

/-- `none` when the action is not enabled, when the next access is to a table or a
pool that is not there, and when the kernel oopses otherwise. -/
def Machine.step (lzo : Lzo) (machine : Machine) : Action → Option Machine
  | .submit thread bio =>
    if (machine.threads.lookup thread).isNone ∧ validIoRequest machine.zram bio =
      true then some (machine.onTo thread none (bioCode lzo bio))
    else none
  | .notify thread index =>
    if (machine.threads.lookup thread).isNone then some (machine.onTo thread none (zramSlotFreeNotify index)) else none
  | .reset thread => if (machine.threads.lookup thread).isNone then some (machine.onTo thread none resetStore) else none
  | .disksize value => some (machine.withZram (ZramDrv.disksizeStore machine.zram value))
  | .advance thread => (machine.threads.lookup thread).bind fun found =>
    if (found.code.usesTable ∧ machine.zram.tableAddress = 0) ∨ (found.code.usesPool ∧ machine.zram.memPool = 0) then none
    else machine.advance lzo thread found.place found.code

end Compcache.ZramSteps
