import Compcache.Library.Blocks
import Compcache.Zram

/-! A device with the memory its buffers, its table and its pool are in. -/

namespace Compcache.ZramDrv
open Library.PagedMemory Library.Blocks Xvmalloc

/-- A block, by the function that releases it: `kfree`, `free_pages` or `vfree`. Of
the last the size is looked at too. -/
inductive Block
  | kmalloc
  | getFreePages
  | vmalloc (size : Nat)
  deriving DecidableEq

def Block.isKmalloc (block : Block) : Bool := block = .kmalloc
def Block.isPages (block : Block) : Bool := block = .getFreePages

def Block.isVmalloc : Block → Bool
  | vmalloc _ => true
  | _ => false

variable [Arch]

/-- A device and the blocks of memory allocated, by it and by others. -/
structure Host where
  zram : Zram
  blocks : Allocated Block

def tableEntrySize : Nat := if bitsPerLong = 32 then 8 else 16

/-- The memory of the machine, and what the allocations of one `zram_init_device` come to. -/
structure Choices where
  totalramPages : Nat
  workmem : Allocator Block
  buffer : Allocator Block
  table : Allocator Block
  pool : Allocator Block

/-- `totalram_pages << PAGE_SHIFT`. -/
def Choices.totalramBytes (choices : Choices) : Nat := (choices.totalramPages <<< pageShift) % 2 ^ bitsPerLong

def Host.release (host : Host) (accepts : Block → Bool) (address : Nat) : Option Host :=
  (Library.Blocks.release accepts host.blocks address).map fun blocks => { host with blocks }

/-- `zram->table[index]`; `none` is an access outside the table. -/
def Host.entry (host : Host) (index : Nat) : Option Entry :=
  if host.zram.tableAddress = 0 then none
  else match host.blocks host.zram.tableAddress with
    | some (.vmalloc size) => if (index + 1) * tableEntrySize ≤ size then some (host.zram.table index) else none
    | _ => none

/-- The loop of `zram_reset_device` over the table. -/
def Host.resetEntries (host : Host) : List Nat → Option Host
  | [] => some host
  | index :: rest => (host.entry index).bind fun entry =>
    if entry.page = noPage then host.resetEntries rest
    else if entry.uncompressed then
      (host.zram.xv.freePage entry.page).bind fun xv => Host.resetEntries { host with zram := { host.zram with xv } } rest
    else if host.zram.memPool = 0 then none
    else (xvFree host.zram.xv entry.page entry.offset).bind fun xv => Host.resetEntries { host with zram := { host.zram with xv } } rest

/-- `zram_reset_device`. `none` is an access outside the table, the release of what
is not allocated or owned, or the BUG_ON of `xv_free`. -/
def Host.resetDevice (host : Host) : Option Host :=
  let host := { host with zram := { host.zram with initDone := false } }
  (host.release Block.isKmalloc host.zram.compressWorkmem).bind fun host =>
  (host.release Block.isPages host.zram.compressBuffer).bind fun host =>
  let host := { host with zram := { host.zram with compressWorkmem := 0, compressBuffer := 0 } }
  (host.resetEntries (List.range host.zram.numPages)).bind fun host =>
  (host.release Block.isVmalloc host.zram.tableAddress).bind fun host =>
  (host.release Block.isKmalloc host.zram.memPool).map fun host =>
    { host with zram := { host.zram with
        table := fun _ => Entry.empty
        stats := Stats.zero
        disksize := 0
        tableAddress := 0
        memPool := 0 } }

/-- The allocation `zram_init_device` failed at. -/
inductive Missing
  | workmem
  | buffer
  | table
  | pool
  deriving DecidableEq

/-- `vmalloc` of the table. It refuses to allocate nothing. -/
def Host.vmallocTable (host : Host) (allocator : Allocator Block) : Option (Nat × Allocated Block) :=
  let size := host.zram.numPages % 2 ^ bitsPerLong * tableEntrySize % 2 ^ bitsPerLong
  if size = 0 then none else obtain host.blocks allocator (.vmalloc size)

/-- The section of `zram_init_device` under the init lock, up to the allocation that fails. -/
def Host.initSection (host : Host) (choices : Choices) : Host × Option Missing :=
  if host.zram.initDone then (host, none)
  else
    let host := { host with zram := zramSetDisksize host.zram choices.totalramBytes }
    match obtain host.blocks choices.workmem .kmalloc with
    | none => ({ host with zram := { host.zram with compressWorkmem := 0 } }, some .workmem)
    | some (workmem, blocks) =>
      let host : Host := ⟨{ host.zram with compressWorkmem := workmem }, blocks⟩
      match obtain host.blocks choices.buffer .getFreePages with
      | none => ({ host with zram := { host.zram with compressBuffer := 0 } }, some .buffer)
      | some (buffer, blocks) =>
        let host : Host := ⟨{ host.zram with compressBuffer := buffer }, blocks⟩
        match host.vmallocTable choices.table with
        | none => ({ host with zram := { host.zram with tableAddress := 0, disksize := 0 } }, some .table)
        | some (table, blocks) =>
          let host : Host := ⟨{ host.zram with tableAddress := table, table := fun _ => Entry.empty }, blocks⟩
          match obtain host.blocks choices.pool .kmalloc with
          | none => ({ host with zram := { host.zram with memPool := 0 } }, some .pool)
          | some (memPool, blocks) =>
            (⟨{ host.zram with memPool, xv := ⟨host.zram.xv.kernel, xvCreatePool⟩, initDone := true }, blocks⟩, none)

def Host.initDevice (host : Host) (choices : Choices) : Option (Host × Int) :=
  match host.initSection choices with
  | (host, none) => some (host, 0)
  | (host, some _) => host.resetDevice.map fun host => (host, -enomem)

/-- How a bio ends. -/
structure Reply where
  host : Host
  ok : Bool
  pages : List PageData

def Host.complete (host : Host) (completion : Completion) :
    Reply := ⟨{ host with zram := completion.zram }, completion.ok, completion.pages⟩

def Host.write (lzo : Lzo) (host : Host) (sector : Nat) (segments : List (PageData × PageAllocator)) (choices : Choices) : Option Reply :=
  if host.zram.initDone then (writeInitialised lzo host.zram sector segments).map host.complete
  else (host.initDevice choices).bind fun (host, ret) =>
    if ret = 0 then (writeInitialised lzo host.zram sector segments).map host.complete else some ⟨host, false, []⟩

/-- `zram_make_request`. The allocations of a first use are those of the choices. -/
def Host.makeRequest (lzo : Lzo) (host : Host) (bio : Bio) (choices : Choices) : Option Reply :=
  if validIoRequest host.zram bio then
    match bio with
    | .read sector pages => some (host.complete (zramRead lzo host.zram sector pages))
    | .write sector segments _ => host.write lzo sector segments choices
    | .discard sector size => (zramDiscard host.zram sector size).map host.complete
  else
    let stats := { host.zram.stats with invalidIo := zramStat64Inc host.zram.stats.invalidIo }
    some ⟨{ host with zram := { host.zram with stats } }, false, []⟩

/-- What happens to a device: a write to an attribute, a bio, or a slot notification. -/
inductive Call
  | disksize (value : Option Nat)
  | reset
  | bio (bio : Bio) (choices : Choices)
  | notify (index : Nat)

def Host.step (lzo : Lzo) (host : Host) : Call → Option Host
  | .disksize value => some { host with zram := disksizeStore host.zram value }
  | .reset => if host.zram.initDone then host.resetDevice else some host
  | .bio bio choices => (host.makeRequest lzo bio choices).map Reply.host
  | .notify index => (zramSlotFreeNotify host.zram index).map fun zram => { host with zram }

/-- A device as `create_device` leaves it. -/
def Host.create (xv : XvState) (blocks : Allocated Block) : Host := ⟨createDevice xv, blocks⟩

end Compcache.ZramDrv
