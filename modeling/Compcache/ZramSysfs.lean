import Compcache.Zram

/-! The disk a device shows to the system, and the attributes of `zram_sysfs.c`
that change it. -/

namespace Compcache.ZramDrv
open Library.PagedMemory Xvmalloc

def ebusy : Int := 16
def einval : Int := 22

variable [Arch]

/-- A device and the capacity last announced for its disk, in sectors. -/
structure GenDisk where
  zram : Zram
  capacity : Nat

def GenDisk.createDevice (xv : XvState) : GenDisk := ⟨ZramDrv.createDevice xv, 0⟩

/-- `disksize_store`: the device, and the error or 0 for success. -/
def GenDisk.disksizeStore (disk : GenDisk) (value : Option Nat) : GenDisk × Int :=
  let zram := ZramDrv.disksizeStore disk.zram value
  if disk.zram.initDone then (disk, -ebusy)
  else match value with
    | none => ({ disk with zram }, -einval)
    | some _ => (⟨zram, zram.disksize / 2 ^ sectorShift⟩, 0)

/-- `reset_store`: `holders` is whether somebody holds the device open, and a value
that does not parse is `none`. -/
def GenDisk.resetStore (disk : GenDisk) (holders : Bool) (value : Option Nat) : Option (GenDisk × Int) :=
  if holders then some (disk, -ebusy)
  else match value with
    | none => some (disk, -einval)
    | some 0 => some (disk, -einval)
    | some _ => (ZramDrv.resetStore disk.zram).map fun zram => ({ disk with zram }, 0)

/-- The capacity after `zram_init_device`, which announces it once there is a table. -/
def GenDisk.initCapacity (disk : GenDisk) (allocations : InitAllocations) : Nat :=
  if disk.zram.initDone ∨ allocations.workmem = 0 ∨ allocations.buffer = 0 ∨ allocations.table = 0 then disk.capacity
  else (zramSetDisksize disk.zram allocations.totalramBytes).disksize / 2 ^ sectorShift

def GenDisk.initDevice (disk : GenDisk) (allocations : InitAllocations) : Option (GenDisk × Int) :=
  (zramInitDevice disk.zram allocations).map fun result => (⟨result.1, disk.initCapacity allocations⟩, result.2)

/-- `zram_make_request`. Only a write may initialise the device. -/
def GenDisk.makeRequest (lzo : Lzo) (disk : GenDisk) (bio : Bio) : Option GenDisk :=
  (zramMakeRequest lzo disk.zram bio).map fun completion =>
    { zram := completion.zram
      capacity := match bio with
        | .write _ _ allocations => if validIoRequest disk.zram bio then disk.initCapacity allocations else disk.capacity
        | _ => disk.capacity }

def GenDisk.slotFreeNotify (disk : GenDisk) (index : Nat) : Option GenDisk :=
  (zramSlotFreeNotify disk.zram index).map fun zram => { disk with zram }

end Compcache.ZramDrv
