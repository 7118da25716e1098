import Compcache.Zram

/-! The table of pools of zcache: one pool for each mounted filesystem, created
when it is mounted and destroyed when it is unmounted. -/

namespace Compcache.Zcache

def maxZcachePools : Nat := 32
def zcachePoolDefaultMemlimitPercRam : Nat := 10

def eperm : Int := 1
def einval : Int := 22

/-- What `kzalloc` and its kin return: the address of a block nobody has, or none. -/
structure BlockAllocator where
  pick : Finset Nat → Option Nat
  unowned : ∀ {blocks address}, pick blocks = some address → address ∉ blocks
  positive : ∀ {blocks address}, pick blocks = some address → 0 < address

def BlockAllocator.exhausted : BlockAllocator := ⟨fun _ => none, nofun, nofun⟩

/-- The allocator that hands out one given address as long as nobody has it. -/
def BlockAllocator.offering (address : Nat) (positive : 0 < address) : BlockAllocator where
  pick blocks := if address ∈ blocks then none else some address
  unowned := by
    intro blocks other picked
    split at picked
    next => cases picked
    next outside =>
      cases picked
      exact outside
  positive := by
    intro blocks other picked
    split at picked
    next => cases picked
    next =>
      cases picked
      exact positive

/-- The fields of `struct zcache_pool` that are set when a pool is created. -/
structure PoolRecord where
  stats : Nat
  xvPool : Nat
  memlimit : Nat
  kobj : Nat
  deriving DecidableEq

/-- What `kzalloc` fills a pool with. -/
def PoolRecord.zero : PoolRecord := ⟨0, 0, 0, 0⟩

/-- `struct zcache`, the pools at their addresses, and the blocks allocated by anyone. -/
structure Table where
  pools : Nat → Nat
  numPools : Nat
  records : Nat → PoolRecord
  blocks : Finset Nat

/-- The table as `zcache_init` allocates it. -/
def Table.create (blocks : Finset Nat) : Table := ⟨fun _ => 0, 0, fun _ => PoolRecord.zero, blocks⟩

def Table.setPool (table : Table) (slot zpool : Nat) : Table := { table with pools := Function.update table.pools slot zpool }

def Table.setRecord (table : Table) (zpool : Nat) (record : PoolRecord) : Table :=
  { table with records := Function.update table.records zpool record }

def Table.kfree (table : Table) (address : Nat) : Table := { table with blocks := table.blocks.erase address }

/-- The first slot that holds `zpool`. -/
def Table.findSlot (table : Table) (zpool : Nat) : Option Nat := (List.range maxZcachePools).find? fun slot => table.pools slot = zpool

/-- `none` is the write behind the table when no slot holds the pool. -/
def zcacheDestroyPool (table : Table) (zpool : Nat) : Option Table :=
  if zpool = 0 then some table
  else (table.findSlot zpool).map fun slot =>
    let record := table.records zpool
    ((({ table with numPools := sub32 table.numPools 1 }.setPool slot 0).kfree record.stats).kfree record.xvPool).kfree zpool

variable [Arch]

/-- `PAGE_MASK` is an unsigned long, and so is the product. -/
def defaultMemlimit (totalramPages : Nat) : Nat :=
  ZramDrv.andPageMask (zcachePoolDefaultMemlimitPercRam * (totalramPages * pageSize % 2 ^ bitsPerLong / 100))

/-- What the allocations of one `zcache_init_fs` come to. -/
structure InitChoices where
  zpool : BlockAllocator
  stats : BlockAllocator
  xvPool : BlockAllocator
  kobj : BlockAllocator
  sysfsError : Nat
  totalramPages : Nat

/-- The end of `zcache_create_pool` for a pool with all it needs: the first empty
slot takes it. `none` is the write behind the table when there is none. -/
def addToPoolList (table : Table) (zpool : Nat) : Option (Table × Int) :=
  (table.findSlot 0).map fun slot => (table.setPool slot zpool, (slot : Int))

/-- `none` is a write behind the table. -/
def zcacheCreatePool (table : Table) (choices : InitChoices) : Option (Table × Int) :=
  if table.numPools = maxZcachePools then some (table, -eperm)
  else
    match choices.zpool.pick table.blocks with
    | none => some (table, -enomem)
    | some zpool =>
      let table := { table with numPools := (table.numPools + 1) % 2 ^ 32, blocks := insert zpool table.blocks }
      match choices.stats.pick table.blocks with
      | none => (zcacheDestroyPool (table.setRecord zpool PoolRecord.zero) zpool).map fun table => (table, -enomem)
      | some stats =>
        let table := { table with blocks := insert stats table.blocks }
        match choices.xvPool.pick table.blocks with
        | none => (zcacheDestroyPool (table.setRecord zpool { PoolRecord.zero with stats }) zpool).map fun table => (table, -enomem)
        | some xvPool =>
          let table := { table with blocks := insert xvPool table.blocks }
          addToPoolList (table.setRecord zpool ⟨stats, xvPool, defaultMemlimit choices.totalramPages, 0⟩) zpool

/-- The sysfs part of `zcache_init_fs` for the pool just created. -/
def createSysfs (table : Table) (poolId : Int) (choices : InitChoices) : Option (Table × Int) :=
  let zpool := table.pools poolId.toNat
  match choices.kobj.pick table.blocks with
  | none => (zcacheDestroyPool table zpool).map fun table => (table, -enomem)
  | some kobj =>
    let table := { table.setRecord zpool { table.records zpool with kobj } with blocks := insert kobj table.blocks }
    if choices.sysfsError ≠ 0 then
      (zcacheDestroyPool (table.kfree kobj) zpool).map fun table => (table, -(choices.sysfsError : Int))
    else some (table, poolId)

/-- `none` is a write behind the table. -/
def zcacheInitFs (table : Table) (pagesize : Nat) (choices : InitChoices) : Option (Table × Int) :=
  if pagesize ≠ pageSize then some (table, -einval)
  else (zcacheCreatePool table choices).bind fun (table, poolId) =>
    if poolId < 0 then some (table, -enomem) else createSysfs table poolId choices

/-- `zcache_flush_fs` but for the loop that frees the pool's pages. -/
def zcacheFlushFs (table : Table) (poolId : Nat) : Option Table :=
  let zpool := table.pools poolId
  zcacheDestroyPool (table.kfree (table.records zpool).kobj) zpool

/-- The loop of `zcache_kobj_to_pool`: the NULL pointer in an empty slot is followed
like any other, and behind the last slot there is no pool. -/
def scanPools (table : Table) (kobj : Nat) : List Nat → Option Nat
  | [] => none
  | slot :: rest =>
    if table.pools slot = 0 then none
    else if (table.records (table.pools slot)).kobj = kobj then some (table.pools slot)
    else scanPools table kobj rest

def zcacheKobjToPool (table : Table) (kobj : Nat) : Option Nat := scanPools table kobj (List.range maxZcachePools)

end Compcache.Zcache
