import Compcache.Library.PerCpu
import Compcache.Library.SortedMap
import Compcache.ZcachePools

/-! The page cache of one pool of zcache, at the grain of its locks, references and
counters: what its operations do under a lock, to a reference count, to a counter of
one CPU or to the allocator, one step after the other, with other operations in
between. -/

namespace Compcache.Zcache
open Library Library.PagedMemory Library.PerCpu Xvmalloc

def zcacheZeroPageIndexShift : Nat := 2
def zcacheZeroPageMarkBit : Nat := 2 ^ 1
def zcacheMaxPageSize : Nat := pageSize / 2
def freeBatch : Nat := 16
def uintMax : Nat := 2 ^ 32 - 1

def efault : Int := 14

/-- `enum zcache_pool_stats_index`. -/
inductive Stat
  | pagesZero
  | pagesStored
  | comprSize
  deriving DecidableEq

/-- `enum zcache_tag`. -/
inductive Tag
  | nonzeroPage
  | unused
  | invalid
  deriving DecidableEq

/-- A slot of a page tree: the "pointer" in it, and its tag `ZCACHE_TAG_NONZERO_PAGE`. -/
structure Item where
  ptr : Nat
  nonzeroPage : Bool
  deriving DecidableEq

/-- `struct zcache_inode_rb`, with the task that holds its lock. -/
structure InodeRb where
  pageTree : SortedMap Item
  treeLock : Option Nat
  refcount : Nat
  inodeNo : Nat

/-- The pointer at an index, NULL when there is none. -/
def InodeRb.lookup (inode : InodeRb) (index : Nat) : Nat := (inode.pageTree.find? index).elim 0 Item.ptr

/-- `radix_tree_gang_lookup`, and `radix_tree_gang_lookup_tag` for a tag in use. -/
def InodeRb.gangLookup (inode : InodeRb) (index : Nat) (tag : Tag) : List Nat :=
  (((inode.pageTree.atLeast index).filter fun entry => tag = .invalid ∨ (tag = .nonzeroPage ∧ entry.2.nonzeroPage)).take freeBatch).map
    fun entry => entry.2.ptr

def zcacheInodeIsEmpty (inode : InodeRb) : Bool := inode.pageTree.entries.isEmpty

section Machine
variable [Arch]

/-- `struct cleancache_filekey`: a file handle of six words, or an inode number in
the place of the first. -/
structure Filekey where
  words : Fin 6 → UInt32

def Filekey.ino (filekey : Filekey) : Nat :=
  (filekey.words 0).toNat + if bitsPerLong = 32 then 0 else 2 ^ 32 * (filekey.words 1).toNat

/-- `sizeof(struct zcache_objheader)`. -/
def objheaderSize : Nat := wordBytes

/-! The "pointers" in a page tree are words. -/

def zcacheIsZeroPage (ptr : Nat) : Bool := ptr &&& zcacheZeroPageMarkBit != 0

def zcacheIndexToPtr (index : Nat) : Nat := (index <<< zcacheZeroPageIndexShift) % 2 ^ bitsPerLong ||| zcacheZeroPageMarkBit

def zcacheXvLocationToPtr (location : Location) : Nat := (location.page <<< pageShift) % 2 ^ bitsPerLong ||| location.offset % pageSize

def zcachePtrToXvLocation (ptr : Nat) : Location := ⟨ptr >>> pageShift, ptr % pageSize⟩

/-- `struct zcache_pool`. Nodes are named in the order they were allocated in. The
counters are exact, no count of bytes or pages comes near the range of an s64. -/
structure Pool (cpus : Nat) where
  inodeTree : SortedMap Nat
  nodes : Nat → Option InodeRb
  created : Nat
  memlimit : Nat
  xv : XvState
  stats : Counters (Fin cpus) Stat

/-- A page allocator asked for memory the kernel has mapped: its addresses are words. -/
structure NowaitAllocator where
  pages : PageAllocator
  mapped : ∀ {owned fresh}, pages.pick owned = some fresh → fresh.page * pageSize < 2 ^ bitsPerLong

/-- What the allocations of one `zcache_put_page` come to: the node, the buffers of
the CPU, the pool and the page tree. -/
structure PutChoices where
  node : Bool
  buffers : Bool
  allocator : NowaitAllocator
  insert : Bool

/-- A node of the inode tree: by inode number, the first, or the one behind a node. -/
inductive Which
  | inode (inodeNo : Nat)
  | first
  | next (node : Nat)

inductive Field
  | memlimit
  | objectSize (location : Location)
  | objectIndex (location : Location)

/-- What an operation returns: nothing, or an error code and the page to read into. -/
inductive Reply
  | returned
  | got (ret : Int) (page : PageData)

/-- What is left of an operation, from its next step on. -/
inductive Code (cpus : Nat)
  | addStat (stat : Stat) (value : Int) (next : Code cpus)
  | sumStat (stat : Stat) (left : List (Fin cpus)) (value : Int) (next : Nat → Code cpus)
  | load (field : Field) (next : Nat → Code cpus)
  | acquire (which : Which) (next : Option Nat → Code cpus)
  | allocNode (inodeNo : Nat) (next : Nat → Code cpus)
  | linkNode (node : Nat) (next : Nat → Code cpus)
  | lock (node : Nat) (next : Code cpus)
  | unlock (node : Nat) (next : Code cpus)
  | radixDelete (node index : Nat) (next : Nat → Code cpus)
  | radixInsert (node index : Nat) (item : Item) (memory : Bool) (next : Bool → Code cpus)
  | isolateIfEmpty (node : Nat) (next : Code cpus)
  | krefPut (node : Nat) (next : Code cpus)
  | xvMalloc (size : Nat) (allocator : NowaitAllocator) (next : Option Location → Code cpus)
  | copyIn (location : Location) (index : Nat) (src : List UInt8) (next : Code cpus)
  | decompress (location : Location) (next : List UInt8 → Code cpus)
  | xvFree (location : Location) (next : Code cpus)
  | freePage (page : Page) (next : Code cpus)
  | sweep (node index pagesToFree : Nat) (tag : Tag) (next : Code cpus)
  | shrinkFrom (node : Nat)
  | setMemlimit (memlimit : Nat) (next : Code cpus)
  | peek (which : Which) (next : Option Nat → Code cpus)
  | eraseNode (node : Nat) (next : Code cpus)
  | flushFrom (node : Nat)
  | bug
  | done (reply : Reply)

variable {cpus : Nat}

def zcacheGetStat (stat : Stat) (next : Nat → Code cpus) : Code cpus := .sumStat stat (List.finRange cpus) 0 next

def zcacheDecPages (isZero : Bool) (next : Code cpus) : Code cpus := .addStat (if isZero then .pagesZero else .pagesStored) (-1) next

def zcacheFreePage (ptr : Nat) (next : Code cpus) : Code cpus :=
  if ptr = 0 then next
  else if zcacheIsZeroPage ptr then zcacheDecPages true next
  else
    let location := zcachePtrToXvLocation ptr
    .load (.objectSize location) fun size =>
      .addStat .comprSize (-((size : Int) - objheaderSize)) (.xvFree location (zcacheDecPages false next))

def zcachePtrToIndex (ptr : Nat) (next : Nat → Code cpus) : Code cpus :=
  if zcacheIsZeroPage ptr then next (ptr >>> zcacheZeroPageIndexShift)
  else .load (.objectIndex (zcachePtrToXvLocation ptr)) next

/-- `zcache_inode_create`; `next` gets the node, referenced, or none. -/
def zcacheInodeCreate (inodeNo : Nat) (memory : Bool) (next : Option Nat → Code cpus) : Code cpus :=
  if memory then .allocNode inodeNo fun node => .linkNode node fun used => next (some used) else next none

/-- `zcache_store_page` from `out_store` on, for a zero-filled page. -/
def storeZero (node index : Nat) (memory : Bool) (next : Bool → Code cpus) : Code cpus :=
  .lock node (.radixInsert node index ⟨zcacheIndexToPtr index, false⟩ memory fun inserted =>
    if inserted then .addStat .pagesZero 1 (.unlock node (next true)) else .unlock node (next false))

/-- `zcache_store_page` from `out_store` on, for an object of `clen` bytes and its
header. The page tree is tagged under the same lock. -/
def storeObject (node index : Nat) (location : Location) (clen : Nat) (memory : Bool) (next : Bool → Code cpus) : Code cpus :=
  .lock node (.radixInsert node index ⟨zcacheXvLocationToPtr location, true⟩ memory fun inserted =>
    if inserted then
      .addStat .comprSize (-((zcacheMaxPageSize : Int) - clen)) (.addStat .pagesStored 1 (.unlock node (next true)))
    else .unlock node (.freePage location.page (next false)))

def zcacheStorePage (lzo : Lzo) (node index : Nat) (data : PageData) (isZero : Bool) (choices : PutChoices) (next : Bool → Code cpus) :
    Code cpus :=
  if isZero then storeZero node index choices.insert next
  else if choices.buffers then
    match lzo.compress data with
    | none => next false
    | some src =>
      if src.length > zcacheMaxPageSize then next false
      else .xvMalloc (src.length + objheaderSize) choices.allocator fun
        | none => next false
        | some location => .copyIn location index src (storeObject node index location src.length choices.insert next)
  else next false

/-- The loop over one batch of `zcache_free_inode_pages`. -/
def freeObjects (node : Nat) (next : Code cpus) : List Nat → Code cpus
  | [] => next
  | obj :: rest => zcachePtrToIndex obj fun index => .radixDelete node index fun found =>
      if found = obj then zcacheFreePage found (freeObjects node next rest) else .bug

/-- One turn of the outer loop of `zcache_free_inode_pages`, once the batch is looked up. -/
def freeBatchOf (node index pagesToFree : Nat) (tag : Tag) (next : Code cpus) (objs : List Nat) : Code cpus :=
  let victims := objs.take pagesToFree
  let left := pagesToFree - victims.length
  freeObjects node (if left ≠ 0 ∧ victims.length = freeBatch then .sweep node (index + 1) left tag next else next) victims

def zcacheFreeInodePages (node pagesToFree : Nat) (tag : Tag) (next : Code cpus) : Code cpus := .sweep node 0 pagesToFree tag next

/-- The end of the sections of `zcache_inode_rb->tree_lock` that may leave the node empty. -/
def leaveNode (node : Nat) (next : Code cpus) : Code cpus := .isolateIfEmpty node (.unlock node (.krefPut node next))

def zcacheCountExcessPages (next : Nat → Code cpus) : Code cpus :=
  .load .memlimit fun memlimit => zcacheGetStat .pagesStored fun stored =>
    let memlimitPages := memlimit / pageSize % 2 ^ 32
    let pagesStored := stored % 2 ^ 32
    next (if pagesStored > memlimitPages then pagesStored - memlimitPages else 0)

/-- One turn of the loop of `zcache_shrink_pool`, at a node it has a reference to. -/
def shrinkNode (node : Nat) : Code cpus :=
  zcacheCountExcessPages fun pagesToFree =>
    if pagesToFree = 0 then .lock node (leaveNode node (.done .returned))
    else .acquire (.next node) fun following =>
      .lock node (zcacheFreeInodePages node pagesToFree .nonzeroPage (leaveNode node (following.elim (.done .returned) .shrinkFrom)))

def zcacheShrinkPool : Code cpus := .acquire .first fun node => node.elim (.done .returned) .shrinkFrom

/-- `memlimit_store` of a number. -/
def memlimitStore (memlimit : Nat) : Code cpus :=
  .setMemlimit (ZramDrv.andPageMask memlimit) (zcacheCountExcessPages fun excess => if excess =
    0 then .done .returned else zcacheShrinkPool)

def zcacheGetPage (filekey : Filekey) (index : Nat) (page : PageData) : Code cpus :=
  .acquire (.inode filekey.ino) fun
    | none => .done (.got (-efault) page)
    | some node => .lock node (.radixDelete node index fun nodeptr => leaveNode node
        (if nodeptr = 0 then .done (.got (-efault) page)
        else if zcacheIsZeroPage nodeptr then zcacheFreePage nodeptr (.done (.got 0 PageData.zeros))
        else
          let location := zcachePtrToXvLocation nodeptr
          .load (.objectIndex location) fun header =>
            if header = index then .decompress location fun bytes => zcacheFreePage nodeptr (.done (.got 0 (page.overwrite bytes)))
            else .bug))

/-- `zcache_put_page` at a node it has a reference to. -/
def putInto (lzo : Lzo) (node index : Nat) (data : PageData) (choices : PutChoices) : Code cpus :=
  .lock node (.radixDelete node index fun zpage => .unlock node (zcacheFreePage zpage
    (zcacheStorePage lzo node index data (pageZeroFilled data) choices fun stored =>
      if stored then .krefPut node (.done .returned)
      else .addStat .comprSize (-(zcacheMaxPageSize : Int)) (.lock node (leaveNode node (.done .returned))))))

/-- `zcache_put_page` from `out_find_store` on. -/
def findStore (lzo : Lzo) (inodeNo index : Nat) (data : PageData) (choices : PutChoices) : Code cpus :=
  .acquire (.inode inodeNo) fun
    | some node => putInto lzo node index data choices
    | none => zcacheInodeCreate inodeNo choices.node fun
      | some node => putInto lzo node index data choices
      | none => .addStat .comprSize (-(zcacheMaxPageSize : Int)) (.done .returned)

/-- What a put does about its reservation when the pool is full. -/
def refusePut : Code cpus := .addStat .comprSize (-(zcacheMaxPageSize : Int)) (.done .returned)

def zcachePutPage (lzo : Lzo) (filekey : Filekey) (index : Nat) (data : PageData) (choices : PutChoices) : Code cpus :=
  if pageZeroFilled data then findStore lzo filekey.ino index data choices
  else .addStat .comprSize zcacheMaxPageSize (zcacheGetStat .comprSize fun size => .load .memlimit fun memlimit =>
    if size > memlimit then refusePut else findStore lzo filekey.ino index data choices)

def zcacheFlushPage (filekey : Filekey) (index : Nat) : Code cpus :=
  .acquire (.inode filekey.ino) fun
    | none => .done .returned
    | some node => .lock node (.radixDelete node index fun page => leaveNode node (zcacheFreePage page (.done .returned)))

def zcacheFlushInode (filekey : Filekey) : Code cpus :=
  .acquire (.inode filekey.ino) fun
    | none => .done .returned
    | some node => .lock node (zcacheFreeInodePages node uintMax .invalid (leaveNode node (.done .returned)))

/-- One turn of the loop of `zcache_flush_fs`, which holds no locks and no references. -/
def flushNode (node : Nat) : Code cpus :=
  .peek (.next node) fun following =>
    zcacheFreeInodePages node uintMax .invalid (.eraseNode node (following.elim (.done .returned) .flushFrom))

/-- The loop of `zcache_flush_fs` over the inode tree. -/
def flushNodes : Code cpus := .peek .first fun node => node.elim (.done .returned) .flushFrom

/-- The operations on a pool. -/
inductive Op
  | putPage (filekey : Filekey) (index : Nat) (data : PageData) (choices : PutChoices)
  | getPage (filekey : Filekey) (index : Nat) (page : PageData)
  | flushPage (filekey : Filekey) (index : Nat)
  | flushInode (filekey : Filekey)
  | shrinkPool
  | memlimitStore (memlimit : Nat)
  | flushFs

def Op.code (lzo : Lzo) : Op → Code cpus
  | putPage filekey index data choices => zcachePutPage lzo filekey index data choices
  | getPage filekey index page => zcacheGetPage filekey index page
  | flushPage filekey index => zcacheFlushPage filekey index
  | flushInode filekey => zcacheFlushInode filekey
  | shrinkPool => zcacheShrinkPool
  | memlimitStore memlimit => Zcache.memlimitStore memlimit
  | flushFs => flushNodes

/-! What single steps do to a pool. -/

/-- A pool as `zcache_create_pool` makes it. -/
def Pool.create (kernel : Kernel) (memlimit : Nat) : Pool cpus :=
  ⟨.empty, fun _ => none, 0, memlimit, ⟨kernel, xvCreatePool⟩, Counters.zero⟩

def Pool.setNode (pool : Pool cpus) (node : Nat) (inode : InodeRb) : Pool cpus :=
  { pool with nodes := Function.update pool.nodes node (some inode) }

def Pool.kfree (pool : Pool cpus) (node : Nat) : Pool cpus := { pool with nodes := Function.update pool.nodes node none }

def Pool.read (pool : Pool cpus) : Field → Nat
  | .memlimit => pool.memlimit
  | .objectSize location => xvGetObjectSize pool.xv.memory location.page location.offset
  | .objectIndex location => pool.xv.memory.load location.page location.offset wordBytes

/-- What `which` leads to; `none` when it starts from a node that is not there. -/
def Pool.select (pool : Pool cpus) : Which → Option (Option Nat)
  | .inode inodeNo => some (pool.inodeTree.find? inodeNo)
  | .first => some (pool.inodeTree.first.map Prod.snd)
  | .next node => (pool.nodes node).map fun inode => (pool.inodeTree.next inode.inodeNo).map Prod.snd

def Pool.krefGet (pool : Pool cpus) (node : Nat) : Option (Pool cpus) :=
  (pool.nodes node).map fun inode => pool.setNode node { inode with refcount := inode.refcount + 1 }

/-- `kref_put`. `none` is the BUG_ON of `zcache_inode_release`, and a node that is not there. -/
def Pool.krefPut (pool : Pool cpus) (node : Nat) : Option (Pool cpus) :=
  (pool.nodes node).bind fun inode =>
    if inode.refcount = 1 then if zcacheInodeIsEmpty inode then some (pool.kfree node) else none
    else some (pool.setNode node { inode with refcount := inode.refcount - 1 })

/-- The node allocated by `zcache_inode_create`. -/
def Pool.addNode (pool : Pool cpus) (inodeNo : Nat) : Pool cpus :=
  { pool.setNode pool.created ⟨.empty, none, 1, inodeNo⟩ with created := pool.created + 1 }

/-- The section of `zcache_inode_create` under the lock of the pool. The node in use
afterwards comes back with the pool. -/
def Pool.linkNode (pool : Pool cpus) (node : Nat) : Option (Pool cpus × Nat) :=
  (pool.nodes node).bind fun inode =>
    match pool.inodeTree.find? inode.inodeNo with
    | some existing => ((pool.kfree node).krefGet existing).map fun pool => (pool, existing)
    | none => ({ pool with inodeTree := pool.inodeTree.insert inode.inodeNo node }.krefGet node).map fun pool => (pool, node)

/-- `zcache_inode_isolate`. `none` is the removal of a node that is not in the tree. -/
def zcacheInodeIsolate (pool : Pool cpus) (node : Nat) (inode : InodeRb) : Option (Pool cpus) :=
  if inode.refcount = 2 then
    if pool.inodeTree.find? inode.inodeNo = some node then
      some { pool.setNode node { inode with refcount := 1 } with inodeTree := pool.inodeTree.erase inode.inodeNo }
    else none
  else some pool

def Pool.isolateIfEmpty (pool : Pool cpus) (node : Nat) : Option (Pool cpus) :=
  (pool.nodes node).bind fun inode => if zcacheInodeIsEmpty inode then zcacheInodeIsolate pool node inode else some pool

/-- `rb_erase` and `kfree` of a node of the tree. -/
def Pool.eraseNode (pool : Pool cpus) (node : Nat) : Option (Pool cpus) :=
  (pool.nodes node).bind fun inode =>
    if pool.inodeTree.find? inode.inodeNo = some node then
      some { pool.kfree node with inodeTree := pool.inodeTree.erase inode.inodeNo }
    else none

/-- A header and what it is the header of. -/
def Pool.copyIn (pool : Pool cpus) (location : Location) (index : Nat) (src : List UInt8) : Pool cpus :=
  let memory := pool.xv.memory.store location.page location.offset wordBytes index
  { pool with xv := pool.xv.withMemory (memory.write location.page (location.offset + objheaderSize) src) }

/-- A pool, the nodes the running operation holds references to, and what is left of it. -/
structure Progress (cpus : Nat) where
  pool : Pool cpus
  held : List Nat
  code : Code cpus

/-- The next step of an operation, by a task that is on `cpu`. `none` when it waits
for a lock, when it has nothing left to do, and when the kernel oopses. -/
def Pool.advance (lzo : Lzo) (pool : Pool cpus) (task : Nat) (cpu : Fin cpus) (held : List Nat) : Code cpus → Option (Progress cpus)
  | .addStat stat value next => some ⟨{ pool with stats := pool.stats.bump cpu stat value }, held, next⟩
  | .sumStat _ [] value next => if value < 0 then none else some ⟨pool, held, next value.toNat⟩
  | .sumStat stat (other :: left) value next => some ⟨pool, held, .sumStat stat left (value + pool.stats other stat) next⟩
  | .load field next => some ⟨pool, held, next (pool.read field)⟩
  | .acquire which next => (pool.select which).bind fun
    | none => some ⟨pool, held, next none⟩
    | some node => (pool.krefGet node).map fun pool => ⟨pool, node :: held, next (some node)⟩
  | .allocNode inodeNo next => some ⟨pool.addNode inodeNo, pool.created :: held, next pool.created⟩
  | .linkNode node next => (pool.linkNode node).map fun (pool, used) => ⟨pool, used :: held.erase node, next used⟩
  | .lock node next => (pool.nodes node).bind fun inode =>
      if inode.treeLock = none then some ⟨pool.setNode node { inode with treeLock := some task }, held, next⟩ else none
  | .unlock node next => (pool.nodes node).map fun inode => ⟨pool.setNode node { inode with treeLock := none }, held, next⟩
  | .radixDelete node index next => (pool.nodes node).map fun inode =>
      ⟨pool.setNode node { inode with pageTree := inode.pageTree.erase index }, held, next (inode.lookup index)⟩
  | .radixInsert node index item memory next => (pool.nodes node).map fun inode =>
      if (inode.pageTree.find? index).isSome ∨ memory = false then ⟨pool, held, next false⟩
      else ⟨pool.setNode node { inode with pageTree := inode.pageTree.insert index item }, held, next true⟩
  | .isolateIfEmpty node next => (pool.isolateIfEmpty node).map fun pool => ⟨pool, held, next⟩
  | .krefPut node next => (pool.krefPut node).map fun pool => ⟨pool, held.erase node, next⟩
  | .xvMalloc size allocator next =>
    let result := Xvmalloc.xvMalloc pool.xv size allocator.pages
    some ⟨{ pool with xv := result.state }, held, next (if result.ret ≠ 0 then none else some result.location)⟩
  | .copyIn location index src next => some ⟨pool.copyIn location index src, held, next⟩
  | .decompress location next =>
    let size := xvGetObjectSize pool.xv.memory location.page location.offset - objheaderSize
    some ⟨pool, held, next (lzo.decompress (pool.xv.memory.read location.page (location.offset + objheaderSize) size)).2⟩
  | .xvFree location next => (Xvmalloc.xvFree pool.xv location.page location.offset).map fun xv => ⟨{ pool with xv }, held, next⟩
  | .freePage page next => (pool.xv.freePage page).map fun xv => ⟨{ pool with xv }, held, next⟩
  | .sweep node index pagesToFree tag next => (pool.nodes node).map fun inode =>
      ⟨pool, held, freeBatchOf node index pagesToFree tag next (inode.gangLookup index tag)⟩
  | .shrinkFrom node => some ⟨pool, held, shrinkNode node⟩
  | .setMemlimit memlimit next => some ⟨{ pool with memlimit }, held, next⟩
  | .peek which next => (pool.select which).map fun node => ⟨pool, held, next node⟩
  | .eraseNode node next => (pool.eraseNode node).map fun pool => ⟨pool, held, next⟩
  | .flushFrom node => some ⟨pool, held, flushNode node⟩
  | .bug | .done _ => none

/-- An operation on its way: the nodes it holds references to, and the CPU it last
updated a counter on. -/
structure Task (cpus : Nat) where
  op : Op
  code : Code cpus
  held : List Nat
  cpu : Option (Fin cpus)

/-- A pool, the operations in progress, and what the others returned, in that order. -/
structure Machine (cpus : Nat) where
  pool : Pool cpus
  tasks : SortedMap (Task cpus)
  history : List (Op × Reply)

def Machine.create (kernel : Kernel) (memlimit : Nat) : Machine cpus := ⟨Pool.create kernel memlimit, .empty, []⟩

inductive Action (cpus : Nat)
  | call (task : Nat) (op : Op)
  | advance (task : Nat) (cpu : Fin cpus)

/-- The CPU of the last update, after one more step. -/
def Code.updatesOn (last : Option (Fin cpus)) (cpu : Fin cpus) : Code cpus → Option (Fin cpus)
  | .addStat _ _ _ => some cpu
  | _ => last

/-- `none` when the action is not enabled, and when the kernel oopses. -/
def Machine.step (lzo : Lzo) (machine : Machine cpus) : Action cpus → Option (Machine cpus)
  | .call task op =>
    if (machine.tasks.find? task).isNone then some { machine with tasks := machine.tasks.insert task ⟨op, op.code lzo, [], none⟩ } else none
  | .advance task cpu => (machine.tasks.find? task).bind fun found =>
    match found.code with
    | .done reply => some { machine with tasks := machine.tasks.erase task, history := machine.history ++ [(found.op, reply)] }
    | code => (machine.pool.advance lzo task cpu found.held code).map fun progress =>
        { machine with
          pool := progress.pool
          tasks := machine.tasks.insert task ⟨found.op, progress.code, progress.held, code.updatesOn found.cpu cpu⟩ }

end Machine
end Compcache.Zcache
