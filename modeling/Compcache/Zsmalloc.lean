import Mathlib.Data.Nat.Bitwise
import Compcache.Kernel

/-! The zsmalloc allocator: objects of up to a page, packed into zspages of up to four
pages each. A zspage is known by its first page, and its free objects are linked by
handles kept in the objects. -/

namespace Compcache.Zsmalloc
open Library.PagedMemory

def zsMinAllocSize : Nat := 32
def zsMaxAllocSize : Nat := pageSize
def zsSizeClassDelta : Nat := 16
def zsSizeClasses : Nat := (zsMaxAllocSize - zsMinAllocSize) / zsSizeClassDelta + 1
def maxZspageOrder : Nat := 4
def fullnessThresholdFrac : Nat := 4

def classIdxBits : Nat := 28
def fullnessBits : Nat := 4

/-- `enum fullness_group`; there is no list from `nr` on. -/
inductive FullnessGroup
  | almostFull
  | almostEmpty
  | nr
  | empty
  | full
  deriving DecidableEq

def FullnessGroup.toNat : FullnessGroup → Nat
  | almostFull => 0
  | almostEmpty => 1
  | nr => 2
  | empty => 3
  | full => 4

def FullnessGroup.decode : Nat → FullnessGroup
  | 0 => almostFull
  | 1 => almostEmpty
  | 2 => nr
  | 3 => empty
  | _ => full

/-- `struct page`. Two pairs of its fields are one word each: `private` and `first_page`,
and `freelist` and `index`. -/
structure PageStruct where
  pgPrivate : Bool
  pgPrivate2 : Bool
  privateWord : Nat
  mapping : Nat
  freelist : Nat
  inuse : Nat
  objects : Nat
  lruNext : Page

/-- `struct size_class`. A list of zspages starts with the page its head points to. -/
structure SizeClass where
  size : Nat
  index : Nat
  zspageOrder : Nat
  pagesAllocated : Nat
  fullnessList : FullnessGroup → List Page

structure ZsState where
  kernel : Kernel
  pages : Page → PageStruct
  sizeClass : Nat → SizeClass

def ZsState.modifyPage (state : ZsState) (page : Page) (change : PageStruct → PageStruct) : ZsState :=
  { state with pages := Function.update state.pages page (change (state.pages page)) }

def ZsState.setClass (state : ZsState) (classIdx : Nat) (sizeClass : SizeClass) : ZsState :=
  { state with sizeClass := Function.update state.sizeClass classIdx sizeClass }

def ZsState.setMemory (state : ZsState) (memory : Memory Page) : ZsState := { state with kernel := { state.kernel with memory := memory } }

def isFirstPage (page : PageStruct) : Bool := page.pgPrivate
def isLastPage (page : PageStruct) : Bool := page.pgPrivate2

def getZspageMapping (page : PageStruct) : Nat × FullnessGroup :=
  ((page.mapping >>> fullnessBits) &&& (2 ^ classIdxBits - 1), .decode (page.mapping &&& (2 ^ fullnessBits - 1)))

def setZspageMapping (page : PageStruct) (classIdx : Nat) (fullness : FullnessGroup) : PageStruct :=
  { page with mapping := ((classIdx &&& (2 ^ classIdxBits - 1)) <<< fullnessBits) ||| (fullness.toNat &&& (2 ^ fullnessBits - 1)) }

def getSizeClassIndex (size : Nat) : Nat :=
  if zsMinAllocSize < size then (size - zsMinAllocSize + zsSizeClassDelta - 1) / zsSizeClassDelta else 0

def getFullnessGroup (page : PageStruct) : FullnessGroup :=
  if page.inuse = 0 then .empty
  else if page.inuse = page.objects then .full
  else if page.inuse ≤ page.objects / fullnessThresholdFrac then .almostEmpty
  else .almostFull

/-- `list_add_tail` puts the page behind the last one of the circle, in front of the old head. -/
def insertZspage (page : Page) (sizeClass : SizeClass) (fullness : FullnessGroup) : SizeClass :=
  if FullnessGroup.nr.toNat ≤ fullness.toNat then sizeClass
  else { sizeClass with fullnessList := Function.update sizeClass.fullnessList fullness (page :: sizeClass.fullnessList fullness) }

/-- `none` is the `BUG_ON(!*head)`. -/
def removeZspage (page : Page) (sizeClass : SizeClass) (fullness : FullnessGroup) : Option SizeClass :=
  if FullnessGroup.nr.toNat ≤ fullness.toNat then some sizeClass
  else match sizeClass.fullnessList fullness with
    | [] => none
    | [_] => some { sizeClass with fullnessList := Function.update sizeClass.fullnessList fullness [] }
    | list => some { sizeClass with fullnessList := Function.update sizeClass.fullnessList fullness (list.erase page) }

/-- `none` is a `BUG_ON`. -/
def fixFullnessGroup (state : ZsState) (page : Page) : Option (ZsState × FullnessGroup) :=
  if ¬ isFirstPage (state.pages page) then none
  else
    let (classIdx, currfg) := getZspageMapping (state.pages page)
    let newfg := getFullnessGroup (state.pages page)
    if newfg = currfg then some (state, newfg)
    else (removeZspage page (state.sizeClass classIdx) currfg).map fun sizeClass =>
      ((state.setClass classIdx (insertZspage page sizeClass newfg)).modifyPage page fun page =>
        setZspageMapping page classIdx newfg, newfg)

/-- The loop of `get_zspage_order`, from order `i` on. -/
def zspageOrderFrom (classSize : Nat) : (left i maxUsedpc maxUsedpcOrder : Nat) → Nat
  | 0, _, _, order => order
  | left + 1, i, maxUsedpc, order =>
    let zspageSize := i * pageSize
    let usedpc := (zspageSize - zspageSize % classSize) * 100 / zspageSize
    if maxUsedpc < usedpc then zspageOrderFrom classSize left (i + 1) usedpc i else zspageOrderFrom classSize left (i + 1) maxUsedpc order

def getZspageOrder (classSize : Nat) : Nat := zspageOrderFrom classSize maxZspageOrder 1 0 1

def getFirstPage (state : ZsState) (page : Page) : Page := if isFirstPage (state.pages page) then page else (state.pages page).privateWord

def getNextPage (state : ZsState) (page : Page) : Page :=
  if isLastPage (state.pages page) then noPage
  else if isFirstPage (state.pages page) then (state.pages page).privateWord
  else (state.pages page).lruNext

/-- A kernel with sparse memory, whose physical addresses have so many bits. -/
class Sparse [Arch] where
  maxPhysmemBits : Nat
  supported : (bitsPerLong, maxPhysmemBits) ∈ [(32, 32), (32, 36), (64, 46)]

export Sparse (maxPhysmemBits)

section Handles
variable [Arch] [Sparse]

def pfnBits : Nat := maxPhysmemBits - pageShift
def objIndexBits : Nat := bitsPerLong - pfnBits

/-- The `BUG_ON` is left out: with no page, the index is always 0. -/
def objLocationToHandle (page : Page) (objIdx : Nat) : Nat :=
  if page = noPage then 0 else (page <<< objIndexBits) % 2 ^ bitsPerLong ||| (objIdx &&& (2 ^ objIndexBits - 1))

def objHandleToLocation (handle : Nat) : Page × Nat := (handle >>> objIndexBits, handle &&& (2 ^ objIndexBits - 1))

def objIdxToOffset (page : PageStruct) (objIdx classSize : Nat) : Nat :=
  (if isFirstPage page then 0 else page.freelist) + objIdx * classSize

/-- `sizeof(struct link_free)`. -/
def linkBytes : Nat := bitsPerLong / 8

/-- The loop of `init_zspage` over the objects of one page. What is left of `off` and
`link` behind it, and the memory. -/
def linkObjects (page : Page) (size : Nat) : (left i off link : Nat) → Memory Page → Nat × Nat × Memory Page
  | 0, _, off, link, memory => (off, link, memory)
  | left + 1, i, off, link, memory =>
    if off + size < pageSize then
      linkObjects page size left (i + 1) (off + size) (link + size / linkBytes * linkBytes)
        (memory.store page link linkBytes (objLocationToHandle page i))
    else linkObjects page size left (i + 1) (off + size) link memory

/-- The loop of `init_zspage` over the pages, for as many turns as there is fuel. -/
def initPages (firstPage size : Nat) : (fuel : Nat) → (page off : Nat) → ZsState → Option ZsState
  | 0, page, _, state => if page = noPage then some state else none
  | fuel + 1, page, off, state =>
    if page = noPage then some state
    else
      let state := if page = firstPage then state else state.modifyPage page fun page => { page with freelist := off }
      let (last, link, memory) := linkObjects page size ((pageSize - off) / size) 1 off (off / linkBytes * linkBytes) state.kernel.memory
      let nextPage := getNextPage state page
      initPages firstPage size fuel nextPage ((last + size) % pageSize)
        (state.setMemory (memory.store page link linkBytes (objLocationToHandle nextPage 0)))

def initZspage (state : ZsState) (firstPage : Page) (sizeClass : SizeClass) : Option ZsState :=
  if ¬ isFirstPage (state.pages firstPage) then none
  else initPages firstPage sizeClass.size sizeClass.zspageOrder firstPage 0 state

/-- A page allocator asked for memory of the machine, and what it leaves in the `struct page`. -/
structure SparseAllocator where
  pages : PageAllocator
  physical : ∀ {owned fresh}, pages.pick owned = some fresh → fresh.page < 2 ^ pfnBits
  left : PageStruct

/-- `alloc_page` hands out pages with their flags and `private` cleared. -/
def ZsState.allocPage (state : ZsState) (allocator : SparseAllocator) : Option (Page × ZsState) :=
  (state.kernel.allocPage allocator.pages).map fun (page, kernel) =>
    (page, { state with
      kernel := kernel
      pages := Function.update state.pages page { allocator.left with pgPrivate := false, pgPrivate2 := false, privateWord := 0 } })

/-- Only the first page is given back: the loop over the others takes its cursor for
its head, and ends before its first turn. -/
def freeZspage (state : ZsState) (firstPage : Page) : Option ZsState :=
  if ¬ isFirstPage (state.pages firstPage) ∨ (state.pages firstPage).inuse ≠ 0 then none
  else
    let cleared := state.modifyPage firstPage fun page =>
      { page with pgPrivate := false, pgPrivate2 := false, privateWord := 0, mapping := 0, freelist := 0 }
    (cleared.kernel.freePage firstPage).map fun kernel => { cleared with kernel }

/-- What turn `i` of the loop of `alloc_zspage` does to the page it has got. -/
def ZsState.linkPage (state : ZsState) (order i : Nat) (firstPage prevPage page : Page) : ZsState :=
  let state := state.modifyPage page fun page' => { page' with lruNext := page }
  let state := if i = 0 then state.modifyPage page fun page => { page with pgPrivate := true, privateWord := 0 } else state
  let state := if i = 1 then state.modifyPage firstPage fun first => { first with privateWord := page } else state
  let state := if 1 ≤ i then state.modifyPage page fun page => { page with privateWord := firstPage } else state
  let state := if 2 ≤ i then
      (state.modifyPage page fun page => { page with lruNext := (state.pages prevPage).lruNext }).modifyPage prevPage fun prev =>
        { prev with lruNext := page }
    else state
  if i = order - 1 then state.modifyPage page fun page => { page with pgPrivate2 := true } else state

/-- The loop of `alloc_zspage`, and whether it got all its pages. -/
def allocPages (order : Nat) (allocators : Nat → SparseAllocator) : (left i : Nat) → (firstPage prevPage : Page) → ZsState →
    Bool × Page × ZsState
  | 0, _, firstPage, _, state => (true, firstPage, state)
  | left + 1, i, firstPage, prevPage, state =>
    match state.allocPage (allocators i) with
    | none => (false, firstPage, state)
    | some (page, state) =>
      let firstPage := if i = 0 then page else firstPage
      allocPages order allocators left (i + 1) firstPage page (state.linkPage order i firstPage prevPage page)

/-- `none` is a `BUG_ON`. The page returned is NULL when there was no memory for the first one. -/
def allocZspage (state : ZsState) (sizeClass : SizeClass) (allocators : Nat → SparseAllocator) : Option (Page × ZsState) :=
  match allocPages sizeClass.zspageOrder allocators sizeClass.zspageOrder 0 noPage noPage state with
  | (false, firstPage, state) =>
    if firstPage = noPage then some (noPage, state) else (freeZspage state firstPage).map fun state => (firstPage, state)
  | (true, firstPage, state) => (initZspage state firstPage sizeClass).map fun state =>
      (firstPage, state.modifyPage firstPage fun page => { page with
        freelist := objLocationToHandle firstPage 0, inuse := 0, objects := sizeClass.zspageOrder * pageSize / sizeClass.size })

/-- The first zspage of the first list that has one. -/
def findGetZspage (sizeClass : SizeClass) : Option Page :=
  (sizeClass.fullnessList .almostFull ++ sizeClass.fullnessList .almostEmpty).head?

def SizeClass.create (i : Nat) : SizeClass :=
  let size := min (zsMinAllocSize + i * zsSizeClassDelta) zsMaxAllocSize
  ⟨size, i, getZspageOrder size, 0, fun _ => []⟩

/-- A state behind `zs_create_pool`. -/
def ZsState.create (kernel : Kernel) (pages : Page → PageStruct) : ZsState := ⟨kernel, pages, SizeClass.create⟩

def poisonInuse : UInt8 := 0x5a

/-- `zs_malloc` from the point where it has a zspage and the lock of its class. -/
def takeObject (state : ZsState) (classIdx : Nat) (firstPage : Page) : Option (ZsState × Nat) :=
  let obj := (state.pages firstPage).freelist
  let (page, objIdx) := objHandleToLocation obj
  let offset := objIdxToOffset (state.pages page) objIdx (state.sizeClass classIdx).size
  let link := offset / linkBytes * linkBytes
  let next := state.kernel.memory.load page link linkBytes
  let poisoned := state.setMemory (state.kernel.memory.write page link (List.replicate linkBytes poisonInuse))
  let taken := poisoned.modifyPage firstPage fun page => { page with freelist := next, inuse := (page.inuse + 1) % 2 ^ 16 }
  (fixFullnessGroup taken firstPage).map fun (fixed, _) => (fixed, obj)

/-- What a section of `zs_malloc` under the lock of its class comes to. -/
inductive Malloc
  | null
  | object (handle : Nat)
  | grow (classIdx : Nat)

/-- `zs_malloc` up to where it gives up the lock for the first time. -/
def zsMalloc (state : ZsState) (size : Nat) : Option (ZsState × Malloc) :=
  if size = 0 ∨ zsMaxAllocSize < size then some (state, .null)
  else
    let classIdx := getSizeClassIndex size
    if classIdx ≠ (state.sizeClass classIdx).index then none
    else match findGetZspage (state.sizeClass classIdx) with
      | none => some (state, .grow classIdx)
      | some firstPage => (takeObject state classIdx firstPage).map fun (state, handle) => (state, .object handle)

/-- `zs_malloc` without the lock: it makes a new zspage, NULL when there is no memory. -/
def growClass (state : ZsState) (classIdx : Nat) (allocators : Nat → SparseAllocator) : Option (Page × ZsState) :=
  (allocZspage state (state.sizeClass classIdx) allocators).bind fun (firstPage, state) =>
    if firstPage = noPage then some (noPage, state)
    else if ¬ isFirstPage (state.pages firstPage) then none
    else some (firstPage, state.modifyPage firstPage fun page => setZspageMapping page (state.sizeClass classIdx).index .empty)

/-- `zs_malloc` from where it takes the lock again, with the new zspage. -/
def attachZspage (state : ZsState) (classIdx : Nat) (firstPage : Page) : Option (ZsState × Nat) :=
  let sizeClass := state.sizeClass classIdx
  takeObject (state.setClass classIdx { sizeClass with pagesAllocated := sizeClass.pagesAllocated + sizeClass.zspageOrder }) classIdx
    firstPage

/-- `zs_free` up to where it gives up the lock; and when it has a zspage to free then, its
class and its first page. -/
def zsFree (state : ZsState) (obj : Nat) : Option (ZsState × Option (Nat × Page)) :=
  if obj = 0 then some (state, none)
  else
    let (page, objIdx) := objHandleToLocation obj
    let firstPage := getFirstPage state page
    if ¬ isFirstPage (state.pages firstPage) then none
    else
      let (classIdx, _) := getZspageMapping (state.pages firstPage)
      let offset := objIdxToOffset (state.pages page) objIdx (state.sizeClass classIdx).size
      let linked := state.setMemory (state.kernel.memory.store page offset linkBytes (state.pages firstPage).freelist)
      let given := linked.modifyPage firstPage fun page => { page with freelist := obj, inuse := (page.inuse + 2 ^ 16 - 1) % 2 ^ 16 }
      (fixFullnessGroup given firstPage).map fun (fixed, fullness) =>
        if fullness = .empty then
          let sizeClass := fixed.sizeClass classIdx
          (fixed.setClass classIdx { sizeClass with pagesAllocated := sizeClass.pagesAllocated - sizeClass.zspageOrder },
            some (classIdx, firstPage))
        else (fixed, none)

/-- `zs_map_object`: the pages that are mapped one behind the other, and where the object
starts there. `none` is a `BUG_ON`. -/
def zsMapObject (state : ZsState) (handle : Nat) : Option (List Page × Nat) :=
  if handle = 0 then none
  else
    let (page, objIdx) := objHandleToLocation handle
    let firstPage := getFirstPage state page
    if ¬ isFirstPage (state.pages firstPage) then none
    else
      let (classIdx, _) := getZspageMapping (state.pages firstPage)
      let size := (state.sizeClass classIdx).size
      let offset := objIdxToOffset (state.pages page) objIdx size
      if offset + size ≤ pageSize then some ([page], offset)
      else
        let nextPage := getNextPage state page
        if nextPage = noPage then none else some ([page, nextPage], offset)

def zsGetTotalSizeBytes (state : ZsState) : Nat :=
  (((List.range zsSizeClasses).map fun i => (state.sizeClass i).pagesAllocated).sum <<< pageShift) % 2 ^ 64

end Handles
end Compcache.Zsmalloc
