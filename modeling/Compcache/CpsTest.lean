import Compcache.Hashtable
import Compcache.Kernel

/-! `cps_test`: how much memory the pages in swap would need if pages of equal content
were kept once, compressed or not. -/

namespace Compcache.CpsTest
open Library Hashtable

def maxSwapSize : Nat := 1500 * 1024 * 1024
def maxTableSize : Nat := maxSwapSize / pageSize

variable [Arch]

abbrev Ulong := BitVec bitsPerLong

structure Stats where
  nrSwapPages : Ulong
  nrSwapPagesPs : Ulong
  memCompress : Ulong
  memCompressAndPs : Ulong

/-- The globals of the program, and its heap. -/
structure Cps where
  table : Nat → Option Nat
  heap : Heap
  stats : Stats

def Cps.create : Cps := ⟨fun _ => none, ⟨htCreate 16, .empty⟩, ⟨0, 0, 0, 0⟩⟩

/-- A length or a count as a `ulong`. -/
def ulong (value : UInt16) : Ulong := BitVec.ofNat bitsPerLong value.toNat

def initHashItem (clen : UInt16) (key : Key) : HashItem := ⟨⟨none, none⟩, key, clen, 1⟩

def getItem (heap : Heap) (item : Nat) : Option Heap :=
  (heap.items.find? item).map fun found => { heap with items := heap.items.insert item { found with count := found.count + 1 } }

/-- `free` of what is not allocated is `none`. -/
def free (heap : Heap) (item : Nat) : Option Heap := (heap.items.find? item).map fun _ => { heap with items := heap.items.erase item }

/-- Drop a reference; the last one frees the item. -/
def putItem (cps : Cps) (item : Nat) : Option Cps :=
  (cps.heap.items.find? item).bind fun found =>
    let count := found.count - 1
    let heap := { cps.heap with items := cps.heap.items.insert item { found with count } }
    if count = 0 then do
      let heap ← htRemoveItem heap item
      let heap ← free heap item
      some { cps with
        heap
        stats := { cps.stats with
          nrSwapPagesPs := cps.stats.nrSwapPagesPs - 1
          memCompressAndPs := cps.stats.memCompressAndPs - ulong found.compressLen } }
    else some { cps with heap }

/-- The loop of `free_table_entries`, over the indices left. -/
def putEntries (cps : Cps) : List Nat → Option Cps
  | [] => some cps
  | index :: rest => match cps.table index with
    | none => putEntries cps rest
    | some item => (putItem cps item).bind fun cps => putEntries cps rest

def freeTableEntries (cps : Cps) : Option Cps := putEntries cps (List.range' 1 (maxTableSize - 1))

/-- The part of `event_write` that removes the page already at the index. -/
def overwrite (cps : Cps) (index : Nat) : Option Cps :=
  match cps.table index with
  | none => some cps
  | some item => (cps.heap.items.find? item).bind fun found =>
      putItem { cps with stats := { cps.stats with
        nrSwapPages := cps.stats.nrSwapPages - 1
        memCompress := cps.stats.memCompress - ulong found.compressLen } } item

/-- The end of `event_write`, with the item of the page. -/
def fillSlot (cps : Cps) (index item : Nat) : Option Cps :=
  (cps.heap.items.find? item).map fun found =>
    { cps with
      table := Function.update cps.table index (some item)
      stats := { cps.stats with
        nrSwapPages := cps.stats.nrSwapPages + 1
        memCompress := cps.stats.memCompress + ulong found.compressLen } }

/-- A new item at the address `calloc` gave. -/
def insertItem (cps : Cps) (item : Nat) (len : Nat) (hash : Key) : Option Cps :=
  let made := initHashItem (UInt16.ofNat len) hash
  (htInsertItem { cps.heap with items := cps.heap.items.insert item made } item).map fun heap =>
    { cps with
      heap
      stats := { cps.stats with
        nrSwapPagesPs := cps.stats.nrSwapPagesPs + 1
        memCompressAndPs := cps.stats.memCompressAndPs + ulong made.compressLen } }

/-- `calloc` gives NULL or any address at which no item is. -/
def eventWrite (cps : Cps) (index len : Nat) (hash : Key) (calloc : Option Nat) : Option Cps := do
  let cps ← overwrite cps index
  match ← htFindItem cps.heap hash with
  | some item =>
    let heap ← getItem cps.heap item
    fillSlot { cps with heap } index item
  | none =>
    match calloc with
    | none => some cps
    | some item =>
      if (cps.heap.items.find? item).isSome then none
      else
        let cps ← insertItem cps item len hash
        fillSlot cps index item

/-- One event of the replay. -/
structure Event where
  index : Nat
  len : Nat
  hash : Key
  calloc : Option Nat

def Cps.step (cps : Cps) (event : Event) : Option Cps := eventWrite cps event.index event.len event.hash event.calloc

end Compcache.CpsTest
