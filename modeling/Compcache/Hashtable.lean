import Compcache.Library.Chains
import Compcache.Library.SortedMap

/-! `sub-projects/lib`: the hash table of items under keys of 128 bits. Its buckets
are lists threaded through the items. -/

namespace Compcache.Hashtable
open Library Library.Chains

abbrev Key := UInt64 × UInt64

/-- The address of a `struct hlist_node *`: the first pointer of a bucket, or the
next pointer of an item. Items go by their addresses. -/
abbrev Place := Chains.Place Nat Nat

structure HlistNode where
  next : Option Nat
  pprev : Option Place

structure HashItem where
  head : HlistNode
  key : Key
  compressLen : UInt16
  count : UInt16

structure HashTable where
  order : Nat
  size : Nat
  countItems : UInt32
  table : Nat → Option Nat

/-- The table and the items that are allocated. -/
structure Heap where
  ht : HashTable
  items : SortedMap HashItem

/-! Accesses to memory. `none` is one outside the table or to an item that is not allocated. -/

def Heap.load (heap : Heap) : Place → Option (Option Nat)
  | .head bucket => if bucket < heap.ht.size then some (heap.ht.table bucket) else none
  | .next item => (heap.items.find? item).map fun found => found.head.next

def Heap.store (heap : Heap) (place : Place) (value : Option Nat) : Option Heap :=
  match place with
  | .head bucket =>
    if bucket < heap.ht.size then some { heap with ht := { heap.ht with table := Function.update heap.ht.table bucket value } } else none
  | .next item => (heap.items.find? item).map fun found =>
      { heap with items := heap.items.insert item { found with head := { found.head with next := value } } }

def Heap.setPprev (heap : Heap) (item : Nat) (value : Option Place) : Option Heap :=
  (heap.items.find? item).map fun found =>
    { heap with items := heap.items.insert item { found with head := { found.head with pprev := value } } }

/-- `first->pprev = &n->next` and the like, where the node may be NULL. -/
def Heap.backTo (heap : Heap) (node : Option Nat) (place : Place) : Option Heap :=
  match node with
  | none => some heap
  | some node => heap.setPprev node (some place)

def initHlistNode (heap : Heap) (node : Nat) : Option Heap := (heap.store (.next node) none).bind fun heap => heap.setPprev node none

def hlistDelInit (heap : Heap) (node : Nat) : Option Heap :=
  (heap.items.find? node).bind fun found =>
    match found.head.pprev with
    | none => some heap
    | some pprev => do
      let heap ← heap.store pprev found.head.next
      let heap ← heap.backTo found.head.next pprev
      initHlistNode heap node

def hlistAddHead (heap : Heap) (node bucket : Nat) : Option Heap := do
  let first ← heap.load (.head bucket)
  let heap ← heap.store (.next node) first
  let heap ← heap.backTo first (.next node)
  let heap ← heap.store (.head bucket) (some node)
  heap.setPprev node (some (.head bucket))

def hash64 (val : UInt64) (bits : Nat) : UInt64 :=
  let hash := val
  let n := hash
  let n := n <<< 18
  let hash := hash - n
  let n := n <<< 33
  let hash := hash - n
  let n := n <<< 3
  let hash := hash + n
  let n := n <<< 3
  let hash := hash - n
  let n := n <<< 4
  let hash := hash + n
  let n := n <<< 2
  let hash := hash + n
  hash >>> UInt64.ofNat (64 - bits)

def hash128 (val : Key) (bits : Nat) : UInt64 := (hash64 val.1 (bits / 2) <<< UInt64.ofNat (bits / 2)) + hash64 val.2 (bits / 2)

/-- The loop of `ht_find_key`. A list of more nodes than there are items has no end. -/
def findFrom (heap : Heap) (key : Key) : Nat → Option Nat → Option (Option Nat)
  | _, none => some none
  | 0, some _ => none
  | fuel + 1, some list => (heap.items.find? list).bind fun entry =>
      if entry.key = key then some (some list) else findFrom heap key fuel entry.head.next

def htFindKey (heap : Heap) (key : Key) : Option (Option Nat) :=
  (heap.load (.head (hash128 key heap.ht.order).toNat)).bind fun first => findFrom heap key heap.items.entries.length first

/-- The item, or none when there is none with that key. -/
def htFindItem (heap : Heap) (key : Key) : Option (Option Nat) := htFindKey heap key

def htInsertItem (heap : Heap) (item : Nat) : Option Heap :=
  (heap.items.find? item).bind fun found =>
    (hlistAddHead heap item (hash128 found.key heap.ht.order).toNat).map fun heap =>
      { heap with ht := { heap.ht with countItems := heap.ht.countItems + 1 } }

def htRemoveItem (heap : Heap) (item : Nat) : Option Heap :=
  (hlistDelInit heap item).map fun heap => { heap with ht := { heap.ht with countItems := heap.ht.countItems - 1 } }

/-- The table `ht_create` makes, once its memory is allocated. -/
def htCreate (order : Nat) : HashTable := ⟨order, 2 ^ order, 0, fun _ => none⟩

end Compcache.Hashtable
