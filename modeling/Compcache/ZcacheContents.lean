import Compcache.Library.NestedMap
import Compcache.Zcache

/-! What a pool of zcache is for: it keeps clean pages of files by inode number and
index, as many as its limit allows, and gives each back at most once. -/

namespace Compcache.Zcache
open Library

/-- The pages a pool keeps, by inode number and index, and its limit. -/
structure Store where
  contents : NestedMap PageData
  memlimit : Nat

/-- What a page adds to a counter. -/
def PageData.counts (lzo : Lzo) (data : PageData) : Stat → Int
  | .pagesZero => if pageZeroFilled data then 1 else 0
  | .pagesStored => if pageZeroFilled data then 0 else 1
  | .comprSize => if pageZeroFilled data then 0 else ((lzo.compress data).elim 0 List.length : Nat)

/-- What `zcache_count_excess_pages` comes to, the counts in 32 bits. -/
def excessPages (memlimit stored : Nat) : Nat := stored % 2 ^ 32 - memlimit / pageSize % 2 ^ 32

namespace Store

def lookup (store : Store) (inodeNo index : Nat) : Option PageData := store.contents.lookup inodeNo index

def count (lzo : Lzo) (store : Store) (stat : Stat) : Int := store.contents.total fun data => PageData.counts lzo data stat

/-- The pages that are not full of zeros, in the order of inode number and index. -/
def nonzero (store : Store) : List (Nat × Nat) := NestedMap.listed (fun data => !pageZeroFilled data) store.contents.entries

/-- One page is changed, and nothing else. -/
def Sets (before after : Store) (inodeNo index : Nat) (page : Option PageData) : Prop :=
  ∀ other second, after.lookup other second = if other = inodeNo ∧ second = index then page else before.lookup other second

/-- The first pages that are not full of zeros go, as many as there are too many for a limit. -/
def Shrinks (before after : Store) (memlimit : Nat) : Prop :=
  ∀ other second, after.lookup other second =
    if (other, second) ∈ before.nonzero.take (excessPages memlimit before.nonzero.length) then none else before.lookup other second

/-- The pool has no room for one more page. -/
def Full (lzo : Lzo) (store : Store) : Prop := (store.memlimit : Int) < store.count lzo .comprSize + zcacheMaxPageSize

/-- What the operations may come to. -/
def Allows [Arch] (lzo : Lzo) (before : Store) (reply : Reply) (after : Store) : Op → Prop
  | .putPage filekey index data _ => reply = .returned ∧ after.memlimit = before.memlimit ∧
      if pageZeroFilled data then before.Sets after filekey.ino index (some data)
      else (before.Full lzo ∧ after.lookup = before.lookup) ∨
        (¬ before.Full lzo ∧
          ((before.Sets after filekey.ino index (some data) ∧ ∃ src ∈ lzo.compress data, src.length ≤ zcacheMaxPageSize) ∨
          before.Sets after filekey.ino index none))
  | .getPage filekey index page => reply = (before.lookup filekey.ino index).elim (.got (-efault) page) (.got 0) ∧
      after.memlimit = before.memlimit ∧ before.Sets after filekey.ino index none
  | .flushPage filekey index => reply = .returned ∧ after.memlimit = before.memlimit ∧ before.Sets after filekey.ino index none
  | .flushInode filekey => reply = .returned ∧ after.memlimit = before.memlimit ∧
      ∀ other second, after.lookup other second = if other = filekey.ino then none else before.lookup other second
  | .shrinkPool => reply = .returned ∧ after.memlimit = before.memlimit ∧ before.Shrinks after before.memlimit
  | .memlimitStore memlimit => reply = .returned ∧ after.memlimit = ZramDrv.andPageMask memlimit ∧ before.Shrinks after after.memlimit
  | .flushFs => reply = .returned ∧ after.memlimit = before.memlimit ∧ ∀ other second, after.lookup other second = none

end Store

variable [Arch]

/-- An operation, the pages it found, and what it returned. -/
structure Event where
  before : Store
  op : Op
  reply : Reply

def Event.told (event : Event) : Op × Reply := (event.op, event.reply)

/-- One operation after the other, each coming to what it may come to. -/
inductive Explains (lzo : Lzo) (memlimit : Nat) : List Event → Store → Prop
  | start : Explains lzo memlimit [] ⟨.empty, memlimit⟩
  | turn {events before after op reply} (earlier : Explains lzo memlimit events before) (allowed : before.Allows lzo reply after op) :
      Explains lzo memlimit (events ++ [⟨before, op, reply⟩]) after

/-- A put is refused when the page is not full of zeros and the pool is full. It leaves an
older copy of the page where it is. -/
def Event.Refused (lzo : Lzo) (event : Event) (data : PageData) : Prop := pageZeroFilled data = false ∧ event.before.Full lzo

/-- Behind this operation no older copy of the page is left. -/
def Event.Displaces (lzo : Lzo) (inodeNo index : Nat) (event : Event) : Prop :=
  match event.op with
  | .putPage filekey second data _ => (inodeNo = filekey.ino ∧ index = second) ∧ ¬ event.Refused lzo data
  | .getPage filekey second _ => inodeNo = filekey.ino ∧ index = second
  | .flushPage filekey second => inodeNo = filekey.ino ∧ index = second
  | .flushInode filekey => inodeNo = filekey.ino
  | .shrinkPool => (inodeNo, index) ∈ event.before.nonzero.take (excessPages event.before.memlimit event.before.nonzero.length)
  | .memlimitStore memlimit =>
      (inodeNo, index) ∈ event.before.nonzero.take (excessPages (ZramDrv.andPageMask memlimit) event.before.nonzero.length)
  | .flushFs => True

/-- The page was last put with this data, and nothing has displaced it since. -/
def Latest (lzo : Lzo) (events : List Event) (inodeNo index : Nat) (data : PageData) : Prop :=
  ∃ earlier put later filekey choices, events = earlier ++ put :: later ∧ put.op = .putPage filekey index data choices ∧
    filekey.ino = inodeNo ∧
    ¬ put.Refused lzo data ∧ ∀ event ∈ later, ¬ event.Displaces lzo inodeNo index

end Compcache.Zcache
