import Compcache.Library.PerCpu
import Compcache.Library.Runs

/-! The two readers of counters kept for each CPU, `zcache_get_stat` and the
`zram_get_stat` of zram_scale, on a 32-bit machine with several CPUs: a counter may
be in the middle of an update when it is read, and is read again then. -/

namespace Compcache.StatReaders
open Library.PerCpu Library.Runs

/-- One counter of a CPU, and the sequence count of `u64_stats_sync` beside it, which
is odd during an update. -/
structure Cell where
  sequence : Nat
  count : Int

/-- What `zcache_add_stat` and `zram_add_stat` do on their CPU. -/
inductive Update
  | begin
  | add (value : Int)
  | finish

def Cell.step (cell : Cell) : Update → Option Cell
  | .begin => if cell.sequence % 2 = 0 then some { cell with sequence := cell.sequence + 1 } else none
  | .add value => if cell.sequence % 2 = 1 then some { cell with count := wrap64 (cell.count + value) } else none
  | .finish => if cell.sequence % 2 = 1 then some { cell with sequence := cell.sequence + 1 } else none

/-- One turn of the loop of a reader: the sequence count that `u64_stats_fetch_begin`
returned, the counter, and the sequence count that `u64_stats_fetch_retry` found. -/
structure Attempt where
  start : Nat
  count : Int
  found : Nat
  deriving DecidableEq

def fetchRetry (attempt : Attempt) : Bool := attempt.found ≠ attempt.start

/-- A turn of the loop while a CPU updates its counter. What is read of a counter in
the middle of an update may be anything. -/
def Attempt.Seen (attempt : Attempt) (before after : Cell) : Prop :=
  ∃ first middle, AnyRun Cell.step before first ∧ first.sequence % 2 = 0 ∧ attempt.start = first.sequence ∧
    AnyRun Cell.step first middle ∧ (middle.sequence % 2 = 0 → attempt.count = middle.count) ∧
    AnyRun Cell.step middle after ∧ attempt.found = after.sequence

/-- The loop of `zcache_get_stat` on one CPU; `none` while it is not over. -/
def zcacheFetch (val : Int) : List Attempt → Option Int
  | [] => none
  | attempt :: rest =>
    let val := wrap64 (val + attempt.count)
    if fetchRetry attempt then zcacheFetch val rest else some val

/-- `zcache_get_stat`; `none` is its BUG_ON too. -/
def zcacheGetStat (history : List (List Attempt)) : Option Nat :=
  (history.foldlM zcacheFetch 0).bind fun val => if val < 0 then none else some val.toNat

/-- The loop of `zram_get_stat` on one CPU, which leaves the counter in `temp`. -/
def zramFetch : List Attempt → Option Int
  | [] => none
  | attempt :: rest => if fetchRetry attempt then zramFetch rest else some attempt.count

/-- `zram_get_stat`. It only warns of a negative sum. -/
def zramGetStat (history : List (List Attempt)) : Option Nat :=
  (history.foldlM (fun val attempts => (zramFetch attempts).map fun temp => wrap64 (val + temp)) 0).map fun val => (val % 2 ^ 64).toNat

end Compcache.StatReaders
