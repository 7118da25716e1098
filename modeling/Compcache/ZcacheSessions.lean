import Compcache.Library.Runs
import Compcache.Zcache

/-! A pool used by one operation after the other, each run to its end before the
next one starts. -/

namespace Compcache.Zcache
open Library Library.Runs

variable [Arch] {cpus : Nat}

/-- A step of the task that runs, with nobody else in between. -/
def Progress.step (lzo : Lzo) (task : Nat) (progress : Progress cpus) (cpu : Fin cpus) : Option (Progress cpus) :=
  progress.pool.advance lzo task cpu progress.held progress.code

/-- One operation, and the CPU each of its steps is taken on. -/
structure Turn (cpus : Nat) where
  op : Op
  schedule : List (Fin cpus)

/-- A pool between two operations, and what those so far returned. -/
structure Session (cpus : Nat) where
  pool : Pool cpus
  history : List (Op × Reply)

def Session.create (kernel : Kernel) (memlimit : Nat) : Session cpus := ⟨Pool.create kernel memlimit, []⟩

/-- `none` when the operation is not at its end behind the last step, and when it does
not get that far. -/
def Session.step (lzo : Lzo) (session : Session cpus) (turn : Turn cpus) : Option (Session cpus) :=
  (steps (Progress.step lzo 0) ⟨session.pool, [], turn.op.code lzo⟩ turn.schedule).bind fun final =>
    match final.code with
    | .done reply => some ⟨final.pool, session.history ++ [(turn.op, reply)]⟩
    | _ => none

end Compcache.Zcache
