import Compcache.Library.Runs
import Compcache.Library.Windows
import Compcache.Zsmalloc

/-! A pool of zsmalloc used by many tasks at once. A task takes one step for each section
under the lock of a class, and one for what it does between two of them. -/

namespace Compcache.Zsmalloc
open Library.PagedMemory Library.Runs Library.Windows

/-- What a task has in hand between two of its steps: nothing yet, a new zspage, or one
it has emptied. -/
inductive Stage
  | wanting (classIdx size : Nat)
  | holding (classIdx size : Nat) (firstPage : Page)
  | emptied (classIdx : Nat) (firstPage : Page)
  deriving DecidableEq

/-- The pool, the tasks that are at work, the size asked for of each object handed out
and not freed, and the classes of the zspages freed so far. -/
structure Machine where
  state : ZsState
  stages : Nat → Option Stage
  live : Nat → Option Nat
  released : List Nat

section Machine
variable [Arch] [Sparse]

/-- What a task may do. A `write` is a mapping, a copy and an unmapping in one, which they
are while no other object of the class is mapped: the address of a mapping is kept in the
class, and for an object on one page no lock is held. -/
inductive Action
  | malloc (task size : Nat)
  | grow (task : Nat) (allocators : Nat → SparseAllocator)
  | attach (task : Nat)
  | free (task handle : Nat)
  | release (task : Nat)
  | write (handle offset : Nat) (data : List UInt8)

def Machine.create (kernel : Kernel) (pages : Page → PageStruct) : Machine := ⟨.create kernel pages, fun _ => none, fun _ => none, []⟩

def Machine.setStage (machine : Machine) (task : Nat) (stage : Option Stage) : Machine :=
  { machine with stages := Function.update machine.stages task stage }

def Machine.setLive (machine : Machine) (handle : Nat) (size : Option Nat) : Machine :=
  { machine with live := Function.update machine.live handle size }

/-- `none` when the action is not one for the machine, and at a `BUG_ON`. -/
def Machine.step (machine : Machine) : Action → Option Machine
  | .malloc task size =>
    match machine.stages task with
    | none => (zsMalloc machine.state size).map fun (state, outcome) =>
        let after := { machine with state := state }
        match outcome with
        | .null => after
        | .object handle => after.setLive handle (some size)
        | .grow classIdx => after.setStage task (some (.wanting classIdx size))
    | _ => none
  | .grow task allocators =>
    match machine.stages task with
    | some (.wanting classIdx size) => (growClass machine.state classIdx allocators).map fun (firstPage, state) =>
        { machine with state := state }.setStage task (if firstPage = noPage then none else some (.holding classIdx size firstPage))
    | _ => none
  | .attach task =>
    match machine.stages task with
    | some (.holding classIdx size firstPage) => (attachZspage machine.state classIdx firstPage).map fun (state, handle) =>
        ({ machine with state := state }.setLive handle (some size)).setStage task none
    | _ => none
  | .free task handle =>
    match machine.stages task, machine.live handle with
    | none, some _ => (zsFree machine.state handle).map fun (state, emptied) =>
        ({ machine with state := state }.setLive handle none).setStage task (emptied.map fun (classIdx, firstPage) =>
          Stage.emptied classIdx firstPage)
    | _, _ => none
  | .release task =>
    match machine.stages task with
    | some (.emptied classIdx firstPage) => (freeZspage machine.state firstPage).map fun state =>
        { machine with state := state, released := classIdx :: machine.released }.setStage task none
    | _ => none
  | .write handle offset data =>
    match machine.live handle with
    | some size =>
      if offset + data.length ≤ size then (zsMapObject machine.state handle).map fun (window, start) =>
        { machine with state := machine.state.setMemory (writeWindow pageSize machine.state.kernel.memory window (start + offset) data) }
      else none
    | none => none

/-- The action is one for the machine. -/
def Machine.Ready (machine : Machine) : Action → Prop
  | .malloc task _ => machine.stages task = none
  | .grow task _ => ∃ classIdx size, machine.stages task = some (.wanting classIdx size)
  | .attach task => ∃ classIdx size firstPage, machine.stages task = some (.holding classIdx size firstPage)
  | .free task handle => machine.stages task = none ∧ ∃ size, machine.live handle = some size
  | .release task => ∃ classIdx firstPage, machine.stages task = some (.emptied classIdx firstPage)
  | .write handle offset data => ∃ size, machine.live handle = some size ∧ offset + data.length ≤ size

theorem Machine.ready_of_step {machine after : Machine} {action : Action} (taken : machine.step action = some after) :
    machine.Ready action := by
  cases action with
  | malloc task size =>
    simp only [step] at taken
    split at taken
    next idle => exact idle
    next => cases taken
  | grow task allocators =>
    simp only [step] at taken
    split at taken
    next classIdx size wanting => exact ⟨classIdx, size, wanting⟩
    next => cases taken
  | attach task =>
    simp only [step] at taken
    split at taken
    next classIdx size firstPage holding => exact ⟨classIdx, size, firstPage, holding⟩
    next => cases taken
  | free task handle =>
    simp only [step] at taken
    split at taken
    next size idle inUse => exact ⟨idle, size, inUse⟩
    next => cases taken
  | release task =>
    simp only [step] at taken
    split at taken
    next classIdx firstPage emptied => exact ⟨classIdx, firstPage, emptied⟩
    next => cases taken
  | write handle offset data =>
    simp only [step] at taken
    split at taken
    next size inUse =>
      split at taken
      next fits => exact ⟨size, inUse, fits⟩
      next => cases taken
    next => cases taken

/-- The task an action is taken by; any may write. -/
def Action.task : Action → Option Nat
  | .malloc task _ => some task
  | .grow task _ => some task
  | .attach task => some task
  | .free task _ => some task
  | .release task => some task
  | .write .. => none

theorem Machine.stages_of_step {machine after : Machine} {action : Action} {task : Nat} (taken : machine.step action = some after)
    (other : action.task ≠ some task) :
    after.stages task = machine.stages task := by
  have apart {another : Nat} {stage : Option Stage} {machine : Machine} (different : some another ≠ some task) :
      (machine.setStage another stage).stages task = machine.stages task :=
    Function.update_of_ne (fun same => different (congrArg some same.symm)) _ _
  cases action with
  | malloc another size =>
    simp only [step] at taken
    split at taken
    next =>
      obtain ⟨⟨state, outcome⟩, _, rfl⟩ := Option.map_eq_some_iff.mp taken
      cases outcome with
      | null | object => rfl
      | grow => exact apart other
    next => cases taken
  | grow another _ | free another _ =>
    simp only [step] at taken
    split at taken
    next =>
      obtain ⟨_, _, rfl⟩ := Option.map_eq_some_iff.mp taken
      exact apart other
    next => cases taken
  | attach another | release another =>
    simp only [step] at taken
    split at taken
    next =>
      obtain ⟨_, _, rfl⟩ := Option.map_eq_some_iff.mp taken
      exact apart other
    next => cases taken
  | write handle offset data =>
    simp only [step] at taken
    split at taken
    next =>
      split at taken
      next =>
        obtain ⟨_, _, rfl⟩ := Option.map_eq_some_iff.mp taken
        rfl
      next => cases taken
    next => cases taken

/-- The bytes a task finds at an object it maps. -/
def ZsState.read (state : ZsState) (handle count : Nat) : Option (List UInt8) :=
  (zsMapObject state handle).map fun (window, start) => readWindow pageSize state.kernel.memory window start count

/-- What a pool is for: the sizes its tasks have asked for and not got yet, and the bytes
of the objects handed out, by their handles. -/
structure Pool where
  asked : Nat → Option Nat
  bytes : Nat → Option (List UInt8)

/-- What an action may do to it. -/
inductive Pool.Does (pool : Pool) : Action → Pool → Prop
  | null {task size : Nat} (refused : size = 0 ∨ zsMaxAllocSize < size) : pool.Does (.malloc task size) pool
  | object {task size handle : Nat} {data : List UInt8} (proper : handle ≠ 0) (new : pool.bytes handle = none)
    (length : data.length = size) :
      pool.Does (.malloc task size) { pool with bytes := Function.update pool.bytes handle (some data) }
  | ask {task size : Nat} (idle : pool.asked task = none) :
    pool.Does (.malloc task size) { pool with asked := Function.update pool.asked task (some size) }
  | grow {task : Nat} {allocators : Nat → SparseAllocator} : pool.Does (.grow task allocators) pool
  | refuse {task : Nat} {allocators : Nat → SparseAllocator} :
      pool.Does (.grow task allocators) { pool with asked := Function.update pool.asked task none }
  | attach {task size handle : Nat} {data : List UInt8} (wanted : pool.asked task = some size) (proper : handle ≠ 0)
    (new : pool.bytes handle = none)
      (length : data.length = size) :
      pool.Does (.attach task) ⟨Function.update pool.asked task none, Function.update pool.bytes handle (some data)⟩
  | free {task handle : Nat} {data : List UInt8} (here : pool.bytes handle = some data) :
      pool.Does (.free task handle) { pool with bytes := Function.update pool.bytes handle none }
  | release {task : Nat} : pool.Does (.release task) pool
  | write {handle offset : Nat} {data written : List UInt8} (here : pool.bytes handle = some data)
    (fits : offset + written.length ≤ data.length) :
      pool.Does (.write handle offset written) { pool with bytes := Function.update pool.bytes handle (some (splice data offset written)) }

def Stage.size : Stage → Option Nat
  | wanting _ size => some size
  | holding _ size _ => some size
  | emptied _ _ => none

/-- The pool a machine stands for. -/
def Machine.pool (machine : Machine) : Pool where
  asked task := (machine.stages task).bind Stage.size
  bytes handle := (machine.live handle).bind (machine.state.read handle)

end Machine
end Compcache.Zsmalloc
