import Compcache.Proofs.ZramConcurrent

/-! First use by several writers at once. Each section under the init lock is one
step. A caller whose section failed drops the lock before it resets the device,
so another may have initialised it meanwhile. -/

namespace Compcache.ZramDrv
open Library.PagedMemory Library.Runs Library.Parties Xvmalloc

section Boot
variable [Arch]

/-- Where a caller of `zram_init_device` stands: it has found the device not
initialised, its section has failed and it is about to reset, or it is back. -/
inductive Caller
  | entering
  | failing (ret : Int)
  | returned (ret : Int)
  deriving DecidableEq

/-- A device, the requests on its pages, and the callers that initialise it. -/
structure Boot where
  machine : Machine
  callers : AList fun _ : Nat => Caller

inductive BootAction
  | check (caller : Nat)
  | initialise (caller : Nat) (allocations : InitAllocations)
  | cleanup (caller : Nat)
  | device (action : Action)
  | userReset

def Boot.zram (boot : Boot) : Zram := boot.machine.zram

def Boot.withZram (boot : Boot) (zram : Zram) : Boot := { boot with machine := { boot.machine with zram } }

def Boot.moved (boot : Boot) (caller : Nat) (phase : Caller) : Boot := { boot with callers := boot.callers.insert caller phase }

/-- `none` when the action is not enabled, and when the kernel oopses. -/
def Boot.step (lzo : Lzo) (boot : Boot) : BootAction → Option Boot
  | .check caller =>
    if (boot.callers.lookup caller).isNone ∧ boot.zram.initDone = false then some (boot.moved caller .entering) else none
  | .initialise caller allocations =>
    if boot.callers.lookup caller = some .entering then
      let result := initSection boot.zram allocations
      some ((boot.withZram result.1).moved caller (if result.2 = 0 then .returned 0 else .failing result.2))
    else none
  | .cleanup caller =>
    match boot.callers.lookup caller with
    | some (.failing ret) => (zramResetDevice boot.zram).map fun zram => (boot.withZram zram).moved caller (.returned ret)
    | _ => none
  | .device action => (boot.machine.step lzo action).map fun machine => { boot with machine }
  | .userReset => (resetStore boot.zram).map boot.withZram

/-- Nobody resets the device. -/
def BootAction.Unforced : BootAction → Prop
  | userReset => False
  | _ => True

/-- A caller that failed comes to reset a device that is still not initialised. -/
def Boot.Harmless (boot : Boot) : BootAction → Prop
  | .cleanup _ => boot.zram.initDone = false
  | _ => True

section Steps
variable {lzo : Lzo} {boot before after final : Boot} {action : BootAction} {caller : Nat} {allocations : InitAllocations} {zram : Zram}

theorem initSection_zero (success : (initSection zram allocations).2 = 0) : (initSection zram allocations).1.initDone = true := by
  cases ready : zram.initDone with
  | true =>
    have unchanged : initSection zram allocations = (zram, 0) := if_pos ready
    rw [unchanged, ready]
  | false =>
    have ended := initSection_end ready allocations
    generalize initSection zram allocations = result at ended success
    cases ended with
    | done xv table stats disksize initDone tableAddress => exact initDone
    | failed xv table stats error => exact absurd success error

theorem initSection_done (ready : zram.initDone = true) : initSection zram allocations = (zram, 0) := if_pos ready

theorem Boot.initialised (taken : before.step lzo (.initialise caller allocations) = some after)
    (success : after.callers.lookup caller = some (.returned 0)) : after.zram.initDone = true := by
  simp only [Boot.step] at taken
  split at taken
  next =>
    cases taken
    rw [Boot.moved, AList.lookup_insert, Option.some.injEq] at success
    split at success
    next zero => exact initSection_zero zero
    next => cases success
  next => cases taken

/-- The step lemma: an initialised device keeps its table. -/
theorem Boot.step_ready (ready : before.zram.initDone = true) (unforced : action.Unforced) (harmless : before.Harmless action)
    (taken : before.step lzo action = some after) : after.zram.initDone = true ∧ after.zram.tableAddress = before.zram.tableAddress := by
  cases action with
  | check caller =>
    have refused : before.step lzo (.check caller) = none := if_neg fun allowed => by simp [ready] at allowed
    rw [refused] at taken
    cases taken
  | initialise caller allocations =>
    simp only [Boot.step, initSection_done ready] at taken
    split at taken
    next =>
      cases taken
      exact ⟨ready, rfl⟩
    next => cases taken
  | cleanup caller =>
    rw [show before.zram.initDone = false from harmless] at ready
    cases ready
  | device action =>
    obtain ⟨machine, moved, rfl⟩ := Option.map_eq_some_iff.mp taken
    have same := Machine.step_same moved
    exact ⟨same.initDone.trans ready, same.tableAddress⟩
  | userReset => cases unforced

/-- Once a call has returned 0 the device stays initialised, with the same
table, unless a caller that failed comes to reset it after that. -/
theorem harmless_initialised (taken : before.step lzo (.initialise caller allocations) = some after)
    (success : after.callers.lookup caller = some (.returned 0))
    (run : Run (Boot.step lzo) (fun boot action => action.Unforced ∧ boot.Harmless action) after final) :
    final.zram.initDone = true ∧ final.zram.tableAddress = after.zram.tableAddress := by
  refine run.invariant (fun boot => boot.zram.initDone = true ∧ boot.zram.tableAddress = after.zram.tableAddress)
    ⟨Boot.initialised taken success, rfl⟩ ?_
  rintro middle next action ⟨ready, same⟩ ⟨unforced, harmless⟩ moved
  obtain ⟨still, table⟩ := Boot.step_ready ready unforced harmless moved
  exact ⟨still, table.trans same⟩

end Steps
end Boot

section Sample
local instance sampleCallers : Arch := Arch.x64

/-- A device of two pages that nobody has used yet, and two callers at its door. -/
def twoCallers : Boot := ⟨⟨sampleDisk.zram, ∅⟩, (AList.insert 1 Caller.entering ∅).insert 2 .entering⟩

def starved : InitAllocations := { granted with workmem := 0 }

theorem twoCallers_reached : Run (Boot.step Lzo.literal) (fun _ action => action.Unforced) ⟨⟨sampleDisk.zram, ∅⟩, ∅⟩ twoCallers := by
  have first : Run (Boot.step Lzo.literal) (fun _ action => action.Unforced) ⟨⟨sampleDisk.zram, ∅⟩, ∅⟩ ⟨⟨sampleDisk.zram, ∅⟩,
      AList.insert 1 Caller.entering ∅⟩ :=
    .step .start (show BootAction.Unforced (.check 1) from trivial) rfl
  exact first.step (show BootAction.Unforced (.check 2) from trivial) rfl

/-- The first caller has failed and is about to reset. -/
def firstFailed : Boot := ⟨⟨(initSection sampleDisk.zram starved).1, ∅⟩, twoCallers.callers.insert 1 (.failing (-enomem))⟩

/-- The second has initialised the device all the same. -/
def secondDone : Boot := ⟨⟨(initSection firstFailed.zram granted).1, ∅⟩, firstFailed.callers.insert 2 (.returned 0)⟩

theorem harmless_initialised_sample : ∃ final, Boot.step Lzo.literal secondDone (.device (.start 7 (.write 0 [] granted))) = some final ∧
    final.zram.initDone = true ∧ final.zram.tableAddress = secondDone.zram.tableAddress := by
  have initialised : firstFailed.step Lzo.literal (.initialise 2 granted) = some secondDone := rfl
  have written : Run (Boot.step Lzo.literal) (fun boot action => action.Unforced ∧ boot.Harmless action) secondDone _ :=
    .step .start (show BootAction.Unforced (.device (.start 7 (.write 0 [] granted))) ∧ _ from ⟨trivial, trivial⟩) rfl
  exact ⟨_, rfl, harmless_initialised initialised rfl written⟩

/-- The first caller fails, the second initialises the device and is told so, and
then the first tears the device down. -/
theorem callers_collide : ∃ before after final, Run (Boot.step Lzo.literal)
    (fun _ action => action.Unforced) ⟨⟨sampleDisk.zram, ∅⟩, ∅⟩ before ∧
    Boot.step Lzo.literal before (.initialise 2 granted) = some after ∧ after.callers.lookup 2 = some (.returned 0) ∧
    Run (Boot.step Lzo.literal) (fun _ action => action.Unforced) after final ∧
    final.zram.initDone = false ∧ final.zram.tableAddress ≠ after.zram.tableAddress := by
  have failed : Run (Boot.step Lzo.literal) (fun _ action => action.Unforced) ⟨⟨sampleDisk.zram, ∅⟩, ∅⟩ firstFailed :=
    twoCallers_reached.step (show BootAction.Unforced (.initialise 1 starved) from trivial) rfl
  have torn : Run (Boot.step Lzo.literal) (fun _ action => action.Unforced) secondDone _ :=
    .step .start (show BootAction.Unforced (.cleanup 1) from trivial) rfl
  exact ⟨firstFailed, secondDone, _, failed, rfl, rfl, torn, rfl, by decide⟩

end Sample
end Compcache.ZramDrv
