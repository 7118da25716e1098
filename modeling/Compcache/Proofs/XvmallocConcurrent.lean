import Compcache.Library.Parties
import Compcache.Library.Runs
import Compcache.Proofs.XvmallocRuns

/-! Calls that interleave. Each section under the pool lock is one step, so a
call that has to grow the pool searches, grows and searches again in three
steps, and other calls may come in between. -/

namespace Compcache.Xvmalloc
open Library.PagedMemory Library.Runs Library.Parties

/-- Where a call of `xv_malloc` stands when it has dropped the lock. -/
inductive Phase
  | searched (size : Nat)
  | grown (size : Nat) (page : Page)
  deriving DecidableEq

def Phase.size : Phase → Nat
  | searched size => size
  | grown size _ => size

/-- Callers ask for at most what a compressed page may take. -/
def maxRequest : Nat := 3072

theorem top_serves {size : Nat} (small : size ≤ maxRequest) :
    getIndex (align size xvAlign) ≤ getIndexForInsert xvMaxAllocSize := by
  have rounded : align size xvAlign ≤ 4088 := by
    simp only [align, xvAlign, maxRequest] at *
    omega
  exact (getIndex_le_top (by simp only [xvMaxAllocSize_eq]; omega)).mpr rounded

section Machine
variable [Arch]

/-- A pool, the objects handed out, the calls of `xv_malloc` in progress, and the
number of calls that returned -ENOMEM although their own page was allocated. -/
structure Machine where
  state : XvState
  live : LiveObjects
  calls : AList fun _ : Nat => Phase
  denied : Nat

inductive Action
  | malloc (call size : Nat)
  | grow (call : Nat) (allocator : PageAllocator)
  | retry (call : Nat)
  | free (location : Location)

def Machine.serve (machine : Machine) (size : Nat) (result : MallocResult) : Machine :=
  { machine with state := result.state, live := Function.update machine.live result.location (some size) }

def Machine.step (machine : Machine) : Action → Option Machine
  | .malloc call size =>
    if (machine.calls.lookup call).isNone ∧ 1 ≤ size ∧ size ≤ maxRequest then
      match searchAndCarve machine.state size with
      | some result => some (machine.serve size result)
      | none => some { machine with calls := machine.calls.insert call (.searched size) }
    else none
  | .grow call allocator =>
    match machine.calls.lookup call with
    | some (.searched size) =>
      match machine.state.kernel.allocPage allocator with
      | none => some { machine with calls := machine.calls.erase call }
      | some (page, _) => (growPool machine.state allocator).map fun state =>
        { machine with state, calls := machine.calls.insert call (.grown size page) }
    | _ => none
  | .retry call =>
    match machine.calls.lookup call with
    | some (.grown size _) =>
      match searchAndCarve machine.state size with
      | some result => some { machine.serve size result with calls := machine.calls.erase call }
      | none => some { machine with calls := machine.calls.erase call, denied := machine.denied + 1 }
    | _ => none
  | .free location =>
    match machine.live location with
    | some _ => (xvFree machine.state location.page location.offset).map fun state =>
      { machine with state, live := Function.update machine.live location none }
    | none => none

/-- A new pool in a system where others own some pages. -/
def Machine.initial (others : Finset Page) (memory : Memory Page) : Machine :=
  ⟨⟨⟨memory, others⟩, xvCreatePool⟩, fun _ => none, ∅, 0⟩

/-- When a call searches again, some list that may serve is not empty; and
unless the page it added is in use or gone, that page is what the search comes to. -/
def Undisturbed (others : Finset Page) (machine : Machine) : Action → Prop
  | .retry call => ∀ size page, machine.calls.lookup call = some (.grown size page) →
    (∃ index, getIndex (align size xvAlign) ≤ index ∧ machine.state.pool.freelist index ≠ Location.null) ∧
      ((page ∈ machine.state.kernel.owned \ others → InUse machine.live page) ∨
        machine.state.pool.freelist (getIndexForInsert xvMaxAllocSize) = ⟨page, 0⟩ ∧
          ∀ index, getIndex (align size xvAlign) ≤ index → index < getIndexForInsert xvMaxAllocSize →
            machine.state.pool.freelist index = Location.null)
  | _ => True

/-- Every page of the pool is in use, or was added by a call that has not searched again yet. -/
structure Sound (others : Finset Page) (machine : Machine) (layout : Layout) (lists : Nat → List Location) : Prop where
  models : Models others machine.state machine.live layout lists
  pages : ∀ page ∈ layout.pages, InUse machine.live page ∨ ∃ call size, machine.calls.lookup call = some (.grown size page)
  sizes : ∀ {call phase}, machine.calls.lookup call = some phase → phase.size ≤ maxRequest
  denied : machine.denied = 0

section Steps
variable {others : Finset Page} {machine after : Machine} {layout : Layout} {lists : Nat → List Location}

theorem Models.searchAndCarve (models : Models others machine.state machine.live layout lists) (size : Nat) :
    Xvmalloc.searchAndCarve machine.state size = none ∧ (∀ index, getIndex (align size xvAlign) ≤ index → lists index = []) ∨
      ∃ index result changed newLists, Nearest lists (getIndex (align size xvAlign)) index ∧
        Xvmalloc.searchAndCarve machine.state size = some result ∧
        Models others (machine.serve size result).state (machine.serve size result).live changed newLists ∧
        changed.pages = layout.pages ∧ InUse (machine.serve size result).live (machine.state.pool.freelist index).page := by
  rcases searchAndCarve_spec models.heap size with missed | ⟨index, result, changed, newLists, nearest, found, met, samePages, samePage⟩
  · exact .inl missed
  · exact .inr ⟨index, result, changed, newLists, nearest, found, models.served met, samePages,
      result.location, size, Function.update_self .., samePage⟩

theorem initial_sound (others : Finset Page) (memory : Memory Page) :
    ∃ layout lists, Sound others (Machine.initial others memory) layout lists := by
  obtain ⟨layout, lists, models⟩ : ∃ layout lists, Models others (Machine.initial others memory).state (fun _ => none) layout lists :=
    models_create memory
  refine ⟨layout, lists, models, ?_, by simp [Machine.initial], rfl⟩
  intro page member
  have none : layout.pages = ∅ := by
    rw [← models.pages]
    exact Finset.sdiff_self _
  rw [none] at member
  cases member

theorem Sound.with_calls (sound : Sound others machine layout lists) {calls : AList fun _ : Nat => Phase}
    (kept : ∀ {holder size page}, machine.calls.lookup holder = some (.grown size page) → ∃ other, calls.lookup other =
      some (.grown size page))
    (sizes : ∀ {call phase}, calls.lookup call = some phase → phase.size ≤ maxRequest) :
    Sound others { machine with calls } layout lists where
  models := sound.models
  pages page member := (sound.pages page member).imp_right fun ⟨_, size, standing⟩ =>
    let ⟨other, found⟩ := kept standing
    ⟨other, size, found⟩
  sizes := sizes
  denied := sound.denied

theorem Sound.sizes_insert (sound : Sound others machine layout lists) {call other : Nat} {phase found : Phase}
    (small : phase.size ≤ maxRequest)
    (standing : (machine.calls.insert call phase).lookup other = some found) : found.size ≤ maxRequest :=
  forall_insert (fun phase => phase.size ≤ maxRequest) sound.sizes small standing

theorem Sound.sizes_erase (sound : Sound others machine layout lists) {call other : Nat} {found : Phase}
    (standing : (machine.calls.erase call).lookup other = some found) : found.size ≤ maxRequest :=
  forall_erase (fun phase => phase.size ≤ maxRequest) sound.sizes standing

theorem Sound.malloc (sound : Sound others machine layout lists) {call size : Nat} (taken : machine.step (.malloc call size) = some after) :
    ∃ changed newLists, Sound others after changed newLists := by
  simp only [Machine.step] at taken
  split at taken
  next allowed =>
    obtain ⟨idle, positive, small⟩ := allowed
    rcases sound.models.searchAndCarve size with ⟨missed, _⟩ | ⟨index, result, changed, newLists, nearest, found, models, samePages, used⟩
    · rw [missed] at taken
      cases taken
      refine ⟨layout, lists, sound.with_calls (fun {other _ _} standing => ⟨other, ?_⟩) (sound.sizes_insert small)⟩
      have elsewhere : other ≠ call := by
        rintro rfl
        rw [standing] at idle
        cases idle
      exact (AList.lookup_insert_ne elsewhere).trans standing
    · rw [found] at taken
      cases taken
      refine ⟨changed, newLists, models, ?_, sound.sizes, sound.denied⟩
      intro page member
      exact (sound.pages page (samePages ▸ member)).imp_left fun inUse => inUse.update _ _
  next => cases taken

theorem Sound.grow (sound : Sound others machine layout lists) {call : Nat} {allocator : PageAllocator}
    (taken : machine.step (.grow call allocator) = some after) : ∃ changed newLists, Sound others after changed newLists := by
  simp only [Machine.step] at taken
  split at taken
  next size standing =>
    have otherwise {other size' : Nat} {page : Page} (held : machine.calls.lookup other = some (.grown size' page)) : other ≠ call := by
      rintro rfl
      rw [standing] at held
      cases held
    split at taken
    next =>
      cases taken
      exact ⟨layout, lists, sound.with_calls (fun held => ⟨_, (AList.lookup_erase_ne (otherwise held)).trans held⟩) sound.sizes_erase⟩
    next page kernel offered =>
      obtain ⟨state, grown, rfl⟩ := Option.map_eq_some_iff.mp taken
      obtain ⟨own, fresh, newLists, ⟨unowned, same⟩, owned, heap, _⟩ := growPool_spec sound.models.heap grown
      obtain rfl : page = own := by simpa [offered] using same
      have models : Models others state machine.live (layout.addPage fresh) newLists :=
        sound.models.grown (addPage_objects fresh) (addPage_grows unowned owned) heap
      refine ⟨_, newLists, models, ?_, sound.sizes_insert (show size ≤ maxRequest from sound.sizes standing), sound.denied⟩
      intro other member
      rcases Finset.mem_insert.mp member with rfl | old
      · exact .inr ⟨call, size, AList.lookup_insert _⟩
      · refine (sound.pages other old).imp_right fun ⟨holder, size', held⟩ => ⟨holder, size', ?_⟩
        exact (AList.lookup_insert_ne (otherwise held)).trans held
  next => cases taken

theorem Sound.free (sound : Sound others machine layout lists) {location : Location} (taken : machine.step (.free location) = some after) :
    ∃ changed newLists, Sound others after changed newLists := by
  simp only [Machine.step] at taken
  split at taken
  next size allocated =>
    obtain ⟨state, freed, rfl⟩ := Option.map_eq_some_iff.mp taken
    obtain ⟨result, changed, newLists, same, release⟩ := sound.models.freed allocated
    obtain rfl : result = state := Option.some.inj (same.symm.trans freed)
    refine ⟨changed, newLists, sound.models.released allocated release, ?_, sound.sizes, sound.denied⟩
    intro page member
    obtain ⟨old, kept⟩ := sound.models.released_inUse allocated release member
    exact (sound.pages page old).imp_left kept
  next => cases taken

theorem Sound.retry (sound : Sound others machine layout lists) {call : Nat} (met : Undisturbed others machine (.retry call))
    (taken : machine.step (.retry call) = some after) : ∃ changed newLists, Sound others after changed newLists := by
  simp only [Machine.step] at taken
  split at taken
  next size page standing =>
    obtain ⟨⟨occupied, above, filled⟩, own⟩ := met size page standing
    have free := sound.models.heap.free
    rcases sound.models.searchAndCarve size with ⟨_, unlisted⟩ | ⟨index, result, changed, newLists, nearest, found, models, samePages, used⟩
    · exact absurd ((free.freelist_eq_null _).mpr (unlisted _ above)) filled
    · rw [found] at taken
      cases taken
      refine ⟨changed, newLists, models, ?_, sound.sizes_erase, sound.denied⟩
      intro other member
      rcases sound.pages other (samePages ▸ member) with inUse | ⟨holder, size', held⟩
      · exact .inl (inUse.update _ _)
      rcases Classical.em (holder = call) with rfl | elsewhere
      · obtain ⟨rfl, rfl⟩ : size = size' ∧ page = other := by simpa [standing] using held
        left
        rcases own with inUse | ⟨top, lower⟩
        · refine (inUse ?_).update _ _
          rw [sound.models.pages]
          exact samePages ▸ member
        · have reaches : getIndex (align size xvAlign) ≤ getIndexForInsert xvMaxAllocSize :=
            top_serves (sound.sizes standing)
          have present : lists (getIndexForInsert xvMaxAllocSize) ≠ [] := by
            rw [Ne, ← free.freelist_eq_null, top]
            exact fun null => (sound.models.heap.frames (samePages ▸ member)).1 (congrArg Location.page null)
          obtain rfl : index = getIndexForInsert xvMaxAllocSize := by
            rcases Nat.lt_trichotomy index (getIndexForInsert xvMaxAllocSize) with below | same | beyond
            · exact absurd ((free.freelist_eq_null _).mp (lower index nearest.1 below)) nearest.2.1
            · exact same
            · exact absurd (nearest.2.2 _ reaches beyond) present
          rwa [top] at used
      · exact .inr ⟨holder, size', (AList.lookup_erase_ne elsewhere).trans held⟩
  next => cases taken

theorem Sound.step (sound : Sound others machine layout lists) {action : Action} (met : Undisturbed others machine action)
    (taken : machine.step action = some after) : ∃ changed newLists, Sound others after changed newLists := by
  cases action with
  | malloc call size => exact sound.malloc taken
  | grow call allocator => exact sound.grow taken
  | retry call => exact sound.retry met taken
  | free location => exact sound.free taken

theorem Models.step (models : Models others machine.state machine.live layout lists) {action : Action}
    (taken : machine.step action = some after) : ∃ changed newLists, Models others after.state after.live changed newLists := by
  cases action with
  | malloc call size =>
    simp only [Machine.step] at taken
    split at taken
    next =>
      rcases models.searchAndCarve size with ⟨missed, _⟩ | ⟨_, _, changed, newLists, _, found, met, _⟩
      · rw [missed] at taken
        cases taken
        exact ⟨layout, lists, models⟩
      · rw [found] at taken
        cases taken
        exact ⟨changed, newLists, met⟩
    next => cases taken
  | grow call allocator =>
    simp only [Machine.step] at taken
    split at taken
    next size _ =>
      split at taken
      next =>
        cases taken
        exact ⟨layout, lists, models⟩
      next page kernel offered =>
        obtain ⟨state, grown, rfl⟩ := Option.map_eq_some_iff.mp taken
        obtain ⟨own, fresh, newLists, ⟨unowned, _⟩, owned, heap, _⟩ := growPool_spec models.heap grown
        exact ⟨_, newLists, models.grown (addPage_objects fresh) (addPage_grows unowned owned) heap⟩
    next => cases taken
  | retry call =>
    simp only [Machine.step] at taken
    split at taken
    next size _ _ =>
      rcases models.searchAndCarve size with ⟨missed, _⟩ | ⟨_, _, changed, newLists, _, found, met, _⟩
      · rw [missed] at taken
        cases taken
        exact ⟨layout, lists, models⟩
      · rw [found] at taken
        cases taken
        exact ⟨changed, newLists, met⟩
    next => cases taken
  | free location =>
    simp only [Machine.step] at taken
    split at taken
    next size allocated =>
      obtain ⟨state, freed, rfl⟩ := Option.map_eq_some_iff.mp taken
      exact models.free allocated freed
    next => cases taken

theorem Models.free_page_unused (models : Models others machine.state machine.live layout lists) {page : Page}
    (member : page ∈ machine.state.kernel.owned \ others) (whole : (header machine.state.memory ⟨page, 0⟩).size = pageSize - xvAlign)
    (free : (header machine.state.memory ⟨page, 0⟩).free = true) : ¬ InUse machine.live page := by
  rintro ⟨location, size, allocated, rfl⟩
  rw [models.pages] at member
  obtain ⟨found, here⟩ := layout.first member
  obtain ⟨there, _⟩ := models.holds.header allocated
  have sized : found.size = pageSize - xvAlign := (models.heap.size here id).symm.trans whole
  have freed : found.free = true := (models.heap.flag here id).symm.trans free
  have different : (⟨location.page, 0⟩ : Location) ≠ headerOf location := by
    intro same
    rw [same, there, Option.some.injEq] at here
    rw [← here] at freed
    cases freed
  have extent := found.size_le
  have objectExtent := (⟨size, false⟩ : Block).size_le
  have bound := layout.ends there
  simp only [pageSize_eq, xvAlign] at sized bound
  rcases layout.separate here there rfl different with ends | ends
  · have ends : 0 + found.extent ≤ (headerOf location).offset := ends
    omega
  · have ends : (headerOf location).offset + (⟨size, false⟩ : Block).extent ≤ 0 := ends
    omega

end Steps

/-- Calls whose page came never fail, and between calls no page of the pool is idle. -/
structure Conserving (others : Finset Page) (machine : Machine) : Prop where
  granted : machine.denied = 0
  inUse : machine.calls = ∅ → ∀ page ∈ machine.state.kernel.owned \ others, InUse machine.live page
  emptied : machine.calls = ∅ → (∀ location, machine.live location = none) →
    machine.state.pool.totalPages = 0 ∧ machine.state.kernel.owned = others

theorem undisturbed_conserving {others : Finset Page} {memory : Memory Page} {machine : Machine}
    (run : Run Machine.step (Undisturbed others) (Machine.initial others memory) machine) : Conserving others machine := by
  have invariant : ∃ layout lists, Sound others machine layout lists :=
    run.invariant (fun machine => ∃ layout lists, Sound others machine layout lists) (initial_sound others memory) fun ⟨_, _, sound⟩ met
      taken => sound.step met taken
  obtain ⟨layout, lists, sound⟩ := invariant
  have inUse (idle : machine.calls = ∅) {page : Page} (member : page ∈ layout.pages) : InUse machine.live page := by
    refine (sound.pages page member).resolve_right ?_
    rintro ⟨call, size, standing⟩
    rw [idle, AList.lookup_empty] at standing
    cases standing
  refine ⟨sound.denied, ?_, ?_⟩
  · intro idle page member
    rw [sound.models.pages] at member
    exact inUse idle member
  · intro idle freed
    have empty : layout.pages = ∅ := by
      refine Finset.eq_empty_of_forall_notMem fun page member => ?_
      obtain ⟨location, size, allocated, _⟩ := inUse idle member
      rw [freed] at allocated
      cases allocated
    refine ⟨?_, ?_⟩
    · rw [sound.models.heap.total, empty, Finset.card_empty]
    · rw [sound.models.owned, empty, Finset.union_empty]

end Machine

section Sample
local instance sampleMachine : Arch := Arch.x64

def freshMachine : Machine := Machine.initial ∅ fun _ _ => 0

/-- One call grows the pool and another takes the page. -/
def robbed : List Action := [.malloc 0 3072, .grow 0 firstPage, .malloc 1 3072, .retry 0]

/-- One call adds page 2 while another object leaves room on page 1. -/
def strayed : List Action := [.malloc 0 3072, .grow 0 firstPage, .retry 0, .malloc 1 2000, .malloc 2 900, .free ⟨1, 4⟩,
  .grow 1 secondPage, .retry 1]

def thirdPage : PageAllocator := PageAllocator.offering ⟨3, fun _ => 0⟩ (by decide) (by decide) (by decide)

/-- Two calls grow the pool before either searches again, others take room in
between and free an object, and a page is given back. -/
def crossed : List Action := [.malloc 0 3072, .malloc 1 2000, .grow 0 firstPage, .grow 1 secondPage, .retry 1, .malloc 2 800, .retry 0,
  .malloc 3 2000, .grow 3 thirdPage, .malloc 4 1500, .free ⟨2, 4⟩, .retry 3, .free ⟨3, 4⟩]

/-- `Undisturbed` as a test; the objects it looks for on a page lie at the given places. -/
def calm (places : List Location) (machine : Machine) : Action → Bool
  | .retry call =>
    match machine.calls.lookup call with
    | some (.grown size page) =>
      let first := getIndex (align size xvAlign)
      let top := getIndexForInsert xvMaxAllocSize
      decide ((∃ index < top + 1, first ≤ index ∧ machine.state.pool.freelist index ≠ Location.null) ∧
        ((∃ place ∈ places, (machine.live place).isSome ∧ place.page = page) ∨
          machine.state.pool.freelist top = ⟨page, 0⟩ ∧ ∀ index < top, first ≤ index → machine.state.pool.freelist index = Location.null))
    | _ => true
  | _ => true

theorem undisturbed_of_calm {places : List Location} {machine : Machine} {action : Action} (passed : calm places machine action = true) :
    Undisturbed ∅ machine action := by
  cases action with
  | malloc | grow | free => trivial
  | retry call =>
    intro size page standing
    rw [calm, standing] at passed
    obtain ⟨⟨index, _, above, filled⟩, own⟩ := of_decide_eq_true passed
    refine ⟨⟨index, above, filled⟩, own.imp ?_ ?_⟩
    · rintro ⟨place, _, allocated, samePage⟩ _
      obtain ⟨recorded, allocated⟩ := Option.isSome_iff_exists.mp allocated
      exact ⟨place, recorded, allocated, samePage⟩
    · rintro ⟨top, lower⟩
      exact ⟨top, fun index above below => lower index below above⟩

/-- Five calls that get in each other's way and are all served. -/
theorem undisturbed_conserving_sample : ∃ machine, Run Machine.step (Undisturbed ∅) freshMachine machine ∧ machine.calls = ∅ ∧
    machine.state.kernel.owned = {1, 2} ∧ Conserving ∅ machine := by
  have reached : ∃ machine ∈ steps (tested Machine.step (calm [⟨3, 4⟩])) freshMachine crossed, machine.calls.entries = [] ∧
      machine.state.kernel.owned = {1, 2} := by
    decide +kernel
  obtain ⟨machine, taken, idle, owned⟩ := reached
  have run : Run Machine.step (Undisturbed ∅) freshMachine machine := .of_tested undisturbed_of_calm taken
  exact ⟨machine, run, AList.ext idle, owned, undisturbed_conserving run⟩

/-- A call whose page came is refused, and a page stays in the pool without an object. -/
theorem calls_interfere :
    (∃ machine, AnyRun Machine.step freshMachine machine ∧ machine.denied ≠ 0) ∧
      ∃ machine, AnyRun Machine.step freshMachine machine ∧ machine.calls = ∅ ∧
        ∃ page ∈ machine.state.kernel.owned, ¬ InUse machine.live page := by
  refine ⟨AnyRun.exists_of_steps robbed ?_, ?_⟩
  · decide +kernel
  · have reached : ∃ machine, AnyRun Machine.step freshMachine machine ∧ machine.calls.entries = [] ∧ 2 ∈ machine.state.kernel.owned ∧
        (header machine.state.memory ⟨2, 0⟩).size = pageSize - xvAlign ∧ (header machine.state.memory ⟨2, 0⟩).free = true :=
      AnyRun.exists_of_steps strayed (by decide +kernel)
    obtain ⟨machine, run, idle, member, whole, free⟩ := reached
    have invariant : ∃ layout lists, Models ∅ machine.state machine.live layout lists :=
      run.invariant (fun machine => ∃ layout lists, Models ∅ machine.state machine.live layout lists) (models_create _) fun ⟨_, _,
        models⟩ _ taken => models.step taken
    obtain ⟨layout, lists, models⟩ := invariant
    have fromPool : 2 ∈ machine.state.kernel.owned \ ∅ := by
      rw [Finset.sdiff_empty]
      exact member
    exact ⟨machine, run, AList.ext idle, 2, member, models.free_page_unused fromPool whole free⟩

end Sample
end Compcache.Xvmalloc
