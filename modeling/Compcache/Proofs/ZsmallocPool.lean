import Mathlib.Algebra.BigOperators.Ring.Finset
import Compcache.Proofs.ZsmallocMachine

/-! A pool of zsmalloc over whole runs: what it keeps of the objects handed out, when it
fails, and what becomes of its pages. -/

namespace Compcache.Zsmalloc
open Library Library.PagedMemory Library.Carving Library.Ownership Library.Runs Library.Windows

section Pools
variable [Arch] [Sparse] {others : Finset Page} {kernel : Kernel} {pages : Page → PageStruct} {machine after final : Machine}
    {zspages : SortedMap Zspage}
  {action : Action} {handle offset size : Nat} {data bytes : List UInt8} {pool : Pool}

/-- The pages for a new zspage run out behind the first. -/
def Machine.RunsShort (machine : Machine) (action : Action) : Prop :=
  ∃ task allocators classIdx size, action = .grow task allocators ∧ machine.stages task = some (.wanting classIdx size) ∧
    0 < given allocators (classOrder classIdx) 0 machine.state.kernel.owned ∧
      given allocators (classOrder classIdx) 0 machine.state.kernel.owned < classOrder classIdx

theorem Models.act (models : Models others machine zspages) (ready : machine.Ready action) :
    (machine.step action = none ∧ machine.RunsShort action) ∨ (Goes others machine action ∧ ¬ machine.RunsShort action) := by
  have never {action : Action} (other : ∀ task allocators, action ≠ .grow task allocators) : ¬ machine.RunsShort action :=
    fun ⟨task, allocators, _, _, same, _⟩ => other task allocators same
  cases action with
  | malloc task size => exact .inr ⟨models.malloc ready size, never (by rintro _ _ ⟨⟩)⟩
  | grow task allocators =>
    obtain ⟨classIdx, size, wanting⟩ := ready
    rcases models.grow wanting allocators with ⟨crash, some_, fewer⟩ | ⟨goes, none_or_all⟩
    · exact .inl ⟨crash, task, allocators, classIdx, size, rfl, wanting, some_, fewer⟩
    · refine .inr ⟨goes, ?_⟩
      rintro ⟨_, _, classIdx', _, ⟨⟩, wanting', some_, fewer⟩
      obtain ⟨rfl, rfl⟩ := Stage.wanting.inj (Option.some.inj (wanting.symm.trans wanting'))
      omega
  | attach task =>
    obtain ⟨classIdx, size, firstPage, holding⟩ := ready
    exact .inr ⟨models.attach holding, never (by rintro _ _ ⟨⟩)⟩
  | free task handle =>
    obtain ⟨idle, size, inUse⟩ := ready
    exact .inr ⟨models.free idle inUse, never (by rintro _ _ ⟨⟩)⟩
  | release task =>
    obtain ⟨classIdx, firstPage, emptied⟩ := ready
    exact .inr ⟨models.release emptied, never (by rintro _ _ ⟨⟩)⟩
  | write handle offset data =>
    obtain ⟨size, inUse, fits⟩ := ready
    exact .inr ⟨models.write inUse fits, never (by rintro _ _ ⟨⟩)⟩

theorem Models.step (models : Models others machine zspages) (taken : machine.step action = some after) :
    (∃ second, Models others after second) ∧ machine.pool.Does action after.pool := by
  rcases models.act (Machine.ready_of_step taken) with ⟨crash, _⟩ | ⟨⟨next, second, moved, kept, does⟩, _⟩
  · rw [crash] at taken
    cases taken
  · obtain rfl := Option.some.inj (moved.symm.trans taken)
    exact ⟨⟨second, kept⟩, does⟩

theorem Models.of_run {meets : Machine → Action → Prop} (run : Run Machine.step meets (.create kernel pages) machine) :
    ∃ zspages, Models kernel.owned machine zspages :=
  run.invariant (fun machine => ∃ zspages, Models kernel.owned machine zspages) ⟨.empty, .create kernel pages⟩
    fun ⟨_, models⟩ _ taken => (models.step taken).1

/-- Every step of every run does to the objects what the pool is for. -/
theorem refines_pool (run : AnyRun Machine.step (.create kernel pages) machine) (taken : machine.step action = some after) :
    machine.pool.Does action after.pool := by
  obtain ⟨_, models⟩ := Models.of_run run
  exact (models.step taken).2

/-- The only way to fail is to get some of the pages for a zspage and not all. -/
theorem fails_iff (run : AnyRun Machine.step (.create kernel pages) machine) (ready : machine.Ready action) :
    machine.step action = none ↔ machine.RunsShort action := by
  obtain ⟨_, models⟩ := Models.of_run run
  rcases models.act ready with ⟨crash, short⟩ | ⟨⟨next, _, moved, _⟩, enough⟩
  · exact iff_of_true crash short
  · refine iff_of_false (fun none_ => ?_) enough
    rw [moved] at none_
    cases none_

/-- The action frees the object or writes to it. -/
def Action.Changes (handle : Nat) : Action → Prop
  | .free _ other => other = handle
  | .write other _ _ => other = handle
  | _ => False

theorem Pool.Does.kept {second : Pool} (does : pool.Does action second) (here : pool.bytes handle = some bytes)
    (elsewhere : ¬ action.Changes handle) :
    second.bytes handle = some bytes := by
  have apart {other : Nat} (new : pool.bytes other = none) : handle ≠ other := by
    rintro rfl
    rw [new] at here
    cases here
  cases does with
  | null | ask | grow | refuse | release => exact here
  | object _ new => exact (Function.update_of_ne (apart new) _ _).trans here
  | attach _ _ new => exact (Function.update_of_ne (apart new) _ _).trans here
  | free => exact (Function.update_of_ne (fun same => elsewhere same.symm) _ _).trans here
  | write => exact (Function.update_of_ne (fun same => elsewhere same.symm) _ _).trans here

/-- What is written to an object is read back, whatever is done with others in between. -/
theorem reads_written (run : AnyRun Machine.step (.create kernel pages) machine)
    (taken : machine.step (.write handle offset data) = some after)
    (later : Run Machine.step (fun _ action => ¬ action.Changes handle) after final) :
    ∃ bytes, final.pool.bytes handle = some bytes ∧ (bytes.drop offset).take data.length = data := by
  obtain ⟨_, models⟩ := Models.of_run run
  obtain ⟨kept, does⟩ := models.step taken
  obtain ⟨bytes, written, fits⟩ : ∃ bytes, after.pool.bytes handle = some (splice bytes offset data) ∧
      offset + data.length ≤ bytes.length := by
    generalize after.pool = second at does
    cases does with
    | @write _ _ before _ here fits => exact ⟨before, Function.update_self .., fits⟩
  obtain ⟨_, still⟩ := later.invariant (fun machine => (∃ zspages, Models kernel.owned machine zspages) ∧ machine.pool.bytes handle =
    some (splice bytes offset data))
    ⟨kept, written⟩ fun ⟨⟨_, models⟩, here⟩ elsewhere moved => ⟨(models.step moved).1, (models.step moved).2.kept here elsewhere⟩
  exact ⟨_, still, splice_read (Nat.le_of_add_right_le fits)⟩

/-- Where an object is mapped. -/
structure Mapped (kernel : Kernel) (machine : Machine) (handle size : Nat) (window : List Page) (start : Nat) : Prop where
  maps : zsMapObject machine.state handle = some (window, start)
  long : start + size ≤ window.length * pageSize
  owned : ∀ page ∈ window, page ∈ machine.state.kernel.owned ∧ page ∉ kernel.owned

/-- Every object handed out can be mapped, to pages of the pool, and no byte belongs to two. -/
theorem objects_apart (run : AnyRun Machine.step (.create kernel pages) machine) {other size' : Nat}
    (inUse : machine.live handle = some size)
    (inUse' : machine.live other = some size') (different : handle ≠ other) :
    ∃ window start window' start', Mapped kernel machine handle size window start ∧ Mapped kernel machine other size' window' start' ∧
      ∀ page address, Within pageSize window start size page address → ¬ Within pageSize window' start' size' page address := by
  obtain ⟨zspages, models⟩ := Models.of_run run
  have mapped {handle size : Nat} (inUse : machine.live handle = some size) : ∃ first z slot, zspages.find? first = some z ∧
    slot < classObjects z.classIdx ∧
      handle = z.handle slot ∧ size ≤ z.size ∧ Mapped kernel machine handle size (z.window slot) (z.offset slot) := by
    obtain ⟨first, z, slot, here, used, rfl, large⟩ := models.objects.handed inUse
    have long := z.window_long slot
    refine ⟨first, z, slot, here, used.1, rfl, large, zsMapObject_spec (models.heap.shaped here) used.1 (models.heap.sized _).1, by omega,
      fun page member => ?_⟩
    obtain ⟨index, there⟩ := List.mem_iff_getElem?.mp member
    exact models.heap.owned here (List.mem_of_getElem? (Zspage.window_at used.1 there))
  obtain ⟨first, z, slot, here, inside, rfl, large, maps⟩ := mapped inUse
  obtain ⟨first', z', slot', here', inside', rfl, large', maps'⟩ := mapped inUse'
  refine ⟨_, _, _, _, maps, maps', fun page address within within' => different ?_⟩
  have extent := Zspage.window_extent inside (within.mono (Nat.le_refl _) (Nat.add_le_add_left large _))
  have extent' := Zspage.window_extent inside' (within'.mono (Nat.le_refl _) (Nat.add_le_add_left large' _))
  obtain rfl := models.heap.apart here here' extent.mem extent'.mem
  obtain rfl := Option.some.inj (here.symm.trans here')
  rw [extent.unique extent']

/-- The first page of a zspage of the pool. -/
def Machine.First (machine : Machine) (kernel : Kernel) (page : Page) : Prop :=
  page ∈ machine.state.kernel.owned ∧ page ∉ kernel.owned ∧ isFirstPage (machine.state.pages page) = true

theorem Models.first (models : Models kernel.owned machine zspages) {page : Page} : machine.First kernel page ↔
    ∃ z, zspages.find? page = some z := by
  constructor
  · rintro ⟨owned, own, flag⟩
    rcases models.accounts.firsts page owned with other | here | plain
    · exact absurd other own
    · exact here
    · rw [plain] at flag
      cases flag
  · rintro ⟨z, here⟩
    obtain rfl := models.heap.keyed here
    obtain ⟨owned, own⟩ := models.heap.owned here List.mem_cons_self
    exact ⟨owned, own, (models.heap.shaped here).isFirst⟩

/-- A list holds the zspages of its class and group, each once, and the group of a zspage is that of its counts. -/
theorem lists_exact (run : AnyRun Machine.step (.create kernel pages) machine) :
    (∀ page, machine.First kernel page → getFullnessGroup (machine.state.pages page) = (getZspageMapping (machine.state.pages page)).2) ∧
      ∀ classIdx (group : FullnessGroup), group.Listed → ((machine.state.sizeClass classIdx).fullnessList group).Nodup ∧
        ∀ page, page ∈ (machine.state.sizeClass classIdx).fullnessList group ↔
          machine.First kernel page ∧ getZspageMapping (machine.state.pages page) = (classIdx, group) := by
  obtain ⟨zspages, models⟩ := Models.of_run run
  constructor
  · intro page first
    obtain ⟨z, here⟩ := models.first.mp first
    obtain rfl := models.heap.keyed here
    rw [(models.heap.shaped here).mapping, (models.heap.shaped here).fullness]
  · intro classIdx group listed
    obtain ⟨nodup, members⟩ := models.heap.lists classIdx group listed
    refine ⟨nodup, fun page => (members page).trans ?_⟩
    rw [models.first]
    constructor
    · rintro ⟨z, here, rfl, rfl⟩
      obtain rfl := models.heap.keyed here
      exact ⟨⟨z, here⟩, (models.heap.shaped here).mapping⟩
    · rintro ⟨⟨z, here⟩, mapping⟩
      obtain rfl := models.heap.keyed here
      rw [(models.heap.shaped here).mapping] at mapping
      exact ⟨z, here, congrArg Prod.fst mapping, congrArg Prod.snd mapping⟩

/-- No task is between two steps. -/
def Machine.Quiet (machine : Machine) : Prop := ∀ task, machine.stages task = none

theorem Models.busy (models : Models others machine zspages) (quiet : machine.Quiet) {first : Page} {z : Zspage}
    (here : zspages.find? first = some z) :
    z.slab.inuse ≠ 0 := by
  intro unused
  obtain ⟨task, held⟩ := (models.crew.held.held_iff first).mp ⟨z, here, unused⟩
  rw [quiet task] at held
  cases held

def ZsState.pagesAllocated (state : ZsState) :
    Nat := ((List.range zsSizeClasses).map fun classIdx => (state.sizeClass classIdx).pagesAllocated).sum

theorem Models.allocated_used (models : Models others machine zspages) :
    (machine.state.pagesAllocated : Int) = zspages.sum fun _ z => if z.slab.inuse ≠ 0 then (classOrder z.classIdx : Int) else 0 := by
  have each : (List.range zsSizeClasses).map (fun classIdx => ((machine.state.sizeClass classIdx).pagesAllocated : Int)) =
      (List.range zsSizeClasses).map fun classIdx => zspages.sum (counts classIdx) := List.map_congr_left fun classIdx _ =>
        models.accounts.pages classIdx
  rw [ZsState.pagesAllocated, Nat.cast_list_sum, List.map_map]
  refine (congrArg List.sum each).trans ((zspages.sum_range counts zsSizeClasses).trans (SortedMap.sum_congr fun first z here => ?_))
  have own : (List.range zsSizeClasses).count z.classIdx = 1 := List.count_eq_one_of_mem List.nodup_range (List.mem_range.mpr z.known)
  have elsewhere {classIdx : Nat} (different : classIdx ≠ z.classIdx) : counts classIdx first z = 0 :=
    if_neg fun both => different both.1.symm
  have single : counts z.classIdx first z = if z.slab.inuse ≠ 0 then (classOrder z.classIdx : Int) else 0 :=
    if_congr (and_iff_right rfl) rfl rfl
  rw [List.sum_map_eq_nsmul_single z.classIdx (fun classIdx => counts classIdx first z) fun classIdx different _ => elsewhere different,
    own, one_nsmul, single]

theorem Models.allocated (models : Models others machine zspages) (quiet : machine.Quiet) :
    (machine.state.pagesAllocated : Int) = zspages.sum fun _ z => classOrder z.classIdx :=
  models.allocated_used.trans (SortedMap.sum_congr fun _ _ here => if_pos (models.busy quiet here))

theorem Models.allocated_lt (models : Models others machine zspages) : machine.state.pagesAllocated ≤ 2 ^ pfnBits := by
  have used : (machine.state.pagesAllocated : Int) ≤ zspages.sum fun _ z => classOrder z.classIdx := by
    rw [models.allocated_used]
    refine SortedMap.sum_mono fun _ z _ => ?_
    split
    · exact Int.le_refl _
    · exact Int.natCast_nonneg _
  have counted := models.accounts.counted
  have outside : (machine.state.kernel.owned \ others).card ≤ 2 ^ pfnBits := by
    rw [← Finset.card_range (2 ^ pfnBits)]
    refine Finset.card_le_card fun page member => ?_
    obtain ⟨owned, own⟩ := Finset.mem_sdiff.mp member
    exact Finset.mem_range.mpr ((models.accounts.frames page owned).resolve_left own)
  rw [Finset.card_sdiff_of_subset models.heap.others] at outside
  omega

theorem zsGetTotalSizeBytes_eq {state : ZsState} (few : state.pagesAllocated ≤ 2 ^ pfnBits) :
    zsGetTotalSizeBytes state = state.pagesAllocated * pageSize := by
  have bits : pfnBits ≤ 34 := by
    have known := Sparse.supported
    simp only [List.mem_cons, Prod.mk.injEq, List.not_mem_nil, or_false] at known
    have shift : pageShift = 12 := rfl
    rw [pfnBits]
    omega
  have most : 2 ^ pfnBits ≤ 2 ^ 34 := Nat.pow_le_pow_right (by decide) bits
  have shift : zsGetTotalSizeBytes state = (state.pagesAllocated <<< pageShift) % 2 ^ 64 := rfl
  rw [shift, Nat.shiftLeft_eq, Nat.mod_eq_of_lt]
  · rfl
  · show state.pagesAllocated * 4096 < 2 ^ 64
    omega

/-- Between operations every page is accounted for: by who had it before, by the size the
pool gives, or as one left behind by a freed zspage, of which only the first page goes. -/
theorem pages_accounted (run : AnyRun Machine.step (.create kernel pages) machine) (quiet : machine.Quiet) :
    machine.state.kernel.owned.card * pageSize = (kernel.owned.card + lost machine.released) * pageSize + zsGetTotalSizeBytes
      machine.state := by
  obtain ⟨zspages, models⟩ := Models.of_run run
  have total := models.allocated quiet
  have counted := models.accounts.counted
  have sum : machine.state.kernel.owned.card = kernel.owned.card + lost machine.released + machine.state.pagesAllocated := by omega
  rw [zsGetTotalSizeBytes_eq models.allocated_lt, sum, Nat.add_mul]

/-- When everything has been freed the pool is as it was made, but for the pages left behind. -/
theorem all_freed (run : AnyRun Machine.step (.create kernel pages) machine) (quiet : machine.Quiet)
    (freed : ∀ handle, machine.live handle = none) :
    zsGetTotalSizeBytes machine.state = 0 ∧ machine.state.kernel.owned.card = kernel.owned.card + lost machine.released ∧
      (∀ page, ¬ machine.First kernel page) ∧
        ∀ classIdx (group : FullnessGroup), group.Listed → (machine.state.sizeClass classIdx).fullnessList group = [] := by
  obtain ⟨zspages, models⟩ := Models.of_run run
  have none_ (first : Page) : zspages.find? first = none := by
    cases here : zspages.find? first with
    | none => rfl
    | some z =>
      have used : ∃ slot, z.slab.Used slot := Slab.exists_used (models.busy quiet here)
      obtain ⟨slot, used⟩ := used
      obtain ⟨size, inUse⟩ := models.objects.used here used
      rw [freed] at inUse
      cases inUse
  have empty : zspages = .empty := SortedMap.ext_find? fun first => none_ first
  have total : zsGetTotalSizeBytes machine.state = 0 := by
    have allocated := models.allocated quiet
    rw [empty] at allocated
    have zero : machine.state.pagesAllocated = 0 := Int.natCast_eq_zero.mp allocated
    rw [zsGetTotalSizeBytes_eq models.allocated_lt, zero, Nat.zero_mul]
  have counted := models.accounts.counted
  rw [empty] at counted
  refine ⟨total, ?_, fun page first => ?_, fun classIdx group listed => ?_⟩
  · have zero : (SortedMap.empty : SortedMap Zspage).sum (fun _ z => (classOrder z.classIdx : Int)) = 0 := rfl
    omega
  · obtain ⟨z, here⟩ := models.first.mp first
    rw [none_] at here
    cases here
  · refine List.eq_nil_iff_forall_not_mem.mpr fun page member => ?_
    obtain ⟨z, here, _⟩ := ((models.heap.lists classIdx group listed).2 page).mp member
    rw [none_] at here
    cases here

theorem Models.delegates (models : Models others machine zspages) : ∃ handles : Finset Nat,
    (∀ handle ∈ handles, ∃ size, machine.live handle = some size) ∧
      handles.card = (zspages.entries.filter fun entry => entry.2.slab.inuse ≠ 0).length := by
  have delegate (entry : Nat × Zspage) : ∃ slot, entry.2.slab.inuse ≠ 0 → entry.2.slab.Used slot := by
    rcases Classical.em (entry.2.slab.inuse = 0) with none_ | some_
    · exact ⟨0, fun used => absurd none_ used⟩
    · obtain ⟨slot, used⟩ := Slab.exists_used some_
      exact ⟨slot, fun _ => used⟩
  choose slot used using delegate
  have kept {entry : Nat × Zspage} (member : entry ∈ zspages.entries.filter fun entry => entry.2.slab.inuse ≠ 0) :
      zspages.find? entry.1 = some entry.2 ∧ entry.2.slab.Used (slot entry) := by
    obtain ⟨member, busy⟩ := List.mem_filter.mp member
    exact ⟨SortedMap.mem_entries.mp member, used entry (of_decide_eq_true busy)⟩
  have nodup : ((zspages.entries.filter fun entry => entry.2.slab.inuse ≠ 0).map fun entry => entry.2.handle (slot entry)).Nodup := by
    refine (zspages.entries_nodup.filter _).map_on fun one first other second same => ?_
    obtain ⟨here, inUse⟩ := kept first
    obtain ⟨there, inUse'⟩ := kept second
    obtain ⟨keys, values, _⟩ := models.heap.same_zspage here there (Zspage.used_inside inUse) (Zspage.used_inside inUse') same
    exact Prod.ext keys values
  refine ⟨((zspages.entries.filter fun entry => entry.2.slab.inuse ≠ 0).map fun entry => entry.2.handle (slot entry)).toFinset,
    fun handle member => ?_, ?_⟩
  · obtain ⟨entry, inside, rfl⟩ := List.mem_map.mp (List.mem_toFinset.mp member)
    obtain ⟨here, inUse⟩ := kept inside
    exact models.objects.used here inUse
  · rw [List.toFinset_card_of_nodup nodup, List.length_map]

/-- However the objects lie, the pool never counts more than four pages for each of them. -/
theorem size_bounded (run : AnyRun Machine.step (.create kernel pages) machine) : ∃ handles : Finset Nat,
    (∀ handle ∈ handles, ∃ size, machine.live handle = some size) ∧
      zsGetTotalSizeBytes machine.state ≤ handles.card * maxZspageOrder * pageSize := by
  obtain ⟨zspages, models⟩ := Models.of_run run
  obtain ⟨handles, inUse, card⟩ := models.delegates
  have used : (machine.state.pagesAllocated : Int) ≤
      maxZspageOrder * ((zspages.entries.filter fun entry => entry.2.slab.inuse ≠ 0).length : Nat) := by
    rw [models.allocated_used]
    refine SortedMap.sum_le_kept (fun z : Zspage => z.slab.inuse ≠ 0) fun _ z _ => ?_
    split
    · exact Int.ofNat_le.mpr (classOrder_bounds z.classIdx).2
    · exact Int.le_refl _
  refine ⟨handles, inUse, ?_⟩
  rw [zsGetTotalSizeBytes_eq models.allocated_lt]
  refine Nat.mul_le_mul_right pageSize ?_
  rw [card, Nat.mul_comm]
  exact_mod_cast used

theorem Zspage.group_listed {z : Zspage} (some_ : z.slab.inuse ≠ 0) (room : z.slab.inuse ≠ classObjects z.classIdx) :
    z.group = .almostEmpty ∨ z.group = .almostFull := by
  rw [group, if_neg some_, if_neg room]
  split
  · exact .inl rfl
  · exact .inr rfl

/-- A zspage is only asked for when every one of the class that has objects in use has no other. -/
theorem grows_when_full (run : AnyRun Machine.step (.create kernel pages) machine) {task : Nat}
    (taken : machine.step (.malloc task size) = some after)
    (grows : after.stages task ≠ none) {page : Page} (first : machine.First kernel page)
    (same : (getZspageMapping (machine.state.pages page)).1 = getSizeClassIndex size) :
    (machine.state.pages page).inuse = 0 ∨ (machine.state.pages page).inuse = (machine.state.pages page).objects := by
  obtain ⟨zspages, models⟩ := Models.of_run run
  have idle : machine.stages task = none := Machine.ready_of_step taken
  have none_ : findGetZspage (machine.state.sizeClass (getSizeClassIndex size)) = none := by
    simp only [Machine.step, idle] at taken
    obtain ⟨⟨state, outcome⟩, result, rfl⟩ := Option.map_eq_some_iff.mp taken
    unfold zsMalloc at result
    split at result
    next =>
      cases result
      exact absurd idle grows
    next =>
      dsimp only at result
      split at result
      next => cases result
      next =>
        split at result
        next nothing => exact nothing
        next firstPage found =>
          obtain ⟨took, _, same⟩ := Option.map_eq_some_iff.mp result
          cases same
          exact absurd idle grows
  obtain ⟨z, here⟩ := models.first.mp first
  obtain rfl := models.heap.keyed here
  have shaped := models.heap.shaped here
  rw [shaped.mapping] at same
  rw [shaped.inuse, shaped.objects]
  have nothing := List.head?_eq_none_iff.mp none_
  obtain ⟨full, empty⟩ := List.append_eq_nil_iff.mp nothing
  refine Classical.byContradiction fun neither => ?_
  obtain ⟨some_, room⟩ := not_or.mp neither
  rcases Zspage.group_listed some_ room with group | group
  · have member := ((models.heap.lists z.classIdx .almostEmpty FullnessGroup.almostEmpty_listed).2 z.first).mpr ⟨z, here, rfl, group⟩
    rw [show z.classIdx = getSizeClassIndex size from same, empty] at member
    cases member
  · have member := ((models.heap.lists z.classIdx .almostFull FullnessGroup.almostFull_listed).2 z.first).mpr ⟨z, here, rfl, group⟩
    rw [show z.classIdx = getSizeClassIndex size from same, full] at member
    cases member

/-- A request for which there is memory is answered by the task's own next two steps,
whatever the others do in between: the new zspage is out of their reach. -/
theorem request_served (run : AnyRun Machine.step (.create kernel pages) machine) {task classIdx : Nat} {middle : Machine}
    (wanting : machine.stages task = some (.wanting classIdx size))
    (meantime : Run Machine.step (fun _ action => action.task ≠ some task) machine middle)
    {allocators : Nat → SparseAllocator} (enough : given allocators (classOrder classIdx) 0 middle.state.kernel.owned =
      classOrder classIdx) :
    ∃ held, middle.step (.grow task allocators) = some held ∧
      ∀ {final}, Run Machine.step (fun _ action => action.task ≠ some task) held final →
      ∃ after handle data, final.step (.attach task) = some after ∧ after.stages task = none ∧ final.pool.bytes handle = none ∧
        data.length = size ∧ after.pool.bytes handle = some data := by
  have still {machine later : Machine} (others : Run Machine.step (fun _ action => action.task ≠ some task) machine later) :
      later.stages task = machine.stages task :=
    others.invariant (fun later => later.stages task = machine.stages task) rfl fun before other moved =>
      (Machine.stages_of_step moved other).trans before
  have wanting : middle.stages task = some (.wanting classIdx size) := (still meantime).trans wanting
  have run : AnyRun Machine.step (.create kernel pages) middle := run.trans (meantime.mono fun _ _ _ => trivial)
  obtain ⟨zspages, models⟩ := Models.of_run run
  have known : classIdx < zsSizeClasses ∧ size ≤ classSize classIdx := models.crew.fits wanting
  have positive := (classOrder_bounds classIdx).1
  obtain ⟨held, grown, holding⟩ : ∃ held, middle.step (.grow task allocators) = some held ∧ ∃ first, held.stages task =
      some (.holding classIdx size first) := by
    have step : middle.step (.grow task allocators) = (growClass middle.state classIdx allocators).map fun made =>
        { middle with state := made.2 }.setStage task (if made.1 = noPage then none else some (.holding classIdx size made.1)) := by
      unfold Machine.step
      simp only [wanting]
    have grows := growClass_spec models.heap.sized known.1 allocators
    generalize growClass middle.state classIdx allocators = result at grows step
    cases grows with
    | short _ fewer => exact absurd enough (Nat.ne_of_lt fewer)
    | refused none_ => exact absurd (none_.symm.trans enough) (Nat.ne_of_lt positive)
    | @made z state all made =>
      have present : z.first ≠ noPage := Nat.ne_of_gt (z.frames z.first List.mem_cons_self).1
      rw [Option.map_some, if_neg present] at step
      exact ⟨_, step, z.first, Function.update_self ..⟩
  obtain ⟨first, holding⟩ := holding
  refine ⟨held, grown, fun {final} others => ?_⟩
  have holding : final.stages task = some (.holding classIdx size first) := (still others).trans holding
  have run : AnyRun Machine.step (.create kernel pages) final := (Run.step run trivial grown).trans (others.mono fun _ _ _ => trivial)
  obtain ⟨_, models⟩ := Models.of_run run
  obtain ⟨after, _, attached, _, does⟩ := models.attach holding
  have ended : after.stages task = none := by
    simp only [Machine.step, holding] at attached
    obtain ⟨_, _, rfl⟩ := Option.map_eq_some_iff.mp attached
    exact Function.update_self ..
  have asked : final.pool.asked task = some size := by
    show (final.stages task).bind Stage.size = _
    rw [holding]
    rfl
  obtain ⟨handle, data, new, length, given⟩ : ∃ handle data, final.pool.bytes handle = none ∧ data.length = size ∧
      after.pool.bytes handle = some data := by
    generalize after.pool = second at does
    cases does with
    | @attach _ size' handle data wanted _ new length =>
      obtain rfl := Option.some.inj (wanted.symm.trans asked)
      exact ⟨handle, data, new, length, Function.update_self ..⟩
  exact ⟨after, handle, data, attached, ended, new, length, given⟩

end Pools

/-! One run, for each of the results. -/

section Sample
local instance poolArch : Arch := Arch.x64
local instance poolSparse : Sparse := ⟨46, by decide⟩

def SparseAllocator.offering (page : Page) (positive : 0 < page) (small : page < 2 ^ 34) : SparseAllocator where
  pages := .offering ⟨page, fun _ => 0⟩ positive (small.trans (by decide))
    (Nat.lt_of_lt_of_le (Nat.mul_lt_mul_of_pos_right small (by decide)) (by decide))
  physical := by
    intro owned fresh picked
    have same : fresh.page = page := by
      simp only [PageAllocator.offering] at picked
      split at picked
      next => cases picked
      next =>
        cases picked
        rfl
    rw [same]
    exact small
  left := ⟨true, true, 3, 0, 5, 6, 7, 8⟩

def offered (turn : Nat) : SparseAllocator := .offering (turn % 8 + 1) (Nat.succ_pos _)
    (Nat.lt_of_lt_of_le (Nat.succ_lt_succ (Nat.mod_lt turn (by decide))) (by decide))

def sampleKernel : Kernel := ⟨fun _ _ => 0, ∅⟩
def sampleMachine : Machine := .create sampleKernel fun _ => ⟨false, false, 0, 0, 0, 0, 0, 0⟩

/-- Two objects of a class whose zspages have four on three pages. -/
def twoObjects : List Action := [.malloc 0 3072, .grow 0 offered, .attach 0, .malloc 1 3060]

def Machine.Two (machine : Machine) : Prop := machine.live (2 ^ 30) = some 3072 ∧ machine.live (2 ^ 30 + 1) = some 3060

instance Machine.decidableTwo (machine : Machine) : Decidable machine.Two := inferInstanceAs (Decidable (_ ∧ _))

theorem twoObjects_live : ∃ machine, AnyRun Machine.step sampleMachine machine ∧ machine.Two :=
  AnyRun.exists_of_steps twoObjects (by decide +kernel)

theorem exists_step (actions : List Action) (action : Action) (shows : Machine → Prop)
    (ends : ∃ machine ∈ steps Machine.step sampleMachine actions, (machine.step action).isSome ∧ shows machine) :
    ∃ machine after, AnyRun Machine.step sampleMachine machine ∧ machine.step action = some after ∧ shows machine := by
  obtain ⟨machine, run, some_, shown⟩ := AnyRun.exists_of_steps actions ends
  obtain ⟨after, taken⟩ := Option.isSome_iff_exists.mp some_
  exact ⟨machine, after, run, taken, shown⟩

theorem refines_pool_sample : ∃ machine after : Machine, machine.Two ∧ machine.pool.Does (.free 0 (2 ^ 30)) after.pool := by
  obtain ⟨machine, after, run, taken, two⟩ := exists_step twoObjects (.free 0 (2 ^ 30)) Machine.Two (by decide +kernel)
  exact ⟨machine, after, two, refines_pool run taken⟩

/-- There are two pages for a zspage of three. -/
theorem fails_iff_sample : ∃ machine : Machine, machine.RunsShort (.grow 0 fun turn => offered (min turn 1)) := by
  obtain ⟨machine, run, wanting, fails⟩ : ∃ machine, AnyRun Machine.step sampleMachine machine ∧ machine.stages 0 =
    some (.wanting 190 3072) ∧
      (machine.step (.grow 0 fun turn => offered (min turn 1))).isNone := AnyRun.exists_of_steps [.malloc 0 3072] (by decide +kernel)
  have ready : machine.Ready (.grow 0 fun turn => offered (min turn 1)) := ⟨190, 3072, wanting⟩
  exact ⟨machine, (fails_iff run ready).mp (Option.isNone_iff_eq_none.mp fails)⟩

theorem reads_written_sample : ∃ final : Machine, ∃ bytes, final.pool.bytes (2 ^ 30) = some bytes ∧
    (bytes.drop 3060).take 2 = [17, 18] := by
  obtain ⟨machine, after, run, taken, later⟩ := exists_step twoObjects (.write (2 ^ 30) 3060 [17, 18])
    (fun machine => ∃ after ∈ machine.step (.write (2 ^ 30) 3060 [17, 18]),
      (steps Machine.step after [.write (2 ^ 30 + 1) 0 [19], .free 1 (2 ^ 30 + 1)]).isSome)
    (by decide +kernel)
  obtain ⟨again, same, some_⟩ := later
  obtain rfl := Option.some.inj (taken.symm.trans same)
  obtain ⟨final, reached⟩ := Option.isSome_iff_exists.mp some_
  refine ⟨final, reads_written run taken (.of_steps (fun _ action member => ?_) reached)⟩
  rcases List.mem_pair.mp member with rfl | rfl <;> exact show ¬ 2 ^ 30 + 1 = 2 ^ 30 by decide

theorem objects_apart_sample : ∃ machine : Machine, ∃ window start window' start',
    Mapped sampleKernel machine (2 ^ 30) 3072 window start ∧ Mapped sampleKernel machine (2 ^ 30 + 1) 3060 window' start' ∧
      ∀ page address, Within pageSize window start 3072 page address → ¬ Within pageSize window' start' 3060 page address := by
  obtain ⟨machine, run, first, second⟩ := twoObjects_live
  exact ⟨machine, objects_apart run first second (by decide)⟩

theorem lists_exact_sample : ∃ machine : Machine, machine.Two ∧
    (∀ page, machine.First sampleKernel page → getFullnessGroup (machine.state.pages page) =
      (getZspageMapping (machine.state.pages page)).2) ∧
      ∀ classIdx (group : FullnessGroup), group.Listed → ((machine.state.sizeClass classIdx).fullnessList group).Nodup ∧
        ∀ page, page ∈ (machine.state.sizeClass classIdx).fullnessList group ↔
          machine.First sampleKernel page ∧ getZspageMapping (machine.state.pages page) = (classIdx, group) := by
  obtain ⟨machine, run, two⟩ := twoObjects_live
  exact ⟨machine, two, lists_exact run⟩

/-- A run of which two tasks take part, and which both have come to an end. -/
theorem quiet_of_steps {actions : List Action} {machine : Machine} (taken : steps Machine.step sampleMachine actions = some machine)
    (two : ∀ action ∈ actions, ∀ task, action.task = some task → task < 2) (ended : (machine.stages 0).isNone ∧ (machine.stages 1).isNone) :
    machine.Quiet := by
  have run : Run Machine.step (fun _ action => ∀ task, action.task = some task → task < 2) sampleMachine machine :=
    .of_steps (fun _ => two) taken
  have idle (task : Nat) (other : 2 ≤ task) : machine.stages task = none :=
    run.invariant (fun machine => machine.stages task = none) rfl fun before few moved =>
      (Machine.stages_of_step moved fun same => absurd (few task same) (Nat.not_lt.mpr other)).trans before
  intro task
  match task with
  | 0 => exact Option.isNone_iff_eq_none.mp ended.1
  | 1 => exact Option.isNone_iff_eq_none.mp ended.2
  | task + 2 => exact idle (task + 2) (Nat.le_add_left 2 task)

/-- A zspage of three pages is released, and another made. -/
def replaced : List Action :=
  [.malloc 0 3072, .grow 0 offered, .attach 0, .free 0 (2 ^ 30), .release 0, .malloc 1 3072, .grow 1 fun turn => offered (turn + 3),
    .attach 1, .malloc 0 3060]

theorem pages_accounted_sample : ∃ machine : Machine, machine.released = [190] ∧ machine.state.kernel.owned = {2, 3, 4, 5, 6} ∧
    machine.state.kernel.owned.card * pageSize = (sampleKernel.owned.card + lost machine.released) * pageSize + zsGetTotalSizeBytes
      machine.state := by
  obtain ⟨machine, taken, ended, released, owned⟩ : ∃ machine ∈ steps Machine.step sampleMachine replaced,
      ((machine.stages 0).isNone ∧ (machine.stages 1).isNone) ∧ machine.released = [190] ∧ machine.state.kernel.owned =
          {2, 3, 4, 5, 6} := by
    decide +kernel
  exact ⟨machine, released, owned, pages_accounted (.of_steps (fun _ _ _ => trivial) taken) (quiet_of_steps taken (by decide) ended)⟩

theorem none_live {machine : Machine} (run : AnyRun Machine.step sampleMachine machine)
    (plain : ∀ page ∈ machine.state.kernel.owned, isFirstPage (machine.state.pages page) = false) (handle : Nat) :
    machine.live handle = none := by
  obtain ⟨zspages, models⟩ := Models.of_run run
  cases inUse : machine.live handle with
  | none => rfl
  | some size =>
    obtain ⟨first, z, slot, here, _⟩ := models.objects.handed inUse
    obtain ⟨owned, _, flag⟩ : machine.First sampleKernel first := models.first.mpr ⟨z, here⟩
    rw [plain first owned] at flag
    cases flag

/-- An object is taken, freed, and its zspage released. -/
theorem all_freed_sample : ∃ machine : Machine, machine.released = [190] ∧ machine.state.kernel.owned = {2, 3} ∧
    zsGetTotalSizeBytes machine.state = 0 ∧
    machine.state.kernel.owned.card = sampleKernel.owned.card + lost machine.released ∧ (∀ page, ¬ machine.First sampleKernel page) ∧
      ∀ classIdx (group : FullnessGroup), group.Listed → (machine.state.sizeClass classIdx).fullnessList group = [] := by
  obtain ⟨machine, taken, ended, released, owned, plain⟩ : ∃ machine ∈ steps Machine.step sampleMachine [.malloc 0 3072, .grow 0 offered,
    .attach 0, .free 0 (2 ^ 30), .release 0],
      ((machine.stages 0).isNone ∧ (machine.stages 1).isNone) ∧ machine.released = [190] ∧ machine.state.kernel.owned = {2, 3} ∧
        ∀ page ∈ machine.state.kernel.owned, isFirstPage (machine.state.pages page) = false := by
    decide +kernel
  have run : AnyRun Machine.step sampleMachine machine := .of_steps (fun _ _ _ => trivial) taken
  exact ⟨machine, released, owned, all_freed run (quiet_of_steps taken (by decide) ended) (none_live run plain)⟩

theorem size_bounded_sample : ∃ machine : Machine, machine.Two ∧ ∃ handles : Finset Nat,
    (∀ handle ∈ handles, ∃ size, machine.live handle = some size) ∧
      zsGetTotalSizeBytes machine.state ≤ handles.card * maxZspageOrder * pageSize := by
  obtain ⟨machine, run, two⟩ := twoObjects_live
  exact ⟨machine, two, size_bounded run⟩

/-- Another task takes an object of the same class while the first waits for its pages. -/
theorem request_served_sample : ∃ held after : Machine, ∃ handle data, held.step (.attach 0) = some after ∧ after.stages 0 = none ∧
    held.pool.bytes handle = none ∧ data.length = 3072 ∧ after.pool.bytes handle = some data := by
  obtain ⟨machine, run, wanting, middle, taken, enough⟩ : ∃ machine, AnyRun Machine.step sampleMachine machine ∧ machine.stages 0 =
    some (.wanting 190 3072) ∧
      ∃ middle ∈ steps Machine.step machine [.malloc 1 3060, .grow 1 offered, .attach 1],
        given (fun turn => offered (turn + 3)) (classOrder 190) 0 middle.state.kernel.owned = classOrder 190 :=
    AnyRun.exists_of_steps [.malloc 0 3072] (by decide +kernel)
  have meantime : Run Machine.step (fun _ action => action.task ≠ some 0) machine middle := .of_steps (fun _ => by decide) taken
  obtain ⟨held, _, served⟩ := request_served run wanting meantime enough
  obtain ⟨after, handle, data, attached, ended, new, length, given⟩ := served .start
  exact ⟨held, after, handle, data, attached, ended, new, length, given⟩

/-- All four objects of a zspage are in use when a fifth is asked for. -/
theorem grows_when_full_sample : ∃ machine : Machine, machine.First sampleKernel 1 ∧ (machine.state.pages 1).inuse = 4 ∧
    ((machine.state.pages 1).inuse = 0 ∨ (machine.state.pages 1).inuse = (machine.state.pages 1).objects) := by
  obtain ⟨machine, after, run, taken, first, four, same, grows⟩ := exists_step
    [.malloc 0 3072, .grow 0 offered, .attach 0, .malloc 1 3060, .malloc 0 3072, .malloc 1 3070] (.malloc 1 3072)
    (fun machine => (1 ∈ machine.state.kernel.owned ∧ 1 ∉ sampleKernel.owned ∧ isFirstPage (machine.state.pages 1) = true) ∧
      (machine.state.pages 1).inuse = 4 ∧ (getZspageMapping (machine.state.pages 1)).1 = getSizeClassIndex 3072 ∧
      ∃ after ∈ machine.step (.malloc 1 3072), (after.stages 1).isSome) (by decide +kernel)
  obtain ⟨again, moved, some_⟩ := grows
  obtain rfl := Option.some.inj (taken.symm.trans moved)
  have asks : after.stages 1 ≠ none := fun none_ => by
    rw [none_] at some_
    cases some_
  exact ⟨machine, first, four, grows_when_full run taken asks first same⟩

end Sample
end Compcache.Zsmalloc
