import Compcache.Proofs.ZsmallocRuns

/-! What holds of a pool of zsmalloc and its tasks, and that every action keeps it. -/

namespace Compcache.Zsmalloc
open Library Library.PagedMemory Library.Carving Library.Ownership Library.Runs Library.Windows

section Machines
variable [Arch] [Sparse] {others : Finset Page} {state after : ZsState} {zspages second : SortedMap Zspage} {z : Zspage}
    {first slot size task : Nat}
  {live : Nat → Option Nat} {stages : Nat → Option Stage} {stage : Option Stage} {released : List Nat} {machine next : Machine}

/-! The tasks, and the zspages they hold alone. -/

def Idle (zspages : SortedMap Zspage) (first : Page) : Prop := ∃ z, zspages.find? first = some z ∧ z.slab.inuse = 0

theorem Idle.insert {key : Nat} : Idle (zspages.insert key z) first ↔ if first = key then z.slab.inuse = 0 else Idle zspages first := by
  rw [Idle, SortedMap.find?_insert]
  split
  next => exact ⟨fun ⟨_, same, unused⟩ => Option.some.inj same ▸ unused, fun unused => ⟨z, rfl, unused⟩⟩
  next => exact Iff.rfl

def Stage.page : Stage → Option Page
  | wanting _ _ => none
  | holding _ _ firstPage => some firstPage
  | emptied _ firstPage => some firstPage

def Stage.Fits (zspages : SortedMap Zspage) : Stage → Prop
  | wanting classIdx size => classIdx < zsSizeClasses ∧ size ≤ classSize classIdx
  | holding classIdx size first => size ≤ classSize classIdx ∧ ∃ z, zspages.find? first = some z ∧ z.classIdx = classIdx ∧ z.slab.inuse = 0
  | emptied classIdx first => ∃ z, zspages.find? first = some z ∧ z.classIdx = classIdx ∧ z.slab.inuse = 0

theorem Stage.Fits.congr {stage : Stage} (fits : stage.Fits zspages)
    (same : ∀ first, stage.page = some first → second.find? first = zspages.find? first) :
    stage.Fits second := by
  cases stage with
  | wanting => exact fits
  | holding _ _ first =>
    obtain ⟨large, z, here, rest⟩ := fits
    exact ⟨large, z, (same first rfl).trans here, rest⟩
  | emptied _ first =>
    obtain ⟨z, here, rest⟩ := fits
    exact ⟨z, (same first rfl).trans here, rest⟩

/-- The tasks at work; every zspage of which nothing is in use is held by one of them. -/
structure Crew (stages : Nat → Option Stage) (zspages : SortedMap Zspage) : Prop where
  fits : ∀ {task stage}, stages task = some stage → stage.Fits zspages
  held : Holders (fun task => (stages task).bind Stage.page) (Idle zspages)

theorem Crew.idle {stage : Stage} (crew : Crew stages zspages) (here : stages task = some stage) (page : stage.page = some first) :
    Idle zspages first :=
  crew.held.of_slot (show (stages task).bind Stage.page = some first by rw [here, Option.bind_some, page])

theorem Crew.apart {one other : Stage} {another : Nat} (crew : Crew stages zspages) (here : stages task = some one)
    (there : stages another = some other)
    (page : one.page = some first) (page' : other.page = some first) : another = task :=
  crew.held.single (show (stages another).bind Stage.page = some first by rw [there, Option.bind_some, page'])
    (show (stages task).bind Stage.page = some first by rw [here, Option.bind_some, page])

theorem Crew.congr {key : Page} (crew : Crew stages zspages) (others : ∀ first, first ≠ key → second.find? first = zspages.find? first)
    (used : ¬ Idle zspages key) (used' : ¬ Idle second key) : Crew stages second := by
  have apart {first : Page} (idle : Idle zspages first) : first ≠ key := fun same => used (same ▸ idle)
  refine ⟨fun here => (crew.fits here).congr fun first page => others first (apart (crew.idle here page)), crew.held.congr fun first => ?_⟩
  rcases Classical.em (first = key) with rfl | different
  · exact iff_of_false used' used
  · rw [Idle, Idle, others first different]

omit [Arch] [Sparse] in
theorem bind_update {α : Type} (project : Stage → Option α) (stage : Option Stage) :
    (fun other => (Function.update stages task stage other).bind project) = Function.update (fun other => (stages other).bind project) task
      (stage.bind project) :=
  Function.comp_update (fun stage : Option Stage => stage.bind project) stages task stage

theorem Crew.move (crew : Crew stages zspages)
    (kept : ∀ {another stage first}, another ≠ task → stages another = some stage → stage.page = some first →
      second.find? first = zspages.find? first)
    (fits : ∀ {now}, stage = some now → now.Fits second)
    (held : Holders (Function.update (fun other => (stages other).bind Stage.page) task (stage.bind Stage.page)) (Idle second)) :
    Crew (Function.update stages task stage) second := by
  refine ⟨fun {another now} there => ?_, by rwa [bind_update]⟩
  rcases Classical.em (another = task) with rfl | different
  · rw [Function.update_self] at there
    exact fits there
  · rw [Function.update_of_ne different] at there
    exact (crew.fits there).congr fun first page => kept different there page

/-! The counts of pages. -/

/-- The pages of a zspage that count as allocated. -/
def counts (classIdx : Nat) (_ : Nat) (z : Zspage) : Int := if z.classIdx = classIdx ∧ z.slab.inuse ≠ 0 then classOrder classIdx else 0

def lost (released : List Nat) : Nat := (released.map fun classIdx => classOrder classIdx - 1).sum

structure Accounts (others : Finset Page) (state : ZsState) (released : List Nat) (zspages : SortedMap Zspage) : Prop where
  pages : ∀ classIdx, ((state.sizeClass classIdx).pagesAllocated : Int) = zspages.sum (counts classIdx)
  counted : (state.kernel.owned.card : Int) = others.card + zspages.sum (fun _ z => classOrder z.classIdx) + lost released
  frames : ∀ page ∈ state.kernel.owned, page ∈ others ∨ page < 2 ^ pfnBits
  firsts : ∀ page ∈ state.kernel.owned, page ∈ others ∨ (∃ z, zspages.find? page = some z) ∨ isFirstPage (state.pages page) = false

theorem counts_nonneg (classIdx key : Nat) (z : Zspage) : 0 ≤ counts classIdx key z := by
  unfold counts
  split
  · exact Int.natCast_nonneg _
  · exact Int.le_refl 0

theorem Accounts.touch {slab : Slab (classObjects z.classIdx)} (accounts : Accounts others state released zspages)
    (here : zspages.find? z.first = some z)
    (owned : after.kernel.owned = state.kernel.owned) (pages : ∀ frame, frame ≠ z.first → after.pages frame = state.pages frame)
    (counted : ∀ classIdx, ((after.sizeClass classIdx).pagesAllocated : Int) =
      (state.sizeClass classIdx).pagesAllocated - counts classIdx z.first z + counts classIdx z.first (z.withSlab slab)) :
    Accounts others after released (zspages.insert z.first (z.withSlab slab)) := by
  refine ⟨fun classIdx => ?_, ?_, ?_, fun page member => ?_⟩
  · rw [counted, accounts.pages, SortedMap.sum_update here]
  · rw [owned, accounts.counted, SortedMap.sum_update here, show (z.withSlab slab).classIdx = z.classIdx from rfl]
    omega
  · rw [owned]
    exact accounts.frames
  · rw [owned] at member
    rcases Classical.em (page = z.first) with rfl | different
    · exact .inr (.inl ⟨_, SortedMap.find?_insert_self ..⟩)
    · rw [pages page different, SortedMap.find?_insert_ne _ _ different]
      exact accounts.firsts page member

theorem Accounts.grow {classIdx : Nat} (accounts : Accounts others state released zspages) (new : zspages.find? z.first = none)
    (made : Made classIdx state z after) :
    Accounts others after released (zspages.insert z.first z) := by
  refine ⟨fun other => ?_, ?_, fun page member => ?_, fun page member => ?_⟩
  · rw [made.classes, accounts.pages, SortedMap.sum_insert_new new, counts, if_neg fun both => both.2 made.unused, Int.zero_add]
  · have disjoint : Disjoint state.kernel.owned z.pages.toFinset :=
      Finset.disjoint_left.mpr fun page old member => made.fresh page (List.mem_toFinset.mp member) old
    have size : z.pages.toFinset.card = classOrder z.classIdx := (List.toFinset_card_of_nodup z.nodup).trans Zspage.pages_length
    rw [made.owned, Finset.card_union_of_disjoint disjoint, size, SortedMap.sum_insert_new new]
    have before := accounts.counted
    omega
  · rw [made.owned, Finset.mem_union, List.mem_toFinset] at member
    rcases member with old | own
    · exact accounts.frames page old
    · exact .inr (z.frames page own).2
  · rw [made.owned, Finset.mem_union, List.mem_toFinset] at member
    rcases Classical.em (page ∈ z.pages) with own | outside
    · obtain ⟨row, here⟩ := List.mem_iff_getElem?.mp own
      rcases Nat.eq_zero_or_pos row with rfl | inner
      · obtain rfl : z.first = page := Option.some.inj here
        exact .inr (.inl ⟨z, SortedMap.find?_insert_self ..⟩)
      · exact .inr (.inr (Bool.eq_false_iff.mpr fun flag => Nat.ne_of_gt inner ((made.shaped.flag here).mp flag)))
    · have different : page ≠ z.first := fun same => outside (same ▸ List.mem_cons_self)
      rw [(made.outside page outside).2, SortedMap.find?_insert_ne _ _ different]
      exact accounts.firsts page (member.resolve_right outside)

theorem Accounts.release (accounts : Accounts others state released zspages) (here : zspages.find? z.first = some z)
    (unused : z.slab.inuse = 0)
    (owned : z.first ∈ state.kernel.owned) (kernel : after.kernel = state.kernel.without z.first)
    (classes : after.sizeClass = state.sizeClass)
    (pages : ∀ page, page ≠ z.first → after.pages page = state.pages page) : Accounts others after (z.classIdx :: released)
    (zspages.erase z.first) := by
  have left : after.kernel.owned = state.kernel.owned.erase z.first := by rw [kernel]; rfl
  refine ⟨fun other => ?_, ?_, fun page member => ?_, fun page member => ?_⟩
  · have before := accounts.pages other
    rw [SortedMap.sum_erase here, counts, if_neg fun both => both.2 unused, Int.zero_add] at before
    rw [classes, before]
  · have before := accounts.counted
    have positive := (classOrder_bounds z.classIdx).1
    have some_ : 0 < state.kernel.owned.card := Finset.card_pos.mpr ⟨_, owned⟩
    rw [SortedMap.sum_erase here] at before
    rw [left, Finset.card_erase_of_mem owned, lost, List.map_cons, List.sum_cons]
    rw [lost] at before
    omega
  · rw [left] at member
    exact accounts.frames page (Finset.mem_of_mem_erase member)
  · rw [left] at member
    have different := Finset.ne_of_mem_erase member
    rw [pages page different, SortedMap.find?_erase_ne _ different]
    exact accounts.firsts page (Finset.mem_of_mem_erase member)

/-- A machine, and the zspages of its pool. -/
structure Models (others : Finset Page) (machine : Machine) (zspages : SortedMap Zspage) : Prop where
  heap : Heap others machine.state zspages
  objects : Objects machine.live zspages
  crew : Crew machine.stages zspages
  accounts : Accounts others machine.state machine.released zspages

theorem Models.bytes (models : Models others machine zspages) (here : zspages.find? first = some z)
    (inside : slot < classObjects z.classIdx)
    (inUse : machine.live (z.handle slot) = some size) :
    machine.pool.bytes (z.handle slot) = some (z.bytes machine.state.kernel.memory slot size) := by
  show (machine.live (z.handle slot)).bind _ = _
  rw [inUse, Option.bind_some, models.heap.read here inside]

theorem Models.create (kernel : Kernel) (pages : Page → PageStruct) : Models kernel.owned (.create kernel pages) .empty := by
  have none_ (first : Page) : ¬ Idle .empty first := by
    rintro ⟨_, found, _⟩
    cases found
  refine ⟨.create kernel pages, ⟨?_, ?_⟩, ⟨?_, ?_⟩, ⟨fun _ => rfl, ?_, fun page member => .inl member, fun page member => .inl member⟩⟩
  · intro handle size given
    cases given
  · intro first z slot found
    cases found
  · intro task stage found
    cases found
  · exact Holders.empty.congr fun first => iff_of_false (none_ first) id
  · show (kernel.owned.card : Int) = kernel.owned.card + 0 + 0
    omega

/-! One action. -/

/-- An action is taken as the pool means it, and leaves the zspages in order. -/
def Goes (others : Finset Page) (machine : Machine) (action : Action) : Prop :=
  ∃ after second, machine.step action = some after ∧ Models others after second ∧ machine.pool.Does action after.pool

theorem bytes_kept {handle : Nat} (same : next.live handle = machine.live handle)
    (reads : ∀ {size}, machine.live handle = some size → next.state.read handle size = machine.state.read handle size) :
    next.pool.bytes handle = machine.pool.bytes handle := by
  show (next.live handle).bind _ = (machine.live handle).bind _
  rw [same]
  cases given : machine.live handle with
  | none => rfl
  | some size => exact reads given

/-- A zspage on one of the lists has an object in use, and a free one. -/
theorem Heap.found {classIdx : Nat} (heap : Heap others state zspages) (found : findGetZspage (state.sizeClass classIdx) = some first) :
    ∃ z, zspages.find? first = some z ∧ z.classIdx = classIdx ∧ z.slab.inuse ≠ 0 ∧ z.slab.inuse ≠ classObjects z.classIdx := by
  have listed : ∃ z, zspages.find? first = some z ∧ z.classIdx = classIdx ∧ (z.group = .almostFull ∨ z.group = .almostEmpty) := by
    rcases List.mem_append.mp (List.mem_of_head? found) with full | empty
    · obtain ⟨z, here, known, group⟩ := ((heap.lists classIdx .almostFull FullnessGroup.almostFull_listed).2 first).mp full
      exact ⟨z, here, known, .inl group⟩
    · obtain ⟨z, here, known, group⟩ := ((heap.lists classIdx .almostEmpty FullnessGroup.almostEmpty_listed).2 first).mp empty
      exact ⟨z, here, known, .inr group⟩
  obtain ⟨z, here, known, group⟩ := listed
  refine ⟨z, here, known, fun none_ => ?_, fun all => ?_⟩
  · rw [(Zspage.group_empty z).mpr none_] at group
    rcases group with wrong | wrong <;> cases wrong
  · have full : z.group = .full := by
      rw [Zspage.group, if_neg, if_pos all]
      rw [all]
      exact Nat.ne_of_gt (classObjects_bounds _).1
    rw [full] at group
    rcases group with wrong | wrong <;> cases wrong

/-- What is known of a zspage after an object is taken. -/
structure Taken (others : Finset Page) (state : ZsState) (live : Nat → Option Nat) (zspages : SortedMap Zspage) (z : Zspage)
    (slot size : Nat) (after : ZsState) : Prop where
  inside : slot < classObjects z.classIdx
  fresh : live (z.handle slot) = none
  heap : Heap others after (zspages.insert z.first (z.withSlab z.slab.take))
  objects : Objects (Function.update live (z.handle slot) (some size)) (zspages.insert z.first (z.withSlab z.slab.take))
  touched : Touched z slot (z.withSlab z.slab.take).group state after
  counted : z.slab.take.inuse = z.slab.inuse + 1

theorem Heap.take (heap : Heap others state zspages) (objects : Objects live zspages) (here : zspages.find? z.first = some z)
    (room : z.slab.inuse ≠ classObjects z.classIdx) (fits : size ≤ z.size) :
    ∃ after slot, takeObject state z.classIdx z.first = some (after, z.handle slot) ∧
      Taken others state live zspages z slot size after := by
  obtain ⟨slot, tail, free⟩ : ∃ slot tail, z.free = slot :: tail := by
    refine List.exists_cons_of_ne_nil fun empty => room (Slab.inuse_eq_objects.mpr (.inr empty))
  obtain ⟨after, step, shaped, touched⟩ := takeObject_spec (heap.shaped here) free (heap.sized _).1 (heap.onList here)
  have inside : slot < classObjects z.classIdx := z.freeBound slot (free ▸ List.mem_cons_self)
  exact ⟨after, slot, step, inside, objects.fresh heap here (inside.trans_le (classSlots_bounds _).1) (Slab.not_used_first free),
    heap.touch here shaped touched, objects.take here free fits, touched, Slab.inuse_take free⟩

theorem Taken.bytes {after : ZsState} (taken : Taken others state machine.live zspages z slot size after) (heap : Heap others state zspages)
    (objects : Objects machine.live zspages) (here : zspages.find? z.first = some z)
    (same : ∀ {handle count}, machine.live handle = some count → state.read handle count = machine.state.read handle count)
    (state_ : next.state = after) (live_ : next.live = Function.update machine.live (z.handle slot) (some size)) :
    next.pool.bytes = Function.update machine.pool.bytes (z.handle slot) (some (z.bytes after.kernel.memory slot size)) := by
  refine Function.eq_update_iff.mpr ⟨?_, fun handle apart => bytes_kept ?_ fun {count} inUse => ?_⟩
  · show (next.live (z.handle slot)).bind _ = _
    rw [live_, Function.update_self, Option.bind_some, state_]
    have read : after.read ((z.withSlab z.slab.take).handle slot) size =
        some ((z.withSlab z.slab.take).bytes after.kernel.memory slot size) :=
      taken.heap.read (SortedMap.find?_insert_self ..) taken.inside
    exact read
  · rw [live_, Function.update_of_ne apart]
  · rw [state_, objects.read_touch heap taken.heap here taken.touched.memory inUse apart, same inUse]

theorem Zspage.bytes_length (z : Zspage) (memory : Memory Page) (slot count : Nat) :
    (z.bytes memory slot count).length = count := readWindow_length

theorem Zspage.handle_pos (inside : slot < classObjects z.classIdx) : z.handle slot ≠ 0 :=
  handle_ne_zero (Zspage.fits (inside.trans_le (classSlots_bounds _).1))

theorem used_not_idle (here : zspages.find? first = some z) (used : z.slab.inuse ≠ 0) : ¬ Idle zspages first := by
  rintro ⟨z', there, unused⟩
  obtain rfl := Option.some.inj (here.symm.trans there)
  exact used unused

theorem pool_setStage (machine : Machine) (task : Nat) (stage : Option Stage) :
    (machine.setStage task stage).pool = { machine.pool with asked := Function.update machine.pool.asked task (stage.bind Stage.size) } :=
  congrArg (Pool.mk · machine.pool.bytes) (bind_update Stage.size stage)

theorem pool_setStage_same (machine : Machine) (same : stage.bind Stage.size = (machine.stages task).bind Stage.size) :
    (machine.setStage task stage).pool = machine.pool := by
  have asked : Function.update machine.pool.asked task (stage.bind Stage.size) = machine.pool.asked := Function.update_eq_self_iff.mpr same
  rw [pool_setStage, asked]

theorem no_bytes {handle : Nat} (fresh : machine.live handle = none) : machine.pool.bytes handle = none := by
  show (machine.live handle).bind _ = none
  rw [fresh, Option.bind_none]

omit [Sparse] [Arch] in
theorem no_page (before : (stages task).bind Stage.page = none) (after : stage.bind Stage.page = none) :
    Function.update (fun other => (stages other).bind Stage.page) task (stage.bind Stage.page) =
      fun other => (stages other).bind Stage.page := by
  rw [after]
  exact Function.update_eq_self_iff.mpr before.symm

theorem counts_in_use {slab : Slab (classObjects z.classIdx)} {classIdx key : Nat} (used : slab.inuse ≠ 0) :
    counts classIdx key (z.withSlab slab) = if classIdx = z.classIdx then (classOrder classIdx : Int) else 0 :=
  if_congr ⟨fun both => both.1.symm, fun same => ⟨same.symm, used⟩⟩ rfl rfl

theorem counts_unused {classIdx key : Nat} (unused : z.slab.inuse = 0) : counts classIdx key z = 0 := if_neg fun both => both.2 unused

theorem Touched.pagesAllocated {group : FullnessGroup} (touched : Touched z slot group state after) (classIdx : Nat) :
    (after.sizeClass classIdx).pagesAllocated = (state.sizeClass classIdx).pagesAllocated := by
  obtain ⟨lists, classes, _⟩ := touched.classes
  rw [classes]
  rcases Classical.em (classIdx = z.classIdx) with rfl | different
  · rw [Function.update_self]
  · rw [Function.update_of_ne different]

theorem Models.malloc (models : Models others machine zspages) (idle : machine.stages task = none) (size : Nat) :
    Goes others machine (.malloc task size) := by
  have step {state : ZsState} {outcome : Malloc} (result : zsMalloc machine.state size = some (state, outcome)) :
    machine.step (.malloc task size) =
      some (match outcome with
        | .null => { machine with state := state }
        | .object handle => { machine with state := state }.setLive handle (some size)
        | .grow classIdx => { machine with state := state }.setStage task (some (.wanting classIdx size))) := by
    unfold Machine.step
    simp only [idle, result, Option.map_some]
    cases outcome <;> rfl
  have result : zsMalloc machine.state size = zsMalloc machine.state size := rfl
  conv at result => rhs; unfold zsMalloc
  split at result
  next refused => exact ⟨machine, zspages, step result, models, .null refused⟩
  next proper =>
    obtain ⟨known, large⟩ := getSizeClassIndex_spec (Nat.le_of_not_lt fun more => proper (.inr more))
    rw [if_neg (not_not_intro (models.heap.sized _).2.1.symm)] at result
    split at result
    next =>
      refine ⟨_, zspages, step result, ⟨models.heap, models.objects, ?_, models.accounts⟩, ?_⟩
      · refine models.crew.move (fun _ _ _ => rfl) ?_ ?_
        · rintro _ ⟨⟩
          exact ⟨known, large⟩
        · rw [no_page (by rw [idle, Option.bind_none]) rfl]
          exact models.crew.held
      · dsimp only
        rw [pool_setStage]
        exact .ask (show (machine.stages task).bind Stage.size = none by rw [idle, Option.bind_none])
    next first found =>
      obtain ⟨z, here, class_, used, room⟩ := models.heap.found found
      obtain rfl := models.heap.keyed here
      obtain ⟨after, slot, took, taken⟩ := models.heap.take models.objects here room (class_ ▸ large)
      rw [class_] at took
      rw [took] at result
      have used' : z.slab.take.inuse ≠ 0 := by
        rw [taken.counted]
        exact Nat.succ_ne_zero _
      have bytes : ({ machine with state := after }.setLive (z.handle slot) (some size)).pool.bytes = _ :=
        taken.bytes models.heap models.objects here (fun _ => rfl) rfl rfl
      refine ⟨_, _, step result, ⟨taken.heap, taken.objects, ?_, ?_⟩, ?_⟩
      · refine models.crew.congr (fun first different => SortedMap.find?_insert_ne _ _ different) (used_not_idle here used) ?_
        exact used_not_idle (SortedMap.find?_insert_self ..) used'
      · refine models.accounts.touch here taken.touched.owned taken.touched.pages fun classIdx => ?_
        show ((after.sizeClass classIdx).pagesAllocated : Int) = _
        have counted : counts classIdx z.first z = if classIdx = z.classIdx then (classOrder classIdx : Int) else 0 := counts_in_use used
        rw [taken.touched.pagesAllocated, counted, counts_in_use used']
        exact (Int.sub_add_cancel ..).symm
      · have does : machine.pool.Does (.malloc task size) _ :=
          .object (Zspage.handle_pos taken.inside) (no_bytes taken.fresh) (z.bytes_length after.kernel.memory slot size)
        rw [← bytes] at does
        exact does

/-- A class grows unless there is memory for the first pages of a zspage and not for all. -/
theorem Models.grow {classIdx : Nat} (models : Models others machine zspages)
    (wanting : machine.stages task = some (.wanting classIdx size))
    (allocators : Nat → SparseAllocator) :
    (machine.step (.grow task allocators) = none ∧ 0 < given allocators (classOrder classIdx) 0 machine.state.kernel.owned ∧
      given allocators (classOrder classIdx) 0 machine.state.kernel.owned < classOrder classIdx) ∨
    (Goes others machine (.grow task allocators) ∧ (given allocators (classOrder classIdx) 0 machine.state.kernel.owned = 0 ∨
      given allocators (classOrder classIdx) 0 machine.state.kernel.owned = classOrder classIdx)) := by
  obtain ⟨known, large⟩ : classIdx < zsSizeClasses ∧ size ≤ classSize classIdx := models.crew.fits wanting
  have page : (machine.stages task).bind Stage.page = none := by rw [wanting]; rfl
  have step : machine.step (.grow task allocators) = (growClass machine.state classIdx allocators).map fun made =>
      { machine with state := made.2 }.setStage task (if made.1 = noPage then none else some (.holding classIdx size made.1)) := by
    unfold Machine.step
    simp only [wanting]
  have grows := growClass_spec models.heap.sized known allocators
  generalize growClass machine.state classIdx allocators = result at grows step
  cases grows with
  | short some_ fewer => exact .inl ⟨step, some_, fewer⟩
  | refused none_ =>
    refine .inr ⟨⟨_, zspages, step, ⟨models.heap, models.objects, ?_, models.accounts⟩, ?_⟩, .inl none_⟩
    · refine models.crew.move (fun _ _ _ => rfl) ?_ ?_
      · rintro _ ⟨⟩
      · dsimp only
        rw [no_page page rfl]
        exact models.crew.held
    · dsimp only
      rw [pool_setStage]
      exact .refuse
  | @made z after all made =>
    have new := made.new models.heap
    have present : z.first ≠ noPage := Nat.ne_of_gt (z.frames z.first List.mem_cons_self).1
    rw [Option.map_some, if_neg present] at step
    obtain rfl := made.sameClass
    have apart {first : Page} {z' : Zspage} (there : zspages.find? first = some z') : first ≠ z.first := by
      rintro rfl
      rw [new] at there
      cases there
    refine .inr ⟨⟨_, zspages.insert z.first z, step, ⟨models.heap.grow made, models.objects.grow new made.unused, ?_,
      models.accounts.grow new made⟩, ?_⟩, .inr all⟩
    · refine models.crew.move (fun _ there page => ?_) ?_ ?_
      · obtain ⟨z', here, _⟩ := models.crew.idle there page
        exact SortedMap.find?_insert_ne _ _ (apart here)
      · rintro _ ⟨⟩
        exact ⟨large, z, SortedMap.find?_insert_self .., rfl, made.unused⟩
      · refine (models.crew.held.fill page fun ⟨z', there, _⟩ => apart there rfl).congr fun first => ?_
        rw [Idle.insert]
        split
        next same => exact iff_of_true made.unused (.inr same)
        next different => exact (or_iff_left different).symm
    · have asked : (some (Stage.holding z.classIdx size z.first)).bind Stage.size =
        (machine.stages task).bind Stage.size := by rw [wanting]; rfl
      have bytes : ({ machine with state := after } : Machine).pool.bytes = machine.pool.bytes := funext fun handle =>
        bytes_kept rfl fun inUse => models.objects.read_kept models.heap (models.heap.grow made) (fun {first z' slot} there _ => by
          refine ⟨(SortedMap.find?_insert_ne _ _ (apart there)).trans there, fun page member => (made.outside page fun own => ?_).1⟩
          exact made.fresh page own (models.heap.owned there member).1) inUse
      have same : ({ machine with state := after } : Machine).pool = machine.pool := congrArg (Pool.mk machine.pool.asked) bytes
      dsimp only
      rw [pool_setStage_same { machine with state := after } asked, same]
      exact .grow

omit [Arch] [Sparse] in
theorem setPages_pagesAllocated (state : ZsState) (classIdx count other : Nat) :
    ((state.setClass classIdx { state.sizeClass classIdx with pagesAllocated := count }).sizeClass other).pagesAllocated =
      if other = classIdx then count else (state.sizeClass other).pagesAllocated := by
  show (Function.update state.sizeClass classIdx _ other).pagesAllocated = _
  split
  next same => rw [same, Function.update_self]
  next different => rw [Function.update_of_ne different]

theorem Models.attach {classIdx : Nat} (models : Models others machine zspages)
    (holding : machine.stages task = some (.holding classIdx size first)) :
    Goes others machine (.attach task) := by
  obtain ⟨large, z, here, rfl, unused⟩ : size ≤ classSize classIdx ∧ ∃ z, zspages.find? first = some z ∧ z.classIdx = classIdx ∧
      z.slab.inuse = 0 :=
    models.crew.fits holding
  obtain rfl := models.heap.keyed here
  have counted :=
    models.heap.setPages z.classIdx ((machine.state.sizeClass z.classIdx).pagesAllocated + (machine.state.sizeClass z.classIdx).zspageOrder)
  have some_ := (classObjects_bounds z.classIdx).1
  obtain ⟨after, slot, took, taken⟩ := counted.take models.objects here (by omega) large
  have step : machine.step (.attach task) =
      some (({ machine with state := after }.setLive (z.handle slot) (some size)).setStage task none) := by
    unfold Machine.step attachZspage
    simp only [holding, took, Option.map_some]
  have used : z.slab.take.inuse ≠ 0 := by
    rw [taken.counted]
    exact Nat.succ_ne_zero _
  have page : (machine.stages task).bind Stage.page = some z.first := by rw [holding]; rfl
  refine ⟨_, _, step, ⟨taken.heap, taken.objects, ?_, ?_⟩, ?_⟩
  · refine models.crew.move (fun {another now first} different there page => SortedMap.find?_insert_ne _ _ ?_) ?_ ?_
    · rintro rfl
      exact different (models.crew.apart holding there rfl page)
    · rintro _ ⟨⟩
    · refine (models.crew.held.clear page).congr fun first => ?_
      rw [Idle.insert]
      split
      next same => exact iff_of_false used fun both => both.2 same
      next different => exact (and_iff_left different).symm
  · refine models.accounts.touch here taken.touched.owned taken.touched.pages fun classIdx => ?_
    show ((after.sizeClass classIdx).pagesAllocated : Int) = _
    rw [taken.touched.pagesAllocated, setPages_pagesAllocated, (models.heap.sized _).2.2, counts_unused unused, counts_in_use used]
    split
    next same => rw [same, Int.sub_zero, Int.natCast_add]
    next => rw [Int.sub_zero, Int.add_zero]
  · have bytes : ({ machine with state := after }.setLive (z.handle slot) (some size)).pool.bytes = _ :=
      taken.bytes counted models.objects here (fun inUse => models.objects.read_kept models.heap counted
        (fun there _ => ⟨there, fun _ _ => rfl⟩) inUse) rfl rfl
    have wanted : machine.pool.asked task = some size := by
      show (machine.stages task).bind Stage.size = _
      rw [holding]
      rfl
    have does : machine.pool.Does (.attach task) _ :=
      .attach wanted (Zspage.handle_pos taken.inside) (no_bytes taken.fresh) (z.bytes_length after.kernel.memory slot size)
    rw [← bytes] at does
    rw [pool_setStage]
    exact does

theorem Heap.uncount (heap : Heap others state zspages) (z : Zspage) : Heap others (state.uncount z) zspages := by
  unfold ZsState.uncount
  split
  · exact heap.setPages _ _
  · exact heap

theorem uncount_emptied (none_ : z.slab.inuse = 0) : state.uncount z = state.setClass z.classIdx { state.sizeClass z.classIdx with
    pagesAllocated := (state.sizeClass z.classIdx).pagesAllocated - (state.sizeClass z.classIdx).zspageOrder } := if_pos none_

theorem uncount_same (state : ZsState) (z : Zspage) : (state.uncount z).kernel = state.kernel ∧ (state.uncount z).pages = state.pages := by
  unfold ZsState.uncount
  split <;> exact ⟨rfl, rfl⟩

theorem Models.free {handle : Nat} (models : Models others machine zspages) (idle : machine.stages task = none)
    (inUse : machine.live handle = some size) :
    Goes others machine (.free task handle) := by
  obtain ⟨first, z, slot, here, used, rfl, large⟩ := models.objects.handed inUse
  obtain rfl := models.heap.keyed here
  obtain ⟨after, freed, shaped, touched⟩ := zsFree_spec (models.heap.shaped here) used (models.heap.sized _).1 (models.heap.onList here)
  have less := Slab.inuse_give used
  have some_ : z.slab.inuse ≠ 0 := by omega
  obtain ⟨kernel, pages⟩ := uncount_same after (z.withSlab (z.slab.give slot used))
  have heap := models.heap.touch here shaped touched
  have step : machine.step (.free task (z.handle slot)) =
    some (({ machine with state := after.uncount (z.withSlab (z.slab.give slot used)) }.setLive (z.handle slot) none).setStage task
      (if (z.slab.give slot used).inuse = 0 then some (.emptied z.classIdx z.first) else none)) := by
    unfold Machine.step
    simp only [idle, inUse, freed, Option.map_some]
    have stage : (z.withSlab (z.slab.give slot used)).emptied.map (fun found => Stage.emptied found.1 found.2) =
        if (z.slab.give slot used).inuse = 0 then some (.emptied z.classIdx z.first) else none := by
      split
      next none_ => rw [show (z.withSlab (z.slab.give slot used)).emptied = some (z.classIdx, z.first) from if_pos none_, Option.map_some]
      next left => rw [show (z.withSlab (z.slab.give slot used)).emptied = none from if_neg left, Option.map_none]
    rw [stage]
  have page : (machine.stages task).bind Stage.page = none := by rw [idle]; rfl
  have reads {other count : Nat} (found : machine.live other = some count) (apart : other ≠ z.handle slot) :
      (after.uncount (z.withSlab (z.slab.give slot used))).read other count = machine.state.read other count := by
    refine models.objects.read_touch models.heap (heap.uncount _) here ?_ found apart
    rw [kernel]
    exact touched.memory
  have bytes : ({ machine with state := after.uncount (z.withSlab (z.slab.give slot used)) }.setLive (z.handle slot) none).pool.bytes =
      Function.update machine.pool.bytes (z.handle slot) none := by
    refine Function.eq_update_iff.mpr ⟨?_, fun other apart => bytes_kept (Function.update_of_ne apart _ _)
      fun {count} found => reads found apart⟩
    show (Function.update machine.live (z.handle slot) none (z.handle slot)).bind _ = none
    rw [Function.update_self, Option.bind_none]
  refine ⟨_, _, step, ⟨heap.uncount _, models.objects.give models.heap here used, ?_, ?_⟩, ?_⟩
  · refine models.crew.move (fun {another now first} different there page => SortedMap.find?_insert_ne _ _ ?_) ?_ ?_
    · rintro rfl
      exact used_not_idle here some_ (models.crew.idle there page)
    · intro now same
      split at same
      next none_ =>
        cases same
        exact ⟨z.withSlab (z.slab.give slot used), SortedMap.find?_insert_self .., rfl, none_⟩
      next => cases same
    · split
      next none_ =>
        refine (models.crew.held.fill page (used_not_idle here some_)).congr fun first => ?_
        rw [Idle.insert]
        split
        next same => exact iff_of_true none_ (.inr same)
        next different => exact (or_iff_left different).symm
      next left =>
        rw [no_page page rfl]
        refine models.crew.held.congr fun first => ?_
        rw [Idle.insert]
        split
        next same => exact iff_of_false left (same ▸ used_not_idle here some_)
        next => exact Iff.rfl
  · refine models.accounts.touch here (kernel ▸ touched.owned) (fun frame apart => (congrFun pages frame).trans (touched.pages frame apart))
      fun classIdx => ?_
    have counted : counts classIdx z.first z = if classIdx = z.classIdx then (classOrder classIdx : Int) else 0 := counts_in_use some_
    show (((after.uncount (z.withSlab (z.slab.give slot used))).sizeClass classIdx).pagesAllocated : Int) = _
    rw [counted]
    rcases Classical.em ((z.slab.give slot used).inuse = 0) with none_ | left
    · have enough : (classOrder z.classIdx : Int) ≤ (machine.state.sizeClass z.classIdx).pagesAllocated := by
        have own : counts z.classIdx z.first z = if z.classIdx = z.classIdx then (classOrder z.classIdx : Int) else 0 := counts_in_use some_
        have le := SortedMap.le_sum here (counts_nonneg z.classIdx)
        rwa [← models.accounts.pages, own, if_pos rfl] at le
      rw [counts_unused (z := z.withSlab (z.slab.give slot used)) none_, uncount_emptied (z := z.withSlab (z.slab.give slot used)) none_,
        setPages_pagesAllocated, (heap.sized _).2.2, touched.pagesAllocated, touched.pagesAllocated,
          show (z.withSlab (z.slab.give slot used)).classIdx = z.classIdx from rfl]
      split
      next same =>
        rw [same]
        omega
      next => omega
    · rw [counts_in_use left, show after.uncount (z.withSlab (z.slab.give slot used)) = after from if_neg left, touched.pagesAllocated]
      omega
  · have does : machine.pool.Does (.free task (z.handle slot)) _ := .free (models.bytes here used.1 inUse)
    rw [← bytes] at does
    have asked : (if (z.slab.give slot used).inuse = 0 then some (Stage.emptied z.classIdx z.first) else none).bind Stage.size =
        (machine.stages task).bind Stage.size := by
      rw [idle]
      split <;> rfl
    rw [pool_setStage_same (Machine.setLive { machine with state := after.uncount (z.withSlab (z.slab.give slot used)) }
      (z.handle slot) none) asked]
    exact does

theorem Models.release {classIdx : Nat} (models : Models others machine zspages)
    (emptied : machine.stages task = some (.emptied classIdx first)) :
    Goes others machine (.release task) := by
  obtain ⟨z, here, rfl, unused⟩ : ∃ z, zspages.find? first = some z ∧ z.classIdx = classIdx ∧ z.slab.inuse = 0 := models.crew.fits emptied
  obtain rfl := models.heap.keyed here
  obtain ⟨after, freed, kernel, classes, pages⟩ :=
    freeZspage_spec (models.heap.shaped here) unused (models.heap.owned here List.mem_cons_self).1
  have page : (machine.stages task).bind Stage.page = some z.first := by rw [emptied]; rfl
  have step : machine.step (.release task) =
      some ({ machine with state := after, released := z.classIdx :: machine.released }.setStage task none) := by
    unfold Machine.step
    simp only [emptied, freed, Option.map_some]
  have heap := models.heap.release here unused kernel classes pages
  refine ⟨_, _, step, ⟨heap, models.objects.release here unused, ?_, ?_⟩, ?_⟩
  · refine models.crew.move (fun {another now first} different there page => SortedMap.find?_erase_ne _ ?_) ?_ ?_
    · rintro rfl
      exact different (models.crew.apart emptied there rfl page)
    · rintro _ ⟨⟩
    · refine (models.crew.held.clear page).congr fun first => ?_
      rw [Idle, SortedMap.find?_erase]
      split
      next same => exact iff_of_false (fun ⟨_, found, _⟩ => by cases found) fun both => both.2 same
      next different => exact (and_iff_left different).symm
  · exact models.accounts.release here unused (models.heap.owned here List.mem_cons_self).1 kernel classes pages
  · have asked : (none : Option Stage).bind Stage.size = (machine.stages task).bind Stage.size := by rw [emptied]; rfl
    have bytes : ({ machine with state := after } : Machine).pool.bytes = machine.pool.bytes := funext fun handle =>
      bytes_kept rfl fun inUse => models.objects.read_kept models.heap heap (fun {first z' slot} there used => by
        refine ⟨(SortedMap.find?_erase_ne _ ?_).trans there, fun page _ => by rw [kernel]; rfl⟩
        rintro rfl
        obtain rfl := Option.some.inj (here.symm.trans there)
        exact Slab.unused unused used) inUse
    have same : ({ machine with state := after, released := z.classIdx :: machine.released } : Machine).pool = machine.pool :=
      congrArg (Pool.mk machine.pool.asked) bytes
    rw [pool_setStage_same { machine with state := after, released := z.classIdx :: machine.released } asked, same]
    exact .release

theorem Models.write {handle offset : Nat} {data : List UInt8} (models : Models others machine zspages)
    (inUse : machine.live handle = some size)
    (fits : offset + data.length ≤ size) : Goes others machine (.write handle offset data) := by
  obtain ⟨first, z, slot, here, used, rfl, large⟩ := models.objects.handed inUse
  obtain rfl := models.heap.keyed here
  have mapped := zsMapObject_spec (models.heap.shaped here) used.1 (models.heap.sized _).1
  have changes := Zspage.write_changes machine.state.kernel.memory used.1 (fits.trans large)
  have heap := models.heap.write here used changes
  have step : machine.step (.write (z.handle slot) offset data) = some { machine with
      state := machine.state.setMemory (writeWindow pageSize machine.state.kernel.memory (z.window slot)
          (z.offset slot + offset) data) } := by
    unfold Machine.step
    simp only [inUse, if_pos fits, mapped, Option.map_some]
  refine ⟨_, zspages, step, ⟨heap, models.objects, models.crew, ⟨models.accounts.pages, models.accounts.counted, models.accounts.frames,
    models.accounts.firsts⟩⟩, ?_⟩
  have bytes : ({ machine with
      state := machine.state.setMemory (writeWindow pageSize machine.state.kernel.memory (z.window slot) (z.offset slot + offset) data) } :
        Machine).pool.bytes =
        Function.update machine.pool.bytes (z.handle slot) (some (splice (z.bytes machine.state.kernel.memory slot size) offset data)) := by
    refine Function.eq_update_iff.mpr ⟨?_, fun other apart => bytes_kept rfl fun {count} found => ?_⟩
    · show (machine.live (z.handle slot)).bind _ = _
      rw [inUse, Option.bind_some, heap.read here used.1, ← Zspage.bytes_write _ used.1 large fits]
      rfl
    · have again : zspages.insert z.first (z.withSlab z.slab) = zspages := SortedMap.insert_same here
      exact models.objects.read_touch models.heap (again.symm ▸ heap) here changes found apart
  have does : machine.pool.Does (.write (z.handle slot) offset data) _ :=
    .write (models.bytes here used.1 inUse) ((z.bytes_length machine.state.kernel.memory slot size).symm ▸ fits)
  rw [← bytes] at does
  exact does

end Machines
end Compcache.Zsmalloc
