import Compcache.Proofs.XvmallocFree

/-! Whole runs of a pool: any sequence of allocations, of releases of live
objects, and of writes by their owners. -/

namespace Compcache.Xvmalloc
open Library.PagedMemory Library.Bitmap Library.Tiling Library.LinkedList

/-- The objects handed out and not yet freed, with the sizes asked for. -/
abbrev LiveObjects := Location → Option Nat

/-- The used blocks of a layout are the live objects. -/
structure Holds (layout : Layout) (live : LiveObjects) : Prop where
  objects : ∀ location size, layout.block location = some ⟨size, false⟩ ↔ live ⟨location.page, location.offset + xvAlign⟩ = some size
  behind : ∀ {location size}, live location = some size → xvAlign ≤ location.offset

theorem Holds.header {layout : Layout} {live : LiveObjects} {location : Location} {size : Nat} (holds : Holds layout live)
    (allocated : live location = some size) :
    layout.block (headerOf location) = some ⟨size, false⟩ ∧ (headerOf location).offset + xvAlign = location.offset := by
  have offset : (headerOf location).offset + xvAlign = location.offset := Nat.sub_add_cancel (holds.behind allocated)
  refine ⟨(holds.objects _ _).mpr ?_, offset⟩
  rw [offset]
  exact allocated

theorem headerOf_eq_iff {location object : Location} (behind : xvAlign ≤ object.offset) :
    location = headerOf object ↔ (⟨location.page, location.offset + xvAlign⟩ : Location) = object := by
  constructor
  · rintro rfl
    exact Location.ext rfl (Nat.sub_add_cancel behind)
  · rintro rfl
    exact Location.ext rfl (Nat.add_sub_cancel _ _).symm

def PayloadBytes (location : Location) (size : Nat) (page : Page) (address : Nat) : Prop :=
  page = location.page ∧ location.offset ≤ address ∧ address < location.offset + size

theorem Holds.payload_extent {layout : Layout} {live : LiveObjects} {location : Location} {size : Nat} (holds : Holds layout live)
    (allocated : live location = some size) {page : Page} {address : Nat}
    (inside : PayloadBytes location size page address) : page = location.page ∧ (headerOf location).offset + 4 ≤ address ∧
      address < (headerOf location).offset + (⟨size, false⟩ : Block).extent := by
  obtain ⟨samePage, lower, upper⟩ := inside
  have offset : (headerOf location).offset + 4 = location.offset := (holds.header allocated).2
  have extent := (⟨size, false⟩ : Block).size_le
  simp only at extent
  exact ⟨samePage, by omega, by omega⟩

/-- Some live object lies on the page. -/
def InUse (live : LiveObjects) (page : Page) : Prop := ∃ location size, live location = some size ∧ location.page = page

theorem InUse.update {live : LiveObjects} {page : Page} (used : InUse live page) (location : Location) (size : Nat) :
    InUse (Function.update live location (some size)) page := by
  obtain ⟨other, recorded, allocated, samePage⟩ := used
  rcases Classical.em (other = location) with rfl | elsewhere
  · exact ⟨other, size, Function.update_self .., samePage⟩
  · exact ⟨other, recorded, (Function.update_of_ne elsewhere ..).trans allocated, samePage⟩

section Runs
variable [Arch]

def liveAfterMalloc (live : LiveObjects) (size : Nat) (result : MallocResult) : LiveObjects :=
  if result.ret = 0 then Function.update live result.location (some size) else live

/-- The states of a pool created while others own the pages `others`. -/
inductive Reachable (others : Finset Page) : XvState → LiveObjects → Prop
  | create (memory : Memory Page) : Reachable others ⟨⟨memory, others⟩, xvCreatePool⟩ fun _ => none
  | malloc {state : XvState} {live : LiveObjects} (reachable : Reachable others state live) (size : Nat) (allocator : PageAllocator) :
      Reachable others (xvMalloc state size allocator).state (liveAfterMalloc live size (xvMalloc state size allocator))
  | free {state after : XvState} {live : LiveObjects} {location : Location} {size : Nat} (reachable : Reachable others state live)
      (allocated : live location = some size) (freed : xvFree state location.page location.offset = some after) :
      Reachable others after (Function.update live location none)
  | write {state : XvState} {live : LiveObjects} {location : Location} {size : Nat} (reachable : Reachable others state live)
      (allocated : live location = some size) (offset : Nat) (data : List UInt8) (inside : offset + data.length ≤ size) :
      Reachable others (state.withMemory (state.memory.write location.page (location.offset + offset) data)) live

/-- A pool, its layout, its live objects, and the pages it has taken. -/
structure Models (others : Finset Page) (state : XvState) (live : LiveObjects) (layout : Layout) (lists : Nat → List Location) : Prop where
  heap : Heap state layout lists
  holds : Holds layout live
  apart : Disjoint layout.pages others
  owned : state.kernel.owned = others ∪ layout.pages

section Steps
variable {others : Finset Page} {state after : XvState} {live : LiveObjects} {layout changed : Layout}
    {lists newLists : Nat → List Location}
  {location : Location} {size : Nat}

theorem models_create (memory : Memory Page) :
    ∃ layout lists, Models others ⟨⟨memory, others⟩, xvCreatePool⟩ (fun _ => none) layout lists := by
  let empty : Layout := {
    pages := ∅
    block := fun _ => none
    inside := by simp
    tiles := by simp
    aligned := by simp
    rounded := by simp
    coalesced := by simp }
  refine ⟨empty, fun _ => [], ?_, ?_, Finset.disjoint_empty_left _, (Finset.union_empty _).symm⟩
  · exact {
      free := freeLists_empty _
      listed := by simp [Listable, empty]
      size := by simp [empty]
      flag := by simp [empty]
      first := by simp [empty]
      tagged := by simp [empty]
      total := rfl
      owned := Finset.empty_subset _
      frames := by simp [empty] }
  · exact ⟨by simp [empty], by simp⟩

theorem Grows.owned (grows : Grows state after layout changed) (apart : Disjoint layout.pages others)
    (owned : state.kernel.owned = others ∪ layout.pages) :
    Disjoint changed.pages others ∧ after.kernel.owned = others ∪ changed.pages := by
  obtain ⟨added, disjoint, pages, taken⟩ := grows
  rw [owned, Finset.disjoint_union_right] at disjoint
  rw [pages, taken, owned, Finset.disjoint_union_left, Finset.union_assoc]
  exact ⟨⟨apart, disjoint.1⟩, rfl⟩

theorem Models.served {result : MallocResult} (models : Models others state live layout lists)
    (met : Served state layout size result changed newLists) :
    Models others result.state (Function.update live result.location (some size)) changed newLists := by
  obtain ⟨apart, owned⟩ := met.grows.owned models.apart models.owned
  refine ⟨met.heap, ⟨?_, ?_⟩, apart, owned⟩
  · intro location recorded
    rw [met.objects, headerOf_eq_iff met.behind, models.holds.objects]
    rcases Classical.em ((⟨location.page, location.offset + xvAlign⟩ : Location) = result.location) with same | elsewhere
    · have absent : live ⟨location.page, location.offset + xvAlign⟩ ≠ some recorded := by
        rw [Ne, ← models.holds.objects, (headerOf_eq_iff met.behind).mpr same]
        exact met.vacant recorded
      rw [same, Function.update_self] at *
      simp [absent, eq_comm]
    · rw [Function.update_of_ne elsewhere]
      simp only [elsewhere, false_and, or_false]
  · intro location recorded
    rcases Classical.em (location = result.location) with rfl | elsewhere
    · exact fun _ => met.behind
    · rw [Function.update_of_ne elsewhere]
      exact models.holds.behind

theorem Models.grown (models : Models others state live layout lists)
    (objects : ∀ location recorded, changed.block location = some ⟨recorded, false⟩ ↔ layout.block location = some ⟨recorded, false⟩)
    (grows : Grows state after layout changed) (heap : Heap after changed newLists) : Models others after live changed newLists := by
  obtain ⟨apart, owned⟩ := grows.owned models.apart models.owned
  exact ⟨heap, ⟨fun location recorded => (objects location recorded).trans (models.holds.objects location recorded), models.holds.behind⟩,
    apart, owned⟩

theorem Models.malloc (models : Models others state live layout lists) (size : Nat) (allocator : PageAllocator) :
    ∃ changed newLists, Models others (xvMalloc state size allocator).state
      (liveAfterMalloc live size (xvMalloc state size allocator)) changed newLists := by
  have outcome := xvMalloc_outcome models.heap size allocator
  generalize xvMalloc state size allocator = result at outcome ⊢
  cases outcome with
  | unsupported => exact ⟨layout, lists, models⟩
  | exhausted => exact ⟨layout, lists, models⟩
  | served met =>
    rename_i changed newLists
    rw [liveAfterMalloc, if_pos met.ret]
    exact ⟨changed, newLists, models.served met⟩
  | overlooked large unlisted taken heap objects grows changes =>
    rename_i after changed newLists
    exact ⟨changed, newLists, models.grown objects grows heap⟩

/-- A request that is not rounded to a whole page is met or changes nothing; if
it has to grow the pool, it is met on the new page. -/
theorem Models.malloc_cases (models : Models others state live layout lists) (positive : 1 ≤ size) (small : size ≤ 4088)
    (allocator : PageAllocator) :
    xvMalloc state size allocator = ⟨-enomem, Location.null, state⟩ ∨
      ∃ changed newLists, Served state layout size (xvMalloc state size allocator) changed newLists ∧
        ∀ page ∈ changed.pages, page ∈ layout.pages ∨ (state.kernel.allocPage allocator).map Prod.fst = some page ∧
          InUse (Function.update live (xvMalloc state size allocator).location (some size)) page := by
  have supported : size ≠ 0 ∧ size ≤ xvMaxAllocSize := by
    simp only [xvMaxAllocSize_eq]
    omega
  have reaches : getIndex (align size xvAlign) ≤ getIndexForInsert xvMaxAllocSize := by
    refine (getIndex_le_top ?_).mpr ?_ <;> simp only [align, xvAlign_eq, xvMaxAllocSize_eq] <;> omega
  rw [xvMalloc_sections models.heap allocator supported]
  rcases searchAndCarve_spec models.heap size with ⟨missed, unlisted⟩ | ⟨_, result, changed, newLists, _, found, met, samePages, _⟩
  · rw [missed]
    cases grown : growPool state allocator with
    | none => exact .inl rfl
    | some after =>
      obtain ⟨page, fresh, grownLists, ⟨unowned, offered⟩, owned, heap, changes, _⟩ := growPool_spec models.heap grown
      have listed : (⟨page, 0⟩ : Location) ∈ grownLists (getIndexForInsert xvMaxAllocSize) :=
        (heap.listed _ _).mpr ⟨id, freshBlock, addPage_start fresh, rfl, by decide, rfl⟩
      rcases searchAndCarve_spec heap size with ⟨_, still⟩ | ⟨index, result, changed, newLists, nearest, found, met, samePages, samePage⟩
      · rw [still _ reaches] at listed
        cases listed
      · simp only [found, Option.getD_some]
        refine .inr ⟨changed, newLists, met.after_growth unowned owned changes, ?_⟩
        -- every list searched was empty before, so what is found is on the new page
        have newPage : result.location.page = page := by
          obtain ⟨head, rest, headed⟩ := List.exists_cons_of_ne_nil nearest.2.1
          rw [samePage, heap.free.heads, headed, List.headD_cons]
          obtain ⟨_, block, there, free, large, rightList⟩ := (heap.listed index head).mp (headed ▸ List.mem_cons_self)
          apply Classical.byContradiction
          intro old
          rw [addPage_old fresh old] at there
          have member : head ∈ lists index := (models.heap.listed index head).mpr ⟨id, block, there, free, large, rightList⟩
          rw [unlisted index nearest.1] at member
          cases member
        intro other member
        rw [samePages] at member
        rcases Finset.mem_insert.mp member with rfl | old
        · exact .inr ⟨offered, result.location, size, Function.update_self .., newPage⟩
        · exact .inl old
  · rw [found]
    exact .inr ⟨changed, newLists, met, fun page member => .inl (samePages ▸ member)⟩

theorem Models.freed (models : Models others state live layout lists) (allocated : live location = some size) :
    ∃ after changed newLists, xvFree state location.page location.offset = some after ∧
      Released state after layout (headerOf location) ⟨size, false⟩ changed newLists := by
  obtain ⟨here, offset⟩ := models.holds.header allocated
  have release := xvFree_spec models.heap here
  rw [offset] at release
  exact release

theorem Models.released (models : Models others state live layout lists) (allocated : live location = some size)
    (release : Released state after layout (headerOf location) ⟨size, false⟩ changed newLists) :
    Models others after (Function.update live location none) changed newLists := by
  have behind := models.holds.behind allocated
  obtain ⟨given, inside, pages, owned⟩ := release.shrinks
  have apart : Disjoint changed.pages others := by
    rw [pages]
    exact models.apart.mono_left Finset.sdiff_subset
  refine ⟨release.heap, ⟨?_, ?_⟩, apart, ?_⟩
  · intro other recorded
    rw [release.objects, Ne, headerOf_eq_iff behind, models.holds.objects]
    rcases Classical.em ((⟨other.page, other.offset + xvAlign⟩ : Location) = location) with same | elsewhere
    · rw [same, Function.update_self]
      simp
    · rw [Function.update_of_ne elsewhere]
      simp only [elsewhere, not_false_iff, and_true]
  · intro other recorded kept
    rcases Classical.em (other = location) with rfl | elsewhere
    · rw [Function.update_self] at kept
      cases kept
    · rw [Function.update_of_ne elsewhere] at kept
      exact models.holds.behind kept
  · rw [owned, models.owned, pages, Finset.union_sdiff_distrib]
    congr 1
    exact Finset.sdiff_eq_self_of_disjoint (models.apart.symm.mono_right inside)

theorem Models.released_inUse (models : Models others state live layout lists) (allocated : live location = some size)
    (release : Released state after layout (headerOf location) ⟨size, false⟩ changed newLists) {page : Page}
    (member : page ∈ changed.pages) :
    page ∈ layout.pages ∧ (InUse live page → InUse (Function.update live location none) page) := by
  obtain ⟨given, _, pages, _⟩ := release.shrinks
  refine ⟨(Finset.mem_sdiff.mp (pages ▸ member)).1, ?_⟩
  rcases Classical.em (page = location.page) with rfl | elsewhere
  · obtain ⟨block, recorded, samePage, there⟩ := release.inUse member
    exact fun _ => ⟨_, recorded, ((models.released allocated release).holds.objects _ _).mp there, samePage⟩
  · rintro ⟨other, recorded, held, rfl⟩
    refine ⟨other, recorded, (Function.update_of_ne ?_ ..).trans held, rfl⟩
    rintro rfl
    exact elsewhere rfl

theorem Models.free (models : Models others state live layout lists) (allocated : live location = some size)
    (freed : xvFree state location.page location.offset = some after) :
    ∃ changed newLists, Models others after (Function.update live location none) changed newLists := by
  obtain ⟨result, changed, newLists, same, release⟩ := models.freed allocated
  obtain rfl : result = after := Option.some.inj (same.symm.trans freed)
  exact ⟨changed, newLists, models.released allocated release⟩

theorem Heap.client_write {block : Block} {memory : Memory Page} (valid : Heap state layout lists)
    (here : layout.block location = some block) (used : block.free = false)
    (changes : ChangesOnly (fun page address => page = location.page ∧ location.offset + 4 ≤ address ∧
      address < location.offset + block.extent) state.memory memory) : Heap (state.withMemory memory) layout lists := by
  have kept {other : Location} {found : Block} (there : layout.block other = some found) :
      header memory other = header state.memory other := by
    refine header_frame changes fun address inside payload => ?_
    obtain ⟨_, lower, upper⟩ := inside
    obtain ⟨samePage, after, below⟩ := payload
    have extent := found.size_le
    rcases Classical.em (other = location) with rfl | different
    · omega
    · rcases layout.separate there here samePage different with ends | ends <;> omega
  exact {
    free := by
      refine valid.free.congr changes ?_
      rintro page address link ⟨rfl, after, below⟩
      obtain ⟨other, found, there, _, free, samePage, lower, upper⟩ := valid.link_inside link
      have different : other ≠ location := by
        rintro rfl
        obtain rfl : found = block := by simpa [there] using here
        exact absurd (free.symm.trans used) (by decide)
      rcases layout.separate there here samePage different with ends | ends <;> omega
    listed := valid.listed
    size := fun here visible => (congrArg Header.size (kept here)).trans (valid.size here visible)
    flag := fun here visible => (congrArg Header.free (kept here)).trans (valid.flag here visible)
    first := by
      intro page member
      obtain ⟨found, there⟩ := layout.first member
      exact (congrArg Header.prevFree (kept there)).trans (valid.first member)
    tagged := by
      intro other found next there visible follows
      rw [XvState.withMemory_memory, kept follows]
      exact valid.tagged there visible follows
    total := valid.total
    owned := valid.owned
    frames := valid.frames }

theorem Models.write (models : Models others state live layout lists) (allocated : live location = some size) (offset : Nat)
    (data : List UInt8) (inside : offset + data.length ≤ size) :
    Models others (state.withMemory (state.memory.write location.page (location.offset + offset) data)) live layout lists := by
  obtain ⟨here, _⟩ := models.holds.header allocated
  refine ⟨models.heap.client_write here rfl ?_, models.holds, models.apart, models.owned⟩
  exact ChangesOnly.write _ _ _ _ fun address lower upper =>
    models.holds.payload_extent allocated ⟨rfl, by omega, by omega⟩

end Steps

/-- The run lemma: every reachable pool has a layout that holds exactly its live objects. -/
theorem Reachable.models {others : Finset Page} {state : XvState} {live : LiveObjects} (reachable : Reachable others state live) :
    ∃ layout lists, Models others state live layout lists := by
  induction reachable with
  | create memory => exact models_create memory
  | malloc _ size allocator ih =>
    obtain ⟨layout, lists, models⟩ := ih
    exact models.malloc size allocator
  | free _ allocated freed ih =>
    obtain ⟨layout, lists, models⟩ := ih
    exact models.free allocated freed
  | write _ allocated offset data inside ih =>
    obtain ⟨layout, lists, models⟩ := ih
    exact ⟨layout, lists, models.write allocated offset data inside⟩

/-- The heap invariant of a pool: `block` is where its blocks are, used or free,
and `lists` what its free lists hold. The pages of the pool are those taken from
the system beyond the ones of others. -/
structure HeapInvariant (others : Finset Page) (state : XvState) (live : LiveObjects) (block : Location → Option Block)
    (lists : Nat → List Location) : Prop where
  inside : ∀ {location found}, block location = some found → location.page ∈ state.kernel.owned \ others
  tiled : ∀ {page}, page ∈ state.kernel.owned \ others → Tiles (fun offset => (block ⟨page, offset⟩).map Block.extent) 0 pageSize
  size : ∀ {location found}, block location = some found → (header state.memory location).size = found.size
  used : ∀ location size, block location = some ⟨size, false⟩ ↔ live ⟨location.page, location.offset + xvAlign⟩ = some size
  coalesced : ∀ {location found next}, block location = some found → block (successor location found) = some next →
    ¬ (found.free = true ∧ next.free = true)
  blockFree : ∀ {location found}, block location = some found → (header state.memory location).free = found.free
  prevFree : ∀ {location found next}, block location = some found → block (successor location found) = some next →
    (header state.memory (successor location found)).prevFree = found.free
  first : ∀ {page}, page ∈ state.kernel.owned \ others → (header state.memory ⟨page, 0⟩).prevFree = false
  prev : ∀ {location found next}, block location = some found → block (successor location found) = some next →
    (header state.memory (successor location found)).prevFree = true →
      (header state.memory (successor location found)).prev = location.offset
  listed : ∀ index location, location ∈ lists index ↔ ∃ found, block location = some found ∧ found.free = true ∧
    xvMinAllocSize ≤ found.size ∧ getIndexForInsert found.size = index
  once : ∀ index, (lists index).Nodup
  heads : ∀ index, state.pool.freelist index = (lists index).headD Location.null
  linked : ∀ index, Linked (linkNext state.memory) (linkPrev state.memory) Location.null Location.null (lists index)
  slbitmap : ∀ index, (state.pool.slbitmap (index / bitsPerLong)).getLsbD (index % bitsPerLong) = true ↔ lists index ≠ []
  flbitmap : ∀ word, state.pool.flbitmap.getLsbD word = true ↔ state.pool.slbitmap word ≠ 0#_
  totalPages : state.pool.totalPages = (state.kernel.owned \ others).card

section Invariant
variable {others : Finset Page} {state : XvState} {live : LiveObjects} {layout : Layout} {lists : Nat → List Location}

theorem Models.pages (models : Models others state live layout lists) : state.kernel.owned \ others = layout.pages := by
  rw [models.owned, Finset.union_sdiff_left]
  exact Finset.sdiff_eq_self_of_disjoint models.apart

theorem Models.invariant (models : Models others state live layout lists) :
    HeapInvariant others state live layout.block lists where
  inside here := models.pages ▸ (layout.inside here).1
  tiled member := layout.tiles (models.pages ▸ member)
  size here := models.heap.size here id
  used := models.holds.objects
  coalesced here follows := fun ⟨free, nextFree⟩ => absurd ((layout.coalesced here free follows).symm.trans nextFree) (by decide)
  blockFree here := models.heap.flag here id
  prevFree here follows := (models.heap.tagged here id follows).1
  first member := models.heap.first (models.pages ▸ member)
  prev here follows flag := by
    obtain ⟨same, offset⟩ := models.heap.tagged here id follows
    exact offset (same.symm.trans flag)
  listed index location := (models.heap.listed index location).trans ⟨fun shown => shown.2, fun shown => ⟨id, shown⟩⟩
  once := models.heap.free.nodup
  heads := models.heap.free.heads
  linked := models.heap.free.linked
  slbitmap := models.heap.free.tracks.bit
  flbitmap := models.heap.free.tracks.word
  totalPages := models.heap.total.trans (congrArg Finset.card models.pages.symm)

/-- Every reachable pool satisfies the heap invariant, and no release of a live
object is taken for a double free. -/
theorem heap_invariant (reachable : Reachable others state live) :
    (∃ block lists, HeapInvariant others state live block lists) ∧
      ∀ location size, live location = some size → (xvFree state location.page location.offset).isSome := by
  obtain ⟨layout, lists, models⟩ := reachable.models
  refine ⟨⟨layout.block, lists, models.invariant⟩, ?_⟩
  intro location size allocated
  obtain ⟨after, _, _, freed, _⟩ := models.freed allocated
  simp [freed]

/-- The live objects of a pool have their bytes to themselves, now and while
others are allocated and freed. -/
structure Isolated (others : Finset Page) (state : XvState) (live : LiveObjects) : Prop where
  apart : ∀ {first second firstSize secondSize}, live first = some firstSize → live second = some secondSize → first ≠ second →
    ∀ {page address}, PayloadBytes first firstSize page address → ¬ PayloadBytes second secondSize page address
  inside : ∀ {location size}, live location = some size →
    location.page ∈ state.kernel.owned \ others ∧ location.offset + size ≤ pageSize
  metadata : ∃ block lists, HeapInvariant others state live block lists ∧
    ∀ {location size}, live location = some size → ∀ {page address}, PayloadBytes location size page address →
      (∀ {other found}, block other = some found → ¬ HeaderBytes other page address) ∧ ¬ LinksOf lists page address
  malloc : ∀ {location size}, live location = some size → ∀ {page address}, PayloadBytes location size page address →
    ∀ requested allocator, (xvMalloc state requested allocator).state.memory page address = state.memory page address
  free : ∀ {location size}, live location = some size → ∀ {page address}, PayloadBytes location size page address →
    ∀ {other otherSize after}, live other = some otherSize → other ≠ location →
      xvFree state other.page other.offset = some after → after.memory page address = state.memory page address
  objectSize : ∀ {location size}, live location = some size → xvGetObjectSize state.memory location.page location.offset = size

theorem live_objects_isolated (reachable : Reachable others state live) : Isolated others state live := by
  obtain ⟨layout, lists, models⟩ := reachable.models
  have object {location : Location} {size : Nat} (allocated : live location = some size) :
      layout.block (headerOf location) = some ⟨size, false⟩ := (models.holds.header allocated).1
  have distinct {first second : Location} {firstSize secondSize : Nat} (firstLive : live first = some firstSize)
      (secondLive : live second = some secondSize) (different : first ≠ second) : headerOf first ≠ headerOf second := by
    intro same
    refine different (Location.ext (congrArg Location.page same :) ?_)
    have offset := congrArg Location.offset same
    rw [← (models.holds.header firstLive).2, ← (models.holds.header secondLive).2, offset]
  refine ⟨?_, ?_, ⟨layout.block, lists, models.invariant, ?_⟩, ?_, ?_, ?_⟩
  · intro first second firstSize secondSize firstLive secondLive different page address inside other
    obtain ⟨samePage, lower, upper⟩ := models.holds.payload_extent firstLive inside
    obtain ⟨otherPage, least, most⟩ := models.holds.payload_extent secondLive other
    rcases layout.separate (object firstLive) (object secondLive) (samePage.symm.trans otherPage) (distinct firstLive secondLive different)
      with ends | ends <;> omega
  · intro location size allocated
    have bound := layout.ends (object allocated)
    have extent := (⟨size, false⟩ : Block).size_le
    have offset : (headerOf location).offset + 4 = location.offset := (models.holds.header allocated).2
    refine ⟨models.pages ▸ (layout.inside (object allocated)).1, ?_⟩
    simp only at extent
    omega
  · intro location size allocated page address inside
    obtain ⟨rfl, lower, upper⟩ := models.holds.payload_extent allocated inside
    constructor
    · rintro other found here ⟨samePage, least, most⟩
      exact payload_not_writable (object allocated) rfl lower upper ⟨other, found, here, samePage.symm, least, .inl most⟩
    · intro link
      exact payload_not_writable (object allocated) rfl lower upper (models.heap.link_writable link)
  · intro location size allocated page address inside requested allocator
    obtain ⟨rfl, lower, upper⟩ := models.holds.payload_extent allocated inside
    have owned : location.page ∈ state.kernel.owned := models.heap.owned (layout.inside (object allocated)).1
    have outcome := xvMalloc_outcome models.heap requested allocator
    generalize xvMalloc state requested allocator = result at outcome ⊢
    have untouched : ¬ (location.page ∉ state.kernel.owned ∨ Writable layout location.page address) := by
      rintro (outside | writable)
      · exact outside owned
      · exact payload_not_writable (object allocated) rfl lower upper writable
    cases outcome with
    | unsupported => rfl
    | exhausted => rfl
    | served met => exact met.changes _ _ untouched
    | overlooked large unlisted taken heap objects grows changes => exact changes _ _ untouched
  · intro location size allocated page address inside other otherSize after otherLive different freed
    obtain ⟨rfl, lower, upper⟩ := models.holds.payload_extent allocated inside
    obtain ⟨result, changed, newLists, same, release⟩ := models.freed otherLive
    obtain rfl : result = after := Option.some.inj (same.symm.trans freed)
    have outside : ¬ Within (headerOf other).page (headerOf other).offset
        ((headerOf other).offset + (⟨otherSize, false⟩ : Block).extent) (headerOf location) := fun within =>
      distinct allocated otherLive (Ne.symm different) ((within_block (object otherLive) (object allocated)).mp within)
    have nonempty : (headerOf other).offset < (headerOf other).offset + (⟨otherSize, false⟩ : Block).extent := by
      have extent := (⟨otherSize, false⟩ : Block).size_le
      omega
    exact release.changes (headerOf location).page address
      (payload_not_scratch (object otherLive) nonempty (object allocated) rfl outside lower upper)
  · intro location size allocated
    exact models.heap.size (object allocated) id

/-- The lists searched leave out only blocks smaller than the request rounded up to a multiple of eight. -/
theorem Models.listed_too_small (models : Models others state live layout lists) {size : Nat}
    (unlisted : ∀ index, getIndex (align size xvAlign) ≤ index → lists index = []) {index : Nat} {location : Location} {found : Block}
    (member : location ∈ lists index) (here : layout.block location = some found) :
    found.size < align (align size xvAlign) flDelta := by
  obtain ⟨_, block, there, _, large, rfl⟩ := (models.heap.listed index location).mp member
  obtain rfl : found = block := by simpa [here] using there
  have bound := layout.ends here
  have extent := found.size_le
  refine passed_size large (by simp only [pageSize_eq, xvMaxAllocSize_eq] at *; omega) ?_
  apply Classical.byContradiction
  intro above
  rw [unlisted _ (Nat.not_lt.mp above)] at member
  cases member

/-- What `xv_malloc` returns for a supported size. It fails only when every
listed block is smaller than the request rounded up to a list boundary and the
system has no page, except that requests rounded to a whole page are left out;
and a failure for want of a page changes nothing. -/
structure Availability (others : Finset Page) (state : XvState) (live : LiveObjects) (size : Nat) (allocator : PageAllocator)
    (result : MallocResult) : Prop where
  returns : result.ret = 0 ∨ result.ret = -enomem ∧ result.location = Location.null
  listed : result.ret = -enomem → ∃ block lists, HeapInvariant others state live block lists ∧
    ∀ {index location found}, location ∈ lists index → block location = some found → found.size < align (align size xvAlign) flDelta
  failed : result.ret = -enomem → size ≤ 4088 → state.kernel.allocPage allocator = none
  unchanged : state.kernel.allocPage allocator = none → result.ret = -enomem → result.state = state

theorem xvMalloc_available (reachable : Reachable others state live) {size : Nat} (positive : 1 ≤ size) (small : size ≤ xvMaxAllocSize)
    (allocator : PageAllocator) : Availability others state live size allocator (xvMalloc state size allocator) := by
  obtain ⟨layout, lists, models⟩ := reachable.models
  have outcome := xvMalloc_outcome models.heap size allocator
  generalize xvMalloc state size allocator = result at outcome ⊢
  cases outcome with
  | unsupported bad => omega
  | served met =>
    have served : result.ret ≠ -enomem := by
      rw [met.ret]
      decide
    exact ⟨.inl met.ret, fun failed => absurd failed served, fun failed => absurd failed served, fun _ failed => absurd failed served⟩
  | exhausted good unlisted failed =>
    exact ⟨.inr ⟨rfl, rfl⟩, fun _ => ⟨layout.block, lists, models.invariant, models.listed_too_small unlisted⟩,
      fun _ _ => failed, fun _ _ => rfl⟩
  | overlooked large unlisted taken heap objects grows changes =>
    refine ⟨.inr ⟨rfl, rfl⟩, fun _ => ⟨layout.block, lists, models.invariant, models.listed_too_small unlisted⟩, ?_, ?_⟩
    · intro _ fits
      omega
    · intro failed
      simp [failed] at taken

end Invariant

end Runs

section Lists
variable [Arch] {state : XvState} {layout : Layout} {lists : Nat → List Location}

theorem Heap.searchable (heap : Heap state layout lists) : Listed state.memory state.pool lists where
  heads := heap.free.heads
  tracks := heap.free.tracks
  bounded := heap.free.bounded
  real member := (heap.free.real member).1
  sorted {index block} member := by
    obtain ⟨_, found, here, _, large, rfl⟩ := (heap.listed index block).mp member
    have stored : blockSize state.memory block = found.size := heap.size here fun hidden => hidden
    rw [stored]
    exact ⟨large, rfl⟩

end Lists

section Sample
local instance sampleArch : Arch := Arch.x64

def firstPage : PageAllocator := PageAllocator.offering ⟨1, fun _ => 0⟩ (by decide) (by decide) (by decide)

def secondPage : PageAllocator := PageAllocator.offering ⟨2, fun _ => 0⟩ (by decide) (by decide) (by decide)

/-- An empty pool in a system without other owners. -/
def emptyPool : XvState := ⟨⟨fun _ _ => 0, ∅⟩, xvCreatePool⟩

def sampleObject : MallocResult := xvMalloc emptyPool 100 firstPage

theorem sampleObject_ret : sampleObject.ret = 0 := by
  obtain ⟨layout, lists, models⟩ : ∃ layout lists, Models ∅ emptyPool (fun _ => none) layout lists := models_create _
  exact xvMalloc_succeeds models.heap (by decide) (by decide) (.inl rfl)

theorem sampleObject_reachable :
    Reachable ∅ sampleObject.state (Function.update (fun _ => none) sampleObject.location (some 100)) := by
  have reachable : Reachable ∅ sampleObject.state (liveAfterMalloc (fun _ => none) 100 sampleObject) :=
    .malloc (.create fun _ _ => 0) 100 firstPage
  rwa [liveAfterMalloc, if_pos sampleObject_ret] at reachable

theorem heap_invariant_sample :
    (∃ block lists, HeapInvariant ∅ sampleObject.state (Function.update (fun _ => none) sampleObject.location (some 100)) block lists) ∧
      ∀ location size, Function.update (fun _ => none) sampleObject.location (some 100) location = some size →
        (xvFree sampleObject.state location.page location.offset).isSome := heap_invariant sampleObject_reachable

/-- The pool with an object of 200 bytes behind the first, and with one of 300 bytes behind both. -/
def secondObject : MallocResult := xvMalloc sampleObject.state 200 .exhausted

def thirdObject : MallocResult := xvMalloc secondObject.state 300 .exhausted

theorem Reachable.malloced {others : Finset Page} {state : XvState} {live : LiveObjects}
    (reachable : Reachable others state live) {size : Nat}
    {allocator : PageAllocator} (served : (xvMalloc state size allocator).ret = 0) :
    Reachable others (xvMalloc state size allocator).state (Function.update live (xvMalloc state size allocator).location (some size)) := by
  have after := reachable.malloc size allocator
  rwa [liveAfterMalloc, if_pos served] at after

theorem thirdObject_reachable : Reachable ∅ thirdObject.state
    (Function.update (Function.update (Function.update (fun _ => none) ⟨1, 4⟩ (some 100)) ⟨1, 108⟩ (some 200)) ⟨1, 312⟩ (some 300)) := by
  have first : sampleObject.location = ⟨1, 4⟩ := by decide +kernel
  have second : secondObject.location = ⟨1, 108⟩ := by decide +kernel
  have third : thirdObject.location = ⟨1, 312⟩ := by decide +kernel
  rw [← third, ← second, ← first]
  have both : Reachable ∅ secondObject.state _ := sampleObject_reachable.malloced (by decide +kernel)
  exact both.malloced (by decide +kernel)

/-- Three objects of one page, of which the second has been freed. -/
theorem live_objects_isolated_sample : ∃ state live, Reachable ∅ state live ∧ live ⟨1, 4⟩ = some 100 ∧ live ⟨1, 108⟩ = none ∧
    live ⟨1, 312⟩ = some 300 ∧
    Isolated ∅ state live := by
  obtain ⟨state, freed⟩ : ∃ state, xvFree thirdObject.state 1 108 = some state := Option.isSome_iff_exists.mp (by decide +kernel)
  have reachable :=
    thirdObject_reachable.free (show _ = some 200 from rfl) (show xvFree _ (⟨1, 108⟩ : Location).page (⟨1, 108⟩ : Location).offset =
    _ from freed)
  exact ⟨state, _, reachable, rfl, rfl, rfl, live_objects_isolated reachable⟩

/-- The page of the object serves a request for 200 bytes. -/
theorem findBlock_finds_sample :
    ∃ lists, Finds sampleObject.state.memory sampleObject.state.pool lists 200 (findBlock sampleObject.state.pool 200 Location.null) ∧
    (findBlock sampleObject.state.pool 200 Location.null).2.page = 1 := by
  obtain ⟨layout, lists, models⟩ := sampleObject_reachable.models
  exact ⟨lists, findBlock_finds models.heap.searchable (by decide), by decide +kernel⟩

/-- A pool whose only free block has 36 bytes. -/
def almostFull : MallocResult := xvMalloc emptyPool 4052 firstPage

/-- A request that is served, and one for which no listed block is large enough and
the system has no page. -/
theorem xvMalloc_available_sample :
    Availability ∅ sampleObject.state (Function.update (fun _ => none) sampleObject.location (some 100)) 200 PageAllocator.exhausted
        (xvMalloc sampleObject.state 200 PageAllocator.exhausted) ∧
      (xvMalloc almostFull.state 200 PageAllocator.exhausted).ret = -enomem ∧
      Availability ∅ almostFull.state (liveAfterMalloc (fun _ => none) 4052 almostFull) 200 PageAllocator.exhausted
        (xvMalloc almostFull.state 200 PageAllocator.exhausted) :=
  ⟨xvMalloc_available sampleObject_reachable (by decide) (by decide) _, by decide +kernel,
    xvMalloc_available (.malloc (.create _) 4052 firstPage) (by decide) (by decide) _⟩

/-- The pool takes the page the system has, and the largest supported request
fails all the same; and a request for exactly the size of a listed block fails,
because the search starts one list above it. -/
theorem xvMalloc_fails_with_memory :
    (Reachable ∅ emptyPool (fun _ => none) ∧ (emptyPool.kernel.allocPage firstPage).isSome ∧
      (xvMalloc emptyPool xvMaxAllocSize firstPage).ret = -enomem ∧
      (xvMalloc emptyPool xvMaxAllocSize firstPage).state.pool.totalPages ≠ emptyPool.pool.totalPages) ∧
    Reachable ∅ almostFull.state (liveAfterMalloc (fun _ => none) 4052 almostFull) ∧
      almostFull.state.pool.freelist 0 = ⟨1, 4056⟩ ∧ blockSize almostFull.state.memory ⟨1, 4056⟩ = 36 ∧
      (xvMalloc almostFull.state 36 PageAllocator.exhausted).ret = -enomem := by
  refine ⟨⟨.create _, rfl, ?_, ?_⟩, .malloc (.create _) 4052 firstPage, ?_, ?_, ?_⟩
  all_goals decide +kernel

end Sample
end Compcache.Xvmalloc
