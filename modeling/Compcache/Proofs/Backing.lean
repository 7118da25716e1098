import Compcache.Library.Ownership
import Compcache.Proofs.XvmallocRuns

/-! What a store keeps its data in: whole pages from the page allocator, and
objects of its pool. Each operation moves one piece of storage and leaves the
bytes of the others alone. -/

namespace Compcache
open Library.PagedMemory Xvmalloc

/-- A piece of storage: a whole page, or an object with its size. -/
inductive Storage
  | page (frame : Page)
  | object (location : Location) (size : Nat)
  deriving DecidableEq

def Storage.location : Storage → Location
  | page frame => ⟨frame, 0⟩
  | object location _ => location

def Storage.size : Storage → Nat
  | page _ => pageSize
  | object _ size => size

def Storage.bytes (memory : Memory Page) (storage : Storage) : List UInt8 :=
  memory.read storage.location.page storage.location.offset storage.size

theorem Storage.bytes_page (memory : Memory Page) (frame : Page) : (Storage.page frame).bytes memory = memory.read frame 0 pageSize := rfl

section Supply
variable [Arch] {allocator : PageAllocator} {count : Nat}

/-- The page allocator has a page as long as no more than so many are taken. -/
def PageAllocator.Serves (allocator : PageAllocator) (count : Nat) : Prop := ∀ owned, owned.card ≤ count →
    ∃ fresh, allocator.pick owned = some fresh

theorem PageAllocator.Serves.allocPage (serves : allocator.Serves count) {kernel : Kernel} (few : kernel.owned.card ≤ count) :
    ∃ page after, kernel.allocPage allocator = some (page, after) := by
  obtain ⟨fresh, picked⟩ := serves _ few
  exact ⟨_, _, congrArg (Option.map _) picked⟩

/-- The allocator of a machine with so many frames, which hands out the lowest that
nobody owns. -/
def PageAllocator.lowest (frames : Nat) (small : frames < 2 ^ 20) : PageAllocator where
  pick owned := ((List.range' 1 frames).find? (· ∉ owned)).map (⟨·, fun _ => 0⟩)
  unowned := by
    intro owned fresh picked
    obtain ⟨frame, found, rfl⟩ := Option.map_eq_some_iff.mp picked
    simpa using List.find?_some found
  frame := by
    intro owned fresh picked
    obtain ⟨frame, found, rfl⟩ := Option.map_eq_some_iff.mp picked
    obtain ⟨least, most⟩ := List.mem_range'_1.mp (List.mem_of_find?_eq_some found)
    have word : 2 ^ 32 ≤ 2 ^ bitsPerLong ∧ 2 ^ 32 ≤ 2 ^ physAddrBits := by
      have known := Arch.supported
      simp only [List.mem_cons, Prod.mk.injEq, List.not_mem_nil, or_false] at known
      rcases known with ⟨bits, physical⟩ | ⟨bits, physical⟩ | ⟨bits, physical⟩ <;> rw [bits, physical] <;> decide
    have low : frame < 2 ^ 20 := Nat.lt_of_lt_of_le most (by omega)
    have physical : frame * pageSize < 2 ^ 20 * pageSize := Nat.mul_lt_mul_of_pos_right low (by decide)
    exact ⟨least, low.trans_le (.trans (by decide) word.1), physical.trans_le (.trans (by decide) word.2)⟩

theorem PageAllocator.lowest_serves (small : count + 1 < 2 ^ 20) : (PageAllocator.lowest (count + 1) small).Serves count := by
  intro owned few
  have left : ∃ frame ∈ List.range' 1 (count + 1), frame ∉ owned := by
    by_contra none_
    have all : (List.range' 1 (count + 1)).toFinset ⊆ owned := fun frame member =>
      not_not.mp fun outside => none_ ⟨frame, List.mem_toFinset.mp member, outside⟩
    have many := Finset.card_le_card all
    rw [List.toFinset_card_of_nodup (List.nodup_range' ..), List.length_range'] at many
    omega
  obtain ⟨frame, found⟩ : ∃ frame, (List.range' 1 (count + 1)).find? (· ∉ owned) = some frame := by
    refine Option.isSome_iff_exists.mp (List.find?_isSome.mpr ?_)
    simpa only [decide_eq_true_eq] using left
  exact ⟨_, congrArg (Option.map _) found⟩

end Supply

section Heap
variable [Arch] {state after : XvState} {layout : Layout} {lists : Nat → List Location}

theorem Xvmalloc.Heap.elsewhere (valid : Heap state layout lists) (pool : after.pool = state.pool)
    (kept : ∀ page ∈ layout.pages, ∀ address, after.memory page address = state.memory page address)
    (owned : layout.pages ⊆ after.kernel.owned) : Heap after layout lists := by
  have changes : ChangesOnly (fun page _ => page ∉ layout.pages) state.memory after.memory := by
    intro page address outside
    exact kept page (not_not.mp outside) address
  have same {location : Location} (inside : location.page ∈ layout.pages) : header after.memory location = header state.memory location :=
    header_frame changes fun _ _ foreign => foreign inside
  have linked {page : Page} {address : Nat} (link : LinksOf lists page address) : page ∈ layout.pages := by
    obtain ⟨other, _, there, _, _, rfl, _⟩ := valid.link_inside link
    exact (layout.inside there).1
  exact {
    free := by
      rw [pool]
      exact valid.free.congr changes fun page address link foreign => foreign (linked link)
    listed := valid.listed
    size := fun here visible => (congrArg Header.size (same (layout.inside here).1)).trans (valid.size here visible)
    flag := fun here visible => (congrArg Header.free (same (layout.inside here).1)).trans (valid.flag here visible)
    first := fun member => (congrArg Header.prevFree (same member)).trans (valid.first member)
    tagged := fun here visible follows => by
      rw [same (layout.inside follows).1]
      exact valid.tagged here visible follows
    total := by
      rw [pool]
      exact valid.total
    owned := owned
    frames := valid.frames }

end Heap

section Backing
variable [Arch]

/-- The storage held by a store: `raw` are its whole pages, `live` its objects.
Every page of the pool holds an object. -/
structure Backing (others : Finset Page) (xv : XvState) (held : Storage → Prop) (raw : Finset Page) (live : LiveObjects)
    (layout : Layout) (lists : Nat → List Location) : Prop where
  models : Models (others ∪ raw) xv live layout lists
  apart : Disjoint others raw
  pages : ∀ page, held (.page page) ↔ page ∈ raw
  objects : ∀ location size, held (.object location size) ↔ live location = some size
  frames : ∀ {page}, page ∈ raw → page ≠ noPage
  busy : ∀ page ∈ layout.pages, InUse live page

def Backed (others : Finset Page) (xv : XvState) (held : Storage → Prop) : Prop :=
  ∃ raw live layout lists, Backing others xv held raw live layout lists

section Facts
variable {others : Finset Page} {xv : XvState} {held : Storage → Prop} {raw : Finset Page} {live : LiveObjects} {layout : Layout}
  {lists : Nat → List Location} {first second storage : Storage} {location : Location} {size : Nat} {page : Page}

theorem Backing.pool_page (backing : Backing others xv held raw live layout lists) (member : page ∈ layout.pages) :
    page ∉ others ∧ page ∉ raw := by
  have outside := Finset.disjoint_left.mp backing.models.apart member
  rw [Finset.mem_union] at outside
  exact not_or.mp outside

theorem Backing.object_block (backing : Backing others xv held raw live layout lists) (here : held (.object location size)) :
    layout.block (headerOf location) = some ⟨size, false⟩ ∧ (headerOf location).offset + 4 = location.offset :=
  backing.models.holds.header ((backing.objects _ _).mp here)

theorem Backing.object_inside (backing : Backing others xv held raw live layout lists) (here : held (.object location size)) :
    location.page ∈ layout.pages ∧ location.offset + size ≤ pageSize := by
  obtain ⟨block, offset⟩ := backing.object_block here
  have bound := layout.ends block
  have extent := (⟨size, false⟩ : Block).size_le
  simp only at extent
  exact ⟨(layout.inside block).1, by omega⟩

theorem Backing.page_ne (backing : Backing others xv held raw live layout lists) (here : held storage) :
    storage.location.page ≠ noPage := by
  cases storage with
  | page page => exact backing.frames ((backing.pages page).mp here)
  | object location size => exact (backing.models.heap.frames (backing.object_inside here).1).1

theorem Backing.outside_block (backing : Backing others xv held raw live layout lists) (here : held (.object location size))
    (there : held storage)
    (different : storage ≠ .object location size) (samePage : storage.location.page = location.page) :
    storage.location.offset + storage.size ≤ (headerOf location).offset ∨
      (headerOf location).offset + (⟨size, false⟩ : Block).extent ≤ storage.location.offset := by
  cases storage with
  | page frame =>
    obtain rfl : frame = location.page := samePage
    exact absurd ((backing.pages _).mp there) (backing.pool_page (backing.object_inside here).1).2
  | object other otherSize =>
    obtain ⟨block, offset⟩ := backing.object_block here
    obtain ⟨otherBlock, otherOffset⟩ := backing.object_block there
    have extent := (⟨otherSize, false⟩ : Block).size_le
    simp only [Storage.size] at *
    have elsewhere : headerOf other ≠ headerOf location := by
      intro same
      have locations : other = location := by
        refine Location.ext samePage ?_
        rw [← offset, ← otherOffset, same]
      subst locations
      rw [block, Option.some.injEq, Block.mk.injEq] at otherBlock
      exact different (congrArg _ otherBlock.1.symm)
    simp only [Storage.location] at *
    rcases layout.separate otherBlock block samePage elsewhere with ends | ends <;> omega

theorem Backing.separate (backing : Backing others xv held raw live layout lists) (firstHeld : held first) (secondHeld : held second)
    (different : first ≠ second) (samePage : first.location.page = second.location.page) :
    first.location.offset + first.size ≤ second.location.offset ∨ second.location.offset + second.size ≤ first.location.offset := by
  have payload {location : Location} {size : Nat} (here : held (.object location size)) :
      (headerOf location).offset ≤ location.offset ∧
          location.offset + size ≤ (headerOf location).offset + (⟨size, false⟩ : Block).extent := by
    have offset := (backing.object_block here).2
    have extent := (⟨size, false⟩ : Block).size_le
    simp only at extent
    omega
  cases second with
  | object location size =>
    have inside := payload secondHeld
    rcases backing.outside_block secondHeld firstHeld different samePage with ends | ends
    · exact .inl (ends.trans inside.1)
    · exact .inr (inside.2.trans ends)
  | page frame => cases first with
    | object location size =>
      have inside := payload firstHeld
      rcases backing.outside_block firstHeld secondHeld different.symm samePage.symm with ends | ends
      · exact .inr (ends.trans inside.1)
      · exact .inl (inside.2.trans ends)
    | page other => exact absurd (congrArg Storage.page samePage) different

theorem Backing.object_size (backing : Backing others xv held raw live layout lists) (here : held (.object location size)) :
    xvGetObjectSize xv.memory location.page location.offset = size :=
  backing.models.heap.size (backing.object_block here).1 id

theorem Backing.not_writable (backing : Backing others xv held raw live layout lists) (here : held storage) {address : Nat}
    (lower : storage.location.offset ≤ address) (upper : address < storage.location.offset + storage.size) :
    storage.location.page ∈ xv.kernel.owned ∧ ¬ Writable layout storage.location.page address := by
  cases storage with
  | page page =>
    have member := (backing.pages page).mp here
    refine ⟨backing.models.owned ▸ Finset.mem_union_left _ (Finset.mem_union_right _ member), ?_⟩
    rintro ⟨other, _, there, rfl, _⟩
    exact (backing.pool_page (layout.inside there).1).2 member
  | object location size =>
    obtain ⟨block, offset⟩ := backing.object_block here
    have extent := (⟨size, false⟩ : Block).size_le
    simp only [Storage.location, Storage.size] at *
    refine ⟨backing.models.heap.owned (backing.object_inside here).1, ?_⟩
    rw [show location.page = (headerOf location).page from rfl]
    exact payload_not_writable block rfl (by omega) (by omega)

end Facts

section Steps
variable {others : Finset Page} {xv : XvState} {held : Storage → Prop} {storage : Storage} {location : Location} {size : Nat} {page : Page}

theorem Backed.congr {other : Storage → Prop} (backed : Backed others xv held) (same : ∀ storage, other storage ↔ held storage) :
    Backed others xv other := by
  obtain ⟨raw, live, layout, lists, backing⟩ := backed
  exact ⟨raw, live, layout, lists, backing.models, backing.apart, fun page => (same _).trans (backing.pages page),
    fun location size => (same _).trans (backing.objects location size), backing.frames, backing.busy⟩

theorem Backed.create (memory : Memory Page) : Backed others ⟨⟨memory, others⟩, xvCreatePool⟩ fun _ => False := by
  obtain ⟨layout, lists, models⟩ : ∃ layout lists, Models others ⟨⟨memory, others⟩, xvCreatePool⟩ (fun _ => none) layout lists :=
    models_create memory
  have empty : layout.pages = ∅ := by
    rw [← models.pages]
    exact Finset.sdiff_self _
  refine ⟨∅, fun _ => none, layout, lists, ?_, Finset.disjoint_empty_right _, by simp, by simp, by simp, by simp [empty]⟩
  rw [Finset.union_empty]
  exact models

theorem Backed.page_ne (backed : Backed others xv held) (here : held storage) : storage.location.page ≠ noPage := by
  obtain ⟨_, _, _, _, backing⟩ := backed
  exact backing.page_ne here

theorem Backed.object_size (backed : Backed others xv held) (here : held (.object location size)) :
    xvGetObjectSize xv.memory location.page location.offset = size := by
  obtain ⟨_, _, _, _, backing⟩ := backed
  exact backing.object_size here

theorem Backed.object_inside (backed : Backed others xv held) (here : held (.object location size)) :
    location.offset + size ≤ pageSize := by
  obtain ⟨_, _, _, _, backing⟩ := backed
  exact (backing.object_inside here).2

theorem Backed.owned (backed : Backed others xv held) (here : held storage) : storage.location.page ∈ xv.kernel.owned \ others := by
  obtain ⟨raw, live, layout, lists, backing⟩ := backed
  rw [backing.models.owned, Finset.mem_sdiff, Finset.mem_union, Finset.mem_union]
  cases storage with
  | page frame =>
    have member := (backing.pages frame).mp here
    exact ⟨.inl (.inr member), Finset.disjoint_right.mp backing.apart member⟩
  | object location size =>
    have member := (backing.object_inside here).1
    exact ⟨.inr member, (backing.pool_page member).1⟩

theorem Backed.owned_holds (backed : Backed others xv held) (taken : page ∈ xv.kernel.owned) :
    page ∈ others ∨ ∃ storage, held storage ∧ storage.location.page = page := by
  obtain ⟨raw, live, layout, lists, backing⟩ := backed
  rw [backing.models.owned, Finset.mem_union, Finset.mem_union] at taken
  rcases taken with (foreign | whole) | pool
  · exact .inl foreign
  · exact .inr ⟨.page page, (backing.pages page).mpr whole, rfl⟩
  · obtain ⟨location, size, allocated, same⟩ := backing.busy page pool
    exact .inr ⟨.object location size, (backing.objects location size).mpr allocated, same⟩

theorem Backed.owned_card (backed : Backed others xv held) {slots : Nat → Option Storage} (holders : Library.Ownership.Holders slots held)
    {count : Nat} (inside : ∀ index, slots index ≠ none → index < count) : xv.kernel.owned.card ≤ others.card + count := by
  have covered : xv.kernel.owned ⊆ others ∪ (Finset.range count).image
      fun index => ((slots index).elim noPage fun storage => storage.location.page) := by
    intro page taken
    rw [Finset.mem_union, Finset.mem_image]
    refine (backed.owned_holds taken).imp_right ?_
    rintro ⟨storage, here, rfl⟩
    obtain ⟨index, holds⟩ := (holders.held_iff storage).mp here
    refine ⟨index, Finset.mem_range.mpr (inside index ?_), ?_⟩
    · rw [holds]
      exact Option.some_ne_none storage
    · rw [holds, Option.elim_some]
  have few :=
    (Finset.card_image_le (s := Finset.range count) (f :=
    fun index => ((slots index).elim noPage fun storage => storage.location.page))).trans_eq
    (Finset.card_range count)
  have most := (Finset.card_le_card covered).trans (Finset.card_union_le ..)
  omega

theorem Backed.nothing (backed : Backed others xv held) (nothing : ∀ storage, ¬ held storage) :
    xv.kernel.owned = others ∧ xv.pool.totalPages = 0 := by
  obtain ⟨raw, live, layout, lists, backing⟩ := backed
  have noRaw : raw = ∅ := Finset.eq_empty_of_forall_notMem fun page member => nothing _ ((backing.pages page).mpr member)
  have noPool : layout.pages = ∅ := by
    refine Finset.eq_empty_of_forall_notMem fun page member => ?_
    obtain ⟨location, size, allocated, _⟩ := backing.busy page member
    exact nothing _ ((backing.objects location size).mpr allocated)
  rw [backing.models.owned, backing.models.heap.total, noRaw, noPool, Finset.union_empty, Finset.union_empty, Finset.card_empty]
  exact ⟨rfl, rfl⟩

theorem Backed.releasePage (backed : Backed others xv held) (here : held (.page page)) :
    xv.freePage page = some (xv.without page) ∧ Backed others (xv.without page) fun other => held other ∧ other ≠ .page page := by
  refine ⟨XvState.freePage_owned (Finset.mem_sdiff.mp (backed.owned here)).1, ?_⟩
  obtain ⟨raw, live, layout, lists, backing⟩ := backed
  have member := (backing.pages page).mp here
  have foreign : page ∉ others := Finset.disjoint_right.mp backing.apart member
  have outside : page ∉ layout.pages := fun inside => (backing.pool_page inside).2 member
  have left : others ∪ raw.erase page ⊆ others ∪ raw := Finset.union_subset_union_right (Finset.erase_subset page raw)
  refine ⟨raw.erase page, live, layout, lists, ⟨?_, backing.models.holds, backing.models.apart.mono_right left, ?_⟩,
    backing.apart.mono_right (Finset.erase_subset page raw), ?_, ?_, ?_, backing.busy⟩
  · refine backing.models.heap.elsewhere rfl (fun _ _ _ => rfl) fun other inside => ?_
    refine Finset.mem_erase.mpr ⟨?_, backing.models.heap.owned inside⟩
    rintro rfl
    exact outside inside
  · show xv.kernel.owned.erase page = others ∪ raw.erase page ∪ layout.pages
    rw [backing.models.owned, Finset.erase_union_distrib, Finset.erase_union_distrib, Finset.erase_eq_of_notMem foreign,
      Finset.erase_eq_of_notMem outside]
  · intro other
    rw [backing.pages, Finset.mem_erase, and_comm, Ne, Storage.page.injEq]
  · intro location size
    rw [← backing.objects]
    simp
  · exact fun inside => backing.frames (Finset.mem_of_mem_erase inside)

theorem Backed.takePage (backed : Backed others xv held) {allocator : PageAllocator} {kernel : Kernel}
    (taken : xv.kernel.allocPage allocator = some (page, kernel)) :
    ¬ held (.page page) ∧ (Backed others ⟨kernel, xv.pool⟩ fun other => held other ∨ other = .page page) ∧
      ∀ other, held other → other.bytes kernel.memory = other.bytes xv.memory := by
  obtain ⟨raw, live, layout, lists, backing⟩ := backed
  obtain ⟨unowned, positive, _, _, owned, memory⟩ := Kernel.allocPage_spec taken
  have fresh := unowned
  rw [backing.models.owned, Finset.mem_union, Finset.mem_union, not_or, not_or] at fresh
  obtain ⟨⟨foreign, notRaw⟩, outside⟩ := fresh
  refine ⟨fun here => notRaw ((backing.pages page).mp here), ?_, ?_⟩
  · refine ⟨insert page raw, live, layout, lists, ⟨?_, backing.models.holds, ?_, ?_⟩, ?_, ?_, ?_, ?_, backing.busy⟩
    · refine backing.models.heap.elsewhere rfl (fun other inside address => congrFun (memory other ?_) address) ?_
      · rintro rfl
        exact outside inside
      · exact owned ▸ backing.models.heap.owned.trans (Finset.subset_insert _ _)
    · rw [Finset.union_insert, Finset.disjoint_insert_right]
      exact ⟨outside, backing.models.apart⟩
    · show kernel.owned = others ∪ insert page raw ∪ layout.pages
      rw [owned, backing.models.owned, Finset.union_insert, Finset.insert_union]
    · exact Finset.disjoint_insert_right.mpr ⟨foreign, backing.apart⟩
    · intro other
      rw [backing.pages, Finset.mem_insert, or_comm, Storage.page.injEq]
    · intro location size
      rw [← backing.objects]
      simp
    · intro other inside
      rcases Finset.mem_insert.mp inside with rfl | old
      · exact Nat.ne_of_gt positive
      · exact backing.frames old
  · intro other here
    have elsewhere : other.location.page ≠ page := by
      intro same
      cases other with
      | page frame => exact notRaw (same ▸ (backing.pages frame).mp here)
      | object location size => exact outside (same ▸ (backing.object_inside here).1)
    exact congrArg (fun bytes : PageBytes => bytes.read other.location.offset other.size) (memory _ elsewhere)

theorem Backed.releaseObject (backed : Backed others xv held) (here : held (.object location size)) :
    ∃ after, xvFree xv location.page location.offset = some after ∧
      (Backed others after fun other => held other ∧ other ≠ .object location size) ∧
      ∀ other, held other → other ≠ .object location size → other.bytes after.memory = other.bytes xv.memory := by
  obtain ⟨raw, live, layout, lists, backing⟩ := backed
  have allocated := (backing.objects _ _).mp here
  obtain ⟨after, changed, newLists, freed, release⟩ := backing.models.freed allocated
  refine ⟨after, freed, ⟨raw, Function.update live location none, changed, newLists, backing.models.released allocated release,
    backing.apart, ?_, ?_, backing.frames, ?_⟩, ?_⟩
  · intro page
    rw [← backing.pages]
    simp
  · intro other recorded
    rw [backing.objects]
    rcases Classical.em (other = location) with rfl | elsewhere
    · rw [Function.update_self, allocated]
      simp [eq_comm]
    · rw [Function.update_of_ne elsewhere]
      simp [elsewhere]
  · intro page member
    obtain ⟨old, kept⟩ := backing.models.released_inUse allocated release member
    exact kept (backing.busy page old)
  · intro other there different
    refine release.changes.read fun address lower upper scratch => ?_
    rcases scratch with ⟨samePage, least, most⟩ | writable
    · rcases backing.outside_block here there different samePage with ends | ends <;> omega
    · exact (backing.not_writable there lower upper).2 writable

theorem Backed.takeObject (backed : Backed others xv held) (small : size ≤ 4088) (allocator : PageAllocator) :
    xvMalloc xv size allocator = ⟨-enomem, Location.null, xv⟩ ∨
      (xvMalloc xv size allocator).ret = 0 ∧ (∀ recorded, ¬ held (.object (xvMalloc xv size allocator).location recorded)) ∧
      (Backed others (xvMalloc xv size allocator).state fun other => held other ∨
        other = .object (xvMalloc xv size allocator).location size) ∧
      ∀ other, held other → other.bytes (xvMalloc xv size allocator).state.memory = other.bytes xv.memory := by
  obtain ⟨raw, live, layout, lists, backing⟩ := backed
  rcases Nat.eq_zero_or_pos size with rfl | positive
  · left
    rw [xvMalloc, if_pos (.inl rfl)]
  rcases backing.models.malloc_cases positive small allocator with refused | ⟨changed, newLists, met, pages⟩
  · exact .inl refused
  generalize xvMalloc xv size allocator = result at met pages ⊢
  have vacant : live result.location = none := by
    cases found : live result.location with
    | none => rfl
    | some recorded => exact absurd (backing.models.holds.header found).1 (met.vacant recorded)
  refine .inr ⟨met.ret, ?_, ⟨raw, Function.update live result.location (some size), changed, newLists, backing.models.served met,
    backing.apart, ?_, ?_, backing.frames, ?_⟩, ?_⟩
  · intro recorded here
    rw [backing.objects, vacant] at here
    cases here
  · intro page
    rw [← backing.pages]
    simp
  · intro location recorded
    rw [backing.objects, Storage.object.injEq]
    rcases Classical.em (location = result.location) with rfl | elsewhere
    · rw [Function.update_self, vacant]
      simp [eq_comm]
    · rw [Function.update_of_ne elsewhere]
      simp [elsewhere]
  · intro page member
    rcases pages page member with old | ⟨_, used⟩
    · exact (backing.busy page old).update _ _
    · exact used
  · intro other there
    refine met.changes.read fun address lower upper written => ?_
    obtain ⟨owned, untouched⟩ := backing.not_writable there lower upper
    rcases written with outside | writable
    · exact outside owned
    · exact untouched writable

theorem Backed.takeObject_served (backed : Backed others xv held) (positive : size ≠ 0) (small : size ≤ 4088) {allocator : PageAllocator}
    (offered : (xv.kernel.allocPage allocator).isSome) : (xvMalloc xv size allocator).ret = 0 := by
  obtain ⟨_, _, _, _, backing⟩ := backed
  exact xvMalloc_succeeds backing.models.heap positive small (.inl offered)

/-- A new object is on a page that was in use already, or on the one the system offered. -/
theorem Backed.takeObject_page (backed : Backed others xv held) (small : size ≤ 4088) {allocator : PageAllocator}
    (met : (xvMalloc xv size allocator).ret = 0) :
    (∃ storage, held storage ∧ storage.location.page = (xvMalloc xv size allocator).location.page) ∨
      (xv.kernel.allocPage allocator).map Prod.fst = some (xvMalloc xv size allocator).location.page := by
  obtain ⟨raw, live, layout, lists, backing⟩ := backed
  have refusal : -enomem ≠ 0 := by decide
  rcases Nat.eq_zero_or_pos size with rfl | positive
  · rw [xvMalloc, if_pos (.inl rfl)] at met
    exact absurd met refusal
  rcases backing.models.malloc_cases positive small allocator with refused | ⟨changed, newLists, served, pages⟩
  · rw [refused] at met
    exact absurd met refusal
  have used : changed.block (headerOf (xvMalloc xv size allocator).location) = some ⟨size, false⟩ :=
    (served.objects _ _).mpr (.inr ⟨rfl, rfl⟩)
  rcases pages _ (changed.inside used).1 with old | ⟨offered, _⟩
  · obtain ⟨location, recorded, allocated, samePage⟩ := backing.busy _ old
    exact .inl ⟨.object location recorded, (backing.objects _ _).mpr allocated, samePage⟩
  · exact .inr offered

theorem Backed.object_aligned (backed : Backed others xv held) (here : held (.object location size)) :
    location.offset % xvAlign = 0 ∧ xvAlign ≤ location.offset := by
  obtain ⟨raw, live, layout, lists, backing⟩ := backed
  obtain ⟨block, offset⟩ := backing.object_block here
  have aligned := layout.aligned block
  simp only [xvAlign_eq]
  omega

theorem Backed.write (backed : Backed others xv held) (here : held storage) {data : List UInt8} (whole : data.length = storage.size) :
    let memory := xv.memory.write storage.location.page storage.location.offset data
    Backed others (xv.withMemory memory) held ∧ storage.bytes memory = data ∧
      ∀ other, held other → other ≠ storage → other.bytes memory = other.bytes xv.memory := by
  obtain ⟨raw, live, layout, lists, backing⟩ := backed
  refine ⟨⟨raw, live, layout, lists, ?_, backing.apart, backing.pages, backing.objects, backing.frames, backing.busy⟩, ?_, ?_⟩
  · cases storage with
    | page frame =>
      have member := (backing.pages frame).mp here
      refine ⟨backing.models.heap.elsewhere rfl ?_ backing.models.heap.owned, backing.models.holds, backing.models.apart,
        backing.models.owned⟩
      intro page inside address
      have different : page ≠ frame := by
        rintro rfl
        exact (backing.pool_page inside).2 member
      rw [XvState.withMemory_memory]
      exact congrFun (Memory.modify_other _ _ different) address
    | object location size =>
      have fits : 0 + data.length ≤ size := by
        rw [Nat.zero_add]
        exact Nat.le_of_eq whole
      have written := backing.models.write ((backing.objects _ _).mp here) 0 data fits
      rw [Nat.add_zero] at written
      exact written
  · rw [Storage.bytes, ← whole]
    simp only [Memory.read, Memory.write, Memory.modify_same, PageBytes.read_write]
  · intro other there different
    have changes : ChangesOnly (fun page address => page = storage.location.page ∧ storage.location.offset ≤ address ∧
        address < storage.location.offset + storage.size) xv.memory (xv.memory.write storage.location.page storage.location.offset data) :=
      ChangesOnly.write _ _ _ _ fun address lower upper => ⟨rfl, lower, whole ▸ upper⟩
    refine changes.read ?_
    rintro address lower upper ⟨samePage, least, most⟩
    rcases backing.separate there here different samePage with ends | ends <;> omega

theorem Backed.change (backed : Backed others xv held) (here : held storage) {memory : Memory Page}
    (changes : ChangesOnly (fun page address => page = storage.location.page ∧ storage.location.offset ≤ address ∧
      address < storage.location.offset + storage.size) xv.memory memory) :
    Backed others (xv.withMemory memory) held ∧ ∀ other, held other → other ≠ storage → other.bytes memory = other.bytes xv.memory := by
  have whole : (memory.read storage.location.page storage.location.offset storage.size).length = storage.size := PageBytes.read_length ..
  obtain ⟨after, _, kept⟩ := backed.write here whole
  rw [← changes.eq_write] at after kept
  exact ⟨after, kept⟩

end Steps
end Backing
end Compcache
