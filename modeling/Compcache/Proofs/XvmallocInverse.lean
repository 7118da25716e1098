import Compcache.Proofs.XvmallocRuns

/-! A release right after an allocation. What was cut from a free block joins it
again, and the pool is the one before both. -/

namespace Compcache.Xvmalloc
open Library.PagedMemory Library.Bitmap

theorem Layout.eq_of {first second : Layout} (pages : first.pages = second.pages)
    (blocks : ∀ location, first.block location = second.block location) :
    first = second := by
  obtain ⟨_, block, _, _, _, _, _⟩ := first
  obtain ⟨_, other, _, _, _, _, _⟩ := second
  obtain rfl : block = other := funext blocks
  cases pages
  rfl

section Unique
variable [Arch] {state after : XvState} {layout : Layout} {lists : Nat → List Location} {location : Location} {found : Block}

theorem Heap.pool_unique (first : Heap state layout lists) (second : Heap after layout lists) : after.pool = state.pool := by
  have words (word : Nat) : after.pool.slbitmap word = state.pool.slbitmap word := by
    refine BitVec.eq_of_getLsbD_eq fun position inside => Bool.eq_iff_iff.mpr ?_
    have split := word_position word inside
    have one := second.free.tracks.bit (word * bitsPerLong + position)
    have two := first.free.tracks.bit (word * bitsPerLong + position)
    rw [split.1, split.2] at one two
    exact one.trans two.symm
  have flags : after.pool.flbitmap = state.pool.flbitmap := by
    refine BitVec.eq_of_getLsbD_eq fun position _ => Bool.eq_iff_iff.mpr ?_
    rw [second.free.tracks.word, first.free.tracks.word, words]
  have heads : after.pool.freelist = state.pool.freelist :=
    funext fun index => (second.free.heads index).trans (first.free.heads index).symm
  have total : after.pool.totalPages = state.pool.totalPages := second.total.trans first.total.symm
  rcases after with ⟨_, ⟨_, _, _, _⟩⟩
  rcases state with ⟨_, ⟨_, _, _, _⟩⟩
  exact XvPool.mk.injEq .. |>.mpr ⟨flags, funext words, heads, total⟩

theorem Heap.header_unique (first : Heap state layout lists) (second : Heap after layout lists) (here : layout.block location = some found)
    (prev : (header after.memory location).prev = (header state.memory location).prev ∨
      ∃ other previous, layout.block other = some previous ∧ previous.free = true ∧ successor other previous = location) :
    header after.memory location = header state.memory location := by
  have size := (second.size here id).trans (first.size here id).symm
  have free := (second.flag here id).trans (first.flag here id).symm
  have prevFree : (header after.memory location).prevFree = (header state.memory location).prevFree := by
    rcases Classical.em (location.offset = 0) with start | later
    · have front : location = ⟨location.page, 0⟩ := Location.ext rfl start
      rw [front, second.first (layout.inside here).1, first.first (layout.inside here).1]
    · obtain ⟨other, previous, there, border⟩ := layout.previous here later
      rw [← border, (second.tagged there id (border ▸ here)).1, (first.tagged there id (border ▸ here)).1]
  have prev : (header after.memory location).prev = (header state.memory location).prev := by
    rcases prev with kept | ⟨other, previous, there, isFree, rfl⟩
    · exact kept
    · rw [(second.tagged there id here).2 isFree, (first.tagged there id here).2 isFree]
  rcases one : header after.memory location with ⟨_, _, _, _⟩
  rcases two : header state.memory location with ⟨_, _, _, _⟩
  rw [one, two] at size free prevFree prev
  cases size
  cases free
  cases prevFree
  cases prev
  rfl

end Unique

section Carve
variable [Arch] {state : XvState} {layout : Layout} {lists : Nat → List Location} {page : Page}
    {low size origsize index : Nat} {block : Block}

/-- Up to its end, the release of an object just cut from a free block puts the
block together again. -/
theorem carve_rejoins (valid : Heap state layout lists) (here : layout.block ⟨page, low⟩ = some block) (free : block.free = true)
    {others : List Location} (listed : lists index = ⟨page, low⟩ :: others) (fits : size ≤ block.size)
    (origin : align origsize xvAlign = size)
    (aligned : size % 4 = 0) :
    ∃ both, xvFree (carveBlock state index ⟨page, low⟩ size origsize) page (low + xvAlign) = releaseBlock both page low ⟨page, low⟩ ∧
      Merging both (layout.carve here free fits origin aligned) (Function.update lists index others) page low (low + block.extent) ∧
      both.kernel.owned = state.kernel.owned ∧ PrevKept layout ⟨page, low + block.extent⟩ state.memory both.memory := by
  obtain ⟨newLists, heap, _, owned, order, prevKept⟩ := carveBlock_spec valid here free listed fits origin aligned
  generalize carveBlock state index ⟨page, low⟩ size origsize = cut at heap owned prevKept
  have cutBlock (location : Location) : (layout.carve here free fits origin aligned).block location =
      if Within page low (low + block.extent) location then carved low size origsize block.size location.offset else layout.block
        location := carve_block location
  generalize layout.carve here free fits origin aligned = changed at heap cutBlock
  have extent := Block.extent_eq (layout.rounded here free)
  have within : Within page low (low + block.extent) ⟨page, low⟩ := ⟨rfl, Nat.le_refl _, by simp only; omega⟩
  have objectExtent : (⟨origsize, false⟩ : Block).extent = size + 4 := congrArg (· + 4) origin
  have outside {location : Location} (without : ¬ Within page low (low + block.extent) location) :
      changed.block location = layout.block location := (cutBlock location).trans (if_neg without)
  have object : changed.block ⟨page, low⟩ = some ⟨origsize, false⟩ := by
    rw [cutBlock, if_pos within]
    exact carved_cases.mpr (.inl ⟨rfl, rfl⟩)
  have blocks {location : Location} {found : Block} (there : layout.block location = some found) :
      ∃ found, changed.block location = some found := by
    rcases Classical.em (Within page low (low + block.extent) location) with within | without
    · obtain rfl := (within_block here there).mp within
      exact ⟨_, object⟩
    · exact ⟨found, (outside without).trans there⟩
  obtain ⟨start, rounded⟩ := roundBlock_spec heap object
  rw [objectExtent] at start
  -- in front of the object stands what stood in front of the block
  have front {location : Location} {found : Block} (there : changed.block location = some found)
    (border : successor location found = ⟨page, low⟩) :
      found.free = false := by
    have ends : location.offset + found.extent = low := congrArg Location.offset border
    have positive := found.size_le
    have without : ¬ Within page low (low + block.extent) location := fun within => by have := within.2.1; omega
    rw [outside without] at there
    refine Bool.eq_false_of_not_eq_true fun isFree => ?_
    have used := layout.coalesced there isFree (border ▸ here)
    exact absurd (used.symm.trans free) (by decide)
  have prevOf {memory : Memory Page} (kept : ∀ {location found}, changed.block location = some found →
        (header memory location).prev = (header cut.memory location).prev) :
            PrevKept layout ⟨page, low + block.extent⟩ state.memory memory := by
    intro location found there elsewhere
    obtain ⟨_, changedThere⟩ := blocks there
    exact (kept changedThere).trans (prevKept location found there elsewhere)
  rcases Nat.eq_or_lt_of_le fits with same | smaller
  · -- an exact fit has a block in use behind it
    have reach : low + (size + 4) = low + block.extent := by omega
    rw [reach] at start
    have used {found : Block} (there : changed.block ⟨page, low + block.extent⟩ = some found) : found.free = false := by
      rw [outside fun within => Nat.lt_irrefl _ within.2.2] at there
      exact layout.coalesced here free there
    have alone := mergeNext_alone start used
    have joined := congrArg (fun forward => mergePrev forward page low ⟨page, low⟩) alone
    have freed := xvFree_live heap object (joined.trans (mergePrev_alone start front))
    rw [if_pos same] at order
    subst order
    exact ⟨_, freed, start, (XvState.withMemory_owned _ _).trans owned, prevOf rounded⟩
  · have rest : changed.block ⟨page, low + (size + 4)⟩ = some ⟨block.size - size - xvAlign, true⟩ := by
      rw [cutBlock, if_pos ⟨rfl, Nat.le_add_right _ _, by simp only; omega⟩]
      exact carved_cases.mpr (.inr ⟨Nat.ne_of_lt smaller, by simp only [xvAlign_eq]; omega, rfl⟩)
    have remainder : (⟨block.size - size - xvAlign, true⟩ : Block).extent = block.size - size := by
      have whole := layout.rounded here free
      rw [Block.extent_eq (by simp only [xvAlign_eq]; omega)]
      simp only [xvAlign_eq]
      omega
    obtain ⟨wide, absorbs, kept⟩ := mergeNext_free start rest rfl
    refine ⟨_, xvFree_live heap object (mergePrev_alone wide front), ?_, absorbs.owned.trans ((XvState.withMemory_owned _ _).trans owned),
      prevOf fun there => (kept there).trans (rounded there)⟩
    rw [if_neg (Nat.ne_of_lt smaller)] at order
    rw [order, show low + size + xvAlign = low + (size + 4) from Nat.add_assoc .., delist_enlist, remainder] at wide
    rw [show low + block.extent = low + (size + 4) + (block.size - size) by omega]
    exact wide

theorem carve_undone (valid : Heap state layout lists) (here : layout.block ⟨page, low⟩ = some block) (free : block.free = true)
    {others : List Location} (listed : lists index = ⟨page, low⟩ :: others) (fits : size ≤ block.size)
    (origin : align origsize xvAlign = size)
    (aligned : size % 4 = 0) (partly : ¬ (low = 0 ∧ low + block.extent = pageSize)) :
    ∃ after, xvFree (carveBlock state index ⟨page, low⟩ size origsize) page (low + xvAlign) = some after ∧ Heap after layout lists ∧
      after.kernel.owned = state.kernel.owned ∧ PrevKept layout ⟨page, low + block.extent⟩ state.memory after.memory := by
  obtain ⟨both, freed, merging, owned, kept⟩ := carve_rejoins valid here free listed fits origin aligned
  have cutBlock (location : Location) : (layout.carve here free fits origin aligned).block location =
      if Within page low (low + block.extent) location then carved low size origsize block.size location.offset else layout.block
        location := carve_block location
  have cutPages : (layout.carve here free fits origin aligned).pages = layout.pages := rfl
  generalize layout.carve here free fits origin aligned = changed at merging cutBlock cutPages
  have extent := Block.extent_eq (layout.rounded here free)
  have positive := block.size_le
  have within : Within page low (low + block.extent) ⟨page, low⟩ := ⟨rfl, Nat.le_refl _, by simp only; omega⟩
  have outside {location : Location} (without : ¬ Within page low (low + block.extent) location) :
      changed.block location = layout.block location := (cutBlock location).trans (if_neg without)
  have object : changed.block ⟨page, low⟩ = some ⟨origsize, false⟩ := by
    rw [cutBlock, if_pos within]
    exact carved_cases.mpr (.inl ⟨rfl, rfl⟩)
  have entry {location : Location} {found : Block} (there : changed.block location = some found)
    (border : successor location found = ⟨page, low⟩) :
      found.free = false := by
    have ends : location.offset + found.extent = low := congrArg Location.offset border
    have room := found.size_le
    rw [outside fun within => by have := within.2.1; omega] at there
    refine Bool.eq_false_of_not_eq_true fun isFree => ?_
    exact absurd ((layout.coalesced there isFree (border ▸ here)).symm.trans free) (by decide)
  have leave {found : Block} (there : changed.block ⟨page, low + block.extent⟩ = some found) : found.free = false := by
    rw [outside fun within => Nat.lt_irrefl _ within.2.2] at there
    exact layout.coalesced here free there
  obtain ⟨after, release, heap, _, sameOwned, prevKept⟩ := releaseBlock_merge merging partly object (by omega) entry leave
  have sameLists : enlist (Function.update lists index others) ⟨page, low⟩ (low + block.extent - low - xvAlign) = lists := by
    obtain ⟨_, found, there, _, large, sized⟩ := (valid.listed index ⟨page, low⟩).mp (by rw [listed]; exact List.mem_cons_self)
    obtain rfl := Option.some.inj (here.symm.trans there)
    have whole : low + block.extent - low - xvAlign = block.size := by
      simp only [xvAlign_eq]
      omega
    rw [whole, enlist, if_pos large, sized, Function.update_self, Function.update_idem, ← listed, Function.update_eq_self]
  have sameLayout : changed.merge object (show low < low + block.extent by omega) merging.bounded merging.stop entry leave = layout := by
    refine Layout.eq_of cutPages fun location => ?_
    show (if Within page low (low + block.extent) location then merged low (low + block.extent) location.offset else changed.block location)
      = _
    rcases Classical.em (Within page low (low + block.extent) location) with inside | without
    · rw [if_pos inside]
      have whole : low + block.extent - low - xvAlign = block.size := by
        simp only [xvAlign_eq]
        omega
      ext found
      rw [merged_cases, whole]
      constructor
      · rintro ⟨start, rfl⟩
        obtain rfl : location = ⟨page, low⟩ := Location.ext inside.1 start
        rw [here, ← free]
      · intro there
        obtain rfl := (within_block here there).mp inside
        obtain rfl := Option.some.inj (here.symm.trans there)
        exact ⟨rfl, by rw [← free]⟩
    · rw [if_neg without, outside without]
  rw [sameLayout, sameLists] at heap
  refine ⟨after, freed.trans release, heap, sameOwned.trans owned, fun location found there elsewhere => ?_⟩
  refine Eq.trans ?_ (kept location found there elsewhere)
  rcases Classical.em (Within page low (low + block.extent) location) with inside | without
  · obtain rfl := (within_block here there).mp inside
    exact prevKept object (fun _ => rfl) elsewhere
  · exact prevKept ((outside without).trans there) (fun inside => absurd inside without) elsewhere

theorem growth_undone {grown : XvState} (fresh : page ∉ layout.pages) (unowned : page ∉ state.kernel.owned)
    (owned : grown.kernel.owned = insert page state.kernel.owned)
    (heap : Heap grown (layout.addPage fresh) (enlist lists ⟨page, 0⟩ freshBlock.size))
    (kept : ∀ {location found}, layout.block location = some found → header grown.memory location = header state.memory location)
    (empty : lists (getIndexForInsert freshBlock.size) = []) (fits : size ≤ freshBlock.size) (origin : align origsize xvAlign = size)
    (aligned : size % 4 = 0) :
    ∃ after, xvFree (carveBlock grown (getIndexForInsert freshBlock.size) ⟨page, 0⟩ size origsize) page (0 + xvAlign) = some after ∧
      Heap after layout lists ∧ after.kernel.owned = state.kernel.owned ∧
      ∀ {location found}, layout.block location = some found → (header after.memory location).prev =
        (header state.memory location).prev := by
  have start := addPage_start fresh
  have large : xvMinAllocSize ≤ freshBlock.size := by decide
  have listed : enlist lists ⟨page, 0⟩ freshBlock.size (getIndexForInsert freshBlock.size) = [⟨page, 0⟩] := by
    rw [enlist, if_pos large, Function.update_self, empty]
  obtain ⟨both, freed, merging, sameOwned, prevKept⟩ := carve_rejoins heap start rfl listed fits origin aligned
  have cutBlock (location : Location) : ((layout.addPage fresh).carve start rfl fits origin aligned).block location =
      if Within page 0 (0 + freshBlock.extent) location then carved 0 size origsize freshBlock.size location.offset
      else (layout.addPage fresh).block location := carve_block location
  have cutPages : ((layout.addPage fresh).carve start rfl fits origin aligned).pages = insert page layout.pages := rfl
  generalize (layout.addPage fresh).carve start rfl fits origin aligned = changed at merging cutBlock cutPages
  have whole : 0 + freshBlock.extent = pageSize := by rw [freshBlock_extent, Nat.zero_add]
  rw [whole] at merging cutBlock prevKept
  obtain ⟨release, final⟩ := releaseBlock_page merging
  have sameLists : Function.update (enlist lists ⟨page, 0⟩ freshBlock.size) (getIndexForInsert freshBlock.size) [] = lists := by
    rw [enlist, if_pos large, Function.update_idem, ← empty, Function.update_eq_self]
  have sameLayout : changed.dropPage page = layout := by
    refine Layout.eq_of ?_ fun location => ?_
    · show changed.pages.erase page = layout.pages
      rw [cutPages, Finset.erase_insert fresh]
    · show (if location.page = page then none else changed.block location) = layout.block location
      split
      next samePage =>
        cases there : layout.block location with
        | none => rfl
        | some found => exact absurd (samePage ▸ (layout.inside there).1) fresh
      next elsewhere => rw [cutBlock, if_neg fun within => elsewhere within.1, addPage_old fresh elsewhere]
  rw [sameLayout, sameLists] at final
  refine ⟨_, freed.trans release, final, ?_, fun {location found} there => ?_⟩
  · show both.kernel.owned.erase page = state.kernel.owned
    rw [sameOwned, owned, Finset.erase_insert unowned]
  · have elsewhere : location.page ≠ page := fun samePage => fresh (samePage ▸ (layout.inside there).1)
    rw [← kept there]
    exact prevKept location found ((addPage_old fresh elsewhere).trans there) fun same => elsewhere (congrArg Location.page same)

end Carve

/-- A pool is as it was: its pages, heads, bitmaps and count, and the headers of its blocks. -/
structure Restored (block : Location → Option Block) [Arch] (before after : XvState) : Prop where
  owned : after.kernel.owned = before.kernel.owned
  pool : after.pool = before.pool
  headers : ∀ {location found}, block location = some found → header after.memory location = header before.memory location

section Inverse
variable [Arch] {others : Finset Page} {state : XvState} {live : LiveObjects} {layout : Layout} {lists : Nat → List Location}

theorem Models.restored (models : Models others state live layout lists) {after : XvState} (heap : Heap after layout lists)
    (owned : after.kernel.owned = state.kernel.owned)
    (prev : ∀ {location found}, layout.block location = some found → (header after.memory location).prev =
      (header state.memory location).prev ∨
      ∃ other previous, layout.block other = some previous ∧ previous.free = true ∧ successor other previous = location) :
    HeapInvariant others after live layout.block lists ∧ Restored layout.block state after := by
  have now : Models others after live layout lists := ⟨heap, models.holds, models.apart, owned.trans models.owned⟩
  exact ⟨now.invariant, owned, models.heap.pool_unique heap, fun here => models.heap.header_unique heap here (prev here)⟩

/-- `xv_free` right after `xv_malloc`: what was allocated is given back as if it had
never been, with the same lists in the same order. -/
theorem xvFree_undoes_xvMalloc (reachable : Reachable others state live) (used : ∀ page ∈ state.kernel.owned \ others, InUse live page)
    {size : Nat} (positive : 1 ≤ size) (small : size ≤ xvMaxAllocSize) (allocator : PageAllocator)
    (served : (xvMalloc state size allocator).ret = 0) :
    ∃ after, xvFree (xvMalloc state size allocator).state (xvMalloc state size allocator).location.page
        (xvMalloc state size allocator).location.offset = some after ∧
      ∃ block lists, HeapInvariant others state live block lists ∧ HeapInvariant others after live block lists ∧
        Restored block state after := by
  obtain ⟨layout, lists, models⟩ := reachable.models
  have valid := models.heap
  have good : ¬ (size = 0 ∨ size > xvMaxAllocSize) := by omega
  have aligned : align size xvAlign % 4 = 0 := by simp only [align, xvAlign_eq]; omega
  have refused : ¬ (-enomem : Int) = 0 := by decide
  have absent : Location.null.page = noPage := rfl
  rcases findBlock_spec valid.free (align size xvAlign) Location.null with ⟨index, nearest, found⟩ | ⟨unlisted, found⟩
  · obtain ⟨present, _⟩ := served_found valid nearest
    obtain ⟨above, nonempty, _⟩ := nearest
    obtain ⟨⟨page, low⟩, rest, listed⟩ := List.exists_cons_of_ne_nil nonempty
    have head : state.pool.freelist index = ⟨page, low⟩ := by rw [valid.free.heads, listed, List.headD_cons]
    obtain ⟨_, block, here, free, large, rfl⟩ := (valid.listed index ⟨page, low⟩).mp (by rw [listed]; exact List.mem_cons_self)
    have fits : align size xvAlign ≤ block.size := by
      refine listed_size large ?_ above
      have bounded := layout.ends here
      have room := block.size_le
      simp only [xvMaxAllocSize_eq, pageSize_eq] at *
      omega
    have partly : ¬ (low = 0 ∧ low + block.extent = pageSize) := by
      rintro ⟨rfl, whole⟩
      have own : page ∈ state.kernel.owned \ others := by
        rw [models.pages]
        exact (layout.inside here).1
      obtain ⟨location, recorded, allocated, rfl⟩ := used page own
      obtain ⟨there, _⟩ := models.holds.header allocated
      have same : headerOf location = ⟨location.page, 0⟩ := by
        refine Classical.byContradiction fun different => ?_
        have room := (⟨recorded, false⟩ : Block).size_le
        have ends := layout.ends there
        rcases layout.separate there here rfl different with
          (before : (headerOf location).offset + (⟨recorded, false⟩ : Block).extent ≤ 0) |
            (behind : 0 + block.extent ≤ (headerOf location).offset) <;> omega
      rw [same, here] at there
      cases there
      cases free
    obtain ⟨after, freed, heap, owned, prevKept⟩ := carve_undone valid here free listed fits rfl aligned partly
    rw [xvMalloc, if_neg good]
    rw [head] at present
    have real : page ≠ noPage := present
    simp only [found, head, if_neg real]
    refine ⟨after, freed, layout.block, lists, models.invariant, models.restored heap owned fun {location found} there => ?_⟩
    rcases Classical.em (location = ⟨page, low + block.extent⟩) with same | elsewhere
    · exact .inr ⟨_, block, here, free, same.symm⟩
    · exact .inl (prevKept location found there elsewhere)
  · cases grown : growPool state allocator with
    | none =>
      rw [xvMalloc, if_neg good] at served
      simp only [found, if_pos absent, grown] at served
      exact absurd served refused
    | some bigger =>
      obtain ⟨page, fresh, grownLists, ⟨unowned, _⟩, owned, heap, _, rfl, kept⟩ := growPool_spec valid grown
      rcases findBlock_spec heap.free (align size xvAlign) Location.null with ⟨index, nearest, again⟩ | ⟨_, again⟩
      · obtain ⟨present, _⟩ := served_found heap nearest
        obtain ⟨above, nonempty, _⟩ := nearest
        have large : xvMinAllocSize ≤ freshBlock.size := by decide
        -- nothing served before, so only the list of the new page can
        obtain rfl : index = getIndexForInsert freshBlock.size := by
          refine Classical.byContradiction fun different => nonempty ?_
          rw [enlist, if_pos large, Function.update_of_ne different]
          exact unlisted index above
        have empty := unlisted _ above
        have head : bigger.pool.freelist (getIndexForInsert freshBlock.size) = ⟨page, 0⟩ := by
          rw [heap.free.heads, enlist, if_pos large, Function.update_self, List.headD_cons]
        have fits : align size xvAlign ≤ freshBlock.size := by
          simp only [align, xvAlign_eq, freshBlock, pageSize_eq, xvMaxAllocSize_eq] at small ⊢
          omega
        obtain ⟨after, freed, final, sameOwned, prevKept⟩ := growth_undone fresh unowned owned heap kept empty fits rfl aligned
        rw [xvMalloc, if_neg good]
        rw [head] at present
        have real : page ≠ noPage := present
        simp only [found, if_pos absent, grown, again, head, if_neg real]
        exact ⟨after, freed, layout.block, lists, models.invariant, models.restored final sameOwned fun there => .inl (prevKept there)⟩
      · rw [xvMalloc, if_neg good] at served
        simp only [found, if_pos absent, grown, again] at served
        exact absurd served refused

end Inverse

section Sample
local instance inverseArch : Arch := Arch.x64

/-- A second object next to a first. -/
theorem xvFree_undoes_xvMalloc_sample :
    ∃ after, xvFree (xvMalloc sampleObject.state 200 .exhausted).state (xvMalloc sampleObject.state 200 .exhausted).location.page
        (xvMalloc sampleObject.state 200 .exhausted).location.offset = some after ∧
      ∃ block lists, HeapInvariant ∅ sampleObject.state (Function.update (fun _ => none) sampleObject.location (some 100)) block lists ∧
        HeapInvariant ∅ after (Function.update (fun _ => none) sampleObject.location (some 100)) block lists ∧
          Restored block sampleObject.state after := by
  refine xvFree_undoes_xvMalloc sampleObject_reachable (fun page own => ?_) (by decide) (by decide) .exhausted (by decide +kernel)
  have placed : sampleObject.state.kernel.owned \ ∅ = {sampleObject.location.page} := by decide +kernel
  rw [placed, Finset.mem_singleton] at own
  exact ⟨sampleObject.location, 100, Function.update_self .., own.symm⟩

end Sample
end Compcache.Xvmalloc
