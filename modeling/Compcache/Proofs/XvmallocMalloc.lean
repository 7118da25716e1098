import Compcache.Proofs.XvmallocLayout

/-! Allocation. A new page is one free block; a block found for a request is
taken off its list and cut into the object and a free remainder. -/

namespace Compcache.Xvmalloc
open Library.PagedMemory Library.Bitmap Library.Tiling

/-- The blocks of a page that holds one free block. -/
def freshBlock : Block := ⟨pageSize - xvAlign, true⟩

theorem freshBlock_extent : freshBlock.extent = pageSize := rfl

def Layout.addPage (layout : Layout) {page : Page} (fresh : page ∉ layout.pages) : Layout where
  pages := insert page layout.pages
  block location := if location = ⟨page, 0⟩ then some freshBlock else layout.block location
  inside := by
    intro location found here
    split at here
    next equal =>
      subst equal
      exact ⟨Finset.mem_insert_self _ _, by simp⟩
    next => exact (layout.inside here).imp_left (Finset.mem_insert_of_mem ·)
  tiles := by
    intro other member
    rcases Classical.em (other = page) with rfl | elsewhere
    · have whole : (fun offset => (if (⟨other, offset⟩ : Location) = ⟨other, 0⟩ then some freshBlock
          else layout.block ⟨other, offset⟩).map Block.extent) 0 = some pageSize := by simp [freshBlock_extent]
      refine .block whole (by decide) ?_ (.done _)
      intro offset lower _
      cases here : layout.block ⟨other, offset⟩ with
      | none => simp [show offset ≠ 0 by omega]
      | some found => exact absurd (layout.inside here).1 fresh
    · refine (layout.tiles (Finset.mem_of_mem_insert_of_ne member elsewhere)).congr fun offset _ _ => ?_
      simp [elsewhere]
  aligned := by
    intro location found here
    split at here
    next equal => subst equal; rfl
    next => exact layout.aligned here
  rounded := by
    intro location found here
    split at here
    next => cases here; exact fun _ => rfl
    next => exact layout.rounded here
  coalesced := by
    intro location found next here free follows
    split at here
    next equal =>
      subst equal
      cases here
      split at follows
      next border => exact absurd (congrArg Location.offset border) (by simp [successor, freshBlock_extent])
      next => exact absurd (layout.inside follows).2 (by simp [successor, freshBlock_extent])
    next =>
      split at follows
      next border =>
        have samePage : location.page = page := congrArg Location.page border
        exact absurd (layout.inside here).1 (samePage ▸ fresh)
      next => exact layout.coalesced here free follows

/-- An object of `origsize` bytes at the front of a free block of `whole` bytes,
and what is left of it. -/
def carved (low size origsize whole : Nat) (offset : Nat) : Option Block :=
  if offset = low then some ⟨origsize, false⟩
  else if whole ≠ size ∧ offset = low + size + xvAlign then some ⟨whole - size - xvAlign, true⟩
  else none

theorem carved_cases {low size origsize whole offset : Nat} {found : Block} :
    carved low size origsize whole offset = some found ↔ offset = low ∧ found = ⟨origsize, false⟩ ∨
      size ≠ whole ∧ offset = low + size + xvAlign ∧ found = ⟨whole - size - xvAlign, true⟩ := by
  simp only [carved, xvAlign_eq]
  rcases Classical.em (offset = low) with rfl | elsewhere
  · simp [eq_comm, show offset ≠ offset + size + 4 by omega]
  · rcases Classical.em (whole ≠ size ∧ offset = low + size + 4) with rest | other
    · rw [if_neg elsewhere, if_pos rest]
      simp [elsewhere, rest.1.symm, rest.2.symm, eq_comm]
    · rw [if_neg elsewhere, if_neg other]
      simp only [elsewhere, false_and, false_or, reduceCtorEq, false_iff, not_and]
      exact fun different border => absurd ⟨different.symm, border⟩ other

section Carve
variable {layout : Layout} {page : Page} {low size origsize : Nat} {block : Block}

theorem carved_tiles (rounded : block.size % 4 = 0) (fits : size ≤ block.size) (origin : align origsize xvAlign = size)
    (aligned : size % 4 = 0) :
    Tiles (fun offset => (carved low size origsize block.size offset).map Block.extent) low (low + block.extent) := by
  have extent := Block.extent_eq rounded
  have first : (fun offset => (carved low size origsize block.size offset).map Block.extent) low = some (size + 4) := by
    simp only [carved, if_true, Option.map_some, Block.extent, xvAlign_eq] at origin ⊢
    rw [origin]
  rcases Nat.eq_or_lt_of_le fits with exact | larger
  · have end_eq : low + block.extent = low + (size + 4) := by omega
    rw [end_eq]
    refine Tiles.single first (by omega) ?_
    intro position lower _
    simp [carved, show position ≠ low by omega, exact]
  · have second : (fun offset => (carved low size origsize block.size offset).map Block.extent) (low + (size + 4)) =
        some (block.size - size) := by
      have rest : (⟨block.size - size - xvAlign, true⟩ : Block).extent = block.size - size := by
        rw [Block.extent_eq (by simp only [xvAlign_eq]; omega)]
        simp only [xvAlign_eq]
        omega
      simp only [carved, xvAlign_eq, show low + (size + 4) ≠ low by omega, if_false] at rest ⊢
      rw [if_pos ⟨by omega, by omega⟩, Option.map_some, rest]
    have end_eq : low + block.extent = low + (size + 4) + (block.size - size) := by omega
    rw [end_eq]
    refine (Tiles.single first (by omega) ?_).append (Tiles.single second (by omega) ?_)
    all_goals
      intro position lower upper
      simp only [carved, xvAlign_eq]
      rw [if_neg (by omega), if_neg (by omega), Option.map_none]

def Layout.carve (layout : Layout) (here : layout.block ⟨page, low⟩ = some block) (free : block.free = true)
    (fits : size ≤ block.size) (origin : align origsize xvAlign = size) (aligned : size % 4 = 0) : Layout :=
  have rounded := layout.rounded here free
  layout.retile (carved low size origsize block.size) here (Nat.lt_add_of_pos_right (by have := block.size_le; omega))
    (layout.ends here)
    ((Nat.eq_or_lt_of_le (layout.ends here)).imp_right (layout.next here))
    (carved_tiles rounded fits origin aligned)
    (by
      intro offset piece found
      have lowAligned : low % 4 = 0 := layout.aligned here
      simp only [carved, xvAlign_eq] at found
      split at found
      · omega
      · split at found
        · omega
        · cases found)
    (by
      intro offset piece found isFree
      simp only [carved, xvAlign_eq] at found
      split at found
      · cases found
        cases isFree
      · split at found
        · cases found
          simp only
          omega
        · cases found)
    (by
      intro location found piece _ _ _ first
      simp only [carved, if_true] at first
      cases first
      rfl)
    (by
      intro offset piece next found isFree follows
      simp only [carved, xvAlign_eq] at found follows
      split at found
      · cases found
        cases isFree
      · split at found
        · have positive := piece.size_le
          rw [if_neg (by omega), if_neg (by omega)] at follows
          cases follows
        · cases found)
    (by
      intro offset piece next found isFree _ follows
      exact layout.coalesced here free follows)

theorem carve_block {here : layout.block ⟨page, low⟩ = some block} {free : block.free = true} {fits : size ≤ block.size}
    {origin : align origsize xvAlign = size} {aligned : size % 4 = 0} (location : Location) :
    (layout.carve here free fits origin aligned).block location =
      if Within page low (low + block.extent) location then carved low size origsize block.size location.offset
      else layout.block location := rfl

/-- In the place of the block there are the object and what is left of the block. -/
theorem carve_within {here : layout.block ⟨page, low⟩ = some block} {free : block.free = true} {fits : size ≤ block.size}
    {origin : align origsize xvAlign = size} {aligned : size % 4 = 0} {location : Location} {found : Block}
    (within : Within page low (low + block.extent) location)
    (there : (layout.carve here free fits origin aligned).block location = some found) :
    location = ⟨page, low⟩ ∧ found = ⟨origsize, false⟩ ∨
      size ≠ block.size ∧ location = ⟨page, low + size + xvAlign⟩ ∧ found = ⟨block.size - size - xvAlign, true⟩ := by
  rw [carve_block, if_pos within, carved_cases] at there
  rcases there with ⟨border, object⟩ | ⟨smaller, border, object⟩
  · exact .inl ⟨Location.ext within.1 border, object⟩
  · exact .inr ⟨smaller, Location.ext within.1 border, object⟩

theorem carve_stop {here : layout.block ⟨page, low⟩ = some block} {free : block.free = true} {fits : size ≤ block.size}
    {origin : align origsize xvAlign = size} {aligned : size % 4 = 0} :
    (layout.carve here free fits origin aligned).block ⟨page, low + block.extent⟩ = layout.block ⟨page, low + block.extent⟩ :=
  (carve_block _).trans (if_neg fun within => Nat.lt_irrefl _ within.2.2)

theorem carve_objects {here : layout.block ⟨page, low⟩ = some block} {free : block.free = true} {fits : size ≤ block.size}
    {origin : align origsize xvAlign = size} {aligned : size % 4 = 0} (location : Location) (recorded : Nat) :
    (layout.carve here free fits origin aligned).block location = some ⟨recorded, false⟩ ↔
      layout.block location = some ⟨recorded, false⟩ ∨ location = ⟨page, low⟩ ∧ recorded = origsize := by
  rw [carve_block]
  split
  next within =>
    have notUsed : layout.block location ≠ some ⟨recorded, false⟩ := by
      intro used
      rw [(within_block here used).mp within, here] at used
      cases used
      cases free
    simp only [notUsed, false_or]
    obtain ⟨samePage, lower, upper⟩ := within
    constructor
    · intro object
      simp only [carved] at object
      split at object
      next border =>
        cases object
        exact ⟨Location.ext samePage border, rfl⟩
      next =>
        split at object
        · cases object
        · cases object
    · rintro ⟨rfl, rfl⟩
      simp [carved]
  next without =>
    have elsewhere : location ≠ ⟨page, low⟩ := by
      rintro rfl
      have positive := block.size_le
      exact without ⟨rfl, Nat.le_refl _, by simp only; omega⟩
    simp [elsewhere]

end Carve

section Grow
variable {layout : Layout} {page : Page} (fresh : page ∉ layout.pages)

theorem addPage_old {location : Location} (elsewhere : location.page ≠ page) :
    (layout.addPage fresh).block location = layout.block location :=
  if_neg fun equal => elsewhere (congrArg Location.page equal)

theorem addPage_start : (layout.addPage fresh).block ⟨page, 0⟩ = some freshBlock := if_pos rfl

theorem addPage_new {location : Location} {found : Block} (here : (layout.addPage fresh).block location = some found)
    (samePage : location.page = page) : location = ⟨page, 0⟩ ∧ found = freshBlock := by
  have equal : location = ⟨page, 0⟩ := by
    apply Classical.byContradiction
    intro different
    rw [show (layout.addPage fresh).block location = layout.block location from if_neg different] at here
    exact fresh (samePage ▸ (layout.inside here).1)
  rw [equal, addPage_start, Option.some.injEq] at here
  exact ⟨equal, here.symm⟩

theorem addPage_objects (location : Location) (recorded : Nat) :
    (layout.addPage fresh).block location = some ⟨recorded, false⟩ ↔ layout.block location = some ⟨recorded, false⟩ := by
  rcases Classical.em (location = ⟨page, 0⟩) with rfl | elsewhere
  · constructor
    · intro object
      rw [addPage_start] at object
      cases object
    · intro object
      exact absurd (layout.inside object).1 fresh
  · rw [show (layout.addPage fresh).block location = layout.block location from if_neg elsewhere]

theorem addPage_writable {other : Page} {address : Nat} (writable : Writable (layout.addPage fresh) other address) :
    other = page ∨ Writable layout other address := by
  obtain ⟨location, found, here, rfl, inside⟩ := writable
  rcases Classical.em (location.page = page) with samePage | elsewhere
  · exact .inl samePage
  · exact .inr ⟨location, found, (addPage_old fresh elsewhere).symm.trans here, rfl, inside⟩

variable [Arch]

theorem grown_hidden {state after : XvState} {lists : Nat → List Location} (valid : Heap state layout lists)
    (owned : after.kernel.owned = insert page state.kernel.owned)
    (total : after.pool = { state.pool with totalPages := state.pool.totalPages + 1 })
    (frame : page ≠ noPage ∧ page < 2 ^ bitsPerLong) (first : (header after.memory ⟨page, 0⟩).prevFree = false)
    (changes : ChangesOnly (fun other _ => other = page) state.memory after.memory) :
    Consistent after (layout.addPage fresh) lists (Within page 0 pageSize) := by
  have kept {location : Location} (elsewhere : location.page ≠ page) : header after.memory location = header state.memory location :=
    header_frame changes fun _ inside samePage => elsewhere samePage
  have visible {location : Location} {found : Block} (here : (layout.addPage fresh).block location = some found)
      (without : ¬ Within page 0 pageSize location) : location.page ≠ page := by
    intro samePage
    rw [(addPage_new fresh here samePage).1] at without
    exact without ⟨rfl, Nat.le_refl _, by simp⟩
  exact {
    free := by
      rw [total]
      refine FreeLists.withTotal (valid.free.congr changes ?_) _
      rintro other address link rfl
      obtain ⟨location, found, here, _, _, samePage, _, _⟩ := valid.link_inside link
      exact fresh (samePage ▸ (layout.inside here).1)
    listed := by
      intro index location
      rw [valid.listed]
      constructor
      · rintro ⟨_, found, here, rest⟩
        have elsewhere : location.page ≠ page := fun samePage => fresh (samePage ▸ (layout.inside here).1)
        exact ⟨fun within => elsewhere within.1, found, (addPage_old fresh elsewhere).trans here, rest⟩
      · rintro ⟨without, found, here, rest⟩
        exact ⟨id, found, (addPage_old fresh (visible here without)).symm.trans here, rest⟩
    size := by
      intro location found here without
      have elsewhere := visible here without
      rw [kept elsewhere]
      exact valid.size ((addPage_old fresh elsewhere).symm.trans here) id
    flag := by
      intro location found here without
      have elsewhere := visible here without
      rw [kept elsewhere]
      exact valid.flag ((addPage_old fresh elsewhere).symm.trans here) id
    first := by
      intro other member
      rcases Finset.mem_insert.mp member with rfl | old
      · exact first
      · rw [kept fun equal => fresh (equal ▸ old)]
        exact valid.first old
    tagged := by
      intro location found next here without follows
      have elsewhere := visible here without
      have following : (successor location found).page ≠ page := elsewhere
      rw [kept following]
      exact valid.tagged ((addPage_old fresh elsewhere).symm.trans here) id ((addPage_old fresh following).symm.trans follows)
    total := by
      rw [total]
      exact (congrArg (· + 1) valid.total).trans (Finset.card_insert_of_notMem fresh).symm
    owned := by
      rw [owned]
      exact Finset.insert_subset_insert _ valid.owned
    frames := by
      intro other member
      rcases Finset.mem_insert.mp member with rfl | old
      · exact frame
      · exact valid.frames old }

end Grow

variable [Arch]

theorem growPool_spec {state after : XvState} {layout : Layout} {lists : Nat → List Location} {allocator : PageAllocator}
    (valid : Heap state layout lists) (grown : growPool state allocator = some after) :
    ∃ (page : Page) (fresh : page ∉ layout.pages) (newLists : Nat → List Location),
      (page ∉ state.kernel.owned ∧ (state.kernel.allocPage allocator).map Prod.fst = some page) ∧
      after.kernel.owned = insert page state.kernel.owned ∧ Heap after (layout.addPage fresh) newLists ∧
      ChangesOnly (fun other address => other = page ∨ Writable layout other address) state.memory after.memory ∧
      newLists = enlist lists ⟨page, 0⟩ freshBlock.size ∧
      ∀ {location found}, layout.block location = some found → header after.memory location = header state.memory location := by
  simp only [growPool, Option.map_eq_some_iff] at grown
  obtain ⟨⟨page, kernel⟩, taken, rfl⟩ := grown
  obtain ⟨unowned, positive, frame, _, owned, kept⟩ := Kernel.allocPage_spec taken
  have fresh : page ∉ layout.pages := fun member => unowned (valid.owned member)
  set block : Location := ⟨page, 0⟩ with blockEq
  set first := setBlockSize kernel.memory block (pageSize - xvAlign)
  set second := setFlag first block .blockFree
  set third := clearFlag second block .prevFree
  set memory := setBlockprev third block 0
  set pool : XvPool := { state.pool with totalPages := state.pool.totalPages + 1 }
  have written : header memory block = ⟨pageSize - xvAlign, 0, true, false⟩ := by
    simp only [memory, third, second, first]
    rw [header_setBlockprev _ _ rfl (by decide), header_clearFlag_prevFree, header_setFlag_free, header_setBlockSize _ _ (by decide)]
  have changes : ChangesOnly (fun other _ => other = page) state.memory memory := by
    have taken : ChangesOnly (fun other _ => other = page) state.memory kernel.memory :=
      fun other address different => congrFun (kept other different) address
    have headers : ChangesOnly (HeaderBytes block) kernel.memory memory :=
      (((setBlockSize_changes _ _ _).trans (setFlag_changes _ _ _)).trans (clearFlag_changes _ _ _)).trans
        (setBlockprev_changes _ _ _)
    exact taken.trans (headers.mono fun _ _ inside => inside.1)
  have hidden : Consistent ⟨{ kernel with memory }, pool⟩ (layout.addPage fresh) lists (Within page 0 pageSize) :=
    grown_hidden fresh valid owned rfl ⟨Nat.ne_of_gt positive, frame⟩ (congrArg Header.prevFree written) changes
  obtain ⟨newLists, order, free, listed, links, linked, headers, samePages, sameOwned⟩ := hidden.relist block (pageSize - xvAlign)
    (addPage_start fresh) (by decide) (Nat.le_refl _) ⟨rfl, Nat.le_refl _, Nat.le_refl _⟩ (congrArg Header.size written) rfl
  have kept := headers (Nat.le_refl 0) (Nat.le_refl 0)
  have inner {location : Location} {found : Block} (within : Within page 0 pageSize location)
      (here : (layout.addPage fresh).block location = some found) : location = block ∧ found = freshBlock :=
    addPage_new fresh here within.1
  refine ⟨page, fresh, newLists, ⟨unowned, by rw [taken]; rfl⟩, sameOwned.trans owned, ?_, ?_, order, ?_⟩
  · apply hidden.close (addPage_start fresh) (by decide) (.inl rfl) rfl (fun _ => rfl) free ?_ ?_ ?_ ?_ ?_ ?_ samePages sameOwned
    · intro index location
      rw [listed]
      constructor
      · rintro (old | ⟨rfl, large, sized⟩)
        · exact .inl old
        · exact .inr ⟨⟨rfl, Nat.le_refl _, by simp [block]⟩, id, freshBlock, addPage_start fresh, rfl, large, sized⟩
      · rintro (old | ⟨within, _, found, here, _, large, sized⟩)
        · exact .inl old
        · obtain ⟨rfl, rfl⟩ := inner within here
          exact .inr ⟨rfl, large, sized⟩
    · refine linked.mono fun other address link => ?_
      rcases links other address link with old | ⟨samePage, after, below⟩
      · exact .inl old
      · exact .inr (.inl ⟨samePage, Nat.zero_le _, below⟩)
    · intro found here
      exact absurd ((layout.addPage fresh).inside here).2 (Nat.lt_irrefl _)
    · rw [kept]
      exact ⟨rfl, rfl⟩
    · intro location found within here
      obtain ⟨rfl, rfl⟩ := inner within here
      rw [kept]
      exact ⟨congrArg Header.size written, congrArg Header.free written⟩
    · intro location found next within here follows
      obtain ⟨rfl, rfl⟩ := inner within here
      exact absurd ((layout.addPage fresh).inside follows).2 (by simp [successor, freshBlock_extent])
  · refine (changes.mono fun _ _ => .inl).trans (linked.mono fun other address link => ?_)
    rcases links other address link with old | ⟨samePage, _⟩
    · exact .inr (valid.link_writable old)
    · exact .inl samePage
  · intro location found here
    have elsewhere : location.page ≠ page := fun samePage => fresh (samePage ▸ (layout.inside here).1)
    refine (header_frame linked fun address inside link => ?_).trans (header_frame changes fun _ inside samePage => elsewhere samePage)
    rcases links _ _ link with old | ⟨samePage, _⟩
    · exact valid.link_not_header here old inside
    · exact elsewhere samePage

section Split
variable {state : XvState} {layout : Layout} {lists : Nat → List Location} {page : Page} {low size : Nat} {block : Block}

/-- What splitting leaves of a hidden free block: the remainder, if any, has its
header, is listed if large enough, and is announced to the block behind. -/
structure Remainder (state after : XvState) (lists newLists : Nat → List Location) (page : Page) (low size : Nat)
    (block : Block) (layout : Layout) : Prop where
  free : FreeLists after.memory after.pool newLists
  order : newLists = if size = block.size then lists else enlist lists ⟨page, low + size + xvAlign⟩ (block.size - size - xvAlign)
  listed : ∀ index other, other ∈ newLists index ↔ other ∈ lists index ∨
    other = ⟨page, low + size + xvAlign⟩ ∧ size ≠ block.size ∧ xvMinAllocSize ≤ block.size - size - xvAlign ∧
      getIndexForInsert (block.size - size - xvAlign) = index
  links : ∀ other address, LinksOf newLists other address → LinksOf lists other address ∨
    other = page ∧ low + 4 ≤ address ∧ address < low + block.extent
  changes : ChangesOnly (Reshaping lists page (low + 4) (low + block.extent)) state.memory after.memory
  remaining : size ≠ block.size →
    header after.memory ⟨page, low + size + xvAlign⟩ = ⟨block.size - size - xvAlign, low, true, false⟩
  following : ∀ {found}, layout.block ⟨page, low + block.extent⟩ = some found →
    header after.memory ⟨page, low + block.extent⟩ =
      if size = block.size then { header state.memory ⟨page, low + block.extent⟩ with prevFree := false }
      else { header state.memory ⟨page, low + block.extent⟩ with prev := low + size + xvAlign }
  total : after.pool.totalPages = state.pool.totalPages
  owned : after.kernel.owned = state.kernel.owned

theorem splitBlock_exact (hidden : Consistent state layout lists (Within page low (low + block.extent)))
    (here : layout.block ⟨page, low⟩ = some block) (free : block.free = true)
    (stored : blockSize state.memory ⟨page, low⟩ = block.size) :
    Remainder state (splitBlock state ⟨page, low⟩ block.size) lists lists page low block.size block layout := by
  have rounded := Block.extent_eq (layout.rounded here free)
  have bounded : low + block.extent ≤ pageSize := layout.ends here
  have nothing : sub32 (blockSize state.memory ⟨page, low⟩) block.size = 0 := by
    rw [stored]
    unfold sub32
    omega
  have border : low + block.size + xvAlign = low + block.extent := by simp only [xvAlign_eq]; omega
  set stop : Location := ⟨page, low + block.extent⟩ with stopEq
  have afterEq : splitBlock state ⟨page, low⟩ block.size =
      if stop.offset ≠ pageSize then state.withMemory (clearFlag state.memory stop .prevFree) else state := by
    simp only [splitBlock, nothing, ne_eq, not_true, if_false, border]
    rfl
  have frame : ChangesOnly (fun other address => stop.offset ≠ pageSize ∧ HeaderBytes stop other address)
      state.memory (splitBlock state ⟨page, low⟩ block.size).memory := by
    rw [afterEq]
    split
    next short => exact (clearFlag_changes _ _ _).mono fun _ _ inside => ⟨short, inside⟩
    next => exact ChangesOnly.refl _ _
  have samePool : (splitBlock state ⟨page, low⟩ block.size).pool = state.pool := by
    rw [afterEq]
    split <;> rfl
  refine ⟨?_, (if_pos rfl).symm, ?_, fun _ _ => .inl, frame.mono fun _ _ => (.inr ∘ .inr), fun different =>
    absurd rfl different, ?_, ?_, ?_⟩
  · rw [samePool]
    refine hidden.free.congr frame ?_
    rintro other address link ⟨short, inside⟩
    obtain ⟨found, follows⟩ := layout.next here (Nat.lt_of_le_of_ne bounded short)
    exact hidden.link_not_header follows link inside
  · simp
  · intro found follows
    rw [if_pos rfl, afterEq, if_pos (Nat.ne_of_lt (layout.inside follows).2)]
    exact header_clearFlag_prevFree _ _
  · rw [samePool]
  · rw [afterEq]
    split <;> rfl

/-- The header of what is left of a block behind an object. -/
def restHeader (memory : Memory Page) (rest : Location) (left prev : Nat) : Memory Page :=
  setBlockprev (clearFlag (setFlag (setBlockSize memory rest left) rest .blockFree) rest .prevFree) rest prev

omit [Arch] in
theorem restHeader_changes (memory : Memory Page) (rest : Location) (left prev : Nat) :
    ChangesOnly (HeaderBytes rest) memory (restHeader memory rest left prev) :=
  (((setBlockSize_changes _ _ _).trans (setFlag_changes _ _ _)).trans (clearFlag_changes _ _ _)).trans (setBlockprev_changes _ _ _)

omit [Arch] in
theorem header_restHeader (memory : Memory Page) (rest : Location) {left prev : Nat} (small : left < 65536) (aligned : prev % 4 = 0)
    (short : prev < 65536) : header (restHeader memory rest left prev) rest = ⟨left, prev, true, false⟩ := by
  rw [restHeader, header_setBlockprev _ _ aligned short, header_clearFlag_prevFree, header_setFlag_free, header_setBlockSize _ _ small]

def leaveRest (state : XvState) (rest : Location) (left prev : Nat) : XvState :=
  let state := state.withMemory (restHeader state.memory rest left prev)
  if left ≥ xvMinAllocSize then insertBlock state rest rest else state

/-- What is left of a hidden block has its header, and is on a list if it is large enough. -/
structure Leftover (state after : XvState) (lists newLists : Nat → List Location) (page : Page) (low size : Nat) (block : Block) :
    Prop where
  free : FreeLists after.memory after.pool newLists
  order : newLists = enlist lists ⟨page, low + size + xvAlign⟩ (block.size - size - xvAlign)
  listed : ∀ index other, other ∈ newLists index ↔ other ∈ lists index ∨ other = ⟨page, low + size + xvAlign⟩ ∧
    xvMinAllocSize ≤ block.size - size - xvAlign ∧ getIndexForInsert (block.size - size - xvAlign) = index
  links : ∀ other address, LinksOf newLists other address → LinksOf lists other address ∨
    other = page ∧ low + 4 ≤ address ∧ address < low + block.extent
  remaining : header after.memory ⟨page, low + size + xvAlign⟩ = ⟨block.size - size - xvAlign, low, true, false⟩
  changes : ChangesOnly (fun other address => LinksOf lists other address ∨ other = page ∧ low + 4 ≤ address ∧ address < low + block.extent)
    state.memory after.memory
  total : after.pool.totalPages = state.pool.totalPages
  owned : after.kernel.owned = state.kernel.owned

theorem leaveRest_spec (hidden : Consistent state layout lists (Within page low (low + block.extent)))
    (here : layout.block ⟨page, low⟩ = some block) (free : block.free = true) (smaller : size < block.size) (aligned : size % 4 = 0) :
    ∃ newLists, Leftover state (leaveRest state ⟨page, low + size + xvAlign⟩ (block.size - size - xvAlign) low) lists newLists page
      low size block := by
  have rounded := layout.rounded here free
  have extent := Block.extent_eq rounded
  have bounded : low + block.extent ≤ pageSize := layout.ends here
  have start : low % 4 = 0 := layout.aligned here
  simp only [pageSize_eq] at bounded
  set rest : Location := ⟨page, low + size + xvAlign⟩ with restEq
  set left := block.size - size - xvAlign with leftEq
  have restOffset : rest.offset = low + size + 4 := rfl
  have leftSize : left + (size + 4) = block.size := by
    simp only [leftEq, xvAlign_eq]
    omega
  have written : header (restHeader state.memory rest left low) rest = ⟨left, low, true, false⟩ :=
    header_restHeader _ _ (by omega) start (by omega)
  have headers := restHeader_changes state.memory rest left low
  have inStretch {other : Page} {address : Nat} (inside : HeaderBytes rest other address) :
      other = page ∧ low + 4 ≤ address ∧ address < low + block.extent := by
    obtain ⟨samePage, lower, upper⟩ := inside
    exact ⟨samePage, by omega, by omega⟩
  have front : header (restHeader state.memory rest left low) ⟨page, low⟩ = header state.memory ⟨page, low⟩ := by
    refine header_frame headers ?_
    rintro address ⟨_, _, (upper : address < low + 4)⟩ inside
    have beyond := (inStretch inside).2.1
    omega
  have scribbled : Consistent (state.withMemory (restHeader state.memory rest left low)) layout lists
      (Within page low (low + block.extent)) := by
    refine hidden.scribble here (by omega) (headers.mono ?_) (by rw [front]; exact ⟨rfl, rfl⟩)
    intro other address inside
    obtain ⟨samePage, lower, upper⟩ := inStretch inside
    exact ⟨samePage, by omega, upper⟩
  obtain ⟨newLists, order, lists', listed, links, linked, kept, samePages, sameOwned⟩ :=
    scribbled.relist rest left here (by omega) (layout.ends here) ⟨rfl, by omega, by omega⟩ (congrArg Header.size written)
      (show leaveRest state rest left low = _ from rfl)
  have linksInside {other : Page} {address : Nat} (link : LinksOf newLists other address) :
      LinksOf lists other address ∨ other = page ∧ low + 4 ≤ address ∧ address < low + block.extent :=
    (links other address link).imp_right fun ⟨samePage, lower, upper⟩ => ⟨samePage, by omega, by omega⟩
  exact ⟨newLists, lists', order, listed, fun _ _ => linksInside, (kept (show low ≤ rest.offset by omega) (Nat.le_refl _)).trans written,
    (headers.mono fun _ _ inside => .inr (inStretch inside)).trans (linked.mono fun _ _ link => linksInside link), samePages, sameOwned⟩

/-- Behind the remainder the next block is told of it. -/
theorem splitBlock_leaves (here : layout.block ⟨page, low⟩ = some block) (free : block.free = true)
    (stored : blockSize state.memory ⟨page, low⟩ = block.size) (smaller : size < block.size) (aligned : size % 4 = 0) {after : XvState}
    (left : leaveRest state ⟨page, low + size + xvAlign⟩ (block.size - size - xvAlign) low = after)
    (remaining : header after.memory ⟨page, low + size + xvAlign⟩ = ⟨block.size - size - xvAlign, low, true, false⟩) :
    splitBlock state ⟨page, low⟩ size = if low + block.extent ≠ pageSize then
      after.withMemory (setBlockprev after.memory ⟨page, low + block.extent⟩ (low + size + xvAlign)) else after := by
  have rounded := layout.rounded here free
  have extent := Block.extent_eq rounded
  have bounded : low + block.extent ≤ pageSize := layout.ends here
  have start : low % 4 = 0 := layout.aligned here
  simp only [pageSize_eq] at bounded
  have tmpsize : sub32 (blockSize state.memory ⟨page, low⟩) size = block.size - size := by
    rw [stored, sub32_eq (Nat.le_of_lt smaller) (by omega)]
  have tmpleft : sub32 (block.size - size) xvAlign = block.size - size - xvAlign := by
    refine sub32_eq ?_ (by omega)
    simp only [xvAlign_eq]
    omega
  have written : blockSize (restHeader state.memory ⟨page, low + size + xvAlign⟩ (block.size - size - xvAlign) low)
    ⟨page, low + size + xvAlign⟩ =
      block.size - size - xvAlign := congrArg Header.size (header_restHeader _ _ (by omega) start (by omega))
  have sized : blockSize after.memory ⟨page, low + size + xvAlign⟩ = block.size - size - xvAlign := congrArg Header.size remaining
  have border : low + size + xvAlign + xvAlign + (block.size - size - xvAlign) = low + block.extent := by
    simp only [xvAlign_eq]
    omega
  have nextEq : blockNext after.memory ⟨page, low + size + xvAlign⟩ = ⟨page, low + block.extent⟩ := by
    rw [blockNext, sized]
    refine Location.ext rfl ?_
    simp only [xvAlign_eq]
    omega
  have unfolded : splitBlock state ⟨page, low⟩ size =
      if low + size + xvAlign + xvAlign + blockSize after.memory ⟨page, low + size + xvAlign⟩ ≠ pageSize then
        after.withMemory (setBlockprev after.memory (blockNext after.memory ⟨page, low + size + xvAlign⟩) (low + size + xvAlign))
      else after := by
    rw [← left, leaveRest]
    rw [restHeader] at written ⊢
    simp only [splitBlock, tmpsize, tmpleft]
    rw [if_pos (by omega), written]
  rw [unfolded, sized, border, nextEq]

theorem splitBlock_rest (hidden : Consistent state layout lists (Within page low (low + block.extent)))
    (here : layout.block ⟨page, low⟩ = some block) (free : block.free = true)
    (stored : blockSize state.memory ⟨page, low⟩ = block.size) (smaller : size < block.size) (aligned : size % 4 = 0) :
    ∃ newLists, Remainder state (splitBlock state ⟨page, low⟩ size) lists newLists page low size block layout := by
  obtain ⟨newLists, leftover⟩ := leaveRest_spec hidden here free smaller aligned
  have afterEq := splitBlock_leaves here free stored smaller aligned rfl leftover.remaining
  generalize leaveRest state ⟨page, low + size + xvAlign⟩ (block.size - size - xvAlign) low = middle at leftover afterEq
  rw [afterEq]
  have rounded := layout.rounded here free
  have extent := Block.extent_eq rounded
  have bounded : low + block.extent ≤ pageSize := layout.ends here
  have start : low % 4 = 0 := layout.aligned here
  simp only [pageSize_eq] at bounded
  set stop : Location := ⟨page, low + block.extent⟩ with stopEq
  have different : size ≠ block.size := Nat.ne_of_lt smaller
  have notStop {found : Block} (follows : layout.block stop = some found) {other : Page} {address : Nat}
      (changed : LinksOf lists other address ∨ other = page ∧ low + 4 ≤ address ∧ address < low + block.extent) :
      ¬ HeaderBytes stop other address := by
    rintro ⟨samePage, (lower : low + block.extent ≤ address), upper⟩
    rcases changed with link | ⟨_, _, before⟩
    · exact hidden.link_not_header follows link ⟨samePage, lower, upper⟩
    · omega
  set after := if low + block.extent ≠ pageSize then middle.withMemory (setBlockprev middle.memory stop (low + size + xvAlign)) else middle
    with afterEq
  have announced : ChangesOnly (fun other address => stop.offset ≠ pageSize ∧ HeaderBytes stop other address) middle.memory
      after.memory := by
    rw [afterEq]
    split
    next short => exact (setBlockprev_changes _ _ _).mono fun _ _ inside => ⟨short, inside⟩
    next => exact ChangesOnly.refl _ _
  have samePool : after.pool = middle.pool := by
    rw [afterEq]
    split <;> rfl
  refine ⟨newLists, ?free, leftover.order.trans (if_neg different).symm, ?listed, leftover.links, ?changes, fun _ => ?remaining, ?following,
    ?total, ?owned⟩
  case free =>
    rw [samePool]
    refine leftover.free.congr announced ?_
    rintro other address link ⟨short, inside⟩
    obtain ⟨found, follows⟩ := layout.next here (Nat.lt_of_le_of_ne (layout.ends here) short)
    exact notStop follows (leftover.links other address link) inside
  case listed =>
    intro index other
    rw [leftover.listed]
    simp only [ne_eq, different, not_false_iff, true_and]
  case changes =>
    exact (leftover.changes.mono fun _ _ changed => changed.imp_right .inl).trans (announced.mono fun _ _ => (.inr ∘ .inr))
  case remaining =>
    refine Eq.trans (header_frame announced ?_) leftover.remaining
    rintro address ⟨_, _, (upper : address < low + size + xvAlign + 4)⟩ ⟨_, _, (lower : low + block.extent ≤ address), _⟩
    simp only [xvAlign_eq] at upper
    omega
  case following =>
    intro found follows
    have short : low + block.extent ≠ pageSize := Nat.ne_of_lt (layout.inside follows).2
    have before : header middle.memory stop = header state.memory stop :=
      header_frame leftover.changes fun _ inside changed => notStop follows changed inside
    rw [if_neg different, afterEq, if_pos short]
    refine Eq.trans (header_setBlockprev _ _ ?_ ?_) ?_
    · simp only [xvAlign_eq]
      omega
    · simp only [xvAlign_eq]
      omega
    · rw [before]
  case total => rw [samePool, leftover.total]
  case owned =>
    rw [afterEq]
    split <;> exact leftover.owned

theorem splitBlock_spec (hidden : Consistent state layout lists (Within page low (low + block.extent)))
    (here : layout.block ⟨page, low⟩ = some block) (free : block.free = true)
    (stored : blockSize state.memory ⟨page, low⟩ = block.size) (fits : size ≤ block.size) (aligned : size % 4 = 0) :
    ∃ newLists, Remainder state (splitBlock state ⟨page, low⟩ size) lists newLists page low size block layout := by
  rcases Nat.eq_or_lt_of_le fits with rfl | smaller
  · exact ⟨lists, splitBlock_exact hidden here free stored⟩
  · exact splitBlock_rest hidden here free stored smaller aligned

end Split

section Take
variable {state : XvState} {layout : Layout} {lists : Nat → List Location} {page : Page} {low size origsize index : Nat} {block : Block}

theorem removeBlockHead_hides (valid : Heap state layout lists) (here : layout.block ⟨page, low⟩ = some block)
    {rest : List Location} (listed : lists index = ⟨page, low⟩ :: rest) :
    Consistent (removeBlockHead state ⟨page, low⟩ index) layout (Function.update lists index rest)
        (Within page low (low + block.extent)) ∧
      ChangesOnly (LinksOf lists) state.memory (removeBlockHead state ⟨page, low⟩ index).memory ∧
      (removeBlockHead state ⟨page, low⟩ index).kernel.owned = state.kernel.owned := by
  obtain ⟨_, found, there, _, _, rfl⟩ := (valid.listed index ⟨page, low⟩).mp (by simp [listed])
  obtain rfl : found = block := by simpa [there] using here
  obtain ⟨removed, changes⟩ := FreeLists.removeHead valid.free listed
  have samePages : (removeBlockHead state ⟨page, low⟩ (getIndexForInsert found.size)).pool.totalPages = state.pool.totalPages := by
    simp only [removeBlockHead]
    split <;> rfl
  have sameOwned : (removeBlockHead state ⟨page, low⟩ (getIndexForInsert found.size)).kernel.owned = state.kernel.owned := by
    simp only [removeBlockHead]
    split <;> rfl
  have erased : (lists (getIndexForInsert found.size)).erase ⟨page, low⟩ = rest := by rw [listed, List.erase_cons_head]
  have unlisted := valid.unlist here (erased.symm ▸ removed) changes samePages sameOwned
  rw [erased] at unlisted
  refine ⟨unlisted.congr_hidden ?_, changes, sameOwned⟩
  intro location other there
  rw [within_block here there, false_or]

/-- The header of an object at the front of the block it is cut from. -/
def withObject (after : XvState) (start : Location) (origsize : Nat) : XvState :=
  after.withMemory (clearFlag (setBlockSize after.memory start origsize) start .blockFree)

theorem withObject_changes (after : XvState) (start : Location) (origsize : Nat) :
    ChangesOnly (HeaderBytes start) after.memory (withObject after start origsize).memory :=
  (setBlockSize_changes _ _ _).trans (clearFlag_changes _ _ _)

theorem withObject_pool (after : XvState) (start : Location) (origsize : Nat) : (withObject after start origsize).pool = after.pool :=
  XvState.withMemory_pool ..

theorem withObject_owned (after : XvState) (start : Location) (origsize : Nat) :
    (withObject after start origsize).kernel.owned = after.kernel.owned := XvState.withMemory_owned ..

theorem withObject_behind (after : XvState) (origsize : Nat) {offset : Nat} (beyond : low + 4 ≤ offset) :
    header (withObject after ⟨page, low⟩ origsize).memory ⟨page, offset⟩ = header after.memory ⟨page, offset⟩ := by
  refine header_frame (withObject_changes _ _ _) ?_
  rintro address ⟨_, (lower : offset ≤ address), _⟩ ⟨_, _, (upper : address < low + 4)⟩
  omega

section Object
variable {after : XvState} {newLists : Nat → List Location} (hidden : Consistent state layout lists (Within page low (low + block.extent)))
  (here : layout.block ⟨page, low⟩ = some block) (split : Remainder state after lists newLists page low size block layout)
include hidden here split

theorem Remainder.object (short : origsize < pageSize) :
    header (withObject after ⟨page, low⟩ origsize).memory ⟨page, low⟩ =
      ⟨origsize, (header state.memory ⟨page, low⟩).prev, false, (header state.memory ⟨page, low⟩).prevFree⟩ := by
  have positive := block.size_le
  have before : header after.memory ⟨page, low⟩ = header state.memory ⟨page, low⟩ := by
    refine header_frame split.changes ?_
    rintro address ⟨_, (lower : low ≤ address), (upper : address < low + 4)⟩ (link | ⟨_, beyond, _⟩ | ⟨_, _, beyond, _⟩)
    · exact hidden.link_not_within here (by omega) link ⟨lower, by omega⟩
    · omega
    · simp only at beyond
      omega
  have small : origsize < 65536 := by
    simp only [pageSize_eq] at short
    omega
  simp only [withObject, XvState.withMemory_memory]
  rw [header_clearFlag_free, header_setBlockSize _ _ small, before]

omit hidden here in
theorem Remainder.reshaped (origsize : Nat) :
    ChangesOnly (Reshaping lists page low (low + block.extent)) state.memory (withObject after ⟨page, low⟩ origsize).memory := by
  have positive := block.size_le
  refine (split.changes.mono ?_).trans ((withObject_changes _ _ _).mono ?_)
  · rintro other address (link | ⟨samePage, lower, upper⟩ | header)
    · exact .inl link
    · exact .inr (.inl ⟨samePage, by omega, upper⟩)
    · exact .inr (.inr header)
  · rintro other address ⟨samePage, (lower : low ≤ address), (upper : address < low + 4)⟩
    exact .inr (.inl ⟨samePage, lower, by omega⟩)

theorem Remainder.lists_kept (origsize : Nat) :
    FreeLists (withObject after ⟨page, low⟩ origsize).memory (withObject after ⟨page, low⟩ origsize).pool newLists := by
  refine split.free.congr (withObject_changes _ _ _) ?_
  rintro other address link inside
  rcases split.links other address link with old | ⟨_, beyond, _⟩
  · exact hidden.link_not_header here old inside
  · have upper : address < low + 4 := inside.2.2
    omega

variable (free : block.free = true) (fits : size ≤ block.size) (origin : align origsize xvAlign = size) (aligned : size % 4 = 0)

omit hidden in
theorem Remainder.listed_carved (index : Nat) (location : Location) :
    location ∈ newLists index ↔ location ∈ lists index ∨
      Within page low (low + block.extent) location ∧ Listable (layout.carve here free fits origin aligned)
        (fun _ => False) index location := by
  have positive := block.size_le
  have rounded := layout.rounded here free
  have extent := Block.extent_eq rounded
  rw [split.listed]
  refine or_congr_right ⟨?_, ?_⟩
  · rintro ⟨rfl, smaller, large, sized⟩
    have left : size + 4 ≤ block.size := by omega
    have within : Within page low (low + block.extent) ⟨page, low + size + xvAlign⟩ := by
      refine ⟨rfl, ?_, ?_⟩ <;> simp only [xvAlign_eq] <;> omega
    refine ⟨within, id, ⟨block.size - size - xvAlign, true⟩, ?_, rfl, large, sized⟩
    rw [carve_block, if_pos within, carved_cases]
    exact .inr ⟨smaller, rfl, rfl⟩
  · rintro ⟨within, _, found, there, isFree, large, sized⟩
    rcases carve_within within there with ⟨_, rfl⟩ | ⟨smaller, rfl, rfl⟩
    · cases isFree
    · exact ⟨rfl, smaller, large, sized⟩

theorem Remainder.carved_headers (short : origsize < pageSize) {location : Location} {found : Block}
    (within : Within page low (low + block.extent) location)
    (there : (layout.carve here free fits origin aligned).block location = some found) :
    (header (withObject after ⟨page, low⟩ origsize).memory location).size = found.size ∧
      (header (withObject after ⟨page, low⟩ origsize).memory location).free = found.free := by
  rcases carve_within within there with ⟨rfl, rfl⟩ | ⟨smaller, rfl, rfl⟩
  · rw [split.object hidden here short]
    exact ⟨rfl, rfl⟩
  · rw [withObject_behind _ _ (by simp only [xvAlign_eq]; omega), split.remaining smaller]
    exact ⟨rfl, rfl⟩

omit hidden in
/-- Behind the object comes the remainder, or the old neighbour on an exact fit; and
behind the remainder comes the old neighbour. -/
theorem Remainder.carved_tags
    (stopTag : ∀ {next}, layout.block ⟨page, low + block.extent⟩ = some next →
      (header state.memory ⟨page, low + block.extent⟩).prevFree = true)
    {location : Location} {found next : Block} (within : Within page low (low + block.extent) location)
    (there : (layout.carve here free fits origin aligned).block location = some found)
    (follows : (layout.carve here free fits origin aligned).block (successor location found) = some next) :
    (header (withObject after ⟨page, low⟩ origsize).memory (successor location found)).prevFree = found.free ∧
      (found.free = true → (header (withObject after ⟨page, low⟩ origsize).memory (successor location found)).prev = location.offset) := by
  have positive := block.size_le
  have rounded := layout.rounded here free
  have extent := Block.extent_eq rounded
  have atStop {next : Block} (follows : layout.block ⟨page, low + block.extent⟩ = some next) :
      header (withObject after ⟨page, low⟩ origsize).memory ⟨page, low + block.extent⟩ =
        if size = block.size then { header state.memory ⟨page, low + block.extent⟩ with prevFree := false }
        else { header state.memory ⟨page, low + block.extent⟩ with prev := low + size + xvAlign } :=
    (withObject_behind _ _ (by omega)).trans (split.following follows)
  rcases carve_within within there with ⟨rfl, rfl⟩ | ⟨smaller, rfl, rfl⟩
  · refine ⟨?_, fun isFree => by cases isFree⟩
    have reach : successor ⟨page, low⟩ ⟨origsize, false⟩ = ⟨page, low + size + xvAlign⟩ := by
      simp only [successor, Block.extent, origin]
      rfl
    rw [reach] at follows ⊢
    rcases Nat.eq_or_lt_of_le fits with exact | smaller
    · have border : (⟨page, low + size + xvAlign⟩ : Location) = ⟨page, low + block.extent⟩ := by
        refine Location.ext rfl ?_
        simp only [xvAlign_eq]
        omega
      rw [border] at follows ⊢
      rw [carve_stop] at follows
      rw [atStop follows, if_pos exact]
    · rw [withObject_behind _ _ (by simp only [xvAlign_eq]; omega), split.remaining (by omega)]
  · have reach : successor ⟨page, low + size + xvAlign⟩ ⟨block.size - size - xvAlign, true⟩ = ⟨page, low + block.extent⟩ := by
      have whole := Block.extent_eq (show (⟨block.size - size - xvAlign, true⟩ : Block).size % 4 = 0 by simp only [xvAlign_eq]; omega)
      refine Location.ext rfl ?_
      show low + size + xvAlign + (⟨block.size - size - xvAlign, true⟩ : Block).extent = low + block.extent
      rw [whole]
      simp only [xvAlign_eq]
      omega
    rw [reach] at follows ⊢
    rw [carve_stop] at follows
    rw [atStop follows, if_neg smaller]
    exact ⟨stopTag follows, fun _ => rfl⟩

theorem Remainder.scratch (origsize : Nat)
    (border : low + block.extent = pageSize ∨ ∃ found, layout.block ⟨page, low + block.extent⟩ = some found) :
    ChangesOnly (Scratch layout page low (low + block.extent)) state.memory (withObject after ⟨page, low⟩ origsize).memory := by
  refine (split.changes.mono fun other address reshaped => ?_).trans ((withObject_changes _ _ _).mono fun other address inside => ?_)
  · rcases hidden.reshaping_scratch border reshaped with ⟨samePage, lower, upper⟩ | writable
    · exact .inl ⟨samePage, by omega, upper⟩
    · exact .inr writable
  · obtain ⟨samePage, lower, upper⟩ := inside
    exact .inr ⟨⟨page, low⟩, block, here, samePage.symm, lower, .inl upper⟩

end Object

/-- The step lemma of allocation from a listed block. -/
theorem carveBlock_spec (valid : Heap state layout lists) (here : layout.block ⟨page, low⟩ = some block)
    (free : block.free = true) {others : List Location} (listed : lists index = ⟨page, low⟩ :: others)
    (fits : size ≤ block.size) (origin : align origsize xvAlign = size) (aligned : size % 4 = 0) :
    ∃ newLists, Heap (carveBlock state index ⟨page, low⟩ size origsize) (layout.carve here free fits origin aligned) newLists ∧
      ChangesOnly (Writable layout) state.memory (carveBlock state index ⟨page, low⟩ size origsize).memory ∧
      (carveBlock state index ⟨page, low⟩ size origsize).kernel.owned = state.kernel.owned ∧
      newLists = (if size = block.size then Function.update lists index others
        else enlist (Function.update lists index others) ⟨page, low + size + xvAlign⟩ (block.size - size - xvAlign)) ∧
      PrevKept layout ⟨page, low + block.extent⟩ state.memory (carveBlock state index ⟨page, low⟩ size origsize).memory := by
  obtain ⟨hidden, unlinked, sameOwned⟩ := removeBlockHead_hides valid here listed
  set opened := removeBlockHead state ⟨page, low⟩ index with openedEq
  have kept {location : Location} {found : Block} (there : layout.block location = some found) :
      header opened.memory location = header state.memory location :=
    header_frame unlinked fun _ inside link => valid.link_not_header there link inside
  have stored : blockSize opened.memory ⟨page, low⟩ = block.size :=
    (congrArg Header.size (kept here)).trans (valid.size here id)
  obtain ⟨newLists, split⟩ := splitBlock_spec hidden here free stored fits aligned
  rw [show carveBlock state index ⟨page, low⟩ size origsize = withObject (splitBlock opened ⟨page, low⟩ size) ⟨page, low⟩ origsize from rfl]
  -- only its specification is used of the split state
  generalize splitBlock opened ⟨page, low⟩ size = after at split
  have positive := block.size_le
  have extent := Block.extent_eq (layout.rounded here free)
  have bounded : low + block.extent ≤ pageSize := layout.ends here
  have border := (Nat.eq_or_lt_of_le bounded).imp_right (layout.next here)
  have short : origsize < pageSize := by
    simp only [align, xvAlign_eq] at origin
    omega
  have object := split.object hidden here short
  have stopTag {next : Block} (follows : layout.block ⟨page, low + block.extent⟩ = some next) :
      (header opened.memory ⟨page, low + block.extent⟩).prevFree = true := by
    rw [kept follows]
    exact (valid.tagged here id follows).1.trans free
  refine ⟨newLists, hidden.close here (by omega) border rfl (fun without => (carve_block _).trans (if_neg without))
    (split.lists_kept hidden here origsize) (split.listed_carved here free fits origin aligned) (split.reshaped origsize) ?following ?front
    (split.carved_headers hidden here free fits origin aligned short)
      (split.carved_tags here free fits origin aligned stopTag) ?total ?owned,
    ?changes, ?sameOwned, split.order, ?prev⟩
  case following =>
    intro next follows
    rw [withObject_behind _ _ (by omega), split.following follows]
    split_ifs <;> exact ⟨rfl, rfl⟩
  case front =>
    rw [object]
    exact ⟨rfl, rfl⟩
  case total => rw [withObject_pool, split.total]
  case owned => rw [withObject_owned, split.owned]
  case sameOwned => rw [withObject_owned, split.owned, sameOwned]
  case changes =>
    refine (unlinked.mono fun _ _ link => valid.link_writable link).trans ((split.scratch hidden here origsize border).mono ?_)
    rintro other address (⟨samePage, lower, upper⟩ | writable)
    · exact ⟨⟨page, low⟩, block, here, samePage.symm, lower, .inr ⟨free, upper⟩⟩
    · exact writable
  case prev =>
    intro location found there elsewhere
    show (header (withObject after ⟨page, low⟩ origsize).memory location).prev = _
    rcases Classical.em (location = ⟨page, low⟩) with rfl | different
    · rw [object, kept here]
    · rw [← kept there]
      refine congrArg Header.prev (header_frame (split.reshaped origsize) fun address inside =>
        hidden.header_not_reshaped here (by omega) border there ?_ elsewhere inside)
      rwa [within_block here there]

end Take

/-- The header of the object handed out at a location. -/
def headerOf (location : Location) : Location := ⟨location.page, location.offset - xvAlign⟩

/-- The pool takes pages from the system, and only pages nobody had. -/
def Grows (state after : XvState) (layout changed : Layout) : Prop :=
  ∃ added : Finset Page, Disjoint added state.kernel.owned ∧ changed.pages = layout.pages ∪ added ∧
    after.kernel.owned = state.kernel.owned ∪ added

theorem addPage_grows {state after : XvState} {layout : Layout} {page : Page} {fresh : page ∉ layout.pages}
    (unowned : page ∉ state.kernel.owned) (owned : after.kernel.owned = insert page state.kernel.owned) :
    Grows state after layout (layout.addPage fresh) := by
  refine ⟨{page}, Finset.disjoint_singleton_left.mpr unowned, ?_, ?_⟩
  · rw [Finset.union_comm]
    rfl
  · rw [owned, Finset.union_comm]
    rfl

/-- A request met: one more object, and nothing written that was in use. -/
structure Served (state : XvState) (layout : Layout) (size : Nat) (result : MallocResult) (changed : Layout)
    (newLists : Nat → List Location) : Prop where
  ret : result.ret = 0
  behind : xvAlign ≤ result.location.offset
  heap : Heap result.state changed newLists
  objects : ∀ location recorded, changed.block location = some ⟨recorded, false⟩ ↔
    layout.block location = some ⟨recorded, false⟩ ∨ location = headerOf result.location ∧ recorded = size
  vacant : ∀ recorded, layout.block (headerOf result.location) ≠ some ⟨recorded, false⟩
  grows : Grows state result.state layout changed
  changes : ChangesOnly (fun page address => page ∉ state.kernel.owned ∨ Writable layout page address)
    state.memory result.state.memory

section Malloc
variable {state : XvState} {layout : Layout} {lists : Nat → List Location} {size index : Nat}

theorem served_found (valid : Heap state layout lists)
    (nearest : Nearest lists (getIndex (align size xvAlign)) index) :
    (state.pool.freelist index).page ≠ noPage ∧ ∃ changed newLists,
      Served state layout size ⟨0, ⟨(state.pool.freelist index).page, (state.pool.freelist index).offset + xvAlign⟩,
        carveBlock state index (state.pool.freelist index) (align size xvAlign) size⟩ changed newLists ∧
      changed.pages = layout.pages := by
  obtain ⟨above, nonempty, _⟩ := nearest
  obtain ⟨head, rest, listed⟩ := List.exists_cons_of_ne_nil nonempty
  have headEq : state.pool.freelist index = head := by rw [valid.free.heads, listed, List.headD_cons]
  have member : head ∈ lists index := by simp [listed]
  obtain ⟨_, block, here, free, large, rfl⟩ := (valid.listed index head).mp member
  rw [headEq]
  have rounded := layout.rounded here free
  have extent := Block.extent_eq rounded
  have bounded := layout.ends here
  have aligned : align size xvAlign % 4 = 0 := by simp only [align, xvAlign_eq]; omega
  have fits : align size xvAlign ≤ block.size := by
    refine listed_size large ?_ above
    simp only [xvMaxAllocSize_eq, pageSize_eq] at *
    omega
  obtain ⟨newLists, heap, changes, owned, _⟩ := carveBlock_spec valid here free listed fits rfl aligned
  refine ⟨(valid.free.real member).1, layout.carve here free fits rfl aligned, newLists,
    ⟨rfl, Nat.le_add_left _ _, heap, ?_, ?_, ?_, ?_⟩, rfl⟩
  · intro location recorded
    rw [carve_objects, headerOf, Nat.add_sub_cancel]
  · intro recorded used
    rw [headerOf, Nat.add_sub_cancel, here] at used
    cases used
    cases free
  · exact ⟨∅, Finset.disjoint_empty_left _, by rw [Finset.union_empty]; rfl, by rw [Finset.union_empty]; exact owned⟩
  · exact changes.mono fun _ _ => .inr

theorem Served.after_growth {grown : XvState} {page : Page} {fresh : page ∉ layout.pages} {result : MallocResult} {changed : Layout}
    {newLists : Nat → List Location} (met : Served grown (layout.addPage fresh) size result changed newLists)
    (unowned : page ∉ state.kernel.owned) (owned : grown.kernel.owned = insert page state.kernel.owned)
    (changes : ChangesOnly (fun other address => other = page ∨ Writable layout other address) state.memory grown.memory) :
    Served state layout size result changed newLists where
  ret := met.ret
  behind := met.behind
  heap := met.heap
  objects location recorded := by rw [met.objects, addPage_objects]
  vacant recorded := by
    rw [Ne, ← addPage_objects fresh]
    exact met.vacant recorded
  grows := by
    obtain ⟨added, disjoint, pages, taken⟩ := met.grows
    rw [owned, Finset.disjoint_insert_right] at disjoint
    refine ⟨insert page added, ?_, ?_, ?_⟩
    · exact Finset.disjoint_insert_left.mpr ⟨unowned, disjoint.2⟩
    · rw [pages]
      exact (Finset.insert_union _ _ _).trans (Finset.union_insert _ _ _).symm
    · rw [taken, owned, Finset.insert_union, Finset.union_insert]
  changes := by
    refine (changes.mono ?_).trans (met.changes.mono ?_)
    · rintro other address (rfl | writable)
      · exact .inl unowned
      · exact .inr writable
    · rintro other address (outside | writable)
      · exact .inl fun member => outside (owned ▸ Finset.mem_insert_of_mem member)
      · rcases addPage_writable fresh writable with rfl | old
        · exact .inl unowned
        · exact .inr old

/-- `xv_malloc` refuses sizes it does not support, meets the request, reports that
neither the lists nor the system can meet it, or, for a request that rounding takes
to a whole page, takes a page and does not find it. -/
inductive MallocOutcome (state : XvState) (layout : Layout) (lists : Nat → List Location) (size : Nat)
    (allocator : PageAllocator) : MallocResult → Prop
  | unsupported (bad : size = 0 ∨ xvMaxAllocSize < size) : MallocOutcome state layout lists size allocator ⟨-enomem, Location.null, state⟩
  | served {result : MallocResult} {changed : Layout} {newLists : Nat → List Location}
      (met : Served state layout size result changed newLists) : MallocOutcome state layout lists size allocator result
  | exhausted (good : size ≠ 0 ∧ size ≤ xvMaxAllocSize) (unlisted : ∀ index, getIndex (align size xvAlign) ≤ index → lists index = [])
      (failed : state.kernel.allocPage allocator = none) :
      MallocOutcome state layout lists size allocator ⟨-enomem, Location.null, state⟩
  | overlooked (large : 4088 < size) {after : XvState} {changed : Layout} {newLists : Nat → List Location}
      (unlisted : ∀ index, getIndex (align size xvAlign) ≤ index → lists index = [])
      (taken : (state.kernel.allocPage allocator).isSome) (heap : Heap after changed newLists)
      (objects : ∀ location recorded, changed.block location = some ⟨recorded, false⟩ ↔ layout.block location = some ⟨recorded, false⟩)
      (grows : Grows state after layout changed)
      (changes : ChangesOnly (fun page address => page ∉ state.kernel.owned ∨ Writable layout page address) state.memory after.memory) :
      MallocOutcome state layout lists size allocator ⟨-enomem, Location.null, after⟩

theorem xvMalloc_outcome (valid : Heap state layout lists) (size : Nat) (allocator : PageAllocator) :
    MallocOutcome state layout lists size allocator (xvMalloc state size allocator) := by
  rcases Classical.em (size = 0 ∨ size > xvMaxAllocSize) with bad | good
  · rw [xvMalloc, if_pos bad]
    exact .unsupported bad
  obtain ⟨positive, small⟩ := not_or.mp good
  have small := Nat.not_lt.mp small
  rcases findBlock_spec valid.free (align size xvAlign) Location.null with ⟨index, nearest, found⟩ | ⟨unlisted, found⟩
  · obtain ⟨present, changed, newLists, met, _⟩ := served_found valid nearest
    rw [xvMalloc, if_neg good]
    simp only [found, if_neg present]
    exact .served met
  · have absent : Location.null.page = noPage := rfl
    cases grown : growPool state allocator with
    | none =>
      rw [xvMalloc, if_neg good]
      simp only [found, if_pos absent, grown]
      exact .exhausted ⟨positive, small⟩ unlisted (Option.map_eq_none_iff.mp grown)
    | some after =>
      obtain ⟨page, fresh, grownLists, ⟨unowned, _⟩, owned, heap, changes, _⟩ := growPool_spec valid grown
      have added : Grows state after layout (layout.addPage fresh) := addPage_grows unowned owned
      rcases findBlock_spec heap.free (align size xvAlign) Location.null with ⟨index, nearest, again⟩ | ⟨still, again⟩
      · obtain ⟨present, changed, newLists, met, _⟩ := served_found heap nearest
        rw [xvMalloc, if_neg good]
        simp only [found, if_pos absent, grown, again, if_neg present]
        exact .served (met.after_growth unowned owned changes)
      · have large : 4088 < size := by
          apply Classical.byContradiction
          intro fitting
          have listed : (⟨page, 0⟩ : Location) ∈ grownLists (getIndexForInsert xvMaxAllocSize) :=
            (heap.listed _ _).mpr ⟨id, freshBlock, addPage_start fresh, rfl, by decide, rfl⟩
          have aligned : align size xvAlign ≤ 4088 := by simp only [align, xvAlign_eq]; omega
          have above : getIndex (align size xvAlign) ≤ getIndexForInsert xvMaxAllocSize :=
            (getIndex_le_top (by simp only [xvMaxAllocSize_eq]; omega)).mpr aligned
          rw [still _ above] at listed
          cases listed
        rw [xvMalloc, if_neg good]
        simp only [found, if_pos absent, grown, again]
        refine .overlooked large unlisted (Option.isSome_map.symm.trans (congrArg Option.isSome grown)) heap (addPage_objects fresh) added
          (changes.mono ?_)
        rintro other address (rfl | writable)
        · exact .inl unowned
        · exact .inr writable

theorem searchAndCarve_spec (valid : Heap state layout lists) (size : Nat) :
    searchAndCarve state size = none ∧ (∀ index, getIndex (align size xvAlign) ≤ index → lists index = []) ∨
      ∃ index result changed newLists, Nearest lists (getIndex (align size xvAlign)) index ∧ searchAndCarve state size = some result ∧
        Served state layout size result changed newLists ∧ changed.pages = layout.pages ∧
        result.location.page = (state.pool.freelist index).page := by
  rcases findBlock_spec valid.free (align size xvAlign) Location.null with ⟨index, nearest, found⟩ | ⟨unlisted, found⟩
  · obtain ⟨present, changed, newLists, met, samePages⟩ := served_found valid nearest
    refine .inr ⟨index, _, changed, newLists, nearest, ?_, met, samePages, rfl⟩
    simp only [searchAndCarve, found, if_neg present]
  · refine .inl ⟨?_, unlisted⟩
    simp only [searchAndCarve, found]
    exact if_pos rfl

theorem xvMalloc_sections (valid : Heap state layout lists) (allocator : PageAllocator) (supported : size ≠ 0 ∧ size ≤ xvMaxAllocSize) :
    xvMalloc state size allocator = match searchAndCarve state size with
      | some result => result
      | none => match growPool state allocator with
        | none => ⟨-enomem, Location.null, state⟩
        | some after => (searchAndCarve after size).getD ⟨-enomem, Location.null, after⟩ := by
  have absent : Location.null.page = noPage := rfl
  rw [xvMalloc, if_neg (by omega)]
  rcases findBlock_spec valid.free (align size xvAlign) Location.null with ⟨index, nearest, found⟩ | ⟨unlisted, found⟩
  · obtain ⟨present, _⟩ := served_found valid nearest
    simp only [searchAndCarve, found, if_neg present]
  · simp only [searchAndCarve, found, if_pos absent]
    cases grown : growPool state allocator with
    | none => rfl
    | some after =>
      obtain ⟨_, _, _, _, _, heap, _⟩ := growPool_spec valid grown
      rcases findBlock_spec heap.free (align size xvAlign) Location.null with ⟨index, nearest, again⟩ | ⟨_, again⟩
      · obtain ⟨present, _⟩ := served_found heap nearest
        simp only [again, if_neg present, Option.getD_some]
      · simp only [again, if_pos absent, Option.getD_none]

/-- A request the lists or the system can meet is met, unless rounding takes it to a whole page. -/
theorem xvMalloc_succeeds (valid : Heap state layout lists) {allocator : PageAllocator} (positive : size ≠ 0) (small : size ≤ 4088)
    (available : (state.kernel.allocPage allocator).isSome ∨ ∃ index, getIndex (align size xvAlign) ≤ index ∧ lists index ≠ []) :
    (xvMalloc state size allocator).ret = 0 := by
  have outcome := xvMalloc_outcome valid size allocator
  generalize xvMalloc state size allocator = result at outcome ⊢
  cases outcome with
  | unsupported bad =>
    simp only [xvMaxAllocSize_eq] at bad
    omega
  | served met => exact met.ret
  | exhausted good unlisted failed =>
    rcases available with offered | ⟨index, above, nonempty⟩
    · simp [failed] at offered
    · exact absurd (unlisted index above) nonempty
  | overlooked large => omega

/-- A request rounded to a whole page is never met, whatever the system has; the
page it took stays in the pool. -/
theorem xvMalloc_overlooks (valid : Heap state layout lists) (allocator : PageAllocator) (large : 4088 < size)
    (small : size ≤ xvMaxAllocSize) : xvMalloc state size allocator =
      ⟨-enomem, Location.null, (growPool state allocator).getD state⟩ := by
  have above : numFreeLists ≤ getIndex (align size xvAlign) := by
    rw [getIndex_eq]
    simp only [xvMaxAllocSize_eq, align, xvAlign_eq, xvMinAllocSize_eq, numFreeLists_eq] at *
    omega
  have none {state : XvState} {lists : Nat → List Location} (free : FreeLists state.memory state.pool lists) (location : Location) :
      findBlock state.pool (align size xvAlign) location = (0, location) := by
    rcases findBlock_spec free (align size xvAlign) location with ⟨index, ⟨lower, nonempty, _⟩, _⟩ | ⟨_, found⟩
    · have bound := free.bounded nonempty
      omega
    · exact found
  have absent : Location.null.page = noPage := rfl
  rw [xvMalloc, if_neg (by simp only [xvMaxAllocSize_eq] at *; omega)]
  simp only [none valid.free, if_pos absent]
  cases grown : growPool state allocator with
  | none => rfl
  | some after =>
    obtain ⟨_, _, _, _, _, heap, _⟩ := growPool_spec valid grown
    simp only [none heap.free, if_pos absent, Option.getD_some]

end Malloc
end Compcache.Xvmalloc
