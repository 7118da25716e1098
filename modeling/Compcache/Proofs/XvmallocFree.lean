import Compcache.Proofs.XvmallocMalloc

/-! Release. The freed block is hidden, grows over its free neighbours, and is
shown again as one free block, or leaves with its page. -/

namespace Compcache.Xvmalloc
open Library.PagedMemory Library.Bitmap Library.Tiling

def merged (low high offset : Nat) : Option Block := if offset = low then some ⟨high - low - xvAlign, true⟩ else none

theorem merged_cases {low high offset : Nat} {found : Block} :
    merged low high offset = some found ↔ offset = low ∧ found = ⟨high - low - xvAlign, true⟩ := by
  rcases Classical.em (offset = low) with rfl | elsewhere
  · simp [merged, eq_comm]
  · simp [merged, elsewhere]

section Layout
variable {layout : Layout} {page : Page} {low high : Nat} {before : Block}

theorem merged_extent (start : low % 4 = 0) (stop : high % 4 = 0) (nonempty : low < high) :
    (⟨high - low - xvAlign, true⟩ : Block).extent = high - low := by
  have rounded : (⟨high - low - xvAlign, true⟩ : Block).size % 4 = 0 := by
    simp only [xvAlign_eq]
    omega
  rw [Block.extent_eq rounded]
  simp only [xvAlign_eq]
  omega

/-- The layout after a release that leaves used blocks in the page. -/
def Layout.merge (layout : Layout) (start : layout.block ⟨page, low⟩ = some before) (nonempty : low < high)
    (bounded : high ≤ pageSize) (stop : high = pageSize ∨ ∃ found, layout.block ⟨page, high⟩ = some found)
    (entry : ∀ {location found}, layout.block location = some found → successor location found = ⟨page, low⟩ → found.free = false)
    (leave : ∀ {found}, layout.block ⟨page, high⟩ = some found → found.free = false) : Layout :=
  have lowAligned : low % 4 = 0 := layout.aligned start
  have highAligned : high % 4 = 0 := by
    rcases stop with rfl | ⟨found, here⟩
    · rfl
    · exact layout.aligned here
  have extent := merged_extent lowAligned highAligned nonempty
  layout.retile (merged low high) start nonempty bounded stop
    (by
      have whole : (fun offset => (merged low high offset).map Block.extent) low = some (high - low) := by
        simp only [merged, if_true, Option.map_some, extent]
      refine .block whole (by omega) ?_ (by rw [Nat.add_sub_cancel' (Nat.le_of_lt nonempty)]; exact .done _)
      intro position lower _
      simp [merged, show position ≠ low by omega])
    (by
      intro offset piece found
      obtain ⟨rfl, _⟩ := merged_cases.mp found
      exact lowAligned)
    (by
      intro offset piece found _
      obtain ⟨rfl, rfl⟩ := merged_cases.mp found
      simp only [xvAlign_eq]
      omega)
    (fun here free border _ => absurd ((entry here border).symm.trans free) (by decide))
    (by
      intro offset piece next found _ follows
      obtain ⟨rfl, rfl⟩ := merged_cases.mp found
      have apart := (merged_cases.mp follows).1
      rw [extent] at apart
      omega)
    (fun _ _ _ here => leave here)

/-- The layout after a page has been given back. -/
def Layout.dropPage (layout : Layout) (page : Page) : Layout where
  pages := layout.pages.erase page
  block location := if location.page = page then none else layout.block location
  inside := by
    intro location found here
    split at here
    next => cases here
    next elsewhere => exact (layout.inside here).imp_left fun member => Finset.mem_erase.mpr ⟨elsewhere, member⟩
  tiles := by
    intro other member
    obtain ⟨elsewhere, member⟩ := Finset.mem_erase.mp member
    refine (layout.tiles member).congr fun offset _ _ => ?_
    simp [elsewhere]
  aligned := by
    intro location found here
    split at here
    next => cases here
    next => exact layout.aligned here
  rounded := by
    intro location found here
    split at here
    next => cases here
    next => exact layout.rounded here
  coalesced := by
    intro location found next here free follows
    split at here
    next => cases here
    next =>
      split at follows
      next => cases follows
      next => exact layout.coalesced here free follows

theorem Layout.free_page {layout : Layout} {page : Page} (member : page ∈ layout.pages)
    (unused : ∀ location recorded, location.page = page → layout.block location ≠ some ⟨recorded, false⟩) :
    ∃ found, layout.block ⟨page, 0⟩ = some found ∧ found.extent = pageSize := by
  have free {location : Location} {found : Block} (here : layout.block location = some found) (samePage : location.page = page) :
      found.free = true := by
    apply Bool.eq_true_of_not_eq_false
    intro used
    exact unused location found.size samePage (used ▸ here)
  obtain ⟨found, here⟩ := layout.first member
  refine ⟨found, here, ?_⟩
  rcases Nat.eq_or_lt_of_le (layout.ends here) with whole | short
  · simpa using whole
  · obtain ⟨next, follows⟩ := layout.next here short
    exact absurd ((layout.coalesced here (free here rfl) follows).symm.trans (free follows rfl)) (by decide)

end Layout

variable [Arch]

/-- A stretch that starts with a block whose header gives the size of the whole. -/
structure Merging (state : XvState) (layout : Layout) (lists : Nat → List Location) (page : Page) (low high : Nat) : Prop where
  hidden : Consistent state layout lists (Within page low high)
  start : ∃ before, layout.block ⟨page, low⟩ = some before
  stop : high = pageSize ∨ ∃ found, layout.block ⟨page, high⟩ = some found
  whole : low + (blockSize state.memory ⟨page, low⟩ + 4) = high
  bounded : high ≤ pageSize

/-- One stretch grows into another over free blocks only, and only they, headers
and links are written. -/
structure Absorbs (state after : XvState) (layout : Layout) (page : Page) (low high wideLow wideHigh : Nat) : Prop where
  wider : wideLow ≤ low ∧ high ≤ wideHigh
  free : ∀ {location found}, layout.block location = some found → Within page wideLow wideHigh location →
    ¬ Within page low high location → found.free = true
  narrow : ∀ {other address}, Scratch layout page wideLow wideHigh other address → Scratch layout page low high other address
  changes : ChangesOnly (Scratch layout page low high) state.memory after.memory
  owned : after.kernel.owned = state.kernel.owned

theorem Absorbs.refl (state : XvState) (layout : Layout) (page : Page) (low high : Nat) :
    Absorbs state state layout page low high low high where
  wider := ⟨Nat.le_refl _, Nat.le_refl _⟩
  free _ within without := absurd within without
  narrow := id
  changes := ChangesOnly.refl _ _
  owned := rfl

/-- Blocks too small for a link are on no list. -/
def unlistBlock (state : XvState) (location : Location) (size : Nat) : XvState :=
  if size ≥ xvMinAllocSize then removeBlock state location location (getIndexForInsert size) else state

section Merge
variable {state : XvState} {layout : Layout} {lists : Nat → List Location} {page : Page} {low high : Nat}

theorem absorb {hidden : Location → Prop} (valid : Consistent state layout lists hidden) {location : Location} {found : Block}
    (here : layout.block location = some found) (free : found.free = true) (visible : ¬ hidden location) :
    Consistent (unlistBlock state location found.size) layout (delist lists location found.size)
    (fun other => hidden other ∨ other = location) ∧
      ChangesOnly (LinksOf lists) state.memory (unlistBlock state location found.size).memory ∧
      (unlistBlock state location found.size).kernel.owned = state.kernel.owned := by
  unfold unlistBlock delist
  rcases Nat.lt_or_ge found.size xvMinAllocSize with small | large
  · rw [if_neg (Nat.not_le.mpr small), if_neg (Nat.not_le.mpr small)]
    refine ⟨valid.hide location ?_, ChangesOnly.refl _ _, rfl⟩
    intro index member
    obtain ⟨_, block, there, _, large, _⟩ := (valid.listed index location).mp member
    obtain rfl : found = block := by simpa [here] using there
    omega
  · rw [if_pos large, if_pos large]
    have member : location ∈ lists (getIndexForInsert found.size) :=
      (valid.listed _ _).mpr ⟨visible, found, here, free, large, rfl⟩
    obtain ⟨removed, changes⟩ := FreeLists.remove valid.free member
    have samePages : (removeBlock state location location (getIndexForInsert found.size)).pool.totalPages = state.pool.totalPages := by
      simp only [removeBlock, removeBlockHead]
      split
      · split <;> rfl
      · rfl
    have sameOwned : (removeBlock state location location (getIndexForInsert found.size)).kernel.owned = state.kernel.owned := by
      simp only [removeBlock, removeBlockHead]
      split
      · split <;> rfl
      · rfl
    exact ⟨valid.unlist here removed changes samePages sameOwned, changes, sameOwned⟩

theorem mergeNext_free (merging : Merging state layout lists page low high) {found : Block}
    (here : layout.block ⟨page, high⟩ = some found) (free : found.free = true) :
    Merging (mergeNext state page low ⟨page, low⟩) layout (delist lists ⟨page, high⟩ found.size) page low (high + found.extent) ∧
      Absorbs state (mergeNext state page low ⟨page, low⟩) layout page low high low (high + found.extent) ∧
      ∀ {location block}, layout.block location = some block →
        (header (mergeNext state page low ⟨page, low⟩).memory location).prev = (header state.memory location).prev := by
  obtain ⟨hidden, ⟨before, start⟩, stop, whole, bounded⟩ := merging
  have nextEq : blockNext state.memory ⟨page, low⟩ = ⟨page, high⟩ := by
    simp only [blockNext, xvAlign_eq, whole]
  have border : low + blockSize state.memory ⟨page, low⟩ + xvAlign = high := by
    simp only [xvAlign_eq]
    omega
  have positive : low < high := by omega
  have short : high ≠ pageSize := Nat.ne_of_lt (layout.inside here).2
  have outside : ¬ Within page low high ⟨page, high⟩ := fun within => Nat.lt_irrefl _ within.2.2
  have isFree : testFlag state.memory ⟨page, high⟩ .blockFree = true := (hidden.flag here outside).trans free
  have tmpsize : blockSize state.memory ⟨page, high⟩ = found.size := hidden.size here outside
  obtain ⟨absorbed, unlinked, sameOwned⟩ := absorb hidden here free outside
  have afterEq : mergeNext state page low ⟨page, low⟩ = (unlistBlock state ⟨page, high⟩ found.size).withMemory
      (setBlockSize (unlistBlock state ⟨page, high⟩ found.size).memory ⟨page, low⟩
        (blockSize (unlistBlock state ⟨page, high⟩ found.size).memory ⟨page, low⟩ +
          (blockSize (unlistBlock state ⟨page, high⟩ found.size).memory ⟨page, high⟩ + xvAlign))) := by
    simp only [mergeNext, nextEq, border, tmpsize, unlistBlock]
    rw [if_pos ⟨short, isFree⟩]
  rw [afterEq]
  generalize unlistBlock state ⟨page, high⟩ found.size = opened at absorbed unlinked sameOwned
  have kept {location : Location} {block : Block} (there : layout.block location = some block) :
      header opened.memory location = header state.memory location :=
    header_frame unlinked fun _ inside link => hidden.link_not_header there link inside
  have lowSize : blockSize opened.memory ⟨page, low⟩ = blockSize state.memory ⟨page, low⟩ := congrArg Header.size (kept start)
  have highSize : blockSize opened.memory ⟨page, high⟩ = found.size := (congrArg Header.size (kept here)).trans tmpsize
  have extent := Block.extent_eq (layout.rounded here free)
  have fits : high + found.extent ≤ pageSize := layout.ends here
  rw [lowSize, highSize]
  have wider : Consistent opened layout (delist lists ⟨page, high⟩ found.size) (Within page low (high + found.extent)) := by
    refine absorbed.congr_hidden fun location block there => ?_
    rw [within_append (Nat.le_of_lt positive) (Nat.le_add_right high found.extent), within_block here there]
  have small : blockSize state.memory ⟨page, low⟩ + (found.size + xvAlign) < 65536 := by
    simp only [pageSize_eq] at fits
    simp only [xvAlign_eq]
    omega
  have resized := header_setBlockSize opened.memory ⟨page, low⟩ small
  have written := setBlockSize_changes opened.memory ⟨page, low⟩ (blockSize state.memory ⟨page, low⟩ + (found.size + xvAlign))
  refine ⟨⟨?_, ⟨before, start⟩, ?_, ?_, fits⟩, ⟨⟨Nat.le_refl _, Nat.le_add_right _ _⟩, ?_, ?_, ?_, sameOwned⟩, ?_⟩
  · refine wider.scribble start (by omega) (written.mono ?_) (by rw [resized]; exact ⟨rfl, rfl⟩)
    rintro other address ⟨samePage, (lower : low ≤ address), (upper : address < low + 4)⟩
    exact ⟨samePage, lower, by omega⟩
  · exact (Nat.eq_or_lt_of_le fits).imp_right (layout.next here)
  · have stored : blockSize (setBlockSize opened.memory ⟨page, low⟩ _) ⟨page, low⟩ = _ := congrArg Header.size resized
    rw [XvState.withMemory_memory, stored]
    simp only [xvAlign_eq]
    omega
  · intro location block there within without
    rw [within_append (Nat.le_of_lt positive) (Nat.le_add_right high found.extent), within_block here there] at within
    obtain rfl := within.resolve_left without
    obtain rfl : found = block := by simpa [here] using there
    exact free
  · refine fun scratch => scratch_narrow scratch fun lower upper beyond => ?_
    exact ⟨_, found, here, rfl, show high ≤ _ by omega, .inr ⟨free, upper⟩⟩
  · rw [XvState.withMemory_memory]
    refine (unlinked.mono fun _ _ link => .inr (hidden.link_writable link)).trans (written.mono ?_)
    rintro other address ⟨samePage, lower, upper⟩
    exact .inr ⟨_, before, start, samePage.symm, lower, .inl upper⟩
  · intro location block there
    rw [XvState.withMemory_memory, ← kept there]
    rcases Classical.em (location = ⟨page, low⟩) with rfl | different
    · rw [resized]
    · refine congrArg Header.prev (header_frame written ?_)
      rintro address ⟨_, lower, upper⟩ ⟨samePage, (least : low ≤ address), (most : address < low + 4)⟩
      have extent := block.size_le
      have room := before.size_le
      rcases layout.separate there start samePage different with
        (ends : location.offset + block.extent ≤ low) | (ends : low + before.extent ≤ location.offset) <;> omega

theorem mergeNext_alone (merging : Merging state layout lists page low high)
    (used : ∀ {found}, layout.block ⟨page, high⟩ = some found → found.free = false) : mergeNext state page low ⟨page, low⟩ = state := by
  have nextEq : blockNext state.memory ⟨page, low⟩ = ⟨page, high⟩ := by
    simp only [blockNext, xvAlign_eq, merging.whole]
  have border : low + blockSize state.memory ⟨page, low⟩ + xvAlign = high := by
    have whole := merging.whole
    simp only [xvAlign_eq]
    omega
  simp only [mergeNext, nextEq, border]
  refine if_neg ?_
  rintro ⟨short, isFree⟩
  obtain ⟨found, here⟩ := merging.stop.resolve_left short
  have outside : ¬ Within page low high ⟨page, high⟩ := fun within => Nat.lt_irrefl _ within.2.2
  exact absurd ((merging.hidden.flag here outside).symm.trans isFree) (Bool.eq_false_iff.mp (used here))

/-- The step lemma of merging forward. -/
theorem mergeNext_spec (merging : Merging state layout lists page low high) :
    ∃ wideHigh newLists, Merging (mergeNext state page low ⟨page, low⟩) layout newLists page low wideHigh ∧
      (∀ {found}, layout.block ⟨page, wideHigh⟩ = some found → found.free = false) ∧
      Absorbs state (mergeNext state page low ⟨page, low⟩) layout page low high low wideHigh := by
  rcases Classical.em (∃ found, layout.block ⟨page, high⟩ = some found ∧ found.free = true) with ⟨found, here, free⟩ | alone
  · obtain ⟨wide, absorbs, _⟩ := mergeNext_free merging here free
    exact ⟨_, _, wide, fun follows => layout.coalesced here free follows, absorbs⟩
  · have used {found : Block} (here : layout.block ⟨page, high⟩ = some found) : found.free = false :=
      Bool.eq_false_of_not_eq_true fun free => alone ⟨found, here, free⟩
    rw [mergeNext_alone merging used]
    exact ⟨high, lists, merging, used, Absorbs.refl _ _ _ _ _⟩

omit [Arch] in
theorem before_stretch {location : Location} {found : Block} (border : successor location found = ⟨page, low⟩) (high : Nat) :
    location.page = page ∧ location.offset + found.extent = low ∧ ¬ Within page low high location := by
  have samePage : location.page = page := congrArg Location.page border
  have ends : location.offset + found.extent = low := congrArg Location.offset border
  have extent := found.size_le
  exact ⟨samePage, ends, fun within => by have := within.2.1; omega⟩

theorem mergePrev_alone (merging : Merging state layout lists page low high)
    (used : ∀ {location found}, layout.block location = some found → successor location found = ⟨page, low⟩ → found.free = false) :
    mergePrev state page low ⟨page, low⟩ = (state, low, ⟨page, low⟩) := by
  obtain ⟨hidden, ⟨block, start⟩, stop, whole, bounded⟩ := merging
  have unflagged : testFlag state.memory ⟨page, low⟩ .prevFree = false := by
    rcases Classical.em (low = 0) with rfl | later
    · exact hidden.first (layout.inside start).1
    · obtain ⟨location, found, here, border⟩ := layout.previous start later
      obtain ⟨flag, _⟩ := hidden.tagged here (before_stretch border high).2.2 (border ▸ start)
      rw [border] at flag
      exact flag.trans (used here border)
  rw [mergePrev, if_neg (by rw [unflagged]; decide)]

/-- The free block before a stretch takes the stretch in. -/
theorem mergePrev_free (merging : Merging state layout lists page low high) {location : Location} {found : Block}
    (here : layout.block location = some found) (border : successor location found = ⟨page, low⟩) (free : found.free = true) :
    (mergePrev state page low ⟨page, low⟩).2 = (location.offset, ⟨page, location.offset⟩) ∧
      Merging (mergePrev state page low ⟨page, low⟩).1 layout (delist lists location found.size) page location.offset high ∧
      Absorbs state (mergePrev state page low ⟨page, low⟩).1 layout page low high location.offset high := by
  obtain ⟨hidden, ⟨block, start⟩, stop, whole, bounded⟩ := merging
  have positive : low < high := by omega
  obtain ⟨samePage, ends, outside⟩ := before_stretch border high
  obtain ⟨flag, offset⟩ := hidden.tagged here outside (border ▸ start)
  rw [border] at flag offset
  have merge : testFlag state.memory ⟨page, low⟩ .prevFree = true := flag.trans free
  obtain rfl : page = location.page := samePage.symm
  set wideLow := location.offset with wideEq
  have tmpblock : getBlockprev state.memory ⟨location.page, low⟩ = wideLow := offset free
  have tmpsize : blockSize state.memory ⟨location.page, wideLow⟩ = found.size := hidden.size here outside
  have extent := Block.extent_eq (layout.rounded here free)
  simp only [pageSize_eq] at bounded
  have newOffset : sub32 (sub32 low found.size) xvAlign = wideLow := by
    have inner : sub32 low found.size = low - found.size := sub32_eq (by omega) (by omega)
    rw [inner, sub32_eq (by simp only [xvAlign_eq]; omega) (by omega)]
    simp only [xvAlign_eq]
    omega
  obtain ⟨absorbed, unlinked, sameOwned⟩ := absorb hidden here free outside
  have afterEq : mergePrev state location.page low ⟨location.page, low⟩ = ((unlistBlock state location found.size).withMemory
      (setBlockSize (unlistBlock state location found.size).memory location
        (blockSize (unlistBlock state location found.size).memory location +
          (blockSize (unlistBlock state location found.size).memory ⟨location.page, low⟩ + xvAlign))), wideLow, location) := by
    simp only [mergePrev, tmpblock, tmpsize, newOffset, unlistBlock]
    rw [if_pos merge]
  rw [afterEq]
  generalize unlistBlock state location found.size = opened at absorbed unlinked sameOwned
  have kept {other : Location} {block : Block} (there : layout.block other = some block) :
      header opened.memory other = header state.memory other :=
    header_frame unlinked fun _ inside link => hidden.link_not_header there link inside
  have lowSize : blockSize opened.memory ⟨location.page, low⟩ = blockSize state.memory ⟨location.page, low⟩ :=
    congrArg Header.size (kept start)
  have foundSize : blockSize opened.memory location = found.size := (congrArg Header.size (kept here)).trans tmpsize
  rw [lowSize, foundSize]
  have wider : Consistent opened layout (delist lists location found.size) (Within location.page wideLow high) := by
    refine absorbed.congr_hidden fun other block there => ?_
    rw [within_append (show wideLow ≤ low by omega) (Nat.le_of_lt positive), or_comm, ← ends, within_block here there]
  have small : found.size + (blockSize state.memory ⟨location.page, low⟩ + xvAlign) < 65536 := by
    simp only [xvAlign_eq]
    omega
  have resized := header_setBlockSize opened.memory location small
  have written := setBlockSize_changes opened.memory location (found.size + (blockSize state.memory ⟨location.page, low⟩ + xvAlign))
  refine ⟨rfl, ⟨?hidden, ⟨found, here⟩, stop, ?whole, by simpa using bounded⟩,
    ⟨⟨by omega, Nat.le_refl _⟩, ?free, ?narrow, ?changes, sameOwned⟩⟩
  case hidden =>
    refine wider.scribble here (by omega) (written.mono ?_) (by rw [resized]; exact ⟨rfl, rfl⟩)
    rintro other address ⟨samePage, lower, upper⟩
    exact ⟨samePage, lower, by omega⟩
  case whole =>
    have stored : blockSize (setBlockSize opened.memory location _) location = _ := congrArg Header.size resized
    rw [XvState.withMemory_memory, stored]
    simp only [xvAlign_eq]
    omega
  case free =>
    intro other previous there within without
    rw [within_append (show wideLow ≤ low by omega) (Nat.le_of_lt positive), or_comm, ← ends, within_block here there] at within
    obtain rfl := within.resolve_left (ends ▸ without)
    obtain rfl : found = previous := by simpa [here] using there
    exact free
  case narrow =>
    refine fun scratch => scratch_narrow scratch fun lower upper beyond => ?_
    exact ⟨_, found, here, rfl, lower, .inr ⟨free, by omega⟩⟩
  case changes =>
    rw [XvState.withMemory_memory]
    refine (unlinked.mono fun _ _ link => .inr (hidden.link_writable link)).trans (written.mono ?_)
    rintro other address ⟨samePage, lower, upper⟩
    exact .inr ⟨_, found, here, samePage.symm, lower, .inl upper⟩

/-- The step lemma of merging backward. The merged block and its offset come back. -/
theorem mergePrev_spec (merging : Merging state layout lists page low high) :
    ∃ wideLow newLists, (mergePrev state page low ⟨page, low⟩).2 = (wideLow, ⟨page, wideLow⟩) ∧
      Merging (mergePrev state page low ⟨page, low⟩).1 layout newLists page wideLow high ∧
      (∀ {location found}, layout.block location = some found → successor location found = ⟨page, wideLow⟩ → found.free = false) ∧
      Absorbs state (mergePrev state page low ⟨page, low⟩).1 layout page low high wideLow high := by
  rcases Classical.em (∃ location found, layout.block location = some found ∧ successor location found = ⟨page, low⟩ ∧
      found.free = true) with
    ⟨location, found, here, border, free⟩ | alone
  · obtain ⟨returned, wide, absorbs⟩ := mergePrev_free merging here border free
    refine ⟨_, _, returned, wide, fun {other previous} there reaches => Bool.eq_false_of_not_eq_true fun isFree => ?_, absorbs⟩
    have samePage : location.page = page := congrArg Location.page border
    have follows : layout.block (successor other previous) = some found := by
      rw [reaches, ← samePage]
      exact here
    exact absurd ((layout.coalesced there isFree follows).symm.trans free) (by decide)
  · have used {location : Location} {found : Block} (here : layout.block location = some found)
        (border : successor location found = ⟨page, low⟩) : found.free = false :=
      Bool.eq_false_of_not_eq_true fun free => alone ⟨location, found, here, border, free⟩
    rw [mergePrev_alone merging used]
    exact ⟨low, lists, rfl, merging, used, Absorbs.refl _ _ _ _ _⟩

end Merge

section Release
variable {state : XvState} {layout : Layout} {lists : Nat → List Location} {page : Page} {low high : Nat}

theorem releaseBlock_page (merging : Merging state layout lists page 0 pageSize) :
    releaseBlock state page 0 ⟨page, 0⟩ =
        some ⟨state.kernel.without page, { state.pool with totalPages := state.pool.totalPages - 1 }⟩ ∧
      Heap ⟨state.kernel.without page, { state.pool with totalPages := state.pool.totalPages - 1 }⟩ (layout.dropPage page) lists := by
  obtain ⟨hidden, ⟨before, start⟩, _, whole, _⟩ := merging
  have full : blockSize state.memory ⟨page, 0⟩ = pageSize - xvAlign := by
    simp only [pageSize_eq, xvAlign_eq] at *
    omega
  constructor
  · rw [releaseBlock, if_pos full, Kernel.freePage_owned (hidden.owned (layout.inside start).1), Option.map_some]
  · have visible {location : Location} {found : Block} (here : (layout.dropPage page).block location = some found) :
        layout.block location = some found ∧ ¬ Within page 0 pageSize location := by
      have elsewhere : location.page ≠ page := by
        intro samePage
        rw [show (layout.dropPage page).block location = none from if_pos samePage] at here
        cases here
      rw [show (layout.dropPage page).block location = layout.block location from if_neg elsewhere] at here
      exact ⟨here, fun within => elsewhere within.1⟩
    exact {
      free := hidden.free.withTotal _
      listed := by
        intro index location
        rw [hidden.listed]
        constructor
        · rintro ⟨without, found, here, rest⟩
          have elsewhere : location.page ≠ page := fun samePage =>
            without ⟨samePage, Nat.zero_le _, (layout.inside here).2⟩
          exact ⟨id, found, (if_neg elsewhere).trans here, rest⟩
        · rintro ⟨_, found, here, rest⟩
          obtain ⟨there, without⟩ := visible here
          exact ⟨without, found, there, rest⟩
      size := fun here _ => hidden.size (visible here).1 (visible here).2
      flag := fun here _ => hidden.flag (visible here).1 (visible here).2
      first := fun member => hidden.first (Finset.mem_of_mem_erase member)
      tagged := fun here _ follows => hidden.tagged (visible here).1 (visible here).2 (visible follows).1
      total := by
        have count := hidden.total
        exact (congrArg (· - 1) count).trans (Finset.card_erase_of_mem (layout.inside start).1).symm
      owned := Finset.erase_subset_erase _ hidden.owned
      frames := fun member => hidden.frames (Finset.mem_of_mem_erase member) }

/-- The merged block of a stretch, marked free and listed. -/
structure Enlisted (state after : XvState) (lists : Nat → List Location) (page : Page) (low high : Nat) : Prop where
  free : FreeLists after.memory after.pool (enlist lists ⟨page, low⟩ (high - low - xvAlign))
  member : ∀ index location, location ∈ enlist lists ⟨page, low⟩ (high - low - xvAlign) index ↔
    location ∈ lists index ∨ location = ⟨page, low⟩ ∧ xvMinAllocSize ≤ high - low - xvAlign ∧
      getIndexForInsert (high - low - xvAlign) = index
  links : ∀ {other address}, LinksOf (enlist lists ⟨page, low⟩ (high - low - xvAlign)) other address →
    LinksOf lists other address ∨ other = page ∧ low ≤ address ∧ address < high
  front : header after.memory ⟨page, low⟩ = { header state.memory ⟨page, low⟩ with free := true }
  changes : ChangesOnly (fun other address => LinksOf lists other address ∨ other = page ∧ low ≤ address ∧ address < high)
    state.memory after.memory
  total : after.pool.totalPages = state.pool.totalPages
  owned : after.kernel.owned = state.kernel.owned

theorem listBlock_spec (merging : Merging state layout lists page low high) {before : Block}
    (start : layout.block ⟨page, low⟩ = some before) :
    Enlisted state (listBlock state page low ⟨page, low⟩) lists page low high := by
  obtain ⟨hidden, _, stop, whole, bounded⟩ := merging
  have nonempty : low < high := by omega
  set block : Location := ⟨page, low⟩ with blockEq
  set size := blockSize state.memory block with sizeEq
  have sizeLeft : high - low - xvAlign = size := by
    simp only [xvAlign_eq]
    omega
  set memory := setFlag state.memory block .blockFree with memoryEq
  have written : header memory block = { header state.memory block with free := true } := header_setFlag_free _ _
  have flagged : ChangesOnly (fun other address => other = page ∧ low ≤ address ∧ address < high) state.memory memory := by
    refine (setFlag_changes _ _ _).mono ?_
    rintro other address ⟨samePage, lower, (upper : address < low + 4)⟩
    exact ⟨samePage, lower, by omega⟩
  have scribbled : Consistent (state.withMemory memory) layout lists (Within page low high) := by
    refine hidden.scribble start nonempty flagged ?_
    show (header memory block).prevFree = _ ∧ (header memory block).prev = _
    rw [written]
    exact ⟨rfl, rfl⟩
  have sized : blockSize memory block = size := congrArg Header.size written
  have listing : listBlock state page low block =
      if size ≥ xvMinAllocSize then insertBlock (state.withMemory memory) block block else state.withMemory memory := by
    rw [listBlock, ← memoryEq]
    simp only [XvState.withMemory_memory, sized, ← blockEq]
  obtain ⟨newLists, rfl, free, member, links, linked, kept, total, owned⟩ :=
    scribbled.relist block size start nonempty bounded ⟨rfl, Nat.le_refl _, show low + 4 + size ≤ high by omega⟩ sized listing
  have within {other : Page} {address : Nat} (link : LinksOf (enlist lists block size) other address) :
      LinksOf lists other address ∨ other = page ∧ low ≤ address ∧ address < high := by
    refine (links other address link).imp_right ?_
    rintro ⟨samePage, lower, upper⟩
    exact ⟨samePage, Nat.le_trans (Nat.le_add_right low 4) lower, Nat.lt_of_lt_of_le upper (show low + 4 + size ≤ high by omega)⟩
  rw [← sizeLeft] at free member within
  exact {
    free, member
    links := within
    front := (kept (Nat.le_refl _) (Nat.le_refl _)).trans written
    changes := (flagged.mono fun _ _ => .inr).trans (linked.mono fun _ _ link => within (sizeLeft ▸ link))
    total, owned }

/-- A merged block as it is left, and the block behind told of it. -/
structure Announced (state after : XvState) (layout : Layout) (lists : Nat → List Location) (page : Page) (low high : Nat) : Prop where
  free : FreeLists after.memory after.pool lists
  front : header after.memory ⟨page, low⟩ = header state.memory ⟨page, low⟩
  following : ∀ {found}, layout.block ⟨page, high⟩ = some found →
    header after.memory ⟨page, high⟩ = { header state.memory ⟨page, high⟩ with prev := low, prevFree := true }
  changes : ChangesOnly (fun other address => high ≠ pageSize ∧ HeaderBytes ⟨page, high⟩ other address) state.memory after.memory
  pool : after.pool = state.pool
  owned : after.kernel.owned = state.kernel.owned

theorem announceBlock_spec (free : FreeLists state.memory state.pool lists) (whole : low + (blockSize state.memory ⟨page, low⟩ + 4) = high)
    (aligned : low % 4 = 0) (bounded : high ≤ pageSize) (stop : high = pageSize ∨ ∃ found, layout.block ⟨page, high⟩ = some found)
    (apart : ∀ {found}, layout.block ⟨page, high⟩ = some found → ∀ {other address}, LinksOf lists other address →
      ¬ HeaderBytes ⟨page, high⟩ other address) :
    Announced state (announceBlock state low ⟨page, low⟩) layout lists page low high := by
  simp only [pageSize_eq] at bounded
  have nextEq : blockNext state.memory ⟨page, low⟩ = ⟨page, high⟩ := Location.ext rfl whole
  have border : low + blockSize state.memory ⟨page, low⟩ + xvAlign = high := by
    simp only [xvAlign_eq]
    omega
  rw [announceBlock, border, nextEq]
  split
  next short =>
    have changes : ChangesOnly (HeaderBytes ⟨page, high⟩) state.memory (setBlockprev (setFlag state.memory ⟨page, high⟩ .prevFree)
        ⟨page, high⟩ low) :=
      (setFlag_changes _ _ _).trans (setBlockprev_changes _ _ _)
    obtain ⟨found, here⟩ := stop.resolve_left short
    exact {
      free := free.congr changes fun _ _ link => apart here link
      front := header_frame changes (by
        rintro address ⟨_, _, (upper : address < low + 4)⟩ ⟨_, (lower : high ≤ address), _⟩
        omega)
      following := fun _ => by
        rw [XvState.withMemory_memory, header_setBlockprev _ _ aligned (by omega), header_setFlag_prevFree]
      changes := changes.mono fun _ _ inside => ⟨short, inside⟩
      pool := XvState.withMemory_pool _ _
      owned := XvState.withMemory_owned _ _ }
  next last =>
    have last := Classical.not_not.mp last
    exact ⟨free, rfl, fun here => absurd last (Nat.ne_of_lt (layout.inside here).2), ChangesOnly.refl _ _, rfl, rfl⟩

theorem releaseBlock_merge (merging : Merging state layout lists page low high) (used : ¬ (low = 0 ∧ high = pageSize))
    {before : Block} (start : layout.block ⟨page, low⟩ = some before) (nonempty : low < high)
    (entry : ∀ {location found}, layout.block location = some found → successor location found = ⟨page, low⟩ → found.free = false)
    (leave : ∀ {found}, layout.block ⟨page, high⟩ = some found → found.free = false) :
    ∃ after, releaseBlock state page low ⟨page, low⟩ = some after ∧
      Heap after (layout.merge start nonempty merging.bounded merging.stop entry leave) (enlist lists ⟨page, low⟩ (high - low - xvAlign)) ∧
      ChangesOnly (Scratch layout page low high) state.memory after.memory ∧ after.kernel.owned = state.kernel.owned ∧
      ∀ {location found}, layout.block location = some found → (Within page low high location → location = ⟨page, low⟩) →
        location ≠ ⟨page, high⟩ → (header after.memory location).prev = (header state.memory location).prev := by
  have mergedBlock (location : Location) : (layout.merge start nonempty merging.bounded merging.stop entry leave).block location =
      if Within page low high location then merged low high location.offset else layout.block location := rfl
  have samePages : (layout.merge start nonempty merging.bounded merging.stop entry leave).pages = layout.pages := rfl
  generalize layout.merge start nonempty merging.bounded merging.stop entry leave = changed at mergedBlock samePages
  have listed := listBlock_spec merging start
  obtain ⟨hidden, _, stop, whole, bounded⟩ := merging
  have lowAligned : low % 4 = 0 := layout.aligned start
  have highAligned : high % 4 = 0 := by
    rcases stop with rfl | ⟨found, here⟩
    · rfl
    · exact layout.aligned here
  have extent := merged_extent lowAligned highAligned nonempty
  have sized : blockSize (listBlock state page low ⟨page, low⟩).memory ⟨page, low⟩ = blockSize state.memory ⟨page, low⟩ :=
    congrArg Header.size listed.front
  have behind {found : Block} (here : layout.block ⟨page, high⟩ = some found) {other : Page} {address : Nat}
      (link : LinksOf lists other address ∨ other = page ∧ low ≤ address ∧ address < high) : ¬ HeaderBytes ⟨page, high⟩ other address := by
    rintro ⟨samePage, (lower : high ≤ address), upper⟩
    rcases link with old | ⟨_, _, below⟩
    · exact hidden.link_not_header here old ⟨samePage, lower, upper⟩
    · omega
  have announced := announceBlock_spec listed.free (by rw [sized]; exact whole) lowAligned bounded stop fun here _ _ link =>
    behind here (listed.links link)
  have afterEq : releaseBlock state page low ⟨page, low⟩ = some (announceBlock (listBlock state page low ⟨page, low⟩) low ⟨page, low⟩) := by
    refine if_neg ?_
    simp only [pageSize_eq, xvAlign_eq] at *
    omega
  generalize announceBlock (listBlock state page low ⟨page, low⟩) low ⟨page, low⟩ = after at afterEq announced
  generalize listBlock state page low ⟨page, low⟩ = middle at listed announced
  have front : header after.memory ⟨page, low⟩ = { header state.memory ⟨page, low⟩ with free := true } := announced.front.trans listed.front
  have following {found : Block} (here : layout.block ⟨page, high⟩ = some found) :
      header after.memory ⟨page, high⟩ = { header state.memory ⟨page, high⟩ with prev := low, prevFree := true } := by
    rw [announced.following here, header_frame listed.changes fun _ inside link => behind here link inside]
  have changes : ChangesOnly (Reshaping lists page low high) state.memory after.memory :=
    (listed.changes.mono fun _ _ => Or.imp_right .inl).trans (announced.changes.mono fun _ _ => (.inr ∘ .inr))
  have pieces {location : Location} {found : Block} (within : Within page low high location)
      (here : changed.block location = some found) : location = ⟨page, low⟩ ∧ found = ⟨high - low - xvAlign, true⟩ := by
    rw [mergedBlock, if_pos within, merged_cases] at here
    exact ⟨Location.ext within.1 here.1, here.2⟩
  have sizeLeft : blockSize state.memory ⟨page, low⟩ = high - low - xvAlign := by
    simp only [xvAlign_eq]
    omega
  refine ⟨after, afterEq, ?_, changes.mono fun _ _ => hidden.reshaping_scratch stop, announced.owned.trans listed.owned, ?_⟩
  · refine hidden.close start nonempty stop samePages (fun without => (mergedBlock _).trans (if_neg without)) announced.free ?_ changes
      (fun here => by rw [following here]; exact ⟨rfl, rfl⟩) (by rw [front]; exact ⟨rfl, rfl⟩) ?_ ?_
      ((congrArg XvPool.totalPages announced.pool).trans listed.total) (announced.owned.trans listed.owned)
    · intro index location
      rw [listed.member]
      refine or_congr_right ⟨?_, ?_⟩
      · rintro ⟨rfl, large, sizedFor⟩
        have within : Within page low high ⟨page, low⟩ := ⟨rfl, Nat.le_refl _, nonempty⟩
        refine ⟨within, id, ⟨high - low - xvAlign, true⟩, ?_, rfl, large, sizedFor⟩
        rw [mergedBlock, if_pos within, merged_cases]
        exact ⟨rfl, rfl⟩
      · rintro ⟨within, _, found, here, _, large, sizedFor⟩
        obtain ⟨rfl, rfl⟩ := pieces within here
        exact ⟨rfl, large, sizedFor⟩
    · intro location found within here
      obtain ⟨rfl, rfl⟩ := pieces within here
      rw [front]
      exact ⟨sizeLeft, rfl⟩
    · intro location found next within here follows
      obtain ⟨rfl, rfl⟩ := pieces within here
      have reach : successor ⟨page, low⟩ ⟨high - low - xvAlign, true⟩ = ⟨page, high⟩ := by
        refine Location.ext rfl ?_
        show low + (⟨high - low - xvAlign, true⟩ : Block).extent = high
        rw [extent]
        omega
      rw [reach] at follows ⊢
      rw [mergedBlock, if_neg fun within => Nat.lt_irrefl _ within.2.2] at follows
      rw [following follows]
      exact ⟨rfl, fun _ => rfl⟩
  · intro location found here inner elsewhere
    rcases Classical.em (Within page low high location) with within | without
    · rw [inner within, front]
    · exact congrArg Header.prev (header_frame changes fun address inside =>
        hidden.header_not_reshaped start nonempty stop here without elsewhere inside)

end Release

def Shrinks (state after : XvState) (layout changed : Layout) : Prop :=
  ∃ given ⊆ layout.pages, changed.pages = layout.pages \ given ∧ after.kernel.owned = state.kernel.owned \ given

/-- An object released: one object less, and nothing written that is in use by another. -/
structure Released (state after : XvState) (layout : Layout) (object : Location) (block : Block) (changed : Layout)
    (newLists : Nat → List Location) : Prop where
  heap : Heap after changed newLists
  objects : ∀ location recorded, changed.block location = some ⟨recorded, false⟩ ↔
    layout.block location = some ⟨recorded, false⟩ ∧ location ≠ object
  shrinks : Shrinks state after layout changed
  inUse : object.page ∈ changed.pages → ∃ location recorded, location.page = object.page ∧
    changed.block location = some ⟨recorded, false⟩
  changes : ChangesOnly (Scratch layout object.page object.offset (object.offset + block.extent)) state.memory after.memory

theorem xvFree_eq {state : XvState} {page : Page} {offset low : Nat} (start : sub32 offset xvAlign = low)
    (used : testFlag state.memory ⟨page, low⟩ .blockFree = false) :
    xvFree state page offset =
      let rounded := state.withMemory (setBlockSize state.memory ⟨page, low⟩ (align (blockSize state.memory ⟨page, low⟩) xvAlign))
      let merged := mergePrev (mergeNext rounded page low ⟨page, low⟩) page low ⟨page, low⟩
      releaseBlock merged.1 page merged.2.1 merged.2.2 := by
  subst start
  exact if_neg (by rw [used]; decide)

theorem roundBlock_spec {state : XvState} {layout : Layout} {lists : Nat → List Location} {page : Page} {low size : Nat}
    (valid : Heap state layout lists) (here : layout.block ⟨page, low⟩ = some ⟨size, false⟩) :
    Merging (state.withMemory (setBlockSize state.memory ⟨page, low⟩ (align size xvAlign))) layout lists page low
        (low + (⟨size, false⟩ : Block).extent) ∧
      ∀ {location found}, layout.block location = some found →
        (header (setBlockSize state.memory ⟨page, low⟩ (align size xvAlign)) location).prev = (header state.memory location).prev := by
  have bounded : low + (⟨size, false⟩ : Block).extent ≤ pageSize := layout.ends here
  have positive := (⟨size, false⟩ : Block).size_le
  have written := setBlockSize_changes state.memory ⟨page, low⟩ (align size xvAlign)
  have resized : header (setBlockSize state.memory ⟨page, low⟩ (align size xvAlign)) ⟨page, low⟩ =
      { header state.memory ⟨page, low⟩ with size := align size xvAlign } := by
    refine header_setBlockSize _ _ ?_
    have whole : align size xvAlign + xvAlign ≤ pageSize := Nat.le_trans (Nat.le_add_left _ low) bounded
    simp only [pageSize_eq] at whole
    omega
  have unlisted (index : Nat) : (⟨page, low⟩ : Location) ∉ lists index := by
    intro member
    obtain ⟨_, found, there, free, _⟩ := (valid.listed index _).mp member
    rw [here, Option.some.injEq] at there
    subst found
    cases free
  have hidden : Consistent state layout lists (Within page low (low + (⟨size, false⟩ : Block).extent)) :=
    (valid.hide ⟨page, low⟩ unlisted).congr_hidden fun _ _ there => by rw [within_block here there, false_or]
  refine ⟨⟨hidden.scribble here (by omega) (written.mono ?_) ?_, ⟨_, here⟩,
    (Nat.eq_or_lt_of_le bounded).imp_right (layout.next here), ?_, bounded⟩, ?_⟩
  · rintro other address ⟨samePage, (lower : low ≤ address), (upper : address < low + 4)⟩
    exact ⟨samePage, lower, by omega⟩
  · rw [resized]
    exact ⟨rfl, rfl⟩
  · have sized : blockSize (setBlockSize state.memory ⟨page, low⟩ (align size xvAlign)) ⟨page, low⟩ = align size xvAlign :=
      congrArg Header.size resized
    rw [XvState.withMemory_memory, sized]
    rfl
  · intro location found there
    rcases Classical.em (location = ⟨page, low⟩) with rfl | different
    · rw [resized]
    · refine congrArg Header.prev (header_frame written ?_)
      rintro address ⟨_, lower, upper⟩ ⟨samePage, (least : low ≤ address), (most : address < low + 4)⟩
      have extent := found.size_le
      rcases layout.separate there here samePage different with
        (ends : location.offset + found.extent ≤ low) | (ends : low + (⟨size, false⟩ : Block).extent ≤ location.offset) <;> omega

theorem xvFree_live {state both : XvState} {layout : Layout} {lists : Nat → List Location} {page : Page} {low size wideLow : Nat}
    (valid : Heap state layout lists) (here : layout.block ⟨page, low⟩ = some ⟨size, false⟩)
    (merged : mergePrev (mergeNext (state.withMemory (setBlockSize state.memory ⟨page, low⟩ (align size xvAlign))) page low
      ⟨page, low⟩) page low
      ⟨page, low⟩ = (both, wideLow, ⟨page, wideLow⟩)) :
    xvFree state page (low + xvAlign) = releaseBlock both page wideLow ⟨page, wideLow⟩ := by
  have bounded : low + (⟨size, false⟩ : Block).extent ≤ pageSize := layout.ends here
  have positive := (⟨size, false⟩ : Block).size_le
  have offset : sub32 (low + xvAlign) xvAlign = low := by
    simp only [pageSize_eq] at bounded
    rw [sub32_eq (by omega) (by simp only [xvAlign_eq]; omega), Nat.add_sub_cancel]
  have flag : testFlag state.memory ⟨page, low⟩ .blockFree = false := valid.flag here id
  have stored : blockSize state.memory ⟨page, low⟩ = size := valid.size here id
  rw [xvFree_eq offset flag, stored]
  simp only [merged]

/-- The freed object is the only one in the stretch that it and its free neighbours make. -/
theorem within_freed {before forward both : XvState} {layout : Layout} {location : Location} {page : Page}
    {low size recorded wideLow wideHigh : Nat} (here : layout.block ⟨page, low⟩ = some ⟨size, false⟩)
    (absorbsNext : Absorbs before forward layout page low (low + (⟨size, false⟩ : Block).extent) low wideHigh)
    (absorbsPrev : Absorbs forward both layout page low wideHigh wideLow wideHigh)
    (used : layout.block location = some ⟨recorded, false⟩) : Within page wideLow wideHigh location ↔ location = ⟨page, low⟩ := by
  have positive := (⟨size, false⟩ : Block).size_le
  constructor
  · intro within
    apply Classical.byContradiction
    intro different
    rw [← within_block here used] at different
    rcases Classical.em (Within page low wideHigh location) with forwardOnly | backward
    · exact Bool.false_ne_true (absorbsNext.free used forwardOnly different)
    · exact Bool.false_ne_true (absorbsPrev.free used within backward)
  · rintro rfl
    refine ⟨rfl, absorbsPrev.wider.1, Nat.lt_of_lt_of_le (show low < low + (⟨size, false⟩ : Block).extent by omega) absorbsNext.wider.2⟩

omit [Arch] in
/-- A page with a merged block that does not fill it still has an object. -/
theorem Layout.merge_inUse {layout : Layout} {page : Page} {low high : Nat} {before : Block}
    (start : layout.block ⟨page, low⟩ = some before)
    (nonempty : low < high) (bounded : high ≤ pageSize) (stop : high = pageSize ∨ ∃ found, layout.block ⟨page, high⟩ = some found)
    (entry : ∀ {location found}, layout.block location = some found → successor location found = ⟨page, low⟩ → found.free = false)
    (leave : ∀ {found}, layout.block ⟨page, high⟩ = some found → found.free = false) (partly : ¬ (low = 0 ∧ high = pageSize))
    (member : page ∈ (layout.merge start nonempty bounded stop entry leave).pages) :
    ∃ location recorded, location.page = page ∧
      (layout.merge start nonempty bounded stop entry leave).block location = some ⟨recorded, false⟩ := by
  apply Classical.byContradiction
  intro unused
  obtain ⟨found, atStart, whole⟩ := Layout.free_page member fun location recorded samePage object =>
    unused ⟨location, recorded, samePage, object⟩
  have mergedHere : (layout.merge start nonempty bounded stop entry leave).block ⟨page, low⟩ = some ⟨high - low - xvAlign, true⟩ := by
    show (if Within page low high ⟨page, low⟩ then merged low high low else _) = _
    rw [if_pos ⟨rfl, Nat.le_refl _, nonempty⟩, merged, if_pos rfl]
  -- one block takes the whole page, so it is the merged one
  rcases Classical.em ((⟨page, 0⟩ : Location) = ⟨page, low⟩) with same | apart
  · obtain rfl : 0 = low := congrArg Location.offset same
    rw [mergedHere, Option.some.injEq] at atStart
    have aligned : high % 4 = 0 := by
      rcases stop with rfl | ⟨next, follows⟩
      · rfl
      · exact layout.aligned follows
    rw [← atStart, merged_extent rfl aligned nonempty] at whole
    exact partly ⟨rfl, by omega⟩
  · have extent := (⟨high - low - xvAlign, true⟩ : Block).size_le
    rcases Layout.separate atStart mergedHere rfl apart with
      (ends : 0 + found.extent ≤ low) | (ends : low + (⟨high - low - xvAlign, true⟩ : Block).extent ≤ 0) <;> omega

/-- The step lemma of release. In particular no live object trips the BUG_ON. -/
theorem xvFree_spec {state : XvState} {layout : Layout} {lists : Nat → List Location} {object : Location} {size : Nat}
    (valid : Heap state layout lists) (here : layout.block object = some ⟨size, false⟩) :
    ∃ after changed newLists, xvFree state object.page (object.offset + xvAlign) = some after ∧
      Released state after layout object ⟨size, false⟩ changed newLists := by
  obtain ⟨page, low⟩ := object
  have bounded : low + (⟨size, false⟩ : Block).extent ≤ pageSize := layout.ends here
  have positive := (⟨size, false⟩ : Block).size_le
  set high := low + (⟨size, false⟩ : Block).extent with highEq
  set rounded := state.withMemory (setBlockSize state.memory ⟨page, low⟩ (align size xvAlign)) with roundedEq
  have written : ChangesOnly (HeaderBytes ⟨page, low⟩) state.memory rounded.memory := setBlockSize_changes _ _ _
  have start : Merging rounded layout lists page low high := (roundBlock_spec valid here).1
  obtain ⟨wideHigh, nextLists, next, leave, absorbsNext⟩ := mergeNext_spec start
  obtain ⟨wideLow, prevLists, blockEq, wide, entry, absorbsPrev⟩ := mergePrev_spec next
  have afterEq : xvFree state page (low + xvAlign) = releaseBlock
      (mergePrev (mergeNext rounded page low ⟨page, low⟩) page low ⟨page, low⟩).1 page wideLow ⟨page, wideLow⟩ := by
    exact xvFree_live valid here (Prod.ext rfl blockEq)
  rw [show (⟨page, low⟩ : Location).page = page from rfl, show (⟨page, low⟩ : Location).offset = low from rfl, afterEq]
  generalize (mergePrev (mergeNext rounded page low ⟨page, low⟩) page low ⟨page, low⟩).1 = both at wide absorbsPrev
  generalize mergeNext rounded page low ⟨page, low⟩ = forward at absorbsNext absorbsPrev
  have narrow {other : Page} {address : Nat} (scratch : Scratch layout page wideLow wideHigh other address) :
      Scratch layout page low high other address := absorbsNext.narrow (absorbsPrev.narrow scratch)
  have changes : ChangesOnly (Scratch layout page low high) state.memory both.memory := by
    refine (written.mono ?_).trans (absorbsNext.changes.trans (absorbsPrev.changes.mono fun _ _ => absorbsNext.narrow))
    rintro other address ⟨samePage, lower, upper⟩
    exact .inr ⟨_, _, here, samePage.symm, lower, .inl upper⟩
  have owned : both.kernel.owned = state.kernel.owned :=
    absorbsPrev.owned.trans (absorbsNext.owned.trans (XvState.withMemory_owned _ _))
  have objects {location : Location} {recorded : Nat} (used : layout.block location = some ⟨recorded, false⟩) :
      Within page wideLow wideHigh location ↔ location = ⟨page, low⟩ := within_freed here absorbsNext absorbsPrev used
  rcases Classical.em (wideLow = 0 ∧ wideHigh = pageSize) with ⟨rfl, rfl⟩ | partly
  · obtain ⟨release, heap⟩ := releaseBlock_page wide
    refine ⟨_, _, _, release, heap, ?_, ?_, fun member => absurd member (Finset.notMem_erase _ _), changes⟩
    · intro location recorded
      show (if location.page = page then none else layout.block location) = _ ↔ _
      constructor
      · intro used
        split at used
        next => cases used
        next elsewhere => exact ⟨used, fun equal => elsewhere (congrArg Location.page equal)⟩
      · rintro ⟨used, different⟩
        rw [if_neg, used]
        intro samePage
        exact different ((objects used).mp ⟨samePage, Nat.zero_le _, (layout.inside used).2⟩)
    · refine ⟨{page}, Finset.singleton_subset_iff.mpr (layout.inside here).1, (Finset.sdiff_singleton_eq_erase _ _).symm, ?_⟩
      rw [Finset.sdiff_singleton_eq_erase, ← owned]
      rfl
  · obtain ⟨before, first⟩ := wide.start
    have nonempty : wideLow < wideHigh := by have := wide.whole; omega
    obtain ⟨after, release, heap, released, sameOwned, _⟩ := releaseBlock_merge wide partly first nonempty entry leave
    refine ⟨after, _, _, release, heap, ?_, ?_, ?_, changes.trans (released.mono fun _ _ => narrow)⟩
    · intro location recorded
      show (if Within page wideLow wideHigh location then merged wideLow wideHigh location.offset else layout.block location) = _ ↔ _
      constructor
      · intro used
        split at used
        next => cases (merged_cases.mp used).2
        next without => exact ⟨used, fun equal => without ((objects used).mpr equal)⟩
      · rintro ⟨used, different⟩
        rw [if_neg, used]
        exact fun within => different ((objects used).mp within)
    · exact ⟨∅, Finset.empty_subset _, (Finset.sdiff_empty).symm, by rw [Finset.sdiff_empty, sameOwned, owned]⟩
    · exact Layout.merge_inUse first nonempty wide.bounded wide.stop entry leave partly

end Compcache.Xvmalloc
