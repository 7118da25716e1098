import Mathlib.Data.Finset.Card
import Compcache.Library.Tiling
import Compcache.Proofs.XvmallocSearch

/-! What a pool is for: pages cut into blocks, used or free. A state is
consistent with a layout when headers, free lists and bitmaps say the same.
While an operation rearranges a stretch of a page, its blocks are hidden. -/

namespace Compcache.Xvmalloc
open Library.PagedMemory Library.Bitmap Library.Tiling

structure Block where
  size : Nat
  free : Bool
  deriving DecidableEq

def Block.extent (block : Block) : Nat := align block.size xvAlign + xvAlign

theorem Block.size_le (block : Block) : block.size + 4 ≤ block.extent := by
  simp only [extent, align, xvAlign_eq]
  omega

theorem Block.extent_eq {block : Block} (rounded : block.size % 4 = 0) : block.extent = block.size + 4 := by
  simp only [extent, align, xvAlign_eq]
  omega

def successor (location : Location) (block : Block) : Location := ⟨location.page, location.offset + block.extent⟩

/-- The pages of a pool, each tiled exactly by its blocks. Free neighbours are
always merged. -/
structure Layout where
  pages : Finset Page
  block : Location → Option Block
  inside : ∀ {location found}, block location = some found → location.page ∈ pages ∧ location.offset < pageSize
  tiles : ∀ {page}, page ∈ pages → Tiles (fun offset => (block ⟨page, offset⟩).map Block.extent) 0 pageSize
  aligned : ∀ {location found}, block location = some found → location.offset % 4 = 0
  rounded : ∀ {location found}, block location = some found → found.free = true → found.size % 4 = 0
  coalesced : ∀ {location found next}, block location = some found → found.free = true →
    block (successor location found) = some next → next.free = false

namespace Layout
variable {layout : Layout} {location other : Location} {found adjacent : Block} {page : Page}

theorem extents (here : layout.block location = some found) :
    (fun offset => (layout.block ⟨location.page, offset⟩).map Block.extent) location.offset = some found.extent := by
  simp only [show (⟨location.page, location.offset⟩ : Location) = location from rfl, here, Option.map_some]

theorem ends (here : layout.block location = some found) : location.offset + found.extent ≤ pageSize :=
  have ⟨member, bound⟩ := layout.inside here
  ((layout.tiles member).inside (Nat.zero_le _) bound (extents here)).2

theorem separate (here : layout.block location = some found) (there : layout.block other = some adjacent)
    (samePage : location.page = other.page) (different : location ≠ other) :
    location.offset + found.extent ≤ other.offset ∨ other.offset + adjacent.extent ≤ location.offset := by
  have ⟨member, bound⟩ := layout.inside here
  have ⟨_, otherBound⟩ := layout.inside there
  have lookup : (fun offset => (layout.block ⟨location.page, offset⟩).map Block.extent) other.offset = some adjacent.extent := by
    rw [samePage]
    exact extents there
  rcases Nat.lt_trichotomy location.offset other.offset with before | equal | after
  · rcases Nat.lt_or_ge other.offset (location.offset + found.extent) with overlap | beyond
    · have absent := (layout.tiles member).apart (Nat.zero_le _) bound (extents here) before overlap
      simp [lookup] at absent
    · exact .inl beyond
  · exact False.elim (different (Location.ext samePage equal))
  · rcases Nat.lt_or_ge location.offset (other.offset + adjacent.extent) with overlap | beyond
    · have absent := (layout.tiles member).apart (Nat.zero_le _) otherBound lookup after overlap
      simp [extents here] at absent
    · exact .inr beyond

theorem first (member : page ∈ layout.pages) : ∃ found, layout.block ⟨page, 0⟩ = some found := by
  have present := (layout.tiles member).first_isSome (by decide)
  simpa [Option.isSome_iff_exists] using present

theorem next (here : layout.block location = some found) (short : location.offset + found.extent < pageSize) :
    ∃ next, layout.block (successor location found) = some next := by
  have ⟨member, bound⟩ := layout.inside here
  have present := (layout.tiles member).next (Nat.zero_le _) bound (extents here) short
  simpa [successor, Option.isSome_iff_exists] using present

theorem previous (here : layout.block location = some found) (later : location.offset ≠ 0) :
    ∃ before previous, layout.block before = some previous ∧ successor before previous = location := by
  have ⟨member, bound⟩ := layout.inside here
  obtain ⟨offset, size, _, present, ends⟩ := (layout.tiles member).previous (Nat.pos_of_ne_zero later) bound
    (by simp only [extents here, Option.isSome_some])
  obtain ⟨previous, found, rfl⟩ := Option.map_eq_some_iff.mp present
  exact ⟨⟨location.page, offset⟩, previous, found, Location.ext rfl ends⟩

end Layout

/-- The blocks that start in a stretch of a page. -/
def Within (page : Page) (low high : Nat) (location : Location) : Prop :=
  location.page = page ∧ low ≤ location.offset ∧ location.offset < high

theorem outside_stretch {layout : Layout} {location : Location} {found before : Block} {page : Page} {low high : Nat}
    (start : layout.block ⟨page, low⟩ = some before) (nonempty : low < high)
    (here : layout.block location = some found) (outside : ¬ Within page low high location) (samePage : location.page = page) :
    location.offset + found.extent ≤ low ∨ high ≤ location.offset := by
  have different : location ≠ ⟨page, low⟩ := by
    rintro rfl
    exact outside ⟨rfl, Nat.le_refl _, nonempty⟩
  rcases layout.separate here start samePage different with ends | (starts : low + before.extent ≤ location.offset)
  · exact .inl ends
  · right
    have positive := before.size_le
    apply Classical.byContradiction
    intro below
    exact outside ⟨samePage, by omega, by omega⟩

theorem successor_border {layout : Layout} {location : Location} {found before : Block} {page : Page} {low high : Nat}
    (start : layout.block ⟨page, low⟩ = some before) (nonempty : low < high)
    (here : layout.block location = some found) (outside : ¬ Within page low high location)
    (enters : Within page low high (successor location found)) : successor location found = ⟨page, low⟩ := by
  obtain ⟨samePage, lower, upper⟩ := enters
  refine Location.ext samePage ?_
  rcases outside_stretch start nonempty here outside samePage with ends | starts
  · exact Nat.le_antisymm ends lower
  · have past : high ≤ (successor location found).offset := Nat.le_trans starts (Nat.le_add_right _ _)
    exact absurd upper (Nat.not_lt.mpr past)

theorem within_block {layout : Layout} {location : Location} {found before : Block} {page : Page} {low : Nat}
    (start : layout.block ⟨page, low⟩ = some before) (here : layout.block location = some found) :
    Within page low (low + before.extent) location ↔ location = ⟨page, low⟩ := by
  constructor
  · rintro ⟨samePage, lower, upper⟩
    apply Classical.byContradiction
    intro different
    have positive := found.size_le
    rcases layout.separate start here samePage.symm (Ne.symm different) with
      (ends : low + before.extent ≤ location.offset) | (ends : location.offset + found.extent ≤ low) <;> omega
  · rintro rfl
    have positive := before.size_le
    exact ⟨rfl, Nat.le_refl _, by simp only; omega⟩

theorem within_append {location : Location} {page : Page} {low middle high : Nat} (lower : low ≤ middle) (upper : middle ≤ high) :
    Within page low high location ↔ Within page low middle location ∨ Within page middle high location := by
  simp only [Within]
  constructor
  · rintro ⟨samePage, after, before⟩
    rcases Nat.lt_or_ge location.offset middle with left | right
    · exact .inl ⟨samePage, after, left⟩
    · exact .inr ⟨samePage, right, before⟩
  · rintro (⟨samePage, after, before⟩ | ⟨samePage, after, before⟩)
    · exact ⟨samePage, after, by omega⟩
    · exact ⟨samePage, by omega, before⟩

instance {page : Page} {low high : Nat} : DecidablePred (Within page low high) :=
  fun _ => inferInstanceAs (Decidable (_ ∧ _ ∧ _))

def Layout.retile (layout : Layout) {page : Page} {low high : Nat} {before : Block} (pieces : Nat → Option Block)
    (start : layout.block ⟨page, low⟩ = some before) (nonempty : low < high) (bounded : high ≤ pageSize)
    (stop : high = pageSize ∨ ∃ found, layout.block ⟨page, high⟩ = some found)
    (tiling : Tiles (fun offset => (pieces offset).map Block.extent) low high)
    (aligned : ∀ {offset piece}, pieces offset = some piece → offset % 4 = 0)
    (rounded : ∀ {offset piece}, pieces offset = some piece → piece.free = true → piece.size % 4 = 0)
    (entry : ∀ {location found piece}, layout.block location = some found → found.free = true →
      successor location found = ⟨page, low⟩ → pieces low = some piece → piece.free = false)
    (inner : ∀ {offset piece next}, pieces offset = some piece → piece.free = true →
      pieces (offset + piece.extent) = some next → next.free = false)
    (leave : ∀ {offset piece next}, pieces offset = some piece → piece.free = true → offset + piece.extent = high →
      layout.block ⟨page, high⟩ = some next → next.free = false) : Layout where
  pages := layout.pages
  block location := if Within page low high location then pieces location.offset else layout.block location
  inside := by
    intro location found here
    split at here
    next within =>
      obtain ⟨samePage, _, upper⟩ := within
      exact ⟨samePage ▸ (layout.inside start).1, Nat.lt_of_lt_of_le upper bounded⟩
    next => exact layout.inside here
  tiles := by
    intro other member
    rcases Classical.em (other = page) with rfl | elsewhere
    · refine (layout.tiles member).replace (Nat.zero_le _) bounded (.inr (by simp [start])) ?_
        (tiling.congr ?_) ?_
      · exact stop.imp_right fun ⟨found, present⟩ => by simp [present]
      · intro offset lower upper
        simp only [Within, lower, upper, and_self, if_true]
      · intro offset outside
        simp only [Within, true_and, show ¬ (low ≤ offset ∧ offset < high) by omega, if_false]
    · refine (layout.tiles member).congr fun offset _ _ => ?_
      simp only [Within, elsewhere, false_and, if_false]
  aligned := by
    intro location found here
    split at here
    next => exact aligned here
    next => exact layout.aligned here
  rounded := by
    intro location found here
    split at here
    next => exact rounded here
    next => exact layout.rounded here
  coalesced := by
    intro location found next here free follows
    split at here
    next within =>
      split at follows
      next => exact inner here free follows
      next beyond =>
        obtain ⟨rfl, lower, upper⟩ := within
        have positive := found.size_le
        have ends : 0 < found.extent ∧ location.offset + found.extent ≤ high :=
          tiling.inside lower upper (by simp only [here, Option.map_some])
        have border : location.offset + found.extent = high := by
          apply Classical.byContradiction
          intro short
          exact beyond ⟨rfl, by simp only [successor]; omega, by simp only [successor]; omega⟩
        refine leave here free border ?_
        rw [← border]
        exact follows
    next without =>
      split at follows
      next enters =>
        have border := successor_border start nonempty here without enters
        rw [border] at follows
        exact entry here free border follows
      next => exact layout.coalesced here free follows

/-- What the allocator may write at any time: headers and free blocks. -/
def Writable (layout : Layout) (page : Page) (address : Nat) : Prop :=
  ∃ location found, layout.block location = some found ∧ location.page = page ∧ location.offset ≤ address ∧
    (address < location.offset + 4 ∨ found.free = true ∧ address < location.offset + found.extent)

/-- What an operation may write while it rearranges a stretch of a page. -/
def Scratch (layout : Layout) (page : Page) (low high : Nat) (other : Page) (address : Nat) : Prop :=
  other = page ∧ low ≤ address ∧ address < high ∨ Writable layout other address

theorem payload_not_writable {layout : Layout} {location : Location} {found : Block} {address : Nat}
    (here : layout.block location = some found) (used : found.free = false)
    (lower : location.offset + 4 ≤ address) (upper : address < location.offset + found.extent) :
    ¬ Writable layout location.page address := by
  rintro ⟨other, block, there, samePage, after, below⟩
  rcases Classical.em (location = other) with rfl | different
  · obtain rfl : found = block := by simpa [here] using there
    simp only [used, Bool.false_eq_true, false_and, or_false] at below
    omega
  · have positive := block.size_le
    rcases layout.separate here there samePage.symm different with ends | ends <;> omega

theorem payload_not_scratch {layout : Layout} {location : Location} {found before : Block} {page : Page} {low high address : Nat}
    (start : layout.block ⟨page, low⟩ = some before) (nonempty : low < high)
    (here : layout.block location = some found) (used : found.free = false) (outside : ¬ Within page low high location)
    (lower : location.offset + 4 ≤ address) (upper : address < location.offset + found.extent) :
    ¬ Scratch layout page low high location.page address := by
  rintro (⟨samePage, after, below⟩ | writable)
  · rcases outside_stretch start nonempty here outside samePage with ends | starts <;> omega
  · exact payload_not_writable here used lower upper writable

theorem scratch_narrow {layout : Layout} {page other : Page} {low high wideLow wideHigh address : Nat}
    (scratch : Scratch layout page wideLow wideHigh other address)
    (free : ∀ {position}, wideLow ≤ position → position < wideHigh → position < low ∨ high ≤ position → Writable layout page position) :
    Scratch layout page low high other address := by
  rcases scratch with ⟨rfl, lower, upper⟩ | elsewhere
  · rcases Classical.em (low ≤ address ∧ address < high) with within | beyond
    · exact .inl ⟨rfl, within⟩
    · exact .inr (free lower upper (by omega))
  · exact .inr elsewhere

/-- A list holds a block when the block is visible, free, large enough for a
link, and of the size the list is for. -/
def Listable (layout : Layout) (hidden : Location → Prop) (index : Nat) (location : Location) : Prop :=
  ¬ hidden location ∧ ∃ found, layout.block location = some found ∧ found.free = true ∧
    xvMinAllocSize ≤ found.size ∧ getIndexForInsert found.size = index

variable [Arch]

/-- Memory and pool agree with the layout, except for what is hidden. -/
structure Consistent (state : XvState) (layout : Layout) (lists : Nat → List Location) (hidden : Location → Prop) : Prop where
  free : FreeLists state.memory state.pool lists
  listed : ∀ index location, location ∈ lists index ↔ Listable layout hidden index location
  size : ∀ {location found}, layout.block location = some found → ¬ hidden location →
    (header state.memory location).size = found.size
  flag : ∀ {location found}, layout.block location = some found → ¬ hidden location →
    (header state.memory location).free = found.free
  first : ∀ {page}, page ∈ layout.pages → (header state.memory ⟨page, 0⟩).prevFree = false
  tagged : ∀ {location found next}, layout.block location = some found → ¬ hidden location →
    layout.block (successor location found) = some next →
    (header state.memory (successor location found)).prevFree = found.free ∧
      (found.free = true → (header state.memory (successor location found)).prev = location.offset)
  total : state.pool.totalPages = layout.pages.card
  owned : layout.pages ⊆ state.kernel.owned
  frames : ∀ {page}, page ∈ layout.pages → page ≠ noPage ∧ page < 2 ^ bitsPerLong

def Heap (state : XvState) (layout : Layout) (lists : Nat → List Location) : Prop :=
  Consistent state layout lists fun _ => False

/-- The lists with a free block at the head of the one for its size, if it can hold a link. -/
def enlist (lists : Nat → List Location) (location : Location) (size : Nat) : Nat → List Location :=
  if xvMinAllocSize ≤ size then Function.update lists (getIndexForInsert size) (location :: lists (getIndexForInsert size)) else lists

def delist (lists : Nat → List Location) (location : Location) (size : Nat) : Nat → List Location :=
  if xvMinAllocSize ≤ size then Function.update lists (getIndexForInsert size) ((lists (getIndexForInsert size)).erase location) else lists

omit [Arch] in
theorem delist_enlist (lists : Nat → List Location) (location : Location) (size : Nat) :
    delist (enlist lists location size) location size = lists := by
  unfold delist enlist
  split
  · rw [Function.update_self, List.erase_cons_head, Function.update_idem, Function.update_eq_self]
  · rfl

/-- Every block but one keeps what its header says about the block before. -/
def PrevKept (layout : Layout) (except : Location) (before after : Memory Page) : Prop :=
  ∀ location found, layout.block location = some found → location ≠ except → (header after location).prev = (header before location).prev

/-- What changes while a stretch is cut anew: links, the stretch itself, and the
header behind it. -/
def Reshaping (lists : Nat → List Location) (page : Page) (low high : Nat) (other : Page) (address : Nat) : Prop :=
  LinksOf lists other address ∨ (other = page ∧ low ≤ address ∧ address < high) ∨
    high ≠ pageSize ∧ HeaderBytes ⟨page, high⟩ other address

namespace Consistent
variable {state after : XvState} {layout : Layout} {lists : Nat → List Location} {hidden : Location → Prop}
  {location other : Location} {found : Block} {index : Nat} {page : Page} {low high address : Nat}

theorem congr_hidden {shown : Location → Prop} (valid : Consistent state layout lists hidden)
    (same : ∀ location found, layout.block location = some found → (shown location ↔ hidden location)) :
    Consistent state layout lists shown where
  free := valid.free
  listed := by
    intro index location
    rw [valid.listed]
    constructor
    · rintro ⟨visible, found, here, rest⟩
      exact ⟨fun gone => visible ((same _ _ here).mp gone), found, here, rest⟩
    · rintro ⟨visible, found, here, rest⟩
      exact ⟨fun gone => visible ((same _ _ here).mpr gone), found, here, rest⟩
  size here visible := valid.size here fun gone => visible ((same _ _ here).mpr gone)
  flag here visible := valid.flag here fun gone => visible ((same _ _ here).mpr gone)
  first := valid.first
  tagged here visible := valid.tagged here fun gone => visible ((same _ _ here).mpr gone)
  total := valid.total
  owned := valid.owned
  frames := valid.frames

theorem link_inside (valid : Consistent state layout lists hidden) (inside : LinksOf lists page address) :
    ∃ location found, layout.block location = some found ∧ ¬ hidden location ∧ found.free = true ∧
      location.page = page ∧ location.offset + 4 ≤ address ∧ address < location.offset + found.extent := by
  obtain ⟨index, location, member, samePage, lower, upper⟩ := inside
  obtain ⟨visible, found, here, free, large, _⟩ := (valid.listed index location).mp member
  have bound := found.size_le
  simp only [xvMinAllocSize_eq] at large
  exact ⟨location, found, here, visible, free, samePage.symm, lower, by omega⟩

theorem link_not_header (valid : Consistent state layout lists hidden) (here : layout.block location = some found)
    (inside : LinksOf lists page address) : ¬ HeaderBytes location page address := by
  rintro ⟨rfl, lower, upper⟩
  obtain ⟨listed, block, there, _, _, samePage, after, before⟩ := valid.link_inside inside
  rcases Classical.em (location = listed) with rfl | different
  · omega
  · have positive := found.size_le
    rcases layout.separate here there samePage.symm different with ends | ends <;> omega

theorem link_not_within (valid : Consistent state layout lists (Within page low high))
    (start : layout.block ⟨page, low⟩ = some found) (nonempty : low < high) (inside : LinksOf lists page address) :
    ¬ (low ≤ address ∧ address < high) := by
  rintro ⟨lower, upper⟩
  obtain ⟨listed, block, there, visible, _, samePage, after, before⟩ := valid.link_inside inside
  rcases outside_stretch start nonempty there visible samePage with ends | starts <;> omega

theorem unlist (valid : Consistent state layout lists hidden) (here : layout.block location = some found)
    (lists' : FreeLists after.memory after.pool (Function.update lists (getIndexForInsert found.size)
      ((lists (getIndexForInsert found.size)).erase location)))
    (changes : ChangesOnly (LinksOf lists) state.memory after.memory)
    (samePages : after.pool.totalPages = state.pool.totalPages) (sameOwned : after.kernel.owned = state.kernel.owned) :
    Consistent after layout (Function.update lists (getIndexForInsert found.size)
      ((lists (getIndexForInsert found.size)).erase location)) (fun other => hidden other ∨ other = location) := by
  have kept {other : Location} {block : Block} (there : layout.block other = some block) :
      header after.memory other = header state.memory other :=
    header_frame changes fun address inside link => valid.link_not_header there link inside
  refine ⟨lists', ?_, ?_, ?_, ?_, ?_, samePages.trans valid.total, sameOwned ▸ valid.owned, valid.frames⟩
  · intro index other
    have listed := valid.listed index other
    rcases Classical.em (index = getIndexForInsert found.size) with rfl | elsewhere
    · rw [Function.update_self, (valid.free.nodup _).mem_erase_iff, listed]
      constructor
      · rintro ⟨different, unhidden, rest⟩
        exact ⟨by simp [unhidden, different], rest⟩
      · rintro ⟨unhidden, rest⟩
        exact ⟨fun same => unhidden (.inr same), fun gone => unhidden (.inl gone), rest⟩
    · rw [Function.update_of_ne elsewhere, listed]
      constructor
      · rintro ⟨unhidden, block, there, isFree, isLarge, sized⟩
        refine ⟨?_, block, there, isFree, isLarge, sized⟩
        rintro (gone | rfl)
        · exact unhidden gone
        · obtain rfl : found = block := by simpa [here] using there
          exact elsewhere sized.symm
      · rintro ⟨unhidden, rest⟩
        exact ⟨fun gone => unhidden (.inl gone), rest⟩
  · intro other block there unhidden
    rw [kept there]
    exact valid.size there fun gone => unhidden (.inl gone)
  · intro other block there unhidden
    rw [kept there]
    exact valid.flag there fun gone => unhidden (.inl gone)
  · intro page member
    obtain ⟨block, there⟩ := layout.first member
    rw [kept there]
    exact valid.first member
  · intro other block next there unhidden follows
    rw [kept follows]
    exact valid.tagged there (fun gone => unhidden (.inl gone)) follows

theorem hide (valid : Consistent state layout lists hidden) (location : Location) (unlisted : ∀ index, location ∉ lists index) :
    Consistent state layout lists (fun other => hidden other ∨ other = location) where
  free := valid.free
  listed := by
    intro index other
    constructor
    · intro member
      obtain ⟨visible, rest⟩ := (valid.listed index other).mp member
      refine ⟨?_, rest⟩
      rintro (gone | rfl)
      · exact visible gone
      · exact unlisted index member
    · rintro ⟨visible, rest⟩
      exact (valid.listed index other).mpr ⟨fun gone => visible (.inl gone), rest⟩
  size here visible := valid.size here fun gone => visible (.inl gone)
  flag here visible := valid.flag here fun gone => visible (.inl gone)
  first := valid.first
  tagged here visible := valid.tagged here fun gone => visible (.inl gone)
  total := valid.total
  owned := valid.owned
  frames := valid.frames

theorem link_writable (valid : Consistent state layout lists hidden) (inside : LinksOf lists page address) :
    Writable layout page address := by
  obtain ⟨location, found, here, _, free, samePage, lower, upper⟩ := valid.link_inside inside
  exact ⟨location, found, here, samePage, by omega, .inr ⟨free, upper⟩⟩

theorem reshaping_scratch (valid : Consistent state layout lists hidden)
    (stop : high = pageSize ∨ ∃ found, layout.block ⟨page, high⟩ = some found) {other : Page}
    (reshaped : Reshaping lists page low high other address) : Scratch layout page low high other address := by
  rcases reshaped with link | within | ⟨short, samePage, lower, upper⟩
  · exact .inr (valid.link_writable link)
  · exact .inl within
  · obtain ⟨found, here⟩ := stop.resolve_left short
    exact .inr ⟨_, found, here, samePage.symm, lower, .inl upper⟩

theorem header_not_reshaped (valid : Consistent state layout lists hidden) {before : Block}
    (start : layout.block ⟨page, low⟩ = some before) (nonempty : low < high)
    (stop : high = pageSize ∨ ∃ found, layout.block ⟨page, high⟩ = some found)
    (here : layout.block location = some found) (without : ¬ Within page low high location)
    (elsewhere : location ≠ ⟨page, high⟩) (inside : HeaderBytes location location.page address) :
    ¬ Reshaping lists page low high location.page address := by
  have positive := found.size_le
  obtain ⟨_, lower, upper⟩ := inside
  rintro (link | ⟨samePage, after, below⟩ | ⟨short, samePage, (after : high ≤ address), (below : address < high + 4)⟩)
  · exact valid.link_not_header here link ⟨rfl, lower, upper⟩
  · rcases outside_stretch start nonempty here without samePage with ends | starts <;> omega
  · obtain ⟨block, there⟩ := stop.resolve_left short
    have extent := block.size_le
    rcases layout.separate here there samePage elsewhere with
      (ends : location.offset + found.extent ≤ high) | (ends : high + block.extent ≤ location.offset) <;> omega

/-- Writes to the hidden stretch are free, as long as its first block keeps its
word about the block before. -/
theorem scribble (valid : Consistent state layout lists (Within page low high)) {before : Block} {memory : Memory Page}
    (start : layout.block ⟨page, low⟩ = some before) (nonempty : low < high)
    (changes : ChangesOnly (fun other address => other = page ∧ low ≤ address ∧ address < high) state.memory memory)
    (tags : (header memory ⟨page, low⟩).prevFree = (header state.memory ⟨page, low⟩).prevFree ∧
      (header memory ⟨page, low⟩).prev = (header state.memory ⟨page, low⟩).prev) :
    Consistent (state.withMemory memory) layout lists (Within page low high) := by
  have kept {location : Location} {found : Block} (here : layout.block location = some found)
      (without : ¬ Within page low high location) : header memory location = header state.memory location := by
    refine header_frame changes fun address inside within => ?_
    obtain ⟨_, lower, upper⟩ := inside
    obtain ⟨samePage, after, below⟩ := within
    have positive := found.size_le
    rcases outside_stretch start nonempty here without samePage with ends | starts <;> omega
  have same {location : Location} {found : Block} (here : layout.block location = some found)
      (border : Within page low high location → location = ⟨page, low⟩) :
      (header memory location).prevFree = (header state.memory location).prevFree ∧
        (header memory location).prev = (header state.memory location).prev := by
    rcases Classical.em (Within page low high location) with within | without
    · rw [border within]
      exact tags
    · rw [kept here without]
      exact ⟨rfl, rfl⟩
  exact {
    free := by
      refine valid.free.congr changes ?_
      rintro other address link ⟨rfl, within⟩
      exact valid.link_not_within start nonempty link within
    listed := valid.listed
    size := by
      intro location found here without
      rw [XvState.withMemory_memory, kept here without]
      exact valid.size here without
    flag := by
      intro location found here without
      rw [XvState.withMemory_memory, kept here without]
      exact valid.flag here without
    first := by
      intro other member
      obtain ⟨found, here⟩ := layout.first member
      refine Eq.trans (same here ?_).1 (valid.first member)
      rintro ⟨rfl, lower, _⟩
      exact Location.ext rfl (Nat.le_zero.mp lower).symm
    tagged := by
      intro location found next here without follows
      obtain ⟨flag, offset⟩ := same follows (successor_border start nonempty here without)
      rw [XvState.withMemory_memory, flag, offset]
      exact valid.tagged here without follows
    total := valid.total
    owned := valid.owned
    frames := valid.frames }

/-- A free block of a hidden stretch goes to the list for its size, if it can hold a link. -/
theorem relist (location : Location) (size : Nat) (valid : Consistent state layout lists (Within page low high)) {before : Block}
    (start : layout.block ⟨page, low⟩ = some before) (nonempty : low < high) (bounded : high ≤ pageSize)
    (inside : location.page = page ∧ low ≤ location.offset ∧ location.offset + 4 + size ≤ high)
    (stored : blockSize state.memory location = size)
    (listing : after = if size ≥ xvMinAllocSize then insertBlock state location location else state) :
    ∃ newLists, newLists = enlist lists location size ∧ FreeLists after.memory after.pool newLists ∧
      (∀ index other, other ∈ newLists index ↔ other ∈ lists index ∨
        other = location ∧ xvMinAllocSize ≤ size ∧ getIndexForInsert size = index) ∧
      (∀ other address, LinksOf newLists other address → LinksOf lists other address ∨
        other = page ∧ location.offset + 4 ≤ address ∧ address < location.offset + 4 + size) ∧
      ChangesOnly (LinksOf newLists) state.memory after.memory ∧
      (∀ {offset}, low ≤ offset → offset ≤ location.offset → header after.memory ⟨page, offset⟩ = header state.memory ⟨page, offset⟩) ∧
      after.pool.totalPages = state.pool.totalPages ∧ after.kernel.owned = state.kernel.owned := by
  obtain ⟨samePage, lower, upper⟩ := inside
  rcases Nat.lt_or_ge size xvMinAllocSize with small | large
  · rw [if_neg (Nat.not_le.mpr small)] at listing
    subst after
    refine ⟨lists, (if_neg (Nat.not_le.mpr small)).symm, valid.free, ?_, fun _ _ => .inl, ChangesOnly.refl _ _, fun _ _ => rfl, rfl, rfl⟩
    intro index other
    simp only [show ¬ xvMinAllocSize ≤ size by omega, false_and, and_false, or_false]
  · rw [if_pos large] at listing
    subst after
    have order : Function.update lists (getIndexForInsert size) (location :: lists (getIndexForInsert size)) = enlist lists location size :=
      (if_pos large).symm
    simp only [xvMinAllocSize_eq] at large
    simp only [pageSize_eq] at bounded
    have fresh (index : Nat) : location ∉ lists index := by
      intro member
      exact ((valid.listed index location).mp member).1 ⟨samePage, lower, by omega⟩
    have apart (index : Nat) (other : Location) (member : other ∈ lists index) : Apart location other := by
      obtain ⟨visible, block, there, _, big, _⟩ := (valid.listed index other).mp member
      have extent := block.size_le
      simp only [xvMinAllocSize_eq] at big
      rcases Classical.em (other.page = page) with same | elsewhere
      · rcases outside_stretch start nonempty there visible same with ends | starts
        · exact .inr (.inr (by omega))
        · exact .inr (.inl (by omega))
      · exact .inl fun equal => elsewhere (equal.symm.trans samePage)
    obtain ⟨present, frame⟩ := valid.frames (layout.inside start).1
    have real : location.page ≠ noPage ∧ Storable location := by
      rw [Storable, samePage]
      exact ⟨present, frame, by omega⟩
    obtain ⟨inserted, changes⟩ := valid.free.insert fresh apart real (congrArg getIndexForInsert stored) (getIndexForInsert_lt size)
    have links : ∀ other address, LinksOf (Function.update lists (getIndexForInsert size)
        (location :: lists (getIndexForInsert size))) other address → LinksOf lists other address ∨
        other = page ∧ location.offset + 4 ≤ address ∧ address < location.offset + 4 + size := by
      rintro other address ⟨index, block, member, link⟩
      rcases Classical.em (index = getIndexForInsert size) with rfl | elsewhere
      · rw [Function.update_self, List.mem_cons] at member
        rcases member with rfl | listed
        · obtain ⟨rfl, after, below⟩ := link
          exact .inr ⟨samePage, after, by omega⟩
        · exact .inl ⟨_, block, listed, link⟩
      · rw [Function.update_of_ne elsewhere] at member
        exact .inl ⟨_, block, member, link⟩
    refine ⟨_, order, inserted, ?_, links, changes, ?_, rfl, rfl⟩
    · intro index other
      rcases Classical.em (index = getIndexForInsert size) with rfl | elsewhere
      · rw [Function.update_self, List.mem_cons]
        simp [large, or_comm]
      · rw [Function.update_of_ne elsewhere]
        simp [Ne.symm elsewhere]
    · intro offset after before
      refine header_frame changes fun address inside link => ?_
      obtain ⟨_, (least : offset ≤ address), (most : address < offset + 4)⟩ := inside
      rcases links _ _ link with old | ⟨_, beyond, _⟩
      · exact valid.link_not_within start nonempty old ⟨by omega, by omega⟩
      · omega

theorem close (valid : Consistent state layout lists (Within page low high)) {before : Block} {changed : Layout}
    {newLists : Nat → List Location} (start : layout.block ⟨page, low⟩ = some before) (nonempty : low < high)
    (stop : high = pageSize ∨ ∃ found, layout.block ⟨page, high⟩ = some found) (samePages : changed.pages = layout.pages)
    (outside : ∀ {location}, ¬ Within page low high location → changed.block location = layout.block location)
    (free : FreeLists after.memory after.pool newLists)
    (listed : ∀ index location, location ∈ newLists index ↔ location ∈ lists index ∨
      Within page low high location ∧ Listable changed (fun _ => False) index location)
    (changes : ChangesOnly (Reshaping lists page low high) state.memory after.memory)
    (following : ∀ {found}, layout.block ⟨page, high⟩ = some found →
      (header after.memory ⟨page, high⟩).size = (header state.memory ⟨page, high⟩).size ∧
        (header after.memory ⟨page, high⟩).free = (header state.memory ⟨page, high⟩).free)
    (tags : (header after.memory ⟨page, low⟩).prevFree = (header state.memory ⟨page, low⟩).prevFree ∧
      (header after.memory ⟨page, low⟩).prev = (header state.memory ⟨page, low⟩).prev)
    (inner : ∀ {location found}, Within page low high location → changed.block location = some found →
      (header after.memory location).size = found.size ∧ (header after.memory location).free = found.free)
    (innerTagged : ∀ {location found next}, Within page low high location → changed.block location = some found →
      changed.block (successor location found) = some next →
      (header after.memory (successor location found)).prevFree = found.free ∧
        (found.free = true → (header after.memory (successor location found)).prev = location.offset))
    (total : after.pool.totalPages = state.pool.totalPages) (owned : after.kernel.owned = state.kernel.owned) :
    Heap after changed newLists := by
  have kept {location : Location} {found : Block} (here : layout.block location = some found)
      (without : ¬ Within page low high location) (elsewhere : location ≠ ⟨page, high⟩) :
      header after.memory location = header state.memory location :=
    header_frame changes fun address inside => valid.header_not_reshaped start nonempty stop here without elsewhere inside
  exact {
    free := free
    listed := by
      intro index location
      rw [listed, valid.listed]
      rcases Classical.em (Within page low high location) with within | without
      · simp [Listable, within]
      · simp [Listable, without, outside without]
    size := by
      intro location found here _
      rcases Classical.em (Within page low high location) with within | without
      · exact (inner within here).1
      · rw [outside without] at here
        rcases Classical.em (location = ⟨page, high⟩) with rfl | elsewhere
        · exact (following here).1.trans (valid.size here without)
        · rw [kept here without elsewhere]
          exact valid.size here without
    flag := by
      intro location found here _
      rcases Classical.em (Within page low high location) with within | without
      · exact (inner within here).2
      · rw [outside without] at here
        rcases Classical.em (location = ⟨page, high⟩) with rfl | elsewhere
        · exact (following here).2.trans (valid.flag here without)
        · rw [kept here without elsewhere]
          exact valid.flag here without
    first := by
      intro other member
      rw [samePages] at member
      rcases Classical.em (Within page low high ⟨other, 0⟩) with ⟨rfl, lower, _⟩ | without
      · obtain rfl : low = 0 := Nat.le_zero.mp lower
        exact tags.1.trans (valid.first member)
      · obtain ⟨found, here⟩ := layout.first member
        rw [kept here without (by simp only [ne_eq, Location.mk.injEq]; omega)]
        exact valid.first member
    tagged := by
      intro location found next here _ follows
      rcases Classical.em (Within page low high location) with within | without
      · exact innerTagged within here follows
      · rw [outside without] at here
        rcases Classical.em (Within page low high (successor location found)) with enters | beyond
        · have border := successor_border start nonempty here without enters
          have before := valid.tagged here without (border ▸ start)
          rw [border] at before ⊢
          rw [tags.1, tags.2]
          exact before
        · rw [outside beyond] at follows
          rw [kept follows beyond]
          · exact valid.tagged here without follows
          · intro border
            have samePage : location.page = page := congrArg Location.page border
            have ends : location.offset + found.extent = high := congrArg Location.offset border
            have positive := found.size_le
            rcases outside_stretch start nonempty here without samePage with early | late <;> omega
    total := by rw [total, samePages, valid.total]
    owned := by rw [owned, samePages]; exact valid.owned
    frames := by rw [samePages]; exact valid.frames }

end Consistent
end Compcache.Xvmalloc
