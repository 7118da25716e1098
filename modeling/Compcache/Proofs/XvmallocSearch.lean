import Compcache.Proofs.XvmallocFreeLists

/-! The two-level search. It returns the head of the nearest nonempty list at
or above the index of the request, and every block there is large enough. -/

namespace Compcache.Xvmalloc
open Library.PagedMemory Library.Bitmap

theorem getIndexForInsert_eq {size : Nat} (small : size ≤ xvMaxAllocSize) : getIndexForInsert size = (size - xvMinAllocSize) / 8 := by
  simp only [getIndexForInsert, if_neg (Nat.not_lt.mpr small)]
  simp only [xvMaxAllocSize_eq, xvMinAllocSize_eq, flDelta_eq] at *
  omega

theorem getIndexForInsert_lt (size : Nat) : getIndexForInsert size < numFreeLists := by
  rcases Nat.lt_or_ge xvMaxAllocSize size with large | small
  · simp only [getIndexForInsert, if_pos large]
    decide
  · rw [getIndexForInsert_eq small]
    simp only [xvMaxAllocSize_eq, xvMinAllocSize_eq, numFreeLists_eq] at *
    omega

theorem getIndex_eq (size : Nat) : getIndex size = (max size xvMinAllocSize - 25) / 8 := by
  rcases Nat.lt_or_ge size xvMinAllocSize with small | large
  · simp only [getIndex, if_pos small, align]
    simp only [xvMinAllocSize_eq, flDelta_eq] at *
    omega
  · simp only [getIndex, if_neg (Nat.not_lt.mpr large), align]
    simp only [xvMinAllocSize_eq, flDelta_eq] at *
    omega

/-- A block on a list at or above the index of a request can hold it. -/
theorem listed_size {requested size : Nat} (large : xvMinAllocSize ≤ size) (small : size ≤ xvMaxAllocSize)
    (above : getIndex requested ≤ getIndexForInsert size) : requested ≤ size := by
  rw [getIndex_eq, getIndexForInsert_eq small] at above
  simp only [xvMinAllocSize_eq] at *
  omega

/-- A request fits the top list, where a fresh page goes, unless rounding takes
it to a whole page. -/
theorem getIndex_le_top {requested : Nat} (small : requested ≤ xvMaxAllocSize) :
    getIndex requested ≤ getIndexForInsert xvMaxAllocSize ↔ requested ≤ 4088 := by
  rw [getIndex_eq, getIndexForInsert_eq (Nat.le_refl _)]
  simp only [xvMinAllocSize_eq, xvMaxAllocSize_eq] at *
  omega

/-- The lists passed over hold only blocks smaller than the request rounded up to a list boundary. -/
theorem passed_size {requested size : Nat} (large : xvMinAllocSize ≤ size) (small : size ≤ xvMaxAllocSize)
    (below : getIndexForInsert size < getIndex requested) : size < align requested flDelta := by
  rw [getIndex_eq, getIndexForInsert_eq small] at below
  simp only [xvMinAllocSize_eq, align, flDelta_eq] at *
  omega

/-- A block on a list at or above the index of a request holds it rounded up to a list boundary. -/
theorem listed_aligned {requested size : Nat} (large : xvMinAllocSize ≤ size) (above : getIndex requested ≤ getIndexForInsert size) :
    align requested flDelta ≤ size := by
  rw [getIndex_eq] at above
  simp only [getIndexForInsert] at above
  simp only [xvMinAllocSize_eq, xvMaxAllocSize_eq, flDelta_eq, align] at *
  split at above <;> omega

variable [Arch]

/-- What the search finds: the least index from `start` on whose list is not empty. -/
def Nearest (lists : Nat → List Location) (start index : Nat) : Prop :=
  start ≤ index ∧ lists index ≠ [] ∧ ∀ earlier, start ≤ earlier → earlier < index → lists earlier = []

theorem word_position (word : Nat) {position : Nat} (inside : position < bitsPerLong) :
    (word * bitsPerLong + position) / bitsPerLong = word ∧ (word * bitsPerLong + position) % bitsPerLong = position := by
  have positive : 0 < bitsPerLong := Nat.lt_of_le_of_lt (Nat.zero_le _) inside
  constructor
  · rw [Nat.mul_comm, Nat.mul_add_div positive, Nat.div_eq_of_lt inside, Nat.add_zero]
  · rw [Nat.mul_comm, Nat.mul_add_mod, Nat.mod_eq_of_lt inside]

section Search
variable {pool : XvPool} {lists : Nat → List Location} {start index : Nat}

theorem bit_clear (tracks : Tracks pool.flbitmap pool.slbitmap fun index => lists index ≠ []) :
    (pool.slbitmap (index / bitsPerLong)).getLsbD (index % bitsPerLong) = false ↔ lists index = [] := by
  rw [← Bool.not_eq_true, tracks.bit]
  exact Decidable.not_not

theorem word_clear (tracks : Tracks pool.flbitmap pool.slbitmap fun index => lists index ≠ [])
    (clear : pool.flbitmap.getLsbD (index / bitsPerLong) = false) : lists index = [] := by
  rw [← bit_clear tracks]
  have zero : pool.slbitmap (index / bitsPerLong) = 0#_ := by
    apply Classical.byContradiction
    intro nonzero
    simp [(tracks.word _).mpr nonzero] at clear
  simp [zero]

/-- The second stage: the next bit of the same word. -/
theorem nearest_inChunk (tracks : Tracks pool.flbitmap pool.slbitmap fun index => lists index ≠ []) (startEmpty : lists start = [])
    (some_ : pool.slbitmap (start / bitsPerLong) >>> (start % bitsPerLong + 1) ≠ 0#_) :
    Nearest lists start (start + (lowestBit (pool.slbitmap (start / bitsPerLong) >>> (start % bitsPerLong + 1)) + 1)) := by
  have startSplit := Nat.div_add_mod start bitsPerLong
  obtain ⟨found, skipped⟩ := shifted_lowestBit some_
  set chunk := pool.slbitmap (start / bitsPerLong) >>> (start % bitsPerLong + 1)
  have inside := BitVec.lt_of_getLsbD found
  have target : start + (lowestBit chunk + 1) =
      start / bitsPerLong * bitsPerLong + (start % bitsPerLong + 1 + lowestBit chunk) := by
    have product := Nat.mul_comm bitsPerLong (start / bitsPerLong)
    omega
  obtain ⟨sameWord, position⟩ := word_position (start / bitsPerLong) inside
  refine ⟨by omega, ?_, ?_⟩
  · rw [← tracks.bit, target, sameWord, position]
    exact found
  · intro earlier after before
    have high := index_le_iff (w := bitsPerLong) |>.mp (Nat.le_of_lt before)
    have low := index_le_iff (w := bitsPerLong) |>.mp after
    rw [target, sameWord, position] at high
    have chunkSame : earlier / bitsPerLong = start / bitsPerLong := by omega
    by_cases same : earlier = start
    · rw [same]; exact startEmpty
    · have split := Nat.div_add_mod earlier bitsPerLong
      rw [chunkSame] at split
      rw [← bit_clear tracks, chunkSame]
      exact skipped _ (by omega) (by omega)

/-- When it finds none, the rest of that word has none. -/
theorem chunk_empty (tracks : Tracks pool.flbitmap pool.slbitmap fun index => lists index ≠ []) (startEmpty : lists start = [])
    (outside : ¬ (start % bitsPerLong + 1 ≠ bitsPerLong ∧
      pool.slbitmap (start / bitsPerLong) >>> (start % bitsPerLong + 1) ≠ 0#_))
    (after : start ≤ index) (same : index / bitsPerLong = start / bitsPerLong) : lists index = [] := by
  by_cases isStart : index = start
  · rw [isStart]; exact startEmpty
  · have startSplit := Nat.div_add_mod start bitsPerLong
    have split := Nat.div_add_mod index bitsPerLong
    rw [same] at split
    have positive : 0 < bitsPerLong := by rcases Arch.bitsPerLong_cases with bits | bits <;> omega
    have bound := Nat.mod_lt index positive
    have zero : pool.slbitmap (start / bitsPerLong) >>> (start % bitsPerLong + 1) = 0#_ := by
      apply Classical.byContradiction
      intro nonzero
      exact outside ⟨by omega, nonzero⟩
    rw [← bit_clear tracks, same]
    exact shifted_zero.mp zero _ (by omega)

/-- The third stage: the first bit of the next word that has one. -/
theorem nearest_above (tracks : Tracks pool.flbitmap pool.slbitmap fun index => lists index ≠ [])
    (chunkEmpty : ∀ {index}, start ≤ index → index / bitsPerLong = start / bitsPerLong → lists index = [])
    (some_ : pool.flbitmap >>> (start / bitsPerLong + 1) ≠ 0#_) {chosen : Nat}
    (chosenEq : start / bitsPerLong + (lowestBit (pool.flbitmap >>> (start / bitsPerLong + 1)) + 1) = chosen) :
    Nearest lists start (chosen * bitsPerLong + lowestBit (pool.slbitmap chosen)) := by
  obtain ⟨found, skipped⟩ := shifted_lowestBit some_
  rw [Nat.add_right_comm, Nat.add_assoc, chosenEq] at found skipped
  have nonzero := (tracks.word chosen).mp found
  obtain ⟨sameWord, position⟩ := word_position chosen (lowestBit_lt nonzero)
  refine ⟨?_, ?_, ?_⟩
  · rw [index_le_iff (w := bitsPerLong), sameWord]
    exact .inl (by omega)
  · rw [← tracks.bit, sameWord, position]
    exact lowestBit_set nonzero
  · intro earlier after before
    rcases index_le_iff (w := bitsPerLong) |>.mp after with later | ⟨same, _⟩
    · rcases index_le_iff (w := bitsPerLong) |>.mp (Nat.le_of_lt before) with less | ⟨same, _⟩
      · rw [sameWord] at less
        exact word_clear tracks (skipped _ (by omega) less)
      · rw [sameWord] at same
        have split := Nat.div_add_mod earlier bitsPerLong
        rw [same, Nat.mul_comm] at split
        rw [← bit_clear tracks, same]
        exact before_lowestBit (by omega)
    · exact chunkEmpty after same.symm

end Search

theorem findBlock_search {pool : XvPool} {lists : Nat → List Location}
    (tracks : Tracks pool.flbitmap pool.slbitmap fun index => lists index ≠ [])
    (size : Nat) (location : Location) :
    (∃ index, Nearest lists (getIndex size) index ∧ findBlock pool size location = (index, pool.freelist index)) ∨
      (∀ index, getIndex size ≤ index → lists index = []) ∧ findBlock pool size location = (0, location) := by
  set start := getIndex size with startEq
  by_cases empty : pool.flbitmap = 0#_
  · refine .inr ⟨?_, by simp [findBlock, empty]⟩
    intro index _
    exact word_clear tracks (by simp [empty])
  by_cases exactFit : (pool.slbitmap (start / bitsPerLong)).getLsbD (start % bitsPerLong) = true
  · refine .inl ⟨start, ⟨Nat.le_refl _, (tracks.bit start).mp exactFit, fun earlier _ _ => by omega⟩, ?_⟩
    simp [findBlock, empty, ← startEq, exactFit]
  have startEmpty : lists start = [] := (bit_clear tracks).mp (by simpa using exactFit)
  by_cases inChunk : start % bitsPerLong + 1 ≠ bitsPerLong ∧ pool.slbitmap (start / bitsPerLong) >>> (start % bitsPerLong + 1) ≠ 0#_
  · refine .inl ⟨_, nearest_inChunk tracks startEmpty inChunk.2, ?_⟩
    simp only [findBlock, empty, if_false, ← startEq, exactFit]
    simp [inChunk]
  have chunkEmpty {index : Nat} (after : start ≤ index) (same : index / bitsPerLong = start / bitsPerLong) : lists index = [] :=
    chunk_empty tracks startEmpty inChunk after same
  by_cases noUpper : pool.flbitmap >>> (start / bitsPerLong + 1) = 0#_
  · refine .inr ⟨?_, ?_⟩
    · intro index after
      rcases index_le_iff (w := bitsPerLong) |>.mp after with later | ⟨same, _⟩
      · exact word_clear tracks (shifted_zero.mp noUpper _ (by omega))
      · exact chunkEmpty after same.symm
    · simp only [findBlock, empty, if_false, ← startEq, exactFit, inChunk, noUpper]
      simp
  · refine .inl ⟨_, nearest_above tracks chunkEmpty noUpper rfl, ?_⟩
    simp only [findBlock, empty, if_false, ← startEq, exactFit, inChunk, noUpper]
    simp

theorem findBlock_spec {memory : Memory Page} {pool : XvPool} {lists : Nat → List Location}
    (valid : FreeLists memory pool lists) (size : Nat) (location : Location) :
    (∃ index, Nearest lists (getIndex size) index ∧ findBlock pool size location = (index, pool.freelist index)) ∨
      (∀ index, getIndex size ≤ index → lists index = []) ∧ findBlock pool size location = (0, location) :=
  findBlock_search valid.tracks size location

/-- Lists the bitmaps match, each block on the list for its size. Blocks below
`XV_MIN_ALLOC_SIZE` are on none. -/
structure Listed (memory : Memory Page) (pool : XvPool) (lists : Nat → List Location) : Prop where
  heads : ∀ index, pool.freelist index = (lists index).headD Location.null
  tracks : Tracks pool.flbitmap pool.slbitmap fun index => lists index ≠ []
  bounded : ∀ {index}, lists index ≠ [] → index < numFreeLists
  real : ∀ {index block}, block ∈ lists index → block.page ≠ noPage
  sorted : ∀ {index block}, block ∈ lists index → xvMinAllocSize ≤ blockSize memory block ∧
    getIndexForInsert (blockSize memory block) = index

section Bounds
variable {memory : Memory Page} {pool : XvPool} {lists : Nat → List Location} {size : Nat} {location : Location}

theorem Listed.index_lt (listed : Listed memory pool lists) (size : Nat) (location : Location) :
    (findBlock pool size location).1 < numFreeLists := by
  rcases findBlock_search listed.tracks size location with ⟨index, nearest, found⟩ | ⟨_, found⟩ <;> rw [found]
  · exact listed.bounded nearest.2.1
  · exact show 0 < numFreeLists by decide

theorem maxFli_spec {index : Nat} (inside : index ≤ numFreeLists) : index / bitsPerLong < maxFli := by
  unfold maxFli
  simp only [numFreeLists_eq] at *
  rcases Arch.bitsPerLong_cases with bits | bits <;> rw [bits] <;> omega

theorem readFreelist_eq {index : Nat} (inside : index < numFreeLists) :
    readFreelist pool index = some (index, pool.freelist index) := if_pos inside

theorem ffs_eq {word : BitVec bitsPerLong} (nonzero : word ≠ 0#_) : ffs word = some (lowestBit word) := if_neg nonzero

theorem Listed.findBlockBounded (listed : Listed memory pool lists) (location : Location) (small : size ≤ xvMaxAllocSize) :
    findBlockBounded pool size location = some (findBlock pool size location) := by
  have inside := listed.index_lt size location
  have start : getIndex size ≤ numFreeLists := by
    rw [getIndex_eq]
    simp only [xvMinAllocSize_eq, xvMaxAllocSize_eq, numFreeLists_eq] at *
    omega
  unfold Xvmalloc.findBlockBounded
  unfold findBlock at inside ⊢
  dsimp only at inside ⊢
  split
  next => rfl
  next nonempty =>
    rw [if_neg nonempty] at inside
    rw [readSlbitmap, if_pos (maxFli_spec start), Option.bind_some]
    split
    next here =>
      rw [if_pos here] at inside
      exact readFreelist_eq inside
    next absent =>
      rw [if_neg absent] at inside
      split
      next chunk =>
        rw [if_pos chunk] at inside
        rw [ffs_eq chunk.2, Option.bind_some]
        exact readFreelist_eq inside
      next nochunk =>
        rw [if_neg nochunk] at inside
        split
        next => rfl
        next upper =>
          rw [if_neg upper] at inside
          -- the word chosen has a bit, and that bit a list
          have chosen := (listed.tracks.word _).mp (Nat.add_assoc _ _ _ ▸ (shifted_lowestBit upper).1)
          rw [Nat.add_comm 1] at chosen
          have word := lowestBit_lt chosen
          have lower : getIndex size / bitsPerLong + (lowestBit (pool.flbitmap >>> (getIndex size / bitsPerLong + 1)) + 1) < maxFli := by
            have within := maxFli_spec (Nat.le_of_lt inside)
            rwa [(word_position _ word).1] at within
          rw [ffs_eq upper, Option.bind_some, readSlbitmap, if_pos lower, Option.bind_some, ffs_eq chosen, Option.bind_some]
          exact readFreelist_eq inside

/-- What a search for `size` comes to: it reads within its arrays, and the page stays
NULL or the head of the nearest list is found with its index, with room in every
block of the list. -/
structure Finds (memory : Memory Page) (pool : XvPool) (lists : Nat → List Location) (size : Nat) (result : Nat × Location) : Prop where
  reads : Xvmalloc.findBlockBounded pool size Location.null = some result
  missing : result.2.page = noPage ↔ ∀ index, getIndex size ≤ index → lists index = []
  nearest : result.2.page ≠ noPage → Nearest lists (getIndex size) result.1
  head : result.2.page ≠ noPage → (lists result.1).head? = some result.2
  room : result.2.page ≠ noPage → ∀ block ∈ lists result.1, align size flDelta ≤ blockSize memory block

theorem findBlock_finds (listed : Listed memory pool lists) (small : size ≤ xvMaxAllocSize) :
    Finds memory pool lists size (findBlock pool size Location.null) := by
  have reads := listed.findBlockBounded Location.null small
  rcases findBlock_search listed.tracks size Location.null with ⟨index, nearest, found⟩ | ⟨empty, found⟩ <;> rw [found] at reads ⊢
  · obtain ⟨head, rest, cons⟩ := List.exists_cons_of_ne_nil nearest.2.1
    have first : pool.freelist index = head := (listed.heads index).trans (congrArg (List.headD · Location.null) cons)
    have real : head.page ≠ noPage := listed.real (cons ▸ List.mem_cons_self)
    rw [first] at reads ⊢
    refine ⟨reads, iff_of_false real fun empty => nearest.2.1 (empty index nearest.1), fun _ => nearest, fun _ =>
      congrArg List.head? cons, ?_⟩
    intro _ block member
    obtain ⟨large, sorted⟩ := listed.sorted member
    exact listed_aligned large (sorted.symm ▸ nearest.1)
  · have null : (Location.null).page = noPage := rfl
    exact ⟨reads, iff_of_true null empty, fun real => absurd null real, fun real => absurd null real, fun real => absurd null real⟩

end Bounds

end Compcache.Xvmalloc
