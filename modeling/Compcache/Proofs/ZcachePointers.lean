import Compcache.Proofs.ZcacheNodes
import Compcache.Proofs.ZcacheSweeps

/-! The "pointers" in a page tree: what is lost of an index or of a page frame number
when it is put into a word with the bits the radix tree and the mark take. -/

namespace Compcache.Zcache
open Library Library.PagedMemory Library.Runs Xvmalloc

section Words
variable [Arch]

theorem shifted_word {shift : Nat} (inside : shift ≤ bitsPerLong) (value : Nat) :
    (value <<< shift) % 2 ^ bitsPerLong = (value % 2 ^ (bitsPerLong - shift)) <<< shift := by
  rw [Nat.shiftLeft_eq, Nat.shiftLeft_eq]
  nth_rewrite 1 [← Nat.sub_add_cancel inside]
  rw [pow_add, Nat.mul_mod_mul_right]

theorem shift_inside {shift : Nat} (small : shift ≤ 12) : shift ≤ bitsPerLong := by
  rcases Arch.bitsPerLong_cases with width | width <;> omega

theorem zcacheIndexToPtr_eq (index : Nat) : zcacheIndexToPtr index = index % 2 ^ (bitsPerLong - zcacheZeroPageIndexShift) * 4 + 2 := by
  rw [zcacheIndexToPtr, shifted_word (shift_inside (by decide)), show zcacheZeroPageMarkBit = 2 from rfl,
    ← Nat.shiftLeft_add_eq_or_of_lt (by decide), Nat.shiftLeft_eq]
  rfl

theorem zcacheXvLocationToPtr_eq (location : Location) :
    zcacheXvLocationToPtr location = location.page % 2 ^ (bitsPerLong - pageShift) * pageSize + location.offset % pageSize := by
  rw [zcacheXvLocationToPtr, shifted_word (shift_inside (by decide)),
    ← Nat.shiftLeft_add_eq_or_of_lt (show location.offset % pageSize < 2 ^ pageShift from Nat.mod_lt _ (by decide)), Nat.shiftLeft_eq]
  rfl

omit [Arch] in
theorem zcacheIsZeroPage_iff (ptr : Nat) : zcacheIsZeroPage ptr = true ↔ ptr / 2 % 2 = 1 := by
  have high : (ptr &&& 2) / 2 = ptr / 2 % 2 := by rw [Nat.and_div_two, Nat.and_one_is_mod]
  have low : (ptr &&& 2) % 2 = 0 := by
    rw [← Nat.and_one_is_mod, Nat.and_assoc]
    exact Nat.and_zero ptr
  rw [zcacheIsZeroPage, show zcacheZeroPageMarkBit = 2 from rfl, bne_iff_ne]
  omega

end Words

section Pointers
variable [Arch] {cpus : Nat} {pool : Pool cpus} {others : Finset Page} {stored : Storage → Prop} {node index : Nat} {inode : InodeRb}
    {location : Location}
  {pages : SortedMap (Option Location)}

/-- What `zcache_store_page` puts into the tree: a mark for a zero-filled page, or a
pointer to the object at a location. -/
def Item.storing (index : Nat) : Option Location → Item
  | none => ⟨zcacheIndexToPtr index, false⟩
  | some location => ⟨zcacheXvLocationToPtr location, true⟩

/-- An item can be read back: it is no NULL, its lowest bit is free, and its kind, its
index and the location of its object are what they were. -/
structure Reads (pool : Pool cpus) (index : Nat) (location : Option Location) : Prop where
  real : (Item.storing index location).ptr ≠ 0
  low : (Item.storing index location).ptr % 2 = 0
  kind : zcacheIsZeroPage (Item.storing index location).ptr = location.isNone
  decoded : pool.ptrToIndex (Item.storing index location).ptr = index
  location : ∀ there ∈ location, zcachePtrToXvLocation (Item.storing index location).ptr = there

theorem reads_mark : Reads pool index none ↔ index < 2 ^ (bitsPerLong - zcacheZeroPageIndexShift) := by
  have ptr : (Item.storing index none).ptr = index % 2 ^ (bitsPerLong - zcacheZeroPageIndexShift) * 4 + 2 := zcacheIndexToPtr_eq index
  have kind : zcacheIsZeroPage (Item.storing index none).ptr = true := by
    rw [zcacheIsZeroPage_iff, ptr]
    omega
  have read : pool.ptrToIndex (Item.storing index none).ptr = index % 2 ^ (bitsPerLong - zcacheZeroPageIndexShift) := by
    rw [Pool.ptrToIndex, if_pos kind, ptr, Nat.shiftRight_eq_div_pow, show 2 ^ zcacheZeroPageIndexShift = 4 from rfl]
    omega
  constructor
  · intro reads
    rw [← reads.decoded, read]
    exact Nat.mod_lt _ (Nat.two_pow_pos _)
  · intro small
    exact ⟨by omega, by omega, kind, read.trans (Nat.mod_eq_of_lt small), fun _ none_ => by cases none_⟩

theorem reads_object (aligned : location.offset % xvAlign = 0) (behind : xvAlign ≤ location.offset) (inside : location.offset < pageSize)
    (header : pool.read (.objectIndex location) = index) : Reads pool index (some location) ↔
      location.page < 2 ^ (bitsPerLong - pageShift) := by
  have ptr : (Item.storing index (some location)).ptr = location.page % 2 ^ (bitsPerLong - pageShift) * pageSize + location.offset := by
    rw [← Nat.mod_eq_of_lt inside]
    exact zcacheXvLocationToPtr_eq location
  simp only [xvAlign_eq, pageSize_eq] at *
  have kind : zcacheIsZeroPage (Item.storing index (some location)).ptr = false := by
    rw [Bool.eq_false_iff, Ne, zcacheIsZeroPage_iff, ptr]
    omega
  have read : zcachePtrToXvLocation (Item.storing index (some location)).ptr =
      ⟨location.page % 2 ^ (bitsPerLong - pageShift), location.offset⟩ := by
    have page (frame : Nat) : (frame * 4096 + location.offset) / 4096 = frame := by omega
    have offset (frame : Nat) : (frame * 4096 + location.offset) % 4096 = location.offset := by omega
    rw [zcachePtrToXvLocation, ptr, Nat.shiftRight_eq_div_pow, pageSize_eq]
    exact Location.ext (page _) (offset _)
  constructor
  · intro reads
    have page := congrArg Location.page (read.symm.trans (reads.location location rfl))
    rw [← page]
    exact Nat.mod_lt _ (Nat.two_pow_pos _)
  · intro small
    rw [Nat.mod_eq_of_lt small] at read
    refine ⟨by omega, by omega, kind, ?_, ?_⟩
    · rw [Pool.ptrToIndex, kind, if_neg Bool.false_ne_true, read]
      exact header
    · rintro _ ⟨⟩
      exact read

/-- A node with the pages `zcache_store_page` put there: zero-filled ones, and
compressed ones in objects that have the index in their header. -/
structure Stocked (others : Finset Page) (stored : Storage → Prop) (pool : Pool cpus) (node : Nat) (inode : InodeRb)
    (pages : SortedMap (Option Location)) : Prop where
  here : pool.nodes node = some inode
  backed : Backed others pool.xv stored
  entries : inode.pageTree.entries = pages.entries.map fun page => (page.1, Item.storing page.1 page.2)
  objects : ∀ index location, (index, some location) ∈ pages.entries → ∃ size, stored (.object location size) ∧ objheaderSize ≤ size ∧
    pool.xv.memory.load location.page location.offset wordBytes = index

/-- No bit of the index of a zero-filled page, and none of a frame number, is lost. -/
def Fits : Nat × Option Location → Prop
  | (index, none) => index < 2 ^ (bitsPerLong - zcacheZeroPageIndexShift)
  | (_, some location) => location.page < 2 ^ (bitsPerLong - pageShift)

theorem Stocked.reads_iff (stocked : Stocked others stored pool node inode pages) {page : Nat × Option Location}
    (member : page ∈ pages.entries) :
    Reads pool page.1 page.2 ↔ Fits page := by
  obtain ⟨index, found⟩ := page
  cases found with
  | none => exact reads_mark
  | some location =>
    obtain ⟨size, here, large, header⟩ := stocked.objects index location member
    obtain ⟨aligned, behind⟩ := stocked.backed.object_aligned here
    have inside : location.offset < pageSize := by
      have ends := stocked.backed.object_inside here
      have room : 0 < objheaderSize := by
        rw [objheaderSize, wordBytes]
        rcases Arch.bitsPerLong_cases with width | width <;> simp [width]
      omega
    exact reads_object aligned behind inside header

theorem Stocked.shelved (stocked : Stocked others stored pool node inode pages) (reads : ∀ page ∈ pages.entries, Reads pool page.1 page.2) :
    Shelved others stored pool node inode where
  here := stocked.here
  backed := stocked.backed
  decodes := by
    intro entry member
    rw [stocked.entries] at member
    obtain ⟨⟨index, found⟩, inside, rfl⟩ := List.mem_map.mp member
    have read := reads _ inside
    cases found with
    | none =>
      have mark : zcacheIsZeroPage (Item.storing index none).ptr = true := read.kind
      have decoded : pool.ptrToIndex (Item.storing index none).ptr = index := read.decoded
      rw [Pool.ptrToIndex, if_pos mark] at decoded
      rw [Decodes, Item.object_none.mpr mark]
      exact decoded
    | some location =>
      have object : (Item.storing index (some location)).object = some location := by
        rw [Item.object, show zcacheIsZeroPage (Item.storing index (some location)).ptr = false from read.kind, if_neg Bool.false_ne_true,
          read.location location rfl]
      rw [Decodes, object]
      exact stocked.objects index location inside

/-- Just when no bit is lost all pages of a node are found again, and then the
BUG_ON of `zcache_free_inode_pages` is never hit. -/
theorem pointers_iff (stocked : Stocked others stored pool node inode pages) :
    ((∀ page ∈ pages.entries, Reads pool page.1 page.2) ∧
      ∀ (lzo : Lzo) (task : Nat) (held : List Nat) (pagesToFree : Nat) (tag : Tag) (next : Code cpus),
        Inevitable (Progress.step lzo task) (fun final => final.code = next) ⟨pool, held, zcacheFreeInodePages node pagesToFree tag next⟩) ↔
      ∀ page ∈ pages.entries, Fits page := by
  constructor
  · rintro ⟨reads, _⟩ page member
    exact (stocked.reads_iff member).mp (reads page member)
  · intro fits
    have reads (page : Nat × Option Location) (member : page ∈ pages.entries) : Reads pool page.1 page.2 :=
      (stocked.reads_iff member).mpr (fits page member)
    refine ⟨reads, fun lzo task held pagesToFree tag next => ?_⟩
    exact (sweep_swept (stocked.shelved reads) pagesToFree 0 (fun _ _ => Nat.zero_le _) next).mono fun final swept => swept.code

end Pointers

section Sample

section Wide
local instance pointersArch : Arch := Arch.x64

def samplePages : SortedMap (Option Location) := (SortedMap.empty.insert 0 (some ⟨1, 4⟩)).insert 3 none

theorem samplePool_stocked : Stocked ∅ (fun storage => storage = .object ⟨1, 4⟩ 100) samplePool 0 sampleShelf samplePages where
  here := rfl
  backed := samplePool_shelved.backed
  entries := by decide
  objects := by
    have header : sampleObject.state.memory.load 1 4 wordBytes = 0 := by decide +kernel
    have pages : samplePages.entries = [(0, some ⟨1, 4⟩), (3, none)] := by decide
    rw [pages]
    intro index location member
    rcases List.mem_pair.mp member with same | same
    · cases same
      exact ⟨100, rfl, by decide, header⟩
    · cases same

theorem pointers_iff_sample : (∀ page ∈ samplePages.entries, Reads samplePool page.1 page.2) ∧
    ∀ (lzo : Lzo) (task : Nat) (held : List Nat) (pagesToFree : Nat) (tag : Tag) (next : Code 1),
      Inevitable (Progress.step lzo task)
        (fun final => final.code = next) ⟨samplePool, held, zcacheFreeInodePages 0 pagesToFree tag next⟩ := by
  refine (pointers_iff samplePool_stocked).mpr fun page member => ?_
  have pages : samplePages.entries = [(0, some ⟨1, 4⟩), (3, none)] := by decide
  rw [pages] at member
  rcases List.mem_pair.mp member with rfl | rfl
  · exact show 1 < 2 ^ (64 - 12) by decide
  · exact show 3 < 2 ^ (64 - 2) by decide

end Wide

section Narrow
local instance narrowArch : Arch := ⟨32, 32, by decide⟩

/-- A zero-filled page is put far behind in a file, and the file is flushed. -/
def farPut : List (Action 1) :=
  [.call 0 (.putPage (.ofIno 7) (2 ^ 30) PageData.zeros ⟨true, true, ⟨.exhausted, nofun⟩, true⟩)] ++ List.replicate 12
    (.advance 0 onlyCpu) ++
    [.call 0 (.flushInode (.ofIno 7))] ++ List.replicate 4 (.advance 0 onlyCpu)

def Code.isBug : Code 1 → Bool
  | .bug => true
  | _ => false

/-- The mark of the page is that of the first page of the file. -/
theorem far_page_lost : zcacheIndexToPtr (2 ^ 30) = zcacheIndexToPtr 0 ∧
    ∃ machine task, AnyRun (Machine.step Lzo.literal) (Machine.create ⟨fun _ _ => 0, ∅⟩ 0) machine ∧
      machine.tasks.find? 0 = some task ∧ task.code = (.bug : Code 1) := by
  have reached : ((steps (Machine.step Lzo.literal) (Machine.create ⟨fun _ _ => 0, ∅⟩ 0) farPut).bind fun machine =>
      (machine.tasks.find? 0).map fun task => task.code.isBug) = some true := by decide +kernel
  obtain ⟨machine, taken, shown⟩ := Option.bind_eq_some_iff.mp reached
  obtain ⟨task, found, bug⟩ := Option.map_eq_some_iff.mp shown
  refine ⟨by decide, machine, task, .of_steps (fun _ _ _ => trivial) taken, found, ?_⟩
  unfold Code.isBug at bug
  split at bug
  next code => exact code
  next => cases bug

end Narrow
end Sample
end Compcache.Zcache
