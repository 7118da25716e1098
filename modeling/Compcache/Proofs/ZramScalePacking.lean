import Compcache.Proofs.ZramScalePages

/-! A place packed into an entry of the table and found again. -/

namespace Compcache.ZramScale
open Library.PagedMemory Library.Ownership Xvmalloc

section Packing
variable [Arch] {Cpu : Type} {storage : Storage}

/-- What `zram_write` packs: a page from the page allocator, for a page stored
uncompressed, or an object of a pool. -/
inductive Offered : Storage → Prop
  | page {allocator : PageAllocator} {owned : Finset Page} {fresh : Fresh} (picked : allocator.pick owned = some fresh) :
      Offered (.page fresh.page)
  | object {others : Finset Page} {state : XvState} {live : LiveObjects} {location : Location} {size : Nat}
      (reachable : Reachable others state live) (allocated : live location = some size) : Offered (.object location size)

/-- What `zram_insert_obj` leaves in the table is found, and taken for what it is. -/
structure Packs (zram : Zram Cpu) (index : UInt32) (storage : Storage) : Prop where
  found : zramFindObj (zramInsertObj zram index.toNat storage.location) index.toNat = some storage.location
  present : (zramInsertObj zram index.toNat storage.location).table index.toNat ≠ 0
  nonzero : zramIsZeroPage (zramInsertObj zram index.toNat storage.location) index.toNat = false
  kind : ∀ location, zramFindObj (zramInsertObj zram index.toNat storage.location) index.toNat = some location → location.offset = 0 →
    ∃ frame, storage = .page frame

theorem live_positive {others : Finset Page} {state : XvState} {live : LiveObjects} (reachable : Reachable others state live)
    {location : Location}
    {size : Nat} (allocated : live location = some size) : 1 ≤ size := by
  induction reachable with
  | create => cases allocated
  | @malloc state live _ asked allocator ih =>
    rw [liveAfterMalloc] at allocated
    split at allocated
    next served =>
      rcases Classical.em (location = (xvMalloc state asked allocator).location) with rfl | elsewhere
      · rw [Function.update_self] at allocated
        cases allocated
        refine Nat.one_le_iff_ne_zero.mpr ?_
        rintro rfl
        rw [xvMalloc, if_pos (.inl rfl)] at served
        cases served
      · rw [Function.update_of_ne elsewhere] at allocated
        exact ih allocated
    next => exact ih allocated
  | @free _ _ _ freed _ _ _ _ ih =>
    rcases Classical.em (location = freed) with rfl | elsewhere
    · rw [Function.update_self] at allocated
      cases allocated
    · rw [Function.update_of_ne elsewhere] at allocated
      exact ih allocated
  | write _ _ _ _ _ ih => exact ih allocated

theorem Offered.spec (offered : Offered storage) : storage.location.page ≠ noPage ∧ storage.location.offset % xvAlign = 0 ∧
    storage.location.offset < pageSize ∧ (storage.location.offset = 0 ↔ ∃ frame, storage = .page frame) := by
  cases offered with
  | page picked =>
    obtain ⟨positive, _⟩ := PageAllocator.frame _ picked
    exact ⟨Nat.ne_of_gt positive, rfl, show 0 < pageSize by decide, iff_of_true rfl ⟨_, rfl⟩⟩
  | @object _ _ _ location size reachable allocated =>
    obtain ⟨layout, lists, models⟩ := reachable.models
    obtain ⟨block, offset⟩ := models.holds.header allocated
    have present := (models.heap.frames (layout.inside block).1).1
    have aligned := layout.aligned block
    have ends := layout.ends block
    have room := (⟨size, false⟩ : Block).size_le
    have behind := models.holds.behind allocated
    have positive := live_positive reachable allocated
    simp only [xvAlign_eq, pageSize_eq] at *
    refine ⟨present, ?_, ?_, iff_of_false ?_ nofun⟩
    · show location.offset % 4 = 0
      omega
    · show location.offset < 4096
      omega
    · show location.offset ≠ 0
      omega

theorem packObj_div (location : Location) : packObj location / pageSize = location.page % 2 ^ (bitsPerLong - pageShift) := by
  have word : 2 ^ bitsPerLong = 2 ^ (bitsPerLong - pageShift) * pageSize := by
    rcases Arch.bitsPerLong_cases with word | word <;> rw [word] <;> rfl
  have short : location.offset % pageSize < pageSize := Nat.mod_lt _ (by decide)
  have merged : pageSize * (location.page % 2 ^ (bitsPerLong - pageShift)) + location.offset % pageSize = _ :=
    Nat.two_pow_add_eq_or_of_lt short (location.page % 2 ^ (bitsPerLong - pageShift))
  have packed : packObj location = pageSize * (location.page % 2 ^ (bitsPerLong - pageShift)) + location.offset % pageSize := by
    rw [packObj, word, Nat.mul_mod_mul_right, Nat.mul_comm, merged]
    rfl
  rw [packed, Nat.mul_add_div (by decide), Nat.div_eq_of_lt short, Nat.add_zero]

/-- The packed place is found again exactly when the address of its page fits in an
unsigned long. -/
theorem packs_iff (zram : Zram Cpu) (index : UInt32) (offered : Offered storage) :
    Packs zram index storage ↔ storage.location.page * pageSize < 2 ^ bitsPerLong := by
  obtain ⟨present, aligned, short, kind⟩ := offered.spec
  have small : index.toNat % 2 ^ 32 = index.toNat := Nat.mod_eq_of_lt index.toNat_lt
  have entry : (zramInsertObj zram index.toNat storage.location).table index.toNat = packObj storage.location := Function.update_self ..
  have found : zramFindObj (zramInsertObj zram index.toNat storage.location) index.toNat =
      if packObj storage.location = 0 then none else some ⟨packObj storage.location / pageSize, packObj storage.location % pageSize⟩ := by
    simp only [zramFindObj, small, entry]
  constructor
  · intro packs
    have same := packs.found
    have nonzero : packObj storage.location ≠ 0 := entry ▸ packs.present
    rw [found, if_neg nonzero] at same
    have page := congrArg Location.page (Option.some.inj same)
    rw [packObj_div] at page
    have low : storage.location.page < 2 ^ (bitsPerLong - pageShift) := by
      rw [← page]
      exact Nat.mod_lt _ (Nat.two_pow_pos _)
    have word : 2 ^ (bitsPerLong - pageShift) * pageSize = 2 ^ bitsPerLong := by
      rcases Arch.bitsPerLong_cases with word | word <;> rw [word] <;> rfl
    rw [← word]
    exact Nat.mul_lt_mul_of_pos_right low (by decide)
  · intro low
    have placed : Placed storage := ⟨low, present, aligned, short, kind⟩
    have found := found.trans ((if_neg placed.ne_zero).trans (congrArg some placed.unpack))
    refine ⟨found, entry ▸ placed.ne_zero, ?_, fun location there zero => ?_⟩
    · rw [zramIsZeroPage, small, entry, placed.even]
      rfl
    · cases found.symm.trans there
      exact kind.mp zero

end Packing

section Sample
local instance paeArch : Arch := ⟨32, 64, by decide⟩

def highPage : PageAllocator := PageAllocator.offering ⟨2 ^ 20, fun _ => 0⟩ (by decide) (by decide) (by decide)

def emptyTable : Zram Unit := ⟨⟨⟨fun _ _ => 0, ∅⟩, xvCreatePool⟩, fun _ => 0, none, 0, false, 0, 0⟩

theorem highPage_offered : Offered (.page (2 ^ 20)) := by
  have picked : highPage.pick ∅ = some ⟨2 ^ 20, fun _ => 0⟩ := by simp [highPage, PageAllocator.offering]
  exact .page picked

def lowPage : PageAllocator := PageAllocator.offering ⟨1, fun _ => 0⟩ Nat.one_pos (by decide) (by decide)

theorem lowPage_offered : Offered (.page 1) := by
  have picked : lowPage.pick ∅ = some ⟨1, fun _ => 0⟩ := by simp [lowPage, PageAllocator.offering]
  exact .page picked

theorem lowObject_offered : Offered (.object ⟨1, 4⟩ 100) := by
  have created : Reachable ∅ ⟨⟨fun _ _ => 0, ∅⟩, xvCreatePool⟩ fun _ => none := .create fun _ _ => 0
  have reachable := created.malloc 100 lowPage
  obtain ⟨served, location⟩ : (xvMalloc ⟨⟨fun _ _ => 0, ∅⟩, xvCreatePool⟩ 100 lowPage).ret = 0 ∧
      (xvMalloc ⟨⟨fun _ _ => 0, ∅⟩, xvCreatePool⟩ 100 lowPage).location = ⟨1, 4⟩ := by decide +kernel
  rw [liveAfterMalloc, if_pos served, location] at reachable
  exact .object reachable (Function.update_self ..)

/-- A low page and an object are found again; the first page above 4 GB would be if its
address were one of 32 bits. -/
theorem packs_iff_sample : Packs emptyTable 5 (.page 1) ∧ Packs emptyTable 6 (.object ⟨1, 4⟩ 100) ∧
    (Packs emptyTable 5 (.page (2 ^ 20)) ↔ 2 ^ 20 * pageSize < 2 ^ 32) :=
  ⟨(packs_iff emptyTable 5 lowPage_offered).mpr (by decide), (packs_iff emptyTable 6 lowObject_offered).mpr (by decide),
    packs_iff emptyTable 5 highPage_offered⟩

/-- The entry of the first page above 4 GB says that there is no page. -/
theorem high_page_lost : Offered (.page (2 ^ 20)) ∧ zramFindObj (zramInsertObj emptyTable 5 ⟨2 ^ 20, 0⟩) 5 = none :=
  ⟨highPage_offered, by decide⟩

end Sample
end Compcache.ZramScale
