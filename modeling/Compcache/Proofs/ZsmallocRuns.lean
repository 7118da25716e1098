import Compcache.Library.Ownership
import Compcache.Proofs.ZsmallocMapping
import Compcache.ZsmallocRuns

/-! Whole runs of a pool of zsmalloc, whatever order its tasks take their steps in. -/

namespace Compcache.Zsmalloc
open Library Library.PagedMemory Library.Carving Library.Ownership Library.Runs

section Runs
variable [Arch] [Sparse] {others : Finset Page} {state after : ZsState} {zspages : SortedMap Zspage} {z : Zspage}
    {first slot size : Nat} {tail : List Nat}
  {live : Nat → Option Nat}

theorem Heap.same_zspage {first second slot other : Nat} {z z' : Zspage} (heap : Heap others state zspages)
    (here : zspages.find? first = some z)
    (there : zspages.find? second = some z') (inside : slot < classSlots z.classIdx) (inside' : other < classSlots z'.classIdx)
    (same : z.handle slot = z'.handle other) : first = second ∧ z = z' ∧ slot = other := by
  have locations := congrArg objHandleToLocation same
  rw [Zspage.handle, Zspage.handle, objHandleToLocation_handle (Zspage.fits inside),
    objHandleToLocation_handle (Zspage.fits inside')] at locations
  obtain rfl : first = second := heap.apart here there (Zspage.page_mem inside) ((Prod.mk.inj locations).1 ▸ Zspage.page_mem inside')
  obtain rfl := Option.some.inj (here.symm.trans there)
  exact ⟨rfl, rfl, Zspage.handle_inj inside inside' same⟩

/-- The objects in use are those handed out, and large enough. -/
structure Objects (live : Nat → Option Nat) (zspages : SortedMap Zspage) : Prop where
  handed : ∀ {handle size}, live handle = some size → ∃ first z slot, zspages.find? first = some z ∧ z.slab.Used slot ∧
    handle = z.handle slot ∧ size ≤ z.size
  used : ∀ {first z slot}, zspages.find? first = some z → z.slab.Used slot → ∃ size, live (z.handle slot) = some size

theorem Objects.fresh (objects : Objects live zspages) (heap : Heap others state zspages) (here : zspages.find? first = some z)
    (inside : slot < classSlots z.classIdx) (free : ¬ z.slab.Used slot) : live (z.handle slot) = none := by
  cases given : live (z.handle slot) with
  | none => rfl
  | some size =>
    obtain ⟨second, z', other, there, used, same, _⟩ := objects.handed given
    obtain ⟨rfl, rfl, rfl⟩ := heap.same_zspage here there inside (Zspage.used_inside used) same
    exact absurd used free

theorem Objects.take (objects : Objects live zspages) (here : zspages.find? z.first = some z) (free : z.free = slot :: tail)
    (fits : size ≤ z.size) : Objects (Function.update live (z.handle slot) (some size))
    (zspages.insert z.first (z.withSlab z.slab.take)) := by
  have used {other : Nat} : z.slab.take.Used other ↔ z.slab.Used other ∨ other = slot := Slab.used_take free
  constructor
  · intro handle asked found
    rcases Classical.em (handle = z.handle slot) with rfl | different
    · rw [Function.update_self] at found
      cases found
      exact ⟨z.first, z.withSlab z.slab.take, slot, SortedMap.find?_insert_self .., used.mpr (.inr rfl), rfl, fits⟩
    · rw [Function.update_of_ne different] at found
      obtain ⟨first, z', other, there, inUse, same, large⟩ := objects.handed found
      rcases Classical.em (first = z.first) with rfl | elsewhere
      · obtain rfl := Option.some.inj (here.symm.trans there)
        exact ⟨z.first, z.withSlab z.slab.take, other, SortedMap.find?_insert_self .., used.mpr (.inl inUse), same, large⟩
      · exact ⟨first, z', other, by rw [SortedMap.find?_insert_ne _ _ elsewhere, there], inUse, same, large⟩
  · intro first z' other there inUse
    rw [SortedMap.find?_insert] at there
    rcases Classical.em (z'.handle other = z.handle slot) with same | different
    · exact ⟨size, by rw [same, Function.update_self]⟩
    · rw [Function.update_of_ne different]
      split at there
      next =>
        cases there
        rcases used.mp inUse with old | rfl
        · have before := objects.used here old
          exact before
        · exact absurd rfl different
      next => exact objects.used there inUse

theorem Objects.give (objects : Objects live zspages) (heap : Heap others state zspages) (here : zspages.find? z.first = some z)
    (inUse : z.slab.Used slot) :
    Objects (Function.update live (z.handle slot) none) (zspages.insert z.first (z.withSlab (z.slab.give slot inUse))) := by
  have used {other : Nat} : (z.slab.give slot inUse).Used other ↔ z.slab.Used other ∧ other ≠ slot := Slab.used_give inUse
  constructor
  · intro handle asked found
    rcases Classical.em (handle = z.handle slot) with rfl | different
    · rw [Function.update_self] at found
      cases found
    · rw [Function.update_of_ne different] at found
      obtain ⟨first, z', other, there, inUse', same, large⟩ := objects.handed found
      rcases Classical.em (first = z.first) with rfl | elsewhere
      · obtain rfl := Option.some.inj (here.symm.trans there)
        refine ⟨z.first, z.withSlab (z.slab.give slot inUse), other, SortedMap.find?_insert_self .., used.mpr ⟨inUse', ?_⟩, same, large⟩
        rintro rfl
        exact different same
      · exact ⟨first, z', other, by rw [SortedMap.find?_insert_ne _ _ elsewhere, there], inUse', same, large⟩
  · intro first z' other there inUse'
    rw [SortedMap.find?_insert] at there
    split at there
    next =>
      cases there
      obtain ⟨old, apart⟩ := used.mp inUse'
      rw [Function.update_of_ne]
      · have before := objects.used here old
        exact before
      · exact fun same => apart (Zspage.handle_inj (Zspage.used_inside old) (Zspage.used_inside inUse) same)
    next elsewhere =>
      rw [Function.update_of_ne]
      · exact objects.used there inUse'
      · exact fun same => elsewhere (heap.same_zspage there here (Zspage.used_inside inUse') (Zspage.used_inside inUse) same).1

theorem Objects.grow (objects : Objects live zspages) (new : zspages.find? z.first = none) (unused : z.slab.inuse = 0) :
    Objects live (zspages.insert z.first z) := by
  constructor
  · intro handle asked found
    obtain ⟨first, z', other, there, rest⟩ := objects.handed found
    refine ⟨first, z', other, ?_, rest⟩
    rw [SortedMap.find?_insert_ne, there]
    rintro rfl
    rw [new] at there
    cases there
  · intro first z' other there inUse
    rw [SortedMap.find?_insert] at there
    split at there
    next =>
      cases there
      exact absurd inUse (Slab.unused unused)
    next => exact objects.used there inUse

theorem Objects.release (objects : Objects live zspages) (here : zspages.find? z.first = some z) (unused : z.slab.inuse = 0) :
    Objects live (zspages.erase z.first) := by
  constructor
  · intro handle asked found
    obtain ⟨first, z', other, there, inUse, rest⟩ := objects.handed found
    refine ⟨first, z', other, ?_, inUse, rest⟩
    rw [SortedMap.find?_erase_ne, there]
    rintro rfl
    obtain rfl := Option.some.inj (here.symm.trans there)
    exact Slab.unused unused inUse
  · intro first z' other there inUse
    rw [SortedMap.find?_erase] at there
    split at there
    next => cases there
    next => exact objects.used there inUse

/-! What is read from an object while others change. -/

theorem Heap.read {count : Nat} (heap : Heap others state zspages) (here : zspages.find? first = some z)
    (inside : slot < classObjects z.classIdx) :
    state.read (z.handle slot) count = some (z.bytes state.kernel.memory slot count) := by
  rw [ZsState.read, zsMapObject_spec (heap.shaped here) inside (heap.sized _).1]
  rfl

theorem Heap.read_kept {second : SortedMap Zspage} (heap : Heap others state zspages) (heap' : Heap others after second)
    (slab : Slab (classObjects z.classIdx))
    (here : zspages.find? first = some z) (there : second.find? first = some (z.withSlab slab)) (inside : slot < classObjects z.classIdx)
    (few : size ≤ z.size)
    (same : ∀ page address, z.Extent slot page address → after.kernel.memory page address = state.kernel.memory page address) :
    after.read (z.handle slot) size = state.read (z.handle slot) size := by
  have moved : after.read ((z.withSlab slab).handle slot) size = some ((z.withSlab slab).bytes after.kernel.memory slot size) :=
    heap'.read there inside
  rw [show after.read (z.handle slot) size = some (z.bytes after.kernel.memory slot size) from moved, heap.read here inside,
    Zspage.bytes_congr inside few same]

theorem Objects.read_touch {handle : Nat} {slab : Slab (classObjects z.classIdx)} (objects : Objects live zspages)
    (heap : Heap others state zspages)
    (heap' : Heap others after (zspages.insert z.first (z.withSlab slab))) (here : zspages.find? z.first = some z)
    (memory : ChangesOnly (z.Extent slot) state.kernel.memory after.kernel.memory) (inUse : live handle = some size)
    (apart : handle ≠ z.handle slot) :
    after.read handle size = state.read handle size := by
  obtain ⟨first, z', other, there, used, rfl, large⟩ := objects.handed inUse
  rcases Classical.em (first = z.first) with rfl | elsewhere
  · obtain rfl := Option.some.inj (here.symm.trans there)
    refine heap.read_kept heap' slab here (SortedMap.find?_insert_self ..) used.1 large fun page address extent =>
      memory page address fun extent' => apart ?_
    rw [extent.unique extent']
  · refine heap.read_kept heap' z'.slab there ?_ used.1 large fun page address extent => memory page address fun extent' => elsewhere ?_
    · rw [SortedMap.find?_insert_ne _ _ elsewhere, there]
      rfl
    · exact heap.apart there here extent.mem extent'.mem

theorem Objects.read_kept {handle : Nat} {second : SortedMap Zspage} (objects : Objects live zspages) (heap : Heap others state zspages)
    (heap' : Heap others after second)
    (kept : ∀ {first z slot}, zspages.find? first = some z → z.slab.Used slot →
      second.find? first = some z ∧ ∀ page ∈ z.pages, after.kernel.memory page = state.kernel.memory page)
    (inUse : live handle = some size) : after.read handle size = state.read handle size := by
  obtain ⟨first, z', other, there, used, rfl, large⟩ := objects.handed inUse
  obtain ⟨still, same⟩ := kept there used
  exact heap.read_kept heap' z'.slab there still used.1 large fun page address extent => congrFun (same page extent.mem) address

end Runs
end Compcache.Zsmalloc
