import Compcache.Proofs.ZsmallocHeap

/-! An object as `zs_map_object` shows it: on one page, or on two that follow one another. -/

namespace Compcache.Zsmalloc
open Library Library.PagedMemory Library.Carving Library.Windows

section Mapping
variable [Arch] [Sparse] {others : Finset Page} {state : ZsState} {zspages : SortedMap Zspage} {z : Zspage}
    {slot address : Nat} {page : Page}

namespace Zspage

def window (z : Zspage) (slot : Nat) : List Page :=
  if z.offset slot + z.size ≤ pageSize then [z.page slot] else [z.page slot, z.pages.getD (z.row slot + 1) noPage]

theorem row_offset (z : Zspage) (slot : Nat) : z.row slot * pageSize + z.offset slot = slot * z.size := by
  rw [Nat.mul_comm (z.row slot)]
  exact Nat.div_add_mod _ _

theorem next_at (inside : slot < classObjects z.classIdx) (beyond : ¬ z.offset slot + z.size ≤ pageSize) :
    z.pages[z.row slot + 1]? = some (z.pages.getD (z.row slot + 1) noPage) := by
  have sum := z.row_offset slot
  have whole : classObjects z.classIdx * z.size ≤ classOrder z.classIdx * pageSize := Nat.div_mul_le_self _ _
  have upto : (slot + 1) * z.size ≤ classObjects z.classIdx * z.size := Nat.mul_le_mul_right _ inside
  have less : z.row slot + 1 < z.pages.length := by
    rw [pages_length]
    refine Nat.lt_of_not_le fun few => ?_
    have short : classOrder z.classIdx * pageSize ≤ (z.row slot + 1) * pageSize := Nat.mul_le_mul_right _ few
    rw [Nat.succ_mul] at upto short
    omega
  rw [List.getD_eq_getElem _ _ less, List.getElem?_eq_getElem less]

theorem window_at (inside : slot < classObjects z.classIdx) {index : Nat} (here : (z.window slot)[index]? = some page) :
    z.pages[z.row slot + index]? = some page := by
  have first := page_at (z := z) (inside.trans_le (classSlots_bounds _).1)
  unfold window at here
  match index with
  | 0 => split at here <;> exact first.trans here
  | 1 =>
    split at here
    next => cases here
    next beyond => exact (next_at inside beyond).trans here
  | index + 2 => split at here <;> cases here

theorem window_nodup (inside : slot < classObjects z.classIdx) : (z.window slot).Nodup := by
  unfold window
  split
  next => exact List.nodup_singleton _
  next beyond =>
    refine List.nodup_cons.mpr ⟨fun member => ?_, List.nodup_singleton _⟩
    have same := List.mem_singleton.mp member
    have row :=
      row_of_page (page_at (z := z) (inside.trans_le (classSlots_bounds _).1)) ((next_at inside beyond).trans (congrArg some same.symm))
    omega

theorem window_long (z : Zspage) (slot : Nat) : z.offset slot + z.size ≤ (z.window slot).length * pageSize := by
  have small := (classSize_bounds z.classIdx).2.1
  have within : z.offset slot < pageSize := Nat.mod_lt _ (by decide)
  unfold window
  split
  next fits => exact fits.trans_eq (Nat.one_mul _).symm
  next =>
    show _ ≤ 2 * pageSize
    rw [size]
    omega

theorem window_extent (inside : slot < classObjects z.classIdx)
    (within : Within pageSize (z.window slot) (z.offset slot) z.size page address) :
    z.Extent slot page address := by
  obtain ⟨position, lower, upper, here, same⟩ := within
  have sum := z.row_offset slot
  refine ⟨z.row slot * pageSize + position, by omega, by omega, ?_, ?_⟩
  · rw [Nat.mul_comm, Nat.mul_add_div (by decide)]
    exact window_at inside here
  · rw [Nat.mul_comm, Nat.mul_add_mod, same]

end Zspage

theorem zsMapObject_spec (shaped : z.Shaped state) (inside : slot < classObjects z.classIdx)
    (size : (state.sizeClass z.classIdx).size = z.size) :
    zsMapObject state (z.handle slot) = some (z.window slot, z.offset slot) := by
  have within : slot < classSlots z.classIdx := inside.trans_le (classSlots_bounds _).1
  have fits := Zspage.fits within
  have location : objHandleToLocation (z.handle slot) = (z.page slot, z.objIdx slot) := objHandleToLocation_handle fits
  unfold zsMapObject
  rw [if_neg (show z.handle slot ≠ 0 from handle_ne_zero fits)]
  simp only [location, shaped.getFirstPage (Zspage.page_mem within), shaped.isFirst, not_true_eq_false, if_false, shaped.mapping, size,
    shaped.offset within,
    Zspage.window]
  split
  next => rfl
  next beyond =>
    have there := Zspage.next_at inside beyond
    have present : z.pages.getD (z.row slot + 1) noPage ≠ noPage := Nat.ne_of_gt (z.frames _ (List.mem_of_getElem? there)).1
    rw [shaped.next (Zspage.page_at within), if_neg present]

def Zspage.bytes (z : Zspage) (memory : Memory Page) (slot count : Nat) : List UInt8 := readWindow pageSize memory (z.window slot)
    (z.offset slot) count

theorem Zspage.bytes_congr {before after : Memory Page} {count : Nat} (inside : slot < classObjects z.classIdx) (few : count ≤ z.size)
    (same : ∀ page address, z.Extent slot page address → after page address = before page address) :
    z.bytes after slot count = z.bytes before slot count :=
  readWindow_congr fun page address within =>
    same page address (window_extent inside (within.mono (Nat.le_refl _) (Nat.add_le_add_left few _)))

theorem Zspage.write_changes {offset : Nat} {data : List UInt8} (memory : Memory Page) (inside : slot < classObjects z.classIdx)
    (fits : offset + data.length ≤ z.size) :
    ChangesOnly (z.Extent slot) memory (writeWindow pageSize memory (z.window slot) (z.offset slot + offset) data) :=
  (ChangesOnly.writeWindow (by decide)).mono fun page address within =>
    window_extent inside (within.mono (Nat.le_add_right ..) (by omega))

theorem Zspage.bytes_write {offset count : Nat} {data : List UInt8} (memory : Memory Page) (inside : slot < classObjects z.classIdx)
    (few : count ≤ z.size)
    (fits : offset + data.length ≤ count) :
    z.bytes (writeWindow pageSize memory (z.window slot) (z.offset slot + offset) data) slot count =
      splice (z.bytes memory slot count) offset data := by
  have long := z.window_long slot
  exact readWindow_write (by decide) (window_nodup inside) (by omega) fits

end Mapping
end Compcache.Zsmalloc
