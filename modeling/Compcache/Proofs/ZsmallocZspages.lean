import Compcache.Library.Slab
import Compcache.Library.Windows
import Compcache.Proofs.ZsmallocFields

/-! One zspage: where its objects lie, and what the pages and the memory say of it. -/

namespace Compcache.Zsmalloc
open Library Library.PagedMemory Library.Carving Library.Windows

section Zspages
variable [Arch] [Sparse]

/-- A zspage: its class, its pages in order, and its free objects. -/
structure Zspage where
  classIdx : Nat
  first : Page
  rest : List Page
  free : List Nat
  known : classIdx < zsSizeClasses
  length : rest.length + 1 = classOrder classIdx
  nodup : (first :: rest).Nodup
  frames : ∀ page ∈ first :: rest, 0 < page ∧ page < 2 ^ pfnBits
  freeNodup : free.Nodup
  freeBound : ∀ slot ∈ free, slot < classObjects classIdx

namespace Zspage
variable (z : Zspage) {state after : ZsState} {slot other index position address : Nat} {frame : Page}

def slab : Slab (classObjects z.classIdx) := ⟨z.free, z.freeNodup, z.freeBound⟩

def withSlab (slab : Slab (classObjects z.classIdx)) :
    Zspage := { z with free := slab.free, freeNodup := slab.nodup, freeBound := slab.bound }

def pages : List Page := z.first :: z.rest
def size : Nat := classSize z.classIdx
def row (slot : Nat) : Nat := slot * z.size / pageSize
def page (slot : Nat) : Page := z.pages.getD (z.row slot) noPage
def objIdx (slot : Nat) : Nat := slot - firstSlot pageSize z.size (z.row slot)
def offset (slot : Nat) : Nat := slot * z.size % pageSize
def handle (slot : Nat) : Nat := objLocationToHandle (z.page slot) (z.objIdx slot)

/-- Its free objects, and behind them the slot that reaches beyond its last page. -/
def chain : List Nat := z.slab.free ++ List.range' (classObjects z.classIdx) (classSlots z.classIdx - classObjects z.classIdx)

def group : FullnessGroup :=
  if z.slab.inuse = 0 then .empty
  else if z.slab.inuse = classObjects z.classIdx then .full
  else if z.slab.inuse ≤ classObjects z.classIdx / fullnessThresholdFrac then .almostEmpty
  else .almostFull

variable {z}

@[simp] theorem pages_length : z.pages.length = classOrder z.classIdx := z.length

theorem page_at (inside : slot < classSlots z.classIdx) : z.pages[z.row slot]? = some (z.page slot) := by
  have before : slot * z.size < classOrder z.classIdx * pageSize := (lt_firstSlot_iff (classSize_pos _)).mp inside
  have less : z.row slot < z.pages.length := by
    rw [pages_length, row]
    exact Nat.div_lt_of_lt_mul (before.trans_eq (Nat.mul_comm ..))
  rw [page, List.getD_eq_getElem _ _ less, List.getElem?_eq_getElem less]

theorem page_mem (inside : slot < classSlots z.classIdx) : z.page slot ∈ z.pages := List.mem_of_getElem? (page_at inside)

theorem slot_eq (z : Zspage) (slot : Nat) : slot = firstSlot pageSize z.size (z.row slot) + z.objIdx slot := by
  have lower := ((row_iff (classSize_pos z.classIdx) (by decide : 0 < pageSize)).mp (show slot * classSize z.classIdx / pageSize =
    z.row slot from rfl)).1
  exact (Nat.add_sub_cancel' lower).symm

theorem offset_slot (z : Zspage) (slot : Nat) : firstOffset pageSize z.size (z.row slot) + z.objIdx slot * z.size = z.offset slot :=
  offset_eq (classSize_pos z.classIdx) (by decide) rfl

theorem fits (inside : slot < classSlots z.classIdx) : HandleFits (z.page slot) (z.objIdx slot) := by
  obtain ⟨positive, frame⟩ := z.frames _ (page_mem inside)
  refine ⟨positive, frame, ?_⟩
  have sum := z.offset_slot slot
  have within : z.offset slot < pageSize := Nat.mod_lt _ (by decide)
  have large : z.objIdx slot * 32 ≤ z.objIdx slot * z.size := Nat.mul_le_mul_left _ (classSize_bounds z.classIdx).1
  have few : 2 ^ 8 ≤ 2 ^ objIndexBits := Nat.pow_le_pow_right (by decide) bits_split.2
  rw [pageSize_eq] at within sum
  omega

theorem row_of_page {first second : Nat} (one : z.pages[first]? = some frame) (two : z.pages[second]? = some frame) : first = second :=
  (List.getElem?_inj (List.getElem?_eq_some_iff.mp one).1 z.nodup).mp (one.trans two.symm)

theorem handle_inj (inside : slot < classSlots z.classIdx) (inside' : other < classSlots z.classIdx)
    (same : z.handle slot = z.handle other) :
    slot = other := by
  have locations := congrArg objHandleToLocation same
  rw [handle, handle, objHandleToLocation_handle (fits inside), objHandleToLocation_handle (fits inside')] at locations
  obtain ⟨samePage, sameIdx⟩ := Prod.mk.inj locations
  have sameRow := row_of_page (page_at inside) (samePage ▸ page_at inside')
  rw [z.slot_eq slot, z.slot_eq other, sameRow, sameIdx]

def Extent (z : Zspage) (slot : Nat) : Page → Nat → Prop := Within pageSize z.pages (slot * z.size) z.size

theorem Extent.mem (extent : z.Extent slot frame address) : frame ∈ z.pages := Within.mem extent

theorem Extent.unique (extent : z.Extent slot frame address) (extent' : z.Extent other frame address) : slot = other := by
  obtain ⟨position, lower, upper, here, rfl⟩ := extent
  obtain ⟨position', lower', upper', here', same⟩ := extent'
  have sameRow := row_of_page here here'
  obtain rfl : position = position' := by rw [← Nat.div_add_mod position pageSize, ← Nat.div_add_mod position' pageSize, sameRow, same]
  have one : position / z.size = slot := Nat.div_eq_of_lt_le (by rwa [Nat.mul_comm] at lower ⊢) (by rwa [Nat.succ_mul])
  have two : position / z.size = other := Nat.div_eq_of_lt_le (by rwa [Nat.mul_comm] at lower' ⊢) (by rwa [Nat.succ_mul])
  exact one.symm.trans two

theorem offset_mod (z : Zspage) (slot : Nat) : z.offset slot % 8 = 0 := by
  obtain ⟨_, _, unit, aligned⟩ := classSize_bounds z.classIdx
  rw [offset, size, aligned, pageSize_eq, Nat.mod_mod_of_dvd _ (by decide), Nat.mul_left_comm, Nat.mul_mod_right]

theorem link_aligned (z : Zspage) (slot : Nat) : z.offset slot / linkBytes * linkBytes = z.offset slot := by
  have multiple := z.offset_mod slot
  rcases linkBytes_cases with word | word <;> rw [word] <;> omega

theorem link_within (z : Zspage) (slot : Nat) : z.offset slot + linkBytes ≤ pageSize := by
  have multiple := z.offset_mod slot
  have within : z.offset slot < pageSize := Nat.mod_lt _ (by decide)
  rw [pageSize_eq] at within ⊢
  rcases linkBytes_cases with word | word <;> omega

theorem link_extent (inside : slot < classSlots z.classIdx) (lower : z.offset slot ≤ address)
    (upper : address < z.offset slot + linkBytes) :
    z.Extent slot (z.page slot) address := by
  have within := z.link_within slot
  have sizes := (classSize_bounds z.classIdx).1
  have small : linkBytes ≤ 8 := by rcases linkBytes_cases with word | word <;> omega
  have split : pageSize * z.row slot + z.offset slot = slot * z.size := Nat.div_add_mod _ _
  refine ⟨pageSize * z.row slot + address, by omega, ?_, ?_, ?_⟩
  · show _ < _ + classSize z.classIdx
    omega
  · rw [Nat.mul_add_div (by decide), Nat.div_eq_of_lt (by omega), Nat.add_zero, page_at inside]
  · rw [Nat.mul_add_mod, Nat.mod_eq_of_lt (by omega)]

def link (z : Zspage) (memory : Memory Page) (slot : Nat) : Nat := memory.load (z.page slot) (z.offset slot) linkBytes

theorem link_kept {before later : Memory Page} (inside : slot < classSlots z.classIdx) (changes : ChangesOnly (z.Extent other) before later)
    (apart : slot ≠ other) : z.link later slot = z.link before slot :=
  changes.load fun _ lower upper extent => apart ((link_extent inside lower upper).unique extent)

/-- What a zspage looks like in its pages and in the memory. -/
structure Shaped (state : ZsState) (z : Zspage) : Prop where
  flag : ∀ {row page}, z.pages[row]? = some page → (isFirstPage (state.pages page) = true ↔ row = 0)
  next : ∀ {row page}, z.pages[row]? = some page → getNextPage state page = z.pages.getD (row + 1) noPage
  sub : ∀ {row page}, z.pages[row + 1]? = some page →
    (state.pages page).privateWord = z.first ∧ (state.pages page).freelist = firstOffset pageSize z.size (row + 1)
  mapping : getZspageMapping (state.pages z.first) = (z.classIdx, z.group)
  inuse : (state.pages z.first).inuse = z.slab.inuse
  objects : (state.pages z.first).objects = classObjects z.classIdx
  freelist : (state.pages z.first).freelist = z.chain.head?.elim 0 z.handle
  threaded : Threaded (z.link state.kernel.memory) z.handle 0 z.chain

theorem first_at (z : Zspage) : z.pages[0]? = some z.first := rfl

theorem Shaped.isFirst (shaped : z.Shaped state) : isFirstPage (state.pages z.first) = true := (shaped.flag z.first_at).mpr rfl

theorem Shaped.getFirstPage (shaped : z.Shaped state) (member : frame ∈ z.pages) : getFirstPage state frame = z.first := by
  obtain ⟨index, here⟩ := List.mem_iff_getElem?.mp member
  rw [Zsmalloc.getFirstPage]
  cases index with
  | zero =>
    obtain rfl : z.first = frame := Option.some.inj here
    rw [if_pos shaped.isFirst]
  | succ index => rw [if_neg fun first => Nat.succ_ne_zero index ((shaped.flag here).mp first), (shaped.sub here).1]

theorem Shaped.offset (shaped : z.Shaped state) (inside : slot < classSlots z.classIdx) :
    objIdxToOffset (state.pages (z.page slot)) (z.objIdx slot) z.size = z.offset slot := by
  have here := page_at inside
  have sum := z.offset_slot slot
  rw [objIdxToOffset]
  cases row : z.row slot with
  | zero =>
    rw [row] at here sum
    rw [if_pos ((shaped.flag here).mpr rfl), ← sum, firstOffset, firstSlot_zero, Nat.zero_mul, Nat.zero_sub]
  | succ row' =>
    rw [row] at here sum
    rw [if_neg fun first => Nat.succ_ne_zero row' ((shaped.flag here).mp first), (shaped.sub here).2, sum]

theorem Shaped.fullness (shaped : z.Shaped state) : getFullnessGroup (state.pages z.first) = z.group := by
  rw [getFullnessGroup, group, shaped.inuse, shaped.objects]

theorem mem_chain (member : slot ∈ z.chain) : slot < classSlots z.classIdx ∧ ¬ z.slab.Used slot := by
  have bounds := classSlots_bounds z.classIdx
  rcases List.mem_append.mp member with free | beyond
  · exact ⟨(z.slab.bound slot free).trans_le bounds.1, fun used => used.2 free⟩
  · rw [List.mem_range'_1] at beyond
    exact ⟨by omega, fun used => absurd used.1 (by omega)⟩

theorem used_inside (used : z.slab.Used slot) : slot < classSlots z.classIdx := used.1.trans_le (classSlots_bounds _).1

theorem Shaped.congr (shaped : z.Shaped state) (pages : ∀ page ∈ z.pages, after.pages page = state.pages page)
    (links : ∀ slot ∈ z.chain, z.link after.kernel.memory slot = z.link state.kernel.memory slot) : z.Shaped after := by
  have same {row : Nat} {page : Page} (here : z.pages[row]? = some page) := pages page (List.mem_of_getElem? here)
  have first := same z.first_at
  refine ⟨fun here => ?_, fun here => ?_, fun here => ?_, ?_, ?_, ?_, ?_, shaped.threaded.congr links⟩
  · rw [same here]
    exact shaped.flag here
  · rw [getNextPage, same here]
    exact shaped.next here
  · rw [same here]
    exact shaped.sub here
  · rw [first, shaped.mapping]
  · rw [first, shaped.inuse]
  · rw [first, shaped.objects]
  · rw [first, shaped.freelist]

end Zspage
end Zspages
end Compcache.Zsmalloc
