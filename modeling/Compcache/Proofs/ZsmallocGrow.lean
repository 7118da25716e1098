import Compcache.Proofs.ZsmallocInit

/-! A class grows by a zspage, or does not: there was no memory for its first page, or
there was for that one and not for all the others. -/

namespace Compcache.Zsmalloc
open Library Library.PagedMemory Library.Carving

section Grow
variable [Arch] [Sparse] {before linked state after : ZsState} {z : Zspage} {classIdx : Nat} {allocators : Nat → SparseAllocator}

/-- The numbers of a class are those it was made with. -/
def ZsState.Sized (state : ZsState) : Prop :=
  ∀ classIdx, (state.sizeClass classIdx).size = classSize classIdx ∧ (state.sizeClass classIdx).index = classIdx ∧
    (state.sizeClass classIdx).zspageOrder = classOrder classIdx

theorem Linking.next (linking : Linking (classOrder z.classIdx) before z.pages linked) {row : Nat} {page : Page}
    (here : z.pages[row]? = some page) :
    getNextPage linked page = z.pages.getD (row + 1) noPage := by
  have flag := linking.flag here
  have last := linking.last here
  rw [getNextPage, isLastPage, isFirstPage]
  have inside : row < classOrder z.classIdx := Zspage.pages_length (z := z) ▸ (List.getElem?_eq_some_iff.mp here).1
  split
  next ends =>
    rw [List.getD_eq_default]
    rw [Zspage.pages_length, last.mp ends]
  next goes =>
    have less : row + 1 < z.pages.length := by
      rw [Zspage.pages_length]
      have : row + 1 ≠ classOrder z.classIdx := mt last.mpr goes
      omega
    have there : z.pages[row + 1]? = some (z.pages.getD (row + 1) noPage) := by
      rw [List.getD_eq_getElem _ _ less, List.getElem?_eq_getElem less]
    split
    next first =>
      obtain rfl : row = 0 := flag.mp first
      exact linking.second here there
    next inner =>
      obtain ⟨previous, rfl⟩ := Nat.exists_eq_succ_of_ne_zero (mt flag.mpr inner)
      exact linking.lru here there

/-- A zspage with nothing in use, made of pages that nobody owned. -/
structure Made (classIdx : Nat) (before : ZsState) (z : Zspage) (after : ZsState) : Prop where
  sameClass : z.classIdx = classIdx
  unused : z.slab.inuse = 0
  shaped : z.Shaped after
  fresh : ∀ page ∈ z.pages, page ∉ before.kernel.owned
  owned : after.kernel.owned = before.kernel.owned ∪ z.pages.toFinset
  outside : ∀ page ∉ z.pages, after.kernel.memory page = before.kernel.memory page ∧ after.pages page = before.pages page
  classes : after.sizeClass = before.sizeClass

theorem Filling.shaped (linking : Linking (classOrder z.classIdx) before z.pages linked)
    (filling : Filling z linked (classOrder z.classIdx) state)
    (free : z.free = List.range (classObjects z.classIdx)) (pages : ∀ page, page ≠ z.first → after.pages page = state.pages page)
    (first : ∃ mapping, after.pages z.first = { state.pages z.first with
      mapping := mapping, freelist := objLocationToHandle z.first 0, inuse := 0, objects := classObjects z.classIdx })
    (mapped : getZspageMapping (after.pages z.first) = (z.classIdx, .empty)) (memory : after.kernel.memory = state.kernel.memory) :
        z.Shaped after := by
  obtain ⟨mapping, first⟩ := first
  have unused : z.slab.inuse = 0 := by
    show classObjects z.classIdx - z.free.length = 0
    rw [free, List.length_range, Nat.sub_self]
  have bounds := classSlots_bounds z.classIdx
  have chain : z.chain = List.range' 0 (classSlots z.classIdx) := by
    have joined := List.range'_append_1 (s := 0) (m := classObjects z.classIdx) (n := classSlots z.classIdx - classObjects z.classIdx)
    rw [Nat.zero_add, Nat.add_sub_cancel' bounds.1] at joined
    show z.free ++ _ = _
    rw [free, List.range_eq_range', joined]
  have some_ : 0 < classSlots z.classIdx := (classObjects_bounds z.classIdx).1.trans bounds.1
  have zero : z.handle 0 = objLocationToHandle z.first 0 := by
    rw [Zspage.handle, Zspage.page, Zspage.objIdx, Zspage.row, Nat.zero_mul, Nat.zero_div, firstSlot_zero]
    rfl
  have flags (page : Page) : (after.pages page).pgPrivate = (linked.pages page).pgPrivate ∧ (after.pages page).pgPrivate2 =
    (linked.pages page).pgPrivate2 ∧
      (after.pages page).privateWord = (linked.pages page).privateWord ∧ (after.pages page).lruNext = (linked.pages page).lruNext := by
    rcases Classical.em (page = z.first) with rfl | apart
    · rw [first, filling.same]
      exact ⟨rfl, rfl, rfl, rfl⟩
    · rw [pages page apart, filling.same]
      exact ⟨rfl, rfl, rfl, rfl⟩
  refine ⟨fun {row page} here => ?_, fun {row page} here => ?_, fun {row page} here => ?_, ?_, ?_, ?_, ?_, ?_⟩
  · rw [isFirstPage, (flags page).1]
    exact linking.flag here
  · rw [getNextPage, isLastPage, isFirstPage, (flags page).1, (flags page).2.1, (flags page).2.2.1, (flags page).2.2.2]
    exact linking.next here
  · have apart : page ≠ z.first := by
      rintro rfl
      exact Nat.succ_ne_zero row (Zspage.row_of_page here z.first_at)
    have inside : row + 1 < classOrder z.classIdx := Zspage.pages_length (z := z) ▸ (List.getElem?_eq_some_iff.mp here).1
    exact ⟨(flags page).2.2.1.trans (linking.sub here), by rw [pages page apart, filling.sub inside here]⟩
  · rw [mapped, Zspage.group, if_pos unused]
  · rw [first, unused]
  · rw [first]
  · rw [first, chain]
    show objLocationToHandle z.first 0 = _
    obtain ⟨count, same⟩ := Nat.exists_eq_succ_of_ne_zero (Nat.ne_of_gt some_)
    rw [same, List.range'_succ]
    exact zero.symm
  · rw [chain, memory]
    refine Threaded.range' _ 0 (fun slot _ upper => ?_) fun slot last => ?_
    · rw [filling.links slot (show slot < classSlots z.classIdx by omega), if_pos (by omega)]
    · rw [filling.links slot (show slot < classSlots z.classIdx by omega), if_neg (by omega)]

/-- How a class grows. -/
inductive Grows (state : ZsState) (classIdx : Nat) (allocators : Nat → SparseAllocator) : Option (Page × ZsState) → Prop
  | refused (none_ : given allocators (classOrder classIdx) 0 state.kernel.owned = 0) :
      Grows state classIdx allocators (some (noPage, state))
  | short (some_ : 0 < given allocators (classOrder classIdx) 0 state.kernel.owned)
      (fewer : given allocators (classOrder classIdx) 0 state.kernel.owned < classOrder classIdx) : Grows state classIdx allocators none
  | made {z : Zspage} {after : ZsState} (all : given allocators (classOrder classIdx) 0 state.kernel.owned = classOrder classIdx)
      (made : Made classIdx state z after) : Grows state classIdx allocators (some (z.first, after))

theorem given_le {left i : Nat} {owned : Finset Page} : given allocators left i owned ≤ left := by
  induction left generalizing i owned with
  | zero => exact Nat.le_refl 0
  | succ left ih =>
    rw [given]
    split
    · exact Nat.zero_le _
    · exact Nat.succ_le_succ ih

theorem Filling.start (z : Zspage) (linked : ZsState) : Filling z linked 0 linked :=
  ⟨rfl, rfl, fun _ _ => rfl, fun _ => rfl, fun _ _ => rfl, fun below => absurd below (Nat.not_lt_zero _), fun slot less => by
    rw [firstSlot_zero] at less
    exact absurd less (Nat.not_lt_zero slot)⟩

theorem Linking.made {first : Page} {rest : List Page} (linking : Linking (classOrder classIdx) state (first :: rest) linked)
    (known : classIdx < zsSizeClasses)
    (length : rest.length + 1 = classOrder classIdx) {sizeClass : SizeClass} (size : sizeClass.size = classSize classIdx)
    (order : sizeClass.zspageOrder = classOrder classIdx) :
    ∃ filled z, initZspage linked first sizeClass = some filled ∧ z.first = first ∧ isFirstPage (filled.pages first) = true ∧
      filled.sizeClass = state.sizeClass ∧
      Made classIdx state z (filled.modifyPage first fun page => setZspageMapping
        { page with freelist := objLocationToHandle first 0, inuse := 0, objects := sizeClass.zspageOrder * pageSize / sizeClass.size }
          classIdx .empty) := by
  let z : Zspage :=
    ⟨classIdx, first, rest, List.range (classObjects classIdx), known, length, linking.nodup, linking.frames, List.nodup_range,
    fun _ => List.mem_range.mp⟩
  have same : Linking (classOrder z.classIdx) state z.pages linked := linking
  have zero : 0 < classOrder z.classIdx → 0 = firstOffset pageSize z.size 0 := fun _ => by
    rw [firstOffset, firstSlot_zero, Nat.zero_mul, Nat.zero_sub]
  obtain ⟨filled, init, filling⟩ := initPages_spec same.next (Filling.start z linked) (Nat.zero_add _) zero
  have leading : isFirstPage (linked.pages first) = true := (linking.flag (show (first :: rest)[0]? = some first from rfl)).mpr rfl
  have flagged : isFirstPage (filled.pages first) = true := by
    rw [isFirstPage, filling.same]
    exact leading
  have here : (filled.modifyPage first fun page => setZspageMapping
      { page with freelist := objLocationToHandle first 0, inuse := 0, objects := sizeClass.zspageOrder * pageSize / sizeClass.size }
        classIdx .empty).pages first =
        setZspageMapping { filled.pages first with
          freelist := objLocationToHandle first 0, inuse := 0, objects :=
              sizeClass.zspageOrder * pageSize / sizeClass.size } classIdx .empty := by
    rw [modifyPage_pages, if_pos rfl]
  refine ⟨filled, z, ?_, rfl, flagged, by rw [filling.classes, linking.classes], rfl, ?_, ?_, linking.fresh, ?_, ?_, ?_⟩
  · rw [initZspage, if_neg (not_not_intro leading), size, order]
    exact init
  · show classObjects classIdx - (List.range (classObjects classIdx)).length = 0
    rw [List.length_range, Nat.sub_self]
  · refine filling.shaped same rfl (fun page apart => ?_) ?_ ?_ rfl
    · rw [modifyPage_pages, if_neg apart]
    · refine ⟨(setZspageMapping (filled.pages first) classIdx .empty).mapping, here.trans ?_⟩
      rw [size, order]
      rfl
    · exact (congrArg getZspageMapping here).trans (getZspageMapping_set _ known _)
  · rw [modifyPage_kernel, filling.owned, linking.owned]
    rfl
  · intro page outside
    have apart : page ≠ first := fun same => outside (same ▸ List.mem_cons_self)
    have inner : page ∉ z.rest := fun member => outside (List.mem_cons_of_mem _ member)
    obtain ⟨memory, pages⟩ := linking.outside page outside
    rw [modifyPage_kernel, modifyPage_pages, if_neg apart, filling.kept page inner, filling.outside page outside]
    exact ⟨memory, pages⟩
  · rw [modifyPage_sizeClass, filling.classes, linking.classes]

omit [Arch] [Sparse] in
theorem freeZspage_flag {firstPage : Page} (freed : freeZspage state firstPage = some after) :
    isFirstPage (after.pages firstPage) = false := by
  unfold freeZspage at freed
  split at freed
  next => cases freed
  next =>
    obtain ⟨kernel, _, rfl⟩ := Option.map_eq_some_iff.mp freed
    simp only [isFirstPage, modifyPage_pages, if_true]

theorem growClass_spec (sized : state.Sized) (known : classIdx < zsSizeClasses) (allocators : Nat → SparseAllocator) :
    Grows state classIdx allocators (growClass state classIdx allocators) := by
  obtain ⟨size, index, order⟩ := sized classIdx
  have start : Linking (classOrder classIdx) state [] state := .start state
  obtain ⟨all, took, total⟩ := allocPages_spec allocators noPage start (Nat.zero_add _) rfl (absurd rfl)
  rw [List.length_nil, Nat.zero_add] at total
  have took : Took (classOrder classIdx) state state []
      (allocPages (state.sizeClass classIdx).zspageOrder allocators (state.sizeClass classIdx).zspageOrder 0 noPage noPage state) all := by
    rw [order]
    exact took
  rw [growClass, allocZspage]
  generalize allocPages (state.sizeClass classIdx).zspageOrder allocators (state.sizeClass classIdx).zspageOrder 0 noPage noPage state =
    result at took
  obtain ⟨enough, firstPage, linked⟩ := result
  have first : firstPage = all.headD noPage := took.first
  cases all with
  | nil =>
    obtain rfl : linked = state := took.same rfl
    obtain rfl : firstPage = noPage := first
    cases enough with
    | true => exact absurd (took.enough.mp rfl) (Nat.ne_of_lt (classOrder_bounds classIdx).1)
    | false => exact .refused total.symm
  | cons page rest =>
    obtain rfl : firstPage = page := first
    have present : firstPage ≠ noPage := Nat.ne_of_gt (took.linking.frames firstPage List.mem_cons_self).1
    cases enough with
    | true =>
      have length : rest.length + 1 = classOrder classIdx := took.enough.mp rfl
      obtain ⟨filled, z, init, rfl, flagged, classes, made⟩ := took.linking.made known length size order
      have flagged' : isFirstPage ((filled.modifyPage z.first fun page => { page with
          freelist := objLocationToHandle z.first 0, inuse := 0, objects :=
              (state.sizeClass classIdx).zspageOrder * pageSize / (state.sizeClass classIdx).size }).pages z.first) = true := by
        rw [modifyPage_pages, if_pos rfl]
        exact flagged
      dsimp only
      simp only [init, Option.map_some, Option.bind_some]
      rw [if_neg present, if_neg (not_not_intro flagged'), modifyPage_sizeClass, classes, index, modifyPage_modifyPage]
      exact .made (total.symm.trans length) made
    | false =>
      have fewer : given allocators (classOrder classIdx) 0 state.kernel.owned ≠ classOrder classIdx := fun same =>
        Bool.false_ne_true (took.enough.mpr (total.trans same))
      have crash : ((freeZspage linked firstPage).map fun state => (firstPage, state)).bind (fun made =>
          if made.1 = noPage then some (noPage, made.2)
          else if ¬ isFirstPage (made.2.pages made.1) then none
          else some (made.1, made.2.modifyPage made.1 fun page => setZspageMapping page (made.2.sizeClass classIdx).index .empty)) =
              none := by
        cases freed : freeZspage linked firstPage with
        | none => rfl
        | some after =>
          rw [Option.map_some, Option.bind_some]
          dsimp only
          rw [if_neg present, freeZspage_flag freed, if_pos Bool.false_ne_true]
      dsimp only
      rw [if_neg present]
      have short : Grows state classIdx allocators none := .short (total ▸ Nat.succ_pos _) (Nat.lt_of_le_of_ne given_le fewer)
      rw [← crash] at short
      exact short

end Grow
end Compcache.Zsmalloc
