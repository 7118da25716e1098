import Compcache.Library.SortedMap
import Compcache.Proofs.ZsmallocGrow
import Compcache.Proofs.ZsmallocObjects

/-! All zspages of a pool, by their first pages: they share no page, and each is on the
list of its group. -/

namespace Compcache.Zsmalloc
open Library Library.PagedMemory Library.Carving

section Heap
variable [Arch] [Sparse] {others : Finset Page} {state after : ZsState} {zspages : SortedMap Zspage} {z : Zspage}
    {first slot : Nat} {page : Page}

/-- The zspages of a state. -/
structure Heap (others : Finset Page) (state : ZsState) (zspages : SortedMap Zspage) : Prop where
  sized : state.Sized
  keyed : ∀ {first z}, zspages.find? first = some z → z.first = first
  shaped : ∀ {first z}, zspages.find? first = some z → z.Shaped state
  apart : ∀ {first second z z' page}, zspages.find? first = some z → zspages.find? second = some z' → page ∈ z.pages →
    page ∈ z'.pages → first = second
  owned : ∀ {first z page}, zspages.find? first = some z → page ∈ z.pages → page ∈ state.kernel.owned ∧ page ∉ others
  others : others ⊆ state.kernel.owned
  lists : ∀ classIdx (group : FullnessGroup), group.Listed → ((state.sizeClass classIdx).fullnessList group).Nodup ∧
    ∀ page, page ∈ (state.sizeClass classIdx).fullnessList group ↔ ∃ z, zspages.find? page = some z ∧
      z.classIdx = classIdx ∧ z.group = group

theorem Heap.onList (heap : Heap others state zspages) (here : zspages.find? z.first = some z) :
    OnList z.first z.group (state.sizeClass z.classIdx).fullnessList := by
  intro group listed
  obtain ⟨nodup, members⟩ := heap.lists z.classIdx group listed
  refine ⟨nodup, (members z.first).trans ⟨?_, fun same => ⟨z, here, rfl, same.symm⟩⟩⟩
  rintro ⟨found, there, _, same⟩
  rw [here] at there
  cases there
  exact same.symm

theorem Heap.create (kernel : Kernel) (pages : Page → PageStruct) : Heap kernel.owned (.create kernel pages) .empty := by
  refine ⟨fun _ => ⟨rfl, rfl, rfl⟩, ?_, ?_, ?_, ?_, Finset.Subset.refl _, ?_⟩
  · intro _ _ found
    cases found
  · intro _ _ found
    cases found
  · intro _ _ _ _ _ found
    cases found
  · intro _ _ _ found
    cases found
  · refine fun _ _ _ => ⟨List.nodup_nil, fun _ => ⟨fun member => absurd member List.not_mem_nil, ?_⟩⟩
    rintro ⟨_, found, _⟩
    cases found

theorem Heap.congr (heap : Heap others state zspages) (sized : after.Sized)
    (pages : ∀ {first z}, zspages.find? first = some z → z.Shaped after)
    (owned : after.kernel.owned = state.kernel.owned) (lists : ∀ classIdx, (after.sizeClass classIdx).fullnessList =
      (state.sizeClass classIdx).fullnessList) :
    Heap others after zspages := by
  refine ⟨sized, heap.keyed, pages, heap.apart, ?_, ?_, ?_⟩
  · rw [owned]
    exact heap.owned
  · rw [owned]
    exact heap.others
  · intro classIdx
    rw [lists]
    exact heap.lists classIdx

theorem Heap.setPages (heap : Heap others state zspages) (classIdx count : Nat) :
    Heap others (state.setClass classIdx { state.sizeClass classIdx with pagesAllocated := count }) zspages := by
  have class_ (other : Nat) :
    ∃ pagesAllocated, (state.setClass classIdx { state.sizeClass classIdx with pagesAllocated := count }).sizeClass other =
      { state.sizeClass other with pagesAllocated := pagesAllocated } := by
    rcases Classical.em (other = classIdx) with rfl | apart
    · exact ⟨count, Function.update_self ..⟩
    · exact ⟨_, Function.update_of_ne apart _ _⟩
  refine heap.congr (fun other => ?_) (fun found => (heap.shaped found).congr (fun _ _ => rfl) fun _ _ => rfl) rfl fun other => ?_
  · obtain ⟨_, same⟩ := class_ other
    rw [same]
    exact heap.sized other
  · obtain ⟨_, same⟩ := class_ other
    rw [same]

theorem Zspage.Shaped.beside (shaped : z.Shaped state) (same : ∀ page ∈ z.pages, after.pages page = state.pages page)
    (memory : ∀ page ∈ z.pages, after.kernel.memory page = state.kernel.memory page) : z.Shaped after :=
  shaped.congr same fun slot member => by rw [Zspage.link, Zspage.link, Memory.load, Memory.load,
    memory _ (Zspage.page_mem (Zspage.mem_chain member).1)]

theorem Heap.touch (heap : Heap others state zspages) (here : zspages.find? z.first = some z) {slab : Slab (classObjects z.classIdx)}
    (shaped : (z.withSlab slab).Shaped after) (touched : Touched z slot (z.withSlab slab).group state after) :
    Heap others after (zspages.insert z.first (z.withSlab slab)) := by
  obtain ⟨lists, classes, moved⟩ := touched.classes
  have elsewhere {first : Nat} {found : Zspage} (there : zspages.find? first = some found) (different : first ≠ z.first) {page : Page}
    (member : page ∈ found.pages) :
      page ∉ z.pages := fun inside => different (heap.apart there here member inside)
  have class_ (other : Nat) : (after.sizeClass other) = { state.sizeClass other with
      fullnessList := if other = z.classIdx then lists else (state.sizeClass other).fullnessList } := by
    rw [classes]
    split
    next same => rw [same, Function.update_self]
    next apart => rw [Function.update_of_ne apart]
  refine ⟨fun other => ?_, ?_, ?_, ?_, ?_, ?_, ?_⟩
  · rw [class_]
    exact heap.sized other
  · intro first found there
    rw [SortedMap.find?_insert] at there
    split at there
    next same =>
      cases there
      exact same.symm
    next => exact heap.keyed there
  · intro first found there
    rw [SortedMap.find?_insert] at there
    split at there
    next =>
      cases there
      exact shaped
    next different =>
      refine (heap.shaped there).beside (fun page member => touched.pages page ?_) fun page member => ?_
      · rintro rfl
        exact elsewhere there different member List.mem_cons_self
      · exact funext fun address => touched.memory page address fun extent => elsewhere there different member extent.mem
  · intro first second found found' page there there' member member'
    rw [SortedMap.find?_insert] at there there'
    split at there <;> split at there'
    next same same' => rw [same, same']
    next same different =>
      cases there
      exact absurd member (elsewhere there' different member')
    next different same' =>
      cases there'
      exact absurd member' (elsewhere there different member)
    next => exact heap.apart there there' member member'
  · intro first found page there member
    rw [touched.owned]
    rw [SortedMap.find?_insert] at there
    split at there
    next =>
      cases there
      exact heap.owned here member
    next => exact heap.owned there member
  · rw [touched.owned]
    exact heap.others
  · intro classIdx group listed
    obtain ⟨nodup, members⟩ := heap.lists classIdx group listed
    have changed (page : Page) : (∃ found, (zspages.insert z.first (z.withSlab slab)).find? page = some found ∧ found.classIdx = classIdx ∧
      found.group = group) ↔
        if page = z.first then z.classIdx = classIdx ∧ (z.withSlab slab).group = group
        else page ∈ (state.sizeClass classIdx).fullnessList group := by
      rw [SortedMap.find?_insert]
      split
      next => exact ⟨fun ⟨_, there, rest⟩ => by cases there; exact rest, fun rest => ⟨_, rfl, rest⟩⟩
      next => exact (members page).symm
    have list : (after.sizeClass classIdx).fullnessList = if classIdx =
      z.classIdx then lists else (state.sizeClass classIdx).fullnessList := by rw [class_]
    rw [list]
    split
    next same =>
      obtain ⟨nodup', members'⟩ := moved group listed
      refine ⟨nodup', fun page => (members' page).trans (Iff.trans ?_ (changed page).symm)⟩
      rw [same]
      split
      next => exact ⟨fun equal => ⟨rfl, equal.symm⟩, fun both => both.2.symm⟩
      next => exact Iff.rfl
    next different =>
      refine ⟨nodup, fun page => Iff.trans ?_ (changed page).symm⟩
      split
      next same =>
        rw [members, same]
        refine iff_of_false ?_ fun both => different both.1.symm
        rintro ⟨_, there, equal, _⟩
        rw [here] at there
        cases there
        exact different equal.symm
      next => exact Iff.rfl

theorem Made.new {classIdx : Nat} (made : Made classIdx state z after) (heap : Heap others state zspages) :
    zspages.find? z.first = none := by
  cases there : zspages.find? z.first with
  | none => rfl
  | some found =>
    have inside : z.first ∈ found.pages := heap.keyed there ▸ List.mem_cons_self
    exact absurd (heap.owned there inside).1 (made.fresh z.first List.mem_cons_self)

theorem Heap.grow {classIdx : Nat} (heap : Heap others state zspages) (made : Made classIdx state z after) :
    Heap others after (zspages.insert z.first z) := by
  have elsewhere {first : Nat} {found : Zspage} (there : zspages.find? first = some found) {page : Page} (member : page ∈ found.pages) :
      page ∉ z.pages :=
    fun inside => made.fresh page inside (heap.owned there member).1
  have new := made.new heap
  refine ⟨?_, ?_, ?_, ?_, ?_, ?_, ?_⟩
  · intro other
    rw [made.classes]
    exact heap.sized other
  · intro first found there
    rw [SortedMap.find?_insert] at there
    split at there
    next same =>
      cases there
      exact same.symm
    next => exact heap.keyed there
  · intro first found there
    rw [SortedMap.find?_insert] at there
    split at there
    next =>
      cases there
      exact made.shaped
    next =>
      exact (heap.shaped there).beside (fun page member => (made.outside page (elsewhere there member)).2)
        fun page member => (made.outside page (elsewhere there member)).1
  · intro first second found found' page there there' member member'
    rw [SortedMap.find?_insert] at there there'
    split at there <;> split at there'
    next same same' => rw [same, same']
    next same different =>
      cases there
      exact absurd member (elsewhere there' member')
    next different same' =>
      cases there'
      exact absurd member' (elsewhere there member)
    next => exact heap.apart there there' member member'
  · intro first found page there member
    rw [made.owned, Finset.mem_union]
    rw [SortedMap.find?_insert] at there
    split at there
    next =>
      cases there
      exact ⟨.inr (List.mem_toFinset.mpr member), fun other => made.fresh page member (heap.others other)⟩
    next => exact ⟨.inl (heap.owned there member).1, (heap.owned there member).2⟩
  · rw [made.owned]
    exact heap.others.trans Finset.subset_union_left
  · intro classIdx group listed
    rw [made.classes]
    obtain ⟨nodup, members⟩ := heap.lists classIdx group listed
    refine ⟨nodup, fun page => (members page).trans ?_⟩
    rw [SortedMap.find?_insert]
    split
    next same =>
      rw [same, new]
      refine iff_of_false (fun ⟨_, there, _⟩ => by cases there) ?_
      rintro ⟨_, there, _, equal⟩
      cases there
      rw [← equal, (Zspage.group_empty _).mpr made.unused] at listed
      exact absurd listed FullnessGroup.empty_unlisted
    next => exact Iff.rfl

theorem freeZspage_spec (shaped : z.Shaped state) (unused : z.slab.inuse = 0) (owned : z.first ∈ state.kernel.owned) :
    ∃ after, freeZspage state z.first = some after ∧ after.kernel = state.kernel.without z.first ∧ after.sizeClass = state.sizeClass ∧
      ∀ page, page ≠ z.first → after.pages page = state.pages page := by
  unfold freeZspage
  rw [if_neg]
  · exact ⟨_, congrArg (Option.map _) (Kernel.freePage_owned owned), rfl, rfl, fun page apart => Function.update_of_ne apart _ _⟩
  · rw [shaped.isFirst, shaped.inuse, unused]
    simp

theorem Heap.release (heap : Heap others state zspages) (here : zspages.find? z.first = some z) (unused : z.slab.inuse = 0)
    (kernel : after.kernel = state.kernel.without z.first) (classes : after.sizeClass = state.sizeClass)
    (pages : ∀ page, page ≠ z.first → after.pages page = state.pages page) : Heap others after (zspages.erase z.first) := by
  have kept {first : Nat} {found : Zspage} (there : (zspages.erase z.first).find? first = some found) : first ≠ z.first ∧
      zspages.find? first = some found := by
    rw [SortedMap.find?_erase] at there
    split at there
    next => cases there
    next different => exact ⟨different, there⟩
  have apart {first : Nat} {found : Zspage} (there : zspages.find? first = some found) (different : first ≠ z.first) {page : Page}
    (member : page ∈ found.pages) :
      page ≠ z.first := by
    rintro rfl
    exact different (heap.apart there here member List.mem_cons_self)
  have owned : after.kernel.owned = state.kernel.owned.erase z.first := by rw [kernel]; rfl
  have own : z.first ∉ others := (heap.owned here List.mem_cons_self).2
  refine ⟨?_, ?_, ?_, ?_, ?_, ?_, ?_⟩
  · intro other
    rw [classes]
    exact heap.sized other
  · exact fun there => heap.keyed (kept there).2
  · intro first found there
    obtain ⟨different, there⟩ := kept there
    exact (heap.shaped there).beside (fun page member => pages page (apart there different member)) fun page _ => by rw [kernel]; rfl
  · exact fun there there' => heap.apart (kept there).2 (kept there').2
  · intro first found page there member
    obtain ⟨different, there⟩ := kept there
    rw [owned]
    exact ⟨Finset.mem_erase_of_ne_of_mem (apart there different member) (heap.owned there member).1, (heap.owned there member).2⟩
  · rw [owned]
    exact fun page member => Finset.mem_erase_of_ne_of_mem (ne_of_mem_of_not_mem member own) (heap.others member)
  · intro classIdx group listed
    rw [classes]
    obtain ⟨nodup, members⟩ := heap.lists classIdx group listed
    refine ⟨nodup, fun page => (members page).trans ?_⟩
    rw [SortedMap.find?_erase]
    split
    next same =>
      rw [same, here]
      refine iff_of_false ?_ fun ⟨_, there, _⟩ => by cases there
      rintro ⟨_, there, _, equal⟩
      cases there
      rw [← equal, (Zspage.group_empty _).mpr unused] at listed
      exact absurd listed FullnessGroup.empty_unlisted
    next => exact Iff.rfl

theorem Heap.write (heap : Heap others state zspages) (here : zspages.find? z.first = some z) (used : z.slab.Used slot)
    {memory : Memory Page}
    (changes : ChangesOnly (z.Extent slot) state.kernel.memory memory) : Heap others (state.setMemory memory) zspages := by
  refine heap.congr heap.sized (fun {first found} there => ?_) rfl fun _ => rfl
  rcases Classical.em (first = z.first) with rfl | different
  · obtain rfl := Option.some.inj (here.symm.trans there)
    refine (heap.shaped here).congr (fun _ _ => rfl) fun other member => ?_
    refine Zspage.link_kept (Zspage.mem_chain member).1 changes ?_
    rintro rfl
    exact (Zspage.mem_chain member).2 used
  · refine (heap.shaped there).beside (fun _ _ => rfl) fun page member => funext fun address => ?_
    exact changes page address fun extent => different (heap.apart there here member extent.mem)

end Heap
end Compcache.Zsmalloc
