import Compcache.Proofs.ZsmallocZspages

/-! One object taken from a zspage, or given back: the links, the counts, and the list
its zspage is on. -/

namespace Compcache.Zsmalloc
open Library Library.PagedMemory Library.Carving

/-- The groups that have a list. -/
def FullnessGroup.Listed (group : FullnessGroup) : Prop := group.toNat < FullnessGroup.nr.toNat

theorem FullnessGroup.empty_unlisted : ¬ FullnessGroup.empty.Listed := by
  unfold Listed
  decide

theorem FullnessGroup.almostFull_listed : FullnessGroup.almostFull.Listed := by
  unfold Listed
  decide

theorem FullnessGroup.almostEmpty_listed : FullnessGroup.almostEmpty.Listed := by
  unfold Listed
  decide

/-- A page is on the list of its group, if that has one, and on no other. -/
def OnList (page : Page) (group : FullnessGroup) (lists : FullnessGroup → List Page) : Prop :=
  ∀ other : FullnessGroup, other.Listed → (lists other).Nodup ∧ (page ∈ lists other ↔ other = group)

/-- A page is moved to the list of a group. -/
def Moved (page : Page) (group : FullnessGroup) (before after : FullnessGroup → List Page) : Prop :=
  ∀ other : FullnessGroup, other.Listed → (after other).Nodup ∧ ∀ frame, frame ∈ after other ↔
    if frame = page then other = group else frame ∈ before other

section Lists
variable {page : Page} {sizeClass : SizeClass} {current new : FullnessGroup} {lists : FullnessGroup → List Page}

theorem OnList.moved (listed : OnList page current lists) : Moved page current lists lists := by
  intro other here
  refine ⟨(listed other here).1, fun frame => ?_⟩
  split
  next same => rw [same, (listed other here).2]
  next => exact Iff.rfl

theorem removeZspage_spec (listed : OnList page current sizeClass.fullnessList) : ∃ lists, removeZspage page sizeClass current =
    some { sizeClass with fullnessList := lists } ∧
    ∀ other : FullnessGroup, other.Listed → (lists other).Nodup ∧ ∀ frame, frame ∈ lists other ↔
      frame ≠ page ∧ frame ∈ sizeClass.fullnessList other := by
  have elsewhere {other : FullnessGroup} (here : other.Listed) (different : other ≠ current) (frame : Page) :
      frame ∈ sizeClass.fullnessList other ↔ frame ≠ page ∧ frame ∈ sizeClass.fullnessList other := by
    refine ⟨fun member => ⟨?_, member⟩, And.right⟩
    rintro rfl
    exact different (((listed other here).2).mp member)
  unfold removeZspage
  split
  next none_ =>
    refine ⟨sizeClass.fullnessList, rfl, fun other here => ⟨(listed other here).1, elsewhere here ?_⟩⟩
    rintro rfl
    exact Nat.not_lt.mpr none_ here
  next some_ =>
    have here : current.Listed := Nat.lt_of_not_le some_
    obtain ⟨nodup, onIt⟩ := listed current here
    refine ⟨Function.update sizeClass.fullnessList current ((sizeClass.fullnessList current).erase page), ?_, fun other there => ?_⟩
    · split
      next empty => exact absurd (onIt.mpr rfl) (by rw [empty]; exact List.not_mem_nil)
      next only single =>
        have member := onIt.mpr rfl
        rw [single, List.mem_singleton] at member
        rw [single, member, List.erase_cons_head]
      next => rfl
    · rcases Classical.em (other = current) with rfl | different
      · rw [Function.update_self]
        exact ⟨nodup.erase page, fun frame => nodup.mem_erase_iff⟩
      · rw [Function.update_of_ne different]
        exact ⟨(listed other there).1, elsewhere there different⟩

theorem insertZspage_spec (page : Page) (sizeClass : SizeClass)
    (absent : ∀ other : FullnessGroup, other.Listed →
      (sizeClass.fullnessList other).Nodup ∧ page ∉ sizeClass.fullnessList other) (new : FullnessGroup) :
    ∃ lists, insertZspage page sizeClass new = { sizeClass with fullnessList := lists } ∧ Moved page new sizeClass.fullnessList lists := by
  have elsewhere {other : FullnessGroup} (here : other.Listed) (different : other ≠ new) (frame : Page) :
      frame ∈ sizeClass.fullnessList other ↔ if frame = page then other = new else frame ∈ sizeClass.fullnessList other := by
    split
    next same => exact ⟨fun member => absurd (same ▸ member) (absent other here).2, fun equal => absurd equal different⟩
    next => exact Iff.rfl
  unfold insertZspage
  split
  next none_ =>
    refine ⟨sizeClass.fullnessList, rfl, fun other here => ⟨(absent other here).1, elsewhere here ?_⟩⟩
    rintro rfl
    exact Nat.not_lt.mpr none_ here
  next some_ =>
    refine ⟨_, rfl, fun other there => ?_⟩
    rcases Classical.em (other = new) with rfl | different
    · rw [Function.update_self]
      obtain ⟨nodup, outside⟩ := absent other there
      refine ⟨List.nodup_cons.mpr ⟨outside, nodup⟩, fun frame => ?_⟩
      rw [List.mem_cons]
      split
      next same => simp [same]
      next apart => simp [apart]
    · rw [Function.update_of_ne different]
      exact ⟨(absent other there).1, elsewhere there different⟩

theorem moved_lists (listed : OnList page current sizeClass.fullnessList) (new : FullnessGroup) :
    ∃ lists, (removeZspage page sizeClass current).map (fun sizeClass => insertZspage page sizeClass new) =
      some { sizeClass with fullnessList := lists } ∧
      Moved page new sizeClass.fullnessList lists := by
  obtain ⟨without, removed, rest⟩ := removeZspage_spec listed
  obtain ⟨lists, inserted, moved⟩ := insertZspage_spec page { sizeClass with fullnessList := without }
    (fun other here => ⟨(rest other here).1, fun member => (((rest other here).2 page).mp member).1 rfl⟩) new
  refine ⟨lists, by rw [removed, Option.map_some, inserted], fun other here => ⟨(moved other here).1, fun frame => ?_⟩⟩
  rw [(moved other here).2]
  split
  next => exact Iff.rfl
  next apart => exact ((rest other here).2 frame).trans (and_iff_right apart)

end Lists

/-- What `fix_fullness_group` does to a state: the mapping of the page, and the lists of its class. -/
structure Fixed (page : Page) (classIdx : Nat) (group : FullnessGroup) (before after : ZsState) : Prop where
  kernel : after.kernel = before.kernel
  others : ∀ frame, frame ≠ page → after.pages frame = before.pages frame
  here : ∃ mapping, after.pages page = { before.pages page with mapping := mapping }
  mapping : getZspageMapping (after.pages page) = (classIdx, group)
  classes : ∃ lists, after.sizeClass = Function.update before.sizeClass classIdx { before.sizeClass classIdx with fullnessList := lists } ∧
    Moved page group (before.sizeClass classIdx).fullnessList lists

theorem fixFullnessGroup_spec {state : ZsState} {page : Page} {classIdx : Nat} {current : FullnessGroup}
    (first : isFirstPage (state.pages page) = true)
    (known : classIdx < zsSizeClasses) (mapping : getZspageMapping (state.pages page) = (classIdx, current))
    (listed : OnList page current (state.sizeClass classIdx).fullnessList) :
    ∃ after, fixFullnessGroup state page = some (after, getFullnessGroup (state.pages page)) ∧
      Fixed page classIdx (getFullnessGroup (state.pages page)) state after := by
  rw [fixFullnessGroup, if_neg (not_not_intro first), mapping]
  show ∃ after, (if getFullnessGroup (state.pages page) = current then _ else _) = _ ∧ _
  split
  next same =>
    refine ⟨state, rfl, rfl, fun _ _ => rfl, ⟨_, rfl⟩, same.symm ▸ mapping, _, (Function.update_eq_self classIdx state.sizeClass).symm, ?_⟩
    exact same.symm ▸ listed.moved
  next =>
    obtain ⟨lists, changed, moved⟩ := moved_lists listed (getFullnessGroup (state.pages page))
    obtain ⟨without, removed, inserted⟩ := Option.map_eq_some_iff.mp changed
    rw [removed, Option.map_some, inserted]
    refine ⟨_, rfl, rfl, fun frame apart => Function.update_of_ne apart _ _, ⟨_, Function.update_self ..⟩, ?_, lists, rfl, moved⟩
    exact (congrArg getZspageMapping (Function.update_self ..)).trans (getZspageMapping_set _ known _)

section Objects
variable [Arch] [Sparse] {z : Zspage} {state after : ZsState} {slot : Nat} {tail : List Nat}

namespace Zspage

/-- The links, counts and lists of a zspage are brought up to date; its pages hang together as before. -/
theorem Shaped.update (shaped : z.Shaped state) {slab : Slab (classObjects z.classIdx)} {mapping : Nat}
    (others : ∀ frame, frame ≠ z.first → after.pages frame = state.pages frame)
    (here : after.pages z.first = { state.pages z.first with
      mapping := mapping, freelist := (z.withSlab slab).chain.head?.elim 0 z.handle, inuse := slab.inuse })
    (mapped : getZspageMapping (after.pages z.first) = (z.classIdx, (z.withSlab slab).group))
    (threaded : Threaded (z.link after.kernel.memory) z.handle 0 (z.withSlab slab).chain) : (z.withSlab slab).Shaped after := by
  have flags (frame : Page) : (after.pages frame).pgPrivate = (state.pages frame).pgPrivate ∧ (after.pages frame).pgPrivate2 =
    (state.pages frame).pgPrivate2 ∧
      (after.pages frame).privateWord = (state.pages frame).privateWord ∧ (after.pages frame).lruNext = (state.pages frame).lruNext := by
    rcases Classical.em (frame = z.first) with rfl | apart
    · rw [here]
      exact ⟨rfl, rfl, rfl, rfl⟩
    · rw [others frame apart]
      exact ⟨rfl, rfl, rfl, rfl⟩
  refine ⟨fun {index frame} found => ?_, fun {index frame} found => ?_, fun {index frame} found => ?_, mapped, ?_, ?_, ?_, threaded⟩
  · rw [isFirstPage, (flags frame).1]
    exact shaped.flag found
  · rw [getNextPage, isLastPage, isFirstPage, (flags frame).1, (flags frame).2.1, (flags frame).2.2.1, (flags frame).2.2.2]
    exact shaped.next found
  · have apart : frame ≠ z.first := by
      rintro rfl
      exact Nat.succ_ne_zero index (row_of_page found z.first_at)
    rw [others frame apart]
    exact shaped.sub found
  · show (after.pages z.first).inuse = _
    rw [here]
    rfl
  · show (after.pages z.first).objects = _
    rw [here]
    exact shaped.objects
  · show (after.pages z.first).freelist = _
    rw [here]
    rfl

end Zspage

/-- What an operation on one object of a zspage leaves as it is. -/
structure Touched (z : Zspage) (slot : Nat) (group : FullnessGroup) (before after : ZsState) : Prop where
  owned : after.kernel.owned = before.kernel.owned
  memory : ChangesOnly (z.Extent slot) before.kernel.memory after.kernel.memory
  pages : ∀ frame, frame ≠ z.first → after.pages frame = before.pages frame
  classes : ∃ lists, after.sizeClass =
    Function.update before.sizeClass z.classIdx { before.sizeClass z.classIdx with fullnessList := lists } ∧
    Moved z.first group (before.sizeClass z.classIdx).fullnessList lists

/-- A state in which the objects of a zspage are in order, and its list is not yet. -/
structure Loose (z : Zspage) (slot : Nat) (slab : Slab (classObjects z.classIdx)) (state middle : ZsState) : Prop where
  owned : middle.kernel.owned = state.kernel.owned
  memory : ChangesOnly (z.Extent slot) state.kernel.memory middle.kernel.memory
  pages : ∀ frame, frame ≠ z.first → middle.pages frame = state.pages frame
  classes : middle.sizeClass = state.sizeClass
  here : middle.pages z.first = { state.pages z.first with freelist := (z.withSlab slab).chain.head?.elim 0 z.handle, inuse := slab.inuse }
  threaded : Threaded (z.link middle.kernel.memory) z.handle 0 (z.withSlab slab).chain

theorem Loose.fix {slab : Slab (classObjects z.classIdx)} {middle : ZsState} (loose : Loose z slot slab state middle)
    (shaped : z.Shaped state)
    (listed : OnList z.first z.group (state.sizeClass z.classIdx).fullnessList) :
    ∃ after, fixFullnessGroup middle z.first = some (after, (z.withSlab slab).group) ∧ (z.withSlab slab).Shaped after ∧
      Touched z slot (z.withSlab slab).group state after := by
  have first : isFirstPage (middle.pages z.first) = true := by
    rw [loose.here]
    exact shaped.isFirst
  have mapping : getZspageMapping (middle.pages z.first) = (z.classIdx, z.group) := by
    rw [loose.here]
    exact shaped.mapping
  have group : getFullnessGroup (middle.pages z.first) = (z.withSlab slab).group := by
    rw [getFullnessGroup, loose.here, shaped.objects]
    rfl
  obtain ⟨after, fixed, rest⟩ := fixFullnessGroup_spec first z.known mapping (by rw [loose.classes]; exact listed)
  rw [group] at fixed rest
  obtain ⟨written, same⟩ := rest.here
  rw [loose.here] at same
  refine ⟨after, fixed, ?_, ?_, ?_, ?_, ?_⟩
  · exact shaped.update (fun frame apart => (rest.others frame apart).trans (loose.pages frame apart)) same rest.mapping
      (by rw [rest.kernel]; exact loose.threaded)
  · rw [rest.kernel, loose.owned]
  · rw [rest.kernel]
    exact loose.memory
  · exact fun frame apart => (rest.others frame apart).trans (loose.pages frame apart)
  · rw [← loose.classes]
    exact rest.classes

theorem takeObject_spec (shaped : z.Shaped state) (free : z.free = slot :: tail) (size : (state.sizeClass z.classIdx).size = z.size)
    (listed : OnList z.first z.group (state.sizeClass z.classIdx).fullnessList) :
    ∃ after, takeObject state z.classIdx z.first = some (after, z.handle slot) ∧ (z.withSlab z.slab.take).Shaped after ∧
      Touched z slot (z.withSlab z.slab.take).group state after := by
  have chain : z.chain = slot :: (z.withSlab z.slab.take).chain := by
    show z.free ++ _ = slot :: (z.free.tail ++ _)
    rw [free]
    rfl
  have inside : slot < classSlots z.classIdx := (Zspage.mem_chain (chain ▸ List.mem_cons_self)).1
  have head : (state.pages z.first).freelist = z.handle slot := by rw [shaped.freelist, chain]; rfl
  have location : objHandleToLocation (z.handle slot) = (z.page slot, z.objIdx slot) := objHandleToLocation_handle (Zspage.fits inside)
  obtain ⟨following, threaded⟩ : z.link state.kernel.memory slot = (z.withSlab z.slab.take).chain.head?.elim 0 z.handle ∧
      Threaded (z.link state.kernel.memory) z.handle 0 (z.withSlab z.slab.take).chain := by
    have threaded := shaped.threaded
    rw [chain] at threaded
    exact threaded
  let poisoned := state.setMemory (state.kernel.memory.write (z.page slot) (z.offset slot) (List.replicate linkBytes poisonInuse))
  let middle := poisoned.modifyPage z.first fun page =>
    { page with freelist := z.link state.kernel.memory slot, inuse := (page.inuse + 1) % 2 ^ 16 }
  have step : takeObject state z.classIdx z.first = (fixFullnessGroup middle z.first).map fun fixed => (fixed.1, z.handle slot) := by
    unfold takeObject
    simp only [head, location, size, shaped.offset inside, z.link_aligned slot]
    rfl
  have memory : ChangesOnly (z.Extent slot) state.kernel.memory middle.kernel.memory :=
    ChangesOnly.write _ _ _ _ fun address lower upper => Zspage.link_extent inside lower (by rwa [List.length_replicate] at upper)
  have counted : ((state.pages z.first).inuse + 1) % 2 ^ 16 = z.slab.take.inuse := by
    have used : z.slab.take.inuse = z.slab.inuse + 1 := Slab.inuse_take free
    have most := z.slab.take.inuse_le.trans_lt (classObjects_bounds z.classIdx).2
    rw [shaped.inuse, ← used, Nat.mod_eq_of_lt most]
  have loose : Loose z slot z.slab.take state middle := by
    refine ⟨rfl, memory, fun frame apart => Function.update_of_ne apart _ _, rfl, ?_, threaded.congr fun other member => ?_⟩
    · rw [show middle.pages z.first = _ from Function.update_self .., ← following, ← counted]
      rfl
    · have apart : other ≠ slot := by
        rintro rfl
        have unused := (Zspage.mem_chain (z := z.withSlab z.slab.take) member).2
        exact unused ((Slab.used_take free).mpr (.inr rfl))
      exact Zspage.link_kept (Zspage.mem_chain (z := z.withSlab z.slab.take) member).1 memory apart
  obtain ⟨after, fixed, result⟩ := loose.fix shaped listed
  exact ⟨after, by rw [step, fixed]; rfl, result⟩

theorem Zspage.named_lt (z : Zspage) : z.chain.head?.elim 0 z.handle < 256 ^ linkBytes := by
  cases first : z.chain.head? with
  | none => exact Nat.pow_pos (by decide)
  | some slot => exact handle_lt (fits (mem_chain (List.mem_of_head? first)).1)

/-- What is left for `zs_free` to do behind its lock. -/
def Zspage.emptied (z : Zspage) : Option (Nat × Page) := if z.slab.inuse = 0 then some (z.classIdx, z.first) else none

theorem Zspage.group_empty (z : Zspage) : z.group = .empty ↔ z.slab.inuse = 0 := by
  unfold group
  split
  next none_ => simp [none_]
  next some_ =>
    refine iff_of_false ?_ some_
    split <;> try split
    all_goals rintro ⟨⟩

/-- The count of pages a class gives up when a zspage of it is emptied. -/
def ZsState.uncount (state : ZsState) (z : Zspage) : ZsState :=
  if z.slab.inuse = 0 then
    state.setClass z.classIdx { state.sizeClass z.classIdx with
      pagesAllocated := (state.sizeClass z.classIdx).pagesAllocated - (state.sizeClass z.classIdx).zspageOrder }
  else state

theorem zsFree_spec (shaped : z.Shaped state) (used : z.slab.Used slot) (size : (state.sizeClass z.classIdx).size = z.size)
    (listed : OnList z.first z.group (state.sizeClass z.classIdx).fullnessList) :
    ∃ after, zsFree state (z.handle slot) =
      some (after.uncount (z.withSlab (z.slab.give slot used)), (z.withSlab (z.slab.give slot used)).emptied) ∧
      (z.withSlab (z.slab.give slot used)).Shaped after ∧ Touched z slot (z.withSlab (z.slab.give slot used)).group state after := by
  have inside := Zspage.used_inside used
  have fits := Zspage.fits inside
  have location : objHandleToLocation (z.handle slot) = (z.page slot, z.objIdx slot) := objHandleToLocation_handle fits
  have chain : (z.withSlab (z.slab.give slot used)).chain = slot :: z.chain := rfl
  let linked := state.setMemory (state.kernel.memory.store (z.page slot) (z.offset slot) linkBytes (state.pages z.first).freelist)
  let middle := linked.modifyPage z.first fun page => { page with freelist := z.handle slot, inuse := (page.inuse + 2 ^ 16 - 1) % 2 ^ 16 }
  have step : zsFree state (z.handle slot) = (fixFullnessGroup middle z.first).map fun fixed =>
      if fixed.2 = .empty then (fixed.1.setClass z.classIdx { fixed.1.sizeClass z.classIdx with
        pagesAllocated := (fixed.1.sizeClass z.classIdx).pagesAllocated - (fixed.1.sizeClass z.classIdx).zspageOrder },
          some (z.classIdx, z.first))
      else (fixed.1, none) := by
    unfold zsFree
    rw [if_neg (show z.handle slot ≠ 0 from handle_ne_zero fits)]
    simp only [location, shaped.getFirstPage (Zspage.page_mem inside), shaped.isFirst, not_true_eq_false, if_false, shaped.mapping, size,
      shaped.offset inside]
    rfl
  have memory : ChangesOnly (z.Extent slot) state.kernel.memory middle.kernel.memory :=
    ChangesOnly.store _ _ _ _ _ fun address lower upper => Zspage.link_extent inside lower upper
  have counted : ((state.pages z.first).inuse + 2 ^ 16 - 1) % 2 ^ 16 = (z.slab.give slot used).inuse := by
    have less := Slab.inuse_give used
    have most := z.slab.inuse_le.trans_lt (classObjects_bounds z.classIdx).2
    rw [shaped.inuse]
    omega
  have loose : Loose z slot (z.slab.give slot used) state middle := by
    refine ⟨rfl, memory, fun frame apart => Function.update_of_ne apart _ _, rfl, ?_, ?_, shaped.threaded.congr fun other member => ?_⟩
    · rw [show middle.pages z.first = _ from Function.update_self .., ← counted]
      rfl
    · show (state.kernel.memory.store (z.page slot) (z.offset slot) linkBytes (state.pages z.first).freelist).load (z.page slot)
        (z.offset slot) linkBytes = _
      rw [Memory.load_store, shaped.freelist, Nat.mod_eq_of_lt z.named_lt]
      rfl
    · have apart : other ≠ slot := by
        rintro rfl
        exact (Zspage.mem_chain member).2 used
      exact Zspage.link_kept (Zspage.mem_chain member).1 memory apart
  obtain ⟨after, fixed, result⟩ := loose.fix shaped listed
  refine ⟨after, ?_, result⟩
  rw [step, fixed, Option.map_some, ZsState.uncount, Zspage.emptied]
  rcases Classical.em ((z.withSlab (z.slab.give slot used)).slab.inuse = 0) with none_ | some_
  · rw [if_pos ((Zspage.group_empty _).mpr none_), if_pos none_, if_pos none_]
    rfl
  · rw [if_neg (mt (Zspage.group_empty _).mp some_), if_neg some_, if_neg some_]

end Objects
end Compcache.Zsmalloc
