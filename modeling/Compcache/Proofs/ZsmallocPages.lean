import Compcache.Proofs.ZsmallocZspages

/-! A new zspage: its pages are taken one by one and linked, and then its objects are. -/

namespace Compcache.Zsmalloc
open Library Library.PagedMemory Library.Carving

@[simp] theorem modifyPage_pages (state : ZsState) (page frame : Page) (change : PageStruct → PageStruct) :
    (state.modifyPage page change).pages frame = if frame = page then change (state.pages page) else state.pages frame :=
  Function.update_apply ..

@[simp] theorem modifyPage_kernel (state : ZsState) (page : Page) (change : PageStruct → PageStruct) :
    (state.modifyPage page change).kernel = state.kernel := rfl

@[simp] theorem modifyPage_sizeClass (state : ZsState) (page : Page) (change : PageStruct → PageStruct) :
    (state.modifyPage page change).sizeClass = state.sizeClass := rfl

theorem modifyPage_modifyPage (state : ZsState) (page : Page) (first second : PageStruct → PageStruct) :
    (state.modifyPage page first).modifyPage page second = state.modifyPage page (second ∘ first) := by
  simp [ZsState.modifyPage]

section Links
variable {page frame : Page}

theorem linkPage_kernel (state : ZsState) (order i : Nat) (firstPage prevPage page : Page) :
    (state.linkPage order i firstPage prevPage page).kernel = state.kernel ∧ (state.linkPage order i firstPage prevPage page).sizeClass =
      state.sizeClass := by
  unfold ZsState.linkPage
  split_ifs <;> exact ⟨rfl, rfl⟩

theorem markLast_pages (state : ZsState) (marks : Prop) [Decidable marks] (page frame : Page) :
    (if marks then state.modifyPage page fun page => { page with pgPrivate2 := true } else state).pages frame = { state.pages frame with
      pgPrivate2 := if marks ∧ frame = page then true else (state.pages frame).pgPrivate2 } := by
  split
  next here =>
    rw [modifyPage_pages]
    split
    next same => rw [same, if_pos ⟨here, rfl⟩]
    next apart => rw [if_neg fun both => apart both.2]
  next absent => rw [if_neg fun both => absent both.1]

theorem linkPage_other (state : ZsState) (order i : Nat) (firstPage prevPage : Page) (apart : frame ≠ page) :
    (state.linkPage order i firstPage prevPage page).pages frame = { state.pages frame with
    privateWord := if i = 1 ∧ frame = firstPage then page else (state.pages frame).privateWord
    lruNext := if 2 ≤ i ∧ frame = prevPage then page else (state.pages frame).lruNext } := by
  rw [ZsState.linkPage]
  rw [markLast_pages]
  rcases i with _ | _ | i
  · simp [apart]
  · simp [apart]
    split <;> simp_all
  · simp [apart]
    split <;> simp_all

theorem linkPage_self (state : ZsState) (order i : Nat) (firstPage prevPage : Page) (first : i = 1 → firstPage ≠ page)
    (prev : 2 ≤ i → prevPage ≠ page) :
    (state.linkPage order i firstPage prevPage page).pages page = { state.pages page with
      pgPrivate := if i = 0 then true else (state.pages page).pgPrivate
      pgPrivate2 := if i = order - 1 then true else (state.pages page).pgPrivate2
      privateWord := if i = 0 then 0 else firstPage
      lruNext := if 2 ≤ i then (state.pages prevPage).lruNext else page } := by
  rw [ZsState.linkPage]
  rw [markLast_pages]
  rcases i with _ | _ | i
  · simp
  · simp [(first rfl).symm]
  · simp [(prev (by omega)).symm, prev (by omega)]

end Links

section Taken
variable [Arch] [Sparse] {before state after : ZsState} {order : Nat} {got : List Page} {firstPage prevPage page : Page}

theorem allocPage_spec {allocator : SparseAllocator} (taken : state.allocPage allocator = some (page, after)) :
    page ∉ state.kernel.owned ∧ (0 < page ∧ page < 2 ^ pfnBits) ∧ after.kernel.owned = insert page state.kernel.owned ∧
      after.sizeClass = state.sizeClass ∧
      (∀ frame, frame ≠ page → after.kernel.memory frame = state.kernel.memory frame ∧ after.pages frame = state.pages frame) ∧
      (after.pages page).pgPrivate = false ∧ (after.pages page).pgPrivate2 = false := by
  obtain ⟨⟨page', kernel⟩, got, same⟩ := Option.map_eq_some_iff.mp taken
  obtain ⟨rfl, rfl⟩ := Prod.mk.inj same
  obtain ⟨unowned, positive, _, _, owned, memory⟩ := Kernel.allocPage_spec got
  obtain ⟨fresh, picked, here⟩ := Option.map_eq_some_iff.mp got
  obtain ⟨rfl, _⟩ := Prod.mk.inj here
  have here :
    (Function.update state.pages fresh.page { allocator.left with pgPrivate := false, pgPrivate2 := false, privateWord := 0 }) fresh.page =
      { allocator.left with pgPrivate := false, pgPrivate2 := false, privateWord := 0 } := Function.update_self ..
  exact ⟨unowned, ⟨positive, allocator.physical picked⟩, owned, rfl, fun frame apart =>
    ⟨memory frame apart, Function.update_of_ne apart _ _⟩,
    congrArg PageStruct.pgPrivate here, congrArg PageStruct.pgPrivate2 here⟩

/-- The pages got so far, and how they are linked. -/
structure Linking (order : Nat) (before : ZsState) (got : List Page) (state : ZsState) : Prop where
  nodup : got.Nodup
  frames : ∀ page ∈ got, 0 < page ∧ page < 2 ^ pfnBits
  fresh : ∀ page ∈ got, page ∉ before.kernel.owned
  owned : state.kernel.owned = before.kernel.owned ∪ got.toFinset
  outside : ∀ page ∉ got, state.kernel.memory page = before.kernel.memory page ∧ state.pages page = before.pages page
  classes : state.sizeClass = before.sizeClass
  flag : ∀ {index page}, got[index]? = some page → ((state.pages page).pgPrivate = true ↔ index = 0)
  last : ∀ {index page}, got[index]? = some page → ((state.pages page).pgPrivate2 = true ↔ index + 1 = order)
  second : ∀ {first page}, got[0]? = some first → got[1]? = some page → (state.pages first).privateWord = page
  sub : ∀ {index page}, got[index + 1]? = some page → (state.pages page).privateWord = got.headD noPage
  lru : ∀ {index page following}, got[index + 1]? = some page → got[index + 2]? = some following → (state.pages page).lruNext = following

theorem Linking.start (before : ZsState) : Linking order before [] before :=
  ⟨List.nodup_nil, List.forall_mem_nil _, List.forall_mem_nil _, by simp, fun _ _ => ⟨rfl, rfl⟩,
    rfl, by simp, by simp, by simp, by simp, by simp⟩

omit [Arch] [Sparse] in
theorem getElem?_concat_cases {index : Nat} {frame : Page} (here : (got ++ [page])[index]? = some frame) :
    got[index]? = some frame ∧ index < got.length ∨ index = got.length ∧ frame = page := by
  rcases Nat.lt_or_ge index got.length with inside | beyond
  · rw [List.getElem?_append_left inside] at here
    exact .inl ⟨here, inside⟩
  · rw [List.getElem?_append_right beyond, List.getElem?_singleton] at here
    split at here
    next last => exact .inr ⟨by omega, (Option.some.inj here).symm⟩
    next => cases here

/-- What linking `page` behind the pages got so far makes of the frames. -/
structure Joined (order : Nat) (state : ZsState) (got : List Page) (firstPage prevPage page : Page) (linked : ZsState) : Prop where
  new : page ∉ got
  first : got ≠ [] → got[0]? = some firstPage
  prev : got ≠ [] → got.getLast? = some prevPage
  flag : (linked.pages page).pgPrivate = true ↔ got.length = 0
  last : (linked.pages page).pgPrivate2 = true ↔ got.length = order - 1
  sub : got ≠ [] → (linked.pages page).privateWord = firstPage
  old : ∀ {frame}, frame ∈ got → linked.pages frame = { state.pages frame with
    privateWord := if got.length = 1 ∧ frame = firstPage then page else (state.pages frame).privateWord
    lruNext := if 2 ≤ got.length ∧ frame = prevPage then page else (state.pages frame).lruNext }
  apart : ∀ {other}, other ∉ got → other ≠ page → linked.pages other = state.pages other

theorem linkPage_joined {allocator : SparseAllocator} (taken : state.allocPage allocator = some (page, after)) (new : page ∉ got)
    (first : got ≠ [] → firstPage = got.headD noPage) (prev : got ≠ [] → got.getLast? = some prevPage) :
    Joined order state got firstPage prevPage page
      (after.linkPage order got.length (if got.length = 0 then page else firstPage) prevPage page) := by
  obtain ⟨_, _, _, _, others, private_, private2⟩ := allocPage_spec taken
  have some_ {index : Nat} (less : index < got.length) : got ≠ [] := List.ne_nil_of_length_pos (Nat.zero_lt_of_lt less)
  have leads (nonempty : got ≠ []) : got[0]? = some firstPage := by
    rw [first nonempty]
    obtain ⟨one, rest, rfl⟩ := List.exists_cons_of_ne_nil nonempty
    rfl
  have self := linkPage_self after order got.length (if got.length = 0 then page else firstPage) prevPage
    (fun one => by
      rw [if_neg (by omega)]
      exact ne_of_mem_of_not_mem (List.mem_of_getElem? (leads (some_ (one ▸ Nat.zero_lt_one)))) new)
    (fun two => ne_of_mem_of_not_mem (List.mem_of_getLast? (prev (some_ (Nat.zero_lt_of_lt two)))) new)
  refine ⟨new, leads, prev, ?flag, ?last, ?sub, ?old, ?apart⟩
  case flag =>
    rw [self]
    show (if got.length = 0 then true else (after.pages page).pgPrivate) = true ↔ _
    rw [private_]
    simp
  case last =>
    rw [self]
    show (if got.length = order - 1 then true else (after.pages page).pgPrivate2) = true ↔ _
    rw [private2]
    simp
  case sub =>
    intro nonempty
    have long := List.length_pos_of_ne_nil nonempty
    rw [self]
    show (if got.length = 0 then 0 else if got.length = 0 then page else firstPage) = firstPage
    rw [if_neg (by omega), if_neg (by omega)]
  case old =>
    intro frame member
    have apart := ne_of_mem_of_not_mem member new
    rw [linkPage_other after order _ _ _ apart, (others frame apart).2]
    rw [if_neg (show got.length ≠ 0 from Nat.ne_of_gt (List.length_pos_of_mem member))]
  case apart =>
    intro other absent apart
    rw [linkPage_other after order _ _ _ apart, (others other apart).2, if_neg, if_neg]
    · rintro ⟨two, rfl⟩
      exact absent (List.mem_of_getLast? (prev (some_ two)))
    · rintro ⟨one, same⟩
      rw [if_neg (by omega)] at same
      exact absent (same ▸ List.mem_of_getElem? (leads (some_ (one ▸ Nat.zero_lt_one))))

section Joined
variable {linked : ZsState} {index : Nat} {frame : Page}

/-- The first page leads to the second. -/
theorem Joined.second (joined : Joined order state got firstPage prevPage page linked)
    (linking : Linking order before got state) {one : Page}
    (here : (got ++ [page])[0]? = some one) (there : (got ++ [page])[1]? = some frame) : (linked.pages one).privateWord = frame := by
  have leading : got[0]? = some one := by
    rcases getElem?_concat_cases there with ⟨_, less⟩ | ⟨last, _⟩ <;> rcases getElem?_concat_cases here with ⟨leading, _⟩ | ⟨none_, _⟩
    · exact leading
    · omega
    · exact leading
    · omega
  have nonempty : got ≠ [] := List.ne_nil_of_mem (List.mem_of_getElem? leading)
  rw [joined.old (List.mem_of_getElem? leading)]
  show (if got.length = 1 ∧ one = firstPage then page else (state.pages one).privateWord) = frame
  rcases getElem?_concat_cases there with ⟨second, less⟩ | ⟨last, rfl⟩
  · rw [if_neg fun both => by omega]
    exact linking.second leading second
  · have same : one = firstPage := Option.some.inj (leading.symm.trans (joined.first nonempty))
    rw [if_pos ⟨last.symm, same⟩]

/-- Every other page names the first. -/
theorem Joined.names (joined : Joined order state got firstPage prevPage page linked) (linking : Linking order before got state)
    (here : (got ++ [page])[index + 1]? = some frame) : (linked.pages frame).privateWord = (got ++ [page]).headD noPage := by
  have leads (nonempty : got ≠ []) : firstPage = got.headD noPage ∧ (got ++ [page]).headD noPage = got.headD noPage := by
    have first := joined.first nonempty
    obtain ⟨one, rest, rfl⟩ := List.exists_cons_of_ne_nil nonempty
    exact ⟨(Option.some.inj first).symm, rfl⟩
  rcases getElem?_concat_cases here with ⟨there, less⟩ | ⟨last, rfl⟩
  · rw [joined.old (List.mem_of_getElem? there), (leads (List.ne_nil_of_mem (List.mem_of_getElem? there))).2]
    show (if got.length = 1 ∧ frame = firstPage then page else (state.pages frame).privateWord) = _
    rw [if_neg fun both => by omega]
    exact linking.sub there
  · have nonempty : got ≠ [] := List.ne_nil_of_length_pos (by omega)
    obtain ⟨first, head⟩ := leads nonempty
    rw [joined.sub nonempty, head, first]

/-- From the second page on each leads to the one got next. -/
theorem Joined.follows (joined : Joined order state got firstPage prevPage page linked) (linking : Linking order before got state)
    {following : Page} (here : (got ++ [page])[index + 1]? = some frame) (there : (got ++ [page])[index + 2]? = some following) :
    (linked.pages frame).lruNext = following := by
  rcases getElem?_concat_cases here with ⟨leading, inner⟩ | ⟨none_, _⟩
  · have atLast := joined.prev (List.ne_nil_of_mem (List.mem_of_getElem? leading))
    rw [List.getLast?_eq_getElem?] at atLast
    rw [joined.old (List.mem_of_getElem? leading)]
    show (if 2 ≤ got.length ∧ frame = prevPage then page else (state.pages frame).lruNext) = following
    rcases getElem?_concat_cases there with ⟨second, less⟩ | ⟨last, rfl⟩
    · rw [if_neg]
      · exact linking.lru leading second
      · rintro ⟨_, rfl⟩
        have same := (List.getElem?_inj inner linking.nodup).mp (leading.trans atLast.symm)
        omega
    · have same : frame = prevPage := by
        rw [← Option.some_inj, ← leading, ← atLast]
        congr 1
        omega
      rw [if_pos ⟨by omega, same⟩]
  · rcases getElem?_concat_cases there with ⟨_, less⟩ | ⟨same, _⟩ <;> omega

end Joined

theorem Linking.step {allocator : SparseAllocator} (linking : Linking order before got state)
    (taken : state.allocPage allocator = some (page, after))
    (room : got.length < order) (first : got ≠ [] → firstPage = got.headD noPage) (prev : got ≠ [] → got.getLast? = some prevPage) :
    Linking order before (got ++ [page]) (after.linkPage order got.length (if got.length = 0 then page else firstPage) prevPage page) := by
  obtain ⟨unowned, framed, owned, classes, others, _, _⟩ := allocPage_spec taken
  have new : page ∉ got := fun member => unowned (by rw [linking.owned]; exact Finset.mem_union_right _ (List.mem_toFinset.mpr member))
  obtain ⟨kernel, sizeClass⟩ := linkPage_kernel after order got.length (if got.length = 0 then page else firstPage) prevPage page
  have joined : Joined order state got firstPage prevPage page _ := linkPage_joined taken new first prev
  refine ⟨?nodup, List.forall_mem_append.mpr ⟨linking.frames, List.forall_mem_singleton.mpr framed⟩, ?fresh, ?owned, ?outside,
    sizeClass.trans (classes.trans linking.classes), ?flag, ?last, joined.second linking, joined.names linking, joined.follows linking⟩
  case nodup =>
    refine List.nodup_append.mpr ⟨linking.nodup, List.nodup_singleton _, fun one member other there => ?_⟩
    rw [List.mem_singleton.mp there]
    exact ne_of_mem_of_not_mem member new
  case fresh =>
    refine List.forall_mem_append.mpr ⟨linking.fresh, List.forall_mem_singleton.mpr fun member => unowned ?_⟩
    rw [linking.owned]
    exact Finset.mem_union_left _ member
  case owned =>
    rw [kernel, owned, linking.owned, List.toFinset_append, ← Finset.union_assoc]
    ext frame
    simp
  case outside =>
    intro other outside
    have absent : other ∉ got := fun member => outside (List.mem_append_left _ member)
    have apart : other ≠ page := fun same => outside (List.mem_append_right _ (List.mem_singleton.mpr same))
    obtain ⟨memory, pages⟩ := linking.outside other absent
    exact ⟨by rw [kernel, (others other apart).1, memory], by rw [joined.apart absent apart, pages]⟩
  case flag =>
    intro index frame here
    rcases getElem?_concat_cases here with ⟨there, less⟩ | ⟨rfl, rfl⟩
    · rw [joined.old (List.mem_of_getElem? there)]
      exact linking.flag there
    · exact joined.flag
  case last =>
    intro index frame here
    rcases getElem?_concat_cases here with ⟨there, less⟩ | ⟨rfl, rfl⟩
    · rw [joined.old (List.mem_of_getElem? there)]
      exact linking.last there
    · rw [joined.last]
      omega

/-- How many pages the allocator gives, one after the other. -/
def given (allocators : Nat → SparseAllocator) : (left i : Nat) → Finset Page → Nat
  | 0, _, _ => 0
  | left + 1, i, owned =>
    match (allocators i).pages.pick owned with
    | none => 0
    | some fresh => given allocators left (i + 1) (insert fresh.page owned) + 1

/-- What the loop comes to: it has gone on with the pages it had, and taken all it wanted
if it says so. -/
structure Took (order : Nat) (before state : ZsState) (got : List Page) (result : Bool × Page × ZsState) (all : List Page) : Prop where
  linking : Linking order before all result.2.2
  first : result.2.1 = all.headD noPage
  more : got <+: all
  enough : result.1 = true ↔ all.length = order
  same : all = got → result.2.2 = state

theorem allocPages_spec {left : Nat} (allocators : Nat → SparseAllocator) (prevPage : Page) (linking : Linking order before got state)
    (count : got.length + left = order) (first : firstPage = got.headD noPage)
    (prev : got ≠ [] → got.getLast? = some prevPage) :
    ∃ all, Took order before state got (allocPages order allocators left got.length firstPage prevPage state) all ∧
      all.length = got.length + given allocators left got.length state.kernel.owned := by
  induction left generalizing got firstPage prevPage state with
  | zero => exact ⟨got, ⟨linking, first, List.prefix_refl got, by simp [allocPages]; omega, fun _ => rfl⟩, rfl⟩
  | succ left ih =>
    rw [allocPages, given]
    cases taken : state.allocPage (allocators got.length) with
    | none =>
      have none_ : (allocators got.length).pages.pick state.kernel.owned =
        none := by simpa [ZsState.allocPage, Kernel.allocPage] using taken
      rw [none_]
      exact ⟨got, ⟨linking, first, List.prefix_refl got, by simp; omega, fun _ => rfl⟩, rfl⟩
    | some result =>
      obtain ⟨page, after⟩ := result
      obtain ⟨fresh, picked, same⟩ : ∃ fresh, (allocators got.length).pages.pick state.kernel.owned = some fresh ∧ fresh.page = page := by
        obtain ⟨_, alloc, here⟩ := Option.map_eq_some_iff.mp taken
        obtain ⟨fresh, picked, rfl⟩ := Option.map_eq_some_iff.mp alloc
        exact ⟨fresh, picked, congrArg Prod.fst here⟩
      have step := linking.step taken (by omega) (fun _ => first) prev
      have length : got.length + 1 = (got ++ [page]).length := by simp
      have leading : (if got.length = 0 then page else firstPage) = (got ++ [page]).headD noPage := by
        cases got with
        | nil => rfl
        | cons one rest => exact first
      obtain ⟨all, took, total⟩ := ih page step (by omega) leading fun _ => List.getLast?_concat
      rw [← length] at took total
      rw [(linkPage_kernel ..).1, (allocPage_spec taken).2.2.1] at total
      rw [picked]
      refine ⟨all, ⟨took.linking, took.first, (List.prefix_append ..).trans took.more, took.enough, ?_⟩, ?_⟩
      · rintro rfl
        have longer := took.more.length_le
        omega
      · show all.length = got.length + (given allocators left (got.length + 1) (insert fresh.page state.kernel.owned) + 1)
        rw [total, same]
        omega

end Taken
end Compcache.Zsmalloc
