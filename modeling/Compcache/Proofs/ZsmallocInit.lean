import Compcache.Proofs.ZsmallocPages

/-! The objects of a new zspage are linked, page by page. -/

namespace Compcache.Zsmalloc
open Library Library.PagedMemory Library.Carving

section Init
variable [Arch] [Sparse]

/-- The objects of a page that lie before its last one are linked to their successors. -/
theorem linkObjects_spec (page : Page) {size : Nat} (aligned : size / linkBytes * linkBytes = size)
    (wide : linkBytes ≤ size) {left i off : Nat}
    (memory : Memory Page) (room : off + left * size ≤ pageSize) : ∃ stored final,
      linkObjects page size left i off off memory = (off + left * size, off + stored * size, final) ∧
      stored = (if off + left * size < pageSize then left else left - 1) ∧
      (∀ turn < stored, final.load page (off + turn * size) linkBytes = objLocationToHandle page (i + turn) % 256 ^ linkBytes) ∧
      ChangesOnly (fun frame address => frame = page ∧ off ≤ address ∧ address < off + stored * size) memory final := by
  induction left generalizing i off memory with
  | zero =>
    refine ⟨0, memory, by simp [linkObjects], by simp, fun turn none_ => absurd none_ (Nat.not_lt_zero turn), .refl _ _⟩
  | succ left ih =>
    rw [Nat.succ_mul] at room
    unfold linkObjects
    split
    next inside =>
      obtain ⟨stored, final, linked, count, loads, changes⟩ :=
        ih (i := i + 1) (memory.store page off linkBytes (objLocationToHandle page i))
        (show off + size + left * size ≤ pageSize by omega)
      refine ⟨stored + 1, final, ?_, ?_, ?_, ?_⟩
      · rw [aligned, linked, Nat.succ_mul, Nat.succ_mul]
        simp only [Nat.add_assoc, Nat.add_comm size]
      · rw [count, Nat.succ_mul, show off + (left * size + size) = off + size + left * size by omega]
        split
        next => rfl
        next full =>
          have some_ : left ≠ 0 := by
            rintro rfl
            omega
          omega
      · rintro (_ | turn) less
        · rw [Nat.zero_mul, Nat.add_zero, Nat.add_zero, changes.load, Memory.load_store]
          rintro address _ upper ⟨_, lower, _⟩
          omega
        · rw [Nat.succ_mul, ← Nat.add_assoc, Nat.add_right_comm, loads turn (by omega), Nat.add_right_comm, ← Nat.add_assoc]
      · refine ((ChangesOnly.store _ _ _ _ _ fun address lower upper => ?_).trans (changes.mono ?_))
        · exact ⟨rfl, lower, by rw [Nat.succ_mul]; omega⟩
        · rintro frame address ⟨same, lower, upper⟩
          exact ⟨same, by omega, by rw [Nat.succ_mul]; omega⟩
    next beyond =>
      have positive : 0 < size := by rcases linkBytes_cases with word | word <;> omega
      obtain rfl : left = 0 := by
        refine Nat.eq_zero_of_not_pos fun some_ => ?_
        have := Nat.le_mul_of_pos_left size some_
        omega
      refine ⟨0, memory, ?_, ?_, fun turn none_ => absurd none_ (Nat.not_lt_zero turn), .refl _ _⟩
      · simp [linkObjects]
      · rw [if_neg (by omega)]

namespace Zspage
variable {z : Zspage} {slot index : Nat} {page : Page}

theorem row_eq (lower : firstSlot pageSize z.size index ≤ slot) (upper : slot < firstSlot pageSize z.size (index + 1)) :
    z.row slot = index :=
  (row_iff (classSize_pos z.classIdx) (by decide)).mpr ⟨lower, upper⟩

theorem at_row (here : z.pages[index]? = some page) (turn : Nat)
    (inside : firstSlot pageSize z.size index + turn < firstSlot pageSize z.size (index + 1)) :
    z.page (firstSlot pageSize z.size index + turn) = page ∧ z.objIdx (firstSlot pageSize z.size index + turn) = turn ∧
      z.offset (firstSlot pageSize z.size index + turn) = firstOffset pageSize z.size index + turn * z.size := by
  have row := row_eq (Nat.le_add_right ..) inside
  have idx : z.objIdx (firstSlot pageSize z.size index + turn) = turn := by rw [objIdx, row, Nat.add_sub_cancel_left]
  refine ⟨?_, idx, ?_⟩
  · rw [Zspage.page, row, List.getD_eq_getElem?_getD, here, Option.getD_some]
  · rw [← z.offset_slot, row, idx]

theorem firstOffset_aligned (z : Zspage) (index : Nat) :
    firstOffset pageSize z.size index / linkBytes * linkBytes = firstOffset pageSize z.size index := by
  obtain ⟨_, _, unit, aligned⟩ := classSize_bounds z.classIdx
  have sum := firstOffset_add pageSize index (classSize_pos z.classIdx)
  have multiple : firstOffset pageSize (classSize z.classIdx) index % 8 = 0 := by
    have whole : firstSlot pageSize (classSize z.classIdx) index * classSize z.classIdx =
        8 * (firstSlot pageSize (classSize z.classIdx) index * unit) := by
      rw [Nat.mul_left_comm, ← aligned]
    rw [pageSize_eq] at sum whole ⊢
    omega
  rw [size]
  rcases linkBytes_cases with word | word <;> rw [word] <;> omega

theorem size_aligned (z : Zspage) : z.size / linkBytes * linkBytes = z.size ∧ linkBytes ≤ z.size := by
  obtain ⟨large, _, unit, aligned⟩ := classSize_bounds z.classIdx
  rw [size]
  rcases linkBytes_cases with word | word <;> rw [word] <;> omega

theorem slots_of_row (z : Zspage) (index : Nat) :
    let whole := (pageSize - firstOffset pageSize z.size index) / z.size
    let last := firstOffset pageSize z.size index + whole * z.size
    firstSlot pageSize z.size (index + 1) = firstSlot pageSize z.size index + (if last < pageSize then whole else whole - 1) + 1 ∧
      last ≤ pageSize ∧ (index + 1 < classOrder z.classIdx → firstOffset pageSize z.size (index + 1) = (last + z.size) % pageSize) := by
  have positive : 0 < z.size := classSize_pos z.classIdx
  have fits : z.size ≤ pageSize := (classSize_bounds z.classIdx).2.1
  have small := firstOffset_lt pageSize index positive
  rcases Nat.eq_zero_or_pos ((index + 1) * pageSize % z.size) with even | odd
  · obtain ⟨count, full⟩ := next_row_even positive fits even
    have some_ : (pageSize - firstOffset pageSize z.size index) / z.size ≠ 0 := by
      intro none_
      rw [none_] at full
      omega
    refine ⟨?_, full.le, fun inner => absurd even (ragged inner)⟩
    rw [if_neg (Nat.not_lt.mpr full.ge), count]
    generalize (pageSize - firstOffset pageSize z.size index) / z.size = whole at some_ ⊢
    omega
  · obtain ⟨count, short, next⟩ := next_row positive fits (Nat.ne_of_gt odd)
    exact ⟨by rw [if_pos short, count], short.le, fun _ => next⟩

end Zspage

/-- The pages of a zspage that is being filled, up to one of its pages. -/
structure Filling (z : Zspage) (linked : ZsState) (index : Nat) (state : ZsState) : Prop where
  owned : state.kernel.owned = linked.kernel.owned
  classes : state.sizeClass = linked.sizeClass
  outside : ∀ page ∉ z.pages, state.kernel.memory page = linked.kernel.memory page
  same : ∀ page, state.pages page = { linked.pages page with freelist := (state.pages page).freelist }
  kept : ∀ page ∉ z.rest, state.pages page = linked.pages page
  sub : ∀ {row page}, row + 1 < index → z.pages[row + 1]? = some page → (state.pages page).freelist = firstOffset pageSize z.size (row + 1)
  links : ∀ slot < firstSlot pageSize z.size index, z.link state.kernel.memory slot =
    if slot + 1 < classSlots z.classIdx then z.handle (slot + 1) else 0

variable {z : Zspage} {linked state : ZsState} {index off : Nat} {page : Page}

/-- The offset of the first object of a page is written down, other than in the first page. -/
def opened (firstPage page : Page) (offset : Nat) (state : ZsState) : ZsState :=
  if page = firstPage then state else state.modifyPage page fun page => { page with freelist := offset }

omit [Arch] [Sparse] in
theorem opened_spec (firstPage page : Page) (offset : Nat) (state : ZsState) :
    (opened firstPage page offset state).kernel = state.kernel ∧ (opened firstPage page offset state).sizeClass = state.sizeClass ∧
      ∀ frame, (opened firstPage page offset state).pages frame =
        { state.pages frame with freelist := if page ≠ firstPage ∧ frame = page then offset else (state.pages frame).freelist } := by
  unfold opened
  split
  next first => exact ⟨rfl, rfl, fun frame => by rw [if_neg fun both => both.1 first]⟩
  next inner =>
    refine ⟨rfl, rfl, fun frame => ?_⟩
    rw [modifyPage_pages]
    split
    next same => rw [same, if_pos ⟨inner, rfl⟩]
    next apart => rw [if_neg fun both => apart both.2]

theorem initPages_succ (firstPage size fuel page off : Nat) (state : ZsState) : initPages firstPage size (fuel + 1) page off state =
    if page = noPage then some state
    else
      let state := opened firstPage page off state
      let linked := linkObjects page size ((pageSize - off) / size) 1 off (off / linkBytes * linkBytes) state.kernel.memory
      initPages firstPage size fuel (getNextPage state page) ((linked.1 + size) % pageSize)
        (state.setMemory (linked.2.2.store page linked.2.1 linkBytes (objLocationToHandle (getNextPage state page) 0))) := rfl

omit [Arch] [Sparse] in
theorem slots_upto {i index : Nat} (le : index ≤ classOrder i) : firstSlot pageSize (classSize i) index ≤ classSlots i :=
  firstSlot_mono _ _ (classSize_pos i) le

namespace Zspage

/-- The handle of an object with its place worked out. -/
theorem handle_at (here : z.pages[index]? = some page) {turn : Nat}
    (inside : firstSlot pageSize z.size index + turn < firstSlot pageSize z.size (index + 1)) :
    objLocationToHandle page turn % 256 ^ linkBytes = z.handle (firstSlot pageSize z.size index + turn) := by
  have row : index < classOrder z.classIdx := Zspage.pages_length (z := z) ▸ (List.getElem?_eq_some_iff.mp here).1
  have fits := Zspage.fits (inside.trans_le (slots_upto row))
  obtain ⟨samePage, idx, _⟩ := at_row here turn inside
  rw [samePage, idx] at fits
  rw [Nat.mod_eq_of_lt (handle_lt fits), handle, samePage, idx]

/-- What the last object of a page leads to: the first one of the next page, if there is one. -/
theorem next_handle (z : Zspage) (inside : index < classOrder z.classIdx) :
    objLocationToHandle (z.pages.getD (index + 1) noPage) 0 % 256 ^ linkBytes =
      if firstSlot pageSize z.size (index + 1) < classSlots z.classIdx then z.handle (firstSlot pageSize z.size (index + 1)) else 0 := by
  rcases Nat.lt_or_ge (index + 1) (classOrder z.classIdx) with inner | outer
  · have found : z.pages[index + 1]? = some (z.pages.getD (index + 1) noPage) := by
      have less : index + 1 < z.pages.length := by rwa [Zspage.pages_length]
      rw [List.getD_eq_getElem _ _ less, List.getElem?_eq_getElem less]
    have first : firstSlot pageSize z.size (index + 1) + 0 < firstSlot pageSize z.size (index + 1 + 1) := by
      rw [(z.slots_of_row (index + 1)).1]
      omega
    have known := first.trans_le (slots_upto inner)
    rw [Nat.add_zero] at known
    rw [handle_at found first, Nat.add_zero, if_pos known]
  · have ends : index + 1 = classOrder z.classIdx := by omega
    have none_ : z.pages.getD (index + 1) noPage = noPage := by
      rw [List.getD_eq_default]
      rw [Zspage.pages_length]
      exact outer
    rw [none_, if_neg]
    · rfl
    · rw [ends]
      exact Nat.lt_irrefl _

/-- An object before those of a page is on another page. -/
theorem page_ne (here : z.pages[index]? = some page) {slot : Nat} (earlier : slot < firstSlot pageSize z.size index) :
    z.page slot ≠ page := by
  have inside : index < classOrder z.classIdx := Zspage.pages_length (z := z) ▸ (List.getElem?_eq_some_iff.mp here).1
  intro equal
  have row := Zspage.row_of_page (Zspage.page_at (earlier.trans_le (slots_upto inside.le))) (equal ▸ here)
  have lower := ((row_iff (classSize_pos z.classIdx) (by decide : 0 < pageSize)).mp (show slot * classSize z.classIdx / pageSize =
    index from row)).1
  exact absurd lower (Nat.not_le.mpr earlier)

end Zspage

theorem Filling.turn (filling : Filling z linked index state)
    (next : ∀ {row page}, z.pages[row]? = some page → getNextPage linked page = z.pages.getD (row + 1) noPage)
    (here : z.pages[index]? = some page) : ∃ after off', Filling z linked (index + 1) after ∧
      (index + 1 < classOrder z.classIdx → off' = firstOffset pageSize z.size (index + 1)) ∧ ∀ fuel,
      initPages z.first z.size (fuel + 1) page (firstOffset pageSize z.size index) state =
        initPages z.first z.size fuel (z.pages.getD (index + 1) noPage) off' after := by
  have member := List.mem_of_getElem? here
  have inside : index < classOrder z.classIdx := Zspage.pages_length (z := z) ▸ (List.getElem?_eq_some_iff.mp here).1
  obtain ⟨count, room, later⟩ := z.slots_of_row index
  obtain ⟨aligned, wide⟩ := z.size_aligned
  obtain ⟨kernel, sizeClass, pages⟩ := opened_spec z.first page (firstOffset pageSize z.size index) state
  obtain ⟨stored, final, linked', counted, loads, changes⟩ := linkObjects_spec page aligned wide (i := 1) state.kernel.memory room
  rw [← counted] at count
  have same (frame : Page) : (opened z.first page (firstOffset pageSize z.size index) state).pages frame =
      { linked.pages frame with freelist := ((opened z.first page (firstOffset pageSize z.size index) state).pages frame).freelist } := by
    rw [pages, filling.same frame]
  have following : getNextPage (opened z.first page (firstOffset pageSize z.size index) state) page = z.pages.getD (index + 1) noPage := by
    rw [getNextPage, same page]
    exact next here
  let memory := final.store page (firstOffset pageSize z.size index + stored * z.size) linkBytes
    (objLocationToHandle (z.pages.getD (index + 1) noPage) 0)
  have elsewhere {frame : Page} (apart : frame ≠ page) : memory frame = state.kernel.memory frame := by
    show (final.modify page _) frame = _
    rw [Memory.modify_other _ _ apart]
    exact funext fun address => changes frame address fun inside => apart inside.1
  refine ⟨(opened z.first page (firstOffset pageSize z.size index) state).setMemory memory, _, ⟨?owned, ?classes, ?outside, same, ?kept,
    ?sub, ?links⟩, fun inner => (later inner).symm, ?unfolds⟩
  case owned =>
    show (opened z.first page (firstOffset pageSize z.size index) state).kernel.owned = _
    rw [kernel, filling.owned]
  case classes =>
    show (opened z.first page (firstOffset pageSize z.size index) state).sizeClass = _
    rw [sizeClass, filling.classes]
  case outside =>
    intro frame outside
    exact (elsewhere fun (equal : frame = page) => outside (equal ▸ member)).trans (filling.outside frame outside)
  case kept =>
    intro frame outside
    refine (pages frame).trans ?_
    rw [if_neg, filling.kept frame outside]
    rintro ⟨inner, rfl⟩
    exact (List.mem_cons.mp member).elim inner outside
  case sub =>
    intro row frame below found
    refine (congrArg PageStruct.freelist (pages frame)).trans ?_
    rcases Nat.lt_succ_iff_lt_or_eq.mp below with earlier | rfl
    · show (if page ≠ z.first ∧ frame = page then _ else _) = _
      rw [if_neg, filling.sub earlier found]
      rintro ⟨_, rfl⟩
      exact absurd (Zspage.row_of_page found here) (Nat.ne_of_lt earlier)
    · obtain rfl : frame = page := Option.some.inj (found.symm.trans here)
      refine if_pos ⟨?_, rfl⟩
      rintro rfl
      exact Nat.succ_ne_zero row (Zspage.row_of_page found z.first_at)
  case links =>
    intro slot less
    show memory.load (z.page slot) (z.offset slot) linkBytes = _
    rcases Nat.lt_or_ge slot (firstSlot pageSize z.size index) with earlier | own
    · rw [Memory.load, elsewhere (Zspage.page_ne here earlier)]
      exact filling.links slot earlier
    · obtain ⟨turn, rfl⟩ := Nat.exists_eq_add_of_le own
      obtain ⟨samePage, _, offset⟩ := Zspage.at_row here turn less
      rw [samePage, offset]
      rcases Nat.lt_or_ge turn stored with before | last
      · have successor : firstSlot pageSize z.size index + (turn + 1) < firstSlot pageSize z.size (index + 1) := by omega
        have room' : turn * z.size + z.size ≤ stored * z.size := by
          rw [← Nat.succ_mul]
          exact Nat.mul_le_mul_right _ before
        rw [Memory.load_store_apart _ (.inr (.inl (by omega))), loads turn before, Nat.add_comm 1, Zspage.handle_at here successor]
        rw [Nat.add_assoc, if_pos (successor.trans_le (slots_upto inside))]
      · obtain rfl : turn = stored := by omega
        rw [Memory.load_store, z.next_handle inside, count]
  case unfolds =>
    intro fuel
    rw [initPages_succ, if_neg (show page ≠ noPage from Nat.ne_of_gt (z.frames page member).1)]
    dsimp only
    rw [kernel, z.firstOffset_aligned, linked', following]

theorem initPages_spec (next : ∀ {row page}, z.pages[row]? = some page → getNextPage linked page = z.pages.getD (row + 1) noPage)
    {fuel : Nat}
    (filling : Filling z linked index state) (count : index + fuel = classOrder z.classIdx)
    (offset : index < classOrder z.classIdx → off = firstOffset pageSize z.size index) :
    ∃ final, initPages z.first z.size fuel (z.pages.getD index noPage) off state = some final ∧
      Filling z linked (classOrder z.classIdx) final := by
  induction fuel generalizing index off state with
  | zero =>
    obtain rfl : index = classOrder z.classIdx := count
    have none_ : z.pages.getD (classOrder z.classIdx) noPage = noPage := by
      rw [List.getD_eq_default]
      exact Zspage.pages_length.le
    exact ⟨state, by rw [none_, initPages, if_pos rfl], filling⟩
  | succ fuel ih =>
    have inside : index < classOrder z.classIdx := by omega
    have here : z.pages[index]? = some (z.pages.getD index noPage) := by
      have less : index < z.pages.length := by rwa [Zspage.pages_length]
      rw [List.getD_eq_getElem _ _ less, List.getElem?_eq_getElem less]
    obtain ⟨after, off', filling', offset', step⟩ := filling.turn next here
    obtain ⟨final, rest, filled⟩ := ih filling' (by omega) offset'
    exact ⟨final, by rw [offset inside, step, rest], filled⟩

end Init
end Compcache.Zsmalloc
