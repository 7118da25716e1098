import Mathlib.Tactic.IntervalCases
import Compcache.Library.Carving
import Compcache.Zsmalloc

/-! The numbers of zsmalloc: the sizes and orders of its classes, and what its handles
and mappings stand for. -/

namespace Compcache.Zsmalloc
open Library.PagedMemory Library.Carving

/-- The size, the order, the objects and the slots of a zspage of a class. The last slot
may reach beyond the last page; then it is no object. -/
def classSize (i : Nat) : Nat := (SizeClass.create i).size
def classOrder (i : Nat) : Nat := getZspageOrder (classSize i)
def classObjects (i : Nat) : Nat := classOrder i * pageSize / classSize i
def classSlots (i : Nat) : Nat := firstSlot pageSize (classSize i) (classOrder i)

theorem classSize_bounds (i : Nat) : 32 ≤ classSize i ∧ classSize i ≤ pageSize ∧ 8 ∣ classSize i := by
  show 32 ≤ min (32 + i * 16) 4096 ∧ min (32 + i * 16) 4096 ≤ 4096 ∧ 8 ∣ min (32 + i * 16) 4096
  omega

theorem classSize_pos (i : Nat) : 0 < classSize i := Nat.lt_of_lt_of_le (by decide) (classSize_bounds i).1

/-- Behind the orders below `i`, an order without waste is at most the best one so far. -/
theorem zspageOrderFrom_spec {classSize left i best order : Nat} (first : 1 ≤ i) (positive : 1 ≤ order) (below : order ≤ i)
    (percent : best ≤ 100)
    (even : ∀ k, 1 ≤ k → k < i → k * pageSize % classSize = 0 → best = 100 ∧ order ≤ k) :
    1 ≤ zspageOrderFrom classSize left i best order ∧ zspageOrderFrom classSize left i best order ≤ max order (i + left - 1) ∧
      ∀ k, 1 ≤ k → k < i + left → k * pageSize % classSize = 0 → zspageOrderFrom classSize left i best order ≤ k := by
  induction left generalizing i best order with
  | zero => exact ⟨positive, Nat.le_max_left .., fun k lower upper whole => (even k lower upper whole).2⟩
  | succ left ih =>
    have room : 0 < i * pageSize := Nat.mul_pos first (by decide)
    have most : (i * pageSize - i * pageSize % classSize) * 100 / (i * pageSize) ≤ 100 :=
      Nat.div_le_of_le_mul (Nat.mul_le_mul_right 100 (Nat.sub_le ..))
    have full (whole : i * pageSize % classSize = 0) : (i * pageSize - i * pageSize % classSize) * 100 / (i * pageSize) = 100 := by
      rw [whole, Nat.sub_zero, Nat.mul_div_cancel_left 100 room]
    rw [show zspageOrderFrom classSize (left + 1) i best order =
      if best < (i * pageSize - i * pageSize % classSize) * 100 / (i * pageSize) then
        zspageOrderFrom classSize left (i + 1) ((i * pageSize - i * pageSize % classSize) * 100 / (i * pageSize)) i
      else zspageOrderFrom classSize left (i + 1) best order from rfl]
    split
    next better =>
      obtain ⟨least, bound, smallest⟩ := ih (i := i + 1) (by omega) first (Nat.le_succ i) most (by
        intro k lower upper whole
        rcases Nat.lt_succ_iff_lt_or_eq.mp upper with earlier | rfl
        · have best := (even k lower earlier whole).1
          omega
        · exact ⟨full whole, Nat.le_refl _⟩)
      exact ⟨least, by omega, fun k lower upper => smallest k lower (by omega)⟩
    next worse =>
      obtain ⟨least, bound, smallest⟩ := ih (i := i + 1) (by omega) positive (by omega) percent (by
        intro k lower upper whole
        rcases Nat.lt_succ_iff_lt_or_eq.mp upper with earlier | rfl
        · exact even k lower earlier whole
        · rw [full whole] at worse
          exact ⟨by omega, below⟩)
      exact ⟨least, by omega, fun k lower upper => smallest k lower (by omega)⟩

theorem getZspageOrder_spec (classSize : Nat) : 1 ≤ getZspageOrder classSize ∧ getZspageOrder classSize ≤ maxZspageOrder ∧
    ∀ k, 1 ≤ k → k ≤ maxZspageOrder → k * pageSize % classSize = 0 → getZspageOrder classSize ≤ k := by
  obtain ⟨least, most, smallest⟩ : 1 ≤ getZspageOrder classSize ∧ getZspageOrder classSize ≤ max 1 (1 + maxZspageOrder - 1) ∧
      ∀ k, 1 ≤ k → k < 1 + maxZspageOrder → k * pageSize % classSize = 0 → getZspageOrder classSize ≤ k :=
    zspageOrderFrom_spec (Nat.le_refl 1) (Nat.le_refl 1) (Nat.le_refl 1) (Nat.zero_le 100) fun k lower upper => absurd lower (by omega)
  exact ⟨least, most, fun k lower upper => smallest k lower (by omega)⟩

theorem classOrder_bounds (i : Nat) : 1 ≤ classOrder i ∧ classOrder i ≤ 4 :=
  ⟨(getZspageOrder_spec (classSize i)).1, (getZspageOrder_spec (classSize i)).2.1⟩

theorem ragged {i row : Nat} (inner : row + 1 < classOrder i) : (row + 1) * pageSize % classSize i ≠ 0 := by
  intro whole
  obtain ⟨_, most, smallest⟩ := getZspageOrder_spec (classSize i)
  have inner' : row + 1 < getZspageOrder (classSize i) := inner
  have less := smallest (row + 1) (by omega) (by omega) whole
  omega

theorem classSlots_bounds (i : Nat) : classObjects i ≤ classSlots i ∧ classSlots i ≤ classObjects i + 1 := by
  have positive := classSize_pos i
  constructor
  · refine Nat.le_of_not_lt fun less => ?_
    have beyond : classOrder i * pageSize ≤ classSlots i * classSize i := (firstSlot_le_iff positive).mp (Nat.le_refl _)
    have within : classObjects i * classSize i ≤ classOrder i * pageSize := Nat.div_mul_le_self ..
    have short : (classSlots i + 1) * classSize i ≤ classObjects i * classSize i := Nat.mul_le_mul_right _ less
    rw [Nat.succ_mul] at short
    omega
  · refine (firstSlot_le_iff positive).mpr ?_
    rw [classObjects, Nat.mul_comm _ (classSize i)]
    exact (Nat.lt_mul_div_succ _ positive).le

theorem classObjects_bounds (i : Nat) : 1 ≤ classObjects i ∧ classObjects i < 2 ^ 16 := by
  have sizes := classSize_bounds i
  have orders := classOrder_bounds i
  rw [pageSize_eq] at sizes
  rw [classObjects, pageSize_eq]
  constructor
  · rw [Nat.one_le_div_iff (classSize_pos i)]
    omega
  · rw [Nat.div_lt_iff_lt_mul (classSize_pos i)]
    have : 2 ^ 16 * 32 ≤ 2 ^ 16 * classSize i := Nat.mul_le_mul_left _ sizes.1
    omega

theorem getSizeClassIndex_spec {size : Nat} (small : size ≤ zsMaxAllocSize) :
    getSizeClassIndex size < zsSizeClasses ∧ size ≤ classSize (getSizeClassIndex size) := by
  show getSizeClassIndex size < 255 ∧ size ≤ min (32 + getSizeClassIndex size * 16) 4096
  have small' : size ≤ 4096 := small
  rw [show getSizeClassIndex size = if 32 < size then (size - 32 + 16 - 1) / 16 else 0 from rfl]
  split <;> omega

theorem FullnessGroup.decode_toNat (group : FullnessGroup) : decode group.toNat = group := by cases group <;> rfl

theorem FullnessGroup.toNat_lt (group : FullnessGroup) : group.toNat < 2 ^ fullnessBits := by cases group <;> decide

@[simp] theorem getZspageMapping_set {classIdx : Nat} (page : PageStruct) (known : classIdx < zsSizeClasses) (fullness : FullnessGroup) :
    getZspageMapping (setZspageMapping page classIdx fullness) = (classIdx, fullness) := by
  have few : classIdx < 2 ^ classIdxBits := known.trans (by decide)
  have mapping : (setZspageMapping page classIdx fullness).mapping = classIdx * 2 ^ fullnessBits + fullness.toNat := by
    rw [setZspageMapping, Nat.and_two_pow_sub_one_of_lt_two_pow few, Nat.and_two_pow_sub_one_of_lt_two_pow fullness.toNat_lt,
      ← Nat.shiftLeft_add_eq_or_of_lt fullness.toNat_lt, Nat.shiftLeft_eq]
  rw [getZspageMapping, mapping, Nat.shiftRight_eq_div_pow, Nat.and_two_pow_sub_one_eq_mod, Nat.and_two_pow_sub_one_eq_mod]
  have group := fullness.toNat_lt
  rw [Nat.add_comm, Nat.add_mul_div_right _ _ (by decide), Nat.div_eq_of_lt group, Nat.zero_add, Nat.mod_eq_of_lt few,
    Nat.add_mul_mod_self_right, Nat.mod_eq_of_lt group, FullnessGroup.decode_toNat]

section Handles
variable [Arch] [Sparse]

theorem bits_split : pfnBits + objIndexBits = bitsPerLong ∧ 8 ≤ objIndexBits := by
  have known := Sparse.supported
  simp only [List.mem_cons, Prod.mk.injEq, List.not_mem_nil, or_false] at known
  have shift : pageShift = 12 := rfl
  rw [objIndexBits, pfnBits]
  omega

omit [Sparse] in
theorem linkBytes_cases : linkBytes = 4 ∨ linkBytes = 8 := by
  rcases Arch.bitsPerLong_cases with word | word
  · exact .inl (by rw [linkBytes, word])
  · exact .inr (by rw [linkBytes, word])

/-- A page and an index that have a handle. -/
def HandleFits (page : Page) (objIdx : Nat) : Prop := 0 < page ∧ page < 2 ^ pfnBits ∧ objIdx < 2 ^ objIndexBits

theorem objLocationToHandle_eq {page : Page} {objIdx : Nat} (fits : HandleFits page objIdx) :
    objLocationToHandle page objIdx = page * 2 ^ objIndexBits + objIdx := by
  obtain ⟨positive, frame, few⟩ := fits
  have word : page <<< objIndexBits < 2 ^ bitsPerLong := by
    rw [Nat.shiftLeft_eq, ← bits_split.1, Nat.pow_add]
    exact Nat.mul_lt_mul_of_pos_right frame (Nat.two_pow_pos _)
  rw [objLocationToHandle, if_neg (show page ≠ noPage from Nat.ne_of_gt positive), Nat.mod_eq_of_lt word,
    Nat.and_two_pow_sub_one_of_lt_two_pow few,
    ← Nat.shiftLeft_add_eq_or_of_lt few, Nat.shiftLeft_eq]

theorem objHandleToLocation_handle {page : Page} {objIdx : Nat} (fits : HandleFits page objIdx) :
    objHandleToLocation (objLocationToHandle page objIdx) = (page, objIdx) := by
  rw [objLocationToHandle_eq fits, objHandleToLocation, Nat.shiftRight_eq_div_pow, Nat.and_two_pow_sub_one_eq_mod, Nat.add_comm,
    Nat.add_mul_div_right _ _ (Nat.two_pow_pos _), Nat.div_eq_of_lt fits.2.2, Nat.zero_add, Nat.add_mul_mod_self_right,
      Nat.mod_eq_of_lt fits.2.2]

theorem handle_ne_zero {page : Page} {objIdx : Nat} (fits : HandleFits page objIdx) : objLocationToHandle page objIdx ≠ 0 := by
  rw [objLocationToHandle_eq fits]
  exact Nat.ne_of_gt (Nat.add_pos_left (Nat.mul_pos fits.1 (Nat.two_pow_pos _)) objIdx)

theorem handle_lt {page : Page} {objIdx : Nat} (fits : HandleFits page objIdx) : objLocationToHandle page objIdx < 256 ^ linkBytes := by
  rw [objLocationToHandle_eq fits]
  have word : 256 ^ linkBytes = 2 ^ bitsPerLong := by
    rcases Arch.bitsPerLong_cases with word | word <;> rw [linkBytes, word] <;> rfl
  rw [word, ← bits_split.1, Nat.pow_add]
  calc page * 2 ^ objIndexBits + objIdx < page * 2 ^ objIndexBits + 2 ^ objIndexBits := Nat.add_lt_add_left fits.2.2 _
    _ = (page + 1) * 2 ^ objIndexBits := (Nat.succ_mul ..).symm
    _ ≤ 2 ^ pfnBits * 2 ^ objIndexBits := Nat.mul_le_mul_right _ fits.2.1

end Handles
end Compcache.Zsmalloc
