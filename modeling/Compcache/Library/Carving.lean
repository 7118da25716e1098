import Mathlib.Tactic.Ring
import Mathlib.Algebra.Order.Floor.Defs
import Mathlib.Algebra.Order.Floor.Div

/-! Slots of one size carved out of a row of units, such as the objects on the pages
of a slab. Slots are no larger than a unit, so each touches at most two. -/

namespace Compcache.Library.Carving

variable {unit size slot row : Nat}

/-- The first slot that starts in a unit of the row, or behind it. -/
def firstSlot (unit size row : Nat) : Nat := row * unit ⌈/⌉ size

/-- Where that slot starts, counted from the start of the unit. -/
def firstOffset (unit size row : Nat) : Nat := firstSlot unit size row * size - row * unit

@[simp] theorem firstSlot_zero (unit size : Nat) : firstSlot unit size 0 = 0 := by
  rw [firstSlot, Nat.zero_mul, zero_ceilDiv]

theorem firstSlot_le_iff (positive : 0 < size) : firstSlot unit size row ≤ slot ↔ row * unit ≤ slot * size := by
  rw [firstSlot, ceilDiv_le_iff_le_mul positive, Nat.mul_comm slot]

theorem lt_firstSlot_iff (positive : 0 < size) : slot < firstSlot unit size row ↔ slot * size < row * unit := by
  rw [← Nat.not_le, firstSlot_le_iff positive, Nat.not_le]

/-- A slot starts in the unit that begins behind the last slot of the units before. -/
theorem row_iff (positive : 0 < size) (units : 0 < unit) :
    slot * size / unit = row ↔ firstSlot unit size row ≤ slot ∧ slot < firstSlot unit size (row + 1) := by
  rw [firstSlot_le_iff positive, lt_firstSlot_iff positive, Nat.div_eq_iff units, Nat.succ_mul]
  omega

theorem firstSlot_mono (unit size : Nat) (positive : 0 < size) {first second : Nat} (le : first ≤ second) :
    firstSlot unit size first ≤ firstSlot unit size second := by
  rw [firstSlot_le_iff positive]
  exact (Nat.mul_le_mul_right unit le).trans ((firstSlot_le_iff positive).mp (Nat.le_refl _))

theorem firstOffset_add (unit row : Nat) (positive : 0 < size) : firstOffset unit size row + row * unit = firstSlot unit size row * size :=
  Nat.sub_add_cancel ((firstSlot_le_iff positive).mp (Nat.le_refl _))

theorem firstOffset_lt (unit row : Nat) (positive : 0 < size) : firstOffset unit size row < size := by
  have sum := firstOffset_add unit row positive
  rcases Nat.eq_zero_or_pos (firstSlot unit size row) with none_ | some_
  · rw [none_, Nat.zero_mul] at sum
    omega
  · have before := (lt_firstSlot_iff positive).mp (Nat.sub_lt some_ Nat.one_pos)
    rw [Nat.sub_mul, Nat.one_mul] at before
    have : size ≤ firstSlot unit size row * size := Nat.le_mul_of_pos_left size some_
    omega

theorem offset_eq (positive : 0 < size) (units : 0 < unit) (here : slot * size / unit = row) :
    firstOffset unit size row + (slot - firstSlot unit size row) * size = slot * size % unit := by
  have lower := ((row_iff positive units).mp here).1
  have sum := firstOffset_add unit row positive
  have split := Nat.div_add_mod (slot * size) unit
  rw [here, Nat.mul_comm] at split
  have : firstSlot unit size row * size ≤ slot * size := Nat.mul_le_mul_right size lower
  rw [Nat.sub_mul]
  omega

theorem rest_of_row (positive : 0 < size) (fits : size ≤ unit) (row : Nat) :
    (unit - firstOffset unit size row) / size * size + (row + 1) * unit % size = unit - firstOffset unit size row := by
  have sum := firstOffset_add unit row positive
  have small := firstOffset_lt unit row positive
  have total : (row + 1) * unit = unit - firstOffset unit size row + firstSlot unit size row * size := by
    rw [Nat.succ_mul]
    omega
  rw [total, Nat.add_mul_mod_self_right, Nat.mul_comm]
  exact Nat.div_add_mod _ _

theorem next_row_even (positive : 0 < size) (fits : size ≤ unit) (even : (row + 1) * unit % size = 0) :
    firstSlot unit size (row + 1) = firstSlot unit size row + (unit - firstOffset unit size row) / size ∧
      firstOffset unit size row + (unit - firstOffset unit size row) / size * size = unit := by
  have sum := firstOffset_add unit row positive
  have small := firstOffset_lt unit row positive
  have whole := rest_of_row positive fits row
  rw [even] at whole
  refine ⟨?_, by omega⟩
  apply Nat.le_antisymm
  · simp only [firstSlot_le_iff positive, Nat.add_mul, Nat.one_mul]
    omega
  · refine Nat.le_of_not_lt fun less => ?_
    have before : (row + 1) * unit ≤ firstSlot unit size (row + 1) * size := (firstSlot_le_iff positive).mp (Nat.le_refl _)
    have short : (firstSlot unit size (row + 1) + 1) * size ≤
        (firstSlot unit size row + (unit - firstOffset unit size row) / size) * size :=
      Nat.mul_le_mul_right size less
    simp only [Nat.add_mul, Nat.one_mul] at before short
    omega

theorem next_row (positive : 0 < size) (fits : size ≤ unit) (ragged : (row + 1) * unit % size ≠ 0) :
    firstSlot unit size (row + 1) = firstSlot unit size row + (unit - firstOffset unit size row) / size + 1 ∧
      firstOffset unit size row + (unit - firstOffset unit size row) / size * size < unit ∧
      firstOffset unit size (row + 1) =
        (firstOffset unit size row + (unit - firstOffset unit size row) / size * size + size) % unit := by
  have sum := firstOffset_add unit row positive
  have small := firstOffset_lt unit row positive
  have whole := rest_of_row positive fits row
  have rest := Nat.mod_lt ((row + 1) * unit) positive
  have count : firstSlot unit size (row + 1) = firstSlot unit size row + (unit - firstOffset unit size row) / size + 1 := by
    apply Nat.le_antisymm
    · simp only [firstSlot_le_iff positive, Nat.add_mul, Nat.one_mul]
      omega
    · simp only [Nat.succ_le_iff, lt_firstSlot_iff positive, Nat.add_mul, Nat.one_mul]
      omega
  refine ⟨count, by omega, ?_⟩
  have next := firstOffset_add unit (row + 1) positive
  simp only [count, Nat.add_mul, Nat.one_mul] at next
  have beyond : firstOffset unit size row + (unit - firstOffset unit size row) / size * size + size =
      unit + firstOffset unit size (row + 1) := by
    omega
  have next_small := firstOffset_lt unit (row + 1) positive
  rw [beyond, Nat.add_mod_left, Nat.mod_eq_of_lt (by omega)]

end Compcache.Library.Carving
