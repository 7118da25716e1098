import Mathlib.Data.List.Nodup
import Compcache.Library.PagedMemory

/-! Pages seen one behind the other as one stretch of bytes, the way a mapping shows
pages that lie apart. -/

namespace Compcache.Library.Windows
open PagedMemory

variable {ι : Type} {unit start count offset : Nat} {window : List ι} {memory before after : Memory ι} {data : List UInt8}
    {page : ι} {address : Nat}

/-- The bytes of a window from a position on. -/
def Within (unit : Nat) (window : List ι) (start count : Nat) (page : ι) (address : Nat) : Prop :=
  ∃ position, start ≤ position ∧ position < start + count ∧ window[position / unit]? = some page ∧ position % unit = address

theorem Within.mono {first length : Nat} (within : Within unit window start count page address) (lower : first ≤ start)
    (upper : start + count ≤ first + length) :
    Within unit window first length page address := by
  obtain ⟨position, least, most, rest⟩ := within
  exact ⟨position, lower.trans least, most.trans_le upper, rest⟩

theorem Within.mem (within : Within unit window start count page address) : page ∈ window := by
  obtain ⟨_, _, _, here, _⟩ := within
  exact List.mem_of_getElem? here

def readWindow (unit : Nat) (memory : Memory ι) (window : List ι) (start count : Nat) : List UInt8 :=
  (List.range count).map fun index => (window[(start + index) / unit]?).elim 0 fun page => memory page ((start + index) % unit)

@[simp] theorem readWindow_length : (readWindow unit memory window start count).length = count := by
  rw [readWindow, List.length_map, List.length_range]

/-- `data` takes the place of the bytes from `offset` on. -/
def splice (bytes : List UInt8) (offset : Nat) (data : List UInt8) :
    List UInt8 := bytes.take offset ++ data ++ bytes.drop (offset + data.length)

theorem splice_read {bytes : List UInt8} (fits : offset ≤ bytes.length) :
    ((splice bytes offset data).drop offset).take data.length = data := by
  have front : (bytes.take offset).length = offset := List.length_take_of_le fits
  rw [splice, List.append_assoc, List.drop_left' front, List.take_left]

theorem splice_getElem? {bytes : List UInt8} {index : Nat} (fits : offset + data.length ≤ bytes.length) :
    (splice bytes offset data)[index]? = if offset ≤ index ∧
      index < offset + data.length then data[index - offset]? else bytes[index]? := by
  have front : (bytes.take offset).length = offset := List.length_take_of_le (by omega)
  rw [splice]
  split
  next inside => rw [List.append_assoc, List.getElem?_append_right (by omega), front, List.getElem?_append_left (by omega)]
  next outside =>
    rcases Nat.lt_or_ge index offset with early | late
    · rw [List.append_assoc, List.getElem?_append_left (by omega), List.getElem?_take_of_lt early]
    · rw [List.getElem?_append_right (by simp only [List.length_append, front]; omega), List.length_append, front, List.getElem?_drop]
      congr 1
      omega

theorem readWindow_congr (same : ∀ page address, Within unit window start count page address → after page address = before page address) :
    readWindow unit after window start count = readWindow unit before window start count := by
  refine List.map_congr_left fun index member => ?_
  have less := List.mem_range.mp member
  cases here : window[(start + index) / unit]? with
  | none => rfl
  | some page => exact same page _ ⟨start + index, Nat.le_add_right .., by omega, here, rfl⟩

variable [DecidableEq ι]

/-- The memory after `data` is written to a window. -/
def writeWindow (unit : Nat) (memory : Memory ι) (window : List ι) (start : Nat) (data : List UInt8) : Memory ι := fun page address =>
  let position := window.idxOf page * unit + address
  if page ∈ window ∧ address < unit ∧ start ≤ position then (data[position - start]?).getD (memory page address) else memory page address

theorem ChangesOnly.writeWindow (units : 0 < unit) :
    ChangesOnly (Within unit window start data.length) memory (writeWindow unit memory window start data) := by
  intro page address outside
  unfold Windows.writeWindow
  dsimp only
  split
  next inside =>
    obtain ⟨member, small, lower⟩ := inside
    rw [List.getElem?_eq_none, Option.getD_none]
    refine Nat.le_of_not_lt fun less => outside ⟨window.idxOf page * unit + address, lower, by omega, ?_, ?_⟩
    · rw [Nat.mul_comm, Nat.mul_add_div units, Nat.div_eq_of_lt small, Nat.add_zero, List.getElem?_idxOf member]
    · rw [Nat.mul_comm, Nat.mul_add_mod, Nat.mod_eq_of_lt small]
  next => rfl

theorem writeWindow_at (units : 0 < unit) (nodup : window.Nodup) {position : Nat} (here : window[position / unit]? = some page)
    (lower : start ≤ position) :
    writeWindow unit memory window start data page (position % unit) = (data[position - start]?).getD (memory page (position % unit)) := by
  obtain ⟨inside, same⟩ := List.getElem?_eq_some_iff.mp here
  have index : window.idxOf page = position / unit := by rw [← same, nodup.idxOf_getElem]
  have whole : position / unit * unit + position % unit = position := by rw [Nat.mul_comm]; exact Nat.div_add_mod ..
  rw [writeWindow, index, whole, if_pos ⟨List.mem_of_getElem? here, Nat.mod_lt _ units, lower⟩]

theorem writeWindow_before (nodup : window.Nodup) {position : Nat} (here : window[position / unit]? = some page)
    (early : position < start) :
    writeWindow unit memory window start data page (position % unit) = memory page (position % unit) := by
  obtain ⟨inside, same⟩ := List.getElem?_eq_some_iff.mp here
  have index : window.idxOf page = position / unit := by rw [← same, nodup.idxOf_getElem]
  have whole : position / unit * unit + position % unit = position := by rw [Nat.mul_comm]; exact Nat.div_add_mod ..
  rw [writeWindow, index, whole, if_neg]
  omega

theorem readWindow_write (units : 0 < unit) (nodup : window.Nodup) (inside : start + count ≤ window.length * unit)
    (fits : offset + data.length ≤ count) :
    readWindow unit (writeWindow unit memory window (start + offset) data) window start count =
      splice (readWindow unit memory window start count) offset data := by
  refine List.ext_getElem? fun index => ?_
  rw [splice_getElem? (by rwa [readWindow_length])]
  rcases Nat.lt_or_ge index count with less | more
  · have page : ∃ page, window[(start + index) / unit]? = some page := by
      refine ⟨_, List.getElem?_eq_getElem ?_⟩
      rw [Nat.div_lt_iff_lt_mul units]
      omega
    obtain ⟨page, here⟩ := page
    have byte (memory : Memory ι) : (readWindow unit memory window start count)[index]? = some (memory page ((start + index) % unit)) := by
      rw [readWindow, List.getElem?_map, List.getElem?_range less, Option.map_some, here, Option.elim_some]
    rw [byte, byte]
    split
    next between =>
      rw [writeWindow_at units nodup here (by omega), show start + index - (start + offset) = index - offset by omega,
        List.getElem?_eq_getElem (by omega), Option.getD_some]
    next apart =>
      rcases Nat.lt_or_ge index offset with early | late
      · rw [writeWindow_before nodup here (by omega)]
      · rw [writeWindow_at units nodup here (by omega), List.getElem?_eq_none (by omega), Option.getD_none]
  · rw [if_neg (by omega), List.getElem?_eq_none (by rwa [readWindow_length]), List.getElem?_eq_none (by rwa [readWindow_length])]

end Compcache.Library.Windows
