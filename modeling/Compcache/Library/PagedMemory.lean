import Mathlib.Logic.Function.Basic
import Mathlib.Tactic.Ring

/-! Byte-addressed memory split into pages, with little-endian words. Every
write has a closed form, so what it leaves alone is read off its range. -/

namespace Compcache.Library.PagedMemory

abbrev PageBytes := Nat → UInt8

/-- Pages of bytes; `ι` is whatever names a page. -/
abbrev Memory (ι : Type) := ι → PageBytes

/-- The word of `width` bytes at `offset`, least significant byte first. -/
def PageBytes.load (bytes : PageBytes) (offset : Nat) : Nat → Nat
  | 0 => 0
  | width + 1 => (bytes offset).toNat + 256 * PageBytes.load bytes (offset + 1) width

/-- Store the low `width` bytes of `value` at `offset`. -/
def PageBytes.store (bytes : PageBytes) (offset width value : Nat) : PageBytes := fun address =>
  if offset ≤ address ∧ address < offset + width then UInt8.ofNat (value / 256 ^ (address - offset)) else bytes address

theorem PageBytes.load_congr {first second : PageBytes} {offset width : Nat}
    (same : ∀ address, offset ≤ address → address < offset + width → first address = second address) :
    first.load offset width = second.load offset width := by
  induction width generalizing offset with
  | zero => rfl
  | succ width ih =>
    simp only [PageBytes.load]
    rw [same offset (by omega) (by omega), ih (fun address lower upper => same address (by omega) (by omega))]

theorem PageBytes.load_store (bytes : PageBytes) (offset width value : Nat) :
    (bytes.store offset width value).load offset width = value % 256 ^ width := by
  have shifted (width start value : Nat) (bytes : PageBytes)
      (stored : ∀ index, index < width → bytes (start + index) = UInt8.ofNat (value / 256 ^ index)) :
      bytes.load start width = value % 256 ^ width := by
    induction width generalizing start value with
    | zero => simp [PageBytes.load, Nat.mod_one]
    | succ width ih =>
      have first : bytes start = UInt8.ofNat value := by simpa using stored 0 (by omega)
      have rest := ih (start + 1) (value / 256) (by
        intro index inside
        have byte := stored (index + 1) (by omega)
        rw [Nat.div_div_eq_div_mul, ← Nat.pow_succ']
        rw [show start + 1 + index = start + (index + 1) by omega]
        exact byte)
      have byte : (UInt8.ofNat value).toNat = value % 256 := by simp
      have split : value % 256 ^ (width + 1) = value % 256 + 256 * (value / 256 % 256 ^ width) := by
        rw [Nat.pow_succ', Nat.mod_mul]
      simp only [PageBytes.load, first, rest, byte, split]
  apply shifted
  intro index inside
  simp [PageBytes.store, inside]

theorem PageBytes.store_outside (bytes : PageBytes) {offset width value address : Nat}
    (outside : address < offset ∨ offset + width ≤ address) :
    bytes.store offset width value address = bytes address := by
  simp only [PageBytes.store]
  rw [if_neg (by omega)]

theorem PageBytes.load_store_apart (bytes : PageBytes) {offset width value position size : Nat}
    (apart : position + size ≤ offset ∨ offset + width ≤ position) :
    (bytes.store offset width value).load position size = bytes.load position size :=
  PageBytes.load_congr fun _ lower upper => bytes.store_outside (by omega)

def PageBytes.read (bytes : PageBytes) (offset count : Nat) : List UInt8 :=
  (List.range count).map fun index => bytes (offset + index)

def PageBytes.write (bytes : PageBytes) (offset : Nat) (data : List UInt8) : PageBytes := fun address =>
  if offset ≤ address then (data[address - offset]?).getD (bytes address) else bytes address

@[simp] theorem PageBytes.read_length (bytes : PageBytes) (offset count : Nat) :
    (bytes.read offset count).length = count := by simp [PageBytes.read]

theorem PageBytes.read_congr {first second : PageBytes} {offset count : Nat}
    (same : ∀ address, offset ≤ address → address < offset + count → first address = second address) :
    first.read offset count = second.read offset count :=
  List.map_congr_left fun index inside => same _ (by omega) (by simp at inside; omega)

theorem PageBytes.load_of_read {first second : PageBytes} {offset count width : Nat}
    (same : first.read offset count = second.read offset count)
    (inside : width ≤ count) : first.load offset width = second.load offset width := by
  refine load_congr fun address lower upper => ?_
  have byte := List.map_inj_left.mp same (address - offset) (List.mem_range.mpr (by omega))
  rwa [Nat.add_sub_cancel' lower] at byte

theorem PageBytes.drop_read (bytes : PageBytes) (offset count front : Nat) :
    (bytes.read offset count).drop front = bytes.read (offset + front) (count - front) := by
  apply List.ext_getElem (by simp)
  intro index _ _
  simp [PageBytes.read, Nat.add_assoc]

theorem PageBytes.write_outside (bytes : PageBytes) {offset address : Nat} {data : List UInt8}
    (outside : address < offset ∨ offset + data.length ≤ address) :
    bytes.write offset data address = bytes address := by
  simp only [PageBytes.write]
  split
  · rw [List.getElem?_eq_none (by omega), Option.getD_none]
  · rfl

theorem PageBytes.read_write (bytes : PageBytes) (offset : Nat) (data : List UInt8) :
    (bytes.write offset data).read offset data.length = data := by
  apply List.ext_getElem (by simp)
  intro index _ inside
  simp [PageBytes.read, PageBytes.write, inside]

variable {ι : Type}

def Memory.load (memory : Memory ι) (page : ι) (offset width : Nat) : Nat := (memory page).load offset width

def Memory.read (memory : Memory ι) (page : ι) (offset count : Nat) : List UInt8 := (memory page).read offset count

/-- Bytes outside `region` are the same in both memories. -/
def ChangesOnly (region : ι → Nat → Prop) (before after : Memory ι) : Prop :=
  ∀ page address, ¬ region page address → after page address = before page address

section
variable {region larger : ι → Nat → Prop} {first second third : Memory ι}

theorem ChangesOnly.refl (region : ι → Nat → Prop) (memory : Memory ι) : ChangesOnly region memory memory :=
  fun _ _ _ => rfl

theorem ChangesOnly.trans (before : ChangesOnly region first second) (after : ChangesOnly region second third) :
    ChangesOnly region first third :=
  fun page address outside => (after page address outside).trans (before page address outside)

theorem ChangesOnly.mono (changes : ChangesOnly region first second) (covers : ∀ page address, region page address → larger page address) :
    ChangesOnly larger first second :=
  fun page address outside => changes page address fun inside => outside (covers page address inside)

theorem ChangesOnly.load (changes : ChangesOnly region first second) {page : ι} {offset width : Nat}
    (outside : ∀ address, offset ≤ address → address < offset + width → ¬ region page address) :
    second.load page offset width = first.load page offset width :=
  PageBytes.load_congr fun address lower upper => changes page address (outside address lower upper)

theorem ChangesOnly.read (changes : ChangesOnly region first second) {page : ι} {offset count : Nat}
    (outside : ∀ address, offset ≤ address → address < offset + count → ¬ region page address) :
    second.read page offset count = first.read page offset count :=
  PageBytes.read_congr fun address lower upper => changes page address (outside address lower upper)

end

variable [DecidableEq ι]

def Memory.modify (memory : Memory ι) (page : ι) (change : PageBytes → PageBytes) : Memory ι :=
  Function.update memory page (change (memory page))

theorem Memory.modify_same (memory : Memory ι) (page : ι) (change : PageBytes → PageBytes) :
    memory.modify page change page = change (memory page) := by simp [Memory.modify]

theorem Memory.modify_other (memory : Memory ι) {page other : ι} (change : PageBytes → PageBytes)
    (different : other ≠ page) : memory.modify page change other = memory other := by
  simp [Memory.modify, different]

def Memory.store (memory : Memory ι) (page : ι) (offset width value : Nat) : Memory ι :=
  memory.modify page fun bytes => bytes.store offset width value

def Memory.write (memory : Memory ι) (page : ι) (offset : Nat) (data : List UInt8) : Memory ι :=
  memory.modify page fun bytes => bytes.write offset data

theorem Memory.load_store (memory : Memory ι) (page : ι) (offset width value : Nat) :
    (memory.store page offset width value).load page offset width = value % 256 ^ width := by
  simp only [Memory.load, Memory.store, Memory.modify_same, PageBytes.load_store]

/-- A load sees a store only when both are on one page and their ranges meet. -/
theorem Memory.load_store_apart (memory : Memory ι) {page other : ι} {offset width value position size : Nat}
    (apart : other ≠ page ∨ position + size ≤ offset ∨ offset + width ≤ position) :
    (memory.store page offset width value).load other position size = memory.load other position size := by
  simp only [Memory.load, Memory.store]
  by_cases same : other = page
  · subst other
    rw [Memory.modify_same]
    exact PageBytes.load_store_apart _ (by simpa using apart)
  · rw [Memory.modify_other _ _ same]

theorem ChangesOnly.store {region : ι → Nat → Prop} (memory : Memory ι) (page : ι) (offset width value : Nat)
    (covers : ∀ address, offset ≤ address → address < offset + width → region page address) :
    ChangesOnly region memory (memory.store page offset width value) := by
  intro other address outside
  simp only [Memory.store]
  by_cases same : other = page
  · subst other
    rw [Memory.modify_same, PageBytes.store_outside]
    apply Classical.byContradiction
    intro inside
    exact outside (covers address (by omega) (by omega))
  · rw [Memory.modify_other _ _ same]

theorem ChangesOnly.write {region : ι → Nat → Prop} (memory : Memory ι) (page : ι) (offset : Nat) (data : List UInt8)
    (covers : ∀ address, offset ≤ address → address < offset + data.length → region page address) :
    ChangesOnly region memory (memory.write page offset data) := by
  intro other address outside
  simp only [Memory.write]
  by_cases same : other = page
  · subst other
    rw [Memory.modify_same, PageBytes.write_outside]
    apply Classical.byContradiction
    intro inside
    exact outside (covers address (by omega) (by omega))
  · rw [Memory.modify_other _ _ same]

theorem ChangesOnly.eq_write {before after : Memory ι} {page : ι} {offset count : Nat}
    (changes : ChangesOnly (fun other address => other = page ∧ offset ≤ address ∧ address < offset + count) before after) :
    after = before.write page offset (after.read page offset count) := by
  funext other address
  by_cases inside : other = page ∧ offset ≤ address ∧ address < offset + count
  · obtain ⟨rfl, lower, upper⟩ := inside
    have within : address - offset < count := by omega
    rw [Memory.write, Memory.modify_same, PageBytes.write, if_pos lower]
    simp [Memory.read, PageBytes.read, within, Nat.add_sub_cancel' lower]
  · have written : ChangesOnly (fun other address => other = page ∧ offset ≤ address ∧ address < offset + count) before
        (before.write page offset (after.read page offset count)) := by
      refine ChangesOnly.write _ _ _ _ fun inner lower upper => ⟨rfl, lower, ?_⟩
      rwa [Memory.read, PageBytes.read_length] at upper
    rw [changes other address inside, written other address inside]

end Compcache.Library.PagedMemory
