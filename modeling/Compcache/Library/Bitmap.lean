import Mathlib.Logic.Function.Basic
import Mathlib.Data.Nat.Basic

/-! Two-level bitmaps over machine words of any width: a second level with one
bit for each index, and a first level with one bit for each nonzero word of it. -/

namespace Compcache.Library.Bitmap

variable {w : Nat}

/-- The index of the lowest set bit; `w` for the zero word. -/
def lowestBit (word : BitVec w) : Nat := (List.range w).findIdx word.getLsbD

theorem before_lowestBit {word : BitVec w} {index : Nat} (before : index < lowestBit word) :
    word.getLsbD index = false := by
  have bound := Nat.lt_of_lt_of_le before List.findIdx_le_length
  have missed := List.not_of_lt_findIdx before
  simpa using missed

theorem lowestBit_lt {word : BitVec w} (nonzero : word ≠ 0#w) : lowestBit word < w := by
  have exists_bit : ∃ index, index < w ∧ word.getLsbD index = true := by
    apply Classical.byContradiction
    intro none
    apply nonzero
    apply BitVec.eq_of_getLsbD_eq
    intro index inside
    cases bit : word.getLsbD index with
    | false => simp
    | true => exact False.elim (none ⟨index, inside, bit⟩)
  obtain ⟨index, inside, bit⟩ := exists_bit
  have found : (List.range w).findIdx word.getLsbD < (List.range w).length :=
    List.findIdx_lt_length_of_exists ⟨index, by simpa using inside, bit⟩
  simpa [lowestBit] using found

theorem lowestBit_set {word : BitVec w} (nonzero : word ≠ 0#w) : word.getLsbD (lowestBit word) = true := by
  have inside : (List.range w).findIdx word.getLsbD < (List.range w).length := by
    simpa [lowestBit] using lowestBit_lt nonzero
  have found := List.findIdx_getElem (w := inside)
  simpa [lowestBit] using found

/-- Searching a word from bit `start` on: the shifted word is zero when no bit
is left, and its lowest bit is the nearest one otherwise. -/
theorem shifted_zero {word : BitVec w} {start : Nat} :
    word >>> start = 0#w ↔ ∀ index, start ≤ index → word.getLsbD index = false := by
  constructor
  · intro zero index after
    have bit := congrArg (fun shifted => BitVec.getLsbD shifted (index - start)) zero
    simpa [Nat.add_sub_cancel' after] using bit
  · intro clear
    apply BitVec.eq_of_getLsbD_eq
    intro index _
    simpa using clear (start + index) (by omega)

theorem shifted_lowestBit {word : BitVec w} {start : Nat} (nonzero : word >>> start ≠ 0#w) :
    word.getLsbD (start + lowestBit (word >>> start)) = true ∧
      ∀ index, start ≤ index → index < start + lowestBit (word >>> start) → word.getLsbD index = false := by
  refine ⟨by simpa using lowestBit_set nonzero, ?_⟩
  intro index after before
  have clear : (word >>> start).getLsbD (index - start) = false := before_lowestBit (by omega)
  simpa [Nat.add_sub_cancel' after] using clear

def setBit (word : BitVec w) (index : Nat) : BitVec w := word ||| BitVec.twoPow w index

def clearBit (word : BitVec w) (index : Nat) : BitVec w := word &&& ~~~(BitVec.twoPow w index)

@[simp] theorem getLsbD_setBit (word : BitVec w) (index position : Nat) :
    (setBit word index).getLsbD position = (word.getLsbD position || (decide (position < w) && decide (position = index))) := by
  simp only [setBit, BitVec.getLsbD_or, BitVec.getLsbD_twoPow]
  by_cases same : position = index
  · subst position; simp
  · simp [same, Ne.symm same]

@[simp] theorem getLsbD_clearBit (word : BitVec w) (index position : Nat) :
    (clearBit word index).getLsbD position = (word.getLsbD position && !decide (position = index)) := by
  simp only [clearBit, BitVec.getLsbD_and, BitVec.getLsbD_not, BitVec.getLsbD_twoPow]
  by_cases inside : position < w
  · by_cases same : position = index
    · subst position; simp [inside]
    · simp [inside, same, Ne.symm same]
  · simp [BitVec.getLsbD_of_ge word position (by omega)]

theorem setBit_ne_zero (word : BitVec w) {index : Nat} (inside : index < w) : setBit word index ≠ 0#w := by
  intro zero
  have bit := congrArg (fun word => BitVec.getLsbD word index) zero
  simp only [getLsbD_setBit] at bit
  simp [inside] at bit

theorem index_le_iff {first second : Nat} :
    first ≤ second ↔ first / w < second / w ∨ first / w = second / w ∧ first % w ≤ second % w := by
  have firstSplit := Nat.div_add_mod first w
  have secondSplit := Nat.div_add_mod second w
  constructor
  · intro ordered
    rcases Nat.lt_or_ge (first / w) (second / w) with less | notLess
    · exact .inl less
    · have same : first / w = second / w := Nat.le_antisymm (Nat.div_le_div_right ordered) notLess
      rw [same] at firstSplit
      exact .inr ⟨same, by omega⟩
  · rintro (less | ⟨same, ordered⟩)
    · exact Nat.le_of_lt (Nat.lt_of_div_lt_div less)
    · rw [same] at firstSplit
      omega

/-- The bitmaps record exactly the indices at which `present` holds. -/
structure Tracks (first : BitVec w) (second : Nat → BitVec w) (present : Nat → Prop) : Prop where
  bit : ∀ index, (second (index / w)).getLsbD (index % w) = true ↔ present index
  word : ∀ index, first.getLsbD index = true ↔ second index ≠ 0#w

namespace Tracks
variable {first : BitVec w} {second : Nat → BitVec w} {present : Nat → Prop}

theorem empty : Tracks (0#w) (fun _ => 0#w) (fun _ => False) :=
  ⟨fun _ => by simp, fun _ => by simp⟩

theorem congr {other : Nat → Prop} (tracks : Tracks first second present)
    (same : ∀ index, other index ↔ present index) : Tracks first second other :=
  ⟨fun index => (tracks.bit index).trans (same index).symm, tracks.word⟩

theorem set (tracks : Tracks first second present) (index : Nat) (inside : index / w < w) :
    Tracks (setBit first (index / w)) (Function.update second (index / w) (setBit (second (index / w)) (index % w)))
      (fun other => other = index ∨ present other) := by
  have positive : 0 < w := Nat.lt_of_le_of_lt (Nat.zero_le _) inside
  have small := Nat.mod_lt index positive
  constructor
  · intro other
    have low := Nat.mod_lt other positive
    by_cases sameWord : other / w = index / w
    · rw [sameWord, Function.update_self, getLsbD_setBit, ← sameWord]
      have bits : other % w = index % w ↔ other = index := by
        constructor
        · intro same
          rw [← Nat.div_add_mod other w, ← Nat.div_add_mod index w, sameWord, same]
        · intro same
          rw [same]
      simp only [low, decide_true, Bool.true_and, Bool.or_eq_true, tracks.bit, decide_eq_true_eq, bits]
      exact Or.comm
    · rw [Function.update_of_ne sameWord, tracks.bit]
      have different : other ≠ index := fun same => sameWord (by rw [same])
      simp [different]
  · intro word
    by_cases sameWord : word = index / w
    · subst word
      simp [inside, setBit_ne_zero _ small]
    · rw [Function.update_of_ne sameWord, getLsbD_setBit]
      simpa [sameWord] using tracks.word word

theorem clear (tracks : Tracks first second present) (index : Nat) (inside : index / w < w) :
    Tracks
      (if clearBit (second (index / w)) (index % w) = 0#w then clearBit first (index / w) else first)
      (Function.update second (index / w) (clearBit (second (index / w)) (index % w)))
      (fun other => other ≠ index ∧ present other) := by
  have positive : 0 < w := Nat.lt_of_le_of_lt (Nat.zero_le _) inside
  constructor
  · intro other
    by_cases sameWord : other / w = index / w
    · rw [sameWord, Function.update_self, getLsbD_clearBit, ← sameWord]
      have bits : other % w = index % w ↔ other = index := by
        constructor
        · intro same
          rw [← Nat.div_add_mod other w, ← Nat.div_add_mod index w, sameWord, same]
        · intro same
          rw [same]
      simp only [Bool.and_eq_true, tracks.bit, Bool.not_eq_true', decide_eq_false_iff_not, bits]
      exact And.comm
    · rw [Function.update_of_ne sameWord, tracks.bit]
      have different : other ≠ index := fun same => sameWord (by rw [same])
      simp [different]
  · intro word
    by_cases sameWord : word = index / w
    · subst word
      rw [Function.update_self]
      split
      next zero => simp [zero]
      next nonzero =>
        have before : second (index / w) ≠ 0#w := by
          intro zero
          exact nonzero (by simp [zero, clearBit])
        simp [nonzero, (tracks.word _).mpr before]
    · rw [Function.update_of_ne sameWord]
      split
      · rw [getLsbD_clearBit]
        simpa [sameWord] using tracks.word word
      · exact tracks.word word

end Tracks
end Compcache.Library.Bitmap
