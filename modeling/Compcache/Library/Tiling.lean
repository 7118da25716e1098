import Mathlib.Logic.Basic

/-! Exact tilings of an interval. A partial map gives the length of the block
that starts at a position; the blocks follow each other without gap or overlap. -/

namespace Compcache.Library.Tiling

/-- Walking from `start` by the length found at each position ends exactly at
`stop`, and no block starts inside another. -/
inductive Tiles (length : Nat → Option Nat) : Nat → Nat → Prop where
  | done (stop : Nat) : Tiles length stop stop
  | block {start size stop : Nat} (found : length start = some size) (positive : 0 < size)
      (inner : ∀ position, start < position → position < start + size → length position = none)
      (rest : Tiles length (start + size) stop) : Tiles length start stop

variable {length other : Nat → Option Nat} {start middle stop position size : Nat}

namespace Tiles

theorem le (tiles : Tiles length start stop) : start ≤ stop := by
  induction tiles with
  | done stop => exact Nat.le_refl stop
  | block found positive inner rest ih => omega

theorem single (found : length start = some size) (positive : 0 < size)
    (inner : ∀ position, start < position → position < start + size → length position = none) :
    Tiles length start (start + size) :=
  .block found positive inner (.done _)

theorem append (first : Tiles length start middle) (second : Tiles length middle stop) : Tiles length start stop := by
  induction first with
  | done => exact second
  | block found positive inner rest ih => exact .block found positive inner (ih second)

theorem congr (tiles : Tiles length start stop)
    (same : ∀ position, start ≤ position → position < stop → other position = length position) :
    Tiles other start stop := by
  induction tiles with
  | done stop => exact .done stop
  | @block start size stop found positive inner rest ih =>
    have bound := rest.le
    refine .block ((same start (Nat.le_refl _) (by omega)).trans found) positive ?_
      (ih fun position lower upper => same position (by omega) upper)
    intro position lower upper
    rw [same position (by omega) (by omega)]
    exact inner position lower upper

theorem first_isSome (tiles : Tiles length start stop) (nonempty : start < stop) : (length start).isSome := by
  cases tiles with
  | done => omega
  | block found => simp [found]

theorem inside (tiles : Tiles length start stop) (lower : start ≤ position) (upper : position < stop)
    (found : length position = some size) : 0 < size ∧ position + size ≤ stop := by
  induction tiles with
  | done => omega
  | @block start width stop here positive inner rest ih =>
    have bound := rest.le
    by_cases same : position = start
    · subst position
      obtain rfl : width = size := by simpa [here] using found
      exact ⟨positive, bound⟩
    · by_cases strictly : position < start + width
      · simp [inner position (by omega) strictly] at found
      · exact ih (by omega) upper

/-- The position where a block ends is the end of the interval or the start of
the following block. -/
theorem next (tiles : Tiles length start stop) (lower : start ≤ position) (upper : position < stop)
    (found : length position = some size) (short : position + size < stop) : (length (position + size)).isSome := by
  induction tiles with
  | done => omega
  | @block start width stop here positive inner rest ih =>
    by_cases same : position = start
    · subst position
      obtain rfl : width = size := by simpa [here] using found
      exact rest.first_isSome short
    · by_cases strictly : position < start + width
      · simp [inner position (by omega) strictly] at found
      · exact ih (by omega) upper short

theorem apart (tiles : Tiles length start stop) (lower : start ≤ position) (upper : position < stop)
    (found : length position = some size) {later : Nat} (after : position < later) (before : later < position + size) :
    length later = none := by
  induction tiles with
  | done => omega
  | @block start width stop here positive inner rest ih =>
    by_cases same : position = start
    · subst position
      obtain rfl : width = size := by simpa [here] using found
      exact inner later after before
    · by_cases strictly : position < start + width
      · simp [inner position (by omega) strictly] at found
      · exact ih (by omega) upper

theorem previous (tiles : Tiles length start stop) (lower : start < position) (upper : position < stop)
    (found : (length position).isSome) :
    ∃ before size, start ≤ before ∧ length before = some size ∧ before + size = position := by
  induction tiles with
  | done => omega
  | @block start width stop here positive inner rest ih =>
    rcases Nat.lt_trichotomy position (start + width) with within | equal | beyond
    · simp [inner position lower within] at found
    · exact ⟨start, width, Nat.le_refl _, here, equal.symm⟩
    · obtain ⟨before, size, after, present, ends⟩ := ih beyond upper
      exact ⟨before, size, by omega, present, ends⟩

theorem split (tiles : Tiles length start stop) (lower : start ≤ middle) (upper : middle ≤ stop)
    (boundary : middle = stop ∨ (length middle).isSome) : Tiles length start middle ∧ Tiles length middle stop := by
  induction tiles with
  | done stop =>
    obtain rfl : middle = stop := by omega
    exact ⟨.done _, .done _⟩
  | @block start width stop here positive inner rest ih =>
    by_cases same : middle = start
    · subst middle
      exact ⟨.done _, .block here positive inner rest⟩
    · have bound := rest.le
      have beyond : start + width ≤ middle := by
        apply Classical.byContradiction
        intro within
        have absent := inner middle (by omega) (by omega)
        rcases boundary with equal | present
        · omega
        · simp [absent] at present
      obtain ⟨left, right⟩ := ih beyond upper boundary
      exact ⟨.block here positive inner left, right⟩

/-- The step lemma of every change to a tiling: between two boundaries it may
be exchanged for any other tiling of the same stretch. -/
theorem replace {low high : Nat} (tiles : Tiles length start stop) (lower : start ≤ low) (upper : high ≤ stop)
    (lowBoundary : low = stop ∨ (length low).isSome) (highBoundary : high = stop ∨ (length high).isSome)
    (replacement : Tiles other low high)
    (same : ∀ position, position < low ∨ high ≤ position → other position = length position) :
    Tiles other start stop := by
  have ordered := replacement.le
  have left := (tiles.split lower (by omega) lowBoundary).1
  have right := (tiles.split (by omega) upper highBoundary).2
  exact (left.congr fun position _ before => same position (.inl before)).append
    (replacement.append (right.congr fun position after _ => same position (.inr after)))

end Tiles
end Compcache.Library.Tiling
