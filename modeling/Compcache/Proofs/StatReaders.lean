import Compcache.StatReaders

/-! What the two readers make of the same turns of their loops. -/

namespace Compcache.StatReaders
open Library.PerCpu Library.Runs

section Cells
variable {before after : Cell} {attempt : Attempt}

/-- A sequence count never goes back, and a counter whose sequence count is even and
stays is not updated. -/
theorem Cell.run_still (run : AnyRun Cell.step before after) :
    before.sequence ≤ after.sequence ∧ (before.sequence % 2 = 0 → after.sequence = before.sequence → after = before) := by
  induction run with
  | start => exact ⟨Nat.le_refl _, fun _ _ => rfl⟩
  | @step middle last update _ _ taken ih =>
    obtain ⟨least, still⟩ := ih
    cases update with
    | begin =>
      simp only [Cell.step, Option.ite_none_right_eq_some, Option.some.injEq] at taken
      obtain ⟨_, rfl⟩ := taken
      exact ⟨Nat.le_succ_of_le least, fun _ same => absurd same (by dsimp only; omega)⟩
    | add value =>
      simp only [Cell.step, Option.ite_none_right_eq_some, Option.some.injEq] at taken
      obtain ⟨odd, rfl⟩ := taken
      exact ⟨least, fun even same => absurd odd (by dsimp only at same; omega)⟩
    | finish =>
      simp only [Cell.step, Option.ite_none_right_eq_some, Option.some.injEq] at taken
      obtain ⟨_, rfl⟩ := taken
      exact ⟨Nat.le_succ_of_le least, fun _ same => absurd same (by dsimp only; omega)⟩

theorem Attempt.Seen.accepted (seen : attempt.Seen before after) (last : fetchRetry attempt = false) : attempt.count = after.count := by
  obtain ⟨first, middle, _, even, start, one, count, two, found⟩ := seen
  have same : attempt.found = attempt.start := not_not.mp (of_decide_eq_false last)
  have least := (Cell.run_still one).1
  have most := (Cell.run_still two).1
  have stays : middle.sequence = first.sequence := by omega
  have untouched := (Cell.run_still two).2 (by omega) (by omega)
  rw [untouched]
  exact count (by omega)

end Cells

section Readers
variable {history : List (List Attempt)} {attempts : List Attempt}

def rejected (attempts : List Attempt) : List Attempt := attempts.takeWhile fetchRetry

/-- The counter seen in the turn that ends a loop. -/
def accepted (attempts : List Attempt) : Int := (attempts.find? fun attempt => fetchRetry attempt = false).elim 0 Attempt.count

def Ends (attempts : List Attempt) : Prop := ∃ attempt ∈ attempts, fetchRetry attempt = false

def acceptedSum (history : List (List Attempt)) : Int := (history.map accepted).sum

def rejectedSum (history : List (List Attempt)) : Int := (history.map fun attempts => ((rejected attempts).map Attempt.count).sum).sum

theorem zramFetch_eq (ends : Ends attempts) : zramFetch attempts = some (accepted attempts) := by
  induction attempts with
  | nil =>
    obtain ⟨_, member, _⟩ := ends
    cases member
  | cons attempt rest ih =>
    rw [zramFetch, accepted, List.find?_cons]
    cases again : fetchRetry attempt with
    | false => rfl
    | true =>
      obtain ⟨last, member, still⟩ := ends
      rcases List.mem_cons.mp member with rfl | later
      · rw [again] at still
        cases still
      · exact ih ⟨last, later, still⟩

theorem wrap64_add (first second : Int) : wrap64 (wrap64 first + second) = wrap64 (first + second) := Int.bmod_add_bmod ..

theorem zcacheFetch_eq (ends : Ends attempts) (val : Int) :
    zcacheFetch (wrap64 val) attempts = some (wrap64 (val + ((rejected attempts).map Attempt.count).sum + accepted attempts)) := by
  induction attempts generalizing val with
  | nil =>
    obtain ⟨_, member, _⟩ := ends
    cases member
  | cons attempt rest ih =>
    rw [zcacheFetch, wrap64_add, rejected, accepted, List.find?_cons, List.takeWhile_cons]
    cases again : fetchRetry attempt with
    | false =>
      show some _ = some (wrap64 (val + 0 + attempt.count))
      rw [add_zero]
    | true =>
      have later : Ends rest := by
        obtain ⟨last, member, still⟩ := ends
        rcases List.mem_cons.mp member with rfl | later
        · rw [again] at still
          cases still
        · exact ⟨last, later, still⟩
      rw [if_pos rfl, ih later]
      show some (wrap64 (val + attempt.count + _ + accepted rest)) =
        some (wrap64 (val + ((attempt :: rejected rest).map Attempt.count).sum + accepted rest))
      rw [List.map_cons, List.sum_cons, add_assoc val]

theorem zcache_fold (ends : ∀ attempts ∈ history, Ends attempts) (val : Int) :
    history.foldlM zcacheFetch (wrap64 val) = some (wrap64 (val + rejectedSum history + acceptedSum history)) := by
  induction history generalizing val with
  | nil => simp [rejectedSum, acceptedSum]
  | cons attempts rest ih =>
    rw [List.foldlM_cons, zcacheFetch_eq (ends attempts List.mem_cons_self), Option.bind_eq_bind, Option.bind_some,
      ih fun others member => ends others (List.mem_cons_of_mem _ member)]
    simp only [rejectedSum, acceptedSum, List.map_cons, List.sum_cons]
    congr 2
    omega

theorem zram_fold (ends : ∀ attempts ∈ history, Ends attempts) (val : Int) :
    history.foldlM (fun val attempts => (zramFetch attempts).map fun temp => wrap64 (val + temp)) (wrap64 val) =
      some (wrap64 (val + acceptedSum history)) := by
  induction history generalizing val with
  | nil => simp [acceptedSum]
  | cons attempts rest ih =>
    rw [List.foldlM_cons, zramFetch_eq (ends attempts List.mem_cons_self), Option.map_some, Option.bind_eq_bind,
      Option.bind_some, wrap64_add,
      ih fun others member => ends others (List.mem_cons_of_mem _ member)]
    simp only [acceptedSum, List.map_cons, List.sum_cons, add_assoc]

/-- Both readers return the sum of what they saw last on each CPU. -/
def Agree (history : List (List Attempt)) : Prop :=
  zcacheGetStat history = some (acceptedSum history % 2 ^ 64).toNat ∧ zramGetStat history = some (acceptedSum history % 2 ^ 64).toNat

theorem wrap64_cases (value : Int) : wrap64 value = if value % 2 ^ 64 < 2 ^ 63 then value % 2 ^ 64 else value % 2 ^ 64 - 2 ^ 64 :=
  Int.bmod_def ..

/-- The readers agree just when what `zcache_get_stat` saw in turns it repeated adds
up to nothing, and the sum is one it takes for possible. -/
theorem agree_iff (ends : ∀ attempts ∈ history, Ends attempts) :
    Agree history ↔ 2 ^ 64 ∣ rejectedSum history ∧ 0 ≤ wrap64 (acceptedSum history) := by
  have zcache := zcache_fold ends 0
  have zram := zram_fold ends 0
  rw [show wrap64 0 = 0 by decide, zero_add] at zcache zram
  have same : zramGetStat history = some (acceptedSum history % 2 ^ 64).toNat := by
    rw [zramGetStat, zram, Option.map_some]
    exact congrArg (fun value : Int => some value.toNat) Int.bmod_emod
  have shown (sum : Int) : (if wrap64 sum < 0 then none else some (wrap64 sum).toNat) =
      if sum % 2 ^ 64 < 2 ^ 63 then some (sum % 2 ^ 64).toNat else none := by
    rw [wrap64_cases]
    rcases lt_or_ge (sum % 2 ^ 64) (2 ^ 63) with low | high
    · rw [if_pos low, if_pos low, if_neg (by omega)]
    · have above := Int.emod_lt_of_pos sum (show (0 : Int) < 2 ^ 64 by decide)
      rw [if_neg (not_lt.mpr high), if_neg (not_lt.mpr high), if_pos (by omega)]
  rw [Agree, and_iff_left same, zcacheGetStat, zcache, Option.bind_some, shown, wrap64_cases]
  generalize acceptedSum history = last
  generalize rejectedSum history = repeated
  constructor
  · intro agrees
    split at agrees
    next low =>
      have sums := Option.some.inj agrees
      have parts : (repeated + last) % 2 ^ 64 = last % 2 ^ 64 := by omega
      rw [← parts, if_pos low]
      omega
    next => cases agrees
  · rintro ⟨nothing, possible⟩
    have parts : (repeated + last) % 2 ^ 64 = last % 2 ^ 64 := by omega
    rw [parts, if_pos]
    split at possible <;> omega

end Readers

section Sample

/-- A counter of one CPU is 5, and goes up to 6 while it is read for the first time. -/
def updatedOnce : List (List Attempt) := [[⟨0, 5, 2⟩, ⟨2, 6, 2⟩]]

theorem updatedOnce_seen : ∃ middle after : Cell, (⟨0, 5, 2⟩ : Attempt).Seen ⟨0, 5⟩ middle ∧ (⟨2, 6, 2⟩ : Attempt).Seen middle after := by
  have updated : AnyRun Cell.step ⟨0, 5⟩ ⟨2, 6⟩ :=
    .of_steps (fun _ _ _ => trivial) (show steps Cell.step ⟨0, 5⟩ [.begin, .add 1, .finish] = some ⟨2, 6⟩ from rfl)
  exact ⟨⟨2, 6⟩, ⟨2, 6⟩, ⟨⟨0, 5⟩, ⟨0, 5⟩, .start, rfl, rfl, .start, fun _ => rfl, updated, rfl⟩,
    ⟨2, 6⟩, ⟨2, 6⟩, .start, rfl, rfl, .start, fun _ => rfl, .start, rfl⟩

/-- zcache counts the first look at it too. -/
theorem retry_counted : (∃ middle after : Cell, (⟨0, 5, 2⟩ : Attempt).Seen ⟨0, 5⟩ middle ∧ (⟨2, 6, 2⟩ : Attempt).Seen middle after) ∧
    zcacheGetStat updatedOnce = some 11 ∧ zramGetStat updatedOnce = some 6 := ⟨updatedOnce_seen, by decide, by decide⟩

/-- On two CPUs: the first counter is 0 and goes up to 6 while it is read, so that it is
read again; the second is read in one turn. -/
def updatedFromZero : List (List Attempt) := [[⟨0, 0, 2⟩, ⟨2, 6, 2⟩], [⟨4, 2, 4⟩]]

/-- A turn that is repeated does no harm if it saw nothing. -/
theorem agree_iff_sample : (∃ middle after : Cell, (⟨0, 0, 2⟩ : Attempt).Seen ⟨0, 0⟩ middle ∧ (⟨2, 6, 2⟩ : Attempt).Seen middle after) ∧
    fetchRetry ⟨0, 0, 2⟩ = true ∧ Agree updatedFromZero ∧ acceptedSum updatedFromZero = 8 := by
  have updated : AnyRun Cell.step ⟨0, 0⟩ ⟨2, 6⟩ :=
    .of_steps (fun _ _ _ => trivial) (show steps Cell.step ⟨0, 0⟩ [.begin, .add 6, .finish] = some ⟨2, 6⟩ from rfl)
  have ends : ∀ attempts ∈ updatedFromZero, Ends attempts := by
    intro attempts member
    rcases List.mem_pair.mp member with rfl | rfl
    · exact ⟨⟨2, 6, 2⟩, by simp, rfl⟩
    · exact ⟨_, List.mem_singleton_self _, rfl⟩
  refine ⟨⟨⟨2, 6⟩, ⟨2, 6⟩, ?_, ?_⟩, rfl, (agree_iff ends).mpr ⟨by decide, by decide⟩, by decide⟩
  · exact ⟨⟨0, 0⟩, ⟨0, 0⟩, .start, rfl, rfl, .start, fun _ => rfl, updated, rfl⟩
  · exact ⟨⟨2, 6⟩, ⟨2, 6⟩, .start, rfl, rfl, .start, fun _ => rfl, .start, rfl⟩

end Sample
end Compcache.StatReaders
