import Mathlib.Logic.Function.Basic

/-! Things kept in a table of slots, each thing in exactly one slot. -/

namespace Compcache.Library.Ownership

variable {ι α : Type*}

/-- The things that exist are those some slot holds, and no two slots hold the same. -/
structure Holders (slots : ι → Option α) (held : α → Prop) : Prop where
  held_iff : ∀ thing, held thing ↔ ∃ holder, slots holder = some thing
  single : ∀ {first second thing}, slots first = some thing → slots second = some thing → first = second

variable {slots : ι → Option α} {held other : α → Prop} {thing : α} {holder : ι}

theorem Holders.empty : Holders (fun _ : ι => none) (fun _ : α => False) := ⟨by simp, by simp⟩

theorem Holders.congr (holders : Holders slots held) (same : ∀ thing, other thing ↔ held thing) : Holders slots other :=
  ⟨fun thing => (same thing).trans (holders.held_iff thing), holders.single⟩

theorem Holders.of_slot (holders : Holders slots held) (here : slots holder = some thing) : held thing :=
  (holders.held_iff thing).mpr ⟨holder, here⟩

theorem Holders.unique (holders : Holders slots held) (existing : held thing) : ∃! holder, slots holder = some thing := by
  obtain ⟨holder, here⟩ := (holders.held_iff thing).mp existing
  exact ⟨holder, here, fun another there => holders.single there here⟩

variable [DecidableEq ι]

theorem Holders.fill (holders : Holders slots held) (vacant : slots holder = none) (fresh : ¬ held thing) :
    Holders (Function.update slots holder (some thing)) fun another => held another ∨ another = thing := by
  have kept {another : ι} {found : α} (there : slots another = some found) :
      Function.update slots holder (some thing) another = some found := by
    rw [Function.update_of_ne, there]
    rintro rfl
    rw [vacant] at there
    cases there
  have shape {another : ι} {found : α} (there : Function.update slots holder (some thing) another = some found) :
      another = holder ∧ found = thing ∨ slots another = some found := by
    rcases Classical.em (another = holder) with rfl | elsewhere
    · rw [Function.update_self, Option.some.injEq] at there
      exact .inl ⟨rfl, there.symm⟩
    · exact .inr ((Function.update_of_ne elsewhere ..).symm.trans there)
  constructor
  · intro found
    constructor
    · rintro (existing | rfl)
      · obtain ⟨another, there⟩ := (holders.held_iff found).mp existing
        exact ⟨another, kept there⟩
      · exact ⟨holder, Function.update_self ..⟩
    · rintro ⟨another, there⟩
      rcases shape there with ⟨_, same⟩ | old
      · exact .inr same
      · exact .inl (holders.of_slot old)
  · intro first second found firstHolds secondHolds
    rcases shape firstHolds with ⟨rfl, rfl⟩ | firstOld <;> rcases shape secondHolds with ⟨rfl, same⟩ | secondOld
    · rfl
    · exact absurd (holders.of_slot secondOld) fresh
    · exact absurd (holders.of_slot (same ▸ firstOld)) fresh
    · exact holders.single firstOld secondOld

theorem Holders.clear (holders : Holders slots held) (here : slots holder = some thing) :
    Holders (Function.update slots holder none) fun another => held another ∧ another ≠ thing := by
  have shape {another : ι} {found : α} (there : Function.update slots holder none another = some found) :
      another ≠ holder ∧ slots another = some found := by
    rcases Classical.em (another = holder) with rfl | elsewhere
    · rw [Function.update_self] at there
      cases there
    · exact ⟨elsewhere, (Function.update_of_ne elsewhere ..).symm.trans there⟩
  constructor
  · intro found
    constructor
    · rintro ⟨existing, different⟩
      obtain ⟨another, there⟩ := (holders.held_iff found).mp existing
      refine ⟨another, (Function.update_of_ne ?_ ..).trans there⟩
      rintro rfl
      rw [here, Option.some.injEq] at there
      exact different there.symm
    · rintro ⟨another, there⟩
      obtain ⟨elsewhere, old⟩ := shape there
      refine ⟨holders.of_slot old, ?_⟩
      rintro rfl
      exact elsewhere (holders.single old here)
  · intro first second found firstHolds secondHolds
    exact holders.single (shape firstHolds).2 (shape secondHolds).2

end Compcache.Library.Ownership
