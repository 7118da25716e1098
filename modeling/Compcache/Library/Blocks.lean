import Mathlib.Logic.Function.Basic

/-! Blocks of memory by address, each with what its allocator knows of it. -/

namespace Compcache.Library.Blocks

abbrev Allocated (κ : Type*) := Nat → Option κ

/-- One call's worth of an allocator: it may fail, and may pick any address without
a block. -/
structure Allocator (κ : Type*) where
  pick : Allocated κ → Option Nat
  unowned : ∀ {blocks address}, pick blocks = some address → blocks address = none
  positive : ∀ {blocks address}, pick blocks = some address → 0 < address

variable {κ : Type*} {blocks after : Allocated κ} {block : κ} {address other : Nat} {accepts : κ → Bool}

def Allocator.exhausted : Allocator κ := ⟨fun _ => none, nofun, nofun⟩

/-- The allocator that picks one given address as long as no block is there. -/
def Allocator.offering (address : Nat) (positive : 0 < address) : Allocator κ where
  pick blocks := if (blocks address).isSome then none else some address
  unowned := by
    intro blocks other picked
    split at picked
    next => cases picked
    next vacant =>
      cases picked
      exact Option.not_isSome_iff_eq_none.mp vacant
  positive := by
    intro blocks other picked
    split at picked
    next => cases picked
    next =>
      cases picked
      exact positive

def obtain (blocks : Allocated κ) (allocator : Allocator κ) (block : κ) : Option (Nat × Allocated κ) :=
  (allocator.pick blocks).map fun address => (address, Function.update blocks address (some block))

/-- Releasing NULL does nothing; `none` is the release of what is no block the
function accepts. -/
def release (accepts : κ → Bool) (blocks : Allocated κ) (address : Nat) : Option (Allocated κ) :=
  if address = 0 then some blocks
  else (blocks address).bind fun block => if accepts block then some (Function.update blocks address none) else none

theorem obtain_spec {allocator : Allocator κ} (obtained : obtain blocks allocator block = some (address, after)) :
    blocks address = none ∧ 0 < address ∧ after = Function.update blocks address (some block) := by
  obtain ⟨picked, found, same⟩ := Option.map_eq_some_iff.mp obtained
  cases same
  exact ⟨allocator.unowned found, allocator.positive found, rfl⟩

@[simp] theorem release_null : release accepts blocks 0 = some blocks := rfl

theorem release_held (vacant : blocks address = none) (positive : 0 < address) (accepted : accepts block = true) :
    release accepts (Function.update blocks address (some block)) address = some blocks := by
  rw [release, if_neg (Nat.ne_of_gt positive), Function.update_self, Option.bind_some, if_pos accepted, Function.update_idem, ← vacant,
    Function.update_eq_self]

theorem vacant_beside (vacant : Function.update blocks address (some block) other = none) : other ≠ address ∧ blocks other = none := by
  rcases Classical.em (other = address) with rfl | apart
  · rw [Function.update_self] at vacant
    cases vacant
  · rw [Function.update_of_ne apart] at vacant
    exact ⟨apart, vacant⟩

theorem release_behind {before : Allocated κ} {held : Option κ} (apart : other ≠ address)
    (released : release accepts before address = some after) :
    release accepts (Function.update before other held) address = some (Function.update after other held) := by
  unfold release at released ⊢
  split at released
  next null =>
    cases released
    exact if_pos null
  next present =>
    rw [if_neg present, Function.update_of_ne apart.symm]
    obtain ⟨block, there, rest⟩ := Option.bind_eq_some_iff.mp released
    rw [there, Option.bind_some]
    split at rest
    next accepted =>
      cases rest
      rw [if_pos accepted, Function.update_comm apart]
    next => cases rest

end Compcache.Library.Blocks
