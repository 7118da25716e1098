import Mathlib.Algebra.BigOperators.Group.Multiset.Defs
import Compcache.Library.SortedMap

/-! Parties that each hold a share of something. What is shared is only known as
the sum of the shares. -/

namespace Compcache.Library.Sharing

variable {γ τ : Type*} [AddCommMonoid γ] {holds : γ → τ → Prop}

/-- The parties of a list hold shares that add up to the total. -/
inductive Shares (holds : γ → τ → Prop) : List (Nat × τ) → γ → Prop
  | nil : Shares holds [] 0
  | cons {name : Nat} {party : τ} {parties : List (Nat × τ)} {share rest : γ} (one : holds share party)
    (others : Shares holds parties rest) :
      Shares holds ((name, party) :: parties) (share + rest)

namespace Shares
variable {parties : SortedMap τ} {name : Nat} {party : τ} {share rest total : γ}

theorem perm {first second : List (Nat × τ)} (shares : Shares holds first total) (same : first.Perm second) :
    Shares holds second total := by
  induction same generalizing total with
  | nil => exact shares
  | cons entry _ ih =>
    cases shares with
    | cons one others => exact .cons one (ih others)
  | swap one other _ =>
    cases shares with
    | cons first others => cases others with
      | cons second others =>
        rw [add_left_comm]
        exact .cons second (.cons first others)
  | trans _ _ ih ihLater => exact ihLater (ih shares)

theorem split (shares : Shares holds parties.entries total) (here : parties.find? name = some party) :
    ∃ share rest, holds share party ∧ Shares holds (parties.erase name).entries rest ∧ total = share + rest := by
  have apart := shares.perm (SortedMap.perm_erase here)
  cases apart with
  | cons one others => exact ⟨_, _, one, others, rfl⟩

theorem join (others : Shares holds (parties.erase name).entries rest) (one : holds share party) :
    Shares holds (parties.insert name party).entries (share + rest) :=
  (Shares.cons one others).perm (parties.perm_insert name party).symm

theorem enter (shares : Shares holds parties.entries total) (absent : parties.find? name = none) (one : holds 0 party) :
    Shares holds (parties.insert name party).entries total := by
  rw [← zero_add total]
  refine join ?_ one
  rw [SortedMap.erase_of_absent absent]
  exact shares

theorem none (shares : Shares holds ([] : List (Nat × τ)) total) : total = 0 := by
  cases shares with
  | nil => rfl

end Shares
end Compcache.Library.Sharing
