import Mathlib.Data.List.AList

/-! The parties of an interleaving, each standing somewhere in what it does. -/

namespace Compcache.Library.Parties

variable {Phase : Type*} {parties : AList fun _ : Nat => Phase} {party other : Nat} {phase found : Phase}

theorem forall_insert (holds : Phase → Prop) (all : ∀ {other found}, parties.lookup other = some found → holds found) (new : holds phase)
    (standing : (parties.insert party phase).lookup other = some found) : holds found := by
  rcases Classical.em (other = party) with rfl | elsewhere
  · rw [AList.lookup_insert, Option.some.injEq] at standing
    exact standing ▸ new
  · rw [AList.lookup_insert_ne elsewhere] at standing
    exact all standing

theorem forall_erase (holds : Phase → Prop) (all : ∀ {other found}, parties.lookup other = some found → holds found)
    (standing : (parties.erase party).lookup other = some found) : holds found := by
  rcases Classical.em (other = party) with rfl | elsewhere
  · rw [AList.lookup_erase] at standing
    cases standing
  · rw [AList.lookup_erase_ne elsewhere] at standing
    exact all standing

end Compcache.Library.Parties
