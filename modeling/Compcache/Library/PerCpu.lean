import Mathlib.Algebra.BigOperators.Ring.Finset
import Mathlib.Data.ZMod.Basic

/-! Counters that each CPU keeps for itself. A task updates the counter of the
CPU it is on, so one CPU's counter says little; the sum over all of them counts. -/

namespace Compcache.Library.PerCpu

def wrap64 (value : Int) : Int := value.bmod (2 ^ 64)

abbrev Counters (Cpu Stat : Type) := Cpu → Stat → Int

variable {Cpu Stat : Type}

def Counters.zero : Counters Cpu Stat := fun _ _ => 0

def Counters.add [DecidableEq Cpu] [DecidableEq Stat] (counters : Counters Cpu Stat) (cpu : Cpu) (stat : Stat) (value : Int) :
    Counters Cpu Stat :=
  Function.update counters cpu (Function.update (counters cpu) stat (wrap64 (counters cpu stat + value)))

def Counters.sum [Fintype Cpu] (counters : Counters Cpu Stat) (stat : Stat) : Int := wrap64 (∑ cpu, counters cpu stat)

/-- The sum as it is modulo 2^64, in which no step of the arithmetic loses anything. -/
def total [Fintype Cpu] (counters : Counters Cpu Stat) (stat : Stat) : ZMod (2 ^ 64) := ∑ cpu, (counters cpu stat : ZMod (2 ^ 64))

theorem wrap64_cast (value : Int) : ((wrap64 value : Int) : ZMod (2 ^ 64)) = value :=
  (ZMod.intCast_eq_intCast_iff _ _ _).mpr (Int.bmod_emod)

section Sums
variable [Fintype Cpu] {counters : Counters Cpu Stat} {stat other : Stat} {cpu : Cpu} {value : Int} {count : Nat}

theorem total_zero (stat : Stat) : total (Counters.zero : Counters Cpu Stat) stat = 0 := by
  simp [total, Counters.zero]

theorem sum_cast (counters : Counters Cpu Stat) (stat : Stat) : ((counters.sum stat : Int) : ZMod (2 ^ 64)) = total counters stat := by
  rw [Counters.sum, wrap64_cast, total, Int.cast_sum]

theorem sum_eq (counted : total counters stat = count) (small : count < 2 ^ 64) : (counters.sum stat % 2 ^ 64).toNat = count := by
  have same : ((counters.sum stat : Int) : ZMod (2 ^ 64)) = (count : Int) := by
    rw [sum_cast, counted, Int.cast_natCast]
  have congruent := (ZMod.intCast_eq_intCast_iff _ _ _).mp same
  have reduced : counters.sum stat % 2 ^ 64 = count := by
    have bounded : (count : Int) % 2 ^ 64 = count := Int.emod_eq_of_lt (Int.natCast_nonneg count) (by exact_mod_cast small)
    rw [← bounded]
    exact_mod_cast congruent
  rw [reduced, Int.toNat_natCast]

variable [DecidableEq Cpu] [DecidableEq Stat]

theorem total_add (counters : Counters Cpu Stat) (cpu : Cpu) (stat : Stat) (value : Int) (other : Stat) :
    total (counters.add cpu stat value) other = total counters other + if other = stat then (value : ZMod (2 ^ 64)) else 0 := by
  have split (table : Counters Cpu Stat) : total table other = (table cpu other : ZMod (2 ^ 64)) + ∑ c ∈ Finset.univ.erase cpu,
      (table c other : ZMod (2 ^ 64)) :=
    (Finset.add_sum_erase Finset.univ (fun c => (table c other : ZMod (2 ^ 64))) (Finset.mem_univ cpu)).symm
  have rest : ∑ c ∈ Finset.univ.erase cpu, ((counters.add cpu stat value) c other : ZMod (2 ^ 64)) =
      ∑ c ∈ Finset.univ.erase cpu, (counters c other : ZMod (2 ^ 64)) := by
    refine Finset.sum_congr rfl fun c elsewhere => ?_
    rw [Counters.add, Function.update_of_ne (Finset.ne_of_mem_erase elsewhere)]
  rw [split, split counters, rest, Counters.add, Function.update_self]
  split
  next same =>
    rw [same, Function.update_self, wrap64_cast, Int.cast_add]
    exact add_right_comm ..
  next different => rw [Function.update_of_ne different, add_zero]

end Sums

/-! Counters that never leave the range of their type, read one CPU after another. -/

section Readers

def Counters.tally (counters : Counters Cpu Stat) (stat : Stat) (cpus : List Cpu) : Int := (cpus.map fun cpu => counters cpu stat).sum

variable {counters : Counters Cpu Stat} {cpus : List Cpu} {cpu : Cpu} {stat other : Stat} {value : Int}

@[simp] theorem tally_nil : counters.tally stat [] = 0 := rfl

@[simp] theorem tally_cons : counters.tally stat (cpu :: cpus) = counters cpu stat + counters.tally stat cpus := by
  rw [Counters.tally, List.map_cons, List.sum_cons, Counters.tally]

variable [DecidableEq Cpu] [DecidableEq Stat]

def Counters.bump (counters : Counters Cpu Stat) (cpu : Cpu) (stat : Stat) (value : Int) : Counters Cpu Stat :=
  Function.update counters cpu (Function.update (counters cpu) stat (counters cpu stat + value))

theorem tally_bump (nodup : cpus.Nodup) (counters : Counters Cpu Stat) (cpu : Cpu) (stat : Stat) (value : Int) (other : Stat) :
    (counters.bump cpu stat value).tally other cpus = counters.tally other cpus + if other = stat ∧ cpu ∈ cpus then value else 0 := by
  induction cpus with
  | nil => simp
  | cons first rest ih =>
    obtain ⟨outside, distinct⟩ := List.nodup_cons.mp nodup
    rw [tally_cons, tally_cons, ih distinct]
    rcases Classical.em (first = cpu) with rfl | elsewhere
    · have here : (counters.bump first stat value) first other = counters first other + if other = stat then value else 0 := by
        rw [Counters.bump, Function.update_self, Function.update_apply]
        split
        next same => rw [same]
        next => exact (add_zero _).symm
      rw [here]
      simp only [outside, and_false, if_false, List.mem_cons, true_or, and_true]
      omega
    · rw [Counters.bump, Function.update_of_ne elsewhere]
      simp only [List.mem_cons, Ne.symm elsewhere, false_or]
      omega

end Readers
end Compcache.Library.PerCpu
