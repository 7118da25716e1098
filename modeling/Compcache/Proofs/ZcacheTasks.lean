import Compcache.Library.Runs
import Compcache.Library.Sharing
import Compcache.Zcache

/-! What a step of the machine can be, and the rule for invariants in which every
operation in progress has a share. -/

namespace Compcache.Zcache
open Library Library.Runs Library.Sharing

variable [Arch] {cpus : Nat} {lzo : Lzo} {machine after : Machine cpus} {action : Action cpus}

theorem Machine.step_cases (taken : machine.step lzo action = some after) :
    (∃ name op, action = .call name op ∧ machine.tasks.find? name = none ∧
      after = { machine with tasks := machine.tasks.insert name ⟨op, op.code lzo, [], none⟩ }) ∨
    (∃ name cpu task reply, action = .advance name cpu ∧ machine.tasks.find? name = some task ∧ task.code = .done reply ∧
      after = { machine with tasks := machine.tasks.erase name, history := machine.history ++ [(task.op, reply)] }) ∨
    (∃ name cpu task progress, action = .advance name cpu ∧ machine.tasks.find? name = some task ∧
      machine.pool.advance lzo name cpu task.held task.code = some progress ∧
      after = { machine with
        pool := progress.pool
        tasks := machine.tasks.insert name ⟨task.op, progress.code, progress.held, task.code.updatesOn task.cpu cpu⟩ }) := by
  cases action with
  | call name op =>
    simp only [step] at taken
    split at taken
    next free => exact .inl ⟨name, op, rfl, Option.isNone_iff_eq_none.mp free, (Option.some.inj taken).symm⟩
    next => cases taken
  | advance name cpu =>
    obtain ⟨task, found, moved⟩ := Option.bind_eq_some_iff.mp taken
    have moves {code : Code cpus} (same : task.code = code)
        (moved : ((machine.pool.advance lzo name cpu task.held code).map fun progress =>
          { machine with
            pool := progress.pool
            tasks := machine.tasks.insert name ⟨task.op, progress.code, progress.held, code.updatesOn task.cpu cpu⟩ }) = some after) :
        ∃ progress, machine.pool.advance lzo name cpu task.held task.code = some progress ∧
          after = { machine with
            pool := progress.pool
            tasks := machine.tasks.insert name ⟨task.op, progress.code, progress.held, task.code.updatesOn task.cpu cpu⟩ } := by
      obtain ⟨progress, advanced, rfl⟩ := Option.map_eq_some_iff.mp moved
      exact ⟨progress, same ▸ advanced, by rw [same]⟩
    cases code : task.code with
    | done reply =>
      rw [code] at moved
      exact .inr (.inl ⟨name, cpu, task, reply, rfl, found, code, (Option.some.inj moved).symm⟩)
    | _ =>
      rw [code] at moved
      obtain ⟨progress, advanced, same⟩ := moves code moved
      exact .inr (.inr ⟨name, cpu, task, progress, rfl, found, code ▸ advanced, code ▸ same⟩)

section Shared
variable {γ : Type*} [AddCommMonoid γ] {inv : Pool cpus → γ → Prop} {holds : γ → Task cpus → Prop}

/-- The pool is as the operations in progress have it, each with its share. -/
def Machine.Shared (inv : Pool cpus → γ → Prop) (holds : γ → Task cpus → Prop) (machine : Machine cpus) : Prop :=
  ∃ total, inv machine.pool total ∧ Shares holds machine.tasks.entries total

/-- An operation starts with nothing, ends with nothing, and at each step accounts
for its own share only. -/
theorem Machine.Shared.step (shared : machine.Shared inv holds) (taken : machine.step lzo action = some after)
    (enters : ∀ name op, action = .call name op → holds 0 ⟨op, op.code lzo, [], none⟩)
    (leaves : ∀ share task reply, holds share task → task.code = .done reply → share = 0)
    (moves : ∀ share rest task progress name cpu, inv machine.pool (share + rest) → holds share task →
      Shares holds (machine.tasks.erase name).entries rest → action = .advance name cpu →
      machine.tasks.find? name = some task → machine.pool.advance lzo name cpu task.held task.code = some progress →
      ∃ changed, holds changed ⟨task.op, progress.code, progress.held, task.code.updatesOn task.cpu cpu⟩ ∧
        inv progress.pool (changed + rest)) :
    after.Shared inv holds := by
  obtain ⟨total, kept, shares⟩ := shared
  rcases Machine.step_cases taken with ⟨name, op, called, absent, rfl⟩ | ⟨name, cpu, task, reply, _, found, returned, rfl⟩ |
    ⟨name, cpu, task, progress, moved, found, advanced, rfl⟩
  · exact ⟨total, kept, shares.enter absent (enters name op called)⟩
  · obtain ⟨share, rest, one, others, rfl⟩ := shares.split found
    obtain rfl := leaves share task reply one returned
    exact ⟨rest, zero_add rest ▸ kept, others⟩
  · obtain ⟨share, rest, one, others, rfl⟩ := shares.split found
    obtain ⟨changed, now, later⟩ := moves share rest task progress name cpu kept one others moved found advanced
    exact ⟨changed + rest, later, others.join now⟩

theorem Machine.Shared.create {kernel : Kernel} {memlimit : Nat} (initial : inv (Pool.create kernel memlimit) 0) :
    (Machine.create kernel memlimit : Machine cpus).Shared inv holds := ⟨0, initial, .nil⟩

end Shared
end Compcache.Zcache
