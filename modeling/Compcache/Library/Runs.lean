import Mathlib.Logic.Basic

/-! Runs of a transition system given as a partial step function, with every
step meeting a condition on the state before it. -/

namespace Compcache.Library.Runs

variable {σ α : Type*} {step : σ → α → Option σ} {meets weaker : σ → α → Prop} {start final : σ}

/-- The states some sequence of steps leads to, each step meeting the condition. -/
inductive Run (step : σ → α → Option σ) (meets : σ → α → Prop) (start : σ) : σ → Prop where
  | start : Run step meets start start
  | step {before after : σ} {action : α} (run : Run step meets start before) (met : meets before action)
      (taken : step before action = some after) : Run step meets start after

abbrev AnyRun (step : σ → α → Option σ) (start final : σ) : Prop := Run step (fun _ _ => True) start final

namespace Run

theorem invariant (run : Run step meets start final) (holds : σ → Prop) (initial : holds start)
    (preserved : ∀ {before after action}, holds before → meets before action → step before action = some after → holds after) :
    holds final := by
  induction run with
  | start => exact initial
  | step _ met taken ih => exact preserved ih met taken

theorem mono (run : Run step meets start final) (implies : ∀ state action, meets state action → weaker state action) :
    Run step weaker start final := by
  induction run with
  | start => exact .start
  | step _ met taken ih => exact .step ih (implies _ _ met) taken

theorem trans {middle : σ} (first : Run step meets start middle) (second : Run step meets middle final) :
    Run step meets start final := by
  induction second with
  | start => exact first
  | step _ met taken ih => exact .step ih met taken

end Run

def steps (step : σ → α → Option σ) (start : σ) : List α → Option σ
  | [] => some start
  | action :: rest => (step start action).bind fun after => steps step after rest

theorem steps_append (first second : List α) : steps step start (first ++ second) = (steps step start first).bind fun middle =>
    steps step middle second := by
  induction first generalizing start with
  | nil => rfl
  | cons action rest ih =>
    show ((step start action).bind fun after => steps step after (rest ++ second)) = ((step start action).bind _).bind _
    rw [Option.bind_assoc]
    exact congrArg _ (funext fun after => ih)

theorem steps_eq_foldlM (actions : List α) : steps step start actions = actions.foldlM step start := by
  induction actions generalizing start with
  | nil => rfl
  | cons action rest ih =>
    rw [List.foldlM_cons]
    exact congrArg _ (funext fun after => ih)

theorem Run.of_steps {actions : List α} (met : ∀ state, ∀ action ∈ actions, meets state action)
    (taken : steps step start actions = some final) : Run step meets start final := by
  induction actions generalizing start with
  | nil =>
    obtain rfl : start = final := by simpa [steps] using taken
    exact .start
  | cons action rest ih =>
    obtain ⟨after, first, others⟩ := Option.bind_eq_some_iff.mp taken
    have run := ih (fun state other member => met state other (List.mem_cons_of_mem _ member)) others
    exact (Run.step .start (met start action List.mem_cons_self) first).trans run

/-- Every step of a list meets the condition in the state it is taken in. -/
def Met (step : σ → α → Option σ) (meets : σ → α → Prop) (start : σ) : List α → Prop
  | [] => True
  | action :: rest => meets start action ∧ match step start action with
    | none => True
    | some after => Met step meets after rest

theorem Run.of_met {actions : List α} (met : Met step meets start actions) (taken : steps step start actions = some final) :
    Run step meets start final := by
  induction actions generalizing start with
  | nil =>
    obtain rfl : start = final := by simpa [steps] using taken
    exact .start
  | cons action rest ih =>
    obtain ⟨first, later⟩ := met
    obtain ⟨after, moved, others⟩ := Option.bind_eq_some_iff.mp taken
    rw [moved] at later
    exact (Run.step .start first moved).trans (ih later others)

/-- Steps that are only taken where a test passes. -/
def tested (step : σ → α → Option σ) (test : σ → α → Bool) (state : σ) (action : α) :
    Option σ := if test state action then step state action else none

theorem Run.of_tested_mem {test : σ → α → Bool} {actions : List α}
    (implies : ∀ {state}, ∀ action ∈ actions, test state action = true → meets state action)
    (taken : steps (tested step test) start actions = some final) : Run step meets start final := by
  induction actions generalizing start with
  | nil =>
    obtain rfl : start = final := by simpa [steps] using taken
    exact .start
  | cons action rest ih =>
    obtain ⟨after, moved, others⟩ := Option.bind_eq_some_iff.mp taken
    unfold tested at moved
    split at moved
    next passed =>
      have later := ih (fun other member => implies other (List.mem_cons_of_mem _ member)) others
      exact (Run.step .start (implies action List.mem_cons_self passed) moved).trans later
    next => cases moved

theorem Run.of_tested {test : σ → α → Bool} (implies : ∀ {state action}, test state action = true → meets state action) {actions : List α}
    (taken : steps (tested step test) start actions = some final) : Run step meets start final :=
  .of_tested_mem (fun _ _ => implies) taken

theorem Run.after_tested {test : σ → α → Bool} {middle : σ}
    (implies : ∀ {state action}, Run step meets start state → test state action = true → meets state action)
    (run : Run step meets start middle) {actions : List α} (taken : steps (tested step test) middle actions = some final) :
    Run step meets start final := by
  induction actions generalizing middle with
  | nil =>
    obtain rfl : middle = final := by simpa [steps] using taken
    exact run
  | cons action rest ih =>
    obtain ⟨after, moved, others⟩ := Option.bind_eq_some_iff.mp taken
    unfold tested at moved
    split at moved
    next passed => exact ih (run.step (implies run passed) moved) others
    next => cases moved

theorem Met.of_tested {test : σ → α → Bool} (implies : ∀ {state action}, test state action = true → meets state action) {actions : List α}
    (taken : steps (tested step test) start actions = some final) : Met step meets start actions := by
  induction actions generalizing start with
  | nil => trivial
  | cons action rest ih =>
    obtain ⟨after, moved, others⟩ := Option.bind_eq_some_iff.mp taken
    unfold tested at moved
    split at moved
    next passed =>
      refine ⟨implies passed, ?_⟩
      rw [moved]
      exact ih others
    next => cases moved

theorem AnyRun.exists_of_steps {shows : σ → Prop} (actions : List α)
    (taken : ∃ final ∈ steps step start actions, shows final) : ∃ final, AnyRun step start final ∧ shows final := by
  obtain ⟨final, reached, shown⟩ := taken
  exact ⟨final, .of_steps (fun _ _ _ => trivial) reached, shown⟩

/-- However the choices fall, a state that shows it is reached, and no step on the way fails. -/
inductive Inevitable (step : σ → α → Option σ) (shows : σ → Prop) : σ → Prop where
  | here {state : σ} (shown : shows state) : Inevitable step shows state
  | step {state : σ} (next : α → σ) (moves : ∀ action, step state action = some (next action))
      (later : ∀ action, Inevitable step shows (next action)) : Inevitable step shows state

namespace Inevitable
variable {shows further : σ → Prop}

theorem trans (reached : Inevitable step shows start) (later : ∀ state, shows state → Inevitable step further state) :
    Inevitable step further start := by
  induction reached with
  | here shown => exact later _ shown
  | step next moves _ ih => exact .step next moves ih

theorem mono (reached : Inevitable step shows start) (implies : ∀ state, shows state → further state) : Inevitable step further start :=
  reached.trans fun state shown => .here (implies state shown)

theorem one {after : σ} (moves : ∀ action, step start action = some after) (later : Inevitable step shows after) :
    Inevitable step shows start :=
  .step (fun _ => after) moves fun _ => later

/-- A run that has come to its end has come to such a state, if nothing goes on from there. -/
theorem ended [Nonempty α] (reached : Inevitable step shows start) (stuck : ∀ state, shows state → ∀ action, step state action = none)
    {actions : List α}
    (taken : steps step start actions = some final) (still : ∀ action, step final action = none) : shows final := by
  induction reached generalizing actions with
  | here shown =>
    cases actions with
    | nil =>
      obtain rfl := Option.some.inj taken
      exact shown
    | cons action rest =>
      rw [steps, stuck _ shown action] at taken
      cases taken
  | step next moves _ ih =>
    cases actions with
    | nil =>
      obtain rfl := Option.some.inj taken
      obtain ⟨action⟩ := ‹Nonempty α›
      have moved := moves action
      rw [still action] at moved
      cases moved
    | cons action rest =>
      rw [steps, moves action] at taken
      exact ih action taken

end Inevitable
end Compcache.Library.Runs
