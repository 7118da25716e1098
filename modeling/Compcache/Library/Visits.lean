import Mathlib.Data.List.Basic

/-! The places a loop over a list looks at. Its body says whether the loop moves on
to the next position, stays where it is, or stops. Positions are kept in a register
that wraps, and may lose more of their bits on the way to the place. -/

namespace Compcache.Library.Visits

variable {σ α : Type*} {state : σ} {position bound limit : Nat} {items : List α}

def visited (bound : Nat) (look : Nat → Nat) (body : σ → Nat → α → Option (σ × Bool)) (state : σ) (position : Nat) : List α → List Nat
  | [] => []
  | item :: rest => look position :: match body state position item with
    | none => []
    | some (after, true) => visited bound look body after ((position + 1) % bound) rest
    | some (after, false) => visited bound look body after position rest

/-- Every item but the last moves the loop on. -/
def Steady (body : σ → Nat → α → Option (σ × Bool)) (state : σ) (position : Nat) : List α → Prop
  | [] => True
  | item :: rest => rest ≠ [] → ∃ after, body state position item = some (after, true) ∧ Steady body after (position + 1) rest

/-- No item but the last leaves the loop where it is, though any may stop it. -/
def Onward (body : σ → Nat → α → Option (σ × Bool)) (state : σ) (position : Nat) : List α → Prop
  | [] => True
  | item :: rest =>
    rest ≠ [] → ∀ {after moved}, body state position item = some (after, moved) → moved = true ∧ Onward body after (position + 1) rest

theorem range_cons (start count : Nat) :
    (List.range (count + 1)).map (start + ·) = start :: (List.range count).map (start + 1 + ·) := by
  rw [List.range_succ_eq_map, List.map_cons, List.map_map]
  refine congrArg₂ _ (Nat.add_zero start) (List.map_congr_left fun index _ => ?_)
  show start + (index + 1) = start + 1 + index
  omega

theorem id_whole (positive : 0 < bound) (place : Nat) : id (place % bound) = place ↔ place < bound :=
  Nat.mod_eq_iff_lt (Nat.ne_of_gt positive)

/-- A loop that nothing stops and that stays nowhere is steady. What keeps it from
stopping is an invariant of its states. -/
theorem Onward.steady {body : σ → Nat → α → Option (σ × Bool)} {start : Nat} (onward : Onward body state start items) (holds : σ → Prop)
    (initial : holds state)
    (goes : ∀ {state position item}, holds state → item ∈ items → start ≤ position → position < start + items.length →
      ∃ after moved, body state position item = some (after, moved) ∧ holds after) : Steady body state start items := by
  induction items generalizing state start with
  | nil => trivial
  | cons item rest ih =>
    intro more
    obtain ⟨after, moved, taken, kept⟩ := goes initial List.mem_cons_self (Nat.le_refl start) (by rw [List.length_cons]; omega)
    obtain ⟨rfl, later⟩ := onward more taken
    refine ⟨after, taken, ih later kept fun held member least most => ?_⟩
    exact goes held (List.mem_cons_of_mem _ member) (by omega) (by rw [List.length_cons]; omega)

/-- A loop looks at one place after the other exactly if it is steady and its
positions get to their places whole. -/
theorem visited_eq_range (look : Nat → Nat) (whole : ∀ place, look (place % bound) = place ↔ place < limit) (narrow : limit ≤ bound)
    (body : σ → Nat → α → Option (σ × Bool)) (state : σ) (start : Nat) (items : List α) :
    visited bound look body state (start % bound) items = (List.range items.length).map (start + ·) ↔
      (items.length ≠ 0 → start + items.length ≤ limit) ∧ Steady body state start items := by
  induction items generalizing state start with
  | nil => simp [visited, Steady]
  | cons item rest ih =>
    have unwrapped (small : start < limit) : start % bound = start := Nat.mod_eq_of_lt (Nat.lt_of_lt_of_le small narrow)
    have here (small : start < limit) : look start = start := by
      have same := (whole start).mpr small
      rwa [unwrapped small] at same
    rw [List.length_cons, range_cons, visited, List.cons.injEq, whole]
    simp only [ne_eq, Nat.add_one_ne_zero, not_false_eq_true, true_implies, Steady]
    constructor
    · rintro ⟨small, later⟩
      rw [unwrapped small] at later
      cases moved : body state start item with
      | none =>
        rw [moved] at later
        rcases rest with _ | ⟨other, more⟩
        · exact ⟨small, fun some_ => absurd rfl some_⟩
        · simp [range_cons] at later
      | some result =>
        obtain ⟨after, advance⟩ := result
        rw [moved] at later
        rcases rest with _ | ⟨other, more⟩
        · exact ⟨small, fun some_ => absurd rfl some_⟩
        · cases advance with
          | false =>
            simp only [visited, List.length_cons, range_cons, List.cons.injEq, here small] at later
            omega
          | true =>
            obtain ⟨fits, steady⟩ := (ih after (start + 1)).mp later
            have most := fits (by simp)
            exact ⟨by omega, fun _ => ⟨after, rfl, steady⟩⟩
    · rintro ⟨most, steady⟩
      have small : start < limit := by omega
      refine ⟨small, ?_⟩
      rw [unwrapped small]
      rcases rest with _ | ⟨other, more⟩
      · rcases body state start item with _ | ⟨after, _ | _⟩ <;> simp [visited]
      · obtain ⟨after, moved, steady⟩ := steady (by simp)
        rw [moved]
        exact (ih after (start + 1)).mpr ⟨fun _ => by omega, steady⟩

/-- A loop that only moves on or stops looks at one place after the other as far as it goes. -/
theorem visited_prefix (look : Nat → Nat) (whole : ∀ place, look (place % bound) = place ↔ place < limit) (narrow : limit ≤ bound)
    {body : σ → Nat → α → Option (σ × Bool)} {start : Nat} (onward : Onward body state start items)
    (fits : items.length ≠ 0 → start + items.length ≤ limit) :
    visited bound look body state (start % bound) items <+: (List.range items.length).map (start + ·) := by
  induction items generalizing state start with
  | nil => exact List.nil_prefix
  | cons item rest ih =>
    have most := fits (by simp)
    rw [List.length_cons] at most
    have small : start < limit := by omega
    rw [List.length_cons, range_cons, visited, (whole start).mpr small, List.prefix_cons_inj,
      Nat.mod_eq_of_lt (Nat.lt_of_lt_of_le small narrow)]
    rcases rest with _ | ⟨other, more⟩
    · rcases body state start item with _ | ⟨after, _ | _⟩ <;> exact List.nil_prefix
    · cases moved : body state start item with
      | none => exact List.nil_prefix
      | some result =>
        obtain ⟨after, advance⟩ := result
        obtain ⟨rfl, later⟩ := onward (by simp) moved
        exact ih later fun _ => by omega

end Compcache.Library.Visits
