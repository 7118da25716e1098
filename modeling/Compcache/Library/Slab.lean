import Mathlib.Data.List.Perm.Subperm
import Mathlib.Data.List.Range

/-! A slab of objects that are handed out and given back: the stack of the free ones,
the count of those in use, and a list threaded through things that each name the next. -/

namespace Compcache.Library

/-- The free objects of a slab; the one handed out next comes first. -/
structure Slab (objects : Nat) where
  free : List Nat
  nodup : free.Nodup
  bound : ∀ slot ∈ free, slot < objects

namespace Slab
variable {objects : Nat} {slab : Slab objects} {slot other : Nat} {rest : List Nat}

def Used (slab : Slab objects) (slot : Nat) : Prop := slot < objects ∧ slot ∉ slab.free

def inuse (slab : Slab objects) : Nat := objects - slab.free.length

def take (slab : Slab objects) : Slab objects :=
  ⟨slab.free.tail, slab.nodup.sublist (List.tail_sublist _), fun slot member => slab.bound slot (List.mem_of_mem_tail member)⟩

def give (slab : Slab objects) (slot : Nat) (used : slab.Used slot) : Slab objects :=
  ⟨slot :: slab.free, List.nodup_cons.mpr ⟨used.2, slab.nodup⟩, List.forall_mem_cons.mpr ⟨used.1, slab.bound⟩⟩

theorem length_le (slab : Slab objects) : slab.free.length ≤ objects := by
  have sub : slab.free ⊆ List.range objects := fun slot member => List.mem_range.mpr (slab.bound slot member)
  have short := (slab.nodup.subperm sub).length_le
  rwa [List.length_range] at short

theorem inuse_le (slab : Slab objects) : slab.inuse ≤ objects := Nat.sub_le ..

theorem inuse_eq_objects : slab.inuse = objects ↔ objects = 0 ∨ slab.free = [] := by
  have short := slab.length_le
  rw [inuse, ← List.length_eq_zero_iff]
  omega

theorem take_free (first : slab.free = slot :: rest) : slab.take.free = rest := by
  show slab.free.tail = rest
  rw [first, List.tail_cons]

theorem inuse_take (first : slab.free = slot :: rest) : slab.take.inuse = slab.inuse + 1 := by
  have short := slab.length_le
  rw [first, List.length_cons] at short
  rw [inuse, inuse, take_free first, first, List.length_cons]
  omega

theorem used_take (first : slab.free = slot :: rest) : slab.take.Used other ↔ slab.Used other ∨ other = slot := by
  have inside : slot < objects := slab.bound slot (first ▸ List.mem_cons_self)
  have apart : slot ∉ rest := by
    have nodup := slab.nodup
    rw [first] at nodup
    exact (List.nodup_cons.mp nodup).1
  rw [Used, Used, take_free first, first, List.mem_cons]
  constructor
  · rintro ⟨less, outside⟩
    rcases Classical.em (other = slot) with same | different
    · exact .inr same
    · exact .inl ⟨less, fun | .inl same => different same | .inr member => outside member⟩
  · rintro (⟨less, outside⟩ | rfl)
    · exact ⟨less, fun member => outside (.inr member)⟩
    · exact ⟨inside, apart⟩

theorem not_used_first (first : slab.free = slot :: rest) : ¬ slab.Used slot := fun used => used.2 (first ▸ List.mem_cons_self)

theorem inuse_give (used : slab.Used slot) : (slab.give slot used).inuse + 1 = slab.inuse := by
  have short : slab.free.length + 1 ≤ objects := (slab.give slot used).length_le
  show objects - (slab.free.length + 1) + 1 = objects - slab.free.length
  omega

theorem used_give (used : slab.Used slot) : (slab.give slot used).Used other ↔ slab.Used other ∧ other ≠ slot := by
  rw [Used, Used, give, List.mem_cons, not_or, and_assoc, and_comm (b := other ∉ slab.free)]

theorem unused (none_ : slab.inuse = 0) : ¬ slab.Used slot := by
  rintro ⟨less, outside⟩
  have short : slab.free.length + 1 ≤ objects := (slab.give slot ⟨less, outside⟩).length_le
  rw [inuse] at none_
  omega

theorem exists_used (some_ : slab.inuse ≠ 0) : ∃ slot, slab.Used slot := by
  refine Classical.byContradiction fun none_ => some_ ?_
  have all : List.range objects ⊆ slab.free := fun slot member =>
    Classical.byContradiction fun outside => none_ ⟨slot, List.mem_range.mp member, outside⟩
  have long := (List.nodup_range.subperm all).length_le
  rw [List.length_range] at long
  exact Nat.sub_eq_zero_of_le long

end Slab

/-- Each thing on the list names the next one, and the last one names none. -/
def Threaded {α β : Type*} (next : α → β) (name : α → β) (none_ : β) : List α → Prop
  | [] => True
  | thing :: rest => next thing = rest.head?.elim none_ name ∧ Threaded next name none_ rest

namespace Threaded
variable {α β : Type*} {next other name : α → β} {none_ : β} {list : List α}

theorem congr (threaded : Threaded next name none_ list) (same : ∀ thing ∈ list, other thing = next thing) :
    Threaded other name none_ list := by
  induction list with
  | nil => trivial
  | cons thing rest ih =>
    obtain ⟨here, later⟩ := threaded
    exact ⟨(same thing List.mem_cons_self).trans here, ih later fun thing member => same thing (List.mem_cons_of_mem _ member)⟩

theorem range' {next name : Nat → β} (count : Nat) :
    ∀ start, (∀ slot, start ≤ slot → slot + 1 < start + count → next slot = name (slot + 1)) →
    (∀ slot, slot + 1 = start + count → next slot = none_) → Threaded next name none_ (List.range' start count) := by
  induction count with
  | zero => exact fun _ _ _ => trivial
  | succ count ih =>
    intro start follows last
    refine ⟨?_, ih (start + 1) (fun slot lower upper => follows slot (by omega) (by omega)) fun slot same => last slot (by omega)⟩
    cases count with
    | zero => exact last start rfl
    | succ count => exact follows start (Nat.le_refl _) (by omega)

end Threaded
end Compcache.Library
