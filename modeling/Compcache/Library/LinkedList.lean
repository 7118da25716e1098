import Mathlib.Data.List.Basic
import Mathlib.Data.List.Nodup

/-! Doubly linked lists threaded through their own nodes. The links are two
functions on nodes, so any memory that stores them can be plugged in; a node
outside the list plays the null pointer at both ends. -/

namespace Compcache.Library.LinkedList

variable {α : Type}

/-- The nodes of `list` are linked in order; `before` precedes the first one
and `null` follows the last. -/
def Linked (next prev : α → α) (null : α) : α → List α → Prop
  | _, [] => True
  | before, node :: rest => prev node = before ∧ next node = rest.headD null ∧ Linked next prev null node rest

variable {next prev next' prev' : α → α} {null before node : α} {list : List α}

theorem Linked.congr (linked : Linked next prev null before list)
    (sameNext : ∀ node ∈ list, next' node = next node) (samePrev : ∀ node ∈ list, prev' node = prev node) :
    Linked next' prev' null before list := by
  induction list generalizing before with
  | nil => trivial
  | cons first rest ih =>
    obtain ⟨back, forward, linked⟩ := linked
    refine ⟨(samePrev first (by simp)).trans back, (sameNext first (by simp)).trans forward, ?_⟩
    exact ih linked (fun node member => sameNext node (by simp [member])) (fun node member => samePrev node (by simp [member]))

theorem Linked.next_mem (linked : Linked next prev null before list) (member : node ∈ list) :
    next node = null ∨ next node ∈ list := by
  induction list generalizing before with
  | nil => simp at member
  | cons first rest ih =>
    obtain ⟨_, forward, linked⟩ := linked
    rcases List.mem_cons.mp member with rfl | member
    · cases rest with
      | nil => exact .inl forward
      | cons second rest => exact .inr (by rw [forward]; simp)
    · rcases ih linked member with ends | inside
      · exact .inl ends
      · exact .inr (by simp [inside])

theorem Linked.prev_mem (linked : Linked next prev null before list) (member : node ∈ list) :
    prev node = before ∨ prev node ∈ list := by
  induction list generalizing before with
  | nil => simp at member
  | cons first rest ih =>
    obtain ⟨back, _, linked⟩ := linked
    rcases List.mem_cons.mp member with rfl | member
    · exact .inl back
    · rcases ih linked member with same | inside
      · exact .inr (by simp [same])
      · exact .inr (by simp [inside])

theorem Linked.next_iff_prev (linked : Linked next prev null before list) (nodup : list.Nodup)
    (beforeOutside : before ∉ list) (nullOutside : null ∉ list) {first second : α}
    (firstMember : first ∈ list) (secondMember : second ∈ list) : next first = second ↔ prev second = first := by
  induction list generalizing before with
  | nil => simp at firstMember
  | cons head rest ih =>
    obtain ⟨back, forward, linked⟩ := linked
    obtain ⟨headOutside, nodup⟩ := List.nodup_cons.mp nodup
    have nullRest : null ∉ rest := fun member => nullOutside (by simp [member])
    rcases List.mem_cons.mp firstMember with rfl | firstInside
    · rw [forward]
      rcases List.mem_cons.mp secondMember with rfl | secondMember
      · rw [back]
        constructor
        · intro same
          cases rest with
          | nil => exact False.elim (nullOutside (by simp [show null = second from same]))
          | cons third rest => exact False.elim (headOutside (by simp [show third = second from same]))
        · intro same
          exact False.elim (beforeOutside (by simp [same]))
      · cases rest with
        | nil => simp at secondMember
        | cons third rest =>
          obtain ⟨thirdBack, thirdForward, linked⟩ := linked
          constructor
          · intro same
            rw [← same]
            exact thirdBack
          · intro same
            rcases List.mem_cons.mp secondMember with rfl | later
            · rfl
            · rcases Linked.prev_mem linked later with equal | inside
              · exact False.elim (headOutside (by simp [← same, equal]))
              · exact False.elim (headOutside (by simp [← same, inside]))
    · rcases List.mem_cons.mp secondMember with rfl | secondMember
      · rw [back]
        constructor
        · intro same
          rcases Linked.next_mem linked firstInside with equal | inside
          · exact False.elim (nullOutside (by simp [← equal, same]))
          · exact False.elim (headOutside (same ▸ inside))
        · intro same
          exact False.elim (beforeOutside (by simp [same, firstInside]))
      · exact ih linked nodup headOutside nullRest firstInside secondMember

variable [DecidableEq α]

theorem Linked.push (linked : Linked next prev null before list) (nodup : list.Nodup)
    (back : prev' node = before) (forward : next' node = list.headD null)
    (sameNext : ∀ other ∈ list, next' other = next other)
    (newPrev : ∀ other ∈ list, prev' other = if some other = list.head? then node else prev other) :
    Linked next' prev' null before (node :: list) := by
  refine ⟨back, forward, ?_⟩
  cases list with
  | nil => trivial
  | cons first rest =>
    obtain ⟨_, following, linked⟩ := linked
    refine ⟨by simp [newPrev first (by simp)], (sameNext first (by simp)).trans following, ?_⟩
    apply linked.congr (fun other member => sameNext other (by simp [member]))
    intro other member
    have different : other ≠ first := by
      intro same
      subst other
      exact (List.nodup_cons.mp nodup).1 member
    simpa [different] using newPrev other (by simp [member])

/-- Take a node out of a list, wherever it stands: its neighbours are pointed
at each other and every other link is kept. -/
theorem Linked.erase (linked : Linked next prev null before list) (nodup : list.Nodup)
    (beforeOutside : before ∉ list) (nullOutside : null ∉ list) (member : node ∈ list)
    (newNext : ∀ other ∈ list, other ≠ node → next' other = if next other = node then next node else next other)
    (newPrev : ∀ other ∈ list, other ≠ node → prev' other = if prev other = node then prev node else prev other) :
    Linked next' prev' null before (list.erase node) := by
  induction list generalizing before with
  | nil => trivial
  | cons first rest ih =>
    obtain ⟨back, forward, linked⟩ := linked
    obtain ⟨firstOutside, nodup⟩ := List.nodup_cons.mp nodup
    have nullRest : null ∉ rest := fun inside => nullOutside (by simp [inside])
    by_cases same : first = node
    · subst first
      rw [List.erase_cons_head]
      have keepNext : ∀ other ∈ rest, next' other = next other := by
        intro other inside
        have different : other ≠ node := fun equal => firstOutside (equal ▸ inside)
        have notBack : next other ≠ node := by
          intro equal
          rcases Linked.next_mem linked inside with ends | listed
          · exact nullOutside (by simp [← ends, equal])
          · exact firstOutside (equal ▸ listed)
        rw [newNext other (by simp [inside]) different, if_neg notBack]
      cases rest with
      | nil => trivial
      | cons second rest =>
        obtain ⟨secondBack, secondForward, linked⟩ := linked
        have secondDifferent : second ≠ node := fun equal => firstOutside (by simp [equal])
        refine ⟨?_, (keepNext second (by simp)).trans secondForward, ?_⟩
        · rw [newPrev second (by simp) secondDifferent, if_pos secondBack, back]
        · apply linked.congr (fun other inside => keepNext other (by simp [inside]))
          intro other inside
          have different : other ≠ node := fun equal => firstOutside (by simp [← equal, inside])
          have notForward : prev other ≠ node := by
            intro equal
            rcases Linked.prev_mem linked inside with early | listed
            · exact secondDifferent (early ▸ equal)
            · exact firstOutside (by simp [← equal, listed])
          rw [newPrev other (by simp [inside]) different, if_neg notForward]
    · have inside : node ∈ rest := by simpa [Ne.symm same] using member
      rw [List.erase_cons_tail (by simpa using same)]
      have beforeDifferent : before ≠ node := fun equal => beforeOutside (equal ▸ member)
      refine ⟨?_, ?_, ?_⟩
      · rw [newPrev first (by simp) same, back, if_neg beforeDifferent]
      · rw [newNext first (by simp) same, forward]
        cases rest with
        | nil => simp at inside
        | cons second rest =>
          by_cases equal : second = node
          · subst second
            simpa using linked.2.1
          · rw [List.erase_cons_tail (by simpa using equal)]
            simp [equal]
      · exact ih linked nodup firstOutside nullRest inside
          (fun other listed different => newNext other (by simp [listed]) different)
          (fun other listed different => newPrev other (by simp [listed]) different)

end Compcache.Library.LinkedList
