import Mathlib.Data.List.Nodup
import Mathlib.Logic.Function.Basic

/-! Singly linked lists whose nodes also know the place that points to them, the head
of a list or the node in front. All heads of a table share the nodes. -/

namespace Compcache.Library.Chains

variable {β α : Type*}

/-- Where a pointer to a node is kept. -/
inductive Place (β α : Type*)
  | head (bucket : β)
  | next (node : α)
  deriving DecidableEq

/-- What the places hold, and the place that points to each node. -/
@[ext] structure Links (β α : Type*) where
  points : Place β α → Option α
  pprev : α → Option (Place β α)

def Hangs (links : Links β α) : Place β α → List α → Prop
  | place, [] => links.points place = none
  | place, node :: rest => links.points place = some node ∧ links.pprev node = some place ∧ Hangs links (.next node) rest

variable {links other : Links β α} {place : Place β α} {list : List α} {node : α}

theorem Hangs.first (hangs : Hangs links place list) : links.points place = list.head? := by
  cases list with
  | nil => exact hangs
  | cons first rest => exact hangs.1

theorem Hangs.congr (hangs : Hangs links place list) (start : other.points place = links.points place)
    (points : ∀ node ∈ list, other.points (.next node) = links.points (.next node))
    (pprev : ∀ node ∈ list, other.pprev node = links.pprev node) :
    Hangs other place list := by
  induction list generalizing place with
  | nil => exact start.trans hangs
  | cons first rest ih =>
    obtain ⟨here, back, hangs⟩ := hangs
    refine ⟨start.trans here, (pprev first List.mem_cons_self).trans back, ih hangs (points first List.mem_cons_self) ?_ ?_⟩
    · exact fun node member => points node (List.mem_cons_of_mem _ member)
    · exact fun node member => pprev node (List.mem_cons_of_mem _ member)

theorem Hangs.unique {second : List α} (hangs : Hangs links place list) (also : Hangs links place second) : list = second := by
  induction list generalizing place second with
  | nil =>
    have first := also.first.symm.trans hangs
    exact (List.head?_eq_none_iff.mp first).symm
  | cons node rest ih =>
    obtain ⟨here, _, hangs⟩ := hangs
    cases second with
    | nil => cases here.symm.trans also
    | cons other others =>
      obtain ⟨there, _, also⟩ := also
      cases here.symm.trans there
      rw [ih hangs also]

theorem Hangs.move {target : Place β α} (hangs : Hangs links place list) (start : other.points target = list.head?)
    (points : ∀ node ∈ list, other.points (.next node) = links.points (.next node))
    (front : ∀ node, list.head? = some node → other.pprev node = some target)
    (behind : ∀ node ∈ list.tail, other.pprev node = links.pprev node) :
    Hangs other target list := by
  cases list with
  | nil => exact start
  | cons first rest =>
    obtain ⟨_, _, hangs⟩ := hangs
    refine ⟨start, front first rfl, hangs.congr (points first List.mem_cons_self) ?_ behind⟩
    exact fun node member => points node (List.mem_cons_of_mem _ member)

/-- A listed node is pointed to from the place of the list, or from a node of it. -/
theorem Hangs.behind (hangs : Hangs links place list) (member : node ∈ list) :
    ∃ before, links.pprev node = some before ∧ (before = place ∨ ∃ front ∈ list, before = .next front) := by
  induction list generalizing place with
  | nil => cases member
  | cons first rest ih =>
    obtain ⟨_, back, hangs⟩ := hangs
    rcases List.mem_cons.mp member with rfl | later
    · exact ⟨place, back, .inl rfl⟩
    · obtain ⟨before, back, rfl | ⟨front, inside, rfl⟩⟩ := ih hangs later
      · exact ⟨_, back, .inr ⟨first, List.mem_cons_self, rfl⟩⟩
      · exact ⟨_, back, .inr ⟨front, List.mem_cons_of_mem _ inside, rfl⟩⟩

theorem Hangs.ahead {following : α} (hangs : Hangs links place list) (member : node ∈ list)
    (points : links.points (.next node) = some following) :
    following ∈ list.tail := by
  induction list generalizing place with
  | nil => cases member
  | cons first rest ih =>
    obtain ⟨_, _, hangs⟩ := hangs
    rcases List.mem_cons.mp member with rfl | later
    · exact List.mem_of_mem_head? (hangs.first.symm.trans points)
    · exact List.mem_of_mem_tail (ih hangs later)

section Operations
variable [DecidableEq β] [DecidableEq α]

def Links.add (links : Links β α) (bucket : β) (node : α) : Links β α :=
  let first := links.points (.head bucket)
  let pprev := first.elim links.pprev fun first => Function.update links.pprev first (some (.next node))
  ⟨Function.update (Function.update links.points (.next node) first) (.head bucket) (some node),
    Function.update pprev node (some (.head bucket))⟩

def Links.del (links : Links β α) (node : α) : Links β α :=
  match links.pprev node with
  | none => links
  | some place =>
    let following := links.points (.next node)
    let pprev := following.elim links.pprev fun following => Function.update links.pprev following (some place)
    ⟨Function.update (Function.update links.points place following) (.next node) none, Function.update pprev node none⟩

/-- The lists of a table. -/
structure Chained (links : Links β α) (chains : β → List α) : Prop where
  hangs : ∀ bucket, Hangs links (.head bucket) (chains bucket)
  nodup : ∀ bucket, (chains bucket).Nodup
  apart : ∀ {bucket second node}, node ∈ chains bucket → node ∈ chains second → bucket = second
  unhashed : ∀ node, (∀ bucket, node ∉ chains bucket) → links.pprev node = none

theorem Links.del_eq (links : Links β α) {before : Place β α} (hashed : links.pprev node = some before) :
    links.del node = ⟨Function.update (Function.update links.points before (links.points (.next node))) (.next node) none,
      Function.update ((links.points (.next node)).elim links.pprev fun following => Function.update links.pprev following (some before))
        node none⟩ := by
  rw [Links.del, hashed]

theorem Links.del_points {before : Place β α} (hashed : links.pprev node = some before) (elsewhere : place ≠ before)
    (behind : place ≠ .next node) :
    (links.del node).points place = links.points place := by
  rw [links.del_eq hashed]
  exact (Function.update_of_ne behind ..).trans (Function.update_of_ne elsewhere ..)

theorem Links.del_pprev {before : Place β α} {second : α} (hashed : links.pprev node = some before) (different : second ≠ node)
    (apart : links.points (.next node) ≠ some second) : (links.del node).pprev second = links.pprev second := by
  rw [links.del_eq hashed]
  refine (Function.update_of_ne different ..).trans ?_
  cases following : links.points (.next node) with
  | none => rfl
  | some third => exact Function.update_of_ne (fun same => apart (following.trans (congrArg some same.symm))) ..

theorem Hangs.del (hangs : Hangs links place list) (nodup : list.Nodup) (outside : ∀ node ∈ list, place ≠ .next node)
    (member : node ∈ list) :
    Hangs (links.del node) place (list.erase node) := by
  induction list generalizing place with
  | nil => cases member
  | cons first rest ih =>
    obtain ⟨here, back, hangs⟩ := hangs
    obtain ⟨fresh, nodup⟩ := List.nodup_cons.mp nodup
    rcases eq_or_ne first node with rfl | different
    · rw [List.erase_cons_head]
      have start := outside first List.mem_cons_self
      refine hangs.move ?_ (fun node inside => ?_) (fun node head => ?_) fun node inside => ?_
      · rw [links.del_eq back]
        exact ((Function.update_of_ne start ..).trans (Function.update_self ..)).trans hangs.first
      · refine Links.del_points back (outside node (List.mem_cons_of_mem _ inside)).symm ?_
        rintro same
        cases same
        exact fresh inside
      · have apart : node ≠ first := fun same => fresh (same ▸ List.mem_of_mem_head? head)
        rw [links.del_eq back, hangs.first, head]
        exact (Function.update_of_ne apart ..).trans (Function.update_self ..)
      · refine Links.del_pprev back (fun same => fresh (same ▸ List.mem_of_mem_tail inside)) fun same => ?_
        rw [hangs.first] at same
        cases rest with
        | nil => cases same
        | cons second rest =>
          cases same
          exact (List.nodup_cons.mp nodup).1 inside
    · rw [List.erase_cons_tail (by simpa using different)]
      have inside : node ∈ rest := (List.mem_cons.mp member).resolve_left (Ne.symm different)
      obtain ⟨before, hashed, where_⟩ := hangs.behind inside
      have elsewhere : place ≠ before := by
        rcases where_ with rfl | ⟨front, there, rfl⟩
        · exact outside first List.mem_cons_self
        · exact outside front (List.mem_cons_of_mem _ there)
      refine ⟨?_, ?_, ih hangs nodup (fun second there same => ?_) inside⟩
      · exact (Links.del_points hashed elsewhere (outside node (List.mem_cons_of_mem _ inside))).trans here
      · refine (Links.del_pprev hashed different fun same => ?_).trans back
        exact fresh (List.mem_of_mem_tail (hangs.ahead inside same))
      · cases same
        exact fresh there

variable {chains : β → List α} {bucket : β}

omit [DecidableEq β] [DecidableEq α] in
theorem Chained.congr (chained : Chained links chains) (heads : ∀ bucket, other.points (.head bucket) = links.points (.head bucket))
    (points : ∀ {bucket node}, node ∈ chains bucket → other.points (.next node) = links.points (.next node))
    (pprev : ∀ {bucket node}, node ∈ chains bucket → other.pprev node = links.pprev node)
    (unhashed : ∀ node, (∀ bucket, node ∉ chains bucket) → other.pprev node = none) : Chained other chains where
  hangs bucket := (chained.hangs bucket).congr (heads bucket) (fun _ => points) fun _ => pprev
  nodup := chained.nodup
  apart := chained.apart
  unhashed := unhashed

theorem Chained.add (chained : Chained links chains) (fresh : ∀ bucket, node ∉ chains bucket) :
    Chained (links.add bucket node) (Function.update chains bucket (node :: chains bucket)) := by
  have apart {second : β} {other : α} (member : other ∈ chains second) : other ≠ node := by
    rintro rfl
    exact fresh second member
  have first := (chained.hangs bucket).first
  have pprev {second : α} (different : second ≠ node) (behind : (chains bucket).head? ≠ some second) :
      (links.add bucket node).pprev second = links.pprev second := by
    refine (Function.update_of_ne different ..).trans ?_
    rw [first]
    cases front : (chains bucket).head? with
    | none => rfl
    | some third => exact Function.update_of_ne (fun same => behind (front.trans (congrArg some same.symm))) ..
  have points {second : Place β α} (head : second ≠ .head bucket) (own : second ≠ .next node) :
      (links.add bucket node).points second = links.points second := (Function.update_of_ne head ..).trans (Function.update_of_ne own ..)
  have listed {second : β} {other : α} : other ∈ Function.update chains bucket (node :: chains bucket) second ↔
      other = node ∧ second = bucket ∨ other ∈ chains second := by
    rcases eq_or_ne second bucket with rfl | elsewhere
    · rw [Function.update_self, List.mem_cons]
      simp
    · rw [Function.update_of_ne elsewhere]
      simp [elsewhere]
  constructor
  · intro second
    rcases eq_or_ne second bucket with rfl | elsewhere
    · rw [Function.update_self]
      refine ⟨Function.update_self .., Function.update_self .., (chained.hangs second).move ?_ ?_ ?_ ?_⟩
      · have start : Place.next node ≠ Place.head second := nofun
        exact ((Function.update_of_ne start (some node) _).trans (Function.update_self ..)).trans first
      · exact fun other member => points nofun fun same => apart member (Place.next.inj same)
      · intro other front
        refine (Function.update_of_ne (apart (List.mem_of_mem_head? front)) ..).trans ?_
        rw [first, front]
        exact Function.update_self ..
      · intro other member
        refine pprev (apart (List.mem_of_mem_tail member)) fun front => ?_
        have nodup := chained.nodup second
        cases all : chains second with
        | nil =>
          rw [all] at front
          cases front
        | cons third rest =>
          rw [all] at front member nodup
          cases front
          exact (List.nodup_cons.mp nodup).1 member
    · rw [Function.update_of_ne elsewhere]
      refine (chained.hangs second).congr (points (fun same => elsewhere (Place.head.inj same)) nofun) ?_ fun other member => ?_
      · exact fun other member => points nofun fun same => apart member (Place.next.inj same)
      · exact pprev (apart member) fun front => elsewhere (chained.apart member (List.mem_of_mem_head? front))
  · intro second
    rcases eq_or_ne second bucket with rfl | elsewhere
    · rw [Function.update_self]
      exact List.nodup_cons.mpr ⟨fresh second, chained.nodup second⟩
    · rw [Function.update_of_ne elsewhere]
      exact chained.nodup second
  · intro second third other one two
    rcases listed.mp one with ⟨rfl, rfl⟩ | one
    · rcases listed.mp two with ⟨_, rfl⟩ | two
      · rfl
      · exact absurd two (fresh third)
    · rcases listed.mp two with ⟨same, _⟩ | two
      · exact absurd (same ▸ one) (fresh second)
      · exact chained.apart one two
  · intro other outside
    have different : other ≠ node := fun same => outside bucket (listed.mpr (.inl ⟨same, rfl⟩))
    have old (second : β) : other ∉ chains second := fun member => outside second (listed.mpr (.inr member))
    exact (pprev different fun front => old bucket (List.mem_of_mem_head? front)).trans (chained.unhashed other old)

theorem Chained.del (chained : Chained links chains) (member : node ∈ chains bucket) :
    Chained (links.del node) (Function.update chains bucket ((chains bucket).erase node)) := by
  obtain ⟨before, hashed, where_⟩ := (chained.hangs bucket).behind member
  have listed {second : β} {other : α} : other ∈ Function.update chains bucket ((chains bucket).erase node) second ↔ other ∈ chains second ∧
      other ≠ node := by
    rcases eq_or_ne second bucket with rfl | elsewhere
    · rw [Function.update_self, (chained.nodup second).mem_erase_iff, and_comm]
    · rw [Function.update_of_ne elsewhere]
      exact ⟨fun there => ⟨there, fun same => elsewhere (chained.apart there (same ▸ member))⟩, And.left⟩
  have ahead {other : α} (points : links.points (.next node) = some other) : other ∈ chains bucket :=
    List.mem_of_mem_tail ((chained.hangs bucket).ahead member points)
  constructor
  · intro second
    rcases eq_or_ne second bucket with rfl | elsewhere
    · rw [Function.update_self]
      exact (chained.hangs second).del (chained.nodup second) (fun _ _ => nofun) member
    · rw [Function.update_of_ne elsewhere]
      refine (chained.hangs second).congr (Links.del_points hashed ?_ nofun) (fun other there => Links.del_points hashed ?_ ?_)
        fun other there => ?_
      · rcases where_ with rfl | ⟨front, _, rfl⟩
        · exact fun same => elsewhere (Place.head.inj same)
        · exact nofun
      · rcases where_ with rfl | ⟨front, inside, rfl⟩
        · exact nofun
        · exact fun same => elsewhere (chained.apart there (Place.next.inj same ▸ inside))
      · exact fun same => elsewhere (chained.apart there (Place.next.inj same ▸ member))
      · exact Links.del_pprev hashed (fun same => elsewhere (chained.apart there (same ▸ member))) fun points =>
          elsewhere (chained.apart there (ahead points))
  · intro second
    rcases eq_or_ne second bucket with rfl | elsewhere
    · rw [Function.update_self]
      exact (chained.nodup second).erase node
    · rw [Function.update_of_ne elsewhere]
      exact chained.nodup second
  · exact fun one two => chained.apart (listed.mp one).1 (listed.mp two).1
  · intro other outside
    rcases eq_or_ne other node with rfl | different
    · rw [links.del_eq hashed]
      exact Function.update_self ..
    · have old (second : β) : other ∉ chains second := fun there => outside second (listed.mpr ⟨there, different⟩)
      exact (Links.del_pprev hashed different fun points => old bucket (ahead points)).trans (chained.unhashed other old)

end Operations
end Compcache.Library.Chains
