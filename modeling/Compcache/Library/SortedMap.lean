import Mathlib.Algebra.BigOperators.Group.List.Basic
import Mathlib.Algebra.Order.BigOperators.Group.List
import Mathlib.Algebra.Order.Ring.Int
import Mathlib.Data.List.Perm.Basic

/-! Finite maps from numbers, kept as the list of their entries in the order of the
keys, so that they can be walked from any key on. -/

namespace Compcache.Library

structure SortedMap (α : Type*) where
  entries : List (Nat × α)
  sorted : entries.Pairwise fun one other => one.1 < other.1

namespace SortedMap
variable {α : Type*} {map : SortedMap α} {key other : Nat} {value found : α} {entry : Nat × α}

def empty : SortedMap α := ⟨[], .nil⟩

def find? (map : SortedMap α) (key : Nat) : Option α := (map.entries.find? fun entry => entry.1 = key).map Prod.snd

def insert (map : SortedMap α) (key : Nat) (value : α) : SortedMap α where
  entries := map.entries.filter (fun entry => entry.1 < key) ++ (key, value) :: map.entries.filter fun entry => key < entry.1
  sorted := by
    have below (entry : Nat × α) (member : entry ∈ map.entries.filter fun entry => entry.1 < key) : entry.1 < key :=
      of_decide_eq_true (List.mem_filter.mp member).2
    have beyond (entry : Nat × α) (member : entry ∈ map.entries.filter fun entry => key < entry.1) : key < entry.1 :=
      of_decide_eq_true (List.mem_filter.mp member).2
    refine List.pairwise_append.mpr ⟨map.sorted.filter _, List.pairwise_cons.mpr ⟨beyond, map.sorted.filter _⟩, ?_⟩
    intro one first two second
    rcases List.mem_cons.mp second with rfl | later
    · exact below one first
    · exact Nat.lt_trans (below one first) (beyond two later)

def erase (map : SortedMap α) (key : Nat) : SortedMap α where
  entries := map.entries.filter fun entry => entry.1 ≠ key
  sorted := map.sorted.filter _

def first (map : SortedMap α) : Option (Nat × α) := map.entries.head?

def next (map : SortedMap α) (key : Nat) : Option (Nat × α) := map.entries.find? fun entry => key < entry.1

def atLeast (map : SortedMap α) (key : Nat) : List (Nat × α) := map.entries.filter fun entry => key ≤ entry.1

theorem value_unique (one : (key, value) ∈ map.entries) (two : (key, found) ∈ map.entries) : value = found := by
  have apart : map.entries.Pairwise fun one other => one.1 = other.1 → one = other :=
    map.sorted.imp fun less same => absurd same (Nat.ne_of_lt less)
  have back : map.entries.Pairwise (flip fun one other => one.1 = other.1 → one = other) :=
    map.sorted.imp fun less same => absurd same.symm (Nat.ne_of_lt less)
  have all := apart.forall_of_forall_of_flip (fun _ _ _ => rfl) back
  exact congrArg Prod.snd (all one two rfl)

theorem mem_entries : (key, value) ∈ map.entries ↔ map.find? key = some value := by
  rw [find?, Option.map_eq_some_iff]
  constructor
  · intro member
    cases hit : map.entries.find? fun entry => entry.1 = key with
    | none => exact absurd rfl (of_decide_eq_false (Bool.eq_false_iff.mpr (List.find?_eq_none.mp hit _ member)))
    | some entry =>
      obtain ⟨there, here⟩ := entry
      obtain rfl : there = key := by simpa using List.find?_some hit
      exact ⟨_, rfl, value_unique (List.mem_of_find?_eq_some hit) member⟩
  · rintro ⟨⟨there, here⟩, hit, rfl⟩
    obtain rfl : there = key := by simpa using List.find?_some hit
    exact List.mem_of_find?_eq_some hit

theorem find?_eq_none : map.find? key = none ↔ ∀ entry ∈ map.entries, entry.1 ≠ key := by
  simp [find?]

@[simp] theorem find?_empty (key : Nat) : (empty : SortedMap α).find? key = none := rfl

theorem mem_insert : (other, found) ∈ (map.insert key value).entries ↔
    (other = key ∧ found = value) ∨ (other ≠ key ∧ (other, found) ∈ map.entries) := by
  simp only [insert, List.mem_append, List.mem_cons, List.mem_filter, decide_eq_true_eq, Prod.mk.injEq]
  rcases Nat.lt_trichotomy other key with below | rfl | beyond
  · simp [below, Nat.ne_of_lt below, Nat.not_lt_of_lt below]
  · simp
  · simp [beyond, Nat.ne_of_gt beyond, Nat.not_lt_of_lt beyond]

theorem mem_erase : entry ∈ (map.erase key).entries ↔ entry.1 ≠ key ∧ entry ∈ map.entries := by
  simp [erase, and_comm]

theorem find?_insert (map : SortedMap α) (key : Nat) (value : α) (other : Nat) :
    (map.insert key value).find? other = if other = key then some value else map.find? other := by
  ext found
  rw [← mem_entries, mem_insert, mem_entries]
  split
  next same => simp [same, eq_comm]
  next different => simp [different]

theorem find?_erase (map : SortedMap α) (key other : Nat) :
    (map.erase key).find? other = if other = key then none else map.find? other := by
  ext found
  rw [← mem_entries, mem_erase, mem_entries]
  split
  next same => simp [same]
  next different => simp [different]

@[simp] theorem find?_insert_self (map : SortedMap α) (key : Nat) (value : α) : (map.insert key value).find? key = some value := by
  rw [find?_insert, if_pos rfl]

theorem find?_insert_ne (map : SortedMap α) (value : α) (different : other ≠ key) :
    (map.insert key value).find? other = map.find? other := by
  rw [find?_insert, if_neg different]

@[simp] theorem find?_erase_self (map : SortedMap α) (key : Nat) : (map.erase key).find? key = none := by
  rw [find?_erase, if_pos rfl]

theorem find?_erase_ne (map : SortedMap α) (different : other ≠ key) : (map.erase key).find? other = map.find? other := by
  rw [find?_erase, if_neg different]

theorem entries_nodup (map : SortedMap α) : map.entries.Nodup :=
  map.sorted.imp fun less same => absurd (congrArg Prod.fst same) (Nat.ne_of_lt less)

theorem entries_eq_nil : map.entries = [] ↔ ∀ key, map.find? key = none := by
  constructor
  · intro none_ key
    rw [find?_eq_none, none_]
    exact nofun
  · intro none_
    refine List.eq_nil_iff_forall_not_mem.mpr fun entry member => ?_
    have here := mem_entries.mp (show (entry.1, entry.2) ∈ map.entries from member)
    rw [none_] at here
    cases here

/-! What one change does to the entries, their order aside. -/

theorem erase_of_absent (absent : map.find? key = none) : (map.erase key).entries = map.entries :=
  List.filter_eq_self.mpr fun entry member => decide_eq_true (find?_eq_none.mp absent entry member)

theorem perm_insert (map : SortedMap α) (key : Nat) (value : α) :
    (map.insert key value).entries.Perm ((key, value) :: (map.erase key).entries) := by
  refine (List.perm_ext_iff_of_nodup (entries_nodup _) ?_).mpr ?_
  · refine List.nodup_cons.mpr ⟨fun member => (mem_erase.mp member).1 rfl, entries_nodup _⟩
  · rintro ⟨other, found⟩
    rw [mem_insert, List.mem_cons, mem_erase, Prod.mk.injEq]

theorem perm_erase (here : map.find? key = some value) : map.entries.Perm ((key, value) :: (map.erase key).entries) := by
  refine (List.perm_ext_iff_of_nodup (entries_nodup _) ?_).mpr ?_
  · refine List.nodup_cons.mpr ⟨fun member => (mem_erase.mp member).1 rfl, entries_nodup _⟩
  · rintro ⟨other, found⟩
    rw [List.mem_cons, mem_erase, Prod.mk.injEq]
    constructor
    · intro member
      rcases Classical.em (other = key) with rfl | different
      · exact .inl ⟨rfl, value_unique member (mem_entries.mpr here)⟩
      · exact .inr ⟨different, member⟩
    · rintro (⟨rfl, rfl⟩ | ⟨_, member⟩)
      · exact mem_entries.mpr here
      · exact member

theorem perm_insert_new (absent : map.find? key = none) (value : α) :
    (map.insert key value).entries.Perm ((key, value) :: map.entries) := by
  have changed := map.perm_insert key value
  rwa [erase_of_absent absent] at changed

theorem keys_nodup (map : SortedMap α) : (map.entries.map Prod.fst).Nodup :=
  List.pairwise_map.mpr (map.sorted.imp fun less same => Nat.ne_of_lt less same)

/-- Two maps that agree key by key, up to what is kept of the values of one of them. -/
theorem perm_of_find? {β : Type*} {second : SortedMap β} {keep : α → β} (agree : ∀ key, (map.find? key).map keep = second.find? key) :
    (map.entries.map fun entry => (entry.1, keep entry.2)).Perm second.entries := by
  refine (List.perm_ext_iff_of_nodup ?_ (entries_nodup _)).mpr ?_
  · refine List.pairwise_map.mpr (map.sorted.imp fun {one other} less => ?_)
    exact fun same => Nat.ne_of_lt less (Prod.mk.inj same).1
  · rintro ⟨key, value⟩
    rw [mem_entries, ← agree, Option.map_eq_some_iff, List.mem_map]
    constructor
    · rintro ⟨⟨_, found⟩, member, same⟩
      cases same
      exact ⟨found, mem_entries.mp member, rfl⟩
    · rintro ⟨found, here, rfl⟩
      exact ⟨(key, found), mem_entries.mpr here, rfl⟩

/-! Walking a map. -/

theorem next_eq_some (reached : map.next key = some entry) :
    key < entry.1 ∧ map.find? entry.1 = some entry.2 ∧ ∀ between, key < between → between < entry.1 → map.find? between = none := by
  obtain ⟨beyond, front, rest, same, before⟩ := List.find?_eq_some_iff_append.mp reached
  refine ⟨of_decide_eq_true beyond, mem_entries.mp (List.mem_of_find?_eq_some reached), fun between lower upper => ?_⟩
  refine find?_eq_none.mpr fun candidate member equal => ?_
  subst equal
  have order := map.sorted
  rw [same] at order member
  rcases List.mem_append.mp member with early | late
  · exact absurd lower (by simpa using before candidate early)
  · rcases List.mem_cons.mp late with rfl | later
    · exact Nat.lt_irrefl _ upper
    · exact Nat.lt_asymm upper (List.rel_of_pairwise_cons (List.pairwise_append.mp order).2.1 later)

theorem next_eq_none : map.next key = none ↔ ∀ other, key < other → map.find? other = none := by
  rw [next, List.find?_eq_none]
  constructor
  · intro none_ other beyond
    refine find?_eq_none.mpr fun entry member same => none_ entry member (decide_eq_true (same ▸ beyond))
  · intro none_ entry member beyond
    have here := mem_entries.mp (show (entry.1, entry.2) ∈ map.entries from member)
    rw [none_ _ (of_decide_eq_true beyond)] at here
    cases here

theorem first_eq_some (reached : map.first = some entry) :
    map.find? entry.1 = some entry.2 ∧ ∀ below, below < entry.1 → map.find? below = none := by
  obtain ⟨rest, same⟩ : ∃ rest, map.entries = entry :: rest := List.head?_eq_some_iff.mp reached
  refine ⟨mem_entries.mp (same ▸ List.mem_cons_self), fun below lower => find?_eq_none.mpr fun candidate member equal => ?_⟩
  have order := map.sorted
  rw [same] at order member
  rcases List.mem_cons.mp member with rfl | later
  · exact Nat.ne_of_lt lower equal.symm
  · exact Nat.lt_asymm lower (equal ▸ List.rel_of_pairwise_cons order later)

theorem first_eq_none : map.first = none ↔ ∀ key, map.find? key = none := by
  rw [first, List.head?_eq_none_iff, entries_eq_nil]

theorem mem_atLeast : entry ∈ map.atLeast key ↔ key ≤ entry.1 ∧ entry ∈ map.entries := by
  simp [atLeast, and_comm]

def beyond (map : SortedMap α) (key : Nat) : List (Nat × α) := map.entries.filter fun entry => key < entry.1

theorem mem_beyond : entry ∈ map.beyond key ↔ key < entry.1 ∧ entry ∈ map.entries := by
  simp [beyond, and_comm]

theorem entries_ext {first second : List (Nat × α)} (ordered : first.Pairwise fun one other => one.1 < other.1)
    (sorted : second.Pairwise fun one other => one.1 < other.1) (same : ∀ entry, entry ∈ first ↔ entry ∈ second) : first = second := by
  have apart {entries : List (Nat × α)} (ordered : entries.Pairwise fun one other => one.1 < other.1) : entries.Nodup :=
    ordered.imp fun less same => Nat.ne_of_lt less (congrArg Prod.fst same)
  exact List.Perm.eq_of_pairwise (fun _ _ _ _ lower upper => absurd upper (Nat.lt_asymm lower)) ordered sorted
    ((List.perm_ext_iff_of_nodup (apart ordered) (apart sorted)).mpr same)

theorem atLeast_found (here : map.find? key = some value) : map.atLeast key = (key, value) :: map.beyond key := by
  refine entries_ext (map.sorted.filter _) (List.pairwise_cons.mpr ⟨fun _ member => (mem_beyond.mp member).1, map.sorted.filter _⟩) ?_
  rintro ⟨other, found⟩
  rw [mem_atLeast, List.mem_cons, mem_beyond, Prod.mk.injEq]
  constructor
  · rintro ⟨from_, member⟩
    rcases Nat.eq_or_lt_of_le from_ with rfl | later
    · exact .inl ⟨rfl, value_unique member (mem_entries.mpr here)⟩
    · exact .inr ⟨later, member⟩
  · rintro (⟨rfl, rfl⟩ | ⟨later, member⟩)
    · exact ⟨Nat.le_refl _, mem_entries.mpr here⟩
    · exact ⟨Nat.le_of_lt later, member⟩

theorem beyond_eq_atLeast (later : key < other) (between : ∀ middle, key < middle → middle < other → map.find? middle = none) :
    map.beyond key = map.atLeast other := by
  refine List.filter_congr fun entry member => decide_eq_decide.mpr ⟨fun behind => ?_, fun reached => Nat.lt_of_lt_of_le later reached⟩
  by_contra front
  exact find?_eq_none.mp (between entry.1 behind (Nat.lt_of_not_le front)) entry member rfl

theorem beyond_eq_nil (none_ : ∀ other, key < other → map.find? other = none) : map.beyond key = [] :=
  List.filter_eq_nil_iff.mpr fun entry member behind => find?_eq_none.mp (none_ entry.1 (of_decide_eq_true behind)) entry member rfl

theorem atLeast_eq_entries (below : ∀ lower, lower < key → map.find? lower = none) : map.atLeast key = map.entries := by
  refine List.filter_eq_self.mpr fun entry member => decide_eq_true ?_
  by_contra front
  exact find?_eq_none.mp (below entry.1 (Nat.lt_of_not_le front)) entry member rfl

theorem beyond_insert (map : SortedMap α) (key : Nat) (value : α) : (map.insert key value).beyond key = map.beyond key := by
  refine entries_ext ((map.insert key value).sorted.filter _) (map.sorted.filter _) ?_
  rintro ⟨other, found⟩
  rw [mem_beyond, mem_beyond, mem_insert]
  refine and_congr_right fun later => ?_
  rw [or_iff_right fun same => Nat.ne_of_gt later same.1]
  exact and_iff_right (Nat.ne_of_gt later)

theorem beyond_erase (map : SortedMap α) (key : Nat) : (map.erase key).beyond key = map.beyond key := by
  refine entries_ext ((map.erase key).sorted.filter _) (map.sorted.filter _) fun entry => ?_
  rw [mem_beyond, mem_beyond, mem_erase]
  exact and_congr_right fun later => and_iff_right (Nat.ne_of_gt later)

/-! Entries taken out together. -/

def eraseAll (map : SortedMap α) (keys : List Nat) : SortedMap α where
  entries := map.entries.filter fun entry => entry.1 ∉ keys
  sorted := map.sorted.filter _

theorem ext_entries {first second : SortedMap α} (same : first.entries = second.entries) : first = second := by
  cases first
  cases second
  cases same
  rfl

@[simp] theorem eraseAll_nil (map : SortedMap α) : map.eraseAll [] = map :=
  ext_entries (List.filter_eq_self.mpr fun _ _ => decide_eq_true List.not_mem_nil)

theorem eraseAll_eraseAll (map : SortedMap α) (first second : List Nat) :
    (map.eraseAll first).eraseAll second = map.eraseAll (first ++ second) := by
  refine ext_entries ?_
  show (map.entries.filter _).filter _ = map.entries.filter _
  rw [List.filter_filter]
  refine List.filter_congr fun entry _ => ?_
  rw [← Bool.decide_and, decide_eq_decide, List.mem_append, not_or, and_comm]

theorem eraseAll_singleton (map : SortedMap α) (key : Nat) : map.eraseAll [key] = map.erase key := by
  refine ext_entries (List.filter_congr fun entry _ => ?_)
  rw [decide_eq_decide, List.mem_singleton]

theorem mem_eraseAll {keys : List Nat} : entry ∈ (map.eraseAll keys).entries ↔ entry ∈ map.entries ∧ entry.1 ∉ keys := by
  simp [eraseAll]

theorem find?_eraseAll (map : SortedMap α) (keys : List Nat) :
    (map.eraseAll keys).find? key = if key ∈ keys then none else map.find? key := by
  ext found
  rw [← mem_entries, mem_eraseAll, mem_entries]
  split
  next listed => simp [listed]
  next kept => simp [kept]

/-- What is left of the entries that pass a test when the first of them are taken out. -/
theorem eraseAll_take (map : SortedMap α) (test : Nat × α → Bool) (count : Nat) :
    (map.eraseAll (((map.entries.filter test).take count).map Prod.fst)).entries.filter test = (map.entries.filter test).drop count := by
  show (map.entries.filter _).filter test = _
  rw [List.filter_filter, List.filter_congr fun _ _ => Bool.and_comm .., ← List.filter_filter]
  have apart : ((map.entries.filter test).map Prod.fst).Nodup := map.keys_nodup.sublist (List.filter_sublist.map _)
  generalize map.entries.filter test = found at apart
  rw [← List.take_append_drop count found, List.map_append] at apart
  have taken : (found.take count).filter (fun entry => decide (entry.1 ∉ (found.take count).map Prod.fst)) = [] := by
    refine List.filter_eq_nil_iff.mpr fun entry member => ?_
    rw [decide_eq_true_eq, not_not]
    exact List.mem_map_of_mem member
  have left : (found.drop count).filter (fun entry => decide (entry.1 ∉ (found.take count).map Prod.fst)) = found.drop count := by
    refine List.filter_eq_self.mpr fun entry member => ?_
    exact decide_eq_true fun here => (List.nodup_append.mp apart).2.2 _ here _ (List.mem_map_of_mem member) rfl
  calc found.filter (fun entry => decide (entry.1 ∉ (found.take count).map Prod.fst))
      = (found.take count ++ found.drop count).filter _ := by rw [List.take_append_drop]
    _ = found.drop count := by rw [List.filter_append, taken, left, List.nil_append]

/-! Maps that agree on every key are the same. -/

theorem ext_find? {first second : SortedMap α} (agree : ∀ key, first.find? key = second.find? key) : first = second := by
  refine ext_entries (entries_ext first.sorted second.sorted fun entry => ?_)
  rw [show entry = (entry.1, entry.2) from rfl, mem_entries, mem_entries, agree]

theorem insert_same (here : map.find? key = some value) : map.insert key value = map := by
  refine ext_find? fun other => ?_
  rw [find?_insert]
  split
  next same => rw [same, here]
  next => rfl

theorem erase_absent (absent : map.find? key = none) : map.erase key = map := ext_entries (erase_of_absent absent)

section Values
variable {β : Type*} {change : Nat → α → β}

/-- Every value changed, by a function that knows the key. -/
def mapValues (map : SortedMap α) (change : Nat → α → β) : SortedMap β where
  entries := map.entries.map fun entry => (entry.1, change entry.1 entry.2)
  sorted := List.pairwise_map.mpr map.sorted

theorem find?_mapValues (map : SortedMap α) (change : Nat → α → β) (key : Nat) :
    (map.mapValues change).find? key = (map.find? key).map (change key) := by
  ext found
  rw [← mem_entries, Option.map_eq_some_iff]
  show (key, found) ∈ map.entries.map _ ↔ _
  rw [List.mem_map]
  constructor
  · rintro ⟨⟨_, value⟩, member, same⟩
    cases same
    exact ⟨value, mem_entries.mp member, rfl⟩
  · rintro ⟨value, here, rfl⟩
    exact ⟨(key, value), mem_entries.mpr here, rfl⟩

theorem mapValues_erase (map : SortedMap α) (key : Nat) : (map.erase key).mapValues change = (map.mapValues change).erase key := by
  refine ext_find? fun other => ?_
  rw [find?_mapValues, find?_erase, find?_erase, find?_mapValues]
  split <;> rfl

theorem mapValues_insert (map : SortedMap α) (key : Nat) (value : α) :
    (map.insert key value).mapValues change = (map.mapValues change).insert key (change key value) := by
  refine ext_find? fun other => ?_
  rw [find?_mapValues, find?_insert, find?_insert, find?_mapValues]
  split
  next same => rw [same]; rfl
  next => rfl

theorem mapValues_eraseAll (map : SortedMap α) (keys : List Nat) :
    (map.eraseAll keys).mapValues change = (map.mapValues change).eraseAll keys := by
  refine ext_entries ?_
  show (map.entries.filter _).map _ = (map.entries.map _).filter _
  rw [List.filter_map]
  rfl

theorem mapValues_nil (map : SortedMap α) : (map.mapValues change).entries = [] ↔ map.entries = [] := List.map_eq_nil_iff

end Values

/-! Sums over all entries. -/

section Sums
variable {weight : Nat → α → Int}

def sum (map : SortedMap α) (weight : Nat → α → Int) : Int := (map.entries.map fun entry => weight entry.1 entry.2).sum

theorem sum_erase (here : map.find? key = some value) : map.sum weight = weight key value + (map.erase key).sum weight := by
  rw [sum, ((perm_erase here).map _).sum_eq, List.map_cons, List.sum_cons, sum]

theorem sum_insert (map : SortedMap α) (key : Nat) (value : α) :
    (map.insert key value).sum weight = weight key value + (map.erase key).sum weight := by
  rw [sum, ((perm_insert map key value).map _).sum_eq, List.map_cons, List.sum_cons, sum]

theorem sum_insert_new (absent : map.find? key = none) (value : α) :
    (map.insert key value).sum weight = weight key value + map.sum weight := by
  rw [sum_insert, erase_absent absent]

theorem sum_update (here : map.find? key = some value) (found : α) :
    (map.insert key found).sum weight = map.sum weight - weight key value + weight key found := by
  rw [sum_insert, sum_erase here]
  omega

theorem sum_congr {second : Nat → α → Int} (same : ∀ key value, map.find? key = some value → weight key value = second key value) :
    map.sum weight = map.sum second :=
  congrArg List.sum (List.map_congr_left fun entry member => same entry.1 entry.2 (mem_entries.mp member))

theorem sum_add (map : SortedMap α) (first second : Nat → α → Int) : map.sum (fun key value => first key value + second key value) =
    map.sum first + map.sum second :=
  List.sum_map_add

theorem sum_range (map : SortedMap α) (weights : Nat → Nat → α → Int) (count : Nat) :
    ((List.range count).map fun index => map.sum (weights index)).sum =
      map.sum fun key value => ((List.range count).map fun index => weights index key value).sum := by
  induction count with
  | zero => exact (List.sum_eq_zero fun value member => by obtain ⟨_, _, rfl⟩ := List.mem_map.mp member; rfl).symm
  | succ count ih =>
    rw [List.range_succ, List.map_append, List.sum_append, ih, List.map_singleton, List.sum_singleton, ← sum_add]
    exact sum_congr fun key value _ => by rw [List.map_append, List.sum_append, List.map_singleton, List.sum_singleton]

theorem sum_nonneg (nonneg : ∀ key value, 0 ≤ weight key value) : 0 ≤ map.sum weight :=
  List.sum_nonneg fun _ member => by
    obtain ⟨entry, _, rfl⟩ := List.mem_map.mp member
    exact nonneg entry.1 entry.2

theorem sum_mono {second : Nat → α → Int} (less : ∀ key value, map.find? key = some value → weight key value ≤ second key value) :
    map.sum weight ≤ map.sum second :=
  List.sum_le_sum fun entry member => less entry.1 entry.2 (mem_entries.mp member)

/-- A sum of at most so much for each entry that is kept, and nothing for the others. -/
theorem sum_le_kept (keep : α → Prop) [DecidablePred keep] {most : Nat}
    (few : ∀ key value, map.find? key = some value → weight key value ≤ if keep value then most else 0) :
    map.sum weight ≤ most * ((map.entries.filter fun entry => keep entry.2).length : Nat) := by
  have each (entry : Nat × α) (member : entry ∈ map.entries) := few entry.1 entry.2 (mem_entries.mp member)
  rw [sum]
  generalize map.entries = entries at each
  induction entries with
  | nil => exact Int.le_of_eq (Int.mul_zero _).symm
  | cons entry rest ih =>
    have first := each entry List.mem_cons_self
    have later := ih fun entry member => each entry (List.mem_cons_of_mem _ member)
    rw [List.map_cons, List.sum_cons, List.filter_cons]
    split at first
    next kept =>
      rw [if_pos (decide_eq_true kept), List.length_cons, Nat.cast_succ, Int.mul_add, Int.mul_one]
      omega
    next dropped =>
      rw [if_neg fun kept => dropped (of_decide_eq_true kept)]
      omega

theorem le_sum (here : map.find? key = some value) (nonneg : ∀ key value, 0 ≤ weight key value) : weight key value ≤ map.sum weight := by
  rw [sum_erase here]
  exact Int.le_add_of_nonneg_right (sum_nonneg nonneg)

theorem perm_eraseAll {gone : List (Nat × α)} (inside : gone.Sublist map.entries) :
    map.entries.Perm (gone ++ (map.eraseAll (gone.map Prod.fst)).entries) := by
  refine (List.perm_ext_iff_of_nodup (entries_nodup _) ?_).mpr fun entry => ?_
  · refine List.nodup_append.mpr ⟨map.entries_nodup.sublist inside, entries_nodup _, ?_⟩
    rintro one first _ second rfl
    exact (mem_eraseAll.mp second).2 (List.mem_map_of_mem first)
  · rw [List.mem_append, mem_eraseAll]
    constructor
    · intro member
      rcases Classical.em (entry.1 ∈ gone.map Prod.fst) with listed | kept
      · obtain ⟨found, there, same⟩ := List.mem_map.mp listed
        obtain rfl : found = entry := Prod.ext same (value_unique (same ▸ inside.subset there) member)
        exact .inl there
      · exact .inr ⟨member, kept⟩
    · rintro (there | ⟨member, _⟩)
      · exact inside.subset there
      · exact member

theorem sum_eraseAll {gone : List (Nat × α)} (inside : gone.Sublist map.entries) :
    map.sum weight = (gone.map fun entry => weight entry.1 entry.2).sum + (map.eraseAll (gone.map Prod.fst)).sum weight := by
  rw [sum, ((perm_eraseAll inside).map _).sum_eq, List.map_append, List.sum_append, sum]

end Sums
end SortedMap
end Compcache.Library
