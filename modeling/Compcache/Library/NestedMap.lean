import Compcache.Library.SortedMap
import Mathlib.Data.List.Nodup

/-! Maps of maps: cells by row and column, walked row by row. -/

namespace Compcache.Library

abbrev NestedMap (α : Type) := SortedMap (SortedMap α)

namespace NestedMap
variable {α β : Type} {map : NestedMap α} {cells : SortedMap α} {row column : Nat}

def lookup (map : NestedMap α) (row column : Nat) : Option α := (map.find? row).bind fun cells => cells.find? column

/-- Membership in a list of cells, decided in one way everywhere. -/
instance decidableCell (cells : List (Nat × Nat)) (cell : Nat × Nat) : Decidable (cell ∈ cells) :=
  List.instDecidableMemOfLawfulBEq cell cells

/-- The cells of some rows that pass a test, in order. -/
def listed (test : α → Bool) (rows : List (Nat × SortedMap α)) : List (Nat × Nat) :=
  rows.flatMap fun row => (row.2.entries.filter fun cell => test cell.2).map fun cell => (row.1, cell.1)

def total (map : NestedMap α) (weight : α → Int) : Int := map.sum fun _ cells => cells.sum fun _ => weight

def mapCells (map : NestedMap α) (change : α → β) : NestedMap β := map.mapValues fun _ cells => cells.mapValues fun _ => change

theorem lookup_row (found : map.find? row = some cells) (column : Nat) : map.lookup row column = cells.find? column := by
  rw [lookup, found, Option.bind_some]

theorem lookup_missing (missing : map.find? row = none) (column : Nat) : map.lookup row column = none := by
  rw [lookup, missing, Option.bind_none]

theorem lookup_insert (map : NestedMap α) (row : Nat) (cells : SortedMap α) (other column : Nat) :
    lookup (map.insert row cells) other column = if other = row then cells.find? column else map.lookup other column := by
  rw [lookup, SortedMap.find?_insert]
  split
  next => rfl
  next => rfl

theorem lookup_erase (found : map.find? row = some cells) (column other second : Nat) :
    lookup (map.insert row (cells.erase column)) other second = if other = row ∧
      second = column then none else map.lookup other second := by
  rw [lookup_insert]
  rcases Classical.em (other = row) with rfl | elsewhere
  · rw [if_pos rfl, SortedMap.find?_erase, lookup_row found]
    simp only [true_and]
  · rw [if_neg elsewhere, if_neg fun same => elsewhere same.1]

theorem lookup_eraseAll (found : map.find? row = some cells) (columns : List Nat) (other second : Nat) :
    lookup (map.insert row (cells.eraseAll columns)) other second = if other = row ∧
      second ∈ columns then none else map.lookup other second := by
  rw [lookup_insert]
  rcases Classical.em (other = row) with rfl | elsewhere
  · rw [if_pos rfl, SortedMap.find?_eraseAll, lookup_row found]
    simp only [true_and]
  · rw [if_neg elsewhere, if_neg fun same => elsewhere same.1]

theorem lookup_put (found : map.find? row = some cells) (column : Nat) (value : α) (other second : Nat) :
    lookup (map.insert row (cells.insert column value)) other second = if other = row ∧
      second = column then some value else map.lookup other second := by
  rw [lookup_insert]
  rcases Classical.em (other = row) with rfl | elsewhere
  · rw [if_pos rfl, SortedMap.find?_insert, lookup_row found]
    simp only [true_and]
  · rw [if_neg elsewhere, if_neg fun same => elsewhere same.1]

theorem lookup_emptied (found : map.find? row = some cells) (empty : cells.entries = []) (other second : Nat) :
    lookup (map.erase row) other second = map.lookup other second := by
  rw [lookup, SortedMap.find?_erase]
  split
  next same =>
    rw [same, lookup_row found, SortedMap.entries_eq_nil.mp empty]
    rfl
  next => rfl

theorem lookup_mapCells (map : NestedMap α) (change : α → β) (row column : Nat) :
    (map.mapCells change).lookup row column = (map.lookup row column).map change := by
  rw [lookup, mapCells, SortedMap.find?_mapValues, lookup, Option.bind_map, Option.map_bind]
  refine congrArg _ (funext fun cells => ?_)
  exact SortedMap.find?_mapValues ..

theorem listed_cons (test : α → Bool) (row : Nat) (cells : SortedMap α) (rest : List (Nat × SortedMap α)) :
    listed test ((row, cells) :: rest) = ((cells.entries.filter fun cell => test cell.2).map fun cell => (row, cell.1)) ++
      listed test rest :=
  List.flatMap_cons

theorem mem_row (found : map.find? row = some cells) {cell : Nat × α} (member : cell ∈ cells.entries) :
    map.lookup row cell.1 = some cell.2 :=
  (lookup_row found cell.1).trans (SortedMap.mem_entries.mp member)

theorem listed_mapCells {change : α → β} {test : α → Bool} {other : β → Bool}
    (same : ∀ {row column value}, map.lookup row column = some value → other (change value) = test value) :
    listed other (map.mapCells change).entries = listed test map.entries := by
  show List.flatMap _ (map.entries.map _) = List.flatMap _ map.entries
  rw [List.flatMap_map]
  refine List.flatMap_congr fun row member => ?_
  show List.map _ (List.filter _ (row.2.entries.map _)) = _
  rw [List.filter_map, List.map_map]
  refine congrArg (List.map _) (List.filter_congr fun cell inside => ?_)
  exact same (mem_row (SortedMap.mem_entries.mp member) inside)

theorem total_mapCells {change : α → β} {weight : α → Int} {other : β → Int}
    (same : ∀ {row column value}, map.lookup row column = some value → other (change value) = weight value) :
    (map.mapCells change).total other = map.total weight := by
  show List.sum (List.map _ (map.entries.map _)) = List.sum (List.map _ map.entries)
  rw [List.map_map]
  refine congrArg List.sum (List.map_congr_left fun row member => ?_)
  show List.sum (List.map _ (row.2.entries.map _)) = List.sum (List.map _ row.2.entries)
  rw [List.map_map]
  refine congrArg List.sum (List.map_congr_left fun cell inside => ?_)
  exact same (mem_row (SortedMap.mem_entries.mp member) inside)

theorem sum_nonneg {entries : List Int} (each : ∀ entry ∈ entries, 0 ≤ entry) : 0 ≤ entries.sum := by
  induction entries with
  | nil => exact Int.le_refl _
  | cons entry rest ih =>
    rw [List.sum_cons]
    exact Int.add_nonneg (each _ List.mem_cons_self) (ih fun other member => each other (List.mem_cons_of_mem _ member))

theorem total_nonneg {weight : α → Int} (least : ∀ {row column value}, map.lookup row column = some value → 0 ≤ weight value) :
    0 ≤ map.total weight := by
  refine sum_nonneg fun entry member => ?_
  obtain ⟨row, inside, rfl⟩ := List.mem_map.mp member
  refine sum_nonneg fun entry member => ?_
  obtain ⟨cell, there, rfl⟩ := List.mem_map.mp member
  exact least (mem_row (SortedMap.mem_entries.mp inside) there)

theorem total_listed (map : NestedMap α) (test : α → Bool) : (map.total fun value => if test value then 1 else 0) =
    (listed test map.entries).length := by
  have row (cells : List (Nat × α)) : (cells.map fun cell => if test cell.2 then (1 : Int) else 0).sum =
      (cells.filter fun cell => test cell.2).length := by
    induction cells with
    | nil => rfl
    | cons cell rest ih =>
      rw [List.map_cons, List.sum_cons, ih, List.filter_cons]
      split
      next => rw [List.length_cons]; omega
      next => rw [zero_add]
  have all (rows : List (Nat × SortedMap α)) :
      (rows.map fun row => row.2.sum fun _ value => if test value then (1 : Int) else 0).sum = (listed test rows).length := by
    induction rows with
    | nil => rfl
    | cons first rest ih =>
      rw [List.map_cons, List.sum_cons, ih, listed_cons, List.length_append, List.length_map, SortedMap.sum, row]
      omega
  exact all map.entries

theorem total_insert (found : map.find? row = some cells) (changed : SortedMap α) (weight : α → Int) :
    total (map.insert row changed) weight = map.total weight - cells.sum (fun _ => weight) + changed.sum fun _ => weight := by
  rw [total, total, SortedMap.sum_insert, SortedMap.sum_erase found]
  omega

theorem total_erase (found : map.find? row = some cells) (weight : α → Int) :
    total (map.erase row) weight = map.total weight - cells.sum fun _ => weight := by
  rw [total, total, SortedMap.sum_erase found]
  omega

theorem total_new (missing : map.find? row = none) (cells : SortedMap α) (weight : α → Int) :
    total (map.insert row cells) weight = total map weight + cells.sum fun _ => weight := by
  rw [total, total, SortedMap.sum_insert, SortedMap.erase_absent missing, add_comm]

/-! The cells of all rows. -/

def allCells (map : NestedMap α) : List ((Nat × Nat) × α) := map.entries.flatMap fun row =>
    row.2.entries.map fun cell => ((row.1, cell.1), cell.2)

theorem mem_allCells {place : Nat × Nat} {value : α} : (place, value) ∈ allCells map ↔ map.lookup place.1 place.2 = some value := by
  obtain ⟨row, column⟩ := place
  simp only [allCells, List.mem_flatMap, List.mem_map, Prod.mk.injEq]
  constructor
  · rintro ⟨⟨_, cells⟩, inside, ⟨_, _⟩, there, ⟨rfl, rfl⟩, rfl⟩
    exact (lookup_row (SortedMap.mem_entries.mp inside) _).trans (SortedMap.mem_entries.mp there)
  · intro found
    obtain ⟨cells, here, there⟩ := Option.bind_eq_some_iff.mp found
    exact ⟨(row, cells), SortedMap.mem_entries.mpr here, (column, value), SortedMap.mem_entries.mpr there, ⟨rfl, rfl⟩, rfl⟩

theorem allCells_nodup (map : NestedMap α) : ((allCells map).map Prod.fst).Nodup := by
  rw [allCells, List.map_flatMap]
  refine List.nodup_flatMap.mpr ⟨fun row _ => ?_, map.sorted.imp fun {one other} less => ?_⟩
  · rw [List.map_map]
    exact List.pairwise_map.mpr (row.2.sorted.imp fun less same => Nat.ne_of_lt less (Prod.mk.inj same).2)
  · intro place first second
    simp only [List.map_map, List.mem_map] at first second
    obtain ⟨_, _, rfl⟩ := first
    obtain ⟨_, _, same⟩ := second
    exact Nat.ne_of_gt less (Prod.mk.inj same).1

theorem total_allCells (map : NestedMap α) (weight : α → Int) : map.total weight = ((allCells map).map fun cell => weight cell.2).sum := by
  rw [total, SortedMap.sum, allCells]
  induction map.entries with
  | nil => rfl
  | cons row rest ih =>
    rw [List.map_cons, List.sum_cons, ih, List.flatMap_cons, List.map_append, List.sum_append, SortedMap.sum, List.map_map]
    rfl

section Changes
variable {before after : NestedMap α}

theorem total_le {weight : α → Int} (least : ∀ {row column value}, before.lookup row column = some value → 0 ≤ weight value)
    (sub : ∀ {row column value}, after.lookup row column = some value → before.lookup row column = some value) :
    after.total weight ≤ before.total weight := by
  let rest := (allCells before).filter fun cell => cell.1 ∉ (allCells after).map Prod.fst
  have split : (allCells before).Perm (allCells after ++ rest) := by
    refine (List.perm_ext_iff_of_nodup (allCells_nodup before).of_map ?_).mpr fun cell => ?_
    · refine List.nodup_append.mpr ⟨(allCells_nodup after).of_map, (allCells_nodup before).of_map.filter _, ?_⟩
      rintro one first _ second rfl
      exact of_decide_eq_true (List.mem_filter.mp second).2 (List.mem_map_of_mem first)
    · rw [List.mem_append]
      constructor
      · intro member
        rcases Classical.em (cell.1 ∈ (allCells after).map Prod.fst) with listed | missing
        · obtain ⟨⟨place, value⟩, there, rfl⟩ := List.mem_map.mp listed
          obtain rfl : value = cell.2 := Option.some.inj ((sub (mem_allCells.mp there)).symm.trans (mem_allCells.mp member))
          exact .inl there
        · exact .inr (List.mem_filter.mpr ⟨member, decide_eq_true missing⟩)
      · rintro (there | left)
        · exact mem_allCells.mpr (sub (mem_allCells.mp there))
        · exact List.mem_of_mem_filter left
  have more : 0 ≤ (rest.map fun cell => weight cell.2).sum := by
    refine sum_nonneg fun entry member => ?_
    obtain ⟨cell, inside, rfl⟩ := List.mem_map.mp member
    exact least (mem_allCells.mp (List.mem_of_mem_filter inside))
  rw [total_allCells, total_allCells, (split.map _).sum_eq, List.map_append, List.sum_append]
  omega

theorem total_nothing (bare : ∀ row column, map.lookup row column = none) (weight : α → Int) : map.total weight = 0 := by
  have none_ : allCells map = [] := by
    refine List.eq_nil_iff_forall_not_mem.mpr fun cell member => ?_
    have found := mem_allCells.mp member
    rw [bare] at found
    cases found
  rw [total_allCells, none_]
  rfl

theorem total_apart (map : NestedMap α) (weight : α → Int) (row column : Nat) :
    map.total weight = (map.lookup row column).elim 0 weight + (((allCells map).filter fun cell => cell.1 ≠ (row, column)).map
      fun cell => weight cell.2).sum := by
  rw [total_allCells]
  cases found : map.lookup row column with
  | none =>
    rw [List.filter_eq_self.mpr, Option.elim_none, zero_add]
    intro cell member
    refine decide_eq_true fun same => ?_
    have there := mem_allCells.mp member
    rw [same, found] at there
    cases there
  | some value =>
    have split : (allCells map).Perm (((row, column), value) :: (allCells map).filter fun cell => cell.1 ≠ (row, column)) := by
      refine (List.perm_ext_iff_of_nodup (allCells_nodup map).of_map ?_).mpr fun cell => ?_
      · refine List.nodup_cons.mpr ⟨fun member => ?_, (allCells_nodup map).of_map.filter _⟩
        exact of_decide_eq_true (List.mem_filter.mp member).2 rfl
      · rw [List.mem_cons, List.mem_filter, decide_eq_true_eq]
        constructor
        · intro member
          rcases Classical.em (cell.1 = (row, column)) with same | apart
          · have there := mem_allCells.mp member
            rw [same, found] at there
            exact .inl (Prod.ext same (Option.some.inj there).symm)
          · exact .inr ⟨member, apart⟩
        · rintro (rfl | ⟨member, _⟩)
          · exact mem_allCells.mpr found
          · exact member
    rw [(split.map _).sum_eq, List.map_cons, List.sum_cons, Option.elim_some]

theorem total_set {row column : Nat} {value : Option α} (sets : ∀ other second, after.lookup other second =
    if other = row ∧ second = column then value else before.lookup other second) (weight : α → Int) :
    after.total weight = before.total weight - (before.lookup row column).elim 0 weight + value.elim 0 weight := by
  have rest : ((allCells after).filter fun cell => cell.1 ≠ (row, column)).Perm ((allCells before).filter fun cell => cell.1 ≠
      (row, column)) := by
    refine (List.perm_ext_iff_of_nodup ((allCells_nodup after).of_map.filter _) ((allCells_nodup before).of_map.filter _)).mpr
      fun cell => ?_
    rw [List.mem_filter, List.mem_filter, mem_allCells, mem_allCells, sets]
    refine and_congr_left fun apart => ?_
    rw [if_neg]
    rintro ⟨rfl, rfl⟩
    exact of_decide_eq_true apart rfl
  rw [total_apart after weight row column, total_apart before weight row column, (rest.map _).sum_eq, sets, if_pos ⟨rfl, rfl⟩]
  omega

end Changes
end NestedMap
end Compcache.Library
