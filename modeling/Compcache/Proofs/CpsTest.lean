import Mathlib.Algebra.BigOperators.Group.Finset.Piecewise
import Mathlib.Algebra.BigOperators.Group.List.Basic
import Mathlib.Algebra.Group.Action.Defs
import Mathlib.Algebra.Order.BigOperators.Group.Finset
import Compcache.CpsTest
import Compcache.Library.Runs
import Compcache.Proofs.Hashtable

/-! The books of `cps_test`: references of items, items of the hash table, and totals. -/

namespace Compcache.CpsTest
open Library Library.Runs Library.Chains Hashtable

/-! Sums over the slots. -/

def tally (weight : Option Nat → Nat) (table : Nat → Option Nat) : Nat := ∑ index ∈ Finset.range maxTableSize, weight (table index)

/-- The number of slots that refer to an item. -/
def refs (table : Nat → Option Nat) (item : Nat) : Nat := ((Finset.range maxTableSize).filter fun index => table index = some item).card

def slots (table : Nat → Option Nat) : Nat := ((Finset.range maxTableSize).filter fun index => (table index).isSome).card

section Sums
variable {table : Nat → Option Nat} {index item : Nat} {weight : Option Nat → Nat}

theorem tally_update (inside : index < maxTableSize) (value : Option Nat) :
    tally weight (Function.update table index value) + weight (table index) = tally weight table + weight value := by
  have member := Finset.mem_range.mpr inside
  have others : ∑ other ∈ (Finset.range maxTableSize).erase index, weight (Function.update table index value other) =
      ∑ other ∈ (Finset.range maxTableSize).erase index, weight (table other) :=
    Finset.sum_congr rfl fun other there => by rw [Function.update_of_ne (Finset.ne_of_mem_erase there)]
  rw [tally, tally, ← Finset.add_sum_erase _ _ member, ← Finset.add_sum_erase _ _ member, others, Function.update_self]
  omega

theorem refs_eq (table : Nat → Option Nat) (item : Nat) : refs table item = tally (fun slot => if slot = some item then 1 else 0) table :=
  Finset.card_filter ..

theorem slots_eq (table : Nat → Option Nat) : slots table = tally (fun slot => if slot.isSome then 1 else 0) table := Finset.card_filter ..

theorem refs_update (inside : index < maxTableSize) (value : Option Nat) :
    refs (Function.update table index value) item + (if table index = some item then 1 else 0) =
      refs table item + (if value = some item then 1 else 0) := by
  rw [refs_eq, refs_eq]
  exact tally_update inside value

theorem refs_ne_zero : refs table item ≠ 0 ↔ ∃ index < maxTableSize, table index = some item := by
  rw [refs, Finset.card_ne_zero, Finset.filter_nonempty_iff]
  simp

end Sums

/-- What is kept of a page: its hash and its compressed length. -/
abbrev Record := Key × UInt16

theorem uint16_pred (count : Nat) : UInt16.ofNat (count + 1) - 1 = UInt16.ofNat count := by
  rw [UInt16.ofNat_add]
  exact UInt16.add_sub_cancel ..

theorem uint16_eq_zero {count : Nat} (small : count < 2 ^ 16) : UInt16.ofNat count = 0 ↔ count = 0 := by
  rw [← UInt16.toNat_inj, UInt16.toNat_ofNat', Nat.mod_eq_of_lt small]
  rfl

section Counts
variable [Arch]

/-- The items are those that `table` refers to, as often as they count, each under
its own hash in the hash table, and the totals with page sharing are right. -/
structure Counted (table : Nat → Option Nat) (heap : Heap) (stats : Stats) (chains : Nat → List Nat) (records : SortedMap Record) :
    Prop where
  tabled : Tabled heap chains
  data : ∀ item, heap.data item = (records.find? item).map fun record => (record.1, record.2, UInt16.ofNat (refs table item))
  used : ∀ {item record}, records.find? item = some record → 1 ≤ refs table item ∧ refs table item < 2 ^ 16 ∧ record.2.toNat ≤ pageSize
  stored : ∀ {index item}, table index = some item → index < maxTableSize ∧ ∃ record, records.find? item = some record
  listed : ∀ {item record}, records.find? item = some record → item ∈ chains (heap.bucket record.1)
  distinct : ∀ {item other record second}, records.find? item = some record → records.find? other = some second →
    record.1 = second.1 → item = other
  pages : stats.nrSwapPagesPs = BitVec.ofNat _ records.entries.length
  bytes : stats.memCompressAndPs = BitVec.ofNat _ (records.entries.map fun entry => entry.2.2.toNat).sum

theorem ulong_add_sub (count : Nat) (value : UInt16) : BitVec.ofNat bitsPerLong (value.toNat + count) - ulong value =
    BitVec.ofNat bitsPerLong count := by
  rw [ulong, Nat.add_comm, BitVec.ofNat_add, BitVec.add_sub_cancel]

theorem ulong_add (count : Nat) (value : UInt16) : BitVec.ofNat bitsPerLong count + ulong value =
    BitVec.ofNat bitsPerLong (value.toNat + count) := by
  rw [ulong, Nat.add_comm value.toNat, BitVec.ofNat_add]

section Put
variable {table : Nat → Option Nat} {cps : Cps} {chains : Nat → List Nat} {records : SortedMap Record} {index item : Nat}

theorem Counted.found (counted : Counted table cps.heap cps.stats chains records) (slot : table index = some item) :
    ∃ record found, records.find? item = some record ∧ cps.heap.items.find? item = some found ∧
      found.key = record.1 ∧ found.compressLen = record.2 ∧ found.count = UInt16.ofNat (refs table item) := by
  obtain ⟨_, record, known⟩ := counted.stored slot
  have data := counted.data item
  rw [known] at data
  obtain ⟨found, here, same⟩ := Option.map_eq_some_iff.mp data
  obtain ⟨key, rest⟩ := Prod.mk.inj same
  obtain ⟨len, count⟩ := Prod.mk.inj rest
  exact ⟨record, found, known, here, key, len, count⟩

omit [Arch] in
theorem refs_vacate (inside : index < maxTableSize) (slot : table index = some item) :
    refs (Function.update table index none) item + 1 = refs table item := by
  have moved : refs (Function.update table index none) item + _ = refs table item + _ := refs_update inside none
  rw [if_pos slot, if_neg (Option.some_ne_none item).symm] at moved
  exact moved.trans (Nat.add_zero _)

omit [Arch] in
theorem refs_vacate_ne {other : Nat} (inside : index < maxTableSize) (slot : table index = some item) (different : other ≠ item) :
    refs (Function.update table index none) other = refs table other := by
  have moved : refs (Function.update table index none) other + _ = refs table other + _ := refs_update inside none
  have elsewhere : table index ≠ some other := fun same => different (Option.some.inj (slot.symm.trans same)).symm
  rw [if_neg elsewhere, if_neg (Option.some_ne_none other).symm] at moved
  exact Nat.add_right_cancel moved

omit [Arch] in
theorem vacate_stored {other second : Nat} (there : Function.update table index none other = some second) :
    other ≠ index ∧ table other = some second := by
  rcases eq_or_ne other index with rfl | different
  · rw [Function.update_self] at there
    cases there
  · rw [Function.update_of_ne different] at there
    exact ⟨different, there⟩

theorem Counted.unref {found : HashItem} (counted : Counted table cps.heap cps.stats chains records) (slot : table index = some item)
    (here : cps.heap.items.find? item = some found) (shared : refs (Function.update table index none) item ≠ 0) :
    Counted (Function.update table index none)
      { cps.heap with items := cps.heap.items.insert item { found with count := UInt16.ofNat (refs
        (Function.update table index none) item) } }
      cps.stats chains records := by
  obtain ⟨inside, _⟩ := counted.stored slot
  have own := refs_vacate inside slot
  constructor
  · exact counted.tabled.rewrite here rfl rfl
  · intro other
    have data := counted.data other
    rcases eq_or_ne other item with rfl | different
    · rw [Heap.data, here] at data
      rw [Heap.data, SortedMap.find?_insert_self]
      cases known : records.find? other with
      | none =>
        rw [known] at data
        cases data
      | some record =>
        rw [known] at data
        obtain ⟨key, rest⟩ := Prod.mk.inj (Option.some.inj data)
        obtain ⟨len, _⟩ := Prod.mk.inj rest
        exact congrArg some (Prod.ext key (Prod.ext len rfl))
    · rw [Heap.data, SortedMap.find?_insert_ne _ _ different, refs_vacate_ne inside slot different]
      exact data
  · intro other record known
    obtain ⟨_, small, short⟩ := counted.used known
    rcases eq_or_ne other item with rfl | different
    · exact ⟨Nat.one_le_iff_ne_zero.mpr shared, by omega, short⟩
    · rw [refs_vacate_ne inside slot different]
      exact counted.used known
  · exact fun there => counted.stored (vacate_stored there).2
  · exact counted.listed
  · exact counted.distinct
  · exact counted.pages
  · exact counted.bytes

theorem Counted.drop {record : Record} {found : HashItem} (counted : Counted table cps.heap cps.stats chains records)
    (slot : table index = some item)
    (known : records.find? item = some record) (here : cps.heap.items.find? item = some found) (len : found.compressLen = record.2)
    (last : refs (Function.update table index none) item = 0) :
    ∃ heap after, htRemoveItem { cps.heap with items := cps.heap.items.insert item { found with count := 0 } } item = some heap ∧
      free heap item = some after ∧
      Counted (Function.update table index none) after
        { cps.stats with
          nrSwapPagesPs := cps.stats.nrSwapPagesPs - 1
          memCompressAndPs := cps.stats.memCompressAndPs - ulong found.compressLen }
        (Function.update chains (cps.heap.bucket record.1) ((chains (cps.heap.bucket record.1)).erase item)) (records.erase item) := by
  obtain ⟨inside, _⟩ := counted.stored slot
  have member := counted.listed known
  have home {bucket : Nat} (there : item ∈ chains bucket) : bucket = cps.heap.bucket record.1 := counted.tabled.chained.apart there member
  have empty : Tabled { cps.heap with items := cps.heap.items.insert item { found with count := 0 } } chains :=
    counted.tabled.rewrite here rfl rfl
  obtain ⟨heap, removed, tabled, unlinked⟩ := htRemoveItem_spec empty member
  have listed {bucket other : Nat} : other ∈ Function.update chains (cps.heap.bucket record.1)
    ((chains (cps.heap.bucket record.1)).erase item) bucket ↔
      other ∈ chains bucket ∧ other ≠ item := by
    rcases eq_or_ne bucket (cps.heap.bucket record.1) with rfl | elsewhere
    · rw [Function.update_self, (counted.tabled.chained.nodup _).mem_erase_iff, and_comm]
    · rw [Function.update_of_ne elsewhere]
      exact ⟨fun there => ⟨there, fun same => elsewhere (home (same ▸ there))⟩, And.left⟩
  have own : heap.data item = some ({ found with count := 0 } : HashItem).data := by
    rw [unlinked.data, Heap.data, SortedMap.find?_insert_self]
    rfl
  obtain ⟨dead, there, _⟩ := Option.map_eq_some_iff.mp own
  have others {other : Nat} (different : other ≠ item) : heap.data other = cps.heap.data other := by
    rw [unlinked.data, Heap.data, SortedMap.find?_insert_ne _ _ different]
    rfl
  have entries := SortedMap.perm_erase known
  have outside (bucket : Nat) : item ∉ Function.update chains (cps.heap.bucket record.1)
      ((chains (cps.heap.bucket record.1)).erase item) bucket :=
    fun there => (listed.mp there).2 rfl
  refine ⟨heap, { heap with items := heap.items.erase item }, removed, by rw [free, there]; rfl, ?_⟩
  constructor
  · refine tabled.unlisted outside rfl (fun other different => SortedMap.find?_erase_ne _ different) ?_
    intro found there
    rw [SortedMap.find?_erase_self] at there
    cases there
  · intro other
    rcases eq_or_ne other item with rfl | different
    · rw [Heap.data, SortedMap.find?_erase_self, SortedMap.find?_erase_self]
      rfl
    · rw [Heap.data, SortedMap.find?_erase_ne _ different, SortedMap.find?_erase_ne _ different, refs_vacate_ne inside slot different]
      exact (others different).trans (counted.data other)
  · intro other second kept
    have different : other ≠ item := by
      rintro rfl
      rw [SortedMap.find?_erase_self] at kept
      cases kept
    rw [SortedMap.find?_erase_ne _ different] at kept
    rw [refs_vacate_ne inside slot different]
    exact counted.used kept
  · intro place other holds
    obtain ⟨below, second, kept⟩ := counted.stored (vacate_stored holds).2
    have different : other ≠ item := fun same => refs_ne_zero.mpr ⟨place, below, same ▸ holds⟩ last
    exact ⟨below, second, by rw [SortedMap.find?_erase_ne _ different, kept]⟩
  · intro other second kept
    have different : other ≠ item := by
      rintro rfl
      rw [SortedMap.find?_erase_self] at kept
      cases kept
    rw [SortedMap.find?_erase_ne _ different] at kept
    have bucket : heap.bucket second.1 = cps.heap.bucket second.1 := by rw [Heap.bucket, Heap.bucket, unlinked.order]
    rw [show Heap.bucket { heap with items := heap.items.erase item } second.1 = heap.bucket second.1 from rfl, bucket]
    exact listed.mpr ⟨counted.listed kept, different⟩
  · intro one two first second there also
    rw [SortedMap.find?_erase] at there also
    split at there
    next => cases there
    next =>
      split at also
      next => cases also
      next => exact counted.distinct there also
  · have length := entries.length_eq
    rw [List.length_cons] at length
    have pages := counted.pages
    rw [length, BitVec.ofNat_add] at pages
    exact (congrArg (· - 1) pages).trans (BitVec.add_sub_cancel ..)
  · have sum := (entries.map fun entry => entry.2.2.toNat).sum_eq
    rw [List.map_cons, List.sum_cons] at sum
    have bytes := counted.bytes
    rw [sum] at bytes
    exact (congrArg (· - ulong found.compressLen) bytes).trans (len ▸ ulong_add_sub _ _)

/-- What a dropped reference leaves. -/
structure Dropped (table : Nat → Option Nat) (records : SortedMap Record) (before after : Cps) : Prop where
  books : ∃ chains left, Counted table after.heap after.stats chains left ∧ ∀ {item}, refs table item ≠ 0 →
    left.find? item = records.find? item
  table : after.table = before.table
  pages : after.stats.nrSwapPages = before.stats.nrSwapPages
  bytes : after.stats.memCompress = before.stats.memCompress

theorem putItem_spec (counted : Counted table cps.heap cps.stats chains records) (slot : table index = some item) :
    ∃ after, putItem cps item = some after ∧ Dropped (Function.update table index none) records cps after := by
  obtain ⟨record, found, known, here, key, len, count⟩ := counted.found slot
  obtain ⟨inside, _⟩ := counted.stored slot
  obtain ⟨_, small, _⟩ := counted.used known
  have own := refs_vacate inside slot
  have dropped : found.count - 1 = UInt16.ofNat (refs (Function.update table index none) item) := by rw [count, ← own, uint16_pred]
  have zero := uint16_eq_zero (show refs (Function.update table index none) item < 2 ^ 16 by omega)
  rcases eq_or_ne (refs (Function.update table index none) item) 0 with last | shared
  · obtain ⟨heap, after, removed, freed, books⟩ := counted.drop slot known here len last
    refine ⟨{ cps with
      heap := after
      stats := { cps.stats with
        nrSwapPagesPs := cps.stats.nrSwapPagesPs - 1
        memCompressAndPs := cps.stats.memCompressAndPs - ulong found.compressLen } }, ?_, ⟨_, _, books, fun {other} used => ?_⟩,
          rfl, rfl, rfl⟩
    · have empty : found.count - 1 = 0 := dropped.trans (zero.mpr last)
      rw [putItem, here]
      simp only [empty, Option.bind_some, if_true, removed, freed, Option.bind_eq_bind]
    · have different : other ≠ item := fun same => used (same ▸ last)
      exact SortedMap.find?_erase_ne _ different
  · have books := counted.unref slot here shared
    refine ⟨{ cps with heap := _ }, ?_, ⟨_, _, books, fun _ => rfl⟩, rfl, rfl, rfl⟩
    have several : ¬ UInt16.ofNat (refs (Function.update table index none) item) = 0 := fun empty => shared (zero.mp empty)
    rw [putItem, here, Option.bind_some, dropped, if_neg several]

omit [Arch] in
theorem refs_fill (inside : index < maxTableSize) (empty : table index = none) :
    refs (Function.update table index (some item)) item = refs table item + 1 := by
  have moved : refs (Function.update table index (some item)) item + _ = refs table item + _ := refs_update inside (some item)
  rw [if_neg (by rw [empty]; exact (Option.some_ne_none item).symm), if_pos rfl] at moved
  exact (Nat.add_zero _).symm.trans moved

omit [Arch] in
theorem refs_fill_ne {other : Nat} (inside : index < maxTableSize) (empty : table index = none) (different : other ≠ item) :
    refs (Function.update table index (some item)) other = refs table other := by
  have moved : refs (Function.update table index (some item)) other + _ = refs table other + _ := refs_update inside (some item)
  have elsewhere : some item ≠ some other := fun same => different (Option.some.inj same).symm
  rw [if_neg (by rw [empty]; exact (Option.some_ne_none other).symm), if_neg elsewhere] at moved
  exact Nat.add_right_cancel moved

omit [Arch] in
theorem fill_stored {other second : Nat} (there : Function.update table index (some item) other = some second) :
    other = index ∧ second = item ∨ table other = some second := by
  rcases eq_or_ne other index with rfl | different
  · rw [Function.update_self] at there
    exact .inl ⟨rfl, (Option.some.inj there).symm⟩
  · rw [Function.update_of_ne different] at there
    exact .inr there

theorem Counted.ref {found : HashItem} (counted : Counted table cps.heap cps.stats chains records) (inside : index < maxTableSize)
    (empty : table index = none)
    (here : cps.heap.items.find? item = some found) (room : refs table item + 1 < 2 ^ 16) :
    Counted (Function.update table index (some item))
    { cps.heap with items := cps.heap.items.insert item { found with count := found.count + 1 } }
      cps.stats chains records := by
  constructor
  · exact counted.tabled.rewrite here rfl rfl
  · intro other
    have data := counted.data other
    rcases eq_or_ne other item with rfl | different
    · rw [Heap.data, here] at data
      rw [Heap.data, SortedMap.find?_insert_self, refs_fill inside empty, UInt16.ofNat_add]
      cases known : records.find? other with
      | none =>
        rw [known] at data
        cases data
      | some record =>
        rw [known] at data
        obtain ⟨key, rest⟩ := Prod.mk.inj (Option.some.inj data)
        obtain ⟨len, count⟩ := Prod.mk.inj rest
        exact congrArg some (Prod.ext key (Prod.ext len (congrArg (· + 1) count)))
    · rw [Heap.data, SortedMap.find?_insert_ne _ _ different, refs_fill_ne inside empty different]
      exact data
  · intro other record known
    obtain ⟨some_, small, short⟩ := counted.used known
    rcases eq_or_ne other item with rfl | different
    · rw [refs_fill inside empty]
      exact ⟨Nat.le_add_left _ _, room, short⟩
    · rw [refs_fill_ne inside empty different]
      exact counted.used known
  · intro other second there
    rcases fill_stored there with ⟨rfl, rfl⟩ | old
    · cases known : records.find? second with
      | none =>
        have data := counted.data second
        rw [known, Heap.data, here] at data
        cases data
      | some record => exact ⟨inside, record, rfl⟩
    · exact counted.stored old
  · exact counted.listed
  · exact counted.distinct
  · exact counted.pages
  · exact counted.bytes

/-- An item that is not allocated is nowhere in the books. -/
theorem Counted.unused (counted : Counted table cps.heap cps.stats chains records) (unused : cps.heap.items.find? item = none) :
    records.find? item = none ∧ (∀ bucket, item ∉ chains bucket) ∧ refs table item = 0 := by
  have absent : records.find? item = none := by
    have data := counted.data item
    rw [Heap.data, unused] at data
    exact Option.map_eq_none_iff.mp data.symm
  refine ⟨absent, fun bucket member => ?_, Classical.byContradiction fun used => ?_⟩
  · obtain ⟨data, here, _⟩ := counted.tabled.placed member
    rw [Heap.data, unused] at here
    cases here
  · obtain ⟨place, _, there⟩ := refs_ne_zero.mp used
    obtain ⟨_, record, known⟩ := counted.stored there
    rw [absent] at known
    cases known

/-- The hash table with a new item in it. -/
theorem Counted.insertItem_spec (counted : Counted table cps.heap cps.stats chains records)
    (unused : cps.heap.items.find? item = none) (len : Nat) (hash : Key) :
    ∃ heap, insertItem cps item len hash = some { cps with
        heap
        stats := { cps.stats with
          nrSwapPagesPs := cps.stats.nrSwapPagesPs + 1
          memCompressAndPs := cps.stats.memCompressAndPs + ulong (UInt16.ofNat len) } } ∧
      Tabled heap (Function.update chains (cps.heap.bucket hash) (item :: chains (cps.heap.bucket hash))) ∧
      heap.data item = some (hash, UInt16.ofNat len, 1) ∧ (∀ other, other ≠ item → heap.data other = cps.heap.data other) ∧
      ∀ key, heap.bucket key = cps.heap.bucket key := by
  have outside := (counted.unused unused).2.1
  have made : Heap.data { cps.heap with items := cps.heap.items.insert item (initHashItem (UInt16.ofNat len) hash) } item =
      some (hash, UInt16.ofNat len, 1) := by
    rw [Heap.data, SortedMap.find?_insert_self]
    rfl
  have alone : Tabled { cps.heap with items := cps.heap.items.insert item (initHashItem (UInt16.ofNat len) hash) } chains := by
    refine counted.tabled.unlisted outside rfl (fun other different => SortedMap.find?_insert_ne _ _ different) fun found there => ?_
    rw [SortedMap.find?_insert_self] at there
    cases there
    rfl
  obtain ⟨heap, inserted, tabled, linked⟩ := htInsertItem_spec alone made outside
  refine ⟨heap, by rw [insertItem, inserted]; rfl, tabled, (congrFun linked.data item).trans made, fun other different => ?_, fun key => ?_⟩
  · rw [linked.data, Heap.data, SortedMap.find?_insert_ne _ _ different]
    rfl
  · rw [Heap.bucket, Heap.bucket, linked.order]

/-- A new item has its place in the bucket of its hash, and the others keep theirs. -/
theorem Counted.insert_listed {heap : Heap} {added record : Record} {other : Nat}
    (counted : Counted table cps.heap cps.stats chains records)
    (bucket : ∀ key, heap.bucket key = cps.heap.bucket key) (kept : (records.insert item added).find? other = some record) :
    other ∈ Function.update chains (cps.heap.bucket added.1) (item :: chains (cps.heap.bucket added.1)) (heap.bucket record.1) := by
  rw [bucket]
  rcases eq_or_ne other item with rfl | different
  · rw [SortedMap.find?_insert_self] at kept
    cases kept
    rw [Function.update_self]
    exact List.mem_cons_self
  · rw [SortedMap.find?_insert_ne _ _ different] at kept
    have old := counted.listed kept
    rcases eq_or_ne (cps.heap.bucket record.1) (cps.heap.bucket added.1) with same | elsewhere
    · rw [same] at old ⊢
      rw [Function.update_self]
      exact List.mem_cons_of_mem _ old
    · rw [Function.update_of_ne elsewhere]
      exact old

/-- An item with a hash of its own leaves one item a hash. -/
theorem Counted.insert_distinct {added first second : Record} {one two : Nat} (counted : Counted table cps.heap cps.stats chains records)
    (new : ∀ {other record}, records.find? other = some record → record.1 ≠ added.1)
    (there : (records.insert item added).find? one = some first) (also : (records.insert item added).find? two = some second)
    (same : first.1 = second.1) : one = two := by
  rw [SortedMap.find?_insert] at there also
  split at there
  next is =>
    cases there
    split at also
    next too => exact is.trans too.symm
    next => exact absurd same.symm (new also)
  next =>
    split at also
    next =>
      cases also
      exact absurd same (new there)
    next => exact counted.distinct there also same

theorem Counted.insert {len : Nat} {hash : Key} (counted : Counted table cps.heap cps.stats chains records) (inside : index < maxTableSize)
    (empty : table index = none) (unused : cps.heap.items.find? item = none)
    (new : ∀ {other record}, records.find? other = some record → record.1 ≠ hash)
    (short : len ≤ pageSize) :
    ∃ after chains, insertItem cps item len hash = some after ∧ after.table = cps.table ∧ after.stats.nrSwapPages = cps.stats.nrSwapPages ∧
      after.stats.memCompress = cps.stats.memCompress ∧
      Counted (Function.update table index (some item)) after.heap after.stats chains (records.insert item (hash, UInt16.ofNat len)) := by
  obtain ⟨absent, _, unreferenced⟩ := counted.unused unused
  obtain ⟨heap, inserted, tabled, made, others, bucket⟩ := counted.insertItem_spec unused len hash
  have entries := SortedMap.perm_insert_new absent (hash, UInt16.ofNat len)
  have known {other : Nat} (different : other ≠ item) : (records.insert item (hash, UInt16.ofNat len)).find? other = records.find? other :=
    SortedMap.find?_insert_ne _ _ different
  refine ⟨_, _, inserted, rfl, rfl, rfl, tabled, ?data, ?used, ?stored, counted.insert_listed bucket, counted.insert_distinct new,
    ?pages, ?bytes⟩
  case data =>
    intro other
    rcases eq_or_ne other item with rfl | different
    · rw [SortedMap.find?_insert_self, refs_fill inside empty, unreferenced]
      exact made
    · rw [known different, refs_fill_ne inside empty different]
      exact (others other different).trans (counted.data other)
  case used =>
    intro other record kept
    rcases eq_or_ne other item with rfl | different
    · rw [SortedMap.find?_insert_self] at kept
      cases kept
      rw [refs_fill inside empty, unreferenced, UInt16.toNat_ofNat']
      exact ⟨Nat.le_refl _, by decide, (Nat.mod_le _ _).trans short⟩
    · rw [known different] at kept
      rw [refs_fill_ne inside empty different]
      exact counted.used kept
  case stored =>
    intro other second there
    rcases fill_stored there with ⟨rfl, rfl⟩ | old
    · exact ⟨inside, _, SortedMap.find?_insert_self ..⟩
    · obtain ⟨below, record, kept⟩ := counted.stored old
      have different : second ≠ item := by
        rintro rfl
        rw [absent] at kept
        cases kept
      exact ⟨below, record, (known different).trans kept⟩
  case pages =>
    rw [entries.length_eq, List.length_cons, BitVec.ofNat_add]
    exact congrArg (· + 1) counted.pages
  case bytes =>
    rw [(entries.map fun entry => entry.2.2.toNat).sum_eq, List.map_cons, List.sum_cons, ← ulong_add]
    exact congrArg (· + ulong (UInt16.ofNat len)) counted.bytes

/-- The compressed length of the page in a slot. -/
def recordBytes (records : SortedMap Record) (slot : Option Nat) :
    Nat := slot.elim 0 fun item => (records.find? item).elim 0 fun record => record.2.toNat

/-- The books, with the totals without page sharing. -/
structure Books (table : Nat → Option Nat) (cps : Cps) (chains : Nat → List Nat) (records : SortedMap Record) : Prop where
  counted : Counted table cps.heap cps.stats chains records
  front : table 0 = none
  pages : cps.stats.nrSwapPages = BitVec.ofNat _ (slots table)
  bytes : cps.stats.memCompress = BitVec.ofNat _ (tally (recordBytes records) table)

omit [Arch] in
theorem tally_vacate (inside : index < maxTableSize) (slot : table index = some item) {weight : Option Nat → Nat} (zero : weight none = 0) :
    tally weight table = weight (some item) + tally weight (Function.update table index none) := by
  have moved : tally weight (Function.update table index none) + _ = tally weight table + _ := tally_update inside none
  rw [slot, zero] at moved
  omega

omit [Arch] in
theorem tally_fill (inside : index < maxTableSize) (empty : table index = none) {weight : Option Nat → Nat} (zero : weight none = 0) :
    tally weight (Function.update table index (some item)) = weight (some item) + tally weight table := by
  have moved : tally weight (Function.update table index (some item)) + _ = tally weight table + _ := tally_update inside (some item)
  rw [empty, zero] at moved
  omega

omit [Arch] in
theorem tally_records {left : SortedMap Record} (agree : ∀ {item}, refs table item ≠ 0 → left.find? item = records.find? item) :
    tally (recordBytes left) table = tally (recordBytes records) table := by
  refine Finset.sum_congr rfl fun index member => ?_
  cases slot : table index with
  | none => rfl
  | some item =>
    have same := agree (refs_ne_zero.mpr ⟨index, Finset.mem_range.mp member, slot⟩)
    simp only [recordBytes, Option.elim_some, same]

theorem overwrite_spec (books : Books cps.table cps chains records) (index : Nat) :
    ∃ after chains left, overwrite cps index = some after ∧ after.table = cps.table ∧
      Books (Function.update cps.table index none) after chains left ∧
      ∀ {item}, refs (Function.update cps.table index none) item ≠ 0 → left.find? item = records.find? item := by
  cases slot : cps.table index with
  | none =>
    have same : Function.update cps.table index none = cps.table := by rw [← slot, Function.update_eq_self]
    rw [same]
    exact ⟨cps, chains, records, by rw [overwrite, slot], rfl, books, fun _ => rfl⟩
  | some item =>
    obtain ⟨record, found, known, here, _, len, _⟩ := books.counted.found slot
    obtain ⟨inside, _⟩ := books.counted.stored slot
    let less : Cps := { cps with stats := { cps.stats with
      nrSwapPages := cps.stats.nrSwapPages - 1
      memCompress := cps.stats.memCompress - ulong found.compressLen } }
    have counted : Counted cps.table less.heap less.stats chains records := ⟨books.counted.tabled, books.counted.data, books.counted.used,
      books.counted.stored, books.counted.listed, books.counted.distinct, books.counted.pages, books.counted.bytes⟩
    obtain ⟨after, put, ⟨newChains, left, counted, agree⟩, table, pages, bytes⟩ := putItem_spec counted slot
    refine ⟨after, newChains, left, ?_, table, ⟨counted, ?_, ?_, ?_⟩, agree⟩
    · rw [overwrite, slot]
      exact (congrArg (Option.bind · _) here).trans put
    · rcases eq_or_ne 0 index with rfl | different
      · exact Function.update_self ..
      · rw [Function.update_of_ne different, books.front]
    · rw [pages]
      show cps.stats.nrSwapPages - 1 = _
      rw [books.pages, slots_eq, slots_eq, tally_vacate inside slot rfl, Nat.add_comm, BitVec.ofNat_add]
      exact BitVec.add_sub_cancel ..
    · rw [bytes, tally_records agree]
      show cps.stats.memCompress - ulong found.compressLen = _
      have own : recordBytes records (some item) = found.compressLen.toNat := by rw [len, recordBytes, Option.elim_some, known]; rfl
      rw [books.bytes, tally_vacate inside slot rfl, own, ulong_add_sub]

theorem fillSlot_spec {left : SortedMap Record} {newChains : Nat → List Nat}
    (counted : Counted (Function.update table index (some item)) cps.heap cps.stats newChains left)
    (inside : index < maxTableSize) (positive : 0 < index) (empty : table index = none) (front : table 0 = none)
    (pages : cps.stats.nrSwapPages = BitVec.ofNat _ (slots table))
    (bytes : cps.stats.memCompress = BitVec.ofNat _ (tally (recordBytes left) table))
    (shows : Function.update cps.table index (some item) = Function.update table index (some item)) :
    ∃ after, fillSlot cps index item = some after ∧ Books after.table after newChains left := by
  obtain ⟨record, found, known, here, _, len, _⟩ := counted.found (Function.update_self ..)
  refine ⟨{ cps with
    table := Function.update cps.table index (some item)
    stats := { cps.stats with
      nrSwapPages := cps.stats.nrSwapPages + 1
      memCompress := cps.stats.memCompress + ulong found.compressLen } }, by rw [fillSlot, here]; rfl, ?_⟩
  rw [shows]
  refine ⟨⟨counted.tabled, counted.data, counted.used, counted.stored, counted.listed, counted.distinct, counted.pages, counted.bytes⟩, ?_,
    ?_, ?_⟩
  · exact (Function.update_of_ne (Nat.ne_of_lt positive) ..).trans front
  · show cps.stats.nrSwapPages + 1 = _
    rw [pages, slots_eq, slots_eq, tally_fill inside empty rfl, Nat.add_comm, BitVec.ofNat_add]
    rfl
  · show cps.stats.memCompress + ulong found.compressLen = _
    have own : recordBytes left (some item) = found.compressLen.toNat := by rw [len, recordBytes, Option.elim_some, known]; rfl
    rw [bytes, tally_fill inside empty rfl, own, ulong_add]

/-- How many other slots have a page of that hash. -/
def sharers (cps : Cps) (index : Nat) (hash : Key) : Nat :=
  ((Finset.range maxTableSize).filter fun other => other ≠ index ∧ (cps.table other).any (cps.heap.hasKey hash)).card

theorem Books.hasKey (books : Books table cps chains records) {record : Record} (known : records.find? item = some record) (hash : Key) :
    cps.heap.hasKey hash item = decide (record.1 = hash) := by
  rw [Heap.hasKey, books.counted.data, known]
  rfl

theorem Books.record (books : Books table cps chains records) {bucket : Nat} (member : item ∈ chains bucket) :
    ∃ record, records.find? item = some record := by
  obtain ⟨data, here, _⟩ := books.counted.tabled.placed member
  rw [books.counted.data] at here
  obtain ⟨record, known, _⟩ := Option.map_eq_some_iff.mp here
  exact ⟨record, known⟩

theorem refs_le_sharers {record : Record} {left : SortedMap Record} (books : Books cps.table cps chains records)
    (agree : ∀ {item}, refs (Function.update cps.table index none) item ≠ 0 → left.find? item = records.find? item)
    (known : left.find? item = some record) : refs (Function.update cps.table index none) item ≤ sharers cps index record.1 := by
  refine Finset.card_le_card fun other member => ?_
  obtain ⟨below, slot⟩ := Finset.mem_filter.mp member
  obtain ⟨elsewhere, there⟩ := vacate_stored slot
  have same := agree (refs_ne_zero.mpr ⟨other, Finset.mem_range.mp below, slot⟩)
  have key := books.hasKey (same.symm.trans known) record.1
  exact Finset.mem_filter.mpr ⟨below, elsewhere, by rw [there, Option.any_some, key]; exact decide_eq_true rfl⟩

theorem Books.refer {record : Record} (kept : Books table cps chains records) (positive : 0 < index) (inside : index < maxTableSize)
    (empty : table index = none) (shows : Function.update cps.table index (some item) = Function.update table index (some item))
    (known : records.find? item = some record) (room : refs table item + 1 < 2 ^ 16) :
    ∃ heap after, getItem cps.heap item = some heap ∧ fillSlot { cps with heap } index item = some after ∧
      Books after.table after chains records := by
  obtain ⟨found, here, _⟩ : ∃ found, cps.heap.items.find? item = some found ∧
      found.data = (record.1, record.2, UInt16.ofNat (refs table item)) := by
    have data := kept.counted.data item
    rw [known] at data
    exact Option.map_eq_some_iff.mp data
  let shared : Cps := { cps with heap := { cps.heap with items := cps.heap.items.insert item { found with count := found.count + 1 } } }
  have counted : Counted (Function.update table index (some item)) shared.heap shared.stats chains records :=
    kept.counted.ref inside empty here room
  obtain ⟨after, filled, books⟩ := fillSlot_spec counted inside positive empty kept.front kept.pages kept.bytes shows
  exact ⟨shared.heap, after, by rw [getItem, here]; rfl, filled, books⟩

theorem Books.make {len : Nat} {hash : Key} (kept : Books table cps chains records) (positive : 0 < index) (inside : index < maxTableSize)
    (empty : table index = none) (shows : Function.update cps.table index (some item) = Function.update table index (some item))
    (unused : cps.heap.items.find? item = none) (new : ∀ {other record}, records.find? other = some record → record.1 ≠ hash)
    (short : len ≤ pageSize) :
    ∃ made after chains left, insertItem cps item len hash = some made ∧ fillSlot made index item = some after ∧
      Books after.table after chains left := by
  have absent : records.find? item = none := by
    have data := kept.counted.data item
    rw [Heap.data, unused] at data
    exact Option.map_eq_none_iff.mp data.symm
  obtain ⟨made, grown, inserted, grownTable, pages, bytes, counted⟩ := kept.counted.insert inside empty unused new short
  have older {other : Nat} (used : refs table other ≠ 0) :
      (records.insert item (hash, UInt16.ofNat len)).find? other = records.find? other := by
    obtain ⟨place, _, there⟩ := refs_ne_zero.mp used
    obtain ⟨_, record, known⟩ := kept.counted.stored there
    refine SortedMap.find?_insert_ne _ _ ?_
    rintro rfl
    rw [absent] at known
    cases known
  obtain ⟨after, filled, books⟩ := fillSlot_spec counted inside positive empty kept.front (pages.trans kept.pages)
    (bytes.trans (by rw [tally_records older]; exact kept.bytes)) (by rw [grownTable, shows])
  exact ⟨made, after, grown, _, inserted, filled, books⟩

/-- One event keeps the books, and goes wrong only where `calloc` gives an address
that is in use once the page before is gone. -/
theorem eventWrite_spec {len : Nat} {hash : Key} {calloc : Nat} (books : Books cps.table cps chains records) (positive : 0 < index)
    (inside : index < maxTableSize) (short : len ≤ pageSize) (room : sharers cps index hash + 1 < 2 ^ 16) :
    (∃ vacated, overwrite cps index = some vacated ∧ vacated.heap.Allocated calloc ∧ eventWrite cps index len hash (some calloc) = none) ∨
      ∃ after chains left, eventWrite cps index len hash (some calloc) = some after ∧ Books after.table after chains left := by
  obtain ⟨vacated, newChains, left, cleared, table, kept, agree⟩ := overwrite_spec books index
  have empty : Function.update cps.table index none index = none := Function.update_self ..
  have shows (item : Nat) : Function.update vacated.table index (some item) =
      Function.update (Function.update cps.table index none) index (some item) := by
    rw [table, Function.update_idem]
  simp only [eventWrite, cleared, Option.bind_eq_bind, Option.bind_some, htFindItem_eq kept.counted.tabled]
  cases hit : (newChains (vacated.heap.bucket hash)).find? (vacated.heap.hasKey hash) with
  | some item =>
    obtain ⟨record, known⟩ := kept.record (List.mem_of_find?_eq_some hit)
    obtain rfl : record.1 = hash := of_decide_eq_true ((kept.hasKey known hash).symm.trans (List.find?_some hit))
    have bounded := refs_le_sharers books agree known
    obtain ⟨heap, after, got, filled, books⟩ := kept.refer positive inside empty (shows item) known (by omega)
    refine .inr ⟨after, _, _, ?_, books⟩
    dsimp only
    rw [got]
    exact filled
  | none =>
    dsimp only
    cases used : vacated.heap.items.find? calloc with
    | some found => exact .inl ⟨vacated, rfl, Heap.allocated_iff.mpr ⟨found, used⟩, if_pos rfl⟩
    | none =>
      have new {other : Nat} {record : Record} (known : left.find? other = some record) : record.1 ≠ hash := by
        rintro rfl
        have missed := List.find?_eq_none.mp hit other (kept.counted.listed known)
        exact missed ((kept.hasKey known record.1).trans (decide_eq_true rfl))
      obtain ⟨made, after, grown, more, inserted, filled, books⟩ := kept.make positive inside empty (shows calloc) used new short
      exact .inr ⟨after, grown, more, by rw [if_neg (by simp), inserted]; exact filled, books⟩

theorem putEntries_spec {view : Nat → Option Nat} {indices : List Nat} (nodup : indices.Nodup)
    (counted : Counted view cps.heap cps.stats chains records)
    (left : ∀ index ∈ indices, view index = cps.table index) (done : ∀ index, index ∉ indices → view index = none) :
    ∃ after, putEntries cps indices = some after ∧ after.heap.items.entries = [] := by
  induction indices generalizing cps view chains records with
  | nil =>
    refine ⟨cps, rfl, SortedMap.entries_eq_nil.mpr fun item => ?_⟩
    have data := counted.data item
    cases known : records.find? item with
    | none =>
      rw [known] at data
      exact Option.map_eq_none_iff.mp data
    | some record =>
      obtain ⟨place, _, there⟩ := refs_ne_zero.mp (Nat.one_le_iff_ne_zero.mp (counted.used known).1)
      rw [done place List.not_mem_nil] at there
      cases there
  | cons index rest ih =>
    obtain ⟨fresh, nodup⟩ := List.nodup_cons.mp nodup
    have own := left index List.mem_cons_self
    have behind {other : Nat} (member : other ∈ rest) : other ≠ index := fun same => fresh (same ▸ member)
    cases slot : cps.table index with
    | none =>
      have rest := ih nodup counted (fun other member => left other (List.mem_cons_of_mem _ member)) fun other outside => by
        rcases eq_or_ne other index with rfl | different
        · exact own.trans slot
        · exact done other (by simp [outside, different])
      rw [putEntries, slot]
      exact rest
    | some item =>
      obtain ⟨after, put, ⟨newChains, kept, counted, _⟩, table, _⟩ := putItem_spec counted (own.trans slot)
      obtain ⟨final, rest, empty⟩ := ih nodup counted (fun other member => by
        rw [Function.update_of_ne (behind member), table]
        exact left other (List.mem_cons_of_mem _ member)) fun other outside => by
          rcases eq_or_ne other index with rfl | different
          · exact Function.update_self ..
          · rw [Function.update_of_ne different]
            exact done other (by simp [outside, different])
      exact ⟨final, by rw [putEntries, slot]; exact (congrArg (Option.bind · _) put).trans rest, empty⟩

theorem freeTableEntries_spec (books : Books cps.table cps chains records) : ∃ after, freeTableEntries cps = some after ∧
    after.heap.items.entries = [] := by
  refine putEntries_spec List.nodup_range' books.counted (fun _ _ => rfl) fun index outside => ?_
  cases slot : cps.table index with
  | none => rfl
  | some item =>
    have inside := (books.counted.stored slot).1
    have positive : index ≠ 0 := by
      rintro rfl
      rw [books.front] at slot
      cases slot
    refine absurd (List.mem_range'_1.mpr ?_) outside
    omega

end Put
end Counts

section Accounts
variable [Arch]

def Referenced (cps : Cps) (hash : Key) : Prop := ∃ index item, cps.table index = some item ∧ cps.heap.hasKey hash item = true

def InTable (heap : Heap) (item : Nat) : Prop := ∃ bucket list, Hangs heap.links (.head bucket) list ∧ item ∈ list

/-- The compressed length of the page in a slot. -/
def slotBytes (heap : Heap) (slot : Option Nat) :
    Nat := slot.elim 0 fun item => (heap.items.find? item).elim 0 fun found => found.compressLen.toNat

/-- Items, hash table and totals are what the slots say. -/
structure Accounted (cps : Cps) : Prop where
  counts : ∀ {item found}, cps.heap.items.find? item = some found → found.count.toNat = refs cps.table item
  alive : ∀ {index item}, cps.table index = some item → cps.heap.Allocated item
  unique : ∀ {hash}, Referenced cps hash → ∃! item, InTable cps.heap item ∧ cps.heap.hasKey hash item = true
  hashed : ∀ {item}, InTable cps.heap item → ∃ index, cps.table index = some item
  pages : cps.stats.nrSwapPages.toNat = slots cps.table
  pagesPs : cps.stats.nrSwapPagesPs.toNat = cps.heap.items.entries.length
  bytes : cps.stats.memCompress.toNat = tally (slotBytes cps.heap) cps.table
  bytesPs : cps.stats.memCompressAndPs.toNat = (cps.heap.items.entries.map fun entry => entry.2.compressLen.toNat).sum
  freed : ∃ after, freeTableEntries cps = some after ∧ after.heap.items.entries = []

section Bounds
variable {cps : Cps} {table : Nat → Option Nat} {chains : Nat → List Nat} {records : SortedMap Record}

theorem ulong_toNat {total : Nat} (small : total < 2 ^ 32) : (BitVec.ofNat bitsPerLong total).toNat = total := by
  rw [BitVec.toNat_ofNat]
  refine Nat.mod_eq_of_lt (Nat.lt_of_lt_of_le small ?_)
  rcases Arch.bitsPerLong_cases with word | word
  · rw [word]
  · rw [word]
    decide

omit [Arch] in
theorem maxTableSize_eq : maxTableSize = 384000 := by rfl

omit [Arch] in
theorem slots_le (table : Nat → Option Nat) : slots table ≤ maxTableSize := (Finset.card_filter_le _ _).trans_eq (Finset.card_range _)

theorem Counted.length_le (counted : Counted table cps.heap cps.stats chains records) : records.entries.length ≤ maxTableSize := by
  have inside : records.entries.map Prod.fst ⊆ (List.range maxTableSize).filterMap table := by
    intro item member
    obtain ⟨⟨_, record⟩, there, rfl⟩ := List.mem_map.mp member
    obtain ⟨index, below, slot⟩ := refs_ne_zero.mp (Nat.one_le_iff_ne_zero.mp (counted.used (SortedMap.mem_entries.mp there)).1)
    exact List.mem_filterMap.mpr ⟨index, List.mem_range.mpr below, slot⟩
  have bounded := (List.subperm_of_subset records.keys_nodup inside).length_le
  rw [List.length_map] at bounded
  exact bounded.trans ((List.length_filterMap_le _ _).trans_eq List.length_range)

theorem Counted.bytes_le (counted : Counted table cps.heap cps.stats chains records) :
    (records.entries.map fun entry => entry.2.2.toNat).sum ≤ maxTableSize * pageSize := by
  have each : ∀ bytes ∈ records.entries.map (fun entry => entry.2.2.toNat), bytes ≤ pageSize := by
    intro bytes member
    obtain ⟨entry, there, rfl⟩ := List.mem_map.mp member
    exact (counted.used (SortedMap.mem_entries.mp (show (entry.1, entry.2) ∈ _ from there))).2.2
  have bounded := List.sum_le_card_nsmul _ _ each
  rw [List.length_map, smul_eq_mul] at bounded
  exact bounded.trans (Nat.mul_le_mul_right _ counted.length_le)

theorem Counted.tally_le (counted : Counted table cps.heap cps.stats chains records) :
    tally (recordBytes records) table ≤ maxTableSize * pageSize := by
  have bounded :=
      Finset.sum_le_card_nsmul (Finset.range maxTableSize) (fun index => recordBytes records (table index)) pageSize fun index _ => by
    cases slot : table index with
    | none => exact Nat.zero_le _
    | some item =>
      obtain ⟨_, record, known⟩ := counted.stored slot
      rw [recordBytes, Option.elim_some, known]
      exact (counted.used known).2.2
  rwa [Finset.card_range, smul_eq_mul] at bounded

end Bounds

theorem Books.accounted {cps : Cps} {chains : Nat → List Nat} {records : SortedMap Record} (books : Books cps.table cps chains records) :
    Accounted cps := by
  have counted := books.counted
  have agree (item : Nat) : (cps.heap.items.find? item).map (fun found => (found.key, found.compressLen)) = records.find? item := by
    have data := congrArg (Option.map fun data : Key × UInt16 × UInt16 => (data.1, data.2.1)) (counted.data item)
    rw [Heap.data, Option.map_map, Option.map_map] at data
    exact data.trans (congrFun Option.map_id _)
  have entries := SortedMap.perm_of_find? agree
  have inTable {item : Nat} (there : InTable cps.heap item) : ∃ record, records.find? item = some record := by
    obtain ⟨bucket, list, hangs, member⟩ := there
    rw [hangs.unique (counted.tabled.chained.hangs bucket)] at member
    exact books.record member
  have total := counted.bytes_le
  have whole := counted.tally_le
  have many := counted.length_le
  have used := slots_le cps.table
  rw [maxTableSize_eq] at many used
  rw [maxTableSize_eq, pageSize_eq] at total whole
  constructor
  · intro item found here
    have data := counted.data item
    cases known : records.find? item with
    | none =>
      rw [Heap.data, here, known] at data
      cases data
    | some record =>
      rw [Heap.data, here, known] at data
      have count : found.count = UInt16.ofNat (refs cps.table item) :=
        congrArg (fun data : Key × UInt16 × UInt16 => data.2.2) (Option.some.inj data)
      rw [count, UInt16.toNat_ofNat', Nat.mod_eq_of_lt (counted.used known).2.1]
  · intro index item slot
    obtain ⟨_, found, _, here, _⟩ := counted.found slot
    exact Heap.allocated_iff.mpr ⟨found, here⟩
  · rintro hash ⟨index, item, slot, key⟩
    obtain ⟨_, record, known⟩ := counted.stored slot
    have own : record.1 = hash := of_decide_eq_true ((books.hasKey known hash).symm.trans key)
    refine ⟨item, ⟨⟨_, _, counted.tabled.chained.hangs _, counted.listed known⟩, key⟩, ?_⟩
    rintro other ⟨there, also⟩
    obtain ⟨second, kept⟩ := inTable there
    have same : second.1 = hash := of_decide_eq_true ((books.hasKey kept hash).symm.trans also)
    exact counted.distinct kept known (same.trans own.symm)
  · intro item there
    obtain ⟨record, known⟩ := inTable there
    obtain ⟨index, _, slot⟩ := refs_ne_zero.mp (Nat.one_le_iff_ne_zero.mp (counted.used known).1)
    exact ⟨index, slot⟩
  · rw [books.pages, ulong_toNat (by omega)]
  · rw [counted.pages, ulong_toNat (by omega), ← entries.length_eq, List.length_map]
  · rw [books.bytes, ulong_toNat (by omega)]
    refine Finset.sum_congr rfl fun index _ => ?_
    cases slot : cps.table index with
    | none => rfl
    | some item =>
      obtain ⟨record, found, known, here, _, len, _⟩ := counted.found slot
      rw [recordBytes, slotBytes, Option.elim_some, Option.elim_some, known, here]
      exact congrArg UInt16.toNat len.symm
  · rw [counted.bytes, ulong_toNat (by omega), ← (entries.map fun entry => entry.2.2.toNat).sum_eq, List.map_map]
    rfl
  · exact freeTableEntries_spec books

omit [Arch] in
theorem empty_slots : slots (fun _ => none) = 0 := Finset.card_eq_zero.mpr (Finset.filter_false_of_mem fun _ _ => by simp)

omit [Arch] in
theorem empty_bytes : tally (recordBytes .empty) (fun _ => none) = 0 := Finset.sum_eq_zero fun _ _ => rfl

theorem books_create : Books (fun _ => none) Cps.create (fun _ => []) .empty where
  counted := by
    refine ⟨⟨⟨fun _ => rfl, fun _ => .nil, by simp, fun _ _ => rfl⟩, by simp, rfl, show 2 ≤ 16 ∧ 16 ≤ 30 by decide⟩, fun _ =>
      rfl, by simp, by simp, by simp, by simp,
      ?_, ?_⟩
    · rfl
    · rfl
  front := rfl
  pages := by
    rw [empty_slots]
    rfl
  bytes := by
    rw [empty_bytes]
    rfl

/-- A write of the replay: not at index 0, inside the table, of a page, and with memory. -/
structure Event.Valid (event : Event) : Prop where
  positive : 0 < event.index
  inside : event.index < maxTableSize
  short : event.len ≤ pageSize
  memory : event.calloc.isSome

/-- The count of the item has room for one more slot. -/
def Roomy (cps : Cps) (event : Event) : Prop := event.Valid ∧ sharers cps event.index event.hash + 1 < 2 ^ 16

theorem sharers_le (cps : Cps) (index : Nat) (hash : Key) : sharers cps index hash ≤ slots cps.table := by
  refine Finset.card_le_card fun other member => ?_
  obtain ⟨below, _, shares⟩ := Finset.mem_filter.mp member
  obtain ⟨item, slot, _⟩ := (Option.any_eq_true ..).mp shares
  exact Finset.mem_filter.mpr ⟨below, by rw [slot]; rfl⟩

/-- `calloc` gives no address at which an item is, once the page before is gone. -/
def Event.Fresh (event : Event) (cps : Cps) : Prop :=
  ∀ {vacated item}, overwrite cps event.index = some vacated → event.calloc = some item → ¬ vacated.heap.Allocated item

theorem books_run {cps : Cps} (run : Run Cps.step Roomy Cps.create cps) : ∃ chains records, Books cps.table cps chains records := by
  refine run.invariant (fun cps => ∃ chains records, Books cps.table cps chains records) ⟨_, _, books_create⟩ ?_
  rintro before after ⟨index, len, hash, calloc⟩ ⟨chains, records, books⟩ ⟨valid, room⟩ taken
  obtain ⟨place, rfl⟩ := Option.isSome_iff_exists.mp valid.memory
  rcases eventWrite_spec books valid.positive valid.inside valid.short room with ⟨_, _, _, refused⟩ | ⟨result, chains, left, written, kept⟩
  · cases refused.symm.trans taken
  · cases written.symm.trans taken
    exact ⟨chains, left, kept⟩

/-- The books of every run in which no item is shared by more slots than it can count,
and the run goes on with every such write. -/
theorem books_kept {cps : Cps} (run : Run Cps.step Roomy Cps.create cps) :
    Accounted cps ∧ ∀ {event : Event}, Roomy cps event → event.Fresh cps → ∃ after, cps.step event = some after := by
  obtain ⟨chains, records, books⟩ := books_run run
  refine ⟨books.accounted, ?_⟩
  rintro ⟨index, len, hash, calloc⟩ ⟨valid, room⟩ fresh
  obtain ⟨place, rfl⟩ := Option.isSome_iff_exists.mp valid.memory
  rcases eventWrite_spec books valid.positive valid.inside valid.short room with ⟨vacated, cleared, used, _⟩ | ⟨after, _, _, written, _⟩
  · exact absurd used (fresh cleared rfl)
  · exact ⟨after, written⟩

end Accounts

section Sample
local instance cpsArch : Arch := Arch.x64

/-- A page of 100 bytes, compressed, at an index; `calloc` gives address 8. -/
def Event.ofIndex (index : Nat) : Event := ⟨index, 100, (0, 0), some 8⟩

theorem Event.ofIndex_valid {index : Nat} (positive : 0 < index) (inside : index < maxTableSize) : (Event.ofIndex index).Valid :=
  ⟨positive, inside, show 100 ≤ pageSize by decide, rfl⟩

/-- `Roomy` as a test, for a program with few slots in use. -/
def few (cps : Cps) (event : Event) : Bool :=
  decide ((0 < event.index ∧ event.index < maxTableSize ∧ event.len ≤ pageSize ∧ event.calloc.isSome) ∧
    cps.stats.nrSwapPages.toNat + 1 < 2 ^ 16)

theorem roomy_of_few {cps : Cps} {event : Event} (run : Run Cps.step Roomy Cps.create cps) (passed : few cps event = true) :
    Roomy cps event := by
  obtain ⟨⟨positive, inside, short, memory⟩, room⟩ := of_decide_eq_true passed
  obtain ⟨_, _, books⟩ := books_run run
  rw [books.accounted.pages] at room
  exact ⟨⟨positive, inside, short, memory⟩, Nat.lt_of_le_of_lt (Nat.succ_le_succ (sharers_le ..)) room⟩

/-- A page is written to two slots and another to a third. The first slot is overwritten
with the other page, and the second with a new one, which gets the address of the item
that is freed then. -/
def pageWrites : List Event :=
  [⟨1, 100, (0, 0), some 8⟩, ⟨2, 100, (0, 0), some 16⟩, ⟨3, 200, (7, 7), some 16⟩, ⟨1, 200, (7, 7), some 24⟩, ⟨2, 300, (9, 9), some 8⟩]

theorem books_kept_sample : ∃ cps after, Run Cps.step Roomy Cps.create cps ∧ cps.stats.nrSwapPages = 3 ∧ cps.stats.nrSwapPagesPs = 2 ∧
    cps.stats.memCompress = 700 ∧ cps.stats.memCompressAndPs = 500 ∧ Accounted cps ∧ cps.step ⟨3, 300, (9, 9), some 24⟩ = some after := by
  have reached : ∃ cps ∈ steps (tested Cps.step few) Cps.create pageWrites, cps.stats.nrSwapPages = 3 ∧ cps.stats.nrSwapPagesPs = 2 ∧
      cps.stats.memCompress = 700 ∧ cps.stats.memCompressAndPs = 500 ∧ few cps ⟨3, 300, (9, 9), some 24⟩ = true ∧
      (overwrite cps 3).all (fun vacated => (vacated.heap.items.find? 24).isNone) = true := by
    decide +kernel
  obtain ⟨cps, taken, pages, pagesPs, bytes, bytesPs, room, free⟩ := reached
  have run : Run Cps.step Roomy Cps.create cps := .after_tested roomy_of_few .start taken
  have fresh : Event.Fresh ⟨3, 300, (9, 9), some 24⟩ cps := by
    intro vacated item cleared given used
    cases given
    have unused : (vacated.heap.items.find? 24).isNone = true := Option.all_eq_true ..|>.mp free vacated cleared
    rw [Option.isNone_iff_eq_none] at unused
    rw [Heap.Allocated, unused] at used
    cases used
  obtain ⟨accounted, goes⟩ := books_kept run
  obtain ⟨after, written⟩ := goes (roomy_of_few run room) fresh
  exact ⟨cps, after, run, pages, pagesPs, bytes, bytesPs, accounted, written⟩

/-- The slots after so many writes of one page, at the indices from 1 on. -/
def crowdTable : Nat → Nat → Option Nat
  | 0 => fun _ => none
  | count + 1 => Function.update (crowdTable count) (count + 1) (some 8)

def crowd (count : Nat) : Cps where
  table := crowdTable count
  heap := ⟨⟨16, 2 ^ 16, 1, Function.update (fun _ => none) 0 (some 8)⟩,
    SortedMap.empty.insert 8 ⟨⟨none, some (.head 0)⟩, (0, 0), 100, UInt16.ofNat count⟩⟩
  stats := ⟨BitVec.ofNat 64 count, 1, BitVec.ofNat 64 (100 * count), 100⟩

theorem crowdTable_beyond {count index : Nat} (beyond : count < index) : crowdTable count index = none := by
  induction count with
  | zero => rfl
  | succ count ih => exact (Function.update_of_ne (Nat.ne_of_gt beyond) ..).trans (ih (Nat.lt_of_succ_lt beyond))

theorem crowd_first : Cps.create.step (.ofIndex 1) = some (crowd 1) := by
  rfl

theorem crowd_step (count : Nat) : (crowd count).step (.ofIndex (count + 1)) = some (crowd (count + 1)) := by
  have empty : overwrite (crowd count) (count + 1) = some (crowd count) := by
    rw [overwrite, show (crowd count).table (count + 1) = none from crowdTable_beyond (Nat.lt_succ_self count)]
  have bucket : (hash128 (0, 0) 16).toNat = 0 := by decide +kernel
  have found : htFindItem (crowd count).heap (0, 0) = some (some 8) := by
    rw [htFindItem, htFindKey, show (crowd count).heap.ht.order = 16 from rfl, bucket]
    rfl
  have counts : UInt16.ofNat count + 1 = UInt16.ofNat (count + 1) := (UInt16.ofNat_add count 1).symm
  have pages : BitVec.ofNat 64 count + 1 = BitVec.ofNat 64 (count + 1) := (BitVec.ofNat_add count 1).symm
  have bytes : BitVec.ofNat 64 (100 * count) + ulong 100 = BitVec.ofNat 64 (100 * (count + 1)) := (BitVec.ofNat_add (100 * count) 100).symm
  have crowded : crowd (count + 1) =
    ⟨Function.update (crowdTable count) (count + 1) (some 8), ⟨⟨16, 2 ^ 16, 1, Function.update (fun _ => none) 0 (some 8)⟩,
      SortedMap.empty.insert 8 ⟨⟨none, some (.head 0)⟩, (0, 0), 100, UInt16.ofNat count + 1⟩⟩,
      ⟨BitVec.ofNat 64 count + 1, 1, BitVec.ofNat 64 (100 * count) + ulong 100, 100⟩⟩ := by
    rw [counts, pages, bytes]
    rfl
  rw [crowded]
  show eventWrite (crowd count) (count + 1) 100 (0, 0) (some 8) = _
  simp only [eventWrite, empty, Option.bind_eq_bind, Option.bind_some, found]
  rfl

theorem crowd_reached (count : Nat) (small : count + 1 < maxTableSize) :
    Run Cps.step (fun _ event => event.Valid) Cps.create (crowd (count + 1)) := by
  induction count with
  | zero => exact .step .start (Event.ofIndex_valid (by decide) small) crowd_first
  | succ count ih => exact .step (ih (Nat.lt_of_succ_lt small)) (Event.ofIndex_valid (Nat.succ_pos _) small) (crowd_step (count + 1))

theorem crowd_refs (count : Nat) (small : count < maxTableSize) : refs (crowdTable count) 8 = count := by
  induction count with
  | zero => exact Finset.card_eq_zero.mpr (Finset.filter_false_of_mem fun _ _ => nofun)
  | succ count ih => rw [crowdTable, refs_fill small (crowdTable_beyond (Nat.lt_succ_self count)), ih (Nat.lt_of_succ_lt small)]

theorem crowd_shown (count : Nat) (small : count + 1 < maxTableSize) :
    ∃ cps item, Run Cps.step (fun _ event => event.Valid) Cps.create cps ∧
    cps.heap.items.find? 8 = some item ∧ item.count = UInt16.ofNat (count + 1) ∧ refs cps.table 8 = count + 1 :=
  ⟨crowd (count + 1), _, crowd_reached count small, SortedMap.find?_insert_self .., rfl, crowd_refs (count + 1) small⟩

/-- After 65536 writes of one page its item counts no slot. -/
theorem count_wraps : ∃ cps item, Run Cps.step (fun _ event => event.Valid) Cps.create cps ∧ cps.heap.items.find? 8 = some item ∧
    item.count = 0 ∧ refs cps.table 8 = 65536 := by
  have inside : 65535 + 1 < maxTableSize := by decide
  have wrapped : UInt16.ofNat (65535 + 1) = 0 := by decide
  obtain ⟨cps, item, run, here, count, shared⟩ := crowd_shown 65535 inside
  refine ⟨cps, item, run, here, ?_, ?_⟩
  · rw [count, wrapped]
  · rw [shared]

end Sample
end Compcache.CpsTest
