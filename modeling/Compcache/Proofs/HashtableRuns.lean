import Compcache.Library.Runs
import Compcache.Proofs.Hashtable

/-! The hash table through its calls: a multimap, whose count of items goes wrong
when an item is removed twice. -/

namespace Compcache.Hashtable
open Library Library.Chains Library.Runs

/-- A table, and the items inserted and not removed since, the latest first. -/
structure Usage where
  heap : Heap
  linked : List Nat

/-- `prepare` writes a new or unlinked item: a key, and `INIT_HLIST_NODE`. -/
inductive Call
  | prepare (item : Nat) (key : Key)
  | insert (item : Nat)
  | find (key : Key)
  | remove (item : Nat)

def Usage.step (usage : Usage) : Call → Option Usage
  | .prepare item key =>
    if item ∈ usage.linked then none
    else some { usage with heap := { usage.heap with items := usage.heap.items.insert item ⟨⟨none, none⟩, key, 0, 0⟩ } }
  | .insert item => if item ∈ usage.linked then none else (htInsertItem usage.heap item).map fun heap => ⟨heap, item :: usage.linked⟩
  | .find key => (htFindItem usage.heap key).map fun _ => usage
  | .remove item => (htRemoveItem usage.heap item).map fun heap => ⟨heap, usage.linked.erase item⟩

def Usage.create (order : Nat) : Usage := ⟨⟨htCreate order, .empty⟩, []⟩

/-- What callers keep to: items that are there, and an item is written and inserted
only while it is not linked. -/
def Usage.Allows (usage : Usage) : Call → Prop
  | .prepare item _ => item ∉ usage.linked
  | .insert item => usage.heap.Allocated item ∧ item ∉ usage.linked
  | .find _ => True
  | .remove item => usage.heap.Allocated item

/-- Only linked items are removed, and `count_items` has room for one more. -/
def Usage.Counts (usage : Usage) : Call → Prop
  | .insert _ => usage.linked.length + 1 < 2 ^ 32
  | .remove item => item ∈ usage.linked
  | _ => True

instance (usage : Usage) : (call : Call) → Decidable (usage.Counts call)
  | .prepare _ _ => inferInstanceAs (Decidable True)
  | .insert _ => inferInstanceAs (Decidable (_ < _))
  | .find _ => inferInstanceAs (Decidable True)
  | .remove _ => inferInstanceAs (Decidable (_ ∈ _))

/-- A multimap: the buckets are in the table, the latest item of a key is found, and
nothing a caller may do fails. -/
structure Multimap (order : Nat) (usage : Usage) : Prop where
  bucket : ∀ key, (hash128 key usage.heap.ht.order).toNat < 2 ^ order
  found : ∀ key, htFindItem usage.heap key = some (usage.linked.find? (usage.heap.hasKey key))
  goes : ∀ call, usage.Allows call → (usage.step call).isSome

section Steps
variable {usage before after : Usage} {call : Call} {order : Nat}

def Heap.inBucket (heap : Heap) (bucket item : Nat) : Bool := (heap.data item).any fun data => heap.bucket data.1 = bucket

/-- Each bucket has the linked items of its keys, the latest first. -/
structure Stocked (order : Nat) (usage : Usage) : Prop where
  tabled : Tabled usage.heap fun bucket => usage.linked.filter (usage.heap.inBucket bucket)
  nodup : usage.linked.Nodup
  allocated : ∀ item ∈ usage.linked, usage.heap.Allocated item
  order : usage.heap.ht.order = order

theorem Heap.inBucket_congr {heap other : Heap} (data : other.data = heap.data) (order : other.ht.order = heap.ht.order) :
    other.inBucket = heap.inBucket := by
  have home : other.bucket = heap.bucket := funext fun key => by rw [Heap.bucket, Heap.bucket, order]
  funext bucket item
  rw [inBucket, inBucket, data, home]

theorem Heap.inBucket_data {heap : Heap} {item bucket : Nat} {data : Key × UInt16 × UInt16} (here : heap.data item = some data) :
    heap.inBucket bucket item = decide (heap.bucket data.1 = bucket) := by simp [inBucket, here]

theorem Stocked.home (stocked : Stocked order usage) {item : Nat} (member : item ∈ usage.linked) :
    ∃ bucket, item ∈ usage.linked.filter (usage.heap.inBucket bucket) := by
  obtain ⟨data, here⟩ := Option.isSome_iff_exists.mp (usage.heap.allocated_data.mp (stocked.allocated item member))
  refine ⟨usage.heap.bucket data.1, List.mem_filter.mpr ⟨member, ?_⟩⟩
  rw [Heap.inBucket_data here]
  exact decide_eq_true rfl

theorem Stocked.outside {item : Nat} (unlinked : item ∉ usage.linked) (bucket : Nat) :
    item ∉ usage.linked.filter (usage.heap.inBucket bucket) :=
  fun member => unlinked (List.mem_filter.mp member).1

theorem stocked_create (lower : 2 ≤ order) (upper : order ≤ 30) : Stocked order (Usage.create order) where
  tabled := {
    chained := {
      hangs := fun _ => rfl
      nodup := fun _ => List.nodup_nil
      apart := nofun
      unhashed := fun _ _ => rfl }
    placed := nofun
    size := rfl
    ordered := ⟨lower, upper⟩ }
  nodup := List.nodup_nil
  allocated := nofun
  order := rfl

theorem Stocked.prepare (stocked : Stocked order usage) {item : Nat} (unlinked : item ∉ usage.linked) (key : Key) :
    Stocked order { usage with heap := { usage.heap with items := usage.heap.items.insert item ⟨⟨none, none⟩, key, 0, 0⟩ } } := by
  have others (other : Nat) (different : other ≠ item) :
      (usage.heap.items.insert item ⟨⟨none, none⟩, key, 0, 0⟩).find? other = usage.heap.items.find? other :=
        SortedMap.find?_insert_ne _ _ different
  have apart {other : Nat} (member : other ∈ usage.linked) : other ≠ item := fun same => unlinked (same ▸ member)
  refine ⟨?_, stocked.nodup, fun other member => ?_, stocked.order⟩
  · have kept : Tabled { usage.heap with items := usage.heap.items.insert item ⟨⟨none, none⟩, key, 0, 0⟩ } fun bucket =>
        usage.linked.filter (usage.heap.inBucket bucket) := by
      refine stocked.tabled.unlisted (Stocked.outside unlinked) rfl others fun found here => ?_
      have written := here
      rw [SortedMap.find?_insert_self] at written
      cases written
      rfl
    have same (bucket : Nat) :
      usage.linked.filter (Heap.inBucket { usage.heap with items := usage.heap.items.insert item ⟨⟨none, none⟩, key, 0, 0⟩ } bucket) =
        usage.linked.filter (usage.heap.inBucket bucket) := by
      refine List.filter_congr fun other member => ?_
      simp only [Heap.inBucket, Heap.data, others other (apart member)]
      rfl
    simpa only [same] using kept
  · rw [Heap.Allocated, others other (apart member)]
    exact stocked.allocated other member

theorem Stocked.insert (stocked : Stocked order usage) {item : Nat} (allocated : usage.heap.Allocated item)
    (unlinked : item ∉ usage.linked) :
    ∃ heap, htInsertItem usage.heap item = some heap ∧ Stocked order ⟨heap, item :: usage.linked⟩ ∧ Inserted usage.heap heap := by
  obtain ⟨data, here⟩ := Option.isSome_iff_exists.mp (usage.heap.allocated_data.mp allocated)
  obtain ⟨heap, inserted, tabled, kept⟩ := htInsertItem_spec stocked.tabled here (Stocked.outside unlinked)
  refine ⟨heap, inserted, ⟨?_, List.nodup_cons.mpr ⟨unlinked, stocked.nodup⟩, fun other member => ?_, kept.order.trans stocked.order⟩, kept⟩
  · convert tabled using 1
    funext bucket
    rw [Heap.inBucket_congr kept.data kept.order, List.filter_cons, Heap.inBucket_data here]
    rcases eq_or_ne bucket (usage.heap.bucket data.1) with rfl | elsewhere
    · rw [Function.update_self, if_pos (decide_eq_true rfl)]
    · rw [Function.update_of_ne elsewhere, if_neg (by simpa using elsewhere.symm)]
  · rw [Heap.allocated_data, kept.data, ← Heap.allocated_data]
    rcases List.mem_cons.mp member with rfl | old
    · exact allocated
    · exact stocked.allocated other old

theorem Stocked.remove_unlinked (stocked : Stocked order usage) {item : Nat} (allocated : usage.heap.Allocated item)
    (unlinked : item ∉ usage.linked) :
    htRemoveItem usage.heap item = some { usage.heap with ht := { usage.heap.ht with countItems := usage.heap.ht.countItems - 1 } } := by
  obtain ⟨found, here⟩ := usage.heap.allocated_iff.mp allocated
  have unhashed := stocked.tabled.chained.unhashed item (Stocked.outside unlinked)
  have null : found.head.pprev = none := by simpa [Heap.links, here] using unhashed
  simp [htRemoveItem, hlistDelInit, here, null]

theorem Stocked.remove (stocked : Stocked order usage) {item : Nat} (allocated : usage.heap.Allocated item) :
    ∃ heap, htRemoveItem usage.heap item = some heap ∧ Stocked order ⟨heap, usage.linked.erase item⟩ ∧ Removed usage.heap heap := by
  rcases Classical.em (item ∈ usage.linked) with member | unlinked
  · obtain ⟨bucket, there⟩ := stocked.home member
    obtain ⟨heap, removed, tabled, kept⟩ := htRemoveItem_spec stocked.tabled there
    refine ⟨heap, removed, ⟨?_, stocked.nodup.erase item, fun other still => ?_, kept.order.trans stocked.order⟩, kept⟩
    · convert tabled using 1
      funext other
      rw [Heap.inBucket_congr kept.data kept.order, ← List.erase_filter]
      rcases eq_or_ne other bucket with rfl | elsewhere
      · rw [Function.update_self]
      · rw [Function.update_of_ne elsewhere]
        exact List.erase_of_not_mem fun also => elsewhere (stocked.tabled.chained.apart also there)
    · rw [Heap.allocated_data, kept.data, ← Heap.allocated_data]
      exact stocked.allocated other (List.mem_of_mem_erase still)
  · refine ⟨_, stocked.remove_unlinked allocated unlinked, ?_, rfl, rfl, rfl⟩
    rw [List.erase_of_not_mem unlinked]
    exact ⟨⟨stocked.tabled.chained, stocked.tabled.placed, stocked.tabled.size, stocked.tabled.ordered⟩, stocked.nodup,
      stocked.allocated, stocked.order⟩

theorem Stocked.found (stocked : Stocked order usage) (key : Key) :
    htFindItem usage.heap key = some (usage.linked.find? (usage.heap.hasKey key)) := by
  rw [htFindItem_eq stocked.tabled key, List.find?_filter]
  congr 2
  funext item
  rw [Heap.hasKey, Heap.inBucket]
  cases usage.heap.data item with
  | none => rfl
  | some data =>
    rcases Classical.em (data.1 = key) with rfl | different
    · simp
    · simp [different]

/-- The step lemma. -/
theorem Stocked.step (stocked : Stocked order before) (taken : before.step call = some after) : Stocked order after := by
  cases call with
  | prepare item key =>
    simp only [Usage.step] at taken
    split at taken
    next => cases taken
    next unlinked =>
      cases taken
      exact stocked.prepare unlinked key
  | insert item =>
    simp only [Usage.step] at taken
    split at taken
    next => cases taken
    next unlinked =>
      obtain ⟨heap, inserted, rfl⟩ := Option.map_eq_some_iff.mp taken
      have allocated : before.heap.Allocated item := by
        obtain ⟨found, here, _⟩ := Option.bind_eq_some_iff.mp inserted
        exact before.heap.allocated_iff.mpr ⟨found, here⟩
      obtain ⟨heap', also, kept, _⟩ := stocked.insert allocated unlinked
      cases inserted.symm.trans also
      exact kept
  | find key =>
    obtain ⟨_, _, rfl⟩ := Option.map_eq_some_iff.mp taken
    exact stocked
  | remove item =>
    obtain ⟨heap, removed, rfl⟩ := Option.map_eq_some_iff.mp taken
    have allocated : before.heap.Allocated item := by
      obtain ⟨_, deleted, _⟩ := Option.map_eq_some_iff.mp removed
      obtain ⟨found, here, _⟩ := Option.bind_eq_some_iff.mp deleted
      exact before.heap.allocated_iff.mpr ⟨found, here⟩
    obtain ⟨heap', also, kept, _⟩ := stocked.remove allocated
    cases removed.symm.trans also
    exact kept

theorem Stocked.multimap (stocked : Stocked order usage) : Multimap order usage where
  bucket key := by
    have inside := usage.heap.bucket_lt stocked.tabled key
    rwa [stocked.tabled.size, stocked.order] at inside
  found := stocked.found
  goes := by
    intro call allowed
    cases call with
    | prepare item key => simp [Usage.step, show item ∉ usage.linked from allowed]
    | insert item =>
      obtain ⟨heap, inserted, _⟩ := stocked.insert allowed.1 allowed.2
      simp [Usage.step, allowed.2, inserted]
    | find key => simp [Usage.step, stocked.found key]
    | remove item =>
      obtain ⟨heap, removed, _⟩ := stocked.remove allowed
      simp [Usage.step, removed]

theorem Stocked.run (lower : 2 ≤ order) (upper : order ≤ 30) (run : AnyRun Usage.step (Usage.create order) usage) : Stocked order usage :=
  run.invariant (Stocked order) (stocked_create lower upper) fun stocked _ taken => stocked.step taken

theorem counted_step (stocked : Stocked order before) (counted : before.heap.ht.countItems.toNat = before.linked.length)
    (counts : before.Counts call)
    (taken : before.step call = some after) : after.heap.ht.countItems.toNat = after.linked.length := by
  cases call with
  | prepare item key =>
    simp only [Usage.step] at taken
    split at taken
    next => cases taken
    next =>
      cases taken
      exact counted
  | insert item =>
    simp only [Usage.step] at taken
    split at taken
    next => cases taken
    next unlinked =>
      obtain ⟨heap, inserted, rfl⟩ := Option.map_eq_some_iff.mp taken
      obtain ⟨found, here, _⟩ := Option.bind_eq_some_iff.mp inserted
      obtain ⟨_, also, _, kept⟩ := stocked.insert (before.heap.allocated_iff.mpr ⟨found, here⟩) unlinked
      cases inserted.symm.trans also
      have room : before.linked.length + 1 < 2 ^ 32 := counts
      rw [kept.countItems, UInt32.toNat_add, counted, List.length_cons]
      exact Nat.mod_eq_of_lt room
  | find key =>
    obtain ⟨_, _, rfl⟩ := Option.map_eq_some_iff.mp taken
    exact counted
  | remove item =>
    have member : item ∈ before.linked := counts
    obtain ⟨heap, removed, rfl⟩ := Option.map_eq_some_iff.mp taken
    obtain ⟨_, also, _, kept⟩ := stocked.remove (stocked.allocated item member)
    cases removed.symm.trans also
    have some_ : 0 < before.linked.length := List.length_pos_of_mem member
    have least : (1 : UInt32) ≤ before.heap.ht.countItems := by
      rw [UInt32.le_iff_toNat_le, counted]
      exact some_
    rw [kept.countItems, UInt32.toNat_sub_of_le _ _ least, counted, List.length_erase_of_mem member]
    rfl

theorem multimap_any (lower : 2 ≤ order) (upper : order ≤ 30) (run : AnyRun Usage.step (Usage.create order) usage) : Multimap order usage :=
  (Stocked.run lower upper run).multimap

theorem counted_run (lower : 2 ≤ order) (upper : order ≤ 30) (run : Run Usage.step Usage.Counts (Usage.create order) usage) :
    usage.heap.ht.countItems.toNat = usage.linked.length := by
  induction run with
  | start => rfl
  | step earlier counts taken counted =>
    exact counted_step (Stocked.run lower upper (earlier.mono fun _ _ _ => trivial)) counted counts taken

/-- The table is a multimap in every run, and its count is that of the linked items
as long as only linked items are removed. -/
theorem multimap_counted (lower : 2 ≤ order) (upper : order ≤ 30) (run : Run Usage.step Usage.Counts (Usage.create order) usage) :
    Multimap order usage ∧ usage.heap.ht.countItems.toNat = usage.linked.length :=
  ⟨multimap_any lower upper (run.mono fun _ _ _ => trivial), counted_run lower upper run⟩

end Steps

section Sample

/-- Two items of one key, of which the later is removed. -/
def twoItems : List Call := [.prepare 1 (7, 9), .prepare 2 (7, 9), .insert 1, .insert 2, .remove 2]

theorem multimap_counted_sample : ∃ usage, usage.linked = [1] ∧ Multimap 4 usage ∧ usage.heap.ht.countItems.toNat =
    usage.linked.length := by
  have taken : ∃ usage ∈ steps (tested Usage.step fun usage call => usage.Counts call) (Usage.create 4) twoItems, usage.linked =
    [1] := by decide +kernel
  obtain ⟨usage, reached, linked⟩ := taken
  exact ⟨usage, linked, multimap_counted (by decide) (by decide) (.of_tested of_decide_eq_true reached)⟩

/-- An item removed twice is counted out twice. -/
theorem count_underflows : ∃ usage, AnyRun Usage.step (Usage.create 4) usage ∧ usage.linked = [] ∧ usage.heap.ht.countItems = 4294967295 :=
  AnyRun.exists_of_steps [.prepare 1 (7, 9), .insert 1, .remove 1, .remove 1] (by decide +kernel)

end Sample
end Compcache.Hashtable
