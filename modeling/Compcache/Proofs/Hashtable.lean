import Compcache.Hashtable

/-! The hash table as its lists: what finding, inserting and removing an item comes to. -/

namespace Compcache.Hashtable
open Library Library.Chains

def Heap.links (heap : Heap) : Links Nat Nat where
  points
    | .head bucket => heap.ht.table bucket
    | .next item => (heap.items.find? item).bind fun found => found.head.next
  pprev item := (heap.items.find? item).bind fun found => found.head.pprev

def Heap.bucket (heap : Heap) (key : Key) : Nat := (hash128 key heap.ht.order).toNat

def Heap.Allocated (heap : Heap) (item : Nat) : Prop := (heap.items.find? item).isSome

def HashItem.data (item : HashItem) : Key × UInt16 × UInt16 := (item.key, item.compressLen, item.count)

def Heap.data (heap : Heap) (item : Nat) : Option (Key × UInt16 × UInt16) := (heap.items.find? item).map HashItem.data

/-- Nothing but links changes. -/
structure Relinked (before after : Heap) : Prop where
  data : after.data = before.data
  order : after.ht.order = before.ht.order
  size : after.ht.size = before.ht.size
  countItems : after.ht.countItems = before.ht.countItems

theorem Relinked.trans {first second third : Heap} (one : Relinked first second) (two : Relinked second third) : Relinked first third :=
  ⟨two.data.trans one.data, two.order.trans one.order, two.size.trans one.size, two.countItems.trans one.countItems⟩

section Accesses
variable {heap : Heap} {item : Nat} {found : HashItem}

theorem Heap.allocated_iff : heap.Allocated item ↔ ∃ found, heap.items.find? item = some found := Option.isSome_iff_exists

theorem Heap.allocated_data : heap.Allocated item ↔ (heap.data item).isSome := by rw [Allocated, data, Option.isSome_map]

theorem Relinked.allocated {after : Heap} (relinked : Relinked heap after) : after.Allocated item ↔ heap.Allocated item := by
  rw [Heap.allocated_data, Heap.allocated_data, relinked.data]

theorem Heap.write_links (here : heap.items.find? item = some found) (node : HlistNode) :
    let after : Heap := { heap with items := heap.items.insert item { found with head := node } }
    after.links = ⟨Function.update heap.links.points (.next item) node.next, Function.update heap.links.pprev item node.pprev⟩ ∧
        Relinked heap after := by
  refine ⟨?_, ?_, rfl, rfl, rfl⟩
  · refine Links.ext (funext fun place => ?_) (funext fun other => ?_)
    · cases place with
      | head bucket =>
        exact (Function.update_of_ne (show Chains.Place.head bucket ≠ .next item from nofun) node.next heap.links.points).symm
      | next other =>
        rcases eq_or_ne other item with rfl | different
        · simp [links]
        · refine Eq.trans ?_ (Function.update_of_ne (fun same => different (Chains.Place.next.inj same)) node.next heap.links.points).symm
          simp [links, SortedMap.find?_insert_ne _ _ different]
    · rcases eq_or_ne other item with rfl | different
      · simp [links]
      · refine Eq.trans ?_ (Function.update_of_ne different node.pprev heap.links.pprev).symm
        simp [links, SortedMap.find?_insert_ne _ _ different]
  · funext other
    rcases eq_or_ne other item with rfl | different
    · simp [data, here, HashItem.data]
    · simp [data, SortedMap.find?_insert_ne _ _ different]

/-- The place is in the table or in an item. -/
def Heap.Valid (heap : Heap) : Place → Prop
  | .head bucket => bucket < heap.ht.size
  | .next item => heap.Allocated item

theorem Relinked.valid {after : Heap} {place : Place} (relinked : Relinked heap after) (valid : heap.Valid place) : after.Valid place := by
  cases place with
  | head bucket => exact Nat.lt_of_lt_of_eq valid relinked.size.symm
  | next item => exact relinked.allocated.mpr valid

theorem Heap.load_valid {place : Place} (valid : heap.Valid place) : heap.load place = some (heap.links.points place) := by
  cases place with
  | head bucket => exact if_pos valid
  | next item =>
    obtain ⟨found, here⟩ := allocated_iff.mp valid
    simp [load, links, here]

theorem Heap.store_valid {place : Place} (valid : heap.Valid place) (value : Option Nat) :
    ∃ after, heap.store place value = some after ∧ after.links = ⟨Function.update heap.links.points place value, heap.links.pprev⟩ ∧
      Relinked heap after := by
  cases place with
  | head bucket =>
    refine ⟨_, if_pos valid, Links.ext (funext fun place => ?_) rfl, rfl, rfl, rfl, rfl⟩
    cases place with
    | head other =>
      rcases eq_or_ne other bucket with rfl | different
      · simp [links]
      · refine Eq.trans ?_ (Function.update_of_ne (fun same => different (Chains.Place.head.inj same)) value heap.links.points).symm
        simp [links, different]
    | next item => exact (Function.update_of_ne (show Chains.Place.next item ≠ .head bucket from nofun) value heap.links.points).symm
  | next item =>
    obtain ⟨found, here⟩ := allocated_iff.mp valid
    obtain ⟨links, relinked⟩ := heap.write_links here { found.head with next := value }
    refine ⟨_, by rw [store, here]; rfl, links.trans ?_, relinked⟩
    have same : heap.links.pprev item = found.head.pprev := by simp [Heap.links, here]
    rw [← same, Function.update_eq_self]

theorem Heap.setPprev_valid (allocated : heap.Allocated item) (value : Option Place) :
    ∃ after, heap.setPprev item value = some after ∧ after.links = ⟨heap.links.points, Function.update heap.links.pprev item value⟩ ∧
      Relinked heap after := by
  obtain ⟨found, here⟩ := allocated_iff.mp allocated
  obtain ⟨links, relinked⟩ := heap.write_links here { found.head with pprev := value }
  refine ⟨_, by rw [setPprev, here]; rfl, links.trans ?_, relinked⟩
  have same : heap.links.points (.next item) = found.head.next := by simp [Heap.links, here]
  rw [← same, Function.update_eq_self]

theorem Heap.backTo_valid {node : Option Nat} (allocated : ∀ first, node = some first → heap.Allocated first) (place : Place) :
    ∃ after, heap.backTo node place = some after ∧
      after.links = ⟨heap.links.points, node.elim heap.links.pprev fun first => Function.update heap.links.pprev first (some place)⟩ ∧
        Relinked heap after := by
  cases node with
  | none => exact ⟨heap, rfl, rfl, rfl, rfl, rfl, rfl⟩
  | some first => exact heap.setPprev_valid (allocated first rfl) (some place)

theorem hlistAddHead_links {bucket : Nat} (allocated : heap.Allocated item) (inside : bucket < heap.ht.size)
    (first : ∀ first, heap.ht.table bucket = some first → heap.Allocated first) :
    ∃ after, hlistAddHead heap item bucket = some after ∧ after.links = heap.links.add bucket item ∧ Relinked heap after := by
  have loaded : heap.load (.head bucket) = some (heap.ht.table bucket) := heap.load_valid (show heap.Valid (.head bucket) from inside)
  obtain ⟨one, pointed, links, relinked⟩ := heap.store_valid (show heap.Valid (.next item) from allocated) (heap.ht.table bucket)
  obtain ⟨two, backed, secondLinks, secondKept⟩ :=
    one.backTo_valid (fun found front => relinked.allocated.mpr (first found front)) (.next item)
  have both := relinked.trans secondKept
  obtain ⟨three, headed, thirdLinks, thirdKept⟩ := two.store_valid (both.valid (show heap.Valid (.head bucket) from inside)) (some item)
  have all := both.trans thirdKept
  obtain ⟨four, finished, fourthLinks, fourthKept⟩ := three.setPprev_valid (all.allocated.mpr allocated) (some (.head bucket))
  refine ⟨four, ?_, ?_, all.trans fourthKept⟩
  · simp [hlistAddHead, loaded, pointed, backed, headed, finished]
  · rw [fourthLinks, thirdLinks, secondLinks, links]
    rfl

theorem hlistDelInit_links {place : Place} (allocated : heap.Allocated item) (hashed : heap.links.pprev item = some place)
    (valid : heap.Valid place)
    (following : ∀ second, heap.links.points (.next item) = some second → heap.Allocated second) :
    ∃ after, hlistDelInit heap item = some after ∧ after.links = heap.links.del item ∧ Relinked heap after := by
  obtain ⟨found, here⟩ := heap.allocated_iff.mp allocated
  have back : found.head.pprev = some place := by simpa [Heap.links, here] using hashed
  have next : heap.links.points (.next item) = found.head.next := by simp [Heap.links, here]
  obtain ⟨one, pointed, links, relinked⟩ := heap.store_valid valid found.head.next
  obtain ⟨two, backed, secondLinks, secondKept⟩ :=
    one.backTo_valid (fun second ahead => relinked.allocated.mpr (following second (next.trans ahead))) place
  have both := relinked.trans secondKept
  obtain ⟨three, emptied, thirdLinks, thirdKept⟩ := two.store_valid (both.valid (show heap.Valid (.next item) from allocated)) none
  have all := both.trans thirdKept
  obtain ⟨four, finished, fourthLinks, fourthKept⟩ := three.setPprev_valid (all.allocated.mpr allocated) none
  refine ⟨four, ?_, ?_, all.trans fourthKept⟩
  · simp [hlistDelInit, here, back, pointed, backed, initHlistNode, emptied, finished]
  · rw [fourthLinks, thirdLinks, secondLinks, links, heap.links.del_eq hashed, next]

end Accesses

theorem hash64_lt (val : UInt64) {bits : Nat} (positive : 1 ≤ bits) (small : bits ≤ 64) : (hash64 val bits).toNat < 2 ^ bits := by
  rw [hash64, UInt64.toNat_shiftRight, UInt64.toNat_ofNat', Nat.shiftRight_eq_div_pow, Nat.mod_eq_of_lt (show 64 - bits < 2 ^ 64 by omega),
    Nat.mod_eq_of_lt (show 64 - bits < 64 by omega), Nat.div_lt_iff_lt_mul (Nat.two_pow_pos _), ← Nat.pow_add, Nat.add_sub_cancel' small]
  exact UInt64.toNat_lt _

theorem hash128_lt (key : Key) {order : Nat} (positive : 2 ≤ order) (small : order ≤ 63) : (hash128 key order).toNat < 2 ^ order := by
  have half : 1 ≤ order / 2 := by omega
  have high := hash64_lt key.1 half (by omega)
  have low := hash64_lt key.2 half (by omega)
  have square : 2 ^ (order / 2) * 2 ^ (order / 2) ≤ 2 ^ order := by
    rw [← Nat.pow_add]
    exact Nat.pow_le_pow_right (by decide) (by omega)
  have word : 2 ^ order < 2 ^ 64 := Nat.pow_lt_pow_right (by decide) (by omega)
  have shifted : ((hash64 key.1 (order / 2)) <<< UInt64.ofNat (order / 2)).toNat ≤ (hash64 key.1 (order / 2)).toNat * 2 ^ (order / 2) := by
    rw [UInt64.toNat_shiftLeft, UInt64.toNat_ofNat', Nat.shiftLeft_eq, Nat.mod_eq_of_lt (show order / 2 < 2 ^ 64 by omega),
      Nat.mod_eq_of_lt (show order / 2 < 64 by omega)]
    exact Nat.mod_le _ _
  rw [hash128, UInt64.toNat_add]
  refine Nat.lt_of_le_of_lt (Nat.mod_le _ _) ?_
  generalize (hash64 key.1 (order / 2)).toNat = one at high shifted
  generalize (hash64 key.2 (order / 2)).toNat = two at low
  have room : one * 2 ^ (order / 2) + 2 ^ (order / 2) ≤ 2 ^ (order / 2) * 2 ^ (order / 2) := by
    rw [← Nat.succ_mul]
    exact Nat.mul_le_mul_right _ high
  omega

/-- The lists of the table hold allocated items, each in the bucket of its key. -/
structure Tabled (heap : Heap) (chains : Nat → List Nat) : Prop where
  chained : Chained heap.links chains
  placed : ∀ {bucket item}, item ∈ chains bucket → ∃ data, heap.data item = some data ∧ heap.bucket data.1 = bucket
  size : heap.ht.size = 2 ^ heap.ht.order
  ordered : 2 ≤ heap.ht.order ∧ heap.ht.order ≤ 30

section Table
variable {heap : Heap} {chains : Nat → List Nat} {item : Nat}

theorem Heap.bucket_lt (tabled : Tabled heap chains) (key : Key) : heap.bucket key < heap.ht.size := by
  rw [tabled.size]
  exact hash128_lt key tabled.ordered.1 (by have := tabled.ordered.2; omega)

theorem Tabled.allocated {bucket : Nat} (tabled : Tabled heap chains) (member : item ∈ chains bucket) : heap.Allocated item := by
  obtain ⟨data, here, _⟩ := tabled.placed member
  rw [Heap.allocated_data, here]
  rfl

/-- The items of a table are where the table has them, when nothing but links changes. -/
theorem Tabled.relink {after : Heap} {changed : Nat → List Nat} (tabled : Tabled heap chains) (relinked : Relinked heap after)
    (chained : Chained after.links changed) (placed : ∀ {bucket item}, item ∈ changed bucket → ∃ data, heap.data item = some data ∧
      heap.bucket data.1 = bucket) :
    Tabled after changed where
  chained := chained
  placed := by
    intro bucket item member
    obtain ⟨data, here, home⟩ := placed member
    exact ⟨data, (congrFun relinked.data item).trans here, by rw [Heap.bucket, relinked.order]; exact home⟩
  size := by rw [relinked.size, relinked.order, tabled.size]
  ordered := relinked.order ▸ tabled.ordered

theorem Tabled.unlisted {after : Heap} (tabled : Tabled heap chains) (outside : ∀ bucket, item ∉ chains bucket) (ht : after.ht = heap.ht)
    (others : ∀ other, other ≠ item → after.items.find? other = heap.items.find? other)
    (own : ∀ found, after.items.find? item = some found → found.head.pprev = none) : Tabled after chains := by
  have apart {bucket other : Nat} (member : other ∈ chains bucket) : other ≠ item := fun same => outside bucket (same ▸ member)
  constructor
  · refine tabled.chained.congr (fun bucket => congrArg (·.table bucket) ht) (fun member => ?_) (fun member => ?_) fun other unlisted => ?_
    · exact congrArg (Option.bind · fun found => found.head.next) (others _ (apart member))
    · exact congrArg (Option.bind · fun found => found.head.pprev) (others _ (apart member))
    · rcases eq_or_ne other item with rfl | different
      · cases here : after.items.find? other with
        | none => simp [Heap.links, here]
        | some found => simp [Heap.links, here, own found here]
      · have same : after.links.pprev other = heap.links.pprev other := by simp only [Heap.links, others other different]
        exact same.trans (tabled.chained.unhashed other unlisted)
  · intro bucket other member
    obtain ⟨data, here, home⟩ := tabled.placed member
    exact ⟨data, (congrArg (Option.map HashItem.data) (others other (apart member))).trans here, by rw [Heap.bucket, ht]; exact home⟩
  · rw [ht]
    exact tabled.size
  · rw [ht]
    exact tabled.ordered

theorem Tabled.rewrite {found changed : HashItem} (tabled : Tabled heap chains) (here : heap.items.find? item = some found)
    (head : changed.head = found.head) (key : changed.key = found.key) :
    Tabled { heap with items := heap.items.insert item changed } chains := by
  have links : Heap.links { heap with items := heap.items.insert item changed } = heap.links := by
    refine Links.ext (funext fun place => ?_) (funext fun other => ?_)
    · cases place with
      | head bucket => rfl
      | next other =>
        rcases eq_or_ne other item with rfl | different
        · simp [Heap.links, here, head]
        · simp [Heap.links, SortedMap.find?_insert_ne _ _ different]
    · rcases eq_or_ne other item with rfl | different
      · simp [Heap.links, here, head]
      · simp [Heap.links, SortedMap.find?_insert_ne _ _ different]
  refine ⟨links ▸ tabled.chained, fun {bucket other} member => ?_, tabled.size, tabled.ordered⟩
  obtain ⟨data, there, home⟩ := tabled.placed member
  rcases eq_or_ne other item with rfl | different
  · rw [Heap.data, here] at there
    cases there
    exact ⟨changed.data, by simp [Heap.data], by rw [← home]; exact congrArg heap.bucket key⟩
  · refine ⟨data, ?_, home⟩
    rw [Heap.data, SortedMap.find?_insert_ne _ _ different]
    exact there

def Heap.hasKey (heap : Heap) (key : Key) (item : Nat) : Bool := (heap.data item).any fun data => data.1 = key

theorem findFrom_list {key : Key} {fuel : Nat} {place : Place} {list : List Nat} (hangs : Hangs heap.links place list)
    (allocated : ∀ item ∈ list, heap.Allocated item) (enough : list.length ≤ fuel) :
    findFrom heap key fuel (heap.links.points place) = some (list.find? (heap.hasKey key)) := by
  induction list generalizing place fuel with
  | nil =>
    rw [show heap.links.points place = none from hangs]
    cases fuel <;> rfl
  | cons first rest ih =>
    obtain ⟨points, _, hangs⟩ := hangs
    obtain ⟨found, here⟩ := heap.allocated_iff.mp (allocated first List.mem_cons_self)
    have next : heap.links.points (.next first) = found.head.next := by simp [Heap.links, here]
    have test : heap.hasKey key first = decide (found.key = key) := by simp [Heap.hasKey, Heap.data, here, HashItem.data]
    cases fuel with
    | zero => cases enough
    | succ fuel =>
      have later := ih hangs (fun item member => allocated item (List.mem_cons_of_mem _ member)) (Nat.le_of_succ_le_succ enough)
      rw [next] at later
      rw [points, findFrom, here, List.find?_cons, test]
      rcases Classical.em (found.key = key) with same | different
      · simp [same]
      · simp [different, later]

theorem htFindItem_eq (tabled : Tabled heap chains) (key : Key) :
    htFindItem heap key = some ((chains (heap.bucket key)).find? (heap.hasKey key)) := by
  have loaded : heap.load (.head (heap.bucket key)) = some (heap.links.points (.head (heap.bucket key))) :=
    heap.load_valid (show heap.Valid (.head (heap.bucket key)) from heap.bucket_lt tabled key)
  have inside : chains (heap.bucket key) ⊆ heap.items.entries.map Prod.fst := by
    intro item member
    obtain ⟨found, here⟩ := heap.allocated_iff.mp (tabled.allocated member)
    exact List.mem_map.mpr ⟨(item, found), SortedMap.mem_entries.mpr here, rfl⟩
  have enough : (chains (heap.bucket key)).length ≤ heap.items.entries.length := by
    have bounded := (List.subperm_of_subset (tabled.chained.nodup _) inside).length_le
    rwa [List.length_map] at bounded
  have walk : findFrom heap key heap.items.entries.length (heap.links.points (.head (heap.bucket key))) = _ :=
    findFrom_list (tabled.chained.hangs _) (fun item member => tabled.allocated member) enough
  rw [htFindItem, htFindKey]
  exact (congrArg (Option.bind · _) loaded).trans walk

/-- What an insertion leaves. -/
structure Inserted (before after : Heap) : Prop where
  data : after.data = before.data
  order : after.ht.order = before.ht.order
  countItems : after.ht.countItems = before.ht.countItems + 1

theorem htInsertItem_spec {data : Key × UInt16 × UInt16} (tabled : Tabled heap chains) (here : heap.data item = some data)
    (fresh : ∀ bucket, item ∉ chains bucket) :
    ∃ after, htInsertItem heap item = some after ∧
      Tabled after (Function.update chains (heap.bucket data.1) (item :: chains (heap.bucket data.1))) ∧ Inserted heap after := by
  obtain ⟨found, there, rfl⟩ := Option.map_eq_some_iff.mp here
  have first (front : Nat) (points : heap.ht.table (heap.bucket found.key) = some front) : heap.Allocated front := by
    have listed := (tabled.chained.hangs (heap.bucket found.key)).first.symm.trans points
    exact tabled.allocated (List.mem_of_mem_head? listed)
  obtain ⟨after, added, links, relinked⟩ :=
    hlistAddHead_links (heap.allocated_iff.mpr ⟨found, there⟩) (heap.bucket_lt tabled found.key) first
  refine ⟨{ after with ht := { after.ht with countItems := after.ht.countItems + 1 } }, ?_, ?_, relinked.data, relinked.order, ?_⟩
  · rw [htInsertItem, there]
    exact congrArg (Option.map _) added
  · have kept : Tabled after (Function.update chains (heap.bucket found.key) (item :: chains (heap.bucket found.key))) := by
      refine tabled.relink relinked (links ▸ tabled.chained.add fresh) fun {bucket other} member => ?_
      rcases eq_or_ne bucket (heap.bucket found.key) with rfl | elsewhere
      · rw [Function.update_self] at member
        rcases List.mem_cons.mp member with rfl | old
        · exact ⟨_, here, rfl⟩
        · exact tabled.placed old
      · rw [Function.update_of_ne elsewhere] at member
        exact tabled.placed member
    exact ⟨kept.chained, kept.placed, kept.size, kept.ordered⟩
  · exact congrArg (· + 1) relinked.countItems

/-- What a removal leaves. -/
structure Removed (before after : Heap) : Prop where
  data : after.data = before.data
  order : after.ht.order = before.ht.order
  countItems : after.ht.countItems = before.ht.countItems - 1

theorem htRemoveItem_spec {bucket : Nat} (tabled : Tabled heap chains) (member : item ∈ chains bucket) :
    ∃ after, htRemoveItem heap item = some after ∧ Tabled after (Function.update chains bucket ((chains bucket).erase item)) ∧
      Removed heap after := by
  have hangs := tabled.chained.hangs bucket
  obtain ⟨place, hashed, where_⟩ := hangs.behind member
  have valid : heap.Valid place := by
    rcases where_ with rfl | ⟨front, inside, rfl⟩
    · obtain ⟨data, _, rfl⟩ := tabled.placed member
      exact heap.bucket_lt tabled data.1
    · exact tabled.allocated inside
  obtain ⟨after, deleted, links, relinked⟩ := hlistDelInit_links (tabled.allocated member) hashed valid fun second points =>
    tabled.allocated (List.mem_of_mem_tail (hangs.ahead member points))
  refine ⟨{ after with ht := { after.ht with countItems := after.ht.countItems - 1 } }, congrArg (Option.map _) deleted, ?_,
    relinked.data, relinked.order, ?_⟩
  · have kept : Tabled after (Function.update chains bucket ((chains bucket).erase item)) := by
      refine tabled.relink relinked (links ▸ tabled.chained.del member) fun {other item} there => ?_
      rcases eq_or_ne other bucket with rfl | elsewhere
      · rw [Function.update_self] at there
        exact tabled.placed (List.mem_of_mem_erase there)
      · rw [Function.update_of_ne elsewhere] at there
        exact tabled.placed there
    exact ⟨kept.chained, kept.placed, kept.size, kept.ordered⟩
  · exact congrArg (· - 1) relinked.countItems

end Table
end Compcache.Hashtable
