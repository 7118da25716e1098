import Compcache.Proofs.Backing
import Compcache.ZcacheSessions

/-! What `zcache_free_inode_pages` does to a node and to the pool: batch after batch,
the entries of the lowest indices go, each with its object. -/

namespace Compcache.Zcache
open Library Library.PagedMemory Library.PerCpu Library.Runs Xvmalloc

section Items
variable {inode : InodeRb} {entry : Nat × Item} {tag : Tag}

/-- The object an item leads to; a mark for a zero-filled page leads to none. -/
def Item.object (item : Item) : Option Location := if zcacheIsZeroPage item.ptr then none else some (zcachePtrToXvLocation item.ptr)

theorem Item.object_none {item : Item} : item.object = none ↔ zcacheIsZeroPage item.ptr = true := by
  rw [object]
  split <;> simp_all

theorem Item.object_some {item : Item} {location : Location} (leads : item.object = some location) :
    zcacheIsZeroPage item.ptr = false ∧ zcachePtrToXvLocation item.ptr = location := by
  rw [object] at leads
  split at leads
  next => cases leads
  next object => exact ⟨Bool.eq_false_iff.mpr object, Option.some.inj leads⟩

/-- The entries a lookup by a tag goes through. -/
def InodeRb.matching (inode : InodeRb) (tag : Tag) : List (Nat × Item) :=
  inode.pageTree.entries.filter fun entry => tag = .invalid ∨ (tag = .nonzeroPage ∧ entry.2.nonzeroPage)

def InodeRb.without (inode : InodeRb) (gone : List (Nat × Item)) :
    InodeRb := { inode with pageTree := inode.pageTree.eraseAll (gone.map Prod.fst) }

theorem InodeRb.lookup_entry (member : entry ∈ inode.pageTree.entries) : inode.lookup entry.1 = entry.2.ptr := by
  rw [lookup, SortedMap.mem_entries.mp member]
  rfl

theorem InodeRb.without_one (inode : InodeRb) (entry : Nat × Item) :
    inode.without [entry] = { inode with pageTree := inode.pageTree.erase entry.1 } := by
  rw [without, List.map_cons, List.map_nil, SortedMap.eraseAll_singleton]

theorem InodeRb.without_without (inode : InodeRb) (gone more : List (Nat × Item)) :
    (inode.without gone).without more = inode.without (gone ++ more) := by
  rw [without, without, without, SortedMap.eraseAll_eraseAll, List.map_append]

theorem freeBatch_pos : 0 < freeBatch := by decide

theorem InodeRb.matching_sorted (inode : InodeRb) (tag : Tag) : (inode.matching tag).Pairwise fun one other => one.1 < other.1 :=
  inode.pageTree.sorted.filter _

theorem InodeRb.matching_inside (member : entry ∈ inode.matching tag) : entry ∈ inode.pageTree.entries := List.mem_of_mem_filter member

theorem InodeRb.gangLookup_above {index : Nat} (above : ∀ entry ∈ inode.matching tag, index ≤ entry.1) :
    inode.gangLookup index tag = ((inode.matching tag).take freeBatch).map fun entry => entry.2.ptr := by
  have all : (inode.pageTree.atLeast index).filter (fun entry => decide (tag = .invalid ∨ (tag = .nonzeroPage ∧ entry.2.nonzeroPage))) =
      inode.matching tag := by
    rw [SortedMap.atLeast, List.filter_filter, List.filter_congr fun _ _ => Bool.and_comm .., ← List.filter_filter]
    exact List.filter_eq_self.mpr fun entry member => decide_eq_true (above entry member)
  rw [gangLookup, all]

theorem InodeRb.matching_take (inode : InodeRb) (tag : Tag) (count : Nat) :
    (inode.without ((inode.matching tag).take count)).matching tag = (inode.matching tag).drop count :=
  inode.pageTree.eraseAll_take _ count

/-- What is in front of the end of a sorted list's beginning is in the beginning. -/
theorem mem_take_of_lower {found : List (Nat × Item)} (sorted : found.Pairwise fun one other => one.1 < other.1) {count : Nat}
    {one other : Nat × Item}
    (first : one ∈ found.take count) (second : other ∈ found) (lower : other.1 < one.1) : other ∈ found.take count := by
  rw [← List.take_append_drop count found] at sorted second
  refine (List.mem_append.mp second).resolve_right fun behind => ?_
  exact Nat.lt_asymm lower ((List.pairwise_append.mp sorted).2.2 one first other behind)

theorem InodeRb.matching_behind {index : Nat} (above : ∀ entry ∈ inode.matching tag, index ≤ entry.1) {count : Nat} (some_ : 0 < count)
    (member : entry ∈ (inode.matching tag).drop count) : index + 1 ≤ entry.1 := by
  have sorted := inode.matching_sorted tag
  cases listed : inode.matching tag with
  | nil =>
    rw [listed, List.drop_nil] at member
    cases member
  | cons first rest =>
    rw [listed] at above sorted member
    have later : entry ∈ rest := by
      obtain ⟨before, rfl⟩ := Nat.exists_eq_succ_of_ne_zero (Nat.ne_of_gt some_)
      exact List.mem_of_mem_drop member
    exact Nat.lt_of_le_of_lt (above first List.mem_cons_self) (List.rel_of_pairwise_cons sorted later)

end Items

section Entries
variable [Arch]

/-- The storage an item is the only way to. -/
def Item.Holds (item : Item) : Storage → Prop
  | .object location _ => item.object = some location
  | .page _ => False

/-- An entry decodes to its own index: it marks a zero-filled page there, or leads to an
object of the pool with that index in its header. -/
def Decodes (memory : Memory Page) (stored : Storage → Prop) (entry : Nat × Item) : Prop :=
  match entry.2.object with
  | none => entry.2.ptr >>> zcacheZeroPageIndexShift = entry.1
  | some location =>
    ∃ size, stored (.object location size) ∧ objheaderSize ≤ size ∧ memory.load location.page location.offset wordBytes = entry.1

/-- A mark that decodes to an index in front of its own: the highest bits are lost. -/
def Astray (entry : Nat × Item) : Prop := entry.2.object = none ∧ entry.2.ptr >>> zcacheZeroPageIndexShift < entry.1

variable {memory after : Memory Page} {stored : Storage → Prop} {one other : Nat × Item} {location : Location}

theorem Decodes.not_astray (decodes : Decodes memory stored one) : ¬ Astray one := by
  rintro ⟨mark, lower⟩
  rw [Decodes, mark] at decodes
  exact Nat.ne_of_lt lower decodes

theorem Decodes.apart (first : Decodes memory stored one) (second : Decodes memory stored other) (different : one.1 ≠ other.1)
    (leads : one.2.object = some location) : other.2.object ≠ some location := by
  intro same
  rw [Decodes, leads] at first
  rw [Decodes, same] at second
  obtain ⟨_, _, _, here⟩ := first
  obtain ⟨_, _, _, there⟩ := second
  exact different (here.symm.trans there)

theorem Decodes.behind (first : Decodes memory stored one) (second : Decodes memory stored other) (different : one.1 ≠ other.1)
    (kept : ∀ storage, stored storage → ¬ one.2.Holds storage → storage.bytes after = storage.bytes memory) :
    Decodes after (fun storage => stored storage ∧ ¬ one.2.Holds storage) other := by
  cases leads : other.2.object with
  | none =>
    rw [Decodes, leads] at second ⊢
    exact second
  | some location =>
    have free : one.2.object ≠ some location := second.apart first different.symm leads
    rw [Decodes, leads] at second ⊢
    obtain ⟨size, here, large, header⟩ := second
    refine ⟨size, ⟨here, free⟩, large, ?_⟩
    rw [← header]
    exact PageBytes.load_of_read (kept (.object location size) here free) large

end Entries

section Sweeps
variable [Arch] {cpus : Nat} {lzo : Lzo} {task : Nat} {held : List Nat} {others : Finset Page} {stored : Storage → Prop}
  {pool middle after : Pool cpus} {node : Nat} {inode : InodeRb} {entry : Nat × Item} {gone more : List (Nat × Item)} {tag : Tag}

def Item.counts (memory : Memory Page) (item : Item) : Stat → Int
  | .pagesZero => if item.object = none then 1 else 0
  | .pagesStored => if item.object = none then 0 else 1
  | .comprSize => item.object.elim 0 fun location => (xvGetObjectSize memory location.page location.offset : Int) - objheaderSize

/-- What is left of the storage when the objects of some entries are gone. -/
def leftOf (stored : Storage → Prop) (gone : List (Nat × Item)) (storage : Storage) : Prop :=
  stored storage ∧ ∀ entry ∈ gone, ¬ entry.2.Holds storage

/-- A node whose entries decode to their own index, in a pool with these objects. -/
structure Shelved (others : Finset Page) (stored : Storage → Prop) (pool : Pool cpus) (node : Nat) (inode : InodeRb) : Prop where
  here : pool.nodes node = some inode
  backed : Backed others pool.xv stored
  decodes : ∀ entry ∈ inode.pageTree.entries, Decodes pool.xv.memory stored entry

/-- A node in a pool with these objects. Its entries decode to their own index, but
for marks that have gone astray. -/
structure Racked (others : Finset Page) (stored : Storage → Prop) (pool : Pool cpus) (node : Nat) (inode : InodeRb) : Prop where
  here : pool.nodes node = some inode
  backed : Backed others pool.xv stored
  sound : ∀ entry ∈ inode.pageTree.entries, Decodes pool.xv.memory stored entry ∨ Astray entry

theorem Shelved.racked (shelved : Shelved others stored pool node inode) : Racked others stored pool node inode :=
  ⟨shelved.here, shelved.backed, fun entry member => .inl (shelved.decodes entry member)⟩

theorem Racked.decodes (racked : Racked others stored pool node inode) (member : entry ∈ inode.pageTree.entries) (sure : ¬ Astray entry) :
    Decodes pool.xv.memory stored entry := (racked.sound entry member).resolve_right sure

/-- Some entries of a node are deleted, the object of each is freed once, in order, and
each counts no longer; nothing else is changed. -/
structure Pool.Sheds (pool : Pool cpus) (node : Nat) (inode : InodeRb) (gone : List (Nat × Item)) (after : Pool cpus) : Prop where
  nodes : after.nodes = Function.update pool.nodes node (some (inode.without gone))
  inodeTree : after.inodeTree = pool.inodeTree
  created : after.created = pool.created
  memlimit : after.memlimit = pool.memlimit
  freed : (gone.filterMap fun entry => entry.2.object).foldlM (fun xv location => xvFree xv location.page location.offset) pool.xv =
    some after.xv
  counted : ∀ stat, after.stats.tally stat (List.finRange cpus) =
    pool.stats.tally stat (List.finRange cpus) - (gone.map fun entry => entry.2.counts pool.xv.memory stat).sum

theorem Racked.leftOf_object (racked : Racked others stored pool node inode) {location : Location} {size : Nat}
    (leads : entry.2.object = some location)
    (here : stored (.object location size)) (storage : Storage) :
    leftOf stored [entry] storage ↔ stored storage ∧ storage ≠ .object location size := by
  rw [leftOf, List.forall_mem_singleton]
  refine and_congr_right fun there => not_congr ?_
  cases storage with
  | page => simp [Item.Holds]
  | object other recorded =>
    rw [Item.Holds, leads, Option.some.injEq, Storage.object.injEq]
    constructor
    · rintro rfl
      exact ⟨rfl, (racked.backed.object_size there).symm.trans (racked.backed.object_size here)⟩
    · rintro ⟨rfl, _⟩
      rfl

/-- The entries are gone, and the operation goes on. -/
structure Swept (others : Finset Page) (stored : Storage → Prop) (pool : Pool cpus) (node : Nat) (inode : InodeRb)
    (gone : List (Nat × Item))
    (held : List Nat) (next : Code cpus) (final : Progress cpus) : Prop where
  held : final.held = held
  code : final.code = next
  sheds : pool.Sheds node inode gone final.pool
  shelved : Shelved others (leftOf stored gone) final.pool node (inode.without gone)

/-- The entries are gone, none of which had gone astray, and nothing else has changed. -/
structure Cleared (others : Finset Page) (stored : Storage → Prop) (pool : Pool cpus) (node : Nat) (inode : InodeRb)
    (gone : List (Nat × Item))
    (held : List Nat) (next : Code cpus) (final : Progress cpus) : Prop where
  held : final.held = held
  code : final.code = next
  sheds : pool.Sheds node inode gone final.pool
  racked : Racked others (leftOf stored gone) final.pool node (inode.without gone)
  bytes : ∀ storage, leftOf stored gone storage → storage.bytes final.pool.xv.memory = storage.bytes pool.xv.memory
  sure : ∀ entry ∈ gone, ¬ Astray entry

/-- The BUG_ON is hit at an entry that has gone astray. -/
def Lost (inode : InodeRb) (final : Progress cpus) : Prop := final.code = .bug ∧ ∃ entry ∈ inode.pageTree.entries, Astray entry

theorem Lost.without {final : Progress cpus} (lost : Lost (inode.without gone) final) : Lost inode final := by
  obtain ⟨code, entry, member, astray⟩ := lost
  exact ⟨code, entry, (SortedMap.mem_eraseAll.mp member).1, astray⟩

theorem Racked.without (racked : Racked others stored pool node inode) (member : entry ∈ inode.pageTree.entries) (sure : ¬ Astray entry)
    (sheds : pool.Sheds node inode [entry] after) (backed : Backed others after.xv (leftOf stored [entry]))
    (kept : ∀ storage, stored storage → ¬ entry.2.Holds storage → storage.bytes after.xv.memory = storage.bytes pool.xv.memory) :
    Racked others (leftOf stored [entry]) after node (inode.without [entry]) where
  here := by
    rw [sheds.nodes]
    exact Function.update_self ..
  backed := backed
  sound := by
    intro other there
    obtain ⟨old, elsewhere⟩ := SortedMap.mem_eraseAll.mp there
    refine (racked.sound other old).imp_left fun decodes => ?_
    have different : entry.1 ≠ other.1 := fun same => elsewhere (List.mem_singleton.mpr same.symm)
    have later := (racked.decodes member sure).behind decodes different kept
    have same : leftOf stored [entry] = fun storage => stored storage ∧ ¬ entry.2.Holds storage := by
      funext storage
      rw [leftOf, List.forall_mem_singleton]
    rwa [same]

omit [Arch] in
theorem tally_all (counters : Counters (Fin cpus) Stat) (cpu : Fin cpus) (stat : Stat) (value : Int) (other : Stat) :
    (counters.bump cpu stat value).tally other (List.finRange cpus) = counters.tally other (List.finRange cpus) + if other =
      stat then value else 0 := by
  rw [tally_bump (List.nodup_finRange cpus)]
  simp only [List.mem_finRange, and_true]

theorem step_radixDelete (here : pool.nodes node = some inode) (member : entry ∈ inode.pageTree.entries)
    (next : Nat → Code cpus) (cpu : Fin cpus) :
    Progress.step lzo task ⟨pool, held, .radixDelete node entry.1 next⟩ cpu =
      some ⟨pool.setNode node (inode.without [entry]), held, next entry.2.ptr⟩ := by
  rw [Progress.step, Pool.advance, here, Option.map_some, InodeRb.lookup_entry member, InodeRb.without_one]

/-- What `zcache_ptr_to_index` comes to. -/
def Pool.ptrToIndex (pool : Pool cpus) (ptr : Nat) : Nat :=
  if zcacheIsZeroPage ptr then ptr >>> zcacheZeroPageIndexShift else pool.read (.objectIndex (zcachePtrToXvLocation ptr))

theorem zcachePtrToIndex_comes (lzo : Lzo) (task : Nat) (held : List Nat) (ptr : Nat) (next : Nat → Code cpus) :
    Inevitable (Progress.step lzo task) (fun final => final = ⟨pool, held, next (pool.ptrToIndex ptr)⟩)
      ⟨pool, held, zcachePtrToIndex ptr next⟩ := by
  rw [zcachePtrToIndex, Pool.ptrToIndex]
  split
  next => exact .here rfl
  next => exact .one (fun _ => rfl) (.here rfl)

theorem free_mark (racked : Racked others stored pool node inode) (member : entry ∈ inode.pageTree.entries) (leads : entry.2.object = none)
    (sure : ¬ Astray entry) (next : Code cpus) :
    Inevitable (Progress.step lzo task) (Cleared others stored pool node inode [entry] held next)
      ⟨pool, held, zcachePtrToIndex entry.2.ptr fun index =>
      .radixDelete node index fun found => if found = entry.2.ptr then zcacheFreePage found next else .bug⟩ := by
  have mark := Item.object_none.mp leads
  have real : entry.2.ptr ≠ 0 := by
    intro null
    rw [null] at mark
    cases mark
  have decoded : pool.ptrToIndex entry.2.ptr = entry.1 := by
    have decodes := racked.decodes member sure
    rw [Decodes, leads] at decodes
    rwa [Pool.ptrToIndex, if_pos mark]
  refine (zcachePtrToIndex_comes lzo task held _ _).trans ?_
  rintro _ rfl
  rw [decoded]
  refine .one (step_radixDelete racked.here member _) ?_
  rw [if_pos rfl, zcacheFreePage, if_neg real, if_pos mark]
  refine .step _ (fun _ => rfl) fun cpu => .here ?_
  have sheds : pool.Sheds node inode [entry]
      { pool.setNode node (inode.without [entry]) with stats := pool.stats.bump cpu .pagesZero (-1) } := by
    refine ⟨rfl, rfl, rfl, rfl, ?_, fun stat => ?_⟩
    · simp only [List.filterMap_cons, leads, List.filterMap_nil]
      rfl
    · rw [tally_all, List.map_singleton, List.sum_singleton]
      cases stat <;> simp [Item.counts, leads, sub_eq_add_neg]
  have backed : Backed others pool.xv (leftOf stored [entry]) := by
    refine racked.backed.congr fun storage => and_iff_left ?_
    rw [List.forall_mem_singleton]
    cases storage <;> simp [Item.Holds, leads]
  exact ⟨rfl, rfl, sheds, racked.without member sure sheds backed fun _ _ _ => rfl, fun _ _ => rfl, List.forall_mem_singleton.mpr sure⟩

theorem free_object (racked : Racked others stored pool node inode) (member : entry ∈ inode.pageTree.entries) {location : Location}
    (leads : entry.2.object = some location) (next : Code cpus) :
    Inevitable (Progress.step lzo task) (Cleared others stored pool node inode [entry] held next)
      ⟨pool, held, zcachePtrToIndex entry.2.ptr fun index =>
      .radixDelete node index fun found => if found = entry.2.ptr then zcacheFreePage found next else .bug⟩ := by
  obtain ⟨object, decoded⟩ := Item.object_some leads
  have sure : ¬ Astray entry := by
    rintro ⟨mark, _⟩
    rw [leads] at mark
    cases mark
  have decodes := racked.decodes member sure
  rw [Decodes, leads] at decodes
  obtain ⟨size, here, large, header⟩ := decodes
  have real : entry.2.ptr ≠ 0 := by
    rintro null
    have start := (racked.backed.object_aligned here).2
    rw [← decoded, null] at start
    exact absurd start (by decide)
  obtain ⟨xv, freed, backed, kept⟩ := racked.backed.releaseObject here
  have index : pool.ptrToIndex entry.2.ptr = entry.1 := by
    rw [Pool.ptrToIndex, object, if_neg Bool.false_ne_true, Pool.read, decoded, header]
  refine (zcachePtrToIndex_comes lzo task held _ _).trans ?_
  rintro _ rfl
  rw [index]
  refine .one (step_radixDelete racked.here member _) ?_
  rw [if_pos rfl, zcacheFreePage, if_neg real, object, if_neg Bool.false_ne_true, decoded]
  refine .one (fun _ => rfl) ?_
  refine .step _ (fun _ => rfl) fun first => ?_
  refine .one (fun _ => by rw [Progress.step, Pool.advance]; exact congrArg _ freed) ?_
  refine .step _ (fun _ => rfl) fun second => .here ?_
  have size_eq : xvGetObjectSize pool.xv.memory location.page location.offset = size := racked.backed.object_size here
  have sheds : pool.Sheds node inode [entry]
      { pool.setNode node (inode.without [entry]) with
        xv, stats := (pool.stats.bump first .comprSize (-((size : Int) - objheaderSize))).bump second .pagesStored (-1) } := by
    refine ⟨rfl, rfl, rfl, rfl, ?_, fun stat => ?_⟩
    · simp only [List.filterMap_cons, leads, List.filterMap_nil, List.foldlM_cons, List.foldlM_nil, freed]
      rfl
    · rw [tally_all, tally_all, List.map_singleton, List.sum_singleton]
      cases stat <;> simp [Item.counts, leads, size_eq, sub_eq_add_neg]
  have left : Backed others xv (leftOf stored [entry]) := backed.congr (racked.leftOf_object leads here)
  have bytes (storage : Storage) (there : stored storage) (free : ¬ entry.2.Holds storage) : storage.bytes xv.memory =
      storage.bytes pool.xv.memory := by
    refine kept storage there ?_
    rintro rfl
    exact free leads
  rw [← size_eq] at sheds
  exact ⟨rfl, rfl, sheds, racked.without member sure sheds left bytes, fun storage there => bytes storage there.1
    (there.2 entry List.mem_cons_self),
    List.forall_mem_singleton.mpr sure⟩

/-- The turn of the inner loop for an entry gone astray, with nothing in front of it. -/
theorem free_astray (here : pool.nodes node = some inode) (member : entry ∈ inode.pageTree.entries) (astray : Astray entry)
    (front : ∀ other ∈ inode.pageTree.entries, entry.1 ≤ other.1) (next : Code cpus) :
    Inevitable (Progress.step lzo task) (Lost inode) ⟨pool, held, zcachePtrToIndex entry.2.ptr fun index =>
      .radixDelete node index fun found => if found = entry.2.ptr then zcacheFreePage found next else .bug⟩ := by
  have mark := Item.object_none.mp astray.1
  have real : 0 ≠ entry.2.ptr := by
    intro null
    rw [← null] at mark
    cases mark
  have absent : inode.lookup (pool.ptrToIndex entry.2.ptr) = 0 := by
    rw [Pool.ptrToIndex, if_pos mark, InodeRb.lookup, SortedMap.find?_eq_none.mpr fun other there =>
      Nat.ne_of_gt (Nat.lt_of_lt_of_le astray.2 (front other there))]
    rfl
  refine (zcachePtrToIndex_comes lzo task held _ _).trans ?_
  rintro _ rfl
  refine .one (fun _ => by rw [Progress.step, Pool.advance, here, Option.map_some]) (.here ?_)
  rw [absent, if_neg real]
  exact ⟨rfl, entry, member, astray⟩

theorem Cleared.none (racked : Racked others stored pool node inode) (next : Code cpus) :
    Cleared others stored pool node inode [] held next ⟨pool, held, next⟩ where
  held := rfl
  code := rfl
  sheds := by
    refine ⟨?_, rfl, rfl, rfl, rfl, fun stat => (sub_zero _).symm⟩
    rw [InodeRb.without, List.map_nil, SortedMap.eraseAll_nil, ← racked.here, Function.update_eq_self]
  racked := by
    rw [InodeRb.without, List.map_nil, SortedMap.eraseAll_nil]
    have same : leftOf stored [] = stored := funext fun storage => propext (and_iff_left (List.forall_mem_nil _))
    rwa [same]
  bytes := fun _ _ => rfl
  sure := List.forall_mem_nil _

theorem Racked.counts (racked : Racked others stored pool node inode)
    (later : Racked others (leftOf stored gone) after node (inode.without gone))
    (member : entry ∈ (inode.without gone).pageTree.entries) (stat : Stat) :
    entry.2.counts after.xv.memory stat = entry.2.counts pool.xv.memory stat := by
  cases stat with
  | pagesZero => rfl
  | pagesStored => rfl
  | comprSize =>
    cases leads : entry.2.object with
    | none => rw [Item.counts, Item.counts, leads, Option.elim_none, Option.elim_none]
    | some location =>
      have sure : ¬ Astray entry := by
        rintro ⟨mark, _⟩
        rw [leads] at mark
        cases mark
      have decodes := later.decodes member sure
      rw [Decodes, leads] at decodes
      obtain ⟨size, here, _⟩ := decodes
      rw [Item.counts, Item.counts, leads, Option.elim_some, Option.elim_some, racked.backed.object_size here.1,
        later.backed.object_size here]

theorem Cleared.append {next further : Code cpus} {between final : Progress cpus} (racked : Racked others stored pool node inode)
    (first : Cleared others stored pool node inode gone held further between)
    (inside : ∀ entry ∈ more, entry ∈ (inode.without gone).pageTree.entries)
    (second : Cleared others (leftOf stored gone) between.pool node (inode.without gone) more held next final) :
    Cleared others stored pool node inode (gone ++ more) held next final := by
  have left : leftOf stored (gone ++ more) = leftOf (leftOf stored gone) more := by
    funext storage
    rw [leftOf, leftOf, leftOf, List.forall_mem_append, and_assoc]
  refine ⟨second.held, second.code, ?_, ?_, ?_, List.forall_mem_append.mpr ⟨first.sure, second.sure⟩⟩
  · obtain ⟨nodes, inodeTree, created, memlimit, freed, counted⟩ := second.sheds
    refine ⟨?_, inodeTree.trans first.sheds.inodeTree, created.trans first.sheds.created, memlimit.trans first.sheds.memlimit,
      ?_, fun stat => ?_⟩
    · rw [nodes, first.sheds.nodes, Function.update_idem, InodeRb.without_without]
    · rw [List.filterMap_append, List.foldlM_append, first.sheds.freed]
      exact freed
    · have same : more.map (fun entry => entry.2.counts between.pool.xv.memory stat) = more.map fun entry =>
          entry.2.counts pool.xv.memory stat :=
        List.map_congr_left fun entry member => racked.counts first.racked (inside entry member) stat
      rw [counted, first.sheds.counted, same, List.map_append, List.sum_append]
      omega
  · rw [left, ← InodeRb.without_without]
    exact second.racked
  · rw [left]
    exact fun storage there => (second.bytes storage there).trans (first.bytes storage there.1)

/-- The loop over one batch. What lies in front of an entry gone astray is in the batch too. -/
theorem freeObjects_cleared (racked : Racked others stored pool node inode) (batch : List (Nat × Item))
    (inside : ∀ entry ∈ batch, entry ∈ inode.pageTree.entries)
    (sorted : batch.Pairwise fun one other => one.1 < other.1)
    (front : ∀ entry ∈ batch, Astray entry → ∀ other ∈ inode.pageTree.entries, other.1 < entry.1 → other ∈ batch) (next : Code cpus) :
    Inevitable (Progress.step lzo task) (fun final => Cleared others stored pool node inode batch held next final ∨ Lost inode final)
      ⟨pool, held, freeObjects node next (batch.map fun entry => entry.2.ptr)⟩ := by
  induction batch generalizing pool stored inode with
  | nil => exact .here (.inl (.none racked next))
  | cons entry rest ih =>
    obtain ⟨beyond, later⟩ := List.pairwise_cons.mp sorted
    have member := inside entry List.mem_cons_self
    rcases Classical.em (Astray entry) with astray | sure
    · refine (free_astray racked.here member astray (fun other there => ?_) _).mono fun final lost => .inr lost
      by_contra lower
      rcases List.mem_cons.mp (front entry List.mem_cons_self astray other there (Nat.lt_of_not_le lower)) with rfl | behind
      · exact lower (Nat.le_refl _)
      · exact lower (Nat.le_of_lt (beyond other behind))
    have turn : Inevitable (Progress.step lzo task)
        (Cleared others stored pool node inode [entry] held (freeObjects node next (rest.map fun entry => entry.2.ptr)))
        ⟨pool, held, freeObjects node next ((entry :: rest).map fun entry => entry.2.ptr)⟩ := by
      cases leads : entry.2.object with
      | none => exact free_mark racked member leads sure _
      | some location => exact free_object racked member leads _
    have left (other : Nat × Item) (behind : other ∈ rest) : other ∈ (inode.without [entry]).pageTree.entries := by
      refine SortedMap.mem_eraseAll.mpr ⟨inside other (List.mem_cons_of_mem _ behind), ?_⟩
      rw [List.map_singleton, List.mem_singleton]
      exact Nat.ne_of_gt (beyond other behind)
    have ahead (other : Nat × Item) (behind : other ∈ rest) (astray : Astray other) (found : Nat × Item)
        (there : found ∈ (inode.without [entry]).pageTree.entries) (lower : found.1 < other.1) : found ∈ rest := by
      obtain ⟨old, elsewhere⟩ := SortedMap.mem_eraseAll.mp there
      refine (List.mem_cons.mp (front other (List.mem_cons_of_mem _ behind) astray found old lower)).resolve_left ?_
      rintro rfl
      exact elsewhere (List.mem_singleton.mpr rfl)
    refine turn.trans fun between first => ?_
    obtain ⟨middle, _, _⟩ := between
    obtain rfl := first.held
    obtain rfl := first.code
    exact (ih first.racked left later ahead).mono fun final => Or.imp (first.append racked left) Lost.without

theorem sweep_cleared (racked : Racked others stored pool node inode) (pagesToFree index : Nat)
    (above : ∀ entry ∈ inode.matching tag, index ≤ entry.1)
    (front : ∀ entry ∈ inode.matching tag, Astray entry → ∀ other ∈ inode.pageTree.entries, other.1 < entry.1 → other ∈ inode.matching tag)
    (next : Code cpus) :
    Inevitable (Progress.step lzo task)
      (fun final => Cleared others stored pool node inode ((inode.matching tag).take pagesToFree) held next final ∨ Lost inode final)
      ⟨pool, held, .sweep node index pagesToFree tag next⟩ := by
  induction pagesToFree using Nat.strong_induction_on generalizing pool stored inode index with
  | h pagesToFree ih =>
    have batch : (inode.gangLookup index tag).take pagesToFree = ((inode.matching tag).take (min pagesToFree freeBatch)).map
        fun entry => entry.2.ptr := by
      rw [InodeRb.gangLookup_above above, ← List.map_take, List.take_take]
    have inside (count : Nat) (entry : Nat × Item) (member : entry ∈ (inode.matching tag).take count) : entry ∈ inode.pageTree.entries :=
      InodeRb.matching_inside (List.mem_of_mem_take member)
    have sorted (count : Nat) : ((inode.matching tag).take count).Pairwise fun one other => one.1 < other.1 :=
      (inode.matching_sorted tag).sublist (List.take_sublist count _)
    have ahead (count : Nat) (entry : Nat × Item) (member : entry ∈ (inode.matching tag).take count) (astray : Astray entry)
      (other : Nat × Item)
        (there : other ∈ inode.pageTree.entries) (lower : other.1 < entry.1) : other ∈ (inode.matching tag).take count :=
      mem_take_of_lower (inode.matching_sorted tag) member (front entry (List.mem_of_mem_take member) astray other there lower) lower
    refine .one (fun _ => by rw [Progress.step, Pool.advance, racked.here]; rfl) ?_
    simp only [freeBatchOf, batch, List.length_map, List.length_take]
    split
    next further =>
      -- a full batch, and more to free
      obtain ⟨more, full⟩ := further
      have whole : min pagesToFree freeBatch = freeBatch := by omega
      have fewer : pagesToFree - freeBatch < pagesToFree := Nat.sub_lt (by omega) freeBatch_pos
      rw [full, whole]
      refine (freeObjects_cleared racked _ (inside _) (sorted _) (ahead _) _).trans fun between reached => ?_
      rcases reached with first | lost
      swap
      · exact .here (.inr lost)
      obtain ⟨middle, _, _⟩ := between
      obtain rfl := first.held
      obtain rfl := first.code
      have left := inode.matching_take tag freeBatch
      have behind (entry : Nat × Item) (member : entry ∈ (inode.without ((inode.matching tag).take freeBatch)).matching tag) :
          index + 1 ≤ entry.1 :=
        InodeRb.matching_behind above freeBatch_pos (left ▸ member)
      have still (entry : Nat × Item) (member : entry ∈ (inode.without ((inode.matching tag).take freeBatch)).matching tag)
        (astray : Astray entry)
          (other : Nat × Item) (there : other ∈ (inode.without ((inode.matching tag).take freeBatch)).pageTree.entries)
            (lower : other.1 < entry.1) :
          other ∈ (inode.without ((inode.matching tag).take freeBatch)).matching tag := by
        have old := SortedMap.mem_eraseAll.mp there
        have matched := front entry (List.mem_of_mem_drop (left ▸ member)) astray other old.1 lower
        exact List.mem_filter.mpr ⟨there, (List.mem_filter.mp matched).2⟩
      have rest := ih (pagesToFree - freeBatch) fewer first.racked (index + 1) behind still
      rw [left] at rest
      have parts : (inode.matching tag).take pagesToFree =
          (inode.matching tag).take freeBatch ++ ((inode.matching tag).drop freeBatch).take (pagesToFree - freeBatch) := by
        rw [← List.take_add, Nat.add_sub_cancel' (by omega)]
      rw [parts]
      exact rest.mono fun final => Or.imp
        (first.append racked fun entry member => InodeRb.matching_inside (left ▸ List.mem_of_mem_take member)) Lost.without
    next ends =>
      -- the quota is used up, or the batch was the last one
      have all : (inode.matching tag).take pagesToFree = (inode.matching tag).take (min pagesToFree freeBatch) := by
        refine List.take_eq_take_iff.mpr ?_
        omega
      rw [all]
      exact freeObjects_cleared racked _ (inside _) (sorted _) (ahead _) next

theorem sweep_swept (shelved : Shelved others stored pool node inode) (pagesToFree index : Nat)
    (above : ∀ entry ∈ inode.matching tag, index ≤ entry.1) (next : Code cpus) :
    Inevitable (Progress.step lzo task) (Swept others stored pool node inode ((inode.matching tag).take pagesToFree) held next)
      ⟨pool, held, .sweep node index pagesToFree tag next⟩ := by
  have sure (entry : Nat × Item) (member : entry ∈ inode.pageTree.entries) : ¬ Astray entry := (shelved.decodes entry member).not_astray
  refine (sweep_cleared shelved.racked pagesToFree index above
    (fun entry member astray => absurd astray (sure entry (InodeRb.matching_inside member))) next).mono ?_
  rintro final (cleared | ⟨_, entry, member, astray⟩)
  · refine ⟨cleared.held, cleared.code, cleared.sheds, cleared.racked.here, cleared.racked.backed, fun entry member => ?_⟩
    exact cleared.racked.decodes member (sure entry (SortedMap.mem_eraseAll.mp member).1)
  · exact absurd astray (sure entry member)

/-- The loop ends, having deleted the entries of the lowest indices that the lookup
finds, as many as asked for, and freed each of them once. -/
theorem freeInodePages_lowest (shelved : Shelved others stored pool node inode) (lzo : Lzo) (task : Nat) (held : List Nat)
    (pagesToFree : Nat) (tag : Tag)
    (next : Code cpus) :
    ∃ gone left, gone ++ left = inode.matching tag ∧ gone.length = min pagesToFree (inode.matching tag).length ∧
      (∀ one ∈ gone, ∀ other ∈ left, one.1 < other.1) ∧
      Inevitable (Progress.step lzo task) (Swept others stored pool node inode gone held next)
        ⟨pool, held, zcacheFreeInodePages node pagesToFree tag next⟩ := by
  have parts := List.take_append_drop pagesToFree (inode.matching tag)
  have sorted := inode.matching_sorted tag
  rw [← parts] at sorted
  exact ⟨_, _, parts, List.length_take, (List.pairwise_append.mp sorted).2.2,
    sweep_swept shelved pagesToFree 0 (fun _ _ => Nat.zero_le _) next⟩

end Sweeps

section Sample
local instance sweepsArch : Arch := Arch.x64

/-- The first page of the inode is stored in an object, the fourth is full of zeros. -/
def sampleShelf : InodeRb where
  pageTree := (SortedMap.empty.insert 0 ⟨zcacheXvLocationToPtr ⟨1, 4⟩, true⟩).insert 3 ⟨zcacheIndexToPtr 3, false⟩
  treeLock := some 0
  refcount := 2
  inodeNo := 7

def samplePool : Pool 1 where
  inodeTree := SortedMap.empty.insert 7 0
  nodes := Function.update (fun _ => none) 0 (some sampleShelf)
  created := 1
  memlimit := 8192
  xv := sampleObject.state
  stats := fun _ => fun | .pagesZero => 1 | .pagesStored => 1 | .comprSize => 92

theorem samplePool_shelved : Shelved ∅ (fun storage => storage = .object ⟨1, 4⟩ 100) samplePool 0 sampleShelf where
  here := rfl
  backed := by
    have empty : Backed ∅ emptyPool fun _ => False := Backed.create _
    have refused : (sampleObject.ret : Int) ≠ -enomem := by decide +kernel
    rcases empty.takeObject (show 100 ≤ 4088 by decide) firstPage with same | ⟨_, _, backed, _⟩
    · exact absurd (congrArg MallocResult.ret same) refused
    · have location : (xvMalloc emptyPool 100 firstPage).location = ⟨1, 4⟩ := by decide +kernel
      rw [location] at backed
      exact backed.congr fun storage => (iff_of_eq (false_or _)).symm
  decodes := by
    have header : sampleObject.state.memory.load 1 4 wordBytes = 0 := by decide +kernel
    have entries : sampleShelf.pageTree.entries = [(0, ⟨4100, true⟩), (3, ⟨14, false⟩)] := by decide
    rw [entries]
    rintro entry member
    rcases List.mem_pair.mp member with rfl | rfl
    · exact ⟨100, rfl, by decide, header⟩
    · exact show 14 >>> zcacheZeroPageIndexShift = 3 by decide

def longShelf : InodeRb where
  pageTree := (List.range 20).foldl (fun tree index => tree.insert (index + 4) ⟨zcacheIndexToPtr (index + 4), false⟩) sampleShelf.pageTree
  treeLock := some 0
  refcount := 2
  inodeNo := 7

def longPool : Pool 1 := { samplePool with nodes := Function.update (fun _ => none) 0 (some longShelf) }

theorem longPool_shelved : Shelved ∅ (fun storage => storage = .object ⟨1, 4⟩ 100) longPool 0 longShelf where
  here := rfl
  backed := samplePool_shelved.backed
  decodes := by
    have entries : ∀ entry ∈ longShelf.pageTree.entries, entry ∈ sampleShelf.pageTree.entries ∨
        entry.2.object = none ∧ entry.2.ptr >>> zcacheZeroPageIndexShift = entry.1 := by decide +kernel
    intro entry member
    rcases entries entry member with old | ⟨mark, decoded⟩
    · exact samplePool_shelved.decodes entry old
    · rw [Decodes, mark]
      exact decoded

/-- A quota of 18 takes a batch of 16 and two entries of the next. -/
theorem freeInodePages_lowest_sample : ∃ gone left, gone ++ left = longShelf.matching .invalid ∧ gone.length = 18 ∧ left.length = 4 ∧
    (∀ one ∈ gone, ∀ other ∈ left, one.1 < other.1) ∧
    Inevitable (Progress.step Lzo.literal 0)
    (Swept ∅ (fun storage => storage = .object ⟨1, 4⟩ 100) longPool 0 longShelf gone [0] (.done .returned))
      ⟨longPool, [0], zcacheFreeInodePages 0 18 .invalid (.done .returned)⟩ := by
  have length : (longShelf.matching .invalid).length = 22 := by decide +kernel
  obtain ⟨gone, left, parts, count, lower, swept⟩ := freeInodePages_lowest longPool_shelved Lzo.literal 0 [0] 18 .invalid (.done .returned)
  rw [length] at count
  have rest := congrArg List.length parts
  rw [List.length_append, length, count] at rest
  exact ⟨gone, left, parts, count, by omega, lower, swept⟩

end Sample
end Compcache.Zcache
