import Compcache.Proofs.ZcacheSections
import Compcache.ZcacheContents

/-! Rules for the loops over many pages and many nodes. -/

namespace Compcache.Zcache
open Library Library.PagedMemory Library.PerCpu Library.Runs Xvmalloc

/-- The entries `zcache_free_inode_pages` is after: those a lookup by the tag goes
through, as many as asked for. -/
def victims (pages : SortedMap Stock) (tag : Tag) (pagesToFree : Nat) : List (Nat × Stock) :=
  (pages.entries.filter fun entry => tag = .invalid ∨ (tag = .nonzeroPage ∧ entry.2.location.isSome)).take pagesToFree

def spared (pages : SortedMap Stock) (tag : Tag) (pagesToFree : Nat) : SortedMap Stock :=
  pages.eraseAll ((victims pages tag pagesToFree).map Prod.fst)

theorem victims_sublist (pages : SortedMap Stock) (tag : Tag) (quota : Nat) : (victims pages tag quota).Sublist pages.entries :=
  (List.take_sublist ..).trans List.filter_sublist

section Walks
variable [Arch] {cpus : Nat} {others : Finset Page} {desk : Desk} {pool after : Pool cpus} {inodeNo node : Nat} {inode : InodeRb}
    {pages : SortedMap Stock}
  {tag : Tag} {quota : Nat}

/-- No mark is out of reach of its own index. -/
def Near (pages : SortedMap Stock) : Prop := ∀ {index}, pages.find? index = some .mark →
    index < 2 ^ (bitsPerLong - zcacheZeroPageIndexShift)

theorem Kept.stocked (kept : Kept others desk pool) (idle : desk.hand = none) (stocked : desk.shelves.find? inodeNo = some pages)
    (present : pool.nodes node = some inode) (items : inode.pageTree = pages.mapValues Stock.item) :
    Stocked others (Holds desk.shelves) pool node inode (pages.mapValues fun _ => Stock.location) where
  here := present
  backed := by
    refine kept.stores.backed.congr fun storage => ?_
    rw [idle]
    exact (or_iff_left (by rintro ⟨⟩)).symm
  entries := by
    rw [items]
    show List.map _ _ = List.map _ (List.map _ _)
    rw [List.map_map]
    rfl
  objects := by
    intro index location member
    obtain ⟨⟨second, stock⟩, inside, same⟩ := List.mem_map.mp member
    have here := SortedMap.mem_entries.mp inside
    cases stock with
    | mark => cases same
    | object there size =>
      cases same
      have found := (NestedMap.lookup_row stocked _).trans here
      obtain ⟨large, header, _⟩ := kept.stores.sound found
      exact ⟨size, .of_slot found rfl, large, header⟩

theorem Kept.all_read (kept : Kept others desk pool) (idle : desk.hand = none) (stocked : desk.shelves.find? inodeNo = some pages)
    (present : pool.nodes node = some inode) (items : inode.pageTree = pages.mapValues Stock.item) (near : Near pages)
    {index : Nat} {stock : Stock} (member : (index, stock) ∈ pages.entries) : Reads pool index stock.location := by
  have here := SortedMap.mem_entries.mp member
  have shelved := kept.stocked idle stocked present items
  refine (shelved.reads_iff (List.mem_map.mpr ⟨(index, stock), member, rfl⟩)).mpr ?_
  cases stock with
  | mark => exact near here
  | object location size => exact (kept.stores.sound ((NestedMap.lookup_row stocked index).trans here)).2.2

theorem matching_victims (items : inode.pageTree = pages.mapValues Stock.item) (tag : Tag) (quota : Nat) :
    (inode.matching tag).take quota = (victims pages tag quota).map fun entry => (entry.1, entry.2.item entry.1) := by
  have kind (index : Nat) (stock : Stock) : (stock.item index).nonzeroPage = stock.location.isSome := by cases stock <;> rfl
  rw [InodeRb.matching, items, victims, List.map_take]
  refine congrArg (List.take quota) ?_
  show (pages.entries.map _).filter _ = _
  rw [List.filter_map]
  refine congrArg (List.map _) (List.filter_congr fun entry _ => ?_)
  rw [Function.comp_apply, kind]

theorem Reads.leads {index : Nat} {stock : Stock} (reads : Reads pool index stock.location) :
    (stock.item index).object = stock.location := by
  rw [Item.object, Stock.item, reads.kind]
  cases place : stock.location with
  | none => rfl
  | some location =>
    rw [place] at reads
    rw [Option.isNone_some, if_neg Bool.false_ne_true, reads.location location rfl]

theorem Kept.item_counts (kept : Kept others desk pool) {index : Nat} {stock : Stock}
    (here : NestedMap.lookup desk.shelves inodeNo index = some stock)
    (reads : Reads pool index stock.location) (stat : Stat) : (stock.item index).counts pool.xv.memory stat = stock.counts stat := by
  have leads := reads.leads
  cases stock with
  | mark => cases stat <;> simp [Item.counts, leads, Stock.location, Stock.counts]
  | object location size =>
    have recorded : xvGetObjectSize pool.xv.memory location.page location.offset = size :=
      kept.stores.backed.object_size (.inl (.of_slot here rfl))
    cases stat <;> simp [Item.counts, leads, Stock.location, Stock.counts, recorded]

omit [Arch] in
theorem lookup_spared (stocked : desk.shelves.find? inodeNo = some pages) (tag : Tag) (quota other second : Nat) :
    NestedMap.lookup (desk.shelves.insert inodeNo (spared pages tag quota)) other second =
      if other = inodeNo ∧ second ∈ (victims pages tag quota).map Prod.fst then none else NestedMap.lookup desk.shelves other second :=
  NestedMap.lookup_eraseAll stocked ..

omit [Arch] in
theorem lookup_spared_some {other second : Nat} {stock : Stock} (stocked : desk.shelves.find? inodeNo = some pages)
    (found : NestedMap.lookup (desk.shelves.insert inodeNo (spared pages tag quota)) other second = some stock) :
    ¬ (other = inodeNo ∧ second ∈ (victims pages tag quota).map Prod.fst) ∧ NestedMap.lookup desk.shelves other second = some stock := by
  rw [lookup_spared stocked] at found
  split at found
  next => cases found
  next elsewhere => exact ⟨elsewhere, found⟩

/-- The storage of the other pages is what the entries of the victims do not lead to. -/
theorem Kept.holds_spared (kept : Kept others desk pool) (stocked : desk.shelves.find? inodeNo = some pages)
    (reads : ∀ {index stock}, (index, stock) ∈ pages.entries → Reads pool index stock.location) (tag : Tag) (quota : Nat)
    (storage : Storage) :
    Holds (desk.shelves.insert inodeNo (spared pages tag quota)) storage ↔
      leftOf (Holds desk.shelves) ((victims pages tag quota).map fun entry => (entry.1, entry.2.item entry.1)) storage := by
  have inside {entry : Nat × Stock} (member : entry ∈ victims pages tag quota) : entry ∈ pages.entries :=
    (victims_sublist pages tag quota).subset member
  have slot {index : Nat} {stock : Stock} (chosen : (index, stock) ∈ victims pages tag quota) :
      NestedMap.lookup desk.shelves inodeNo index = some stock :=
    (NestedMap.lookup_row stocked index).trans (SortedMap.mem_entries.mp (inside chosen))
  constructor
  · rintro ⟨other, second, stock, found, lies⟩
    obtain ⟨kept', before⟩ := lookup_spared_some stocked found
    refine ⟨.of_slot before lies, fun entry member holds => kept' ?_⟩
    obtain ⟨⟨index, another⟩, chosen, rfl⟩ := List.mem_map.mp member
    obtain ⟨location, size, rfl⟩ := Holds.object (.of_slot before lies)
    have leads : another.location = some location := (reads (inside chosen)).leads.symm.trans holds
    cases another with
    | mark => cases leads
    | object place recorded =>
      cases leads
      have one : Holds desk.shelves (.object location size) := .of_slot before lies
      have two : Holds desk.shelves (.object location recorded) := .of_slot (slot chosen) rfl
      obtain rfl : recorded = size := (kept.stores.backed.object_size (.inl two)).symm.trans (kept.stores.backed.object_size (.inl one))
      obtain ⟨rfl, rfl⟩ := kept.stores.single before (slot chosen) lies rfl
      exact ⟨rfl, List.mem_map_of_mem chosen⟩
  · rintro ⟨⟨other, second, stock, found, lies⟩, free⟩
    refine ⟨other, second, stock, ?_, lies⟩
    rw [lookup_spared stocked, if_neg]
    · exact found
    · rintro ⟨rfl, listed⟩
      obtain ⟨⟨index, another⟩, chosen, rfl⟩ := List.mem_map.mp listed
      obtain rfl : stock = another := Option.some.inj (found.symm.trans (slot chosen))
      have leads := (reads (inside chosen)).leads
      cases stock with
      | mark => cases lies
      | object location size =>
        obtain rfl := Option.some.inj lies
        exact free _ (List.mem_map_of_mem chosen) leads

theorem Kept.cleared {next : Code cpus} {final : Progress cpus} (kept : Kept others desk pool) (here : desk.tree.find? inodeNo = some node)
    (stocked : desk.shelves.find? inodeNo = some pages) (reason : node ∈ desk.held ∨ desk.leaving = some node) (idle : desk.hand = none)
    (shelf : Shelf desk.held desk.locked desk.leaving inodeNo node pages inode)
    (reads : ∀ {index stock}, (index, stock) ∈ pages.entries → Reads pool index stock.location)
    (cleared : Cleared others (Holds desk.shelves) pool node inode ((victims pages tag quota).map fun entry =>
      (entry.1, entry.2.item entry.1)) desk.held next final) :
    Kept others { desk with shelves := desk.shelves.insert inodeNo (spared pages tag quota) } final.pool := by
  have keys : ((victims pages tag quota).map fun entry => (entry.1, entry.2.item entry.1)).map Prod.fst =
      (victims pages tag quota).map Prod.fst := by
    rw [List.map_map]
    rfl
  have change :=
    kept.linked.change here (spared pages tag quota)
    (inode.without ((victims pages tag quota).map fun entry => (entry.1, entry.2.item entry.1)))
    desk.held desk.locked ⟨by rw [InodeRb.without, keys, shelf.stocked, spared, SortedMap.mapValues_eraseAll], shelf.number, shelf.refcount,
      shelf.unlocked, fun _ => reason⟩
    (fun _ _ => rfl) fun _ _ => id
  have left := kept.holds_spared stocked reads tag quota
  have bytes (storage : Storage) (lies : Holds (desk.shelves.insert inodeNo (spared pages tag quota)) storage) :
      storage.bytes final.pool.xv.memory = storage.bytes pool.xv.memory := cleared.bytes storage ((left storage).mp lies)
  refine ⟨?_, ⟨?_, ?_, ?_, ?_⟩, ?_, ?_, ?_, ?_⟩
  · exact change.congr cleared.sheds.nodes cleared.sheds.inodeTree cleared.sheds.created rfl
  · refine cleared.racked.backed.congr fun storage => ?_
    rw [idle, ← left]
    exact or_iff_left (by rintro ⟨⟩)
  · exact fun found => (kept.stores.sound (lookup_spared_some stocked found).2).congr fun storage lies =>
      bytes storage (.of_slot found lies)
  · exact fun one two => kept.stores.single (lookup_spared_some stocked one).2 (lookup_spared_some stocked two).2
  · intro storage held
    rw [idle] at held
    cases held
  · intro index stock held
    rw [idle] at held
    cases held
  · rintro storage (lies | held)
    · exact (bytes storage lies).trans (kept.bytes storage (.inl ((left storage).mp lies).1))
    · rw [idle] at held
      cases held
  · intro stat
    have counts : ((victims pages tag quota).map fun entry => (entry.1, entry.2.item entry.1)).map
      (fun entry => entry.2.counts pool.xv.memory stat) =
        (victims pages tag quota).map fun entry => entry.2.counts stat := by
      rw [List.map_map]
      refine List.map_congr_left fun entry member => ?_
      have inside : entry ∈ pages.entries := (victims_sublist pages tag quota).subset member
      exact kept.item_counts ((NestedMap.lookup_row stocked _).trans (SortedMap.mem_entries.mp inside)) (reads inside) stat
    rw [cleared.sheds.counted, counts, kept.counted, countOf_insert stocked, SortedMap.sum_eraseAll (victims_sublist pages tag quota),
      spared]
    show _ = _ + desk.owed stat
    omega
  · exact cleared.sheds.memlimit.trans kept.memlimit

variable {lzo : Lzo} {task : Nat} {shows : Progress cpus → Prop}

theorem Promised.given {code : Code cpus} (later : ∀ pool : Pool cpus, Kept others desk pool → Promised lzo task others shows desk code) :
    Promised lzo task others shows desk code := fun pool kept => later pool kept pool kept

theorem Promised.freeInodePages {next : Code cpus} (here : desk.tree.find? inodeNo = some node)
    (stocked : desk.shelves.find? inodeNo = some pages)
    (reason : node ∈ desk.held ∨ desk.leaving = some node) (idle : desk.hand = none) (near : Near pages)
    (later : Promised lzo task others shows { desk with shelves := desk.shelves.insert inodeNo (spared pages tag quota) } next) :
    Promised lzo task others shows desk (zcacheFreeInodePages node quota tag next) := by
  intro pool kept
  obtain ⟨same, inode, again, present, shelf⟩ := kept.shelf here
  obtain rfl := Option.some.inj (stocked.symm.trans again)
  have reads {index : Nat} {stock : Stock} (member : (index, stock) ∈ pages.entries) : Reads pool index stock.location :=
    kept.all_read idle stocked present shelf.stocked near member
  have shelved : Shelved others (Holds desk.shelves) pool node inode := by
    refine (kept.stocked idle stocked present shelf.stocked).shelved fun page member => ?_
    obtain ⟨⟨index, stock⟩, inside, rfl⟩ := List.mem_map.mp member
    exact reads inside
  have sure (entry : Nat × Item) (member : entry ∈ inode.pageTree.entries) : ¬ Astray entry := (shelved.decodes entry member).not_astray
  refine (sweep_cleared shelved.racked quota 0 (fun _ _ => Nat.zero_le _)
    (fun entry member astray => absurd astray (sure entry (InodeRb.matching_inside member))) next).trans fun final reached => ?_
  rcases reached with cleared | ⟨_, entry, member, astray⟩
  · rw [matching_victims shelf.stocked] at cleared
    have kept' := kept.cleared here stocked reason idle shelf reads cleared
    obtain ⟨after, _, _⟩ := final
    obtain rfl := cleared.held
    obtain rfl := cleared.code
    exact later after kept'
  · exact absurd astray (sure entry member)

/-- Nothing is on the desk but references to these nodes. -/
structure Desk.Clear (desk : Desk) (held : List Nat) : Prop where
  hand : desk.hand = none
  held : desk.held = held
  locked : desk.locked = none
  leaving : desk.leaving = none
  owed : ∀ stat, desk.owed stat = 0

/-- The pages of some nodes that are in objects. -/
def objectsOf (nodes : List (Nat × SortedMap Stock)) : List (Nat × Nat) := NestedMap.listed (fun stock => stock.location.isSome) nodes

def Desk.stored (desk : Desk) : Nat := (objectsOf desk.shelves.entries).length

theorem countOf_stored (desk : Desk) : countOf desk.shelves .pagesStored = desk.stored := by
  rw [Desk.stored, objectsOf, ← NestedMap.total_listed]
  refine congrArg (NestedMap.total desk.shelves) (funext fun stock => ?_)
  cases stock <;> rfl

theorem Promised.countExcess {next : Nat → Code cpus} (clear : ∀ stat, desk.owed stat = 0)
    (later : Promised lzo task others shows desk (next (excessPages desk.memlimit desk.stored))) :
    Promised lzo task others shows desk (zcacheCountExcessPages next) := by
  have sum : countOf desk.shelves .pagesStored + desk.owed .pagesStored = desk.stored := by rw [clear, add_zero, countOf_stored]
  refine .loadMemlimit (.getStat (by rw [sum]; exact Int.natCast_nonneg _) ?_)
  rw [sum, Int.toNat_natCast]
  have same :
    (if desk.stored % 2 ^ 32 > desk.memlimit / pageSize % 2 ^ 32 then desk.stored % 2 ^ 32 - desk.memlimit / pageSize % 2 ^ 32 else 0) =
      excessPages desk.memlimit desk.stored := by
    rw [excessPages]
    split
    next => rfl
    next few => omega
  simp only [same]
  exact later

theorem Promised.done {reply : Reply} (shown : ∀ pool : Pool cpus, Kept others desk pool → shows ⟨pool, desk.held, .done reply⟩) :
    Promised lzo task others shows desk (.done reply) := fun pool kept => .here (shown pool kept)

omit [Arch] in
theorem victims_nonzero (pages : SortedMap Stock) (quota inodeNo : Nat) :
    (victims pages .nonzeroPage quota).map (fun page => (inodeNo, page.1)) =
      ((pages.entries.filter fun page => page.2.location.isSome).map fun page => (inodeNo, page.1)).take quota := by
  rw [victims, ← List.map_take]
  refine congrArg (List.map _) (congrArg (List.take quota) (List.filter_congr fun page _ => ?_))
  simp

theorem Desk.stored_spared {after : Desk} (stocked : desk.shelves.find? inodeNo = some pages)
    (same : countOf after.shelves .pagesStored = countOf (desk.shelves.insert inodeNo (spared pages .nonzeroPage quota)) .pagesStored) :
    after.stored + (victims pages .nonzeroPage quota).length = desk.stored := by
  have ones : (victims pages .nonzeroPage quota).map (fun entry => entry.2.counts .pagesStored) =
      (victims pages .nonzeroPage quota).map fun _ => (1 : Int) := by
    refine List.map_congr_left fun entry member => ?_
    have object := (List.mem_filter.mp (List.mem_of_mem_take member)).2
    obtain ⟨index, stock⟩ := entry
    cases stock with
    | mark => simp [Stock.location] at object
    | object location size => rfl
  have sum : pages.sum (fun _ stock => stock.counts .pagesStored) = _ := SortedMap.sum_eraseAll (victims_sublist pages .nonzeroPage quota)
  rw [ones, List.map_const', List.sum_replicate] at sum
  rw [countOf_stored, countOf_insert stocked, countOf_stored, spared] at same
  simp only [mul_one, Int.nsmul_eq_mul] at sum
  omega

/-- A node has been gone through for pages in objects, and left. -/
structure Desk.Evicted (desk : Desk) (inodeNo node : Nat) (pages : SortedMap Stock) (quota : Nat) (after : Desk) : Prop where
  lookup : ∀ other second, NestedMap.lookup after.shelves other second =
    if other = inodeNo ∧ second ∈ (victims pages .nonzeroPage quota).map Prod.fst then none else NestedMap.lookup desk.shelves other second
  elsewhere : ∀ other, other ≠ inodeNo → after.shelves.find? other = desk.shelves.find? other ∧ after.tree.find? other =
    desk.tree.find? other
  behind : after.shelves.beyond inodeNo = desk.shelves.beyond inodeNo
  stored : after.stored + (victims pages .nonzeroPage quota).length = desk.stored
  clear : after.Clear (desk.held.erase node)
  memlimit : after.memlimit = desk.memlimit
  bytes : after.bytes = desk.bytes

def Desk.Evicts (desk : Desk) (objects : List (Nat × Nat)) (quota : Nat) (after : Desk) : Prop :=
  ∀ other second, NestedMap.lookup after.shelves other second =
    if (other, second) ∈ objects.take quota then none else NestedMap.lookup desk.shelves other second

omit [Arch] in
theorem Desk.Evicted.evicts {middle after : Desk} (stocked : desk.shelves.find? inodeNo = some pages)
    (evicted : desk.Evicted inodeNo node pages quota middle)
    (rest : middle.Evicts (objectsOf (middle.shelves.beyond inodeNo)) (quota - (victims pages .nonzeroPage quota).length) after) :
    desk.Evicts (objectsOf (desk.shelves.atLeast inodeNo)) quota after := by
  intro other second
  have own : objectsOf (desk.shelves.atLeast inodeNo) =
      ((pages.entries.filter fun page => page.2.location.isSome).map fun page => (inodeNo, page.1)) ++
          objectsOf (middle.shelves.beyond inodeNo) := by
    rw [objectsOf, SortedMap.atLeast_found stocked, NestedMap.listed_cons, evicted.behind]
    rfl
  have left : quota - (victims pages .nonzeroPage quota).length =
      quota - ((pages.entries.filter fun page => page.2.location.isSome).map fun page => (inodeNo, page.1)).length := by
    have taken := congrArg List.length (victims_nonzero pages quota inodeNo)
    rw [List.length_map, List.length_take] at taken
    omega
  have parts : (other, second) ∈ (objectsOf (desk.shelves.atLeast inodeNo)).take quota ↔
      (other = inodeNo ∧ second ∈ (victims pages .nonzeroPage quota).map Prod.fst) ∨
        (other, second) ∈ (objectsOf (middle.shelves.beyond inodeNo)).take (quota - (victims pages .nonzeroPage quota).length) := by
    rw [own, List.take_append, ← victims_nonzero, ← left, List.mem_append]
    refine or_congr_left ?_
    simp only [List.mem_map, Prod.mk.injEq]
    constructor
    · rintro ⟨page, member, same, rfl⟩
      exact ⟨same.symm, page, member, rfl⟩
    · rintro ⟨rfl, page, member, rfl⟩
      exact ⟨page, member, rfl, rfl⟩
  rw [rest, evicted.lookup, if_congr parts rfl rfl]
  by_cases here : other = inodeNo ∧ second ∈ (victims pages .nonzeroPage quota).map Prod.fst
  · rw [if_pos here, ite_self]
    exact (if_pos (Or.inl here)).symm
  · rw [if_neg here]
    exact if_congr (or_iff_right here).symm rfl rfl

omit [Arch] in
theorem excessPages_less {memlimit stored taken left : Nat} (few : taken ≤ excessPages memlimit stored) (sum : left + taken = stored) :
    excessPages memlimit left = excessPages memlimit stored - taken := by
  simp only [excessPages] at few ⊢
  omega

/-- No mark of the pool is out of reach of its own index. -/
def Desk.Near (desk : Desk) : Prop := ∀ {inodeNo index}, NestedMap.lookup desk.shelves inodeNo index = some .mark →
    index < 2 ^ (bitsPerLong - zcacheZeroPageIndexShift)

theorem Desk.Evicted.near {after : Desk} (evicted : desk.Evicted inodeNo node pages quota after) (near : desk.Near) : after.Near := by
  intro other second found
  rw [evicted.lookup] at found
  split at found
  next => cases found
  next => exact near found

theorem Promised.evict {held : List Nat} {next : Code cpus} (clear : desk.Clear held) (here : desk.tree.find? inodeNo = some node)
    (stocked : desk.shelves.find? inodeNo = some pages) (once : desk.held.count node = 1) (near : desk.Near)
    (later : ∀ after, desk.Evicted inodeNo node pages quota after → Promised lzo task others shows after next) :
    Promised lzo task others shows desk (.lock node (zcacheFreeInodePages node quota .nonzeroPage (leaveNode node next))) := by
  have placed : (desk.shelves.insert inodeNo (spared pages .nonzeroPage quota)).find? inodeNo = some (spared pages .nonzeroPage quota) :=
    SortedMap.find?_insert_self ..
  have nearHere : Near pages := fun found => near ((NestedMap.lookup_row stocked _).trans found)
  have holding : node ∈ desk.held := List.count_pos_iff.mp (by omega)
  refine .lock here clear.locked (.freeInodePages here stocked (.inl holding) clear.hand nearHere
    (.leave here placed once rfl (fun _ => later _ ?_) fun empty => later _ ?_))
  · refine ⟨fun _ _ => lookup_spared stocked .., fun other different => ⟨SortedMap.find?_insert_ne _ _ different, rfl⟩,
      SortedMap.beyond_insert .., ?_,
      ⟨clear.hand, rfl, rfl, clear.leaving, clear.owed⟩, rfl, rfl⟩
    exact Desk.stored_spared stocked rfl
  · refine ⟨fun other second => ?_, fun other different => ⟨?_, SortedMap.find?_erase_ne _ different⟩, ?_, Desk.stored_spared stocked ?_,
      ⟨clear.hand, rfl, rfl, clear.leaving, clear.owed⟩, rfl, rfl⟩
    · exact (NestedMap.lookup_emptied placed empty ..).trans (lookup_spared stocked ..)
    · exact (SortedMap.find?_erase_ne _ different).trans (SortedMap.find?_insert_ne _ _ different)
    · exact (SortedMap.beyond_erase ..).trans (SortedMap.beyond_insert ..)
    · show countOf ((desk.shelves.insert inodeNo (spared pages .nonzeroPage quota)).erase inodeNo) _ = _
      rw [countOf, NestedMap.total_erase placed, SortedMap.sum, empty, List.map_nil, List.sum_nil, sub_zero]
      rfl

theorem Promised.shrinkFrom (clear : desk.Clear [node]) (here : desk.tree.find? inodeNo = some node)
    (stocked : desk.shelves.find? inodeNo = some pages) (full : pages.entries ≠ []) (near : desk.Near)
    (finish : ∀ after : Desk, after.Clear [] → after.memlimit = desk.memlimit → after.bytes = desk.bytes →
      desk.Evicts (objectsOf (desk.shelves.atLeast inodeNo)) (excessPages desk.memlimit desk.stored) after →
      Promised lzo task others shows after (.done .returned)) :
    Promised lzo task others shows desk (.shrinkFrom node) := by
  generalize size : (desk.shelves.beyond inodeNo).length = count
  induction count using Nat.strong_induction_on generalizing desk inodeNo node pages with
  | h count ih =>
    have once : desk.held.count node = 1 := by rw [clear.held, List.count_singleton_self]
    have left : desk.held.erase node = [] := by rw [clear.held, List.erase_cons_head]
    refine fun pool kept => .one (fun _ => rfl) ((?_ : Promised lzo task others shows desk (shrinkNode node)) pool kept)
    refine .countExcess clear.owed ?_
    split
    next enough =>
      refine .lock here clear.locked (.leave here stocked once rfl (fun _ => ?_) fun empty => absurd empty full)
      refine finish _ ⟨clear.hand, left, rfl, clear.leaving, clear.owed⟩ rfl rfl fun other second => ?_
      rw [enough, List.take_zero, if_neg List.not_mem_nil]
    next more =>
      refine .given fun pool kept => .acquireNext here (fun last => ?_) fun following node' found => ?_
      · refine .evict clear here stocked once near fun middle evicted =>
          finish middle (left ▸ evicted.clear) evicted.memlimit evicted.bytes ?_
        refine evicted.evicts stocked fun other second => ?_
        have behind : middle.shelves.beyond inodeNo = [] := by
          rw [evicted.behind]
          exact SortedMap.beyond_eq_nil fun other later => kept.linked.absent (SortedMap.next_eq_none.mp last other later)
        rw [behind, objectsOf, NestedMap.listed, List.flatMap_nil, List.take_nil, if_neg List.not_mem_nil]
      · obtain ⟨later, there, between⟩ := SortedMap.next_eq_some found
        have apart : node' ≠ node := kept.linked.node_ne here there (Nat.ne_of_gt later)
        obtain ⟨pages', inode, stocked', _, shelf⟩ := kept.shelf there
        have full' : pages'.entries ≠ [] := by
          intro empty
          rcases shelf.reason empty with holds | leaves
          · rw [clear.held] at holds
            exact apart (List.mem_singleton.mp holds)
          · rw [clear.leaving] at leaves
            cases leaves
        have once' : (node' :: desk.held).count node = 1 := by rw [List.count_cons_of_ne apart, once]
        have left' : (node' :: desk.held).erase node = [node'] := by rw [List.erase_cons_tail (by simpa using apart), left]
        have clear' : Desk.Clear { desk with held := node' :: desk.held } (node' :: desk.held) :=
          ⟨clear.hand, rfl, clear.locked, clear.leaving, clear.owed⟩
        refine .evict clear' here stocked once' near fun middle evicted => ?_
        have gap (other : Nat) (lower : inodeNo < other) (upper : other < following) : middle.shelves.find? other = none :=
          (evicted.elsewhere other (Nat.ne_of_gt lower)).1.trans (kept.linked.absent (between other lower upper))
        have onward := evicted.elsewhere following (Nat.ne_of_gt later)
        have placed' : middle.shelves.find? following = some pages' := onward.1.trans stocked'
        have ahead : middle.shelves.beyond inodeNo = (following, pages') :: middle.shelves.beyond following :=
          (SortedMap.beyond_eq_atLeast later gap).trans (SortedMap.atLeast_found placed')
        have fewer : (middle.shelves.beyond following).length < count := by
          rw [← size, ← evicted.behind, ahead, List.length_cons]
          exact Nat.lt_succ_self _
        refine ih _ fewer (left' ▸ evicted.clear) (onward.2.trans there) placed' full' (evicted.near near)
          (fun after clear'' limit bytes rest => ?_) rfl
        refine finish after clear'' (limit.trans evicted.memlimit) (bytes.trans evicted.bytes)
          (show Desk.Evicts { desk with held := node' :: desk.held } _ _ _ from evicted.evicts stocked ?_)
        have few : (victims pages .nonzeroPage (excessPages desk.memlimit desk.stored)).length ≤ excessPages desk.memlimit desk.stored :=
          List.length_take_le ..
        rw [evicted.memlimit, excessPages_less few evicted.stored, ← SortedMap.beyond_eq_atLeast later gap] at rest
        exact rest

omit [Arch] in
theorem spared_all (few : pages.entries.length ≤ uintMax) : (spared pages .invalid uintMax).entries = [] := by
  have all : victims pages .invalid uintMax = pages.entries := by
    rw [victims, List.filter_eq_self.mpr fun _ _ => decide_eq_true (.inl rfl), List.take_of_length_le few]
  rw [spared, all]
  refine List.filter_eq_nil_iff.mpr fun entry member => ?_
  rw [decide_eq_true_eq, not_not]
  exact List.mem_map_of_mem member

theorem Promised.leaving {code : Code cpus} (none_ : desk.leaving = none)
    (later : Promised lzo task others shows { desk with leaving := some node } code) :
    Promised lzo task others shows desk code := by
  intro pool kept
  refine later pool ⟨⟨kept.linked.tree, fun here => ?_, kept.linked.absent, kept.linked.listed, kept.linked.fresh⟩, kept.stores,
    kept.sound, kept.bytes,
    kept.counted, kept.memlimit⟩
  obtain ⟨pages, inode, stocked, present, shelf⟩ := kept.shelf here
  refine ⟨pages, inode, stocked, present, shelf.stocked, shelf.number, shelf.refcount, shelf.unlocked, fun empty => .inl ?_⟩
  refine (shelf.reason empty).resolve_right fun leaves => ?_
  rw [none_] at leaves
  cases leaves

theorem Promised.flushFrom (clear : desk.Clear []) (here : desk.tree.find? inodeNo = some node) (near : desk.Near)
    (few : ∀ {other pages}, desk.shelves.find? other = some pages → pages.entries.length ≤ uintMax)
    (finish : ∀ after : Desk, after.Clear [] → after.memlimit = desk.memlimit → after.bytes = desk.bytes →
      (∀ other second, NestedMap.lookup after.shelves other second =
        if inodeNo ≤ other then none else NestedMap.lookup desk.shelves other second) →
      Promised lzo task others shows after (.done .returned)) :
    Promised lzo task others shows desk (.flushFrom node) := by
  generalize size : (desk.shelves.beyond inodeNo).length = count
  induction count using Nat.strong_induction_on generalizing desk inodeNo node with
  | h count ih =>
    refine .given fun pool kept => ?_
    obtain ⟨pages, _, stocked, _, _⟩ := kept.shelf here
    have nearHere : Near pages := fun found => near ((NestedMap.lookup_row stocked _).trans found)
    have placed : (desk.shelves.insert inodeNo (spared pages .invalid uintMax)).find? inodeNo = some (spared pages .invalid uintMax) :=
      SortedMap.find?_insert_self ..
    refine fun pool kept => .one (fun _ => rfl) ((?_ : Promised lzo task others shows desk (flushNode node)) pool kept)
    refine .peek (fun kept => kept.select_next here) ?_
    refine .leaving clear.leaving (.freeInodePages here stocked (.inr rfl) clear.hand nearHere
      (.eraseNode here placed (spared_all (few stocked)) rfl ?_))
    have gone (other second : Nat) :
      NestedMap.lookup ((desk.shelves.insert inodeNo (spared pages .invalid uintMax)).erase inodeNo) other second =
        if other = inodeNo then none else NestedMap.lookup desk.shelves other second := by
      rw [NestedMap.lookup_emptied placed (spared_all (few stocked)), NestedMap.lookup_insert, SortedMap.entries_eq_nil.mp
        (spared_all (few stocked))]
    have clear' : Desk.Clear { desk with
        tree := desk.tree.erase inodeNo, shelves := (desk.shelves.insert inodeNo (spared pages .invalid uintMax)).erase inodeNo, leaving :=
            none } [] :=
      ⟨clear.hand, clear.held, clear.locked, rfl, clear.owed⟩
    cases found : desk.tree.next inodeNo with
    | none =>
      refine finish _ clear' rfl rfl fun other second => (gone other second).trans ?_
      rcases Nat.lt_trichotomy inodeNo other with later | rfl | lower
      · rw [if_neg (Nat.ne_of_gt later), if_pos (Nat.le_of_lt later)]
        exact NestedMap.lookup_missing (kept.linked.absent (SortedMap.next_eq_none.mp found other later)) second
      · rw [if_pos rfl, if_pos (Nat.le_refl _)]
      · rw [if_neg (Nat.ne_of_lt lower), if_neg (Nat.not_le_of_lt lower)]
    | some entry =>
      obtain ⟨following, node'⟩ := entry
      obtain ⟨later, there, between⟩ := SortedMap.next_eq_some found
      obtain ⟨pages', _, stocked', _, _⟩ := kept.shelf there
      have elsewhere {other : Nat} (different : other ≠ inodeNo) :
          ((desk.shelves.insert inodeNo (spared pages .invalid uintMax)).erase inodeNo).find? other = desk.shelves.find? other := by
        rw [SortedMap.find?_erase_ne _ different, SortedMap.find?_insert_ne _ _ different]
      have unseen {other : Nat} (lower : inodeNo < other) (upper : other < following) : desk.shelves.find? other = none :=
        kept.linked.absent (between other lower upper)
      have ahead : ((desk.shelves.insert inodeNo (spared pages .invalid uintMax)).erase inodeNo).beyond inodeNo =
          (following, pages') :: _ :=
        (SortedMap.beyond_eq_atLeast later fun other lower upper => (elsewhere (Nat.ne_of_gt lower)).trans (unseen lower upper)).trans
          (SortedMap.atLeast_found ((elsewhere (Nat.ne_of_gt later)).trans stocked'))
      have fewer : (((desk.shelves.insert inodeNo (spared pages .invalid uintMax)).erase inodeNo).beyond following).length < count := by
        rw [SortedMap.beyond_erase, SortedMap.beyond_insert] at ahead
        rw [← size, ahead, List.length_cons]
        exact Nat.lt_succ_self _
      refine ih _ fewer clear' ((SortedMap.find?_erase_ne _ (Nat.ne_of_gt later)).trans there) (fun {other second} marked => ?_)
        (fun {other cells} found => ?_)
        (fun after clear'' limit bytes rest => finish after clear'' limit bytes fun other second => ?_) rfl
      · have marked := (gone other second).symm.trans marked
        split at marked
        next => cases marked
        next => exact near marked
      · have found : ((desk.shelves.insert inodeNo (spared pages .invalid uintMax)).erase inodeNo).find? other = some cells := found
        rcases Classical.em (other = inodeNo) with rfl | different
        · rw [SortedMap.find?_erase_self] at found
          cases found
        · exact few ((elsewhere different).symm.trans found)
      · refine (rest other second).trans ?_
        by_cases beyond : following ≤ other
        · rw [if_pos beyond, if_pos (Nat.le_trans (Nat.le_of_lt later) beyond)]
        · rw [if_neg beyond]
          refine (gone other second).trans ?_
          rcases Nat.lt_trichotomy inodeNo other with higher | rfl | lower
          · rw [if_neg (Nat.ne_of_gt higher), if_pos (Nat.le_of_lt higher)]
            exact NestedMap.lookup_missing (unseen higher (Nat.lt_of_not_le beyond)) second
          · rw [if_pos rfl, if_pos (Nat.le_refl _)]
          · rw [if_neg (Nat.ne_of_lt lower), if_neg (Nat.not_le_of_lt lower)]

end Walks
end Compcache.Zcache
