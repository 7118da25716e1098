import Compcache.Proofs.ZcacheShelves

/-! The steps of the operations, one at a time: a rule for each says what it does to
the shelves, to the nodes and their references, and to the counters. -/

namespace Compcache.Zcache
open Library Library.PagedMemory Library.PerCpu Library.Runs Xvmalloc

/-- A pool seen from the desk of the one task that uses it: its nodes by inode number
and their pages; the page in hand with its index, the references and the lock held, the
node that is about to go, and what the counters are ahead by. -/
structure Desk where
  tree : SortedMap Nat
  shelves : Shelves
  memlimit : Nat
  bytes : Storage → List UInt8
  hand : Option (Nat × Stock) := none
  held : List Nat := []
  locked : Option Nat := none
  leaving : Option Nat := none
  owed : Stat → Int := fun _ => 0

section Kept
variable [Arch] {cpus : Nat}

def countOf (shelves : Shelves) (stat : Stat) : Int := shelves.total fun stock => stock.counts stat

/-- A node and its pages. It may only be empty while somebody holds it, and when it is
about to go. -/
structure Shelf (held : List Nat) (locked leaving : Option Nat) (inodeNo node : Nat) (pages : SortedMap Stock) (inode : InodeRb) :
    Prop where
  stocked : inode.pageTree = pages.mapValues Stock.item
  number : inode.inodeNo = inodeNo
  refcount : inode.refcount = 1 + held.count node
  unlocked : locked ≠ some node → inode.treeLock = none
  reason : pages.entries = [] → node ∈ held ∨ leaving = some node

/-- The nodes of a pool. -/
structure Linked (desk : Desk) (pool : Pool cpus) : Prop where
  tree : pool.inodeTree = desk.tree
  shelf : ∀ {inodeNo node}, desk.tree.find? inodeNo = some node →
    ∃ pages inode, desk.shelves.find? inodeNo = some pages ∧ pool.nodes node = some inode ∧
      Shelf desk.held desk.locked desk.leaving inodeNo node pages inode
  absent : ∀ {inodeNo}, desk.tree.find? inodeNo = none → desk.shelves.find? inodeNo = none
  listed : ∀ {node inode}, pool.nodes node = some inode → desk.tree.find? inode.inodeNo = some node
  fresh : ∀ {node}, pool.created ≤ node → pool.nodes node = none

structure Kept (others : Finset Page) (desk : Desk) (pool : Pool cpus) : Prop where
  linked : Linked desk pool
  stores : Stores others desk.shelves (desk.hand.bind fun page => page.2.storage) pool.xv
  sound : ∀ {index stock}, desk.hand = some (index, stock) → stock.Sound pool.xv.memory index
  bytes : ∀ storage, Holds desk.shelves storage ∨ (desk.hand.bind fun page => page.2.storage) = some storage →
    storage.bytes pool.xv.memory = desk.bytes storage
  counted : ∀ stat, pool.stats.tally stat (List.finRange cpus) = countOf desk.shelves stat + desk.owed stat
  memlimit : pool.memlimit = desk.memlimit

variable {others : Finset Page} {desk : Desk} {pool after : Pool cpus} {inodeNo node index : Nat} {inode : InodeRb}
    {pages : SortedMap Stock}

theorem Linked.congr {other : Desk} (linked : Linked desk pool) (nodes : after.nodes = pool.nodes) (tree : after.inodeTree = pool.inodeTree)
    (created : after.created = pool.created)
    (same : (other.tree, other.shelves, other.held, other.locked, other.leaving) =
      (desk.tree, desk.shelves, desk.held, desk.locked, desk.leaving)) : Linked other after := by
  obtain ⟨sameTree, same⟩ := Prod.mk.inj same
  obtain ⟨sameShelves, same⟩ := Prod.mk.inj same
  obtain ⟨sameHeld, same⟩ := Prod.mk.inj same
  obtain ⟨sameLock, sameLeaving⟩ := Prod.mk.inj same
  constructor
  · rw [sameTree]
    exact tree.trans linked.tree
  · rw [sameTree, sameShelves, sameHeld, sameLock, sameLeaving, nodes]
    exact linked.shelf
  · rw [sameTree, sameShelves]
    exact linked.absent
  · rw [sameTree, nodes]
    exact linked.listed
  · rw [nodes, created]
    exact linked.fresh

theorem Linked.node_ne (linked : Linked desk pool) {other another : Nat} (here : desk.tree.find? inodeNo = some node)
    (there : desk.tree.find? other = some another) (different : other ≠ inodeNo) : another ≠ node := by
  rintro rfl
  obtain ⟨_, first, _, found, shelf⟩ := linked.shelf here
  obtain ⟨_, second, _, again, other⟩ := linked.shelf there
  obtain rfl := Option.some.inj (found.symm.trans again)
  exact different (other.number.symm.trans shelf.number)

theorem Linked.change (linked : Linked desk pool) (here : desk.tree.find? inodeNo = some node) (pages : SortedMap Stock) (inode : InodeRb)
    (held : List Nat) (locked : Option Nat) (shelf : Shelf held locked desk.leaving inodeNo node pages inode)
    (references : ∀ other, other ≠ node → held.count other = desk.held.count other)
    (locks : ∀ other, other ≠ node → locked ≠ some other → desk.locked ≠ some other) :
    Linked { desk with shelves := desk.shelves.insert inodeNo pages, held, locked } (pool.setNode node inode) := by
  refine ⟨linked.tree, ?_, ?_, ?_, ?_⟩
  · intro other another there
    rcases Classical.em (other = inodeNo) with rfl | different
    · obtain rfl := Option.some.inj (here.symm.trans there)
      exact ⟨pages, inode, SortedMap.find?_insert_self .., Function.update_self .., shelf⟩
    · have elsewhere := linked.node_ne here there different
      obtain ⟨found, old, stocked, present, kept⟩ := linked.shelf there
      refine ⟨found, old, ?_, (Function.update_of_ne elsewhere ..).trans present, kept.stocked, kept.number, ?_, ?_, fun empty => ?_⟩
      · rw [SortedMap.find?_insert_ne _ _ different]
        exact stocked
      · rw [references another elsewhere]
        exact kept.refcount
      · exact fun free => kept.unlocked (locks another elsewhere free)
      · refine (kept.reason empty).imp_left fun holding => ?_
        rw [← List.count_pos_iff, references another elsewhere]
        exact List.count_pos_iff.mpr holding
  · intro other missing
    rw [SortedMap.find?_insert_ne]
    · exact linked.absent missing
    · rintro rfl
      rw [here] at missing
      cases missing
  · intro other found there
    rcases Classical.em (other = node) with rfl | elsewhere
    · have same : (pool.setNode other inode).nodes other = some inode := Function.update_self ..
      obtain rfl := Option.some.inj (same.symm.trans there)
      rw [shelf.number]
      exact here
    · exact linked.listed ((Function.update_of_ne elsewhere ..).symm.trans there)
  · intro other beyond
    have elsewhere : other ≠ node := by
      rintro rfl
      obtain ⟨_, _, _, present, _⟩ := linked.shelf here
      rw [linked.fresh beyond] at present
      cases present
    exact (Function.update_of_ne elsewhere ..).trans (linked.fresh beyond)

theorem Kept.shelf (kept : Kept others desk pool) (here : desk.tree.find? inodeNo = some node) :
    ∃ pages inode, desk.shelves.find? inodeNo = some pages ∧ pool.nodes node = some inode ∧
      Shelf desk.held desk.locked desk.leaving inodeNo node pages inode :=
  kept.linked.shelf here

theorem countOf_insert (stocked : desk.shelves.find? inodeNo = some pages) (changed : SortedMap Stock) (stat : Stat) :
    countOf (desk.shelves.insert inodeNo changed) stat =
      countOf desk.shelves stat - pages.sum (fun _ stock => stock.counts stat) + changed.sum fun _ stock => stock.counts stat :=
  NestedMap.total_insert stocked changed _

theorem sum_takes (pages : SortedMap Stock) (index : Nat) (stat : Stat) :
    (pages.erase index).sum (fun _ stock => stock.counts stat) =
      pages.sum (fun _ stock => stock.counts stat) - (pages.find? index).elim 0 fun stock => stock.counts stat := by
  cases found : pages.find? index with
  | none =>
    rw [SortedMap.erase_absent found, Option.elim_none, sub_zero]
  | some stock =>
    rw [Option.elim_some, SortedMap.sum_erase found]
    omega

theorem Kept.congr (kept : Kept others desk pool) {tree : SortedMap Nat} {held : List Nat} {locked : Option Nat}
    (linked : Linked { desk with tree, held, locked } after) (xv : after.xv = pool.xv) (stats : after.stats = pool.stats)
    (memlimit : after.memlimit = pool.memlimit) :
    Kept others { desk with tree, held, locked } after := by
  refine ⟨linked, ?_, ?_, ?_, ?_, memlimit.trans kept.memlimit⟩
  · rw [xv]
    exact kept.stores
  · rw [xv]
    exact kept.sound
  · rw [xv]
    exact kept.bytes
  · rw [stats]
    exact kept.counted

/-! The rules. Each gives the desk behind one step. -/

section Rules
variable {lzo : Lzo} {task : Nat} {shows : Progress cpus → Prop}

/-- What is promised from a piece of code on, whatever the pool, as long as the desk is this one. -/
def Promised (lzo : Lzo) (task : Nat) (others : Finset Page) (shows : Progress cpus → Prop) (desk : Desk) (code : Code cpus) : Prop :=
  ∀ pool, Kept others desk pool → Inevitable (Progress.step lzo task) shows ⟨pool, desk.held, code⟩

theorem Promised.addStat {stat : Stat} {value : Int} {next : Code cpus}
    (later : Promised lzo task others shows { desk with owed := fun other => desk.owed other + if other = stat then value else 0 } next) :
    Promised lzo task others shows desk (.addStat stat value next) := by
  intro pool kept
  refine .step _ (fun _ => rfl) fun cpu => later _ ?_
  refine ⟨kept.linked.congr rfl rfl rfl rfl, kept.stores, kept.sound, kept.bytes, fun other => ?_, kept.memlimit⟩
  rw [tally_all, kept.counted, add_assoc]

theorem Promised.getStat {stat : Stat} {next : Nat → Code cpus} (positive : 0 ≤ countOf desk.shelves stat + desk.owed stat)
    (later : Promised lzo task others shows desk (next (countOf desk.shelves stat + desk.owed stat).toNat)) :
    Promised lzo task others shows desk (zcacheGetStat stat next) := by
  intro pool kept
  have sums (left : List (Fin cpus)) (value : Int) (total : value + pool.stats.tally stat left =
    countOf desk.shelves stat + desk.owed stat) :
      Inevitable (Progress.step lzo task) shows ⟨pool, desk.held, .sumStat stat left value next⟩ := by
    induction left generalizing value with
    | nil =>
      rw [tally_nil, add_zero] at total
      subst total
      exact .one (fun _ => by rw [Progress.step, Pool.advance, if_neg (by omega)]) (later pool kept)
    | cons cpu rest ih =>
      rw [tally_cons, ← add_assoc] at total
      exact .one (fun _ => rfl) (ih _ total)
  exact sums _ 0 ((zero_add _).trans (kept.counted stat))

theorem Promised.loadMemlimit {next : Nat → Code cpus} (later : Promised lzo task others shows desk (next desk.memlimit)) :
    Promised lzo task others shows desk (.load .memlimit next) := by
  intro pool kept
  refine .one (fun _ => rfl) ?_
  rw [Pool.read, kept.memlimit]
  exact later pool kept

theorem Promised.setMemlimit {memlimit : Nat} {next : Code cpus} (later : Promised lzo task others shows { desk with memlimit } next) :
    Promised lzo task others shows desk (.setMemlimit memlimit next) := by
  intro pool kept
  exact .one (fun _ => rfl) (later _ ⟨kept.linked.congr rfl rfl rfl rfl, kept.stores, kept.sound, kept.bytes, kept.counted, rfl⟩)

theorem Kept.acquire (kept : Kept others desk pool) (here : desk.tree.find? inodeNo = some node) :
    ∃ after, pool.krefGet node = some after ∧ Kept others { desk with held := node :: desk.held } after := by
  obtain ⟨pages, inode, stocked, present, shelf⟩ := kept.shelf here
  refine ⟨_, by rw [Pool.krefGet, present, Option.map_some], ?_⟩
  have linked := kept.linked.change here pages { inode with refcount := inode.refcount + 1 } (node :: desk.held) desk.locked
    ⟨shelf.stocked, shelf.number, by rw [List.count_cons_self, shelf.refcount, Nat.add_assoc], shelf.unlocked,
      fun _ => .inl List.mem_cons_self⟩
    (fun other elsewhere => List.count_cons_of_ne elsewhere.symm) fun _ _ => id
  rw [SortedMap.insert_same stocked] at linked
  exact kept.congr linked rfl rfl rfl

theorem Kept.select_inode (kept : Kept others desk pool) (inodeNo : Nat) :
    pool.select (.inode inodeNo) = some (desk.tree.find? inodeNo) := by
  rw [Pool.select, kept.linked.tree]

theorem Kept.select_first (kept : Kept others desk pool) : pool.select .first = some (desk.tree.first.map Prod.snd) := by
  rw [Pool.select, kept.linked.tree]

theorem Kept.select_next (kept : Kept others desk pool) (here : desk.tree.find? inodeNo = some node) :
    pool.select (.next node) = some ((desk.tree.next inodeNo).map Prod.snd) := by
  obtain ⟨_, inode, _, present, shelf⟩ := kept.shelf here
  rw [Pool.select, present, Option.map_some, kept.linked.tree, shelf.number]

theorem Promised.acquire {which : Which} (found : Option (Nat × Nat)) {next : Option Nat → Code cpus}
    (selects : ∀ {pool : Pool cpus}, Kept others desk pool → pool.select which = some (found.map Prod.snd))
    (known : ∀ {inodeNo node}, found = some (inodeNo, node) → desk.tree.find? inodeNo = some node)
    (absent : found = none → Promised lzo task others shows desk (next none))
    (present : ∀ inodeNo node, found = some (inodeNo, node) → Promised lzo task others shows { desk with held := node :: desk.held }
      (next (some node))) :
    Promised lzo task others shows desk (.acquire which next) := by
  intro pool kept
  have selected := selects kept
  cases result : found with
  | none => exact .one (fun _ => by rw [Progress.step, Pool.advance, selected, result]; rfl) (absent result pool kept)
  | some entry =>
    obtain ⟨inodeNo, node⟩ := entry
    obtain ⟨after, taken, kept'⟩ := kept.acquire (known result)
    refine .one (fun _ => ?_) (present inodeNo node result after kept')
    rw [Progress.step, Pool.advance, selected, result, Option.map_some, Option.bind_some]
    exact congrArg (Option.map fun pool => (⟨pool, node :: desk.held, next (some node)⟩ : Progress cpus)) taken

theorem Promised.acquireInode {next : Option Nat → Code cpus}
    (absent : desk.tree.find? inodeNo = none → Promised lzo task others shows desk (next none))
    (present : ∀ node, desk.tree.find? inodeNo = some node → Promised lzo task others shows { desk with held := node :: desk.held }
      (next (some node))) :
    Promised lzo task others shows desk (.acquire (.inode inodeNo) next) := by
  refine .acquire ((desk.tree.find? inodeNo).map fun node => (inodeNo, node)) (fun kept => ?_) (fun here => ?_) (fun none_ => ?_)
    fun other node here => ?_
  · rw [kept.select_inode, Option.map_map]
    exact congrArg some (congrFun Option.map_id.symm _)
  · obtain ⟨_, found, same⟩ := Option.map_eq_some_iff.mp here
    cases same
    exact found
  · exact absent (Option.map_eq_none_iff.mp none_)
  · obtain ⟨_, found, same⟩ := Option.map_eq_some_iff.mp here
    cases same
    exact present node found

theorem Promised.acquireFirst {next : Option Nat → Code cpus}
    (absent : desk.tree.first = none → Promised lzo task others shows desk (next none))
    (present : ∀ inodeNo node, desk.tree.first = some (inodeNo, node) →
      Promised lzo task others shows { desk with held := node :: desk.held } (next (some node))) :
    Promised lzo task others shows desk (.acquire .first next) :=
  .acquire desk.tree.first (fun kept => kept.select_first) (fun here => (SortedMap.first_eq_some here).1) absent present

theorem Promised.acquireNext {next : Option Nat → Code cpus} (here : desk.tree.find? inodeNo = some node)
    (absent : desk.tree.next inodeNo = none → Promised lzo task others shows desk (next none))
    (present : ∀ inodeNo' node', desk.tree.next inodeNo = some (inodeNo', node') →
      Promised lzo task others shows { desk with held := node' :: desk.held } (next (some node'))) :
    Promised lzo task others shows desk (.acquire (.next node) next) :=
  .acquire (desk.tree.next inodeNo) (fun kept => kept.select_next here) (fun found => (SortedMap.next_eq_some found).2.1) absent present

theorem Promised.peek {which : Which} {found : Option Nat} {next : Option Nat → Code cpus}
    (selects : ∀ {pool : Pool cpus}, Kept others desk pool → pool.select which = some found)
    (later : Promised lzo task others shows desk (next found)) :
    Promised lzo task others shows desk (.peek which next) := by
  intro pool kept
  exact .one (fun _ => by rw [Progress.step, Pool.advance, selects kept, Option.map_some]) (later pool kept)

theorem Promised.lock {next : Code cpus} (here : desk.tree.find? inodeNo = some node) (free : desk.locked = none)
    (later : Promised lzo task others shows { desk with locked := some node } next) :
    Promised lzo task others shows desk (.lock node next) := by
  intro pool kept
  obtain ⟨pages, inode, stocked, present, shelf⟩ := kept.shelf here
  have unlocked : inode.treeLock = none := shelf.unlocked (by rw [free]; rintro ⟨⟩)
  refine .one (fun _ => by rw [Progress.step, Pool.advance, present, Option.bind_some, if_pos unlocked]) (later _ ?_)
  have linked := kept.linked.change here pages { inode with treeLock := some task } desk.held (some node)
    ⟨shelf.stocked, shelf.number, shelf.refcount, fun other => absurd rfl other, shelf.reason⟩ (fun _ _ => rfl)
      fun _ _ _ => by rw [free]; rintro ⟨⟩
  rw [SortedMap.insert_same stocked] at linked
  exact kept.congr linked rfl rfl rfl

theorem Promised.unlock {next : Code cpus} (here : desk.tree.find? inodeNo = some node) (mine : desk.locked = some node)
    (later : Promised lzo task others shows { desk with locked := none } next) :
    Promised lzo task others shows desk (.unlock node next) := by
  intro pool kept
  obtain ⟨pages, inode, stocked, present, shelf⟩ := kept.shelf here
  refine .one (fun _ => by rw [Progress.step, Pool.advance, present, Option.map_some]) (later _ ?_)
  have linked := kept.linked.change here pages { inode with treeLock := none } desk.held none
    ⟨shelf.stocked, shelf.number, shelf.refcount, fun _ => rfl, shelf.reason⟩ (fun _ _ => rfl)
    fun other elsewhere _ same => elsewhere (Option.some.inj (same.symm.trans mine))
  rw [SortedMap.insert_same stocked] at linked
  exact kept.congr linked rfl rfl rfl

/-- What a pointer for a page in hand looks like, NULL for none. -/
def ptrOf (hand : Option (Nat × Stock)) : Nat := hand.elim 0 fun page => (page.2.item page.1).ptr

theorem Promised.delete {next : Nat → Code cpus} (here : desk.tree.find? inodeNo = some node)
    (stocked : desk.shelves.find? inodeNo = some pages)
    (holding : node ∈ desk.held) (empty : desk.hand = none)
    (later : Promised lzo task others shows
      { desk with
        shelves := desk.shelves.insert inodeNo (pages.erase index)
        hand := (pages.find? index).map fun stock => (index, stock)
        owed := fun stat => desk.owed stat + (pages.find? index).elim 0 fun stock => stock.counts stat }
      (next (ptrOf ((pages.find? index).map fun stock => (index, stock))))) :
    Promised lzo task others shows desk (.radixDelete node index next) := by
  intro pool kept
  obtain ⟨same, inode, again, present, shelf⟩ := kept.shelf here
  obtain rfl := Option.some.inj (stocked.symm.trans again)
  have found : inode.lookup index = ptrOf ((pages.find? index).map fun stock => (index, stock)) := by
    rw [InodeRb.lookup, shelf.stocked, SortedMap.find?_mapValues]
    cases pages.find? index <;> rfl
  refine .one (fun _ => by rw [Progress.step, Pool.advance, present, Option.map_some, found]) (later _ ?_)
  have linked := kept.linked.change here (pages.erase index) { inode with pageTree := inode.pageTree.erase index } desk.held desk.locked
    ⟨by rw [shelf.stocked, SortedMap.mapValues_erase], shelf.number, shelf.refcount, shelf.unlocked, fun _ => .inl holding⟩
      (fun _ _ => rfl) fun _ _ => id
  have stores := kept.stores
  rw [empty, Option.bind_none] at stores
  have taken := stores.take (NestedMap.lookup_erase stocked index)
  have hand : (((pages.find? index).map fun stock => (index, stock)).bind fun page => page.2.storage) =
      (NestedMap.lookup desk.shelves inodeNo index).bind Stock.storage := by
    rw [NestedMap.lookup_row stocked]
    cases pages.find? index <;> rfl
  refine ⟨linked.congr rfl rfl rfl rfl, hand ▸ taken, ?_, ?_, ?_, kept.memlimit⟩
  · intro second stock held
    obtain ⟨_, found, same⟩ := Option.map_eq_some_iff.mp held
    cases same
    exact kept.stores.sound ((NestedMap.lookup_row stocked index).trans found)
  · intro storage lies
    refine kept.bytes storage (.inl ?_)
    rcases lies with ⟨other, second, stock, found, there⟩ | held
    · rw [NestedMap.lookup_erase stocked] at found
      split at found
      next => cases found
      next => exact ⟨other, second, stock, found, there⟩
    · obtain ⟨stock, found, there⟩ := Option.bind_eq_some_iff.mp (hand.symm.trans held)
      exact .of_slot found there
  · intro stat
    show pool.stats.tally stat (List.finRange cpus) = _
    rw [kept.counted, countOf_insert stocked, sum_takes]
    show _ = _ + (desk.owed stat + _)
    omega

theorem item_mark (index : Nat) : zcacheIsZeroPage (Item.storing index none).ptr = true := by
  rw [zcacheIsZeroPage_iff, show (Item.storing index none).ptr = zcacheIndexToPtr index from rfl, zcacheIndexToPtr_eq]
  omega

/-- A pointer to an object of the pool can be told from a mark, and leads there. -/
theorem Kept.reads (kept : Kept others desk pool) {location : Location} {size : Nat}
    (hand : desk.hand = some (index, .object location size)) :
    Reads pool index (some location) := by
  obtain ⟨large, header, low⟩ := kept.sound hand
  have here : Holds desk.shelves (.object location size) ∨ (desk.hand.bind fun page => page.2.storage) = some (.object location size) :=
    .inr (by rw [hand]; rfl)
  obtain ⟨aligned, behind⟩ := kept.stores.backed.object_aligned here
  have inside := kept.stores.backed.object_inside here
  have room : 0 < objheaderSize := by
    rw [objheaderSize, wordBytes]
    rcases Arch.bitsPerLong_cases with width | width <;> simp [width]
  exact (reads_object aligned behind (by omega) header).mpr low

theorem ptrOf_mark (index : Nat) : ptrOf (some (index, .mark)) ≠ 0 ∧ zcacheIsZeroPage (ptrOf (some (index, .mark))) = true := by
  have mark : zcacheIsZeroPage (ptrOf (some (index, .mark))) = true := item_mark index
  refine ⟨fun null => ?_, mark⟩
  rw [null] at mark
  cases mark

theorem Kept.ptrOf_object (kept : Kept others desk pool) {location : Location} {size : Nat}
    (hand : desk.hand = some (index, .object location size)) :
    ptrOf desk.hand ≠ 0 ∧ zcacheIsZeroPage (ptrOf desk.hand) = false ∧ zcachePtrToXvLocation (ptrOf desk.hand) = location := by
  have reads := kept.reads hand
  rw [hand]
  exact ⟨reads.real, reads.kind, reads.location location rfl⟩

theorem Promised.xvFree {next : Code cpus} {location : Location} {size : Nat} (hand : desk.hand = some (index, .object location size))
    (later : Promised lzo task others shows { desk with hand := none } next) :
    Promised lzo task others shows desk (.xvFree location next) := by
  intro pool kept
  have stores := kept.stores
  rw [hand] at stores
  obtain ⟨freed, released, stores, bytes⟩ := stores.release
  refine .one (fun _ => by rw [Progress.step, Pool.advance, released, Option.map_some]) (later _ ?_)
  refine ⟨kept.linked.congr rfl rfl rfl rfl, stores, by rintro _ _ ⟨⟩, fun storage lies => ?_, kept.counted, kept.memlimit⟩
  have holds : Holds desk.shelves storage := lies.resolve_right (by rintro ⟨⟩)
  exact (bytes storage holds).trans (kept.bytes storage (.inl holds))

theorem Promised.freePage {next : Code cpus}
    (later : Promised lzo task others shows
      { desk with hand := none, owed := fun stat => desk.owed stat - desk.hand.elim 0 fun page => page.2.counts stat } next) :
    Promised lzo task others shows desk (zcacheFreePage (ptrOf desk.hand) next) := by
  cases hand : desk.hand with
  | none =>
    rw [hand] at later
    simp only [Option.elim_none, sub_zero] at later
    have same : { desk with hand := none } = desk := by rw [← hand]
    rw [same] at later
    exact later
  | some page =>
    obtain ⟨index, stock⟩ := page
    rw [hand] at later
    cases stock with
    | mark =>
      obtain ⟨real, mark⟩ := ptrOf_mark index
      rw [zcacheFreePage, if_neg real, if_pos mark, zcacheDecPages, if_pos rfl]
      refine .addStat ?_
      intro pool kept
      refine later pool ⟨kept.linked.congr rfl rfl rfl rfl, ?_, by rintro _ _ ⟨⟩, fun storage lies => ?_, fun stat => ?_, kept.memlimit⟩
      · have stores := kept.stores
        simp only [hand] at stores
        exact stores
      · exact kept.bytes storage (.inl (lies.resolve_right (by rintro ⟨⟩)))
      · rw [kept.counted]
        cases stat <;> simp [Stock.counts, sub_eq_add_neg]
    | object location size =>
      intro pool kept
      obtain ⟨real, object, leads⟩ := kept.ptrOf_object hand
      rw [hand] at real object leads
      have recorded : xvGetObjectSize pool.xv.memory location.page location.offset = size :=
        kept.stores.backed.object_size (.inr (by rw [hand]; rfl))
      rw [zcacheFreePage, if_neg real, object, if_neg Bool.false_ne_true, leads]
      refine .one (fun _ => rfl) ?_
      rw [Pool.read, recorded]
      refine (Promised.addStat (.xvFree hand (.addStat ?_)) : Promised lzo task others shows desk _) pool kept
      intro pool kept
      refine later pool ⟨kept.linked.congr rfl rfl rfl rfl, kept.stores, by rintro _ _ ⟨⟩, fun storage lies => ?_,
        fun stat => ?_, kept.memlimit⟩
      · exact kept.bytes storage (.inl (lies.resolve_right (by rintro ⟨⟩)))
      · rw [kept.counted]
        cases stat <;> simp [Stock.counts, sub_eq_add_neg]

theorem Promised.loadIndex {next : Nat → Code cpus} {location : Location} {size : Nat}
    (hand : desk.hand = some (index, .object location size))
    (later : Promised lzo task others shows desk (next index)) :
    Promised lzo task others shows desk (.load (.objectIndex location) next) := by
  intro pool kept
  obtain ⟨_, header, _⟩ := kept.sound hand
  refine .one (fun _ => rfl) ?_
  rw [Pool.read, header]
  exact later pool kept

theorem Promised.decompress {next : List UInt8 → Code cpus} {location : Location} {size : Nat}
    (hand : desk.hand = some (index, .object location size))
    (later : Promised lzo task others shows desk (next (lzo.decompress ((desk.bytes (.object location size)).drop objheaderSize)).2)) :
    Promised lzo task others shows desk (.decompress location next) := by
  intro pool kept
  have here : (desk.hand.bind fun page => page.2.storage) = some (.object location size) := by
    rw [hand]
    rfl
  have recorded : xvGetObjectSize pool.xv.memory location.page location.offset = size := kept.stores.backed.object_size (.inr here)
  have content : pool.xv.memory.read location.page (location.offset + objheaderSize) (size - objheaderSize) =
      (desk.bytes (.object location size)).drop objheaderSize := by
    rw [← kept.bytes _ (.inr here)]
    exact (PageBytes.drop_read ..).symm
  refine .one (fun _ => rfl) ?_
  rw [recorded, content]
  exact later pool kept

theorem Promised.krefPut {next : Code cpus} (here : desk.tree.find? inodeNo = some node) (stocked : desk.shelves.find? inodeNo = some pages)
    (holding : node ∈ desk.held) (full : pages.entries ≠ [])
    (later : Promised lzo task others shows { desk with held := desk.held.erase node } next) :
    Promised lzo task others shows desk (.krefPut node next) := by
  intro pool kept
  obtain ⟨same, inode, again, present, shelf⟩ := kept.shelf here
  obtain rfl := Option.some.inj (stocked.symm.trans again)
  have positive := List.count_pos_iff.mpr holding
  have more : inode.refcount ≠ 1 := by
    rw [shelf.refcount]
    omega
  refine .one (fun _ => by rw [Progress.step, Pool.advance, Pool.krefPut, present, Option.bind_some, if_neg more, Option.map_some])
    (later _ ?_)
  have linked := kept.linked.change here pages { inode with refcount := inode.refcount - 1 } (desk.held.erase node) desk.locked
    ⟨shelf.stocked, shelf.number, by show inode.refcount - 1 = _; rw [shelf.refcount, List.count_erase_self]; omega, shelf.unlocked,
      fun empty => absurd empty full⟩
    (fun other elsewhere => List.count_erase_of_ne elsewhere) fun _ _ => id
  rw [SortedMap.insert_same stocked] at linked
  exact kept.congr linked rfl rfl rfl

theorem Kept.remove (kept : Kept others desk pool) (here : desk.tree.find? inodeNo = some node)
    (stocked : desk.shelves.find? inodeNo = some pages)
    (empty : pages.entries = []) (nodes : after.nodes = Function.update pool.nodes node none)
    (tree : after.inodeTree = pool.inodeTree.erase inodeNo)
    (same : (after.created, after.memlimit, after.xv, after.stats) = (pool.created, pool.memlimit, pool.xv, pool.stats)) (held : List Nat)
    (locked leaving : Option Nat)
    (references : ∀ other, other ≠ node → held.count other = desk.held.count other) (locks : ∀ other, other ≠ node → locked ≠ some other →
      desk.locked ≠ some other)
    (leaves : ∀ other, other ≠ node → desk.leaving = some other → leaving = some other) :
    Kept others { desk with tree := desk.tree.erase inodeNo, shelves := desk.shelves.erase inodeNo, held, locked, leaving } after := by
  obtain ⟨sameCreated, same⟩ := Prod.mk.inj same
  obtain ⟨sameLimit, same⟩ := Prod.mk.inj same
  obtain ⟨sameXv, sameStats⟩ := Prod.mk.inj same
  have gone (other : Nat) : after.nodes other = if other = node then none else pool.nodes other := by rw [nodes, Function.update_apply]
  refine ⟨⟨?_, ?_, ?_, ?_, ?_⟩, ?_, ?_, ?_, ?_, sameLimit.trans kept.memlimit⟩
  · rw [tree, kept.linked.tree]
  · intro other another there
    rw [SortedMap.find?_erase] at there
    split at there
    next => cases there
    next different =>
      obtain ⟨found, old, stocked, present, kept'⟩ := kept.linked.shelf there
      have elsewhere := kept.linked.node_ne here there different
      refine ⟨found, old, ?_, ?_, kept'.stocked, kept'.number, ?_, fun free => kept'.unlocked (locks another elsewhere free),
        fun empty => ?_⟩
      · rw [SortedMap.find?_erase_ne _ different]
        exact stocked
      · exact (gone another).trans ((if_neg elsewhere).trans present)
      · rw [references another elsewhere]
        exact kept'.refcount
      · refine (kept'.reason empty).imp (fun holding => ?_) (leaves another elsewhere)
        rw [← List.count_pos_iff, references another elsewhere]
        exact List.count_pos_iff.mpr holding
  · intro other missing
    rw [SortedMap.find?_erase] at missing ⊢
    split
    next => rfl
    next different =>
      rw [if_neg different] at missing
      exact kept.linked.absent missing
  · intro other found there
    have present := (gone other).symm.trans there
    split at present
    next => cases present
    next elsewhere =>
      have known := kept.linked.listed present
      rw [SortedMap.find?_erase_ne _ fun same => ?_]
      · exact known
      · rw [same, here] at known
        exact elsewhere (Option.some.inj known).symm
  · intro other beyond
    refine (gone other).trans ?_
    rw [sameCreated] at beyond
    split
    next => rfl
    next => exact kept.linked.fresh beyond
  · rw [sameXv]
    exact kept.stores.congr (NestedMap.lookup_emptied stocked empty)
  · rw [sameXv]
    exact kept.sound
  · rw [sameXv]
    intro storage lies
    refine kept.bytes storage (lies.imp_left ?_)
    rintro ⟨other, second, stock, found, there⟩
    exact ⟨other, second, stock, (NestedMap.lookup_emptied stocked empty other second).symm.trans found, there⟩
  · intro stat
    have sum : pages.sum (fun _ stock => stock.counts stat) = 0 := by rw [SortedMap.sum, empty, List.map_nil, List.sum_nil]
    show after.stats.tally stat (List.finRange cpus) = countOf (desk.shelves.erase inodeNo) stat + desk.owed stat
    rw [sameStats, kept.counted, countOf, countOf, NestedMap.total_erase stocked, sum, sub_zero]

/-- A node that is locked and held once is left; it goes when it is empty. -/
theorem Promised.leave {next : Code cpus} (here : desk.tree.find? inodeNo = some node) (stocked : desk.shelves.find? inodeNo = some pages)
    (once : desk.held.count node = 1) (mine : desk.locked = some node)
    (full : pages.entries ≠ [] → Promised lzo task others shows { desk with held := desk.held.erase node, locked := none } next)
    (empty : pages.entries = [] → Promised lzo task others shows
      { desk with tree := desk.tree.erase inodeNo, shelves := desk.shelves.erase inodeNo, held := desk.held.erase node, locked := none }
        next) :
    Promised lzo task others shows desk (leaveNode node next) := by
  intro pool kept
  obtain ⟨same, inode, again, present, shelf⟩ := kept.shelf here
  obtain rfl := Option.some.inj (stocked.symm.trans again)
  have holding : node ∈ desk.held := List.count_pos_iff.mp (by omega)
  unfold leaveNode
  have bare : zcacheInodeIsEmpty inode = true ↔ pages.entries = [] := by
    rw [zcacheInodeIsEmpty, List.isEmpty_iff, shelf.stocked, SortedMap.mapValues_nil]
  rcases Classical.em (pages.entries = []) with none_ | some_
  · have two : inode.refcount = 2 := by rw [shelf.refcount, once]
    have linked : pool.inodeTree.find? inode.inodeNo = some node := by rw [kept.linked.tree, shelf.number, here]
    let isolated : Pool cpus := { pool.setNode node { inode with refcount := 1 } with inodeTree := pool.inodeTree.erase inode.inodeNo }
    have alone : isolated.nodes node = some { inode with refcount := 1 } := Function.update_self ..
    let unlocked : Pool cpus := isolated.setNode node { inode with refcount := 1, treeLock := none }
    have last : unlocked.nodes node = some { inode with refcount := 1, treeLock := none } := Function.update_self ..
    have first (cpu : Fin cpus) : Progress.step lzo task ⟨pool, desk.held, .isolateIfEmpty node (.unlock node (.krefPut node next))⟩ cpu =
        some ⟨isolated, desk.held, .unlock node (.krefPut node next)⟩ := by
      rw [Progress.step, Pool.advance, Pool.isolateIfEmpty, present, Option.bind_some, if_pos (bare.mpr none_),
        zcacheInodeIsolate, if_pos two,
        if_pos linked, Option.map_some]
    have second (cpu : Fin cpus) : Progress.step lzo task ⟨isolated, desk.held, .unlock node (.krefPut node next)⟩ cpu =
        some ⟨unlocked, desk.held, .krefPut node next⟩ := by
      rw [Progress.step, Pool.advance, alone, Option.map_some]
    have third (cpu : Fin cpus) : Progress.step lzo task ⟨unlocked, desk.held, .krefPut node next⟩ cpu =
        some ⟨unlocked.kfree node, desk.held.erase node, next⟩ := by
      have still : zcacheInodeIsEmpty { inode with refcount := 1, treeLock := none } = true := bare.mpr none_
      rw [Progress.step, Pool.advance, Pool.krefPut, last, Option.bind_some, if_pos rfl, if_pos still, Option.map_some]
    refine .one first (.one second (.one third (empty none_ _ ?_)))
    refine kept.remove here stocked none_ ?_ ?_ ?_ _ _ _ (fun other elsewhere => List.count_erase_of_ne elsewhere) ?_ fun _ _ => id
    · show Function.update (Function.update (Function.update pool.nodes node _) node _) node none = _
      rw [Function.update_idem, Function.update_idem]
    · rw [← shelf.number]
      rfl
    · rfl
    · intro other elsewhere _ same
      exact elsewhere (Option.some.inj (same.symm.trans mine))
  · refine .one (fun _ => by
      rw [Progress.step, Pool.advance, Pool.isolateIfEmpty, present, Option.bind_some, if_neg (some_ ∘ bare.mp), Option.map_some]) ?_
    exact (Promised.unlock here mine (.krefPut here stocked holding some_ (full some_)) : Promised lzo task others shows desk _) pool kept

theorem Promised.eraseNode {next : Code cpus} (here : desk.tree.find? inodeNo = some node)
    (stocked : desk.shelves.find? inodeNo = some pages)
    (empty : pages.entries = []) (leaves : desk.leaving = some node)
    (later : Promised lzo task others shows
      { desk with tree := desk.tree.erase inodeNo, shelves := desk.shelves.erase inodeNo, leaving := none } next) :
    Promised lzo task others shows desk (.eraseNode node next) := by
  intro pool kept
  obtain ⟨_, inode, _, present, shelf⟩ := kept.shelf here
  have linked : pool.inodeTree.find? inode.inodeNo = some node := by rw [kept.linked.tree, shelf.number, here]
  refine .one (fun _ => by rw [Progress.step, Pool.advance, Pool.eraseNode, present, Option.bind_some, if_pos linked, Option.map_some])
    (later _ ?_)
  refine kept.remove here stocked empty ?_ ?_ ?_ _ _ _ (fun _ _ => rfl) (fun _ _ => id) fun other elsewhere same => ?_
  · rfl
  · rw [← shelf.number]
  · rfl
  · exact absurd (Option.some.inj (same.symm.trans leaves)) elsewhere

theorem Promised.create {next : Nat → Code cpus} (absent : desk.tree.find? inodeNo = none) (idle : desk.held = [])
    (later : ∀ node, Promised lzo task others shows
      { desk with tree := desk.tree.insert inodeNo node, shelves := desk.shelves.insert inodeNo .empty, held := [node] } (next node)) :
    Promised lzo task others shows desk (.allocNode inodeNo fun node => .linkNode node next) := by
  intro pool kept
  have fresh : pool.nodes pool.created = none := kept.linked.fresh (Nat.le_refl _)
  have missing : pool.inodeTree.find? inodeNo = none := by rw [kept.linked.tree, absent]
  let added : Pool cpus := pool.addNode inodeNo
  have there : added.nodes pool.created = some ⟨.empty, none, 1, inodeNo⟩ := Function.update_self ..
  let linked : Pool cpus := Pool.setNode { added with inodeTree := added.inodeTree.insert inodeNo pool.created } pool.created
    ⟨.empty, none, 2, inodeNo⟩
  have link : added.linkNode pool.created = some (linked, pool.created) := by
    have missing : added.inodeTree.find? inodeNo = none := missing
    simp only [Pool.linkNode, there, Option.bind_some, missing, Pool.krefGet, Option.map_some]
    rfl
  have first (cpu : Fin cpus) : Progress.step lzo task ⟨pool, desk.held, .allocNode inodeNo fun node => .linkNode node next⟩ cpu =
      some ⟨added, pool.created :: desk.held, .linkNode pool.created next⟩ := rfl
  have second (cpu : Fin cpus) : Progress.step lzo task ⟨added, pool.created :: desk.held, .linkNode pool.created next⟩ cpu =
      some ⟨linked, [pool.created], next pool.created⟩ := by
    rw [Progress.step, Pool.advance, link, Option.map_some, idle, List.erase_cons_head]
  refine .one first (.one second (later pool.created linked ?_))
  have nodes (other : Nat) : linked.nodes other = if other = pool.created then some ⟨.empty, none, 2, inodeNo⟩ else pool.nodes other := by
    show Function.update (Function.update pool.nodes pool.created _) pool.created _ other = _
    rw [Function.update_idem, Function.update_apply]
  have none_ : desk.shelves.find? inodeNo = none := kept.linked.absent absent
  have slots (other second : Nat) : NestedMap.lookup (desk.shelves.insert inodeNo .empty) other second =
      NestedMap.lookup desk.shelves other second := by
    rw [NestedMap.lookup_insert]
    split
    next same =>
      rw [NestedMap.lookup, same, none_]
      rfl
    next => rfl
  refine ⟨⟨?_, ?_, ?_, ?_, ?_⟩, kept.stores.congr slots, kept.sound, ?_, ?_, kept.memlimit⟩
  · show pool.inodeTree.insert inodeNo pool.created = desk.tree.insert inodeNo pool.created
    rw [kept.linked.tree]
  · intro other another found
    rw [SortedMap.find?_insert] at found
    split at found
    next same =>
      cases found
      subst same
      refine ⟨.empty, _, SortedMap.find?_insert_self .., (nodes _).trans (if_pos rfl), rfl, rfl, ?_, fun _ => rfl, fun _ =>
        .inl (List.mem_singleton_self _)⟩
      rw [List.count_singleton_self]
    next different =>
      obtain ⟨pages, inode, stocked, present, shelf⟩ := kept.linked.shelf found
      have elsewhere : another ≠ pool.created := by
        rintro rfl
        rw [fresh] at present
        cases present
      refine ⟨pages, inode, ?_, (nodes _).trans ((if_neg elsewhere).trans present), shelf.stocked, shelf.number, ?_, shelf.unlocked,
        fun empty => ?_⟩
      · rw [SortedMap.find?_insert_ne _ _ different]
        exact stocked
      · rw [shelf.refcount, idle, List.count_singleton, beq_eq_false_iff_ne.mpr elsewhere.symm]
        rfl
      · refine (shelf.reason empty).imp_left ?_
        rw [idle]
        rintro ⟨⟩
  · intro other found
    rw [SortedMap.find?_insert] at found ⊢
    split at found
    next => cases found
    next different =>
      rw [if_neg different]
      exact kept.linked.absent found
  · intro other found present
    rw [nodes] at present
    split at present
    next same =>
      cases present
      rw [same]
      exact SortedMap.find?_insert_self ..
    next =>
      have known := kept.linked.listed present
      rw [SortedMap.find?_insert_ne]
      · exact known
      · intro same
        rw [same, absent] at known
        cases known
  · intro other beyond
    have beyond : pool.created + 1 ≤ other := beyond
    rw [nodes, if_neg (by omega)]
    exact kept.linked.fresh (by omega)
  · intro storage lies
    refine kept.bytes storage (lies.imp_left ?_)
    rintro ⟨other, second, stock, found, there⟩
    exact ⟨other, second, stock, (slots other second).symm.trans found, there⟩
  · intro stat
    show pool.stats.tally stat (List.finRange cpus) = countOf (desk.shelves.insert inodeNo .empty) stat + desk.owed stat
    rw [kept.counted, countOf, countOf, NestedMap.total_new none_]
    exact congrArg (· + desk.owed stat) (add_zero _).symm

theorem objheaderSize_word : objheaderSize ≤ 8 ∧ 256 ^ objheaderSize = 2 ^ bitsPerLong := by
  rw [objheaderSize, wordBytes]
  rcases Arch.bitsPerLong_cases with width | width <;> simp [width]

theorem copyIn_spec (memory : Memory Page) (location : Location) (index : Nat) (src : List UInt8) (word : index < 2 ^ bitsPerLong) :
    let written := (memory.store location.page location.offset wordBytes index).write location.page (location.offset + objheaderSize) src
    ChangesOnly (fun page address => page = location.page ∧ location.offset ≤ address ∧
      address < location.offset + (src.length + objheaderSize))
      memory written ∧
      written.load location.page location.offset wordBytes = index ∧
          written.read location.page (location.offset + objheaderSize) src.length = src := by
  have wide : wordBytes = objheaderSize := rfl
  refine ⟨?_, ?_, ?_⟩
  · refine (ChangesOnly.store _ _ _ _ _ fun address lower upper => ⟨rfl, lower, ?_⟩).trans
      (ChangesOnly.write _ _ _ _ fun address lower upper => ⟨rfl, ?_, ?_⟩)
    all_goals omega
  · have behind : ChangesOnly (fun page address => page = location.page ∧ location.offset + objheaderSize ≤ address)
        (memory.store location.page location.offset wordBytes index)
        ((memory.store location.page location.offset wordBytes index).write location.page (location.offset + objheaderSize) src) :=
      ChangesOnly.write _ _ _ _ fun address lower _ => ⟨rfl, lower⟩
    rw [behind.load, Memory.load_store, wide, objheaderSize_word.2, Nat.mod_eq_of_lt word]
    rintro address _ upper ⟨_, lower⟩
    omega
  · simp only [Memory.read, Memory.write, Memory.modify_same, PageBytes.read_write]

theorem Promised.store {rest : Option Location → Code cpus} {next : Location → Code cpus} {src : List UInt8} {allocator : NowaitAllocator}
    (copies : ∀ location, rest (some location) = .copyIn location index src (next location)) (idle : desk.hand = none)
    (small : src.length ≤ zcacheMaxPageSize) (word : index < 2 ^ bitsPerLong) (refused : Promised lzo task others shows desk (rest none))
    (served : ∀ location content, content.drop objheaderSize = src → ¬ Holds desk.shelves (.object location (src.length + objheaderSize)) →
      Promised lzo task others shows
        { desk with
          hand := some (index, .object location (src.length + objheaderSize))
          bytes := Function.update desk.bytes (.object location (src.length + objheaderSize)) content }
        (next location)) :
    Promised lzo task others shows desk (.xvMalloc (src.length + objheaderSize) allocator rest) := by
  intro pool kept
  have stores := kept.stores
  rw [idle, Option.bind_none] at stores
  have bound : src.length + objheaderSize ≤ 4088 := by
    have header := objheaderSize_word.1
    simp only [zcacheMaxPageSize, pageSize_eq] at small
    omega
  refine .one (fun _ => rfl) ?_
  rcases stores.obtain bound allocator with same | ⟨met, low, stores, bytes⟩
  · simp only [same]
    exact refused pool kept
  · generalize xvMalloc pool.xv (src.length + objheaderSize) allocator.pages = result at met low stores bytes
    obtain ⟨ret, location, xv⟩ := result
    obtain rfl : ret = 0 := met
    obtain ⟨changes, header, content⟩ := copyIn_spec xv.memory location index src word
    obtain ⟨stores, kept'⟩ := stores.change changes
    generalize written : (xv.memory.store location.page location.offset wordBytes index).write location.page
      (location.offset + objheaderSize) src = memory
      at header content stores kept'
    rw [if_neg (not_not_intro rfl), copies]
    let copied : Pool cpus := { pool with xv := xv.withMemory memory }
    have first (cpu : Fin cpus) : Progress.step lzo task ⟨{ pool with xv }, desk.held, .copyIn location index src (next location)⟩ cpu =
        some ⟨copied, desk.held, next location⟩ := by
      rw [Progress.step, Pool.advance, Pool.copyIn]
      simp only [written]
      rfl
    refine .one first ?_
    have fresh := stores.apart rfl
    refine served location ((Storage.object location (src.length + objheaderSize)).bytes memory) ?_ fresh copied ?_
    · have rest : src.length + objheaderSize - objheaderSize = src.length := Nat.add_sub_cancel ..
      refine (PageBytes.drop_read ..).trans ?_
      show memory.read location.page (location.offset + objheaderSize) (src.length + objheaderSize - objheaderSize) = src
      rw [rest]
      exact content
    · refine ⟨kept.linked.congr rfl rfl rfl rfl, stores, ?_, fun storage lies => ?_, kept.counted, kept.memlimit⟩
      · intro second stock hand
        cases hand
        exact ⟨Nat.le_add_left _ _, header, low⟩
      · rcases lies with holds | held
        · have elsewhere : storage ≠ .object location (src.length + objheaderSize) := by
            rintro rfl
            exact fresh holds
          have old : Function.update desk.bytes (.object location (src.length + objheaderSize))
              (Storage.bytes memory (.object location (src.length + objheaderSize))) storage = desk.bytes storage :=
            Function.update_of_ne elsewhere ..
          exact ((kept' storage holds).trans ((bytes storage holds).trans (kept.bytes storage (.inl holds)))).trans old.symm
        · cases held
          have new (storage : Storage) : Function.update desk.bytes storage (Storage.bytes memory storage) storage =
              Storage.bytes memory storage :=
            Function.update_self ..
          exact (new _).symm

/-- How a page is in hand: a mark takes up nothing. -/
def Stock.inHand (index : Nat) : Stock → Option (Nat × Stock)
  | mark => none
  | object location size => some (index, .object location size)

/-- The page in hand is put into the tree, if there is memory for the tree. -/
theorem Promised.insert (stock : Stock) {memory : Bool} {next : Bool → Code cpus} (here : desk.tree.find? inodeNo = some node)
    (stocked : desk.shelves.find? inodeNo = some pages) (holding : node ∈ desk.held) (vacant : pages.find? index = none)
    (hand : desk.hand = stock.inHand index) (failed : memory = false → Promised lzo task others shows desk (next false))
    (done : memory = true → Promised lzo task others shows
      { desk with
        shelves := desk.shelves.insert inodeNo (pages.insert index stock)
        hand := none
        owed := fun stat => desk.owed stat - stock.counts stat }
      (next true)) :
    Promised lzo task others shows desk (.radixInsert node index (stock.item index) memory next) := by
  intro pool kept
  obtain ⟨same, inode, again, present, shelf⟩ := kept.shelf here
  obtain rfl := Option.some.inj (stocked.symm.trans again)
  have absent : (inode.pageTree.find? index).isSome = false := by
    rw [shelf.stocked, SortedMap.find?_mapValues, vacant]
    rfl
  cases enough : memory with
  | false =>
    refine .one (fun _ => ?_) (failed enough pool kept)
    rw [Progress.step, Pool.advance, present, Option.map_some, if_pos (.inr rfl)]
  | true =>
    refine .one (fun _ => ?_)
      (done enough { pool.setNode node { inode with pageTree := inode.pageTree.insert index (stock.item index) } with } ?_)
    · rw [Progress.step, Pool.advance, present, Option.map_some, if_neg (by rw [absent]; decide)]
    have storage : stock.storage = desk.hand.bind fun page => page.2.storage := by
      rw [hand]
      cases stock <;> rfl
    have sound : stock.Sound pool.xv.memory index := by
      cases stock with
      | mark => trivial
      | object location size => exact kept.sound hand
    have linked :=
      kept.linked.change here (pages.insert index stock) { inode with pageTree := inode.pageTree.insert index (stock.item index) }
      desk.held desk.locked
      ⟨by rw [shelf.stocked, SortedMap.mapValues_insert], shelf.number, shelf.refcount, shelf.unlocked, fun _ => .inl holding⟩
        (fun _ _ => rfl) fun _ _ => id
    have empty : NestedMap.lookup desk.shelves inodeNo index = none := (NestedMap.lookup_row stocked index).trans vacant
    refine ⟨linked.congr rfl rfl rfl rfl, kept.stores.place empty (NestedMap.lookup_put stocked index stock) storage
      sound, by rintro _ _ ⟨⟩, ?_, ?_, kept.memlimit⟩
    · intro found lies
      refine kept.bytes found ?_
      obtain ⟨other, second, another, there, lies⟩ := lies.resolve_right (by rintro ⟨⟩)
      rw [NestedMap.lookup_put stocked] at there
      split at there
      next =>
        cases there
        exact .inr (storage.symm.trans lies)
      next => exact .inl ⟨other, second, another, there, lies⟩
    · intro stat
      show pool.stats.tally stat (List.finRange cpus) = _
      rw [kept.counted, countOf_insert stocked, SortedMap.sum_insert, SortedMap.erase_absent vacant]
      show _ = _ + (desk.owed stat - _)
      omega

end Rules
end Kept
end Compcache.Zcache
