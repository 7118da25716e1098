import Compcache.Proofs.ZcacheWalks

/-! What each operation does to the pages of a pool that it has to itself. -/

namespace Compcache.Zcache
open Library Library.PagedMemory Library.PerCpu Library.Runs Xvmalloc

def Stock.page (lzo : Lzo) (bytes : Storage → List UInt8) (header : Nat) : Stock → PageData
  | mark => PageData.zeros
  | object location size => PageData.zeros.overwrite (lzo.decompress ((bytes (.object location size)).drop header)).2

section Operations
variable [Arch] {cpus : Nat} {lzo : Lzo} {others : Finset Page} {desk after : Desk} {pool : Pool cpus} {inodeNo node index : Nat}
  {pages : SortedMap Stock} {task : Nat} {shows : Progress cpus → Prop}

/-- An object is the compressed form of a page that is not full of zeros. -/
def Compressed (lzo : Lzo) (bytes : Storage → List UInt8) (location : Location) (size : Nat) : Prop :=
  ∃ data src, pageZeroFilled data = false ∧ lzo.compress data = some src ∧ (bytes (.object location size)).drop objheaderSize = src ∧
    size = src.length + objheaderSize

/-- Every mark is within reach, and every object holds a compressed page. -/
structure Desk.Sane (lzo : Lzo) (desk : Desk) : Prop where
  near : desk.Near
  compressed : ∀ {inodeNo index location size}, NestedMap.lookup desk.shelves inodeNo index = some (.object location size) →
    Compressed lzo desk.bytes location size

def Desk.store (lzo : Lzo) (desk : Desk) : Store := ⟨desk.shelves.mapCells (Stock.page lzo desk.bytes objheaderSize), desk.memlimit⟩

theorem Desk.lookup_store (lzo : Lzo) (desk : Desk) (inodeNo index : Nat) :
    (desk.store lzo).lookup inodeNo index = (NestedMap.lookup desk.shelves inodeNo index).map (Stock.page lzo desk.bytes objheaderSize) :=
  NestedMap.lookup_mapCells ..

theorem Compressed.page (inverts : lzo.Inverts) {bytes : Storage → List UInt8} {location : Location} {size : Nat}
    (compressed : Compressed lzo bytes location size) :
    ∃ data src, pageZeroFilled data = false ∧ lzo.compress data = some src ∧ size = src.length + objheaderSize ∧
      lzo.decompress ((bytes (.object location size)).drop objheaderSize) = (true, data.val) ∧
      Stock.page lzo bytes objheaderSize (.object location size) = data := by
  obtain ⟨data, src, nonzero, made, rfl, length⟩ := compressed
  have back := inverts made
  refine ⟨data, _, nonzero, made, length, back, ?_⟩
  rw [Stock.page, back]
  exact PageData.overwrite_whole _ data.property

omit [Arch] in
theorem zeros_filled : pageZeroFilled PageData.zeros = true := by
  refine List.all_eq_true.mpr fun byte member => ?_
  rw [List.eq_of_mem_replicate member]
  rfl

theorem Stock.counts_page (inverts : lzo.Inverts) (sane : desk.Sane lzo) {stock : Stock}
    (found : NestedMap.lookup desk.shelves inodeNo index = some stock)
    (stat : Stat) : PageData.counts lzo (stock.page lzo desk.bytes objheaderSize) stat = stock.counts stat := by
  cases stock with
  | mark =>
    have zero : pageZeroFilled (Stock.mark.page lzo desk.bytes objheaderSize) = true := zeros_filled
    cases stat <;> simp [PageData.counts, zero, counts]
  | object location size =>
    obtain ⟨data, src, nonzero, made, rfl, _, same⟩ := (sane.compressed found).page inverts
    cases stat <;> simp [PageData.counts, same, nonzero, made, counts]

theorem Desk.count_store (inverts : lzo.Inverts) (sane : desk.Sane lzo) (stat : Stat) :
    (desk.store lzo).count lzo stat = countOf desk.shelves stat :=
  NestedMap.total_mapCells fun found => Stock.counts_page inverts sane found stat

theorem Desk.nonzero_store (inverts : lzo.Inverts) (sane : desk.Sane lzo) : (desk.store lzo).nonzero = objectsOf desk.shelves.entries := by
  refine NestedMap.listed_mapCells fun {_ _ stock} found => ?_
  cases stock with
  | mark =>
    show (!pageZeroFilled PageData.zeros) = false
    rw [zeros_filled]
    rfl
  | object location size =>
    obtain ⟨data, _, nonzero, _, _, _, same⟩ := (sane.compressed found).page inverts
    rw [same, nonzero]
    rfl

/-- A pool shows these pages when it is at rest. -/
def Shows (lzo : Lzo) (others : Finset Page) (store : Store) (pool : Pool cpus) : Prop :=
  ∃ desk : Desk, desk.Clear [] ∧ desk.Sane lzo ∧ desk.store lzo = store ∧ Kept others desk pool

/-- The operation has come to an end that the pages before it allow. -/
def Answers (lzo : Lzo) (others : Finset Page) (before : Store) (op : Op) (final : Progress cpus) : Prop :=
  ∃ reply after, final.code = .done reply ∧ before.Allows lzo reply after op ∧ Shows lzo others after final.pool

theorem Promised.answers {before : Store} {op : Op} {reply : Reply} (clear : desk.Clear []) (sane : desk.Sane lzo)
    (allowed : before.Allows lzo reply (desk.store lzo) op) :
    Promised lzo task others (Answers lzo others before op) desk (.done reply : Code cpus) :=
  .done fun _ kept => ⟨reply, _, rfl, allowed, desk, clear, sane, rfl, kept⟩

/-- A page has been taken from its slot, and its node has been left. -/
structure Desk.Taken (desk : Desk) (inodeNo index : Nat) (after : Desk) : Prop where
  lookup : ∀ other second, NestedMap.lookup after.shelves other second =
    if other = inodeNo ∧ second = index then none else NestedMap.lookup desk.shelves other second
  hand : after.hand = (NestedMap.lookup desk.shelves inodeNo index).map fun stock => (index, stock)
  idle : (after.held, after.locked, after.leaving) = ([], none, none)
  owed : ∀ stat, after.owed stat = (NestedMap.lookup desk.shelves inodeNo index).elim 0 fun stock => stock.counts stat
  same : (after.memlimit, after.bytes) = (desk.memlimit, desk.bytes)

omit [Arch] in
theorem Desk.Clear.holding {held : List Nat} (clear : desk.Clear held) (node : Nat) :
    Desk.Clear { desk with held := node :: desk.held } (node :: held) :=
  ⟨clear.hand, congrArg _ clear.held, clear.locked, clear.leaving, clear.owed⟩

theorem Promised.take {next : Nat → Code cpus} (clear : desk.Clear []) (here : desk.tree.find? inodeNo = some node)
    (later : ∀ after, desk.Taken inodeNo index after → Promised lzo task others shows after (next (ptrOf after.hand))) :
    Promised lzo task others shows { desk with held := node :: desk.held }
    (.lock node (.radixDelete node index fun ptr => leaveNode node (next ptr))) := by
  refine .given fun pool kept => ?_
  obtain ⟨pages, _, stocked, _, _⟩ := kept.shelf here
  have placed : (desk.shelves.insert inodeNo (pages.erase index)).find? inodeNo = some (pages.erase index) := SortedMap.find?_insert_self ..
  have once : (node :: desk.held).count node = 1 := by rw [clear.held, List.count_singleton_self]
  have left : (node :: desk.held).erase node = [] := by rw [List.erase_cons_head, clear.held]
  have slot : NestedMap.lookup desk.shelves inodeNo index = pages.find? index := NestedMap.lookup_row stocked index
  have idle : ((node :: desk.held).erase node, (none : Option Nat), desk.leaving) = ([], none, none) := by rw [left, clear.leaving]
  have owed (stat : Stat) : desk.owed stat + ((pages.find? index).elim 0 fun stock => stock.counts stat) =
      (NestedMap.lookup desk.shelves inodeNo index).elim 0 fun stock => stock.counts stat := by rw [clear.owed, zero_add, slot]
  refine .lock here clear.locked (.delete here stocked List.mem_cons_self clear.hand
    (.leave here placed once rfl (fun _ => later _ ?_) fun empty => later _ ?_))
  · exact ⟨NestedMap.lookup_erase stocked index, by rw [slot], idle, owed, rfl⟩
  · refine ⟨fun other second => ?_, by rw [slot], idle, owed, rfl⟩
    exact (NestedMap.lookup_emptied placed empty ..).trans (NestedMap.lookup_erase stocked ..)

/-- Some pages are gone, and nothing else is. -/
structure Desk.Loses (desk : Desk) (gone : Nat → Nat → Prop) [∀ inodeNo index, Decidable (gone inodeNo index)] (after : Desk) : Prop where
  lookup : ∀ inodeNo index, NestedMap.lookup after.shelves inodeNo index =
    if gone inodeNo index then none else NestedMap.lookup desk.shelves inodeNo index
  same : (after.memlimit, after.bytes) = (desk.memlimit, desk.bytes)

/-- Some pages are gone, and nothing is left on the desk. -/
structure Desk.Emptied (desk : Desk) (gone : Nat → Nat → Prop) [∀ inodeNo index, Decidable (gone inodeNo index)] (after : Desk) : Prop
    extends desk.Loses gone after where
  clear : after.Clear []

abbrev Desk.Dropped (desk : Desk) (inodeNo index : Nat) (after : Desk) :
    Prop := desk.Emptied (fun other second => other = inodeNo ∧ second = index) after

theorem Promised.freeTaken {next : Code cpus} (taken : desk.Taken inodeNo index after)
    (later : ∀ final, desk.Dropped inodeNo index final → Promised lzo task others shows final next) :
    Promised lzo task others shows after (zcacheFreePage (ptrOf after.hand) next) := by
  obtain ⟨held, idle⟩ := Prod.mk.inj taken.idle
  obtain ⟨locked, leaving⟩ := Prod.mk.inj idle
  refine .freePage (later _ ⟨⟨taken.lookup, taken.same⟩, rfl, held, locked, leaving, fun stat => ?_⟩)
  show after.owed stat - after.hand.elim 0 (fun page => page.2.counts stat) = 0
  rw [taken.owed, taken.hand]
  cases NestedMap.lookup desk.shelves inodeNo index with
  | none => rfl
  | some stock => exact sub_self _

section Loses
variable {gone : Nat → Nat → Prop} [∀ inodeNo index, Decidable (gone inodeNo index)]

theorem Desk.Loses.lookup_store (loses : desk.Loses gone after) (inodeNo index : Nat) :
    (after.store lzo).lookup inodeNo index = if gone inodeNo index then none else (desk.store lzo).lookup inodeNo index := by
  rw [Desk.lookup_store, Desk.lookup_store, loses.lookup, show after.bytes = desk.bytes from congrArg Prod.snd loses.same]
  split
  next => rfl
  next => rfl

theorem Desk.Loses.sane (loses : desk.Loses gone after) (sane : desk.Sane lzo) : after.Sane lzo := by
  have sub {inodeNo index : Nat} {stock : Stock} (found : NestedMap.lookup after.shelves inodeNo index = some stock) :
      NestedMap.lookup desk.shelves inodeNo index = some stock := by
    rw [loses.lookup] at found
    split at found
    next => cases found
    next => exact found
  refine ⟨fun found => sane.near (sub found), fun found => ?_⟩
  rw [show after.bytes = desk.bytes from congrArg Prod.snd loses.same]
  exact sane.compressed (sub found)

theorem Desk.Loses.memlimit (loses : desk.Loses gone after) : (after.store lzo).memlimit = (desk.store lzo).memlimit :=
  congrArg Prod.fst loses.same

end Loses

omit [Arch] in
theorem Desk.Clear.dropped (clear : desk.Clear []) (missing : NestedMap.lookup desk.shelves inodeNo index = none) :
    desk.Dropped inodeNo index desk := by
  refine ⟨⟨fun other second => ?_, rfl⟩, clear⟩
  split
  next same =>
    rw [same.1, same.2]
    exact missing
  next => rfl

theorem Kept.missing (kept : Kept others desk pool) (absent : desk.tree.find? inodeNo = none) (index : Nat) :
    NestedMap.lookup desk.shelves inodeNo index = none := NestedMap.lookup_missing (kept.linked.absent absent) index

theorem flushPage_promised (filekey : Filekey) (clear : desk.Clear []) (sane : desk.Sane lzo) :
    Promised lzo task others (Answers lzo others (desk.store lzo) (.flushPage filekey index)) desk
      (zcacheFlushPage filekey index : Code cpus) := by
  have finish (final : Desk) (dropped : desk.Dropped filekey.ino index final) :
      Promised lzo task others (Answers lzo others (desk.store lzo) (.flushPage filekey index)) final (.done .returned : Code cpus) :=
    .answers dropped.clear (dropped.sane sane) ⟨rfl, dropped.memlimit, dropped.lookup_store⟩
  refine .acquireInode (fun absent => .given fun pool kept => finish desk (clear.dropped (kept.missing absent index))) fun node here => ?_
  exact .take clear here fun after taken => .freeTaken taken finish

theorem getPage_promised (inverts : lzo.Inverts) (filekey : Filekey) (page : PageData) (clear : desk.Clear []) (sane : desk.Sane lzo) :
    Promised lzo task others (Answers lzo others (desk.store lzo) (.getPage filekey index page)) desk
      (zcacheGetPage filekey index page : Code cpus) := by
  have finish {reply : Reply} (told : reply = ((desk.store lzo).lookup filekey.ino index).elim (.got (-efault) page) (.got 0))
    (final : Desk)
      (dropped : desk.Dropped filekey.ino index final) :
      Promised lzo task others (Answers lzo others (desk.store lzo) (.getPage filekey index page)) final (.done reply : Code cpus) :=
    .answers dropped.clear (dropped.sane sane) ⟨told, dropped.memlimit, dropped.lookup_store⟩
  refine .acquireInode (fun absent => .given fun pool kept => ?_) fun node here => .take clear here fun after taken => ?_
  · have missing := kept.missing absent index
    exact finish (by rw [Desk.lookup_store, missing, Option.map_none, Option.elim_none]) desk (clear.dropped missing)
  · cases slot : NestedMap.lookup desk.shelves filekey.ino index with
    | none =>
      have empty : after.hand = none := by rw [taken.hand, slot, Option.map_none]
      have freed := Promised.freeTaken taken (finish (by rw [Desk.lookup_store, slot, Option.map_none, Option.elim_none]))
      rw [empty] at freed ⊢
      exact freed
    | some stock =>
      have hand : after.hand = some (index, stock) := by rw [taken.hand, slot, Option.map_some]
      have freed {reply : Reply} (told : reply = .got 0 (stock.page lzo desk.bytes objheaderSize)) :=
        Promised.freeTaken taken (finish (told.trans (by rw [Desk.lookup_store, slot, Option.map_some, Option.elim_some])))
      cases stock with
      | mark =>
        obtain ⟨real, mark⟩ := ptrOf_mark index
        rw [← hand] at real mark
        rw [if_neg real, if_pos mark]
        exact freed rfl
      | object location size =>
        refine .given fun pool kept => ?_
        obtain ⟨real, object, leads⟩ := kept.ptrOf_object hand
        rw [if_neg real, object, if_neg Bool.false_ne_true, leads]
        refine .loadIndex hand ?_
        rw [if_pos rfl]
        refine .decompress hand (freed ?_)
        obtain ⟨data, _, _, _, _, back, same⟩ := (sane.compressed slot).page inverts
        rw [show after.bytes = desk.bytes from congrArg Prod.snd taken.same, back, same]
        exact congrArg (Reply.got 0) (PageData.overwrite_whole page data.property)

theorem flushInode_promised (filekey : Filekey) (clear : desk.Clear []) (sane : desk.Sane lzo)
    (few : ∀ {pages}, desk.shelves.find? filekey.ino = some pages → pages.entries.length ≤ uintMax) :
    Promised lzo task others (Answers lzo others (desk.store lzo) (.flushInode filekey)) desk (zcacheFlushInode filekey : Code cpus) := by
  refine .given fun pool kept => .acquireInode (fun absent => ?_) fun node here => ?_
  · refine .answers clear sane ⟨rfl, rfl, fun other second => ?_⟩
    split
    next same =>
      rw [Desk.lookup_store, same, kept.missing absent, Option.map_none]
    next => rfl
  · obtain ⟨pages, _, stocked, _, _⟩ := kept.shelf here
    have empty := spared_all (few stocked)
    have placed : (desk.shelves.insert filekey.ino (spared pages .invalid uintMax)).find? filekey.ino =
        some (spared pages .invalid uintMax) :=
      SortedMap.find?_insert_self ..
    have once : (node :: desk.held).count node = 1 := by rw [clear.held, List.count_singleton_self]
    have left : (node :: desk.held).erase node = [] := by rw [List.erase_cons_head, clear.held]
    refine .lock here clear.locked (.freeInodePages here stocked (.inl List.mem_cons_self) clear.hand
      (fun found => sane.near ((NestedMap.lookup_row stocked _).trans found))
      (.leave here placed once rfl (fun full => absurd empty full) fun _ => ?_))
    have gone (other second : Nat) :
      NestedMap.lookup ((desk.shelves.insert filekey.ino (spared pages .invalid uintMax)).erase filekey.ino) other second =
        if other = filekey.ino then none else NestedMap.lookup desk.shelves other second := by
      rw [NestedMap.lookup_emptied placed empty, NestedMap.lookup_insert, SortedMap.entries_eq_nil.mp empty]
    have emptied : desk.Emptied (fun other _ => other = filekey.ino) { desk with
        tree := desk.tree.erase filekey.ino
        shelves := (desk.shelves.insert filekey.ino (spared pages .invalid uintMax)).erase filekey.ino
        held := (node :: desk.held).erase node
        locked := none } := ⟨⟨gone, rfl⟩, clear.hand, left, rfl, clear.leaving, clear.owed⟩
    exact .answers emptied.clear (emptied.sane sane) ⟨rfl, rfl, emptied.lookup_store⟩

omit [Arch] in
theorem Desk.Evicts.emptied {quota : Nat} (evicts : desk.Evicts (objectsOf desk.shelves.entries) quota after) (clear : after.Clear [])
    (memlimit : after.memlimit = desk.memlimit) (bytes : after.bytes = desk.bytes) :
    desk.Emptied (fun other second => (other, second) ∈ (objectsOf desk.shelves.entries).take quota) after :=
  ⟨⟨evicts, by rw [memlimit, bytes]⟩, clear⟩

theorem Promised.shrinkPool (clear : desk.Clear []) (near : desk.Near)
    (finish : ∀ after, desk.Emptied (fun other second => (other, second) ∈ (objectsOf desk.shelves.entries).take
      (excessPages desk.memlimit desk.stored)) after →
      Promised lzo task others shows after (.done .returned)) :
    Promised lzo task others shows desk zcacheShrinkPool := by
  refine .given fun pool kept => .acquireFirst (fun none_ => finish desk ?_) fun inodeNo node found => ?_
  · have bare (other second : Nat) : NestedMap.lookup desk.shelves other second = none :=
      kept.missing (SortedMap.first_eq_none.mp none_ other) second
    exact ⟨⟨fun other second => by rw [bare, ite_self], rfl⟩, clear⟩
  · obtain ⟨here, below⟩ := SortedMap.first_eq_some found
    obtain ⟨pages, _, stocked, _, shelf⟩ := kept.shelf here
    have full : pages.entries ≠ [] := by
      intro empty
      rcases shelf.reason empty with holds | leaves
      · rw [clear.held] at holds
        cases holds
      · rw [clear.leaving] at leaves
        cases leaves
    have whole : desk.shelves.atLeast inodeNo = desk.shelves.entries :=
      SortedMap.atLeast_eq_entries fun lower less => kept.linked.absent (below lower less)
    have clear' : Desk.Clear { desk with held := node :: desk.held } [node] := clear.holding node
    refine .shrinkFrom clear' here stocked full near fun after clear'' memlimit bytes evicts => finish after ?_
    rw [show SortedMap.atLeast _ inodeNo = _ from whole] at evicts
    exact Desk.Evicts.emptied evicts clear'' memlimit bytes

theorem shrinks_emptied (inverts : lzo.Inverts) (sane : desk.Sane lzo) {memlimit : Nat}
    (emptied : desk.Emptied (fun other second => (other, second) ∈ (objectsOf desk.shelves.entries).take (excessPages memlimit desk.stored))
      after) :
    (desk.store lzo).Shrinks (after.store lzo) memlimit := by
  intro other second
  rw [Desk.nonzero_store inverts sane]
  exact emptied.lookup_store other second

theorem shrinkPool_promised (inverts : lzo.Inverts) (clear : desk.Clear []) (sane : desk.Sane lzo) :
    Promised lzo task others (Answers lzo others (desk.store lzo) .shrinkPool) desk (zcacheShrinkPool : Code cpus) :=
  .shrinkPool clear sane.near fun _ emptied =>
    .answers emptied.clear (emptied.sane sane) ⟨rfl, emptied.memlimit, shrinks_emptied inverts sane emptied⟩

theorem memlimitStore_promised (inverts : lzo.Inverts) (memlimit : Nat) (clear : desk.Clear []) (sane : desk.Sane lzo) :
    Promised lzo task others (Answers lzo others (desk.store lzo) (.memlimitStore memlimit)) desk (memlimitStore memlimit : Code cpus) := by
  let limited : Desk := { desk with memlimit := ZramDrv.andPageMask memlimit }
  have clear' : limited.Clear [] := ⟨clear.hand, clear.held, clear.locked, clear.leaving, clear.owed⟩
  have sane' : limited.Sane lzo := ⟨sane.near, sane.compressed⟩
  have finish (after : Desk)
      (emptied : limited.Emptied (fun other second => (other, second) ∈ (objectsOf desk.shelves.entries).take
        (excessPages limited.memlimit desk.stored)) after) :
      Promised lzo task others (Answers lzo others (desk.store lzo) (.memlimitStore memlimit)) after (.done .returned : Code cpus) := by
    have limit : (after.store lzo).memlimit = ZramDrv.andPageMask memlimit := emptied.memlimit
    refine .answers emptied.clear (emptied.sane sane') ⟨rfl, limit, ?_⟩
    rw [limit]
    exact shrinks_emptied inverts sane' emptied
  refine .setMemlimit (.countExcess clear.owed ?_)
  split
  next enough =>
    refine finish limited ⟨⟨fun other second => ?_, rfl⟩, clear'⟩
    rw [show excessPages limited.memlimit desk.stored = 0 from enough, List.take_zero, if_neg List.not_mem_nil]
  next => exact .shrinkPool clear' sane'.near finish

theorem flushFs_promised (clear : desk.Clear []) (sane : desk.Sane lzo)
    (few : ∀ {inodeNo pages}, desk.shelves.find? inodeNo = some pages → pages.entries.length ≤ uintMax) :
    Promised lzo task others (Answers lzo others (desk.store lzo) .flushFs) desk (flushNodes : Code cpus) := by
  have finish (after : Desk) (emptied : desk.Emptied (fun _ _ => True) after) :
      Promised lzo task others (Answers lzo others (desk.store lzo) .flushFs) after (.done .returned : Code cpus) :=
    .answers emptied.clear (emptied.sane sane) ⟨rfl, emptied.memlimit, fun other second =>
      (emptied.lookup_store other second).trans (if_pos trivial)⟩
  refine .given fun pool kept => .peek (fun kept => kept.select_first) ?_
  cases found : desk.tree.first with
  | none =>
    refine finish desk ⟨⟨fun other second => ?_, rfl⟩, clear⟩
    rw [if_pos trivial]
    exact kept.missing (SortedMap.first_eq_none.mp found other) second
  | some entry =>
    obtain ⟨here, below⟩ := SortedMap.first_eq_some found
    refine .flushFrom clear here sane.near few fun after clear' memlimit bytes gone =>
      finish after ⟨⟨fun other second => ?_, by rw [memlimit, bytes]⟩, clear'⟩
    rw [gone, if_pos trivial]
    split
    next => rfl
    next lower => exact kept.missing (below other (Nat.lt_of_not_le lower)) second

section Puts
variable {data : PageData} {stock : Stock} {bytes : Storage → List UInt8} {choices : PutChoices} {held : List Nat} {reserve : Int}

/-- How a page may be packed: as a mark, or compressed into an object nobody else uses. -/
inductive Packed (lzo : Lzo) (shelves : Shelves) (before : Storage → List UInt8) (data : PageData) : Stock → (Storage → List UInt8) → Prop
  | mark (filled : pageZeroFilled data = true) : Packed lzo shelves before data .mark before
  | object {location src content} (nonzero : pageZeroFilled data = false) (made : lzo.compress data = some src)
    (small : src.length ≤ zcacheMaxPageSize)
      (carries : content.drop objheaderSize = src) (fresh : ¬ Holds shelves (.object location (src.length + objheaderSize))) :
      Packed lzo shelves before data (.object location (src.length + objheaderSize))
        (Function.update before (.object location (src.length + objheaderSize)) content)

/-- Nothing is on the desk but references to these nodes and a reservation. -/
structure Desk.Reserves (desk : Desk) (held : List Nat) (reserve : Int) : Prop where
  hand : desk.hand = none
  held : desk.held = held
  locked : desk.locked = none
  leaving : desk.leaving = none
  owed : ∀ stat, desk.owed stat = if stat = .comprSize then reserve else 0

/-- A page has been put on a shelf. -/
structure Desk.Gains (desk : Desk) (inodeNo index : Nat) (pages : SortedMap Stock) (stock : Stock) (bytes : Storage → List UInt8)
    (after : Desk) : Prop where
  shelves : after.shelves = desk.shelves.insert inodeNo (pages.insert index stock)
  clear : after.Clear desk.held
  tree : after.tree = desk.tree
  same : (after.memlimit, after.bytes) = (desk.memlimit, bytes)

def reserved (data : PageData) : Int := if pageZeroFilled data then 0 else zcacheMaxPageSize

theorem Promised.storePage {next : Bool → Code cpus} (reserves : desk.Reserves held (reserved data))
    (here : desk.tree.find? inodeNo = some node)
    (stocked : desk.shelves.find? inodeNo = some pages) (holding : node ∈ desk.held) (vacant : pages.find? index = none)
    (memory : choices.insert = true) (word : index < 2 ^ bitsPerLong)
    (failed : pageZeroFilled data = false → Promised lzo task others shows desk (next false))
    (stored : ∀ stock bytes after, Packed lzo desk.shelves desk.bytes data stock bytes → desk.Gains inodeNo index pages stock bytes after →
      Promised lzo task others shows after (next true)) :
    Promised lzo task others shows desk (zcacheStorePage lzo node index data (pageZeroFilled data) choices next) := by
  have nothing : desk.hand = Stock.mark.inHand index := reserves.hand
  cases filled : pageZeroFilled data with
  | true =>
    rw [zcacheStorePage, if_pos rfl, storeZero, memory]
    refine .lock here reserves.locked (.insert .mark here stocked holding vacant nothing (by rintro ⟨⟩) fun _ => ?_)
    rw [if_pos rfl]
    refine .addStat
      (.unlock here rfl (stored .mark desk.bytes _ (.mark filled) ⟨rfl, ⟨rfl, rfl, rfl, reserves.leaving, fun stat => ?_⟩, rfl, rfl⟩))
    show desk.owed stat - Stock.mark.counts stat + (if stat = .pagesZero then 1 else 0) = 0
    rw [reserves.owed, reserved, filled]
    cases stat <;> simp [Stock.counts]
  | false =>
    rw [zcacheStorePage, if_neg Bool.false_ne_true]
    split
    swap
    · exact failed filled
    split
    next => exact failed filled
    next src made =>
      split
      next => exact failed filled
      next short =>
        have small : src.length ≤ zcacheMaxPageSize := Nat.le_of_not_lt short
        refine .store (fun location => rfl) reserves.hand small word (failed filled) fun location content carries fresh => ?_
        rw [storeObject, memory]
        refine .lock here reserves.locked (.insert (.object location (src.length + objheaderSize)) here stocked holding vacant rfl
          (by rintro ⟨⟩) fun _ => ?_)
        rw [if_pos rfl]
        refine .addStat (.addStat (.unlock here rfl (stored _ _ _ (.object filled made small carries fresh)
          ⟨rfl, ⟨rfl, rfl, rfl, reserves.leaving, fun stat => ?_⟩, rfl, rfl⟩)))
        show desk.owed stat - (Stock.object location (src.length + objheaderSize)).counts stat +
          (if stat = .comprSize then -((zcacheMaxPageSize : Int) - src.length) else 0) + (if stat = .pagesStored then 1 else 0) = 0
        rw [reserves.owed, reserved, filled]
        cases stat <;> simp [Stock.counts]

theorem Packed.bytes_kept {shelves : Shelves} {before : Storage → List UInt8} {storage : Storage}
    (packed : Packed lzo shelves before data stock bytes)
    (holds : Holds shelves storage) : bytes storage = before storage := by
  cases packed with
  | mark filled => rfl
  | object nonzero made small carries fresh =>
    refine Function.update_of_ne ?_ ..
    rintro rfl
    exact fresh holds

theorem Packed.filled {shelves : Shelves} {before : Storage → List UInt8} (packed : Packed lzo shelves before data .mark bytes) :
    pageZeroFilled data = true := by
  cases packed with
  | mark filled => exact filled

theorem Packed.small {shelves : Shelves} {before : Storage → List UInt8} (packed : Packed lzo shelves before data stock bytes)
    (nonzero : pageZeroFilled data = false) : ∃ src ∈ lzo.compress data, src.length ≤ zcacheMaxPageSize := by
  cases packed with
  | mark filled =>
    rw [filled] at nonzero
    cases nonzero
  | object _ made small _ _ => exact ⟨_, made, small⟩

theorem Packed.compressed {shelves : Shelves} {before : Storage → List UInt8} {location : Location} {size : Nat}
    (packed : Packed lzo shelves before data (.object location size) bytes) : Compressed lzo bytes location size := by
  cases packed with
  | object nonzero made small carries fresh => exact ⟨data, _, nonzero, made, by rw [Function.update_self, carries], rfl⟩

theorem Packed.page (inverts : lzo.Inverts) {shelves : Shelves} {before : Storage → List UInt8}
    (packed : Packed lzo shelves before data stock bytes) :
    stock.page lzo bytes objheaderSize = data := by
  cases packed with
  | mark filled => exact (pageZeroFilled_zeros filled).symm
  | object nonzero made small carries fresh =>
    rw [Stock.page, Function.update_self, carries, inverts made]
    exact PageData.overwrite_whole _ data.property

section Gains
variable (gains : ∀ other second, NestedMap.lookup after.shelves other second =
    if other = inodeNo ∧ second = index then some stock else NestedMap.lookup desk.shelves other second)
  (packed : Packed lzo desk.shelves desk.bytes data stock after.bytes)
include gains packed

theorem Packed.sane (sane : desk.Sane lzo) (near : pageZeroFilled data = true → index < 2 ^ (bitsPerLong - zcacheZeroPageIndexShift)) :
    after.Sane lzo := by
  constructor
  · intro other second found
    rw [gains] at found
    split at found
    next same =>
      cases found
      rw [same.2]
      exact near packed.filled
    next => exact sane.near found
  · intro other second location size found
    rw [gains] at found
    split at found
    next =>
      cases found
      exact packed.compressed
    next =>
      obtain ⟨data, src, nonzero, made, carries, length⟩ := sane.compressed found
      refine ⟨data, src, nonzero, made, ?_, length⟩
      rw [packed.bytes_kept (.of_slot found rfl)]
      exact carries

theorem Packed.sets (inverts : lzo.Inverts) : (desk.store lzo).Sets (after.store lzo) inodeNo index (some data) := by
  intro other second
  rw [Desk.lookup_store, Desk.lookup_store, gains]
  split
  next => rw [Option.map_some, packed.page inverts]
  next =>
    refine Option.map_congr fun found there => ?_
    cases found with
    | mark => rfl
    | object location size => rw [Stock.page, Stock.page, packed.bytes_kept (.of_slot there rfl)]

end Gains

theorem Promised.putInto {before : Store} (inverts : lzo.Inverts) (filekey : Filekey) (sane : desk.Sane lzo)
    (same : (desk.store lzo).lookup = before.lookup)
    (limit : desk.memlimit = before.memlimit) (room : pageZeroFilled data = false → ¬ before.Full lzo)
    (reserves : desk.Reserves [node] (reserved data))
    (here : desk.tree.find? filekey.ino = some node) (memory : choices.insert = true) (word : index < 2 ^ bitsPerLong)
    (near : pageZeroFilled data = true → index < 2 ^ (bitsPerLong - zcacheZeroPageIndexShift)) :
    Promised lzo task others (Answers lzo others before (.putPage filekey index data choices)) desk
      (putInto lzo node index data choices : Code cpus) := by
  refine .given fun pool kept => ?_
  obtain ⟨pages, _, stocked, _, _⟩ := kept.shelf here
  have holding : node ∈ desk.held := by
    rw [reserves.held]
    exact List.mem_singleton_self _
  have once : desk.held.count node = 1 := by rw [reserves.held, List.count_singleton_self]
  have left : desk.held.erase node = [] := by rw [reserves.held, List.erase_cons_head]
  have placed : (desk.shelves.insert filekey.ino (pages.erase index)).find? filekey.ino = some (pages.erase index) :=
    SortedMap.find?_insert_self ..
  refine .lock here reserves.locked (.delete here stocked holding reserves.hand (.unlock here rfl (.freePage ?_)))
  generalize owing : (fun stat => desk.owed stat + ((pages.find? index).elim 0 fun stock => stock.counts stat) -
    ((pages.find? index).map fun stock => (index, stock)).elim 0 fun page => page.2.counts stat) = owed
  have owes (stat : Stat) : owed stat = if stat = .comprSize then reserved data else 0 := by
    rw [← owing, ← reserves.owed]
    cases pages.find? index with
    | none => simp
    | some stock => simp
  let bare : Desk := { desk with locked := none, shelves := desk.shelves.insert filekey.ino (pages.erase index), hand := none, owed }
  have loses : desk.Loses (fun other second => other = filekey.ino ∧ second = index) bare := ⟨NestedMap.lookup_erase stocked index, rfl⟩
  have reserves' : bare.Reserves [node] (reserved data) := ⟨rfl, reserves.held, rfl, reserves.leaving, owes⟩
  have empty : NestedMap.lookup bare.shelves filekey.ino index = none := (loses.lookup ..).trans (if_pos ⟨rfl, rfl⟩)
  refine (.storePage reserves' here placed holding (SortedMap.find?_erase_self ..) memory word (fun nonzero => ?_)
    fun stock bytes after packed gains => ?_ :
    Promised lzo task others _ bare _)
  · rw [if_neg Bool.false_ne_true]
    have finish (after : Desk) (emptied : bare.Emptied (fun _ _ => False) after) :
        Promised lzo task others (Answers lzo others before (.putPage filekey index data choices)) after (.done .returned : Code cpus) := by
      have dropped : desk.Dropped filekey.ino index after := by
        refine ⟨⟨fun other second => (emptied.lookup other second).trans ?_, emptied.same⟩, emptied.clear⟩
        rw [if_neg id]
        exact loses.lookup other second
      refine .answers emptied.clear (dropped.sane sane) ⟨rfl, (congrArg Prod.fst dropped.same).trans limit, ?_⟩
      rw [nonzero, if_neg Bool.false_ne_true]
      refine .inr ⟨room nonzero, .inr fun other second => ?_⟩
      rw [← same]
      exact dropped.lookup_store other second
    have clear {tree : SortedMap Nat} {shelves : Shelves} : Desk.Clear { bare with
        tree, shelves, held := bare.held.erase node
        locked := none, owed := fun stat => bare.owed stat + if stat = .comprSize then -(zcacheMaxPageSize : Int) else 0 } [] := by
      refine ⟨rfl, left, rfl, reserves.leaving, fun stat => ?_⟩
      show owed stat + _ = 0
      rw [owes, reserved, nonzero]
      cases stat <;> simp
    refine .addStat
        (.lock here rfl (.leave here placed once rfl (fun _ => finish _ ⟨⟨fun other second => (if_neg id).symm, rfl⟩, clear⟩) fun none_ =>
      finish _ ⟨⟨fun other second => ?_, rfl⟩, clear⟩))
    rw [if_neg id]
    exact NestedMap.lookup_emptied placed none_ other second
  · rw [if_pos rfl]
    have stocked' : after.shelves.find? filekey.ino = some ((pages.erase index).insert index stock) := by
      rw [gains.shelves]
      exact SortedMap.find?_insert_self ..
    have full : ((pages.erase index).insert index stock).entries ≠ [] := by
      intro none_
      have found := SortedMap.find?_insert_self (pages.erase index) index stock
      rw [SortedMap.entries_eq_nil.mp none_] at found
      cases found
    have lookup (other second : Nat) : NestedMap.lookup after.shelves other second =
        if other = filekey.ino ∧ second = index then some stock else NestedMap.lookup bare.shelves other second := by
      rw [gains.shelves]
      exact NestedMap.lookup_put placed index stock other second
    obtain rfl : after.bytes = bytes := congrArg Prod.snd gains.same
    have sets : before.Sets (after.store lzo) filekey.ino index (some data) := by
      intro other second
      rw [packed.sets lookup inverts, ← same]
      split
      next => rfl
      next elsewhere => exact (loses.lookup_store other second).trans (if_neg elsewhere)
    have clear := gains.clear
    have held : after.held.erase node = [] := by rw [clear.held, left]
    have here' : after.tree.find? filekey.ino = some node := by rw [gains.tree, here]
    have holding' : node ∈ after.held := by
      rw [clear.held]
      exact holding
    refine .krefPut here' stocked' holding' full (.answers ⟨clear.hand, held, clear.locked, clear.leaving, clear.owed⟩ ?_ ⟨rfl, ?_, ?_⟩)
    · exact ⟨(packed.sane lookup (loses.sane sane) near).near, (packed.sane lookup (loses.sane sane) near).compressed⟩
    · exact (congrArg Prod.fst gains.same).trans limit
    · cases filled : pageZeroFilled data with
      | true => exact sets
      | false => exact .inr ⟨room filled, .inl ⟨sets, packed.small filled⟩⟩

theorem Promised.findStore {before : Store} (inverts : lzo.Inverts) (filekey : Filekey) (sane : desk.Sane lzo)
    (same : (desk.store lzo).lookup = before.lookup)
    (limit : desk.memlimit = before.memlimit) (room : pageZeroFilled data = false → ¬ before.Full lzo)
    (reserves : desk.Reserves [] (reserved data))
    (made : pageZeroFilled data = true → choices.node = true) (memory : choices.insert = true) (word : index < 2 ^ bitsPerLong)
    (near : pageZeroFilled data = true → index < 2 ^ (bitsPerLong - zcacheZeroPageIndexShift)) :
    Promised lzo task others (Answers lzo others before (.putPage filekey index data choices)) desk
      (findStore lzo filekey.ino index data choices : Code cpus) := by
  refine .given fun pool kept => .acquireInode (fun absent => ?_) fun node here => ?_
  · have missing := kept.missing absent
    show Promised lzo task others _ desk (zcacheInodeCreate filekey.ino choices.node _)
    unfold zcacheInodeCreate
    split
    next =>
      refine .create absent reserves.held fun node => ?_
      have loses : desk.Loses (fun _ _ => False) { desk with
          tree := desk.tree.insert filekey.ino node, shelves := desk.shelves.insert filekey.ino .empty, held := [node] } := by
        refine ⟨fun other second => (NestedMap.lookup_insert ..).trans ?_, rfl⟩
        rw [if_neg id]
        split
        next here =>
          rw [here, missing]
          rfl
        next => rfl
      refine .putInto inverts filekey (loses.sane sane) ?_ limit room ⟨reserves.hand, rfl, reserves.locked, reserves.leaving, reserves.owed⟩
        (SortedMap.find?_insert_self ..) memory word near
      rw [← same]
      funext other second
      exact (loses.lookup_store other second).trans (if_neg id)
    next unmade =>
      have nonzero : pageZeroFilled data = false := Bool.eq_false_iff.mpr fun filled => unmade (made filled)
      refine .addStat (.answers ⟨reserves.hand, reserves.held, reserves.locked, reserves.leaving, fun stat => ?_⟩
        ⟨sane.near, sane.compressed⟩ ⟨rfl, limit, ?_⟩)
      · show desk.owed stat + _ = 0
        rw [reserves.owed, reserved, nonzero]
        cases stat <;> simp
      · rw [nonzero, if_neg Bool.false_ne_true]
        refine .inr ⟨room nonzero, .inr fun other second => ?_⟩
        rw [← same]
        split
        next here =>
          refine (Desk.lookup_store ..).trans ?_
          rw [here.1, missing, Option.map_none]
        next => rfl
  · exact .putInto inverts filekey ⟨sane.near, sane.compressed⟩ same limit room ⟨reserves.hand, by rw [reserves.held], reserves.locked,
      reserves.leaving, reserves.owed⟩
      here memory word near

theorem Desk.Sane.positive (sane : desk.Sane lzo) (stat : Stat) : 0 ≤ countOf desk.shelves stat := by
  refine NestedMap.total_nonneg fun {_ _ stock} found => ?_
  cases stock with
  | mark => cases stat <;> simp [Stock.counts]
  | object location size =>
    obtain ⟨_, src, _, _, _, rfl⟩ := sane.compressed found
    cases stat <;> simp [Stock.counts]

theorem putPage_promised (inverts : lzo.Inverts) (filekey : Filekey) (clear : desk.Clear []) (sane : desk.Sane lzo)
    (made : pageZeroFilled data = true → choices.node = true) (memory : choices.insert = true) (word : index < 2 ^ bitsPerLong)
    (near : pageZeroFilled data = true → index < 2 ^ (bitsPerLong - zcacheZeroPageIndexShift)) :
    Promised lzo task others (Answers lzo others (desk.store lzo) (.putPage filekey index data choices)) desk
      (zcachePutPage lzo filekey index data choices : Code cpus) := by
  unfold zcachePutPage
  split
  next filled =>
    have reserves : desk.Reserves [] (reserved data) := by
      refine ⟨clear.hand, clear.held, clear.locked, clear.leaving, fun stat => ?_⟩
      rw [clear.owed, reserved, if_pos filled, ite_self]
    refine .findStore inverts filekey sane rfl rfl (fun nonzero => ?_) reserves made memory word near
    rw [filled] at nonzero
    cases nonzero
  next nonzero =>
    have nonzero : pageZeroFilled data = false := Bool.eq_false_iff.mpr nonzero
    generalize owing : (fun other => desk.owed other + if other = .comprSize then (zcacheMaxPageSize : Int) else 0) = owed
    have owes (stat : Stat) : owed stat = if stat = .comprSize then reserved data else 0 := by
      rw [← owing, reserved, nonzero]
      show desk.owed stat + _ = _
      rw [clear.owed, zero_add]
      rfl
    have reserves : Desk.Reserves { desk with owed } [] (reserved data) := ⟨clear.hand, clear.held, clear.locked, clear.leaving, owes⟩
    have sum : countOf desk.shelves .comprSize + owed .comprSize = (desk.store lzo).count lzo .comprSize + zcacheMaxPageSize := by
      rw [Desk.count_store inverts sane, owes, if_pos rfl, reserved, nonzero, if_neg Bool.false_ne_true]
    have positive := sane.positive .comprSize
    rw [← Desk.count_store inverts sane] at positive
    refine .addStat ?_
    rw [owing]
    refine .getStat (by rw [sum]; omega) (.loadMemlimit ?_)
    rw [sum]
    have test : ((desk.store lzo).count lzo .comprSize + zcacheMaxPageSize).toNat > desk.memlimit ↔ (desk.store lzo).Full lzo := by
      rw [Store.Full]
      show _ ↔ (desk.memlimit : Int) < _
      omega
    split
    next full =>
      refine .addStat (.answers ⟨clear.hand, clear.held, clear.locked, clear.leaving, fun stat => ?_⟩
        ⟨sane.near, sane.compressed⟩ ⟨rfl, rfl, ?_⟩)
      · show owed stat + _ = 0
        rw [owes, reserved, nonzero]
        cases stat <;> simp
      · rw [nonzero, if_neg Bool.false_ne_true]
        exact .inl ⟨test.mp full, rfl⟩
    next roomy =>
      exact .findStore inverts filekey ⟨sane.near, sane.compressed⟩ rfl rfl (fun _ full => roomy (test.mpr full)) reserves made
        memory word near

end Puts
end Operations
end Compcache.Zcache
