import Compcache.Proofs.ZcacheTasks

/-! The nodes of the inode tree: who refers to them, when they leave the tree and
when they are freed. -/

namespace Compcache.Zcache
open Library Library.Runs Library.Sharing

/-- What an operation may do with a node it has a reference to: link it, change its
pages before it isolates the node or adds one, or only drop it. -/
inductive Standing
  | fresh
  | live
  | idle
  deriving DecidableEq

def gripsOf (total : Multiset (Nat × Standing)) (node : Nat) : Nat := (total.map Prod.fst).count node

@[simp] theorem gripsOf_cons (grip : Nat × Standing) (total : Multiset (Nat × Standing)) (node : Nat) :
    gripsOf (grip ::ₘ total) node = gripsOf total node + if node = grip.1 then 1 else 0 := by
  rw [gripsOf, Multiset.map_cons, Multiset.count_cons, gripsOf]

theorem gripsOf_pos {total : Multiset (Nat × Standing)} {node : Nat} {standing : Standing} (member : (node, standing) ∈ total) :
    0 < gripsOf total node :=
  Multiset.count_pos.mpr (Multiset.mem_map.mpr ⟨_, member, rfl⟩)

theorem gripsOf_eq_zero {total : Multiset (Nat × Standing)} {node : Nat} (none_ : gripsOf total node = 0) (standing : Standing) :
    (node, standing) ∉ total :=
  fun member => Nat.ne_of_gt (gripsOf_pos member) none_

section Nodes
variable [Arch] {cpus : Nat}

/-- The code does with its nodes what their standing allows, and drops them all. -/
def Code.Keeps : Code cpus → Multiset (Nat × Standing) → Prop
  | .addStat _ _ next, grip | .copyIn _ _ _ next, grip | .xvFree _ next, grip | .freePage _ next, grip | .setMemlimit _ next, grip =>
    next.Keeps grip
  | .lock node next, grip | .unlock node next, grip => node ∈ grip.map Prod.fst ∧ next.Keeps grip
  | .sumStat _ _ _ next, grip | .load _ next, grip => ∀ value, (next value).Keeps grip
  | .sweep node _ _ _ next, grip => (node, .live) ∈ grip ∧ next.Keeps grip
  | .radixDelete node _ next, grip => (node, .live) ∈ grip ∧ ∀ value, (next value).Keeps grip
  | .xvMalloc _ _ next, grip => ∀ location, (next location).Keeps grip
  | .decompress _ next, grip => ∀ bytes, (next bytes).Keeps grip
  | .acquire which next, grip => (∀ node, which = .next node → node ∈ grip.map Prod.fst) ∧ (next none).Keeps grip ∧
    ∀ node, (next (some node)).Keeps ((node, .live) ::ₘ grip)
  | .allocNode _ next, grip => ∀ node, (next node).Keeps ((node, .fresh) ::ₘ grip)
  | .linkNode node next, grip => ∃ rest, grip = (node, .fresh) ::ₘ rest ∧ ∀ used, (next used).Keeps ((used, .live) ::ₘ rest)
  | .radixInsert node _ _ _ next, grip =>
    ∃ rest, grip = (node, .live) ::ₘ rest ∧ (next true).Keeps ((node, .idle) ::ₘ rest) ∧ (next false).Keeps grip
  | .isolateIfEmpty node next, grip => ∃ rest, grip = (node, .live) ::ₘ rest ∧ next.Keeps ((node, .idle) ::ₘ rest)
  | .krefPut node next, grip => ∃ rest, grip = (node, .idle) ::ₘ rest ∧ next.Keeps rest
  | .shrinkFrom node, grip => grip = {(node, .live)}
  | .peek _ _, _ | .eraseNode _ _, _ | .flushFrom _, _ => False
  | .bug, _ => True
  | .done _, grip => grip = 0

/-- The node the next step looks into. -/
def Code.touches : Code cpus → Option Nat
  | .lock node _ | .unlock node _ | .radixDelete node _ _ | .radixInsert node _ _ _ _ | .isolateIfEmpty node _ | .krefPut node _
  | .linkNode node _ | .sweep node _ _ _ _ | .acquire (.next node) _ | .peek (.next node) _ | .eraseNode node _ => some node
  | _ => none

section Codes
variable {grip : Multiset (Nat × Standing)} {code next : Code cpus} {node index : Nat}

omit [Arch] in
theorem grip_mem {standing : Standing} : node ∈ ((node, standing) ::ₘ grip).map Prod.fst :=
  Multiset.mem_map_of_mem Prod.fst (Multiset.mem_cons_self ..)

theorem Code.Keeps.touched (keeps : code.Keeps grip) (touches : code.touches = some node) : node ∈ grip.map Prod.fst := by
  cases code with
  | lock other _ | unlock other _ =>
    obtain rfl : other = node := Option.some.inj touches
    exact keeps.1
  | radixDelete other _ _ | sweep other _ _ _ _ =>
    obtain rfl : other = node := Option.some.inj touches
    exact Multiset.mem_map_of_mem Prod.fst keeps.1
  | radixInsert other _ _ _ _ | isolateIfEmpty other _ | krefPut other _ | linkNode other _ =>
    obtain rfl : other = node := Option.some.inj touches
    obtain ⟨rest, rfl, _⟩ := keeps
    exact grip_mem
  | acquire which _ =>
    cases which with
    | next other =>
      obtain rfl : other = node := Option.some.inj touches
      exact keeps.1 _ rfl
    | inode _ => cases touches
    | first => cases touches
  | peek _ _ => exact keeps.elim
  | eraseNode _ _ => exact keeps.elim
  | _ => cases touches

theorem freePage_keeps (later : next.Keeps grip) (ptr : Nat) : (zcacheFreePage ptr next).Keeps grip := by
  unfold zcacheFreePage
  split
  · exact later
  · split
    · exact later
    · exact fun _ => later

theorem freeObjects_keeps (live : (node, .live) ∈ grip) (later : next.Keeps grip) (objs : List Nat) :
    (freeObjects node next objs).Keeps grip := by
  induction objs with
  | nil => exact later
  | cons obj rest ih =>
    have deleted (index : Nat) : (Code.radixDelete node index fun found =>
        if found = obj then zcacheFreePage found (freeObjects node next rest) else .bug).Keeps grip := by
      refine ⟨live, fun found => ?_⟩
      simp only
      split
      · exact freePage_keeps ih found
      · trivial
    unfold freeObjects zcachePtrToIndex
    split
    · exact deleted _
    · exact deleted

theorem freeBatchOf_keeps (live : (node, .live) ∈ grip) (later : next.Keeps grip) (pagesToFree : Nat) (tag : Tag) (objs : List Nat) :
    (freeBatchOf node index pagesToFree tag next objs).Keeps grip := by
  unfold freeBatchOf
  refine freeObjects_keeps live ?_ _
  split
  · exact ⟨live, later⟩
  · exact later

theorem leaveNode_keeps (later : next.Keeps grip) : (leaveNode node next).Keeps ((node, .live) ::ₘ grip) :=
  ⟨grip, rfl, grip_mem, grip, rfl, later⟩

theorem countExcessPages_keeps {next : Nat → Code cpus} (later : ∀ excess, (next excess).Keeps grip) :
    (zcacheCountExcessPages next).Keeps grip :=
  fun _ _ => later _

theorem shrinkNode_keeps (node : Nat) : (shrinkNode node : Code cpus).Keeps {(node, .live)} := by
  have own : node ∈ ({(node, .live)} : Multiset (Nat × Standing)).map Prod.fst := grip_mem
  have left : (leaveNode node (.done .returned) : Code cpus).Keeps ((node, .live) ::ₘ 0) := leaveNode_keeps (by rfl)
  refine countExcessPages_keeps fun pagesToFree => ?_
  split
  · exact ⟨own, left⟩
  · refine ⟨?_, ⟨own, Multiset.mem_singleton_self _, left⟩, fun following => ?_⟩
    · rintro _ ⟨⟩
      exact own
    · have last : (Code.shrinkFrom following : Code cpus).Keeps {(following, .live)} := rfl
      have both : (node, Standing.live) ∈ ((following, Standing.live) ::ₘ {(node, Standing.live)} : Multiset (Nat × Standing)) :=
        Multiset.mem_cons_of_mem (Multiset.mem_singleton_self _)
      refine ⟨Multiset.mem_map_of_mem Prod.fst both, both, {(following, .live)}, Multiset.cons_swap .., grip_mem,
        {(following, .live)}, rfl, ?_⟩
      exact last

theorem storePage_keeps {next : Bool → Code cpus} (stored : (next true).Keeps ((node, .idle) ::ₘ grip))
    (failed : (next false).Keeps ((node, .live) ::ₘ grip))
    (lzo : Lzo) (data : PageData) (isZero : Bool) (choices : PutChoices) :
    (zcacheStorePage lzo node index data isZero choices next).Keeps ((node, .live) ::ₘ grip) := by
  unfold zcacheStorePage
  split
  · exact ⟨grip_mem, grip, rfl, ⟨grip_mem, stored⟩, grip_mem, failed⟩
  · split
    · split
      · exact failed
      · split
        · exact failed
        · rintro (_ | location)
          · exact failed
          · exact ⟨grip_mem, grip, rfl, ⟨grip_mem, stored⟩, grip_mem, failed⟩
    · exact failed

theorem findStore_keeps (lzo : Lzo) (inodeNo index : Nat) (data : PageData) (choices : PutChoices) :
    (findStore lzo inodeNo index data choices : Code cpus).Keeps 0 := by
  have into (node : Nat) : (putInto lzo node index data choices : Code cpus).Keeps ((node, .live) ::ₘ 0) := by
    refine ⟨grip_mem, Multiset.mem_cons_self .., fun zpage => ⟨grip_mem, ?_⟩⟩
    refine freePage_keeps (storePage_keeps ?_ ?_ ..) zpage
    · exact ⟨0, rfl, rfl⟩
    · exact ⟨grip_mem, leaveNode_keeps rfl⟩
  refine ⟨nofun, ?_, into⟩
  show (zcacheInodeCreate inodeNo choices.node _).Keeps 0
  unfold zcacheInodeCreate
  split
  · exact fun node => ⟨0, rfl, into⟩
  · exact rfl

theorem Op.keeps (lzo : Lzo) {op : Op} (mounted : op ≠ .flushFs) : (op.code lzo : Code cpus).Keeps 0 := by
  have shrinks : (zcacheShrinkPool : Code cpus).Keeps 0 := ⟨nofun, rfl, fun node => rfl⟩
  cases op with
  | putPage filekey index data choices =>
    show (zcachePutPage lzo filekey index data choices).Keeps 0
    unfold zcachePutPage
    split
    · exact findStore_keeps ..
    · intro size memlimit
      simp only
      split
      · exact rfl
      · exact findStore_keeps ..
  | getPage filekey index page =>
    refine ⟨nofun, rfl, fun node => ⟨grip_mem, Multiset.mem_cons_self .., fun nodeptr => leaveNode_keeps ?_⟩⟩
    split
    · exact rfl
    · split
      · exact freePage_keeps (by rfl) nodeptr
      · intro header
        simp only
        split
        · exact fun bytes => freePage_keeps (by rfl) nodeptr
        · trivial
  | flushPage filekey index =>
    exact ⟨nofun, rfl, fun node => ⟨grip_mem, Multiset.mem_cons_self .., fun page => leaveNode_keeps (freePage_keeps (by rfl) page)⟩⟩
  | flushInode filekey => exact ⟨nofun, rfl, fun node => ⟨grip_mem, Multiset.mem_cons_self .., leaveNode_keeps (by rfl)⟩⟩
  | shrinkPool => exact shrinks
  | memlimitStore memlimit =>
    have counts : (zcacheCountExcessPages fun excess => if excess = 0 then .done .returned else zcacheShrinkPool : Code cpus).Keeps 0 := by
      refine countExcessPages_keeps fun excess => ?_
      split
      · exact rfl
      · exact shrinks
    exact counts
  | flushFs => exact absurd rfl mounted

end Codes

/-- The node is in the tree, under its number. -/
def Pool.InTree (pool : Pool cpus) (node : Nat) (inode : InodeRb) : Prop := pool.inodeTree.find? inode.inodeNo = some node

instance (pool : Pool cpus) (node : Nat) (inode : InodeRb) : Decidable (pool.InTree node inode) := inferInstanceAs (Decidable (_ = _))

/-- A reference count is what the tree and the operations in progress hold, and only
nodes of the tree have pages. -/
structure Refs (pool : Pool cpus) (total : Multiset (Nat × Standing)) : Prop where
  linked : ∀ {key node}, pool.inodeTree.find? key = some node → ∃ inode, pool.nodes node = some inode ∧ inode.inodeNo = key
  counted : ∀ {node inode}, pool.nodes node = some inode → inode.refcount = (if pool.InTree node inode then 1 else 0) + gripsOf total node
  present : ∀ {node standing}, (node, standing) ∈ total → ∃ inode, pool.nodes node = some inode
  live : ∀ {node inode}, (node, Standing.live) ∈ total → pool.nodes node = some inode → pool.InTree node inode
  fresh : ∀ {node inode}, (node, Standing.fresh) ∈ total → pool.nodes node = some inode → ¬ pool.InTree node inode ∧ inode.refcount = 1
  stored : ∀ {node inode}, pool.nodes node = some inode → inode.pageTree.entries ≠ [] → pool.InTree node inode
  named : ∀ {node}, pool.created ≤ node → pool.nodes node = none

section Refs
variable {pool after : Pool cpus} {total changed : Multiset (Nat × Standing)} {node other : Nat} {inode new found : InodeRb}
    {standing : Standing}

theorem setNode_self : (pool.setNode node new).nodes node = some new := Function.update_self ..

theorem setNode_other (elsewhere : other ≠ node) : (pool.setNode node new).nodes other = pool.nodes other :=
  Function.update_of_ne elsewhere ..

theorem setNode_cases (standing : (pool.setNode node new).nodes other = some found) :
    (other = node ∧ found = new) ∨ (other ≠ node ∧ pool.nodes other = some found) := by
  rcases Classical.em (other = node) with rfl | elsewhere
  · exact .inl ⟨rfl, (Option.some.inj (setNode_self.symm.trans standing)).symm⟩
  · exact .inr ⟨elsewhere, (setNode_other elsewhere).symm.trans standing⟩

theorem Refs.create (kernel : Kernel) (memlimit : Nat) : Refs (Pool.create kernel memlimit : Pool cpus) 0 where
  linked := nofun
  counted := nofun
  present member := absurd member (Multiset.notMem_zero _)
  live := nofun
  fresh := nofun
  stored := nofun
  named _ := rfl

theorem Refs.congr (refs : Refs pool total) (nodes : after.nodes = pool.nodes) (tree : after.inodeTree = pool.inodeTree)
    (created : after.created = pool.created) :
    Refs after total := by
  constructor
  all_goals simp only [Pool.InTree, nodes, tree, created]
  exacts [refs.linked, refs.counted, refs.present, refs.live, refs.fresh, refs.stored, refs.named]

theorem Refs.move (refs : Refs pool total) (here : pool.nodes node = some inode) {tree : SortedMap Nat}
    (inodeNo : new.inodeNo = inode.inodeNo)
    (places : ∀ {key other}, other ≠ node → (tree.find? key = some other ↔ pool.inodeTree.find? key = some other))
    (own : ∀ {key}, tree.find? key = some node → key = inode.inodeNo)
    (others : ∀ {other standing}, other ≠ node → (other, standing) ∈ changed → (other, standing) ∈ total)
    (counts : ∀ {other}, other ≠ node → gripsOf changed other = gripsOf total other)
    (counted : new.refcount = (if tree.find? inode.inodeNo = some node then 1 else 0) + gripsOf changed node)
    (live : (node, Standing.live) ∈ changed → tree.find? inode.inodeNo = some node)
    (fresh : (node, Standing.fresh) ∈ changed → tree.find? inode.inodeNo ≠ some node ∧ new.refcount = 1)
    (stored : new.pageTree.entries ≠ [] → tree.find? inode.inodeNo = some node) :
    Refs { pool.setNode node new with inodeTree := tree } changed := by
  generalize moved : { pool.setNode node new with inodeTree := tree } = result
  have nodes : result.nodes = (pool.setNode node new).nodes := by rw [← moved]
  have created : result.created = pool.created := by
    rw [← moved]
    rfl
  have place : result.InTree node new ↔ tree.find? inode.inodeNo = some node := by
    rw [Pool.InTree, inodeNo, ← moved]
  have elsewhere {other : Nat} {found : InodeRb} (different : other ≠ node) : result.InTree other found ↔ pool.InTree other found := by
    rw [Pool.InTree, ← moved]
    exact places different
  have split {other : Nat} {found : InodeRb} (there : result.nodes other = some found) :
      (other = node ∧ found = new) ∨ (other ≠ node ∧ pool.nodes other = some found) := by
    rw [nodes] at there
    exact setNode_cases there
  have untouched {other : Nat} (different : other ≠ node) : result.nodes other = pool.nodes other := by
    rw [nodes]
    exact setNode_other different
  have itself : result.nodes node = some new := by
    rw [nodes]
    exact setNode_self
  constructor
  case linked =>
    intro key other linked
    rw [← moved] at linked
    rcases Classical.em (other = node) with rfl | different
    · exact ⟨new, itself, inodeNo.trans (own linked).symm⟩
    · obtain ⟨found, there, key⟩ := refs.linked ((places different).mp linked)
      exact ⟨found, (untouched different).trans there, key⟩
  case counted =>
    intro other found there
    rcases split there with ⟨rfl, rfl⟩ | ⟨different, there⟩
    · simp only [place]
      exact counted
    · simp only [elsewhere different, counts different]
      exact refs.counted there
  case present =>
    intro other standing member
    rcases Classical.em (other = node) with rfl | different
    · exact ⟨new, itself⟩
    · obtain ⟨found, there⟩ := refs.present (others different member)
      exact ⟨found, (untouched different).trans there⟩
  case live =>
    intro other found member there
    rcases split there with ⟨rfl, rfl⟩ | ⟨different, there⟩
    · exact place.mpr (live member)
    · exact (elsewhere different).mpr (refs.live (others different member) there)
  case fresh =>
    intro other found member there
    rcases split there with ⟨rfl, rfl⟩ | ⟨different, there⟩
    · exact ⟨fun inTree => (fresh member).1 (place.mp inTree), (fresh member).2⟩
    · rw [elsewhere different]
      exact refs.fresh (others different member) there
  case stored =>
    intro other found there pages
    rcases split there with ⟨rfl, rfl⟩ | ⟨different, there⟩
    · exact place.mpr (stored pages)
    · exact (elsewhere different).mpr (refs.stored there pages)
  case named =>
    intro other large
    rw [created] at large
    have unused := refs.named large
    refine (untouched ?_).trans unused
    rintro rfl
    rw [here] at unused
    cases unused

theorem Refs.adjust (refs : Refs pool total) (here : pool.nodes node = some inode) (inodeNo : new.inodeNo = inode.inodeNo)
    (others : ∀ {other standing}, other ≠ node → (other, standing) ∈ changed → (other, standing) ∈ total)
    (counts : ∀ {other}, other ≠ node → gripsOf changed other = gripsOf total other)
    (counted : new.refcount = (if pool.InTree node inode then 1 else 0) + gripsOf changed node)
    (live : (node, Standing.live) ∈ changed → pool.InTree node inode)
    (fresh : (node, Standing.fresh) ∈ changed → ¬ pool.InTree node inode ∧ new.refcount = 1)
    (stored : new.pageTree.entries ≠ [] → pool.InTree node inode) : Refs (pool.setNode node new) changed := by
  refine refs.move here inodeNo (fun _ => Iff.rfl) ?_ others counts counted live fresh stored
  intro key linked
  obtain ⟨found, there, key⟩ := refs.linked linked
  obtain rfl := Option.some.inj (here.symm.trans there)
  exact key.symm

theorem Refs.modify (refs : Refs pool total) (here : pool.nodes node = some inode) (inodeNo : new.inodeNo = inode.inodeNo)
    (refcount : new.refcount = inode.refcount) (stored : new.pageTree.entries ≠ [] → pool.InTree node inode) :
    Refs (pool.setNode node new) total :=
  refs.adjust here inodeNo (fun _ member => member) (fun _ => rfl) (refcount.trans (refs.counted here))
    (fun member => refs.live member here)
    (fun member => ⟨(refs.fresh member here).1, refcount.trans (refs.fresh member here).2⟩) stored

theorem Refs.krefGet (refs : Refs pool total) (here : pool.nodes node = some inode) (inTree : pool.InTree node inode) :
    Refs (pool.setNode node { inode with refcount := inode.refcount + 1 }) ((node, .live) ::ₘ total) := by
  have counted := refs.counted here
  refine refs.adjust here rfl ?_ ?_ ?_ (fun _ => inTree) ?_ fun _ => inTree
  · intro other standing elsewhere member
    rcases Multiset.mem_cons.mp member with same | old
    · exact absurd (congrArg Prod.fst same) elsewhere
    · exact old
  · intro other elsewhere
    rw [gripsOf_cons, if_neg elsewhere, Nat.add_zero]
  · rw [gripsOf_cons, if_pos rfl]
    exact (congrArg (· + 1) counted).trans (Nat.add_assoc ..)
  · intro member
    rcases Multiset.mem_cons.mp member with same | old
    · cases same
    · exact absurd inTree (refs.fresh old here).1

theorem Refs.drop (refs : Refs pool ((node, .idle) ::ₘ total)) (here : pool.nodes node = some inode) (more : inode.refcount ≠ 1) :
    Refs (pool.setNode node { inode with refcount := inode.refcount - 1 }) total := by
  have counted := refs.counted here
  rw [gripsOf_cons, if_pos rfl] at counted
  refine refs.adjust here rfl (fun _ member => Multiset.mem_cons_of_mem member) ?_ ?_ ?_ ?_ fun pages => refs.stored here pages
  · intro other elsewhere
    rw [gripsOf_cons, if_neg elsewhere, Nat.add_zero]
  · show inode.refcount - 1 = _
    omega
  · exact fun member => refs.live (Multiset.mem_cons_of_mem member) here
  · exact fun member => absurd (refs.fresh (Multiset.mem_cons_of_mem member) here).2 more

theorem Refs.kfree (refs : Refs pool ((node, standing) ::ₘ total)) (here : pool.nodes node = some inode) (last : inode.refcount = 1) :
    ¬ pool.InTree node inode ∧ inode.pageTree.entries = [] ∧ Refs (pool.kfree node) total := by
  have counted := refs.counted here
  rw [gripsOf_cons, if_pos rfl, last] at counted
  have outside : ¬ pool.InTree node inode := by
    intro inTree
    rw [if_pos inTree] at counted
    omega
  have gone : gripsOf total node = 0 := by omega
  have kept {other : Nat} {found : InodeRb} (there : (pool.kfree node).nodes other = some found) : other ≠ node ∧
      pool.nodes other = some found := by
    rcases Classical.em (other = node) with rfl | elsewhere
    · rw [show (pool.kfree other).nodes other = none from Function.update_self ..] at there
      cases there
    · exact ⟨elsewhere, (Function.update_of_ne elsewhere ..).symm.trans there⟩
  have elsewhere {other : Nat} (different : other ≠ node) : (pool.kfree node).nodes other = pool.nodes other :=
    Function.update_of_ne different ..
  refine ⟨outside, Classical.byContradiction fun pages => outside (refs.stored here pages), ?_⟩
  constructor
  case linked =>
    intro key other linked
    obtain ⟨found, there, key⟩ := refs.linked linked
    refine ⟨found, (elsewhere ?_).trans there, key⟩
    rintro rfl
    obtain rfl := Option.some.inj (here.symm.trans there)
    refine outside ?_
    rw [Pool.InTree, key]
    exact linked
  case counted =>
    intro other found there
    obtain ⟨different, there⟩ := kept there
    have counted := refs.counted there
    rw [gripsOf_cons, if_neg different, Nat.add_zero] at counted
    exact counted
  case present =>
    intro other standing member
    obtain ⟨found, there⟩ := refs.present (Multiset.mem_cons_of_mem member)
    refine ⟨found, (elsewhere ?_).trans there⟩
    rintro rfl
    exact gripsOf_eq_zero gone _ member
  case live => exact fun member there => refs.live (Multiset.mem_cons_of_mem member) (kept there).2
  case fresh => exact fun member there => refs.fresh (Multiset.mem_cons_of_mem member) (kept there).2
  case stored => exact fun there pages => refs.stored (kept there).2 pages
  case named =>
    intro other large
    have unused := refs.named large
    refine (elsewhere ?_).trans unused
    rintro rfl
    rw [here] at unused
    cases unused

theorem Refs.addNode (refs : Refs pool total) (inodeNo : Nat) : Refs (pool.addNode inodeNo) ((pool.created, .fresh) ::ₘ total) := by
  have unused : pool.nodes pool.created = none := refs.named (Nat.le_refl _)
  have notHeld (standing : Standing) : (pool.created, standing) ∉ total := by
    intro member
    obtain ⟨inode, here⟩ := refs.present member
    rw [unused] at here
    cases here
  have none_ : gripsOf total pool.created = 0 := by
    refine Multiset.count_eq_zero.mpr fun member => ?_
    obtain ⟨⟨_, standing⟩, held, rfl⟩ := Multiset.mem_map.mp member
    exact notHeld standing held
  have notLinked (key : Nat) : pool.inodeTree.find? key ≠ some pool.created := by
    intro linked
    obtain ⟨inode, here, _⟩ := refs.linked linked
    rw [unused] at here
    cases here
  have different {other : Nat} {found : InodeRb} (there : pool.nodes other = some found) : other ≠ pool.created := by
    rintro rfl
    rw [unused] at there
    cases there
  constructor
  case linked =>
    intro key other linked
    obtain ⟨found, there, key⟩ := refs.linked linked
    exact ⟨found, (setNode_other (different there)).trans there, key⟩
  case counted =>
    intro other found there
    rcases setNode_cases there with ⟨rfl, rfl⟩ | ⟨elsewhere, there⟩
    · rw [gripsOf_cons, if_pos rfl, none_]
      exact (if_neg (notLinked _)).symm ▸ rfl
    · rw [gripsOf_cons, if_neg elsewhere, Nat.add_zero]
      exact refs.counted there
  case present =>
    intro other standing member
    rcases Multiset.mem_cons.mp member with same | old
    · cases same
      exact ⟨_, setNode_self⟩
    · obtain ⟨found, there⟩ := refs.present old
      exact ⟨found, (setNode_other (different there)).trans there⟩
  case live =>
    intro other found member there
    rcases Multiset.mem_cons.mp member with same | old
    · cases same
    · rcases setNode_cases there with ⟨rfl, rfl⟩ | ⟨_, there⟩
      · exact absurd old (notHeld _)
      · exact refs.live old there
  case fresh =>
    intro other found member there
    rcases setNode_cases there with ⟨rfl, rfl⟩ | ⟨elsewhere, there⟩
    · exact ⟨notLinked _, rfl⟩
    · rcases Multiset.mem_cons.mp member with same | old
      · exact absurd (congrArg Prod.fst same) elsewhere
      · exact refs.fresh old there
  case stored =>
    intro other found there pages
    rcases setNode_cases there with ⟨rfl, rfl⟩ | ⟨_, there⟩
    · exact absurd rfl pages
    · exact refs.stored there pages
  case named =>
    intro other large
    have beyond : pool.created + 1 ≤ other := large
    exact (setNode_other (Nat.ne_of_gt beyond)).trans (refs.named (Nat.le_of_succ_le beyond))

theorem Refs.relax (refs : Refs pool ((node, standing) ::ₘ total)) : Refs pool ((node, .idle) ::ₘ total) where
  linked := refs.linked
  counted there := by
    have counted := refs.counted there
    rw [gripsOf_cons] at counted ⊢
    exact counted
  present member := by
    rcases Multiset.mem_cons.mp member with same | old
    · obtain rfl := congrArg Prod.fst same
      exact refs.present (Multiset.mem_cons_self ..)
    · exact refs.present (Multiset.mem_cons_of_mem old)
  live member := by
    rcases Multiset.mem_cons.mp member with same | old
    · cases same
    · exact refs.live (Multiset.mem_cons_of_mem old)
  fresh member := by
    rcases Multiset.mem_cons.mp member with same | old
    · cases same
    · exact refs.fresh (Multiset.mem_cons_of_mem old)
  stored := refs.stored
  named := refs.named

theorem Refs.linkNode (refs : Refs pool ((node, .fresh) ::ₘ total)) {used : Nat} (linked : pool.linkNode node = some (after, used)) :
    Refs after ((used, .live) ::ₘ total) := by
  obtain ⟨inode, here, linked⟩ := Option.bind_eq_some_iff.mp linked
  obtain ⟨outside, alone⟩ := refs.fresh (Multiset.mem_cons_self ..) here
  cases taken : pool.inodeTree.find? inode.inodeNo with
  | some existing =>
    simp only [taken] at linked
    obtain ⟨result, got, same⟩ := Option.map_eq_some_iff.mp linked
    obtain ⟨rfl, rfl⟩ := Prod.mk.inj same
    obtain ⟨_, _, freed⟩ := refs.kfree here alone
    obtain ⟨found, there, rfl⟩ := Option.map_eq_some_iff.mp got
    obtain ⟨same, thereToo, key⟩ := freed.linked taken
    obtain rfl := Option.some.inj (there.symm.trans thereToo)
    refine freed.krefGet there ?_
    rw [Pool.InTree, key]
    exact taken
  | none =>
    simp only [taken] at linked
    obtain ⟨result, got, same⟩ := Option.map_eq_some_iff.mp linked
    obtain ⟨rfl, rfl⟩ := Prod.mk.inj same
    obtain ⟨found, there, rfl⟩ := Option.map_eq_some_iff.mp got
    obtain rfl := Option.some.inj (here.symm.trans there)
    have counted := refs.counted here
    rw [gripsOf_cons, if_pos rfl, if_neg outside, alone] at counted
    have none_ : gripsOf total node = 0 := by omega
    have tree (key : Nat) : (pool.inodeTree.insert inode.inodeNo node).find? key = if key =
        inode.inodeNo then some node else pool.inodeTree.find? key :=
      SortedMap.find?_insert ..
    refine refs.move here rfl ?_ ?_ ?_ ?_ ?_ ?_ ?_ ?_
    · intro key other different
      rw [tree]
      split
      next same =>
        subst same
        rw [taken]
        exact iff_of_false (fun same => different (Option.some.inj same).symm) (by simp)
      next => exact Iff.rfl
    · intro key linked
      rw [tree] at linked
      split at linked
      next same => exact same
      next =>
        obtain ⟨found, there, rfl⟩ := refs.linked linked
        obtain rfl := Option.some.inj (here.symm.trans there)
        exact absurd linked outside
    · intro other standing different member
      rcases Multiset.mem_cons.mp member with same | old
      · exact absurd (congrArg Prod.fst same) different
      · exact Multiset.mem_cons_of_mem old
    · intro other different
      rw [gripsOf_cons, gripsOf_cons]
    · rw [tree, if_pos rfl, if_pos rfl, gripsOf_cons, if_pos rfl, none_, alone]
    · intro _
      rw [tree, if_pos rfl]
    · intro member
      rcases Multiset.mem_cons.mp member with same | old
      · cases same
      · exact absurd old (gripsOf_eq_zero none_ _)
    · intro _
      rw [tree, if_pos rfl]

/-- The node may be out of the tree afterwards, and nobody else had a reference then. -/
theorem Refs.isolate (refs : Refs pool ((node, .live) ::ₘ total)) (isolated : pool.isolateIfEmpty node = some after) :
    Refs after ((node, .idle) ::ₘ total) := by
  obtain ⟨inode, here, isolated⟩ := Option.bind_eq_some_iff.mp isolated
  have inTree := refs.live (Multiset.mem_cons_self ..) here
  split at isolated
  next empty =>
    unfold zcacheInodeIsolate at isolated
    split at isolated
    next two =>
      rw [if_pos (show pool.inodeTree.find? inode.inodeNo = some node from inTree)] at isolated
      obtain rfl := Option.some.inj isolated
      have counted := refs.counted here
      rw [gripsOf_cons, if_pos rfl, if_pos inTree, two] at counted
      have none_ : gripsOf total node = 0 := by omega
      have tree (key : Nat) : (pool.inodeTree.erase inode.inodeNo).find? key = if key =
          inode.inodeNo then none else pool.inodeTree.find? key :=
        SortedMap.find?_erase ..
      refine refs.move here rfl ?_ ?_ ?_ ?_ ?_ ?_ ?_ ?_
      · intro key other different
        rw [tree]
        split
        next same =>
          subst same
          rw [show pool.inodeTree.find? inode.inodeNo = some node from inTree]
          exact iff_of_false (by simp) fun same => different (Option.some.inj same).symm
        next => exact Iff.rfl
      · intro key linked
        rw [tree] at linked
        split at linked
        next same => exact same
        next =>
          obtain ⟨found, there, rfl⟩ := refs.linked linked
          obtain rfl := Option.some.inj (here.symm.trans there)
          rfl
      · intro other standing different member
        rcases Multiset.mem_cons.mp member with same | old
        · exact absurd (congrArg Prod.fst same) different
        · exact Multiset.mem_cons_of_mem old
      · intro other different
        rw [gripsOf_cons, gripsOf_cons]
      · rw [tree, if_pos rfl, if_neg (by simp), gripsOf_cons, if_pos rfl, none_]
      · intro member
        rcases Multiset.mem_cons.mp member with same | old
        · cases same
        · exact absurd old (gripsOf_eq_zero none_ _)
      · intro member
        rcases Multiset.mem_cons.mp member with same | old
        · cases same
        · exact absurd old (gripsOf_eq_zero none_ _)
      · intro pages
        exact absurd (List.isEmpty_iff.mp empty) pages
    next =>
      obtain rfl := Option.some.inj isolated
      exact refs.relax
  next =>
    obtain rfl := Option.some.inj isolated
    exact refs.relax

theorem Refs.krefPut (refs : Refs pool ((node, .idle) ::ₘ total)) (dropped : pool.krefPut node = some after) : Refs after total := by
  obtain ⟨inode, here, dropped⟩ := Option.bind_eq_some_iff.mp dropped
  split at dropped
  next last =>
    obtain ⟨_, empty, freed⟩ := refs.kfree here last
    rw [if_pos (show zcacheInodeIsEmpty inode = true from List.isEmpty_iff.mpr empty)] at dropped
    obtain rfl := Option.some.inj dropped
    exact freed
  next more =>
    obtain rfl := Option.some.inj dropped
    exact refs.drop here more

/-- An operation that has yet to isolate the node or to add a page to it refers to
every node of the tree without pages. -/
def Watched (pool : Pool cpus) (total : Multiset (Nat × Standing)) : Prop :=
  ∀ node inode, pool.nodes node = some inode → pool.InTree node inode → inode.pageTree.entries = [] → (node, Standing.live) ∈ total

theorem Watched.congr (watched : Watched pool total) (nodes : after.nodes = pool.nodes) (tree : after.inodeTree = pool.inodeTree) :
    Watched after total := by
  intro node inode here inTree empty
  rw [nodes] at here
  rw [Pool.InTree, tree] at inTree
  exact watched _ _ here inTree empty

theorem Watched.move (watched : Watched pool total)
    (others : ∀ {other found}, other ≠ node → after.nodes other = some found → after.InTree other found → pool.nodes other = some found ∧
      pool.InTree other found)
    (lives : ∀ {other}, other ≠ node → (other, Standing.live) ∈ total → (other, Standing.live) ∈ changed)
    (own : ∀ {found}, after.nodes node = some found → after.InTree node found → found.pageTree.entries = [] →
      (node, Standing.live) ∈ changed) :
    Watched after changed := by
  intro other found there inTree empty
  rcases Classical.em (other = node) with rfl | different
  · exact own there inTree empty
  · obtain ⟨before, linked⟩ := others different there inTree
    exact lives different (watched _ _ before linked empty)

theorem Watched.adjust (watched : Watched pool total)
    (lives : ∀ {other}, other ≠ node → (other, Standing.live) ∈ total → (other, Standing.live) ∈ changed)
    (own : pool.InTree node new → new.pageTree.entries = [] → (node, Standing.live) ∈ changed) :
    Watched (pool.setNode node new) changed := by
  refine watched.move (fun different there inTree => ⟨(setNode_other different).symm.trans there, inTree⟩) lives
    fun {found} there inTree empty => ?_
  obtain rfl := Option.some.inj (setNode_self.symm.trans there)
  exact own inTree empty

theorem Watched.kfree (watched : Watched pool total) (node : Nat) : Watched (pool.kfree node) total := by
  intro other found there inTree empty
  rcases Classical.em (other = node) with rfl | different
  · rw [show (pool.kfree other).nodes other = none from Function.update_self ..] at there
    cases there
  · exact watched _ _ ((Function.update_of_ne different ..).symm.trans there) inTree empty

theorem Watched.linkNode (watched : Watched pool ((node, .fresh) ::ₘ total)) {used : Nat}
    (linked : pool.linkNode node = some (after, used)) :
    Watched after ((used, .live) ::ₘ total) := by
  have lives {other : Nat} (held : (other, Standing.live) ∈ (node, Standing.fresh) ::ₘ total) :
      (other, Standing.live) ∈ (used, Standing.live) ::ₘ total := by
    rcases Multiset.mem_cons.mp held with same | old
    · cases same
    · exact Multiset.mem_cons_of_mem old
  obtain ⟨inode, here, linked⟩ := Option.bind_eq_some_iff.mp linked
  split at linked
  next existing taken =>
    obtain ⟨result, got, same⟩ := Option.map_eq_some_iff.mp linked
    obtain ⟨rfl, rfl⟩ := Prod.mk.inj same
    obtain ⟨found, there, rfl⟩ := Option.map_eq_some_iff.mp got
    exact (watched.kfree node).adjust (fun _ => lives) fun _ _ => Multiset.mem_cons_self ..
  next free =>
    obtain ⟨result, got, same⟩ := Option.map_eq_some_iff.mp linked
    obtain ⟨rfl, rfl⟩ := Prod.mk.inj same
    obtain ⟨found, there, rfl⟩ := Option.map_eq_some_iff.mp got
    refine watched.move ?_ (fun _ => lives) fun _ _ _ => Multiset.mem_cons_self ..
    intro other present different there inTree
    refine ⟨(setNode_other different).symm.trans there, ?_⟩
    have place : (pool.inodeTree.insert inode.inodeNo node).find? present.inodeNo = some other := inTree
    rw [SortedMap.find?_insert] at place
    split at place
    · exact absurd (Option.some.inj place).symm different
    · exact place

/-- A node without pages leaves the tree, unless an operation on its way with the
node keeps it. -/
theorem Watched.isolate (watched : Watched pool ((node, .live) ::ₘ total)) (isolated : pool.isolateIfEmpty node = some after)
    (kept : ∀ inode, pool.nodes node = some inode → inode.pageTree.entries = [] → inode.refcount ≠ 2 → (node, Standing.live) ∈ total) :
    Watched after ((node, .idle) ::ₘ total) := by
  have lives {other : Nat} (different : other ≠ node) (held : (other, Standing.live) ∈ (node, Standing.live) ::ₘ total) :
      (other, Standing.live) ∈ (node, Standing.idle) ::ₘ total := by
    rcases Multiset.mem_cons.mp held with same | old
    · exact absurd (congrArg Prod.fst same) different
    · exact Multiset.mem_cons_of_mem old
  obtain ⟨inode, here, isolated⟩ := Option.bind_eq_some_iff.mp isolated
  have stays (own : inode.pageTree.entries = [] → (node, Standing.live) ∈ total) : Watched pool ((node, .idle) ::ₘ total) := by
    refine watched.move (fun _ there inTree => ⟨there, inTree⟩) lives fun {found} there _ empty => ?_
    obtain rfl := Option.some.inj (here.symm.trans there)
    exact Multiset.mem_cons_of_mem (own empty)
  split at isolated
  next empty =>
    unfold zcacheInodeIsolate at isolated
    split at isolated
    next two =>
      split at isolated
      next linked =>
        obtain rfl := Option.some.inj isolated
        refine watched.move ?_ lives ?_
        · intro other found different there inTree
          refine ⟨(setNode_other different).symm.trans there, ?_⟩
          have place : (pool.inodeTree.erase inode.inodeNo).find? found.inodeNo = some other := inTree
          rw [SortedMap.find?_erase] at place
          split at place
          · cases place
          · exact place
        · intro found there inTree _
          obtain rfl := Option.some.inj (setNode_self.symm.trans there)
          have place : (pool.inodeTree.erase inode.inodeNo).find? inode.inodeNo = some node := inTree
          rw [SortedMap.find?_erase_self] at place
          cases place
      next => cases isolated
    next more =>
      obtain rfl := Option.some.inj isolated
      exact stays fun pages => kept inode here pages more
  next full =>
    obtain rfl := Option.some.inj isolated
    exact stays fun pages => absurd (List.isEmpty_iff.mpr pages) full

theorem Watched.krefPut (watched : Watched pool ((node, .idle) ::ₘ total)) (dropped : pool.krefPut node = some after) :
    Watched after total := by
  have lives {other : Nat} (held : (other, Standing.live) ∈ (node, Standing.idle) ::ₘ total) : (other, Standing.live) ∈ total := by
    rcases Multiset.mem_cons.mp held with same | old
    · cases same
    · exact old
  obtain ⟨inode, here, dropped⟩ := Option.bind_eq_some_iff.mp dropped
  split at dropped
  next =>
    split at dropped
    next =>
      obtain rfl := Option.some.inj dropped
      exact fun _ _ there inTree empty => lives (watched.kfree node _ _ there inTree empty)
    next => cases dropped
  next =>
    obtain rfl := Option.some.inj dropped
    exact watched.adjust (fun _ => lives) fun inTree empty => lives (watched _ _ here inTree empty)

/-- An operation that finds its node empty at its look leaves it to another that has
yet to look, unless it isolates it. -/
def Pool.LeftTo (pool : Pool cpus) (code : Code cpus) (others : Multiset (Nat × Standing)) : Prop :=
  ∀ node inode next, code = .isolateIfEmpty node next → pool.nodes node = some inode → inode.pageTree.entries = [] → inode.refcount ≠ 2 →
    (node, Standing.live) ∈ others

end Refs

section Steps
variable {lzo : Lzo} {pool : Pool cpus} {share rest : Multiset (Nat × Standing)} {name : Nat} {cpu : Fin cpus}
    {held : List Nat} {code : Code cpus}
  {progress : Progress cpus} {machine : Machine cpus}

/-- What a step comes to: the operation holds `changed` afterwards, and the nodes are
as the references have them. -/
structure Advances (pool : Pool cpus) (share rest : Multiset (Nat × Standing)) (code : Code cpus) (progress : Progress cpus)
    (changed : Multiset (Nat × Standing)) : Prop where
  keeps : progress.code.Keeps changed
  same : changed.map Prod.fst = progress.held
  refs : Refs progress.pool (changed + rest)
  watched : Watched pool (share + rest) → pool.LeftTo code rest → Watched progress.pool (changed + rest)

theorem Refs.still (refs : Refs pool (share + rest)) (keeps : progress.code.Keeps share) (same : share.map Prod.fst = progress.held)
    (nodes : progress.pool.nodes = pool.nodes) (tree : progress.pool.inodeTree = pool.inodeTree)
    (created : progress.pool.created = pool.created) :
    Advances pool share rest code progress share :=
  ⟨keeps, same, refs.congr nodes tree created, fun watched _ => watched.congr nodes tree⟩

theorem Refs.modified (refs : Refs pool (share + rest)) {node : Nat} {inode new : InodeRb} {next : Code cpus} (keeps : next.Keeps share)
    (same : share.map Prod.fst = held) (here : pool.nodes node = some inode) (inodeNo : new.inodeNo = inode.inodeNo)
    (refcount : new.refcount = inode.refcount)
    (pages : inode.pageTree.entries = [] → new.pageTree.entries = [])
    (own : Watched pool (share + rest) → pool.InTree node new → new.pageTree.entries = [] → (node, Standing.live) ∈ share + rest) :
    Advances pool share rest code ⟨pool.setNode node new, held, next⟩ share :=
  ⟨keeps, same, refs.modify here inodeNo refcount fun some_ => refs.stored here fun none_ => some_ (pages none_),
    fun watched _ => watched.adjust (fun _ held => held) (own watched)⟩

theorem Pool.select_linked {which : Which} {node : Nat} (chosen : pool.select which = some (some node)) :
    ∃ key, pool.inodeTree.find? key = some node := by
  cases which with
  | inode inodeNo => exact ⟨inodeNo, Option.some.inj chosen⟩
  | first =>
    obtain ⟨entry, first, rfl⟩ := Option.map_eq_some_iff.mp (Option.some.inj chosen)
    exact ⟨entry.1, (SortedMap.first_eq_some first).1⟩
  | next node =>
    obtain ⟨inode, _, found⟩ := Option.map_eq_some_iff.mp chosen
    obtain ⟨entry, next, rfl⟩ := Option.map_eq_some_iff.mp found
    exact ⟨entry.1, (SortedMap.next_eq_some next).2.1⟩

theorem Refs.step_acquire (refs : Refs pool (share + rest)) {which : Which} {next : Option Nat → Code cpus}
    (keeps : (Code.acquire which next).Keeps share)
    (same : share.map Prod.fst = held) (advanced : pool.advance lzo name cpu held (.acquire which next) = some progress) :
    ∃ changed, Advances pool share rest (.acquire which next) progress changed := by
  obtain ⟨chosen, selects, moved⟩ := Option.bind_eq_some_iff.mp advanced
  cases chosen with
  | none =>
    obtain rfl := Option.some.inj moved
    exact ⟨share, refs.still keeps.2.1 same rfl rfl rfl⟩
  | some node =>
    obtain ⟨result, got, rfl⟩ := Option.map_eq_some_iff.mp moved
    obtain ⟨inode, here, rfl⟩ := Option.map_eq_some_iff.mp got
    obtain ⟨key, linked⟩ := Pool.select_linked selects
    obtain ⟨found, there, inodeNo⟩ := refs.linked linked
    obtain rfl := Option.some.inj (here.symm.trans there)
    have inTree : pool.InTree node inode := by
      rw [Pool.InTree, inodeNo]
      exact linked
    refine ⟨(node, .live) ::ₘ share, keeps.2.2 node, ?_, ?_, fun watched _ => ?_⟩
    · rw [Multiset.map_cons, same]
      rfl
    · rw [Multiset.cons_add]
      exact refs.krefGet here inTree
    · rw [Multiset.cons_add]
      exact watched.adjust (fun _ => Multiset.mem_cons_of_mem) fun _ _ => Multiset.mem_cons_self ..

theorem Refs.step_allocNode (refs : Refs pool (share + rest)) {inodeNo : Nat} {next : Nat → Code cpus}
    (keeps : (Code.allocNode inodeNo next).Keeps share)
    (same : share.map Prod.fst = held) :
    Advances pool share rest (.allocNode inodeNo next) ⟨pool.addNode inodeNo, pool.created :: held, next pool.created⟩
      ((pool.created, .fresh) ::ₘ share) := by
  refine ⟨keeps _, ?_, ?_, fun watched _ => ?_⟩
  · rw [Multiset.map_cons, same]
    rfl
  · rw [Multiset.cons_add]
    exact refs.addNode inodeNo
  · rw [Multiset.cons_add]
    refine Watched.congr (watched.adjust (fun _ => Multiset.mem_cons_of_mem) fun inTree _ => ?_) rfl rfl
    obtain ⟨found, there, _⟩ := refs.linked inTree
    rw [refs.named (Nat.le_refl _)] at there
    cases there

theorem Refs.step_linkNode (refs : Refs pool (share + rest)) {node used : Nat} {next : Nat → Code cpus} {after : Pool cpus}
    (keeps : (Code.linkNode node next).Keeps share) (same : share.map Prod.fst = held) (linked : pool.linkNode node = some (after, used)) :
    ∃ changed, Advances pool share rest (.linkNode node next) ⟨after, used :: held.erase node, next used⟩ changed := by
  obtain ⟨others, rfl, later⟩ := keeps
  refine ⟨(used, .live) ::ₘ others, later used, ?_, ?_, fun watched _ => ?_⟩
  · rw [Multiset.map_cons] at same ⊢
    show used ::ₘ others.map Prod.fst = ((used :: held.erase node : List Nat) : Multiset Nat)
    rw [← Multiset.cons_coe, ← Multiset.coe_erase, ← same, Multiset.erase_cons_head]
  · rw [Multiset.cons_add] at refs ⊢
    exact refs.linkNode linked
  · rw [Multiset.cons_add] at watched ⊢
    exact watched.linkNode linked

theorem Refs.step_radixInsert (refs : Refs pool (share + rest)) {node index : Nat} {item : Item} {memory : Bool} {next : Bool → Code cpus}
    (keeps : (Code.radixInsert node index item memory next).Keeps share) (same : share.map Prod.fst = held)
    (advanced : pool.advance lzo name cpu held (.radixInsert node index item memory next) = some progress) :
    ∃ changed, Advances pool share rest (.radixInsert node index item memory next) progress changed := by
  obtain ⟨inode, here, rfl⟩ := Option.map_eq_some_iff.mp advanced
  obtain ⟨others, rfl, inserted, failed⟩ := keeps
  split
  next => exact ⟨_, refs.still failed same rfl rfl rfl⟩
  next =>
    rw [Multiset.cons_add] at refs
    have inTree : pool.InTree node inode := refs.live (Multiset.mem_cons_self ..) here
    rw [Multiset.map_cons] at same
    refine ⟨(node, .idle) ::ₘ others, inserted, by rw [Multiset.map_cons, ← same], ?_, fun watched _ => ?_⟩
    · rw [Multiset.cons_add]
      exact (refs.modify here (by rfl) (by rfl) fun _ => inTree).relax
    · rw [Multiset.cons_add] at watched ⊢
      refine watched.adjust ?_ fun _ empty => ?_
      · intro other different held
        rcases Multiset.mem_cons.mp held with same | old
        · exact absurd (congrArg Prod.fst same) different
        · exact Multiset.mem_cons_of_mem old
      · have absent := SortedMap.entries_eq_nil.mp empty index
        rw [show (inode.pageTree.insert index item).find? index = some item from SortedMap.find?_insert_self ..] at absent
        cases absent

theorem Refs.step_isolate (refs : Refs pool (share + rest)) {node : Nat} {next : Code cpus} {after : Pool cpus}
    (keeps : (Code.isolateIfEmpty node next).Keeps share)
    (same : share.map Prod.fst = held) (isolated : pool.isolateIfEmpty node = some after) :
    ∃ changed, Advances pool share rest (.isolateIfEmpty node next) ⟨after, held, next⟩ changed := by
  obtain ⟨others, rfl, later⟩ := keeps
  rw [Multiset.map_cons] at same
  refine ⟨(node, .idle) ::ₘ others, later, by rw [Multiset.map_cons, ← same], ?_, fun watched left => ?_⟩
  · rw [Multiset.cons_add] at refs ⊢
    exact refs.isolate isolated
  · rw [Multiset.cons_add] at watched ⊢
    exact watched.isolate isolated fun inode here empty more => Multiset.mem_add.mpr (.inr (left _ _ _ rfl here empty more))

theorem Refs.step_krefPut (refs : Refs pool (share + rest)) {node : Nat} {next : Code cpus} {after : Pool cpus}
    (keeps : (Code.krefPut node next).Keeps share)
    (same : share.map Prod.fst = held) (dropped : pool.krefPut node = some after) :
    ∃ changed, Advances pool share rest (.krefPut node next) ⟨after, held.erase node, next⟩ changed := by
  obtain ⟨others, rfl, later⟩ := keeps
  refine ⟨others, later, ?_, ?_, fun watched _ => ?_⟩
  · rw [Multiset.map_cons] at same
    show others.map Prod.fst = ((held.erase node : List Nat) : Multiset Nat)
    rw [← Multiset.coe_erase, ← same, Multiset.erase_cons_head]
  · rw [Multiset.cons_add] at refs
    exact refs.krefPut dropped
  · rw [Multiset.cons_add] at watched
    exact watched.krefPut dropped

theorem Refs.step (refs : Refs pool (share + rest)) (keeps : code.Keeps share) (same : share.map Prod.fst = held)
    (advanced : pool.advance lzo name cpu held code = some progress) : ∃ changed, Advances pool share rest code progress changed := by
  cases code with
  | addStat _ _ _ | copyIn _ _ _ _ | setMemlimit _ _ =>
    obtain rfl := Option.some.inj advanced
    exact ⟨share, refs.still keeps same rfl rfl rfl⟩
  | load _ _ | decompress _ _ | xvMalloc _ _ _ =>
    obtain rfl := Option.some.inj advanced
    exact ⟨share, refs.still (keeps _) same rfl rfl rfl⟩
  | xvFree _ _ | freePage _ _ =>
    obtain ⟨xv, _, rfl⟩ := Option.map_eq_some_iff.mp advanced
    exact ⟨share, refs.still keeps same rfl rfl rfl⟩
  | sumStat stat left value next =>
    cases left with
    | nil =>
      simp only [Pool.advance] at advanced
      split at advanced
      next => cases advanced
      next =>
        obtain rfl := Option.some.inj advanced
        exact ⟨share, refs.still (keeps _) same rfl rfl rfl⟩
    | cons other left =>
      obtain rfl := Option.some.inj advanced
      exact ⟨share, refs.still keeps same rfl rfl rfl⟩
  | acquire which next => exact refs.step_acquire keeps same advanced
  | allocNode inodeNo next =>
    obtain rfl := Option.some.inj advanced
    exact ⟨_, refs.step_allocNode keeps same⟩
  | linkNode node next =>
    obtain ⟨⟨result, used⟩, linked, rfl⟩ := Option.map_eq_some_iff.mp advanced
    exact refs.step_linkNode keeps same linked
  | lock node next =>
    obtain ⟨inode, here, moved⟩ := Option.bind_eq_some_iff.mp advanced
    split at moved
    next =>
      obtain rfl := Option.some.inj moved
      exact ⟨share, refs.modified keeps.2 same here rfl rfl id fun watched inTree empty => watched _ _ here inTree empty⟩
    next => cases moved
  | unlock node next =>
    obtain ⟨inode, here, rfl⟩ := Option.map_eq_some_iff.mp advanced
    exact ⟨share, refs.modified keeps.2 same here rfl rfl id fun watched inTree empty => watched _ _ here inTree empty⟩
  | radixDelete node index next =>
    obtain ⟨inode, here, rfl⟩ := Option.map_eq_some_iff.mp advanced
    refine ⟨share, refs.modified (keeps.2 _) same here rfl rfl (fun empty => ?_) fun _ _ _ => Multiset.mem_add.mpr (.inl keeps.1)⟩
    show inode.pageTree.entries.filter _ = []
    rw [empty, List.filter_nil]
  | radixInsert node index item memory next => exact refs.step_radixInsert keeps same advanced
  | isolateIfEmpty node next =>
    obtain ⟨result, isolated, rfl⟩ := Option.map_eq_some_iff.mp advanced
    exact refs.step_isolate keeps same isolated
  | krefPut node next =>
    obtain ⟨result, dropped, rfl⟩ := Option.map_eq_some_iff.mp advanced
    exact refs.step_krefPut keeps same dropped
  | sweep node index pagesToFree tag next =>
    obtain ⟨inode, here, rfl⟩ := Option.map_eq_some_iff.mp advanced
    exact ⟨share, refs.still (freeBatchOf_keeps keeps.1 keeps.2 ..) same rfl rfl rfl⟩
  | shrinkFrom node =>
    obtain rfl := Option.some.inj advanced
    obtain rfl : share = {(node, .live)} := keeps
    exact ⟨_, refs.still (shrinkNode_keeps node) same rfl rfl rfl⟩
  | peek _ _ | eraseNode _ _ | flushFrom _ => exact keeps.elim
  | bug => cases advanced
  | done _ => cases advanced

/-- What an operation holds, and that its code keeps to it. -/
def Task.Grips (share : Multiset (Nat × Standing)) (task : Task cpus) : Prop := task.code.Keeps share ∧ share.map Prod.fst = task.held

/-- The pool is in use: nobody unmounts it. -/
def InUse (_ : Machine cpus) (action : Action cpus) : Prop := ∀ task, action ≠ .call task .flushFs

theorem grips_run {kernel : Kernel} {memlimit : Nat} (run : Run (Machine.step lzo) InUse (Machine.create kernel memlimit) machine) :
    machine.Shared Refs Task.Grips := by
  refine run.invariant (Machine.Shared Refs Task.Grips) (.create (.create kernel memlimit)) ?_
  intro before after action shared mounted taken
  refine shared.step taken ?_ ?_ ?_
  · intro name op called
    refine ⟨Op.keeps lzo fun unmounts => mounted name ?_, rfl⟩
    rw [called, unmounts]
  · rintro share task reply ⟨keeps, _⟩ returned
    rw [returned] at keeps
    exact keeps
  · rintro share rest task progress name cpu refs ⟨keeps, same⟩ _ _ _ advanced
    obtain ⟨changed, kept⟩ := refs.step keeps same advanced
    exact ⟨changed, ⟨kept.keeps, kept.same⟩, kept.refs⟩

theorem Pool.setNode_stays {node other : Nat} {new : InodeRb} (there : pool.nodes node ≠ none) :
    (pool.setNode other new).nodes node ≠ none := by
  rcases Classical.em (node = other) with rfl | elsewhere
  · rw [setNode_self]
    nofun
  · rwa [setNode_other elsewhere]

theorem Pool.kfree_own {node other : Nat} (there : pool.nodes node ≠ none) (gone : (pool.kfree other).nodes node = none) :
    node = other := by
  refine Classical.byContradiction fun elsewhere => there ?_
  rwa [show (pool.kfree other).nodes node = pool.nodes node from Function.update_of_ne elsewhere ..] at gone

theorem Pool.isolateIfEmpty_stays {node other : Nat} {after : Pool cpus} (isolated : pool.isolateIfEmpty other = some after)
    (there : pool.nodes node ≠ none) : after.nodes node ≠ none := by
  obtain ⟨_, _, isolated⟩ := Option.bind_eq_some_iff.mp isolated
  unfold zcacheInodeIsolate at isolated
  split at isolated
  next =>
    split at isolated
    next =>
      split at isolated
      next =>
        obtain rfl := Option.some.inj isolated
        exact setNode_stays there
      next => cases isolated
    next =>
      obtain rfl := Option.some.inj isolated
      exact there
  next =>
    obtain rfl := Option.some.inj isolated
    exact there

theorem Pool.krefPut_frees {node other : Nat} {after : Pool cpus} (dropped : pool.krefPut other = some after)
    (there : pool.nodes node ≠ none)
    (freed : after.nodes node = none) : node = other := by
  obtain ⟨_, _, dropped⟩ := Option.bind_eq_some_iff.mp dropped
  split at dropped
  next =>
    split at dropped
    next =>
      obtain rfl := Option.some.inj dropped
      exact kfree_own there freed
    next => cases dropped
  next =>
    obtain rfl := Option.some.inj dropped
    exact absurd freed (setNode_stays there)

/-- A node is freed where its last reference is dropped, where another node was found
in its place, or with the tree. -/
theorem Pool.advance_frees {node : Nat} {inode : InodeRb} (advanced : pool.advance lzo name cpu held code = some progress)
    (here : pool.nodes node = some inode) (freed : progress.pool.nodes node = none) :
    (∃ next, code = .krefPut node next) ∨ (∃ next, code = .linkNode node next) ∨ ∃ next, code = .eraseNode node next := by
  have there : pool.nodes node ≠ none := by
    rw [here]
    nofun
  have stays {other : Nat} {new : InodeRb} : (pool.setNode other new).nodes node ≠ none := Pool.setNode_stays there
  cases code with
  | addStat _ _ _ | load _ _ | copyIn _ _ _ _ | decompress _ _ | shrinkFrom _ | setMemlimit _ _ | flushFrom _ | xvMalloc _ _ _ =>
    obtain rfl := Option.some.inj advanced
    exact absurd freed there
  | peek _ _ | xvFree _ _ | freePage _ _ | sweep _ _ _ _ _ =>
    obtain ⟨_, _, rfl⟩ := Option.map_eq_some_iff.mp advanced
    exact absurd freed there
  | unlock _ _ | radixDelete _ _ _ =>
    obtain ⟨_, _, rfl⟩ := Option.map_eq_some_iff.mp advanced
    exact absurd freed stays
  | bug | done _ => cases advanced
  | sumStat _ left _ _ =>
    cases left with
    | nil =>
      simp only [Pool.advance] at advanced
      split at advanced
      next => cases advanced
      next =>
        obtain rfl := Option.some.inj advanced
        exact absurd freed there
    | cons _ _ =>
      obtain rfl := Option.some.inj advanced
      exact absurd freed there
  | acquire _ _ =>
    obtain ⟨chosen, _, moved⟩ := Option.bind_eq_some_iff.mp advanced
    cases chosen with
    | none =>
      obtain rfl := Option.some.inj moved
      exact absurd freed there
    | some _ =>
      obtain ⟨_, got, rfl⟩ := Option.map_eq_some_iff.mp moved
      obtain ⟨_, _, rfl⟩ := Option.map_eq_some_iff.mp got
      exact absurd freed stays
  | allocNode _ _ =>
    obtain rfl := Option.some.inj advanced
    exact absurd freed stays
  | lock _ _ =>
    obtain ⟨_, _, moved⟩ := Option.bind_eq_some_iff.mp advanced
    split at moved
    next =>
      obtain rfl := Option.some.inj moved
      exact absurd freed stays
    next => cases moved
  | radixInsert _ _ _ _ _ =>
    obtain ⟨_, _, rfl⟩ := Option.map_eq_some_iff.mp advanced
    split at freed
    next => exact absurd freed there
    next => exact absurd freed stays
  | isolateIfEmpty _ _ =>
    obtain ⟨_, isolated, rfl⟩ := Option.map_eq_some_iff.mp advanced
    exact absurd freed (Pool.isolateIfEmpty_stays isolated there)
  | krefPut other next =>
    obtain ⟨_, dropped, rfl⟩ := Option.map_eq_some_iff.mp advanced
    exact .inl ⟨next, by rw [Pool.krefPut_frees dropped there freed]⟩
  | linkNode other next =>
    obtain ⟨_, linked, rfl⟩ := Option.map_eq_some_iff.mp advanced
    obtain ⟨_, _, linked⟩ := Option.bind_eq_some_iff.mp linked
    split at linked
    next existing _ =>
      obtain ⟨_, got, rfl⟩ := Option.map_eq_some_iff.mp linked
      obtain ⟨_, _, rfl⟩ := Option.map_eq_some_iff.mp got
      refine .inr (.inl ⟨next, ?_⟩)
      rw [Pool.kfree_own there (Classical.byContradiction fun kept => Pool.setNode_stays kept freed)]
    next =>
      obtain ⟨_, got, rfl⟩ := Option.map_eq_some_iff.mp linked
      obtain ⟨_, _, rfl⟩ := Option.map_eq_some_iff.mp got
      exact absurd freed stays
  | eraseNode other next =>
    obtain ⟨_, erased, rfl⟩ := Option.map_eq_some_iff.mp advanced
    obtain ⟨_, _, erased⟩ := Option.bind_eq_some_iff.mp erased
    split at erased
    next =>
      obtain rfl := Option.some.inj erased
      exact .inr (.inr ⟨next, by rw [Pool.kfree_own there freed]⟩)
    next => cases erased

theorem Refs.freed_empty (refs : Refs pool (share + rest)) (keeps : code.Keeps share) {node : Nat} {inode : InodeRb}
    (advanced : pool.advance lzo name cpu held code = some progress) (here : pool.nodes node = some inode)
    (freed : progress.pool.nodes node = none) :
    inode.pageTree.entries = [] := by
  rcases Pool.advance_frees advanced here freed with ⟨next, rfl⟩ | ⟨next, rfl⟩ | ⟨next, rfl⟩
  · obtain ⟨_, dropped, rfl⟩ := Option.map_eq_some_iff.mp advanced
    obtain ⟨found, there, dropped⟩ := Option.bind_eq_some_iff.mp dropped
    obtain rfl := Option.some.inj (here.symm.trans there)
    split at dropped
    next =>
      split at dropped
      next empty => exact List.isEmpty_iff.mp empty
      next => cases dropped
    next =>
      obtain rfl := Option.some.inj dropped
      rw [setNode_self] at freed
      cases freed
  · obtain ⟨others, rfl, _⟩ := keeps
    rw [Multiset.cons_add] at refs
    exact Classical.byContradiction fun pages => (refs.fresh (Multiset.mem_cons_self ..) here).1 (refs.stored here pages)
  · exact keeps.elim

theorem Refs.drops (refs : Refs pool (share + rest)) {node : Nat} {next : Code cpus} (keeps : (Code.krefPut node next).Keeps share) :
    pool.krefPut node ≠ none := by
  obtain ⟨others, rfl, _⟩ := keeps
  rw [Multiset.cons_add] at refs
  obtain ⟨inode, here⟩ := refs.present (Multiset.mem_cons_self ..)
  rw [Pool.krefPut, here, Option.bind_some]
  split
  next last =>
    rw [if_pos (show zcacheInodeIsEmpty inode = true from List.isEmpty_iff.mpr (refs.kfree here last).2.1)]
    nofun
  next => nofun

/-- An operation that is about to look whether its node is empty finds it in the tree. -/
theorem Refs.isolates (refs : Refs pool (share + rest)) {node : Nat} {next : Code cpus}
    (keeps : (Code.isolateIfEmpty node next).Keeps share) :
    pool.isolateIfEmpty node ≠ none := by
  obtain ⟨others, rfl, _⟩ := keeps
  rw [Multiset.cons_add] at refs
  obtain ⟨inode, here⟩ := refs.present (Multiset.mem_cons_self ..)
  have inTree := refs.live (Multiset.mem_cons_self ..) here
  rw [Pool.isolateIfEmpty, here, Option.bind_some]
  split
  next =>
    unfold zcacheInodeIsolate
    split
    next =>
      rw [if_pos (show pool.inodeTree.find? inode.inodeNo = some node from inTree)]
      nofun
    next => nofun
  next => nofun

/-- How many references the operations in progress hold to a node. -/
def Machine.holders (machine : Machine cpus) (node : Nat) : Nat := (machine.tasks.entries.map fun entry => entry.2.held.count node).sum

theorem holders_eq {parties : List (Nat × Task cpus)} {total : Multiset (Nat × Standing)}
    (shares : Shares Task.Grips parties total) (node : Nat) :
    (parties.map fun entry => entry.2.held.count node).sum = gripsOf total node := by
  induction shares with
  | nil => rfl
  | @cons name task parties share rest one _ ih =>
    have own : gripsOf share node = task.held.count node := by
      rw [gripsOf, one.2, Multiset.coe_count]
    show task.held.count node + (parties.map fun entry => entry.2.held.count node).sum = Multiset.count node ((share + rest).map Prod.fst)
    rw [Multiset.map_add, Multiset.count_add, ih, ← own]
    rfl

/-- The life of the nodes: a reference count is what the tree and the operations hold, an
operation holds the node it looks into, and a node is freed empty and held by nobody. -/
structure Lifetimes (lzo : Lzo) (machine : Machine cpus) : Prop where
  counted : ∀ node inode, machine.pool.nodes node = some inode →
    inode.refcount = (if machine.pool.InTree node inode then 1 else 0) + machine.holders node
  inserts : ∀ name task node index item memory next, machine.tasks.find? name = some task →
    task.code = .radixInsert node index item memory next →
    ∃ inode, machine.pool.nodes node = some inode ∧ machine.pool.InTree node inode
  held : ∀ name task node, machine.tasks.find? name = some task → node ∈ task.held → ∃ inode, machine.pool.nodes node = some inode
  touched : ∀ name task node, machine.tasks.find? name = some task → task.code.touches = some node →
    node ∈ task.held ∧ ∃ inode, machine.pool.nodes node = some inode
  freed : ∀ action after node inode, InUse machine action → machine.step lzo action = some after → machine.pool.nodes node = some inode →
    after.pool.nodes node = none → inode.pageTree.entries = [] ∧ after.holders node = 0
  drops : ∀ name task node next, machine.tasks.find? name = some task → task.code = .krefPut node next → machine.pool.krefPut node ≠ none
  isolates : ∀ name task node next, machine.tasks.find? name = some task → task.code = .isolateIfEmpty node next →
    machine.pool.isolateIfEmpty node ≠ none
  single : ∀ node other inode found, machine.pool.nodes node = some inode → machine.pool.nodes other = some found →
    machine.pool.InTree node inode → machine.pool.InTree other found → inode.inodeNo = found.inodeNo → node = other

/-- The life of the nodes, for any operations in any order but an unmount. -/
theorem nodes_held {kernel : Kernel} {memlimit : Nat} (run : Run (Machine.step lzo) InUse (Machine.create kernel memlimit) machine) :
    Lifetimes lzo machine := by
  obtain ⟨total, refs, shares⟩ := grips_run run
  have holders (node : Nat) : machine.holders node = gripsOf total node := holders_eq shares node
  have held (name : Nat) (task : Task cpus) (node : Nat) (found : machine.tasks.find? name = some task) (holds : node ∈ task.held) :
      ∃ inode, machine.pool.nodes node = some inode := by
    obtain ⟨share, rest, ⟨_, same⟩, _, rfl⟩ := shares.split found
    have member : node ∈ share.map Prod.fst := by
      rw [same]
      exact holds
    obtain ⟨⟨_, standing⟩, grip, rfl⟩ := Multiset.mem_map.mp member
    exact refs.present (Multiset.mem_add.mpr (.inl grip))
  refine ⟨?counted, ?inserts, held, ?touched, ?freed, ?drops, ?isolates, ?single⟩
  case counted =>
    intro node inode here
    rw [holders]
    exact refs.counted here
  case inserts =>
    intro name task node index item memory next found code
    obtain ⟨share, rest, ⟨keeps, _⟩, _, rfl⟩ := shares.split found
    rw [code] at keeps
    obtain ⟨others, rfl, _⟩ := keeps
    rw [Multiset.cons_add] at refs
    obtain ⟨inode, here⟩ := refs.present (Multiset.mem_cons_self ..)
    exact ⟨inode, here, refs.live (Multiset.mem_cons_self ..) here⟩
  case touched =>
    intro name task node found touches
    obtain ⟨share, rest, ⟨keeps, same⟩, _, rfl⟩ := shares.split found
    have holds : node ∈ task.held := by
      rw [← Multiset.mem_coe, ← same]
      exact keeps.touched touches
    exact ⟨holds, held name task node found holds⟩
  case freed =>
    intro action after node inode mounted taken here freed
    have empty : inode.pageTree.entries = [] := by
      rcases Machine.step_cases taken with ⟨name, op, _, _, rfl⟩ | ⟨name, cpu, task, reply, _, _, _, rfl⟩ |
        ⟨name, cpu, task, progress, _, found, advanced, rfl⟩
      · rw [show _ = _ from freed] at here
        cases here
      · rw [show _ = _ from freed] at here
        cases here
      · obtain ⟨share, rest, ⟨keeps, _⟩, _, rfl⟩ := shares.split found
        exact refs.freed_empty keeps advanced here freed
    refine ⟨empty, ?_⟩
    obtain ⟨later, now, parties⟩ := grips_run (run.step mounted taken)
    refine (holders_eq parties node).trans (Multiset.count_eq_zero.mpr fun member => ?_)
    obtain ⟨⟨_, standing⟩, held, rfl⟩ := Multiset.mem_map.mp member
    obtain ⟨found, there⟩ := now.present held
    rw [freed] at there
    cases there
  case drops =>
    intro name task node next found code
    obtain ⟨share, rest, ⟨keeps, _⟩, _, rfl⟩ := shares.split found
    rw [code] at keeps
    exact refs.drops keeps
  case isolates =>
    intro name task node next found code
    obtain ⟨share, rest, ⟨keeps, _⟩, _, rfl⟩ := shares.split found
    rw [code] at keeps
    exact refs.isolates keeps
  case single =>
    intro node other inode found _ _ one two same
    rw [Pool.InTree, same] at one
    exact Option.some.inj (one.symm.trans two)

end Steps
end Nodes

section Sample
local instance nodesArch : Arch := Arch.x64

def Filekey.ofIno (inodeNo : UInt32) : Filekey := ⟨fun word => if word.val = 0 then inodeNo else 0⟩

def onlyCpu : Fin 1 := Fin.last 0

/-- A put whose allocations all succeed but those of the pool. -/
def PutChoices.roomless : PutChoices := ⟨true, true, ⟨.exhausted, nofun⟩, true⟩

/-- A page of inode 7 is put. Then a get of it, a flush of another page of the inode and
a shrink all hold the node: the get has taken the page out and is about to look whether
the node is empty, the flush waits for the lock, and the shrink has just come to the node. -/
def sharing : List (Action 1) :=
  [.call 0 (.putPage (.ofIno 7) 0 PageData.zeros .roomless)] ++ List.replicate 12 (.advance 0 onlyCpu) ++
    [.call 0 (.getPage (.ofIno 7) 0 PageData.zeros), .call 1 (.flushPage (.ofIno 7) 1), .call 2 .shrinkPool,
      .advance 0 onlyCpu, .advance 1 onlyCpu, .advance 2 onlyCpu, .advance 0 onlyCpu, .advance 0 onlyCpu]

/-- The operations in progress with the nodes their next steps look into. -/
def Machine.touching (machine : Machine 1) : List (Nat × Option Nat) := machine.tasks.entries.map fun entry =>
    (entry.1, entry.2.code.touches)

theorem nodes_held_sample : ∃ machine : Machine 1, Run (Machine.step Lzo.literal) InUse (Machine.create ⟨fun _ _ => 0, ∅⟩ 0) machine ∧
    machine.holders 0 = 3 ∧ machine.touching = [(0, some 0), (1, some 0), (2, none)] ∧
      (machine.pool.nodes 0).map InodeRb.refcount = some 4 ∧
    Lifetimes Lzo.literal machine := by
  have reached : ((steps (Machine.step Lzo.literal) (Machine.create ⟨fun _ _ => 0, ∅⟩ 0) sharing).map fun machine =>
      (machine.holders 0, machine.touching, (machine.pool.nodes 0).map InodeRb.refcount)) =
        some (3, [(0, some 0), (1, some 0), (2, none)], some 4) := by decide +kernel
  obtain ⟨machine, taken, shows⟩ := Option.map_eq_some_iff.mp reached
  obtain ⟨holders, shows⟩ := Prod.mk.inj shows
  obtain ⟨touching, refcount⟩ := Prod.mk.inj shows
  have mounted (machine : Machine 1) (action : Action 1) (member : action ∈ sharing) : InUse machine action := by
    intro task unmounts
    subst unmounts
    simp [sharing] at member
  have run := Run.of_steps mounted taken
  exact ⟨machine, run, holders, touching, refcount, nodes_held run⟩

end Sample
end Compcache.Zcache
