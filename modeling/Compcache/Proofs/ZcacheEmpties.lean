import Compcache.Proofs.ZcacheNodes

/-! Which inode nodes can be left behind empty: a node is taken out of the tree by
the last operation that looks at it, if that one looks when no other refers to it. -/

namespace Compcache.Zcache
open Library Library.Runs Library.Sharing

section Looks
variable [Arch] {cpus : Nat} {lzo : Lzo} {machine : Machine cpus}

/-- An operation that refers to the node has yet to look whether the node is empty, or
to add a page to it. -/
def Code.Rechecks (node : Nat) : Code cpus → Prop
  | .isolateIfEmpty other next => other = node ∨ next.Rechecks node
  | .radixInsert other _ _ _ next => other = node ∨ ∃ inserted, (next inserted).Rechecks node
  | .addStat _ _ next | .lock _ next | .unlock _ next | .copyIn _ _ _ next | .xvFree _ next | .freePage _ next
  | .setMemlimit _ next | .sweep _ _ _ _ next | .krefPut _ next => next.Rechecks node
  | .sumStat _ _ _ next | .load _ next | .radixDelete _ _ next => ∃ value, (next value).Rechecks node
  | .xvMalloc _ _ next => ∃ location, (next location).Rechecks node
  | .decompress _ next => ∃ bytes, (next bytes).Rechecks node
  | .acquire _ next => (next none).Rechecks node
  | .shrinkFrom other => other = node
  | .allocNode _ _ | .linkNode _ _ | .peek _ _ | .eraseNode _ _ | .flushFrom _ | .bug | .done _ => False

theorem Code.Keeps.live {code : Code cpus} {grip : Multiset (Nat × Standing)} {node : Nat} (keeps : code.Keeps grip)
    (rechecks : code.Rechecks node) :
    (node, Standing.live) ∈ grip := by
  induction code generalizing grip with
  | addStat _ _ _ ih | copyIn _ _ _ _ ih | xvFree _ _ ih | freePage _ _ ih | setMemlimit _ _ ih => exact ih keeps rechecks
  | lock _ _ ih | unlock _ _ ih => exact ih keeps.2 rechecks
  | sweep _ _ _ _ _ ih => exact ih keeps.2 rechecks
  | sumStat _ _ _ _ ih | load _ _ ih | xvMalloc _ _ _ ih | decompress _ _ ih =>
    obtain ⟨value, later⟩ := rechecks
    exact ih value (keeps value) later
  | radixDelete _ _ _ ih =>
    obtain ⟨value, later⟩ := rechecks
    exact ih value (keeps.2 value) later
  | acquire _ _ ih => exact ih none keeps.2.1 rechecks
  | krefPut _ _ ih =>
    obtain ⟨rest, rfl, later⟩ := keeps
    exact Multiset.mem_cons_of_mem (ih later rechecks)
  | isolateIfEmpty other _ ih =>
    obtain ⟨rest, rfl, later⟩ := keeps
    rcases rechecks with rfl | further
    · exact Multiset.mem_cons_self ..
    · rcases Multiset.mem_cons.mp (ih later further) with same | old
      · cases same
      · exact Multiset.mem_cons_of_mem old
  | radixInsert other _ _ _ _ ih =>
    obtain ⟨rest, rfl, inserted, failed⟩ := keeps
    rcases rechecks with rfl | ⟨success, further⟩
    · exact Multiset.mem_cons_self ..
    · cases success with
      | false => exact ih false failed further
      | true =>
        rcases Multiset.mem_cons.mp (ih true inserted further) with same | old
        · cases same
        · exact Multiset.mem_cons_of_mem old
  | shrinkFrom other =>
    obtain rfl : other = node := rechecks
    rw [show grip = {(other, Standing.live)} from keeps]
    exact Multiset.mem_singleton_self _
  | allocNode _ _ _ => exact rechecks.elim
  | linkNode _ _ _ => exact rechecks.elim
  | peek _ _ _ => exact rechecks.elim
  | eraseNode _ _ _ => exact rechecks.elim
  | flushFrom _ => exact rechecks.elim
  | bug => exact rechecks.elim
  | done _ => exact rechecks.elim

/-- An operation that finds its node empty while others refer to it finds one among
them that has yet to look, or to add a page. -/
def Machine.Rechecked (machine : Machine cpus) (action : Action cpus) : Prop :=
  ∀ name cpu task node next inode, action = .advance name cpu → machine.tasks.find? name = some task →
    task.code = .isolateIfEmpty node next →
    machine.pool.nodes node = some inode → inode.pageTree.entries = [] → inode.refcount ≠ 2 →
    ∃ other found, other ≠ name ∧ machine.tasks.find? other = some found ∧ found.code.Rechecks node

/-- When every operation is done, every node of the tree has a page. -/
theorem nodes_stored {kernel : Kernel} {memlimit : Nat}
    (run : Run (Machine.step lzo) (fun machine action => InUse machine action ∧ machine.Rechecked action)
      (Machine.create kernel memlimit) machine)
    (quiet : machine.tasks.entries = []) {inodeNo node : Nat} (linked : machine.pool.inodeTree.find? inodeNo = some node) :
    ∃ inode, machine.pool.nodes node = some inode ∧ inode.pageTree.entries ≠ [] := by
  have watched : machine.Shared (fun pool total => Refs pool total ∧ Watched pool total) Task.Grips := by
    refine run.invariant (Machine.Shared _ Task.Grips) (.create ⟨.create kernel memlimit, nofun⟩) ?_
    rintro before after action shared ⟨inUse, rechecked⟩ taken
    refine shared.step taken ?_ ?_ ?_
    · intro name op called
      refine ⟨Op.keeps lzo fun unmounts => inUse name ?_, rfl⟩
      rw [called, unmounts]
    · rintro share task reply ⟨keeps, _⟩ returned
      rw [returned] at keeps
      exact keeps
    · rintro share rest task progress name cpu ⟨refs, watched⟩ ⟨keeps, same⟩ others moved found advanced
      obtain ⟨changed, kept⟩ := refs.step keeps same advanced
      refine ⟨changed, ⟨kept.keeps, kept.same⟩, kept.refs, kept.watched watched fun node inode next code here empty more => ?_⟩
      obtain ⟨other, party, elsewhere, there, looks⟩ := rechecked name cpu task node next inode moved found code here empty more
      rw [← SortedMap.find?_erase_ne _ elsewhere] at there
      obtain ⟨share, left, ⟨keeps, _⟩, _, rfl⟩ := others.split there
      exact Multiset.mem_add.mpr (.inl (keeps.live looks))
  obtain ⟨total, ⟨refs, watched⟩, shares⟩ := watched
  rw [quiet] at shares
  obtain rfl := shares.none
  obtain ⟨inode, here, key⟩ := refs.linked linked
  refine ⟨inode, here, fun empty => Multiset.notMem_zero _ (watched node inode here ?_ empty)⟩
  rw [Pool.InTree, key]
  exact linked

end Looks

section Sample
local instance emptiesArch : Arch := Arch.x64

/-- The operation is on its way to look whether the node is empty. -/
def Code.looks (node : Nat) : Code 1 → Bool
  | .isolateIfEmpty other _ => other = node
  | .lock _ next => next.looks node
  | .radixDelete _ _ next => (next 0).looks node
  | _ => false

theorem Code.looks_rechecks {node : Nat} {code : Code 1} (looks : code.looks node = true) : code.Rechecks node := by
  induction code with
  | isolateIfEmpty other _ _ => exact .inl (of_decide_eq_true looks)
  | lock _ _ ih => exact ih looks
  | radixDelete _ _ _ ih => exact ⟨0, ih 0 looks⟩
  | _ => cases looks

/-- Where an operation finds its node empty, another is on its way to look; and nobody
unmounts the pool. -/
def Machine.watchful (machine : Machine 1) : Action 1 → Bool
  | .call _ .flushFs => false
  | .call _ _ => true
  | .advance name _ => match (machine.tasks.find? name).map Task.code with
    | some (.isolateIfEmpty node _) => (machine.pool.nodes node).all fun inode =>
      !inode.pageTree.entries.isEmpty || inode.refcount == 2 || machine.tasks.entries.any fun entry =>
        entry.1 != name && entry.2.code.looks node
    | _ => true

theorem Machine.watchful_meets {machine : Machine 1} {action : Action 1} (watchful : machine.watchful action = true) :
    InUse machine action ∧ machine.Rechecked action := by
  constructor
  · rintro task rfl
    cases watchful
  · rintro name cpu task node next inode rfl found code here empty more
    simp only [Machine.watchful, found, Option.map_some, code, here, Option.all_some, empty, List.isEmpty_nil, Bool.not_true, Bool.false_or,
      Bool.or_eq_true, beq_iff_eq, more, false_or, List.any_eq_true, Bool.and_eq_true, bne_iff_ne] at watchful
    obtain ⟨⟨other, party⟩, member, elsewhere, looks⟩ := watchful
    exact ⟨other, party, elsewhere, SortedMap.mem_entries.mp member, Code.looks_rechecks looks⟩

/-- A zero-filled page is put under inode 7, at index 0. -/
def onePut : List (Action 1) := [.call 0 (.putPage (.ofIno 7) 0 PageData.zeros .roomless)] ++ List.replicate 12 (.advance 0 onlyCpu)

/-- What is left of a pool when its operations are done: node 7 and the number of its pages. -/
def Machine.remains (machine : Machine 1) : Bool × Option Nat × Option Nat :=
  (machine.tasks.entries.isEmpty, machine.pool.inodeTree.find? 7, (machine.pool.nodes 0).map fun inode => inode.pageTree.entries.length)

/-- A page of inode 9 is put too. Then two gets, of the page of inode 7 and of another page
of it, hold its node at once. The first takes the page out and leaves the node, and the
other takes the empty node out of the tree. -/
def laterIsolates : List (Action 1) :=
  onePut ++ [.call 0 (.putPage (.ofIno 9) 0 PageData.zeros .roomless)] ++ List.replicate 12 (.advance 0 onlyCpu) ++
    [.call 0 (.getPage (.ofIno 7) 0 PageData.zeros), .call 1 (.getPage (.ofIno 7) 1 PageData.zeros), .advance 0 onlyCpu,
      .advance 1 onlyCpu] ++
    List.replicate 7 (.advance 0 onlyCpu) ++ List.replicate 6 (.advance 1 onlyCpu)

theorem nodes_stored_sample : ∃ machine : Machine 1, machine.tasks.entries = [] ∧ machine.pool.inodeTree.find? 7 = none ∧
    machine.pool.nodes 0 = none ∧
    machine.pool.inodeTree.find? 9 = some 1 ∧ ∃ inode, machine.pool.nodes 1 = some inode ∧ inode.pageTree.entries ≠ [] := by
  have reached :
      ((steps (tested (Machine.step Lzo.literal) Machine.watchful) (Machine.create ⟨fun _ _ => 0, ∅⟩ 0) laterIsolates).map fun machine =>
      (machine.remains, machine.pool.inodeTree.find? 9)) = some ((true, none, none), some 1) := by decide +kernel
  obtain ⟨machine, taken, shows⟩ := Option.map_eq_some_iff.mp reached
  obtain ⟨remains, linked⟩ := Prod.mk.inj shows
  obtain ⟨quiet, remains⟩ := Prod.mk.inj remains
  obtain ⟨unlinked, freed⟩ := Prod.mk.inj remains
  have quiet := List.isEmpty_iff.mp quiet
  have run := Run.of_tested (fun {_ _} passed => Machine.watchful_meets passed) taken
  exact ⟨machine, quiet, unlinked, Option.map_eq_none_iff.mp freed, linked, nodes_stored run quiet linked⟩

/-- Two gets, of the page and of another page of its inode, both hold the node when
they look whether it is empty. -/
def twoGets : List (Action 1) :=
  onePut ++ [.call 0 (.getPage (.ofIno 7) 0 PageData.zeros), .call 1 (.getPage (.ofIno 7) 1 PageData.zeros), .advance 0 onlyCpu,
    .advance 1 onlyCpu] ++
    List.replicate 4 (.advance 0 onlyCpu) ++ List.replicate 4 (.advance 1 onlyCpu) ++ List.replicate 3 (.advance 0 onlyCpu) ++
      List.replicate 2 (.advance 1 onlyCpu)

theorem empty_node_left : ∃ machine : Machine 1, ∃ inode, AnyRun (Machine.step Lzo.literal) (Machine.create ⟨fun _ _ => 0, ∅⟩ 0) machine ∧
    machine.tasks.entries = [] ∧ machine.pool.inodeTree.find? 7 = some 0 ∧ machine.pool.nodes 0 = some inode ∧
      inode.pageTree.entries = [] := by
  have reached : ((steps (Machine.step Lzo.literal) (Machine.create ⟨fun _ _ => 0, ∅⟩ 0) twoGets).map Machine.remains) =
      some (true, some 0, some 0) := by
    decide +kernel
  obtain ⟨machine, taken, shows⟩ := Option.map_eq_some_iff.mp reached
  obtain ⟨quiet, shows⟩ := Prod.mk.inj shows
  obtain ⟨linked, shows⟩ := Prod.mk.inj shows
  obtain ⟨inode, here, empty⟩ := Option.map_eq_some_iff.mp shows
  exact ⟨machine, inode, .of_steps (fun _ _ _ => trivial) taken, List.isEmpty_iff.mp quiet, linked, here,
    List.eq_nil_of_length_eq_zero empty⟩

end Sample
end Compcache.Zcache
