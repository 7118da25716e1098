import Mathlib.Data.Finset.Card
import Mathlib.Data.Finset.Union
import Compcache.Library.Runs
import Compcache.ZcachePools

/-! The table of pools over mounts and unmounts: the count, the slots and the blocks
agree as long as no creation fails half way and no lookup meets an empty slot. -/

namespace Compcache.Zcache
open Library.Runs

section Slots
variable {table : Table} {zpool kobj slot : Nat}

theorem findSlot_eq_some : table.findSlot zpool = some slot ↔ slot < maxZcachePools ∧ table.pools slot = zpool ∧
    ∀ lower < slot, table.pools lower ≠ zpool := by
  rw [Table.findSlot, List.find?_range_eq_some]
  simp only [decide_eq_true_eq, List.mem_range, Bool.not_eq_eq_eq_not, Bool.not_true, decide_eq_false_iff_not]
  exact ⟨fun ⟨here, inside, first⟩ => ⟨inside, here, first⟩, fun ⟨inside, here, first⟩ => ⟨here, inside, first⟩⟩

theorem findSlot_eq_none : table.findSlot zpool = none ↔ ∀ slot < maxZcachePools, table.pools slot ≠ zpool := by
  simp [Table.findSlot]

theorem scanPools_append {front rest : List Nat}
    (others : ∀ slot ∈ front, table.pools slot ≠ 0 ∧ (table.records (table.pools slot)).kobj ≠ kobj) :
    scanPools table kobj (front ++ rest) = scanPools table kobj rest := by
  induction front with
  | nil => rfl
  | cons slot front ih =>
    obtain ⟨used, other⟩ := others slot List.mem_cons_self
    rw [List.cons_append, scanPools, if_neg used, if_neg other]
    exact ih fun next member => others next (List.mem_cons_of_mem _ member)

/-- What the scan comes to is decided at the first slot that is empty or matches. -/
theorem kobjToPool_at (inside : slot < maxZcachePools)
    (others : ∀ lower < slot, table.pools lower ≠ 0 ∧ (table.records (table.pools lower)).kobj ≠ kobj)
    (decided : table.pools slot = 0 ∨ (table.records (table.pools slot)).kobj = kobj) :
    zcacheKobjToPool table kobj = if table.pools slot = 0 then none else some (table.pools slot) := by
  have split : List.range maxZcachePools = List.range slot ++ slot :: (List.range (maxZcachePools - slot - 1)).map fun next => slot
      + (next + 1) := by
    have total : maxZcachePools = slot + (maxZcachePools - slot - 1 + 1) := by omega
    conv_lhs => rw [total, List.range_add, List.range_succ_eq_map]
    simp
  rw [zcacheKobjToPool, split, scanPools_append fun lower member => others lower (List.mem_range.mp member), scanPools]
  rcases decided with empty | found
  · rw [if_pos empty, if_pos empty]
  · rw [if_pos found]

end Slots

section Mounts

/-- A table, and the pool ids handed out and not surrendered. -/
structure Mounts where
  table : Table
  live : Finset Nat

def Mounts.create (blocks : Finset Nat) : Mounts := ⟨Table.create blocks, ∅⟩

/-- A mount, an unmount, or an access to a file of a pool in sysfs. -/
inductive Call
  | initFs (pagesize : Nat) (choices : InitChoices)
  | flushFs (poolId : Nat)
  | sysfs (poolId : Nat)

def Mounts.kobj (mounts : Mounts) (poolId : Nat) : Nat := (mounts.table.records (mounts.table.pools poolId)).kobj

/-- Only live pools are unmounted and have files in sysfs. -/
def Mounts.Valid (mounts : Mounts) : Call → Prop
  | .initFs _ _ => True
  | .flushFs poolId | .sysfs poolId => poolId ∈ mounts.live

/-- A creation that got its `struct zcache_pool` gets counters and an allocator too. -/
def Granted (table : Table) (choices : InitChoices) : Prop :=
  ∀ zpool, choices.zpool.pick table.blocks = some zpool →
    ∃ stats, choices.stats.pick (insert zpool table.blocks) = some stats ∧
      (choices.xvPool.pick (insert stats (insert zpool table.blocks))).isSome

/-- A pool is created whole, and looked up only with no empty slot below it. -/
def Mounts.Careful (mounts : Mounts) : Call → Prop
  | .initFs pagesize choices => pagesize = pageSize → mounts.table.numPools ≠ maxZcachePools → Granted mounts.table choices
  | .flushFs poolId => poolId ∈ mounts.live
  | .sysfs poolId => poolId ∈ mounts.live ∧ ∀ lower < poolId, mounts.table.pools lower ≠ 0

/-- The blocks that belong to the pool in a slot. -/
def poolBlocks (table : Table) (slot : Nat) : Finset Nat :=
  let record := table.records (table.pools slot)
  {table.pools slot, record.stats, record.xvPool, record.kobj}

/-- The count, the slots and the blocks are those of the live pools. -/
structure Consistent (base : Finset Nat) (mounts : Mounts) : Prop where
  counted : mounts.table.numPools = mounts.live.card
  inside : ∀ slot ∈ mounts.live, slot < maxZcachePools
  used : ∀ slot, mounts.table.pools slot ≠ 0 ↔ slot ∈ mounts.live
  memory : mounts.table.blocks = base ∪ mounts.live.biUnion (poolBlocks mounts.table)
  foreign : ∀ slot ∈ mounts.live, Disjoint base (poolBlocks mounts.table slot)
  separate : ∀ slot ∈ mounts.live, ∀ other ∈ mounts.live, slot ≠ other →
    Disjoint (poolBlocks mounts.table slot) (poolBlocks mounts.table other)

variable {base : Finset Nat} {mounts after : Mounts} {table : Table} {slot other poolId zpool : Nat} {choices : InitChoices} {call : Call}

theorem mem_poolBlocks_self : table.pools slot ∈ poolBlocks table slot := by simp [poolBlocks]

theorem mem_poolBlocks_kobj : (table.records (table.pools slot)).kobj ∈ poolBlocks table slot := by simp [poolBlocks]

theorem Consistent.create (base : Finset Nat) : Consistent base (Mounts.create base) where
  counted := rfl
  inside := nofun
  used slot := by simp [Mounts.create, Table.create]
  memory := by simp [Mounts.create, Table.create]
  foreign := nofun
  separate := nofun

theorem Consistent.owned (consistent : Consistent base mounts) (member : slot ∈ mounts.live) :
    poolBlocks mounts.table slot ⊆ mounts.table.blocks := by
  rw [consistent.memory]
  exact (Finset.subset_biUnion_of_mem _ member).trans Finset.subset_union_right

theorem Consistent.findSlot (consistent : Consistent base mounts) (member : slot ∈ mounts.live) :
    mounts.table.findSlot (mounts.table.pools slot) = some slot := by
  refine findSlot_eq_some.mpr ⟨consistent.inside slot member, rfl, fun lower below same => ?_⟩
  have used : lower ∈ mounts.live := by
    rw [← consistent.used, same, consistent.used]
    exact member
  have apart := consistent.separate lower used slot member (Nat.ne_of_lt below)
  exact Finset.disjoint_left.mp apart (same ▸ mem_poolBlocks_self) mem_poolBlocks_self

theorem Consistent.kobj_ne (consistent : Consistent base mounts) (member : slot ∈ mounts.live) (there : other ∈ mounts.live)
    (different : other ≠ slot) :
    mounts.kobj other ≠ mounts.kobj slot := by
  intro same
  have apart := consistent.separate other there slot member different
  have shared : mounts.kobj other ∈ poolBlocks mounts.table slot := same ▸ mem_poolBlocks_kobj
  exact Finset.disjoint_left.mp apart mem_poolBlocks_kobj shared

theorem Consistent.vacant (consistent : Consistent base mounts) (few : mounts.table.numPools ≠ maxZcachePools) :
    ∃ slot, mounts.table.findSlot 0 = some slot := by
  cases found : mounts.table.findSlot 0 with
  | some slot => exact ⟨slot, rfl⟩
  | none =>
    have full : Finset.range maxZcachePools ⊆ mounts.live := fun slot member =>
      (consistent.used slot).mp (findSlot_eq_none.mp found slot (Finset.mem_range.mp member))
    have all : mounts.live ⊆ Finset.range maxZcachePools := fun slot member => Finset.mem_range.mpr (consistent.inside slot member)
    rw [consistent.counted, all.antisymm full, Finset.card_range] at few
    exact absurd rfl few

theorem Consistent.few (consistent : Consistent base mounts) : mounts.table.numPools ≤ maxZcachePools := by
  have all : mounts.live ⊆ Finset.range maxZcachePools := fun slot member => Finset.mem_range.mpr (consistent.inside slot member)
  rw [consistent.counted, ← Finset.card_range maxZcachePools]
  exact Finset.card_le_card all

/-- The table with one more pool, in an empty slot and over blocks nobody had. -/
structure Added (table : Table) (slot zpool stats xvPool : Nat) (after : Table) : Prop where
  inside : slot < maxZcachePools
  vacant : table.pools slot = 0
  positive : 0 < zpool
  fresh : zpool ∉ table.blocks ∧ stats ∉ insert zpool table.blocks ∧ xvPool ∉ insert stats (insert zpool table.blocks)
  pools : after.pools = Function.update table.pools slot zpool
  numPools : after.numPools = table.numPools + 1
  recorded : (after.records zpool).stats = stats ∧ (after.records zpool).xvPool = xvPool
  records : ∀ address, address ≠ zpool → after.records address = table.records address
  blocks : after.blocks = insert xvPool (insert stats (insert zpool table.blocks))

/-- A pool that is created half way is not in the table, and is looked for in vain. -/
theorem Consistent.destroy_partial (consistent : Consistent base mounts) (fresh : zpool ∉ mounts.table.blocks) (positive : 0 < zpool)
    (pools : table.pools = mounts.table.pools) : zcacheDestroyPool table zpool = none := by
  have missing : table.findSlot zpool = none := by
    refine findSlot_eq_none.mpr fun slot _ here => fresh ?_
    rw [pools] at here
    have live : slot ∈ mounts.live := (consistent.used slot).mp (by omega)
    exact here ▸ consistent.owned live mem_poolBlocks_self
  rw [zcacheDestroyPool, if_neg (Nat.ne_of_gt positive), missing, Option.map_none]

/-- Nothing that matters differs. -/
structure Unchanged (before after : Table) : Prop where
  pools : after.pools = before.pools
  numPools : after.numPools = before.numPools
  blocks : after.blocks = before.blocks
  records : ∀ address ∈ before.blocks, after.records address = before.records address

theorem Consistent.unchanged (consistent : Consistent base mounts) (same : Unchanged mounts.table table) :
    Consistent base ⟨table, mounts.live⟩ := by
  have blocks : ∀ slot ∈ mounts.live, poolBlocks table slot = poolBlocks mounts.table slot := by
    intro slot member
    have here := consistent.owned member mem_poolBlocks_self
    simp only [poolBlocks, same.pools, same.records _ here]
  exact {
    counted := same.numPools.trans consistent.counted
    inside := consistent.inside
    used := fun slot => by rw [same.pools]; exact consistent.used slot
    memory := by
      rw [same.blocks, consistent.memory]
      exact congrArg (base ∪ ·) (Finset.biUnion_congr rfl fun slot member => (blocks slot member).symm)
    foreign := fun slot member => blocks slot member ▸ consistent.foreign slot member
    separate := fun slot member other there different => by
      rw [blocks slot member, blocks other there]
      exact consistent.separate slot member other there different }

theorem destroyPool_eq (found : table.findSlot zpool = some slot) (positive : zpool ≠ 0) : zcacheDestroyPool table zpool = some
    { pools := Function.update table.pools slot 0
      numPools := sub32 table.numPools 1
      records := table.records
      blocks := ((table.blocks.erase (table.records zpool).stats).erase (table.records zpool).xvPool).erase zpool } := by
  rw [zcacheDestroyPool, if_neg positive, found, Option.map_some]
  rfl

theorem Consistent.destroy_added (consistent : Consistent base mounts) {stats xvPool : Nat}
    (added : Added mounts.table slot zpool stats xvPool table) : ∃ result, zcacheDestroyPool table zpool = some result ∧
      Unchanged mounts.table result := by
  obtain ⟨freshPool, freshStats, freshXv⟩ := added.fresh
  have found : table.findSlot zpool = some slot := by
    refine findSlot_eq_some.mpr ⟨added.inside, ?_, fun lower below here => freshPool ?_⟩
    · rw [added.pools, Function.update_self]
    · rw [added.pools, Function.update_of_ne (Nat.ne_of_lt below)] at here
      have live : lower ∈ mounts.live := (consistent.used lower).mp (here ▸ Nat.ne_of_gt added.positive)
      exact here ▸ consistent.owned live mem_poolBlocks_self
  refine ⟨_, destroyPool_eq found (Nat.ne_of_gt added.positive), ?_⟩
  exact {
    pools := by
      show Function.update table.pools slot 0 = mounts.table.pools
      rw [added.pools, Function.update_idem, ← added.vacant, Function.update_eq_self]
    numPools := by
      show sub32 table.numPools 1 = mounts.table.numPools
      have few := consistent.few
      simp only [maxZcachePools] at few
      rw [added.numPools, sub32_eq (Nat.le_add_left ..) (by omega), Nat.add_sub_cancel]
    blocks := by
      show ((table.blocks.erase (table.records zpool).stats).erase (table.records zpool).xvPool).erase zpool = mounts.table.blocks
      rw [added.recorded.1, added.recorded.2, added.blocks, Finset.erase_right_comm (a := stats) (b := xvPool), Finset.erase_insert freshXv,
        Finset.erase_insert freshStats,
        Finset.erase_insert freshPool]
    records := fun address member => added.records address (ne_of_mem_of_not_mem member freshPool) }

theorem Consistent.added (consistent : Consistent base mounts) {stats xvPool kobj : Nat}
    (added : Added mounts.table slot zpool stats xvPool table) (fresh : kobj ∉ table.blocks) :
    slot ∉ mounts.live ∧
      Consistent base ⟨{ table.setRecord zpool { table.records zpool with kobj } with blocks := insert kobj table.blocks },
      insert slot mounts.live⟩ := by
  obtain ⟨freshPool, freshStats, freshXv⟩ := added.fresh
  have new : slot ∉ mounts.live := fun live => (consistent.used slot).mpr live added.vacant
  refine ⟨new, ?_⟩
  have poolsNew : table.pools slot = zpool := by rw [added.pools, Function.update_self]
  have poolsOld {other : Nat} (live : other ∈ mounts.live) : table.pools other = mounts.table.pools other := by
    rw [added.pools, Function.update_of_ne (ne_of_mem_of_not_mem live new)]
  generalize grown : { table.setRecord zpool { table.records zpool with kobj } with blocks := insert kobj table.blocks } = result
  have pools : result.pools = table.pools := by rw [← grown]; rfl
  have records : result.records = Function.update table.records zpool { table.records zpool with kobj } := by rw [← grown]; rfl
  have blocks : result.blocks = insert kobj table.blocks := by rw [← grown]
  have numPools : result.numPools = mounts.table.numPools + 1 := by rw [← grown]; exact added.numPools
  have blocksNew : poolBlocks result slot = {zpool, stats, xvPool, kobj} := by
    simp only [poolBlocks, pools, poolsNew, records, Function.update_self, added.recorded.1, added.recorded.2]
  have blocksOld {other : Nat} (live : other ∈ mounts.live) : poolBlocks result other = poolBlocks mounts.table other := by
    have here := consistent.owned live mem_poolBlocks_self
    have different : mounts.table.pools other ≠ zpool := ne_of_mem_of_not_mem here freshPool
    simp only [poolBlocks, pools, poolsOld live, records, Function.update_of_ne different, added.records _ different]
  have apart : Disjoint mounts.table.blocks ({zpool, stats, xvPool, kobj} : Finset Nat) := by
    rw [added.blocks] at fresh
    simp only [Finset.mem_insert, not_or] at freshStats freshXv fresh
    simp only [Finset.disjoint_insert_right, Finset.disjoint_singleton_right]
    exact ⟨freshPool, freshStats.2, freshXv.2.2, fresh.2.2.2⟩
  exact {
    counted := by rw [numPools, consistent.counted, Finset.card_insert_of_notMem new]
    inside := Finset.forall_mem_insert .. |>.mpr ⟨added.inside, consistent.inside⟩
    used := fun other => by
      rw [pools, Finset.mem_insert]
      rcases Classical.em (other = slot) with rfl | elsewhere
      · rw [poolsNew]
        simp [Nat.ne_of_gt added.positive]
      · rw [added.pools, Function.update_of_ne elsewhere, consistent.used]
        simp [elsewhere]
    memory := by
      rw [blocks, added.blocks, consistent.memory, Finset.biUnion_insert, blocksNew,
        Finset.biUnion_congr rfl fun other live => blocksOld live]
      ext address
      simp only [Finset.mem_insert, Finset.mem_union, Finset.mem_singleton]
      tauto
    foreign := by
      refine Finset.forall_mem_insert .. |>.mpr ⟨?_, fun other live => ?_⟩
      · rw [blocksNew]
        exact apart.mono_left (consistent.memory ▸ Finset.subset_union_left)
      · rw [blocksOld live]
        exact consistent.foreign other live
    separate := by
      have first {other : Nat} (live : other ∈ mounts.live) : Disjoint (poolBlocks result other) (poolBlocks result slot) := by
        rw [blocksOld live, blocksNew]
        exact apart.mono_left (consistent.owned live)
      intro one member other there different
      rcases Finset.mem_insert.mp member with rfl | old <;> rcases Finset.mem_insert.mp there with rfl | older
      · exact absurd rfl different
      · exact (first older).symm
      · exact first old
      · rw [blocksOld old, blocksOld older]
        exact consistent.separate one old other older different }

theorem Consistent.flushFs (consistent : Consistent base mounts) (member : slot ∈ mounts.live) :
    ∃ result, zcacheFlushFs mounts.table slot = some result ∧ Consistent base ⟨result, mounts.live.erase slot⟩ ∧
      result.pools = Function.update mounts.table.pools slot 0 ∧ result.numPools + 1 = mounts.table.numPools ∧
      result.blocks = mounts.table.blocks \ poolBlocks mounts.table slot := by
  have positive : mounts.table.pools slot ≠ 0 := (consistent.used slot).mpr member
  have found := consistent.findSlot member
  have nonempty : 0 < mounts.live.card := Finset.card_pos.mpr ⟨slot, member⟩
  obtain ⟨result, destroyed, pools, records, numPools, blocks⟩ : ∃ result, zcacheFlushFs mounts.table slot = some result ∧
      result.pools = Function.update mounts.table.pools slot 0 ∧ result.records = mounts.table.records ∧
      result.numPools + 1 = mounts.table.numPools ∧ result.blocks = mounts.table.blocks \ poolBlocks mounts.table slot := by
    have sought : (mounts.table.kfree (mounts.kobj slot)).findSlot (mounts.table.pools slot) = some slot := found
    refine ⟨_, destroyPool_eq sought positive, rfl, rfl, ?_, ?_⟩
    · show sub32 mounts.table.numPools 1 + 1 = mounts.table.numPools
      have few := consistent.few
      have counted := consistent.counted
      simp only [maxZcachePools] at few
      rw [sub32_eq (by omega) (by omega)]
      omega
    · ext address
      simp only [Table.kfree, poolBlocks, Finset.mem_erase, Finset.mem_sdiff, Finset.mem_insert, Finset.mem_singleton, not_or]
      tauto
  refine ⟨result, destroyed, ?_, pools, numPools, blocks⟩
  have same {other : Nat} (live : other ∈ mounts.live.erase slot) : poolBlocks result other = poolBlocks mounts.table other := by
    simp only [poolBlocks, pools, records, Function.update_of_ne (Finset.ne_of_mem_erase live)]
  exact {
    counted := by
      rw [Finset.card_erase_of_mem member, ← consistent.counted, ← numPools, Nat.add_sub_cancel]
    inside := fun other live => consistent.inside other (Finset.mem_of_mem_erase live)
    used := fun other => by
      rw [pools, Finset.mem_erase]
      rcases Classical.em (other = slot) with rfl | elsewhere
      · simp
      · rw [Function.update_of_ne elsewhere, consistent.used]
        simp [elsewhere]
    memory := by
      rw [blocks, consistent.memory, Finset.biUnion_congr rfl fun other live => same live, ← Finset.insert_erase member,
        Finset.biUnion_insert,
        Finset.erase_insert (Finset.notMem_erase slot mounts.live)]
      ext address
      have outside : address ∈ base → address ∉ poolBlocks mounts.table slot := fun here =>
        Finset.disjoint_left.mp (consistent.foreign slot member) here
      have others : address ∈ (mounts.live.erase slot).biUnion (poolBlocks mounts.table) → address ∉ poolBlocks mounts.table slot := by
        intro there
        obtain ⟨other, live, here⟩ := Finset.mem_biUnion.mp there
        exact Finset.disjoint_left.mp (consistent.separate other (Finset.mem_of_mem_erase live) slot member
          (Finset.ne_of_mem_erase live)) here
      simp only [Finset.mem_union, Finset.mem_sdiff]
      tauto
    foreign := fun other live => same live ▸ consistent.foreign other (Finset.mem_of_mem_erase live)
    separate := fun one first other second different => by
      rw [same first, same second]
      exact consistent.separate one (Finset.mem_of_mem_erase first) other (Finset.mem_of_mem_erase second) different }

section Steps
variable [Arch]

/-- `none` is an access outside the table or through a NULL pool. -/
def Mounts.step (mounts : Mounts) : Call → Option Mounts
  | .initFs pagesize choices => (zcacheInitFs mounts.table pagesize choices).map fun (table, ret) =>
      ⟨table, if ret < 0 then mounts.live else insert ret.toNat mounts.live⟩
  | .flushFs poolId => (zcacheFlushFs mounts.table poolId).map fun table => ⟨table, mounts.live.erase poolId⟩
  | .sysfs poolId => (zcacheKobjToPool mounts.table (mounts.kobj poolId)).map fun _ => mounts

omit [Arch] in
theorem addToPoolList_eq (found : table.findSlot 0 = some slot) :
    addToPoolList table zpool = some (table.setPool slot zpool, (slot : Int)) := by
  rw [addToPoolList, found, Option.map_some]

theorem Consistent.createPool (consistent : Consistent base mounts) (choices : InitChoices) :
    (∃ ret, ret < 0 ∧ zcacheCreatePool mounts.table choices = some (mounts.table, ret) ∧
      (mounts.table.numPools ≠ maxZcachePools → Granted mounts.table choices)) ∨
    (∃ slot zpool stats xvPool after, Added mounts.table slot zpool stats xvPool after ∧
      zcacheCreatePool mounts.table choices = some (after, (slot : Int)) ∧ Granted mounts.table choices) ∨
    (zcacheCreatePool mounts.table choices = none ∧ mounts.table.numPools ≠ maxZcachePools ∧ ¬ Granted mounts.table choices) := by
  rcases Classical.em (mounts.table.numPools = maxZcachePools) with full | room
  · exact .inl ⟨-eperm, by decide, by rw [zcacheCreatePool, if_pos full], fun room => absurd full room⟩
  have few := consistent.few
  have small : (mounts.table.numPools + 1) % 2 ^ 32 = mounts.table.numPools + 1 := by
    refine Nat.mod_eq_of_lt ?_
    simp only [maxZcachePools] at few
    omega
  rw [zcacheCreatePool, if_neg room]
  cases gotPool : choices.zpool.pick mounts.table.blocks with
  | none =>
    refine .inl ⟨-enomem, by decide, rfl, fun _ zpool got => ?_⟩
    rw [gotPool] at got
    cases got
  | some zpool =>
    have freshPool := choices.zpool.unowned gotPool
    have positive := choices.zpool.positive gotPool
    cases gotStats : choices.stats.pick (insert zpool mounts.table.blocks) with
    | none =>
      refine .inr (.inr ⟨?_, room, fun granted => ?_⟩)
      · simp only [gotStats]
        exact congrArg (Option.map _) (consistent.destroy_partial freshPool positive (by rfl))
      · obtain ⟨stats, got, _⟩ := granted zpool gotPool
        rw [gotStats] at got
        cases got
    | some stats =>
      cases gotXv : choices.xvPool.pick (insert stats (insert zpool mounts.table.blocks)) with
      | none =>
        refine .inr (.inr ⟨?_, room, fun granted => ?_⟩)
        · simp only [gotStats, gotXv]
          exact congrArg (Option.map _) (consistent.destroy_partial freshPool positive (by rfl))
        · obtain ⟨other, got, gotOther⟩ := granted zpool gotPool
          rw [gotStats, Option.some.injEq] at got
          subst got
          rw [gotXv] at gotOther
          cases gotOther
      | some xvPool =>
        obtain ⟨slot, found⟩ := consistent.vacant room
        obtain ⟨inside, vacant, _⟩ := findSlot_eq_some.mp found
        refine .inr (.inl ⟨slot, zpool, stats, xvPool, ?after, ?added, ?made, ?granted⟩)
        case made =>
          simp only [gotStats, gotXv]
          refine addToPoolList_eq ?_
          exact found
        case granted =>
          intro other got
          obtain rfl : zpool = other := Option.some.inj (gotPool.symm.trans got)
          exact ⟨stats, gotStats, gotXv ▸ rfl⟩
        case added =>
          exact {
            inside
            vacant
            positive
            fresh := ⟨freshPool, choices.stats.unowned gotStats, choices.xvPool.unowned gotXv⟩
            pools := rfl
            numPools := small
            recorded := by simp only [Table.setPool, Table.setRecord, Function.update_self, and_self]
            records := fun address different => Function.update_of_ne different ..
            blocks := rfl }

/-- What comes of a mount: an error and no trace of it, or one more live pool. -/
inductive Mounted (base : Finset Nat) (mounts : Mounts) (table : Table) (ret : Int) : Prop
  | failed (negative : ret < 0) (unchanged : Unchanged mounts.table table)
  | created {slot : Nat} (id : ret = slot) (new : slot ∉ mounts.live) (consistent : Consistent base ⟨table, insert slot mounts.live⟩)

omit [Arch] in
theorem Consistent.createSysfs (consistent : Consistent base mounts) {stats xvPool : Nat}
    (added : Added mounts.table slot zpool stats xvPool table) (choices : InitChoices) :
    ∃ result ret, Zcache.createSysfs table slot choices = some (result, ret) ∧ Mounted base mounts result ret := by
  have here : table.pools slot = zpool := by rw [added.pools, Function.update_self]
  rw [Zcache.createSysfs, Int.toNat_natCast, here]
  cases got : choices.kobj.pick table.blocks with
  | none =>
    obtain ⟨result, destroyed, unchanged⟩ := consistent.destroy_added added
    exact ⟨result, -enomem, congrArg (Option.map _) destroyed, .failed (by decide) unchanged⟩
  | some kobj =>
    have fresh := choices.kobj.unowned got
    simp only
    split
    next failed =>
      have again : Added mounts.table slot zpool stats xvPool
          (Table.kfree { table.setRecord zpool { table.records zpool with kobj } with blocks := insert kobj table.blocks } kobj) := {
        inside := added.inside
        vacant := added.vacant
        positive := added.positive
        fresh := added.fresh
        pools := added.pools
        numPools := added.numPools
        recorded := by
          show (Function.update table.records zpool _ zpool).stats = stats ∧ (Function.update table.records zpool _ zpool).xvPool = xvPool
          rw [Function.update_self]
          exact added.recorded
        records := fun address different => (Function.update_of_ne different ..).trans (added.records address different)
        blocks := (Finset.erase_insert fresh).trans added.blocks }
      obtain ⟨result, destroyed, unchanged⟩ := consistent.destroy_added again
      exact ⟨result, -choices.sysfsError, congrArg (Option.map _) destroyed, .failed (by omega) unchanged⟩
    next =>
      obtain ⟨new, later⟩ := consistent.added added fresh
      exact ⟨_, slot, rfl, .created rfl new later⟩

/-- A mount goes wrong exactly when it gets a pool and not what belongs to it. -/
theorem Consistent.initFs (consistent : Consistent base mounts) (pagesize : Nat) (choices : InitChoices) :
    (mounts.Careful (.initFs pagesize choices) ∧ ∃ table ret, zcacheInitFs mounts.table pagesize choices = some (table, ret) ∧
      Mounted base mounts table ret) ∨
      (¬ mounts.Careful (.initFs pagesize choices) ∧ zcacheInitFs mounts.table pagesize choices = none) := by
  have same : Unchanged mounts.table mounts.table := ⟨rfl, rfl, rfl, fun _ _ => rfl⟩
  rcases Classical.em (pagesize = pageSize) with rfl | odd
  · rw [zcacheInitFs, if_neg (not_not.mpr rfl)]
    rcases consistent.createPool choices with ⟨ret, negative, made, granted⟩ | ⟨slot, zpool, stats, xvPool, table, added, made, granted⟩ |
      ⟨made, room, refused⟩
    · refine .inl ⟨fun _ => granted, mounts.table, -enomem, ?_, .failed (by decide) same⟩
      rw [made, Option.bind_some]
      exact if_pos negative
    · obtain ⟨result, ret, served, mounted⟩ := consistent.createSysfs added choices
      refine .inl ⟨fun _ _ => granted, result, ret, ?_, mounted⟩
      rw [made, Option.bind_some]
      exact (if_neg (Int.not_lt.mpr (Int.natCast_nonneg slot))).trans served
    · refine .inr ⟨fun careful => refused (careful rfl room), ?_⟩
      rw [made, Option.bind_none]
  · exact .inl ⟨fun same => absurd same odd, mounts.table, -einval, by rw [zcacheInitFs, if_pos odd], .failed (by decide) same⟩

omit [Arch] in
theorem Consistent.kobjToPool (consistent : Consistent base mounts) (member : poolId ∈ mounts.live) :
    zcacheKobjToPool mounts.table (mounts.kobj poolId) =
      if ∀ lower < poolId, mounts.table.pools lower ≠ 0 then some (mounts.table.pools poolId) else none := by
  have others {lower : Nat} (used : mounts.table.pools lower ≠ 0) (different : lower ≠ poolId) :
      (mounts.table.records (mounts.table.pools lower)).kobj ≠ mounts.kobj poolId :=
    consistent.kobj_ne member ((consistent.used lower).mp used) different
  split
  next full =>
    rw [kobjToPool_at (consistent.inside poolId member)
      (fun lower below => ⟨full lower below, others (full lower below) (Nat.ne_of_lt below)⟩) (.inr rfl),
      if_neg ((consistent.used poolId).mpr member)]
  next holes =>
    -- the scan ends at the first empty slot
    simp only [not_forall, not_not] at holes
    have exists_ : ∃ hole, hole < poolId ∧ mounts.table.pools hole = 0 := by
      obtain ⟨hole, below, empty⟩ := holes
      exact ⟨hole, below, empty⟩
    obtain ⟨below, empty⟩ := Nat.find_spec exists_
    have first {lower : Nat} (before : lower < Nat.find exists_) : mounts.table.pools lower ≠ 0 := fun zero =>
      Nat.find_min exists_ before ⟨before.trans below, zero⟩
    rw [kobjToPool_at (below.trans (consistent.inside poolId member))
      (fun lower before => ⟨first before, others (first before) (Nat.ne_of_lt (before.trans below))⟩) (.inl empty), if_pos empty]

theorem Consistent.step (consistent : Consistent base mounts) (valid : mounts.Valid call) :
    ((mounts.step call).isSome ↔ mounts.Careful call) ∧ ∀ after, mounts.step call = some after → Consistent base after := by
  cases call with
  | initFs pagesize choices =>
    rcases consistent.initFs pagesize choices with ⟨careful, table, ret, served, mounted⟩ | ⟨careless, served⟩
    · have moved : mounts.step (.initFs pagesize choices) = some ⟨table, if ret < 0 then mounts.live else insert ret.toNat mounts.live⟩ :=
        congrArg (Option.map _) served
      rw [moved]
      refine ⟨iff_of_true rfl careful, fun after same => ?_⟩
      obtain rfl := Option.some.inj same
      cases mounted with
      | failed negative unchanged =>
        rw [if_pos negative]
        exact consistent.unchanged unchanged
      | created id new later =>
        subst id
        rw [if_neg (Int.not_lt.mpr (Int.natCast_nonneg _)), Int.toNat_natCast]
        exact later
    · rw [Mounts.step, served, Option.map_none]
      exact ⟨iff_of_false (by simp) careless, nofun⟩
  | flushFs poolId =>
    obtain ⟨result, served, later, _⟩ := consistent.flushFs valid
    rw [Mounts.step, served, Option.map_some]
    refine ⟨iff_of_true rfl valid, fun after same => ?_⟩
    obtain rfl := Option.some.inj same
    exact later
  | sysfs poolId =>
    rw [Mounts.step, consistent.kobjToPool valid]
    split
    next full =>
      refine ⟨iff_of_true rfl ⟨valid, full⟩, fun after same => ?_⟩
      obtain rfl := Option.some.inj same
      exact consistent
    next holes => exact ⟨iff_of_false (by simp) fun careful => holes careful.2, nofun⟩

omit [Arch] in
theorem Mounts.Careful.valid (careful : mounts.Careful call) : mounts.Valid call := by
  cases call with
  | initFs => trivial
  | flushFs poolId => exact careful
  | sysfs poolId => exact careful.1

omit [Arch] in
theorem Consistent.slots (consistent : Consistent base mounts) :
    mounts.live = (Finset.range maxZcachePools).filter fun slot => mounts.table.pools slot ≠ 0 := by
  ext slot
  rw [Finset.mem_filter, Finset.mem_range, consistent.used]
  exact ⟨fun live => ⟨consistent.inside slot live, live⟩, And.right⟩

/-- As long as every call is careful, the count is that of the live pools and of the
slots in use, a call goes wrong only by being careless, a mount that fails leaves no
trace, one that succeeds gets an id not in use, and a lookup finds its pool. -/
theorem pools_kept (run : Run Mounts.step Mounts.Careful (Mounts.create base) mounts) :
    (mounts.table.numPools = mounts.live.card ∧
      mounts.table.numPools = ((Finset.range maxZcachePools).filter fun slot => mounts.table.pools slot ≠ 0).card) ∧
    (∀ call, mounts.Valid call → ((mounts.step call).isSome ↔ mounts.Careful call)) ∧
    (∀ pagesize choices table ret, zcacheInitFs mounts.table pagesize choices = some (table, ret) →
      (ret < 0 ∧ Unchanged mounts.table table) ∨ ∃ poolId : Nat, ret = poolId ∧ poolId < maxZcachePools ∧ poolId ∉ mounts.live) ∧
    (∀ poolId, mounts.Careful (.sysfs poolId) → zcacheKobjToPool mounts.table (mounts.kobj poolId) = some (mounts.table.pools poolId)) := by
  have consistent : Consistent base mounts := run.invariant (Consistent base) (.create base) fun before careful taken =>
    (before.step careful.valid).2 _ taken
  refine ⟨⟨consistent.counted, ?_⟩, fun call valid => (consistent.step valid).1, ?_, ?_⟩
  · rw [← consistent.slots]
    exact consistent.counted
  · intro pagesize choices table ret served
    rcases consistent.initFs pagesize choices with ⟨_, result, id, same, mounted⟩ | ⟨_, refused⟩
    · obtain ⟨rfl, rfl⟩ := Prod.mk.inj (Option.some.inj (same.symm.trans served))
      cases mounted with
      | failed negative unchanged => exact .inl ⟨negative, unchanged⟩
      | created id new later => exact .inr ⟨_, id, later.inside _ (Finset.mem_insert_self ..), new⟩
    · rw [refused] at served
      cases served
  · rintro poolId ⟨live, full⟩
    rw [consistent.kobjToPool live, if_pos full]

end Steps
end Mounts

section Sample
local instance poolsArch : Arch := Arch.x64

/-- The allocations of a mount: four blocks from `first` on. -/
def sampleChoices (first : Nat) (positive : 0 < first) : InitChoices where
  zpool := .offering first positive
  stats := .offering (first + 1) (Nat.succ_pos _)
  xvPool := .offering (first + 2) (Nat.succ_pos _)
  kobj := .offering (first + 3) (Nat.succ_pos _)
  sysfsError := 0
  totalramPages := 262144

def Mounts.cautious (mounts : Mounts) : Call → Bool
  | .initFs pagesize choices => pagesize != pageSize || mounts.table.numPools == maxZcachePools ||
      match choices.zpool.pick mounts.table.blocks with
      | none => true
      | some zpool =>
        match choices.stats.pick (insert zpool mounts.table.blocks) with
        | none => false
        | some stats => (choices.xvPool.pick (insert stats (insert zpool mounts.table.blocks))).isSome
  | .flushFs poolId => decide (poolId ∈ mounts.live)
  | .sysfs poolId => decide (poolId ∈ mounts.live ∧ ∀ lower < poolId, mounts.table.pools lower ≠ 0)

theorem careful_of_cautious {mounts : Mounts} {call : Call} (passed : mounts.cautious call = true) : mounts.Careful call := by
  cases call with
  | flushFs poolId => exact of_decide_eq_true (p := poolId ∈ mounts.live) passed
  | sysfs poolId => exact of_decide_eq_true (p := poolId ∈ mounts.live ∧ ∀ lower < poolId, mounts.table.pools lower ≠ 0) passed
  | initFs pagesize choices =>
    intro whole room zpool got
    simp only [Mounts.cautious, whole, room, bne_self_eq_false, beq_iff_eq, Bool.false_or, Bool.or_eq_true, false_or, got] at passed
    cases counters : choices.stats.pick (insert zpool mounts.table.blocks) with
    | none =>
      rw [counters] at passed
      cases passed
    | some stats =>
      rw [counters] at passed
      exact ⟨stats, rfl, passed⟩

/-- Two filesystems are mounted; for a third there is no sysfs group, and then no pool.
The first is unmounted and its slot taken by another. -/
def mountCalls : List Call :=
  [.initFs pageSize (sampleChoices 16 (by decide)), .initFs pageSize (sampleChoices 32 (by decide)),
    .initFs pageSize { sampleChoices 48 (by decide) with sysfsError := 12 }, .sysfs 1,
    .initFs pageSize { sampleChoices 48 (by decide) with zpool := .exhausted }, .flushFs 0,
      .initFs pageSize (sampleChoices 48 (by decide)), .sysfs 1]

theorem pools_kept_sample : ∃ mounts, Run Mounts.step Mounts.Careful (Mounts.create ∅) mounts ∧ mounts.live = {0, 1} ∧
    mounts.table.pools 0 = 48 ∧
    (mounts.table.numPools = mounts.live.card ∧
      mounts.table.numPools = ((Finset.range maxZcachePools).filter fun slot => mounts.table.pools slot ≠ 0).card) ∧
    (∀ call, mounts.Valid call → ((mounts.step call).isSome ↔ mounts.Careful call)) ∧
    (∀ pagesize choices table ret, zcacheInitFs mounts.table pagesize choices = some (table, ret) →
      (ret < 0 ∧ Unchanged mounts.table table) ∨ ∃ poolId : Nat, ret = poolId ∧ poolId < maxZcachePools ∧ poolId ∉ mounts.live) ∧
    (∀ poolId, mounts.Careful (.sysfs poolId) → zcacheKobjToPool mounts.table (mounts.kobj poolId) = some (mounts.table.pools poolId)) := by
  have reached : ∃ mounts ∈ steps (tested Mounts.step Mounts.cautious) (Mounts.create ∅) mountCalls, mounts.live = {0, 1} ∧
      mounts.table.pools 0 = 48 := by
    decide +kernel
  obtain ⟨mounts, taken, live, slot⟩ := reached
  have run : Run Mounts.step Mounts.Careful (Mounts.create ∅) mounts := .of_tested careful_of_cautious taken
  exact ⟨mounts, run, live, slot, pools_kept run⟩

def sampleCalls : List Call :=
  [.initFs pageSize (sampleChoices 16 (by decide)), .initFs pageSize (sampleChoices 32 (by decide)), .flushFs 0]

/-- A mount without memory for counters writes behind the table, and a file of the
second pool leads through the slot the first one left. -/
theorem pools_overrun : (Mounts.create ∅).step (.initFs pageSize { sampleChoices 16 (by decide) with stats := .exhausted }) = none ∧
    ∃ mounts, Run Mounts.step Mounts.Valid (Mounts.create ∅) mounts ∧ mounts.Valid (.sysfs 1) ∧ mounts.step (.sysfs 1) = none := by
  refine ⟨by decide +kernel, ?_⟩
  have taken : ((steps Mounts.step (Mounts.create ∅) sampleCalls).map fun mounts => (mounts.live, (mounts.step (.sysfs 1)).isNone)) =
      some ({1}, true) := by decide +kernel
  obtain ⟨mounts, reached, shown⟩ := Option.map_eq_some_iff.mp taken
  obtain ⟨live, failed⟩ := Prod.mk.inj shown
  have valid : Met Mounts.step Mounts.Valid (Mounts.create ∅) sampleCalls := by
    obtain ⟨first, one, later⟩ := Option.bind_eq_some_iff.mp reached
    obtain ⟨second, two, _⟩ := Option.bind_eq_some_iff.mp later
    have both : (((steps Mounts.step (Mounts.create ∅) (sampleCalls.take 2)).map fun mounts => decide (0 ∈ mounts.live))) =
      some true := by decide +kernel
    refine ⟨trivial, ?_⟩
    rw [one]
    refine ⟨trivial, ?_⟩
    simp only [two]
    simp only [sampleCalls, List.take, steps, one, two, Option.bind_some, Option.map_some, Option.some.injEq, decide_eq_true_eq] at both
    refine ⟨both, ?_⟩
    split <;> trivial
  have second : 1 ∈ mounts.live := by
    rw [live]
    exact Finset.mem_singleton_self 1
  exact ⟨mounts, .of_met valid reached, second, Option.isNone_iff_eq_none.mp failed⟩

end Sample
end Compcache.Zcache
