import Compcache.Proofs.ZcacheOperations
import Compcache.Proofs.ZcacheStores

/-! Whole runs of a pool used by one operation after the other: what the operations
return, what the counters say, and what memory the pool is left with. -/

namespace Compcache.Zcache
open Library Library.PagedMemory Library.PerCpu Library.Runs Xvmalloc

section Sessions
variable [Arch] {cpus : Nat} {lzo : Lzo} {others : Finset Page} {memory : Memory Page} {memlimit : Nat} {pool : Pool cpus}
    {store after : Store}
  {session : Session cpus} {op : Op} {reply : Reply}

/-- An inode has fewer pages than a count in 32 bits can tell. -/
def Pool.Few (pool : Pool cpus) (inodeNo : Nat) : Prop :=
  ∀ node inode, pool.inodeTree.find? inodeNo = some node → pool.nodes node = some inode → inode.pageTree.entries.length ≤ uintMax

/-- An index is a word. A page of zeros has a node, and an index that can be told from its
mark; there is memory for the page tree; and an inode that is flushed has not too many pages. -/
def Op.Fits (pool : Pool cpus) : Op → Prop
  | putPage _ index data choices => choices.insert = true ∧ index < 2 ^ bitsPerLong ∧
      (pageZeroFilled data = true → choices.node = true ∧ index < 2 ^ (bitsPerLong - zcacheZeroPageIndexShift))
  | flushInode filekey => pool.Few filekey.ino
  | flushFs => ∀ inodeNo, pool.Few inodeNo
  | _ => True

theorem Kept.few {desk : Desk} {inodeNo : Nat} (kept : Kept others desk pool) (few : pool.Few inodeNo) {pages : SortedMap Stock}
    (stocked : desk.shelves.find? inodeNo = some pages) : pages.entries.length ≤ uintMax := by
  cases here : desk.tree.find? inodeNo with
  | none =>
    rw [kept.linked.absent here] at stocked
    cases stocked
  | some node =>
    obtain ⟨_, inode, again, present, shelf⟩ := kept.shelf here
    obtain rfl := Option.some.inj (stocked.symm.trans again)
    have bound := few node inode (by rw [kept.linked.tree, here]) present
    rw [shelf.stocked] at bound
    exact (List.length_map _).symm.trans_le bound

/-- Every operation that fits comes to an end, whatever CPUs it is moved to, and to one
that the pages allow. -/
theorem Shows.answers (inverts : lzo.Inverts) (shows : Shows lzo others store pool) (fits : op.Fits pool) (task : Nat) :
    Inevitable (Progress.step lzo task) (Answers lzo others store op) ⟨pool, [], op.code lzo⟩ := by
  obtain ⟨desk, clear, sane, rfl, kept⟩ := shows
  have promised : Promised lzo task others (Answers lzo others (desk.store lzo) op) desk (op.code lzo : Code cpus) := by
    cases op with
    | putPage filekey index data choices =>
      obtain ⟨insert, word, zeros⟩ := fits
      exact putPage_promised inverts filekey clear sane (fun filled => (zeros filled).1) insert word fun filled => (zeros filled).2
    | getPage filekey index page => exact getPage_promised inverts filekey page clear sane
    | flushPage filekey index => exact flushPage_promised filekey clear sane
    | flushInode filekey => exact flushInode_promised filekey clear sane (kept.few fits)
    | shrinkPool => exact shrinkPool_promised inverts clear sane
    | memlimitStore memlimit => exact memlimitStore_promised inverts memlimit clear sane
    | flushFs => exact flushFs_promised clear sane fun {inodeNo _} => kept.few (fits inodeNo)
  have final := promised pool kept
  rwa [clear.held] at final

theorem Shows.create : Shows lzo others ⟨.empty, memlimit⟩ (Pool.create ⟨memory, others⟩ memlimit : Pool cpus) := by
  have bare (inodeNo index : Nat) : NestedMap.lookup (SortedMap.empty : Shelves) inodeNo index = none := rfl
  refine ⟨⟨.empty, .empty, memlimit, fun _ => [], none, [], none, none, fun _ => 0⟩, ⟨rfl, rfl, rfl, rfl, fun _ => rfl⟩, ⟨?_, ?_⟩, rfl,
    ⟨⟨rfl, ?_, ?_, ?_, ?_⟩, Stores.create memory, ?_, ?_, ?_, rfl⟩⟩
  · intro _ _ found
    cases found
  · intro _ _ _ _ found
    cases found
  · intro _ _ here
    cases here
  · exact fun _ => rfl
  · intro _ _ present
    cases present
  · exact fun _ => rfl
  · intro _ _ held
    cases held
  · rintro storage (⟨_, _, _, found, _⟩ | held)
    · cases found
    · cases held
  · intro stat
    show Counters.tally Counters.zero stat (List.finRange cpus) = 0 + 0
    simp [Counters.tally, Counters.zero]

theorem Op.running (op : Op) (reply : Reply) : op.code lzo ≠ (.done reply : Code cpus) := by
  cases op with
  | putPage filekey index data choices =>
    show zcachePutPage lzo filekey index data choices ≠ _
    unfold zcachePutPage
    split <;> simp [findStore]
  | _ => simp [code, zcacheGetPage, zcacheFlushPage, zcacheFlushInode, zcacheShrinkPool, Zcache.memlimitStore, flushNodes]

theorem Session.step_shows (inverts : lzo.Inverts) {turn : Turn cpus} {next : Session cpus} (shows : Shows lzo others store session.pool)
    (fits : turn.op.Fits session.pool) (taken : session.step lzo turn = some next) :
    ∃ reply after, store.Allows lzo reply after turn.op ∧ next.history = session.history ++ [(turn.op, reply)] ∧
      Shows lzo others after next.pool := by
  obtain ⟨final, reached, ended⟩ := Option.bind_eq_some_iff.mp taken
  cases code : final.code with
  | done reply =>
    rw [code] at ended
    cases ended
    have stuck (state : Progress cpus) {reply : Reply} (done : state.code = .done reply) (cpu : Fin cpus) :
        Progress.step lzo 0 state cpu = none := by
      rw [Progress.step, done, Pool.advance]
    rcases Nat.eq_zero_or_pos cpus with rfl | some_
    · cases scheduled : turn.schedule with
      | nil =>
        rw [scheduled] at reached
        obtain rfl := Option.some.inj reached
        exact absurd code (turn.op.running reply)
      | cons cpu _ => exact cpu.elim0
    · have : Nonempty (Fin cpus) := ⟨⟨0, some_⟩⟩
      obtain ⟨told, after, same, allowed, later⟩ := (shows.answers inverts fits 0).ended
        (fun state answers cpu => by obtain ⟨_, _, done, _⟩ := answers; exact stuck state done cpu) reached (stuck final code)
      obtain rfl : told = reply := by
        rw [code] at same
        cases same
        rfl
      exact ⟨told, after, allowed, rfl, later⟩
  | _ =>
    rw [code] at ended
    cases ended

section Latest
variable {before : Store} {data : PageData} {inodeNo index : Nat} {events : List Event}

theorem Store.Allows.found (allowed : before.Allows lzo reply after op) (found : after.lookup inodeNo index = some data) :
    (∃ filekey choices, op = .putPage filekey index data choices ∧ filekey.ino = inodeNo ∧ ¬ Event.Refused lzo ⟨before, op, reply⟩ data) ∨
      before.lookup inodeNo index = some data ∧ ¬ Event.Displaces lzo inodeNo index ⟨before, op, reply⟩ := by
  have gone {filekey : Filekey} {second : Nat} (sets : before.Sets after filekey.ino second none) :
      before.lookup inodeNo index = some data ∧ ¬ (inodeNo = filekey.ino ∧ index = second) := by
    rw [sets] at found
    split at found
    next => cases found
    next elsewhere => exact ⟨found, elsewhere⟩
  have spared {memlimit : Nat} (shrinks : before.Shrinks after memlimit) :
      before.lookup inodeNo index = some data ∧ (inodeNo, index) ∉ before.nonzero.take (excessPages memlimit before.nonzero.length) := by
    rw [shrinks] at found
    split at found
    next => cases found
    next elsewhere => exact ⟨found, elsewhere⟩
  cases op with
  | putPage filekey second put choices =>
    obtain ⟨_, _, outcome⟩ := allowed
    have placed (sets : before.Sets after filekey.ino second (some put))
      (taken : ¬ Event.Refused lzo ⟨before, .putPage filekey second put choices, reply⟩ put) :
        (∃ filekey' choices', Op.putPage filekey second put choices = .putPage filekey' index data choices' ∧ filekey'.ino = inodeNo ∧
          ¬ Event.Refused lzo ⟨before, .putPage filekey second put choices, reply⟩ data) ∨
        before.lookup inodeNo index = some data ∧ ¬ Event.Displaces lzo inodeNo index ⟨before, .putPage filekey second put choices,
            reply⟩ := by
      rw [sets] at found
      split at found
      next same =>
        obtain ⟨rfl, rfl⟩ := same
        cases found
        exact .inl ⟨filekey, choices, rfl, rfl, taken⟩
      next elsewhere => exact .inr ⟨found, fun displaces => elsewhere displaces.1⟩
    cases filled : pageZeroFilled put with
    | true =>
      rw [filled, if_pos rfl] at outcome
      refine placed outcome fun refused => ?_
      rw [Event.Refused, filled] at refused
      exact Bool.noConfusion refused.1
    | false =>
      rw [filled, if_neg Bool.false_ne_true] at outcome
      rcases outcome with ⟨full, same⟩ | ⟨room, ⟨sets, _⟩ | sets⟩
      · rw [same] at found
        exact .inr ⟨found, fun displaces => displaces.2 ⟨filled, full⟩⟩
      · exact placed sets fun refused => room refused.2
      · obtain ⟨old, elsewhere⟩ := gone sets
        exact .inr ⟨old, fun displaces => elsewhere displaces.1⟩
  | getPage filekey second page => exact .inr (gone allowed.2.2)
  | flushPage filekey second => exact .inr (gone allowed.2.2)
  | flushInode filekey =>
    rw [allowed.2.2] at found
    split at found
    next => cases found
    next elsewhere => exact .inr ⟨found, elsewhere⟩
  | shrinkPool => exact .inr (spared allowed.2.2)
  | memlimitStore memlimit =>
    obtain ⟨_, limit, shrinks⟩ := allowed
    rw [limit] at shrinks
    exact .inr (spared shrinks)
  | flushFs =>
    rw [allowed.2.2] at found
    cases found

theorem Latest.extend (latest : Latest lzo events inodeNo index data) {event : Event} (keeps : ¬ event.Displaces lzo inodeNo index) :
    Latest lzo (events ++ [event]) inodeNo index data := by
  obtain ⟨earlier, put, later, filekey, choices, rfl, rest⟩ := latest
  refine ⟨earlier, put, later ++ [event], filekey, choices, by rw [List.append_assoc, List.cons_append], rest.1, rest.2.1, rest.2.2.1, ?_⟩
  exact List.forall_mem_append.mpr ⟨rest.2.2.2, List.forall_mem_singleton.mpr keeps⟩

theorem Explains.latest (explains : Explains lzo memlimit events store) (found : store.lookup inodeNo index = some data) :
    Latest lzo events inodeNo index data := by
  induction explains with
  | start => cases found
  | turn earlier allowed ih =>
    rcases allowed.found found with ⟨filekey, choices, rfl, same, taken⟩ | ⟨old, keeps⟩
    · exact ⟨_, _, [], filekey, choices, rfl, rfl, same, taken, List.forall_mem_nil _⟩
    · exact (ih old).extend keeps

theorem Store.Allows.kept (allowed : before.Allows lzo reply after op) (found : before.lookup inodeNo index = some data)
    (keeps : ¬ Event.Displaces lzo inodeNo index ⟨before, op, reply⟩) : after.lookup inodeNo index = some data := by
  have elsewhere {filekey : Filekey} {second : Nat} {page : Option PageData} (sets : before.Sets after filekey.ino second page)
      (apart : ¬ (inodeNo = filekey.ino ∧ index = second)) : after.lookup inodeNo index = some data := by rw [sets, if_neg apart, found]
  have spared {memlimit : Nat} (shrinks : before.Shrinks after memlimit)
      (spared : (inodeNo, index) ∉ before.nonzero.take (excessPages memlimit before.nonzero.length)) : after.lookup inodeNo index =
          some data := by
    rw [shrinks, if_neg spared, found]
  cases op with
  | putPage filekey second put choices =>
    obtain ⟨_, _, outcome⟩ := allowed
    have apart (accepted : ¬ Event.Refused lzo ⟨before, .putPage filekey second put choices, reply⟩ put) :
        ¬ (inodeNo = filekey.ino ∧ index = second) :=
      fun same => keeps ⟨same, accepted⟩
    cases filled : pageZeroFilled put with
    | true =>
      rw [filled, if_pos rfl] at outcome
      refine elsewhere outcome (apart fun refused => ?_)
      rw [Event.Refused, filled] at refused
      exact Bool.noConfusion refused.1
    | false =>
      rw [filled, if_neg Bool.false_ne_true] at outcome
      rcases outcome with ⟨_, same⟩ | ⟨room, ⟨sets, _⟩ | sets⟩
      · rw [same, found]
      · exact elsewhere sets (apart fun refused => room refused.2)
      · exact elsewhere sets (apart fun refused => room refused.2)
  | getPage filekey second page => exact elsewhere allowed.2.2 keeps
  | flushPage filekey second => exact elsewhere allowed.2.2 keeps
  | flushInode filekey =>
    have apart : inodeNo ≠ filekey.ino := keeps
    rw [allowed.2.2, if_neg apart, found]
  | shrinkPool => exact spared allowed.2.2 keeps
  | memlimitStore memlimit =>
    obtain ⟨_, limit, shrinks⟩ := allowed
    rw [limit] at shrinks
    exact spared shrinks keeps
  | flushFs => exact absurd trivial keeps

theorem Explains.zeros_kept (explains : Explains lzo memlimit events store) (latest : Latest lzo events inodeNo index data)
    (filled : pageZeroFilled data = true) :
    store.lookup inodeNo index = some data := by
  obtain ⟨earlier, put, later, filekey, choices, parts, called, rfl, taken, keeps⟩ := latest
  induction explains generalizing later with
  | start => simp at parts
  | turn first allowed ih =>
    rcases List.eq_nil_or_concat later with rfl | ⟨before, last, rfl⟩
    · obtain ⟨_, same⟩ := List.append_inj' parts rfl
      obtain rfl := List.singleton_inj.mp same
      cases called
      have sets := allowed.2.2
      rw [filled, if_pos rfl] at sets
      rw [sets, if_pos ⟨rfl, rfl⟩]
    · rw [List.concat_eq_append, ← List.cons_append, ← List.append_assoc] at parts
      obtain ⟨same, ends⟩ := List.append_inj' parts rfl
      obtain rfl := List.singleton_inj.mp ends
      rw [List.concat_eq_append] at keeps
      obtain ⟨before', last'⟩ := List.forall_mem_append.mp keeps
      exact allowed.kept (ih before same before') (last' _ (List.mem_singleton_self _))

end Latest

/-- The runs of a pool in which every operation fits. -/
abbrev FitRun (lzo : Lzo) (memory : Memory Page) (others : Finset Page) (memlimit : Nat) (session : Session cpus) : Prop :=
  Run (Session.step lzo) (fun session turn => turn.op.Fits session.pool) (Session.create ⟨memory, others⟩ memlimit) session

/-- What a pool shows in a run, and what led there. -/
def Session.Explained (lzo : Lzo) (others : Finset Page) (memlimit : Nat) (session : Session cpus) (events : List Event) (store : Store) :
    Prop :=
  Explains lzo memlimit events store ∧ session.history = events.map Event.told ∧ Shows lzo others store session.pool

theorem Session.Explained.step (inverts : lzo.Inverts) {turn : Turn cpus} {next : Session cpus} {events : List Event}
    (explained : session.Explained lzo others memlimit events store) (fits : turn.op.Fits session.pool)
    (taken : session.step lzo turn = some next) :
    ∃ reply after, store.Allows lzo reply after turn.op ∧
      next.Explained lzo others memlimit (events ++ [⟨store, turn.op, reply⟩]) after := by
  obtain ⟨explains, told, shows⟩ := explained
  obtain ⟨reply, after, allowed, history, later⟩ := Session.step_shows inverts shows fits taken
  refine ⟨reply, after, allowed, .turn explains allowed, ?_, later⟩
  rw [history, told, List.map_append, List.map_singleton]
  rfl

theorem FitRun.explained (inverts : lzo.Inverts) (run : FitRun lzo memory others memlimit session) :
    ∃ events store, session.Explained lzo others memlimit events store := by
  refine run.invariant (fun session => ∃ events store, session.Explained lzo others memlimit events store)
    ⟨[], _, .start, rfl, Shows.create⟩ ?_
  rintro before next turn ⟨events, store, explained⟩ fits taken
  obtain ⟨reply, after, _, later⟩ := explained.step inverts fits taken
  exact ⟨_, _, later⟩

theorem Shows.lookup (shows : Shows lzo others store pool) (inodeNo index : Nat) : store.lookup inodeNo index ≠ none ↔
    ∃ node inode, pool.inodeTree.find? inodeNo = some node ∧ pool.nodes node = some inode ∧ inode.pageTree.find? index ≠ none := by
  obtain ⟨desk, _, _, rfl, kept⟩ := shows
  rw [Desk.lookup_store, ne_eq, Option.map_eq_none_iff, kept.linked.tree]
  cases here : desk.tree.find? inodeNo with
  | none =>
    rw [NestedMap.lookup_missing (kept.linked.absent here)]
    simp
  | some node =>
    obtain ⟨pages, inode, stocked, present, shelf⟩ := kept.shelf here
    rw [NestedMap.lookup_row stocked]
    simp [present, shelf.stocked, SortedMap.find?_mapValues]

/-- In every run, what the operations return is what they may return on the pages kept
so far, and these are the pages that are in the page trees. -/
theorem refines_store (inverts : lzo.Inverts) (run : FitRun lzo memory others memlimit session) :
    ∃ events store, Explains lzo memlimit events store ∧ session.history = events.map Event.told ∧ store.memlimit = session.pool.memlimit ∧
      ∀ inodeNo index, store.lookup inodeNo index ≠ none ↔ ∃ node inode,
        session.pool.inodeTree.find? inodeNo = some node ∧ session.pool.nodes node = some inode ∧ inode.pageTree.find? index ≠ none := by
  obtain ⟨events, store, explains, told, shows⟩ := run.explained inverts
  refine ⟨events, store, explains, told, ?_, shows.lookup⟩
  obtain ⟨desk, _, _, rfl, kept⟩ := shows
  exact kept.memlimit.symm

/-- In every run, every operation that fits comes to an end, whatever CPUs its task is
moved to, and finds no BUG and no lock held on the way. -/
theorem operations_end (inverts : lzo.Inverts) (run : FitRun lzo memory others memlimit session) (fits : op.Fits session.pool) :
    Inevitable (Progress.step lzo 0) (fun final => ∃ reply, final.code = .done reply) ⟨session.pool, [], op.code lzo⟩ := by
  obtain ⟨_, store, _, _, shows⟩ := run.explained inverts
  exact (shows.answers inverts fits 0).mono fun final answers => by
    obtain ⟨reply, _, done, _⟩ := answers
    exact ⟨reply, done⟩

/-- A get returns the page that was last put, unless it was displaced, evicted or dropped.
A page of zeros is not dropped. -/
theorem gets_latest (inverts : lzo.Inverts) (run : FitRun lzo memory others memlimit session) {filekey : Filekey}
    {index : Nat} {page : PageData}
    {schedule : List (Fin cpus)} {next : Session cpus} (taken : session.step lzo ⟨.getPage filekey index page, schedule⟩ = some next) :
    ∃ events store, Explains lzo memlimit events store ∧ session.history = events.map Event.told ∧
      ((∃ data, next.history = session.history ++ [(.getPage filekey index page, .got 0 data)] ∧ Latest lzo events filekey.ino index data) ∨
        next.history = session.history ++ [(.getPage filekey index page, .got (-efault) page)] ∧
          ∀ data, Latest lzo events filekey.ino index data → pageZeroFilled data = false) := by
  obtain ⟨events, store, explains, told, shows⟩ := run.explained inverts
  have fits : Op.Fits session.pool (.getPage filekey index page) := trivial
  obtain ⟨reply, after, ⟨replied, _, _⟩, history, _⟩ := Session.step_shows inverts shows fits taken
  refine ⟨events, store, explains, told, ?_⟩
  rw [history, replied]
  cases found : store.lookup filekey.ino index with
  | some data => exact .inl ⟨data, rfl, explains.latest found⟩
  | none =>
    refine .inr ⟨rfl, fun data latest => Bool.eq_false_iff.mpr fun filled => ?_⟩
    rw [explains.zeros_kept latest filled] at found
    cases found

theorem Shows.counted (inverts : lzo.Inverts) (shows : Shows lzo others store pool) (stat : Stat) :
    pool.stats.tally stat (List.finRange cpus) = store.count lzo stat := by
  obtain ⟨desk, clear, sane, rfl, kept⟩ := shows
  rw [kept.counted, clear.owed, add_zero, Desk.count_store inverts sane]

/-- After every operation the counters say what is in the pool: how many pages of zeros,
how many others, and how long those are when compressed. -/
theorem counters_exact (inverts : lzo.Inverts) (run : FitRun lzo memory others memlimit session) :
    ∃ events store, session.Explained lzo others memlimit events store ∧
      ∀ stat, session.pool.stats.tally stat (List.finRange cpus) = store.count lzo stat := by
  obtain ⟨events, store, explained⟩ := run.explained inverts
  exact ⟨events, store, explained, explained.2.2.counted inverts⟩

section Limits
variable {before : Store} {events : List Event} {bound : Nat}

omit [Arch] in
theorem PageData.counts_nonneg (data : PageData) (stat : Stat) : 0 ≤ PageData.counts lzo data stat := by
  cases stat <;> simp only [PageData.counts] <;> split <;> simp

omit [Arch] in
theorem Store.count_le (sub : ∀ {inodeNo index data}, after.lookup inodeNo index = some data → before.lookup inodeNo index = some data)
    (stat : Stat) :
    after.count lzo stat ≤ before.count lzo stat := NestedMap.total_le (fun _ => PageData.counts_nonneg _ stat) sub

omit [Arch] in
theorem Store.Sets.count {inodeNo index : Nat} {page : Option PageData} (sets : before.Sets after inodeNo index page)
    (lzo : Lzo) (stat : Stat) :
    after.count lzo stat ≤ before.count lzo stat + page.elim 0 fun data => PageData.counts lzo data stat := by
  have changed : after.count lzo stat =
    before.count lzo stat - ((before.lookup inodeNo index).elim 0 fun data => PageData.counts lzo data stat) +
      page.elim 0 fun data => PageData.counts lzo data stat := NestedMap.total_set sets _
  have old : 0 ≤ (before.lookup inodeNo index).elim 0 fun data => PageData.counts lzo data stat := by
    cases before.lookup inodeNo index with
    | none => exact Int.le_refl _
    | some data => exact PageData.counts_nonneg data stat
  omega

/-- An operation makes a pool no larger than it was, or no larger than the limit. -/
theorem Store.Allows.size (allowed : before.Allows lzo reply after op) :
    after.count lzo .comprSize ≤ before.count lzo .comprSize ∨ after.count lzo .comprSize ≤ before.memlimit := by
  have dropped {inodeNo index : Nat} (sets : before.Sets after inodeNo index none) :
      after.count lzo .comprSize ≤ before.count lzo .comprSize :=
    (sets.count lzo .comprSize).trans_eq (add_zero _)
  have spared {gone : Nat → Nat → Prop} [∀ inodeNo index, Decidable (gone inodeNo index)]
      (emptied : ∀ inodeNo index, after.lookup inodeNo index = if gone inodeNo index then none else before.lookup inodeNo index) :
      after.count lzo .comprSize ≤ before.count lzo .comprSize := by
    refine Store.count_le (fun {inodeNo index data} found => ?_) _
    rw [emptied] at found
    split at found
    next => cases found
    next => exact found
  cases op with
  | putPage filekey second put choices =>
    obtain ⟨_, _, outcome⟩ := allowed
    cases filled : pageZeroFilled put with
    | true =>
      rw [filled, if_pos rfl] at outcome
      have changed := outcome.count lzo .comprSize
      rw [Option.elim_some, PageData.counts, if_pos filled, add_zero] at changed
      exact .inl changed
    | false =>
      rw [filled, if_neg Bool.false_ne_true] at outcome
      rcases outcome with ⟨_, same⟩ | ⟨room, ⟨sets, src, made, small⟩ | sets⟩
      · exact .inl (Store.count_le (fun found => by rwa [same] at found) _)
      · have changed := sets.count lzo .comprSize
        have length : PageData.counts lzo put .comprSize ≤ zcacheMaxPageSize := by
          rw [PageData.counts, filled, if_neg Bool.false_ne_true, made, Option.elim_some]
          exact Int.ofNat_le.mpr small
        rw [Option.elim_some] at changed
        rw [Store.Full] at room
        exact .inr (by omega)
      · exact .inl (dropped sets)
  | getPage filekey second page => exact .inl (dropped allowed.2.2)
  | flushPage filekey second => exact .inl (dropped allowed.2.2)
  | flushInode filekey => exact .inl (spared allowed.2.2)
  | shrinkPool => exact .inl (spared allowed.2.2)
  | memlimitStore memlimit => exact .inl (spared allowed.2.2)
  | flushFs => exact .inl (Store.count_le (fun found => by rw [allowed.2.2] at found; cases found) _)

theorem Store.Allows.limit (allowed : before.Allows lzo reply after op) :
    after.memlimit = before.memlimit ∨ ∃ memlimit, op = .memlimitStore memlimit ∧ after.memlimit = ZramDrv.andPageMask memlimit := by
  cases op with
  | memlimitStore memlimit => exact .inr ⟨memlimit, rfl, allowed.2.1⟩
  | _ => exact .inl allowed.2.1

theorem Explains.bounded (explains : Explains lzo memlimit events store) (initial : memlimit ≤ bound)
    (set_ : ∀ event ∈ events, ∀ limit, event.op = .memlimitStore limit → ZramDrv.andPageMask limit ≤ bound) :
    store.count lzo .comprSize ≤ bound ∧ store.memlimit ≤ bound := by
  induction explains with
  | start => exact ⟨Int.natCast_nonneg bound, initial⟩
  | turn earlier allowed ih =>
    obtain ⟨before, last⟩ := List.forall_mem_append.mp set_
    obtain ⟨size, limit⟩ := ih before
    constructor
    · rcases allowed.size with less | less
      · exact less.trans size
      · exact less.trans (Int.ofNat_le.mpr limit)
    · rcases allowed.limit with same | ⟨stored, called, same⟩
      · rw [same]
        exact limit
      · rw [same]
        exact last _ (List.mem_singleton_self _) stored called

end Limits

/-- The pages in a pool are never longer, when compressed, than the largest limit it
has had. -/
theorem size_within_limit (inverts : lzo.Inverts) (run : FitRun lzo memory others memlimit session) {bound : Nat}
    (initial : memlimit ≤ bound)
    (set_ : ∀ told ∈ session.history, ∀ limit, told.1 = .memlimitStore limit → ZramDrv.andPageMask limit ≤ bound) :
    session.pool.stats.tally .comprSize (List.finRange cpus) ≤ bound := by
  obtain ⟨events, store, explains, told, shows⟩ := run.explained inverts
  rw [shows.counted inverts]
  refine (explains.bounded initial fun event member limit called => ?_).1
  refine set_ event.told ?_ limit called
  rw [told]
  exact List.mem_map_of_mem member

/-- A pool with no page in it has freed all its nodes and given all its memory back. -/
theorem Shows.nothing (shows : Shows lzo others store pool) (bare : ∀ inodeNo index, store.lookup inodeNo index = none) :
    (∀ node, pool.nodes node = none) ∧ pool.inodeTree = .empty ∧ pool.xv.kernel.owned = others ∧ pool.xv.pool.totalPages = 0 := by
  obtain ⟨desk, clear, sane, rfl, kept⟩ := shows
  have none_ (inodeNo index : Nat) : NestedMap.lookup desk.shelves inodeNo index = none := by
    have absent := bare inodeNo index
    rw [Desk.lookup_store, Option.map_eq_none_iff] at absent
    exact absent
  have untold (inodeNo : Nat) : desk.tree.find? inodeNo = none := by
    cases here : desk.tree.find? inodeNo with
    | none => rfl
    | some node =>
      obtain ⟨pages, _, stocked, _, shelf⟩ := kept.shelf here
      have empty : pages.entries = [] := SortedMap.entries_eq_nil.mpr fun index =>
        (NestedMap.lookup_row stocked index).symm.trans (none_ inodeNo index)
      rcases shelf.reason empty with holds | leaves
      · rw [clear.held] at holds
        cases holds
      · rw [clear.leaving] at leaves
        cases leaves
  refine ⟨fun node => ?_, ?_, kept.stores.backed.nothing ?_⟩
  · cases present : pool.nodes node with
    | none => rfl
    | some inode =>
      have listed := kept.linked.listed present
      rw [untold] at listed
      cases listed
  · rw [kept.linked.tree]
    exact SortedMap.ext_find? untold
  · rintro storage (⟨inodeNo, index, _, found, _⟩ | held)
    · rw [none_] at found
      cases found
    · rw [clear.hand] at held
      cases held

/-- Behind `zcache_flush_fs` nothing is left of a pool. -/
theorem flush_gives_back (inverts : lzo.Inverts) (run : FitRun lzo memory others memlimit session) (fits : Op.flushFs.Fits session.pool)
    {schedule : List (Fin cpus)} {next : Session cpus} (taken : session.step lzo ⟨.flushFs, schedule⟩ = some next) :
    (∀ node, next.pool.nodes node = none) ∧ next.pool.inodeTree = .empty ∧ next.pool.xv.kernel.owned = others ∧
      next.pool.xv.pool.totalPages = 0 ∧
      ∀ stat, next.pool.stats.tally stat (List.finRange cpus) = 0 := by
  obtain ⟨events, store, explained⟩ := run.explained inverts
  obtain ⟨reply, after, ⟨_, _, bare⟩, later⟩ := explained.step inverts fits taken
  obtain ⟨nodes, tree, owned, pages⟩ := later.2.2.nothing bare
  refine ⟨nodes, tree, owned, pages, fun stat => ?_⟩
  rw [later.2.2.counted inverts]
  exact NestedMap.total_nothing bare _

/-- Between operations every node is in the tree, has pages, is not locked, and nobody
but the tree holds it. -/
theorem nodes_rest (inverts : lzo.Inverts) (run : FitRun lzo memory others memlimit session) {node : Nat} {inode : InodeRb}
    (present : session.pool.nodes node = some inode) :
    session.pool.inodeTree.find? inode.inodeNo = some node ∧ inode.pageTree.entries ≠ [] ∧ inode.treeLock = none ∧ inode.refcount = 1 := by
  obtain ⟨_, _, _, _, desk, clear, sane, rfl, kept⟩ := run.explained inverts
  have listed := kept.linked.listed present
  obtain ⟨pages, found, stocked, again, shelf⟩ := kept.shelf listed
  obtain rfl := Option.some.inj (present.symm.trans again)
  refine ⟨by rw [kept.linked.tree, listed], fun empty => ?_, shelf.unlocked ?_, ?_⟩
  · rw [shelf.stocked, SortedMap.mapValues_nil] at empty
    rcases shelf.reason empty with holds | leaves
    · rw [clear.held] at holds
      cases holds
    · rw [clear.leaving] at leaves
      cases leaves
  · rw [clear.locked]
    rintro ⟨⟩
  · rw [shelf.refcount, clear.held, List.count_nil]

end Sessions

section Sample
local instance sessionsArch : Arch := Arch.x64

def Session.fits (session : Session 1) (turn : Turn 1) : Bool :=
  let few : Bool := session.pool.inodeTree.entries.all fun entry => (session.pool.nodes entry.2).all fun inode =>
    decide (inode.pageTree.entries.length ≤ uintMax)
  match turn.op with
  | .putPage _ index _ choices => choices.insert && choices.node && decide (index < 2 ^ (bitsPerLong - zcacheZeroPageIndexShift))
  | .flushInode _ => few
  | .flushFs => few
  | _ => true

theorem Session.fits_meets {session : Session 1} {turn : Turn 1} (passed : session.fits turn = true) : turn.op.Fits session.pool := by
  obtain ⟨op, schedule⟩ := turn
  have few (all : (session.pool.inodeTree.entries.all fun entry =>
      (session.pool.nodes entry.2).all fun inode => decide (inode.pageTree.entries.length ≤ uintMax)) = true) (inodeNo : Nat) :
          session.pool.Few inodeNo := by
    intro node inode found present
    have here := List.all_eq_true.mp all _ (SortedMap.mem_entries.mpr found)
    rw [present] at here
    exact of_decide_eq_true here
  cases op with
  | putPage filekey index data choices =>
    obtain ⟨memory, small⟩ := Bool.and_eq_true_iff.mp passed
    obtain ⟨insert, node⟩ := Bool.and_eq_true_iff.mp memory
    have small := of_decide_eq_true small
    exact ⟨insert, small.trans_le (Nat.pow_le_pow_right (by decide) (Nat.sub_le ..)), fun _ => ⟨node, small⟩⟩
  | flushInode filekey => exact few passed _
  | flushFs => exact few passed
  | _ => trivial

abbrev SampleRun (session : Session 1) : Prop := FitRun Lzo.runs (fun _ _ => 0) ∅ 8192 session

theorem SampleRun.of_turns (shows : Session 1 → Prop) (turns : List (Turn 1))
    (reached : ∃ session ∈ steps (tested (Session.step Lzo.runs) Session.fits) (Session.create ⟨fun _ _ => 0, ∅⟩ 8192) turns,
      shows session) :
    ∃ session, SampleRun session ∧ shows session := by
  obtain ⟨session, taken, shows⟩ := reached
  exact ⟨session, .of_tested (fun {_ _} => Session.fits_meets) taken, shows⟩

def onCpu (op : Op) (count : Nat) : Turn 1 := ⟨op, List.replicate count onlyCpu⟩

/-- A page is put under inode 7, and a page of zeros. -/
def putTwo : List (Turn 1) :=
  [onCpu (.putPage (.ofIno 7) 0 (PageData.filled 17) (.served true)) 18, onCpu (.putPage (.ofIno 7) 3 PageData.zeros (.served true)) 9]

def Session.Linked (session : Session 1) : Prop := session.pool.inodeTree.find? 7 = some 0

instance Session.decidableLinked (session : Session 1) : Decidable session.Linked := decEq (session.pool.inodeTree.find? 7) (some 0)

theorem putTwo_linked : ∃ session, SampleRun session ∧ session.Linked :=
  SampleRun.of_turns Session.Linked putTwo (by decide +kernel)

theorem putTwo_then (turn : Turn 1)
    (ends : ∃ session ∈ steps (tested (Session.step Lzo.runs) Session.fits) (Session.create ⟨fun _ _ => 0, ∅⟩ 8192) putTwo,
      (session.step Lzo.runs turn).isSome) :
    ∃ session next, SampleRun session ∧ session.step Lzo.runs turn = some next := by
  obtain ⟨session, run, some_⟩ := SampleRun.of_turns (fun session => (session.step Lzo.runs turn).isSome) putTwo ends
  obtain ⟨next, taken⟩ := Option.isSome_iff_exists.mp some_
  exact ⟨session, next, run, taken⟩

theorem refines_store_sample : ∃ session : Session 1, session.Linked ∧ ∃ events store, Explains Lzo.runs 8192 events store ∧
    session.history = events.map Event.told ∧ store.memlimit = session.pool.memlimit ∧ ∀ inodeNo index, store.lookup inodeNo index ≠ none ↔
      ∃ node inode,
      session.pool.inodeTree.find? inodeNo = some node ∧ session.pool.nodes node = some inode ∧ inode.pageTree.find? index ≠ none := by
  obtain ⟨session, run, linked⟩ := putTwo_linked
  exact ⟨session, linked, refines_store Lzo.runs_inverts run⟩

theorem operations_end_sample : ∃ session : Session 1, session.Linked ∧
    Inevitable (Progress.step Lzo.runs 0)
    (fun final => ∃ reply, final.code = .done reply) ⟨session.pool, [], Op.shrinkPool.code Lzo.runs⟩ := by
  obtain ⟨session, run, linked⟩ := putTwo_linked
  exact ⟨session, linked, operations_end Lzo.runs_inverts run trivial⟩

theorem gets_latest_sample : ∃ session next : Session 1, ∃ events store, Explains Lzo.runs 8192 events store ∧ session.history =
    events.map Event.told ∧
    ((∃ data, next.history = session.history ++ [(.getPage (.ofIno 7) 0 PageData.zeros, .got 0 data)] ∧ Latest Lzo.runs events 7 0 data) ∨
      next.history = session.history ++ [(.getPage (.ofIno 7) 0 PageData.zeros, .got (-efault) PageData.zeros)] ∧
        ∀ data, Latest Lzo.runs events 7 0 data → pageZeroFilled data = false) := by
  obtain ⟨session, next, run, taken⟩ := putTwo_then (onCpu (.getPage (.ofIno 7) 0 PageData.zeros) 12) (by decide +kernel)
  exact ⟨session, next, gets_latest Lzo.runs_inverts run taken⟩

theorem counters_exact_sample : ∃ session : Session 1, session.Linked ∧ ∃ events store, session.Explained Lzo.runs ∅ 8192 events store ∧
    ∀ stat, session.pool.stats.tally stat (List.finRange 1) = store.count Lzo.runs stat := by
  obtain ⟨session, run, linked⟩ := putTwo_linked
  exact ⟨session, linked, counters_exact Lzo.runs_inverts run⟩

def Op.puts : Op → Bool
  | .putPage .. => true
  | _ => false

theorem size_within_limit_sample : ∃ session :
    Session 1, session.Linked ∧ session.pool.stats.tally .comprSize (List.finRange 1) ≤ 8192 := by
  obtain ⟨session, run, linked, puts⟩ :=
    SampleRun.of_turns (fun session => session.Linked ∧ session.history.all fun told => told.1.puts) putTwo (by decide +kernel)
  refine ⟨session, linked, size_within_limit Lzo.runs_inverts run (Nat.le_refl _) fun told member limit called => ?_⟩
  have put := List.all_eq_true.mp puts told member
  rw [called] at put
  cases put

theorem flush_gives_back_sample : ∃ next : Session 1, (∀ node, next.pool.nodes node = none) ∧ next.pool.inodeTree = .empty ∧
    next.pool.xv.kernel.owned = ∅ ∧ next.pool.xv.pool.totalPages = 0 ∧ ∀ stat, next.pool.stats.tally stat (List.finRange 1) = 0 := by
  obtain ⟨session, run, fits, ends⟩ := SampleRun.of_turns
    (fun session => session.fits (onCpu .flushFs 0) ∧ (session.step Lzo.runs (onCpu .flushFs 13)).isSome) putTwo (by decide +kernel)
  obtain ⟨next, taken⟩ := Option.isSome_iff_exists.mp ends
  exact ⟨next, flush_gives_back Lzo.runs_inverts run (Session.fits_meets fits) taken⟩

theorem nodes_rest_sample : ∃ session : Session 1, ∃ inode, session.pool.nodes 0 = some inode ∧
    session.pool.inodeTree.find? inode.inodeNo = some 0 ∧ inode.pageTree.entries ≠ [] ∧ inode.treeLock = none ∧ inode.refcount = 1 := by
  obtain ⟨session, run, some_⟩ := SampleRun.of_turns (fun session => (session.pool.nodes 0).isSome) putTwo (by decide +kernel)
  obtain ⟨inode, present⟩ := Option.isSome_iff_exists.mp some_
  exact ⟨session, inode, present, nodes_rest Lzo.runs_inverts run present⟩

end Sample
end Compcache.Zcache
