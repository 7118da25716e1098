import Compcache.Proofs.XvmallocFields
import Compcache.Library.LinkedList

/-! The free lists of a pool as lists of blocks. Insertion and removal change
one list, keep every other, and write only to links of listed blocks. -/

namespace Compcache.Xvmalloc
open Library.PagedMemory Library.Bitmap Library.LinkedList

/-- Headers and links of two blocks do not meet. -/
def Apart (first second : Location) : Prop :=
  first.page ≠ second.page ∨ first.offset + 36 ≤ second.offset ∨ second.offset + 36 ≤ first.offset

theorem Apart.symm {first second : Location} (apart : Apart first second) : Apart second first := by
  unfold Apart at *
  grind

variable [Arch]

/-- `lists` is what the heads, links and bitmaps of the pool say. -/
structure FreeLists (memory : Memory Page) (pool : XvPool) (lists : Nat → List Location) : Prop where
  heads : ∀ index, pool.freelist index = (lists index).headD Location.null
  linked : ∀ index, Linked (linkNext memory) (linkPrev memory) Location.null Location.null (lists index)
  nodup : ∀ index, (lists index).Nodup
  disjoint : ∀ {first second block}, block ∈ lists first → block ∈ lists second → first = second
  apart : ∀ {first second block other}, block ∈ lists first → other ∈ lists second → block ≠ other → Apart block other
  real : ∀ {index block}, block ∈ lists index → block.page ≠ noPage ∧ Storable block
  tracks : Tracks pool.flbitmap pool.slbitmap fun index => lists index ≠ []
  bounded : ∀ {index}, lists index ≠ [] → index < numFreeLists

/-- The bytes of the links of all listed blocks. -/
def LinksOf (lists : Nat → List Location) (page : Page) (address : Nat) : Prop :=
  ∃ index, ∃ block ∈ lists index, LinkBytes block page address

theorem freeLists_empty (memory : Memory Page) : FreeLists memory xvCreatePool fun _ => [] where
  heads _ := rfl
  linked _ := trivial
  nodup _ := List.nodup_nil
  disjoint member := by simp at member
  apart member := by simp at member
  real member := by simp at member
  tracks := Tracks.empty.congr fun _ => by simp
  bounded listed := by simp at listed

theorem word_index_lt {index : Nat} (bounded : index < numFreeLists) : index / bitsPerLong < bitsPerLong := by
  simp only [numFreeLists_eq] at bounded
  rcases Arch.bitsPerLong_cases with bits | bits <;> rw [bits] <;> omega

/-! One link store, seen from a block that is the one written to or apart from it. -/

section Store
variable {memory : Memory Page} {block other target : Location} (separate : other = block ∨ Apart other block)
include separate

theorem linkNext_after_setLinkPrev : linkNext (setLinkPrev memory block target) other = linkNext memory other := by
  rcases separate with rfl | apart
  · exact linkNext_setLinkPrev _ _ _
  · refine (link_frame (setLinkPrev_changes memory block target) ?_).1
    intro address _ _
    unfold Apart LinkBytes at *
    grind

theorem linkPrev_after_setLinkNext : linkPrev (setLinkNext memory block target) other = linkPrev memory other := by
  rcases separate with rfl | apart
  · exact linkPrev_setLinkNext _ _ _
  · refine (link_frame (setLinkNext_changes memory block target) ?_).2
    intro address _ _
    unfold Apart LinkBytes at *
    grind

theorem linkNext_after_setLinkNext (storable : Storable target) :
    linkNext (setLinkNext memory block target) other = if other = block then target else linkNext memory other := by
  by_cases same : other = block
  · subst other
    rw [if_pos rfl, linkNext_setLinkNext _ _ storable]
  · rw [if_neg same]
    refine (link_frame (setLinkNext_changes memory block target) ?_).1
    intro address _ _
    have apart := separate.resolve_left same
    unfold Apart LinkBytes at *
    grind

theorem linkPrev_after_setLinkPrev (storable : Storable target) :
    linkPrev (setLinkPrev memory block target) other = if other = block then target else linkPrev memory other := by
  by_cases same : other = block
  · subst other
    rw [if_pos rfl, linkPrev_setLinkPrev _ _ storable]
  · rw [if_neg same]
    refine (link_frame (setLinkPrev_changes memory block target) ?_).2
    intro address _ _
    have apart := separate.resolve_left same
    unfold Apart LinkBytes at *
    grind

end Store

namespace FreeLists
variable {memory after : Memory Page} {pool : XvPool} {lists : Nat → List Location} {block other : Location} {index : Nat}

theorem separate (valid : FreeLists memory pool lists) {first second : Nat} (member : block ∈ lists first)
    (otherMember : other ∈ lists second) : block = other ∨ Apart block other := by
  by_cases same : block = other
  · exact .inl same
  · exact .inr (valid.apart member otherMember same)

theorem null_outside (valid : FreeLists memory pool lists) (index : Nat) : Location.null ∉ lists index :=
  fun member => (valid.real member).1 rfl

theorem freelist_eq_null (valid : FreeLists memory pool lists) (index : Nat) : pool.freelist index = Location.null ↔ lists index = [] := by
  rw [valid.heads]
  cases listed : lists index with
  | nil => simp
  | cons block rest =>
    have member : block ∈ lists index := listed ▸ List.mem_cons_self
    have real := (valid.real member).1
    simp only [List.headD_cons, reduceCtorEq, iff_false]
    rintro rfl
    exact real rfl

theorem head_mem (valid : FreeLists memory pool lists) (present : (pool.freelist index).page ≠ noPage) :
    pool.freelist index ∈ lists index := by
  have head := valid.heads index
  cases listed : lists index with
  | nil => simp [head, listed, noPage] at present
  | cons first rest => simp [head, listed]

theorem next_mem (valid : FreeLists memory pool lists) (member : block ∈ lists index)
    (present : (linkNext memory block).page ≠ noPage) : linkNext memory block ∈ lists index := by
  rcases (valid.linked index).next_mem member with null | listed
  · simp [null, noPage] at present
  · exact listed

theorem prev_mem (valid : FreeLists memory pool lists) (member : block ∈ lists index)
    (present : (linkPrev memory block).page ≠ noPage) : linkPrev memory block ∈ lists index := by
  rcases (valid.linked index).prev_mem member with null | listed
  · simp [null, noPage] at present
  · exact listed

theorem next_iff_prev (valid : FreeLists memory pool lists) (member : block ∈ lists index) (otherMember : other ∈ lists index) :
    linkNext memory block = other ↔ linkPrev memory other = block :=
  (valid.linked index).next_iff_prev (valid.nodup index) (valid.null_outside index) (valid.null_outside index) member otherMember

theorem next_eq_iff (valid : FreeLists memory pool lists) (member : block ∈ lists index) {first : Nat}
    (inside : other ∈ lists first) : linkNext memory other = block ↔ other = linkPrev memory block := by
  constructor
  · intro equal
    obtain rfl := valid.disjoint (valid.next_mem inside (by rw [equal]; exact (valid.real member).1)) (equal ▸ member)
    exact ((valid.next_iff_prev inside member).mp equal).symm
  · intro equal
    have present : (linkPrev memory block).page ≠ noPage := equal ▸ (valid.real inside).1
    obtain rfl := valid.disjoint inside (equal ▸ valid.prev_mem member present)
    exact (valid.next_iff_prev inside member).mpr equal.symm

theorem prev_eq_iff (valid : FreeLists memory pool lists) (member : block ∈ lists index) {first : Nat}
    (inside : other ∈ lists first) : linkPrev memory other = block ↔ other = linkNext memory block := by
  constructor
  · intro equal
    obtain rfl := valid.disjoint (valid.prev_mem inside (by rw [equal]; exact (valid.real member).1)) (equal ▸ member)
    exact ((valid.next_iff_prev member inside).mpr equal).symm
  · intro equal
    have present : (linkNext memory block).page ≠ noPage := equal ▸ (valid.real inside).1
    obtain rfl := valid.disjoint inside (equal ▸ valid.next_mem member present)
    exact (valid.next_iff_prev member inside).mp equal.symm

theorem head_storable (valid : FreeLists memory pool lists) (index : Nat) : Storable (pool.freelist index) := by
  have head := valid.heads index
  cases listed : lists index with
  | nil => rw [head, listed]; exact storable_null
  | cons first rest =>
    have member : pool.freelist index ∈ lists index := by simp [head, listed]
    exact (valid.real member).2

theorem next_storable (valid : FreeLists memory pool lists) (member : block ∈ lists index) :
    Storable (linkNext memory block) := by
  rcases (valid.linked index).next_mem member with null | listed
  · rw [null]; exact storable_null
  · exact (valid.real listed).2

theorem prev_storable (valid : FreeLists memory pool lists) (member : block ∈ lists index) :
    Storable (linkPrev memory block) := by
  rcases (valid.linked index).prev_mem member with null | listed
  · rw [null]; exact storable_null
  · exact (valid.real listed).2

theorem congr (valid : FreeLists memory pool lists) {region : Page → Nat → Prop} (changes : ChangesOnly region memory after)
    (outside : ∀ page address, LinksOf lists page address → ¬ region page address) : FreeLists after pool lists :=
  { valid with
    linked := by
      intro index
      have same (block : Location) (member : block ∈ lists index) :=
        link_frame changes fun address (inside : LinkBytes block _ _) => outside _ _ ⟨index, block, member, inside⟩
      exact (valid.linked index).congr (fun block member => (same block member).1) (fun block member => (same block member).2) }

theorem withTotal (valid : FreeLists memory pool lists) (total : Nat) :
    FreeLists memory { pool with totalPages := total } lists := { valid with }

/-- Taking one block out leaves free lists again, when its neighbours were
pointed at each other and the heads and bitmaps were brought up to date. -/
private theorem removal (valid : FreeLists memory pool lists) (member : block ∈ lists index) {updated : XvPool}
    (newNext : ∀ first, ∀ other ∈ lists first, other ≠ block →
      linkNext after other = if linkNext memory other = block then linkNext memory block else linkNext memory other)
    (newPrev : ∀ first, ∀ other ∈ lists first, other ≠ block →
      linkPrev after other = if linkPrev memory other = block then linkPrev memory block else linkPrev memory other)
    (heads : ∀ first, updated.freelist first =
      (Function.update lists index ((lists index).erase block) first).headD Location.null)
    (tracks : Tracks updated.flbitmap updated.slbitmap fun first =>
      Function.update lists index ((lists index).erase block) first ≠ []) :
    FreeLists after updated (Function.update lists index ((lists index).erase block)) := by
  have kept {first : Nat} {other : Location}
      (listed : other ∈ Function.update lists index ((lists index).erase block) first) : other ∈ lists first := by
    by_cases same : first = index
    · subst first
      rw [Function.update_self] at listed
      exact List.mem_of_mem_erase listed
    · rwa [Function.update_of_ne same] at listed
  refine ⟨heads, ?_, ?_, fun first second => valid.disjoint (kept first) (kept second),
    fun first second => valid.apart (kept first) (kept second), fun listed => valid.real (kept listed), tracks, ?_⟩
  · intro first
    by_cases same : first = index
    · subst first
      rw [Function.update_self]
      exact (valid.linked index).erase (valid.nodup index) (valid.null_outside index) (valid.null_outside index) member
        (newNext index) (newPrev index)
    · rw [Function.update_of_ne same]
      have elsewhere (other : Location) (listed : other ∈ lists first) : other ≠ block := by
        intro equal
        subst other
        exact same (valid.disjoint listed member)
      refine (valid.linked first).congr ?_ ?_
      · intro other listed
        have notNext : linkNext memory other ≠ block := by
          intro equal
          have inside := valid.next_mem listed (by rw [equal]; exact (valid.real member).1)
          exact elsewhere _ inside equal
        rw [newNext first other listed (elsewhere other listed), if_neg notNext]
      · intro other listed
        have notPrev : linkPrev memory other ≠ block := by
          intro equal
          have inside := valid.prev_mem listed (by rw [equal]; exact (valid.real member).1)
          exact elsewhere _ inside equal
        rw [newPrev first other listed (elsewhere other listed), if_neg notPrev]
  · intro first
    by_cases same : first = index
    · subst first
      rw [Function.update_self]
      exact (valid.nodup index).erase block
    · rw [Function.update_of_ne same]
      exact valid.nodup first
  · intro first listed
    apply valid.bounded
    intro empty
    apply listed
    apply List.eq_nil_iff_forall_not_mem.mpr
    intro other inside
    simpa [empty] using kept inside

/-- The links after a block is put before the head of a list. -/
private structure Pushed (memory after : Memory Page) (lists : Nat → List Location) (head block : Location) : Prop where
  nextBlock : linkNext after block = head
  prevBlock : linkPrev after block = Location.null
  nextOther : ∀ {index other}, other ∈ lists index → linkNext after other = linkNext memory other
  prevOther : ∀ {index other}, other ∈ lists index → linkPrev after other = if other = head then block else linkPrev memory other

omit [Arch] in
private theorem mem_push {first : Nat} (listed : other ∈ Function.update lists index (block :: lists index) first) :
    other = block ∧ first = index ∨ other ∈ lists first := by
  by_cases same : first = index
  · subst first
    rw [Function.update_self] at listed
    exact (List.mem_cons.mp listed).imp_left fun equal => ⟨equal, rfl⟩
  · rw [Function.update_of_ne same] at listed
    exact .inr listed

section Insert
variable (valid : FreeLists memory pool lists) (fresh : ∀ index, block ∉ lists index)
  (apart : ∀ index, ∀ other ∈ lists index, Apart block other) (real : block.page ≠ noPage ∧ Storable block)
include valid fresh apart real

/-- Putting one block in front of a list leaves free lists again, when the heads and
bitmaps were brought up to date. -/
private theorem insertion (bounded : index < numFreeLists) {updated : XvPool}
    (pushed : Pushed memory after lists (pool.freelist index) block)
    (heads : updated.freelist = Function.update pool.freelist index block)
    (tracks : Tracks updated.flbitmap updated.slbitmap fun first => Function.update lists index (block :: lists index) first ≠ []) :
    FreeLists after updated (Function.update lists index (block :: lists index)) := by
  refine ⟨?heads, ?linked, ?nodup, ?disjoint, ?apart, ?real, tracks, ?bounded⟩
  case heads =>
    intro first
    rw [heads]
    by_cases same : first = index
    · subst first
      simp
    · rw [Function.update_of_ne same, Function.update_of_ne same]
      exact valid.heads first
  case linked =>
    intro first
    by_cases same : first = index
    · subst first
      rw [Function.update_self]
      refine (valid.linked index).push (valid.nodup index) pushed.prevBlock (pushed.nextBlock.trans (valid.heads index))
        (fun other member => pushed.nextOther member) fun other member => ?_
      rw [pushed.prevOther member, valid.heads index]
      cases listed : lists index with
      | nil => simp [listed] at member
      | cons first rest => simp
    · rw [Function.update_of_ne same]
      refine (valid.linked first).congr (fun other member => pushed.nextOther member) fun other member => ?_
      have notHead : other ≠ pool.freelist index := by
        intro equal
        have present : (pool.freelist index).page ≠ noPage := equal ▸ (valid.real member).1
        exact same (valid.disjoint member (equal ▸ valid.head_mem present))
      rw [pushed.prevOther member, if_neg notHead]
  case nodup =>
    intro first
    by_cases same : first = index
    · subst first
      rw [Function.update_self]
      exact List.nodup_cons.mpr ⟨fresh index, valid.nodup index⟩
    · rw [Function.update_of_ne same]
      exact valid.nodup first
  case disjoint =>
    intro first second other member otherMember
    rcases mem_push member with ⟨rfl, here⟩ | inside <;> rcases mem_push otherMember with ⟨same, there⟩ | otherInside
    · exact here.trans there.symm
    · exact False.elim (fresh second otherInside)
    · exact False.elim (fresh first (same ▸ inside))
    · exact valid.disjoint inside otherInside
  case apart =>
    intro first second left right member otherMember different
    rcases mem_push member with ⟨rfl, _⟩ | inside <;> rcases mem_push otherMember with ⟨rfl, _⟩ | otherInside
    · exact False.elim (different rfl)
    · exact apart second right otherInside
    · exact (apart first left inside).symm
    · exact valid.apart inside otherInside different
  case real =>
    intro first other member
    rcases mem_push member with ⟨rfl, _⟩ | member
    · exact real
    · exact valid.real member
  case bounded =>
    intro first listed
    by_cases same : first = index
    · subst first
      exact bounded
    · rw [Function.update_of_ne same] at listed
      exact valid.bounded listed

private theorem pushed_stores (index : Nat) :
    Pushed memory
      (if (pool.freelist index).page ≠ noPage then
        setLinkPrev (setLinkNext (setLinkPrev memory block Location.null) block (pool.freelist index)) (pool.freelist index) block
      else setLinkNext (setLinkPrev memory block Location.null) block (pool.freelist index)) lists (pool.freelist index) block := by
  have headStorable := valid.head_storable index
  set head := pool.freelist index with headEq
  set second := setLinkNext (setLinkPrev memory block Location.null) block head with secondEq
  have headApart (present : head.page ≠ noPage) : Apart block head := apart index head (valid.head_mem present)
  have different {i : Nat} {other : Location} (member : other ∈ lists i) : other ≠ block := fun same => fresh i (same ▸ member)
  refine ⟨?_, ?_, fun {i other} member => ?_, fun {i other} member => ?_⟩
  · have follows : linkNext second block = head := by
      simp [secondEq, linkNext_after_setLinkNext (.inl rfl) headStorable]
    split
    next present => rw [linkNext_after_setLinkPrev (.inr (headApart present)), follows]
    next => exact follows
  · have before : linkPrev second block = Location.null := by
      simp only [secondEq, linkPrev_after_setLinkNext (.inl rfl)]
      simp [linkPrev_after_setLinkPrev (.inl rfl) storable_null]
    split
    next present =>
      rw [linkPrev_after_setLinkPrev (.inr (headApart present)) real.2, if_neg (different (valid.head_mem present)).symm, before]
    next => exact before
  · have away := (apart i other member).symm
    have before : linkNext second other = linkNext memory other := by
      rw [secondEq, linkNext_after_setLinkNext (.inr away) headStorable, if_neg (different member)]
      exact linkNext_after_setLinkPrev (.inr away)
    split
    next present => rw [linkNext_after_setLinkPrev (valid.separate member (valid.head_mem present)), before]
    next => exact before
  · have away := (apart i other member).symm
    have before : linkPrev second other = linkPrev memory other := by
      rw [secondEq, linkPrev_after_setLinkNext (.inr away), linkPrev_after_setLinkPrev (.inr away) storable_null, if_neg (different member)]
    split
    next present => rw [linkPrev_after_setLinkPrev (valid.separate member (valid.head_mem present)) real.2, before]
    next absent =>
      rw [if_neg, before]
      intro same
      exact absent (same ▸ (valid.real member).1)

end Insert

/-- The step lemma of insertion: the block becomes the head of the list its size asks for. -/
theorem insert {state : XvState} (valid : FreeLists state.memory state.pool lists)
    (fresh : ∀ index, block ∉ lists index) (apart : ∀ index, ∀ other ∈ lists index, Apart block other)
    (real : block.page ≠ noPage ∧ Storable block) (sized : getIndexForInsert (blockSize state.memory block) = index)
    (bounded : index < numFreeLists) :
    FreeLists (insertBlock state block block).memory (insertBlock state block block).pool
        (Function.update lists index (block :: lists index)) ∧
      ChangesOnly (LinksOf (Function.update lists index (block :: lists index))) state.memory
        (insertBlock state block block).memory := by
  have headStorable := valid.head_storable index
  let second := setLinkNext (setLinkPrev state.memory block Location.null) block (state.pool.freelist index)
  have memoryEq : (insertBlock state block block).memory =
      if (state.pool.freelist index).page ≠ noPage then setLinkPrev second (state.pool.freelist index) block else second := by
    have follows : linkNext second block = state.pool.freelist index := by
      simp [second, linkNext_after_setLinkNext (.inl rfl) headStorable]
    have unfolded : (insertBlock state block block).memory =
        if (linkNext second block).page ≠ noPage then setLinkPrev second (linkNext second block) block else second := by
      simp only [second, ← sized]
      rfl
    rw [unfolded, follows]
  constructor
  · have pushed := valid.pushed_stores fresh apart real index
    rw [← show (insertBlock state block block).memory = _ from memoryEq] at pushed
    refine valid.insertion fresh apart real bounded pushed (by simp only [insertBlock, sized]) ?_
    simp only [insertBlock, sized]
    refine (valid.tracks.set index (word_index_lt bounded)).congr ?_
    intro first
    by_cases same : first = index
    · subst first
      simp
    · simp [same]
  · have blockChanges : ChangesOnly (LinksOf (Function.update lists index (block :: lists index))) state.memory second := by
      refine ChangesOnly.mono ((setLinkPrev_changes _ _ _).trans (setLinkNext_changes _ _ _)) ?_
      exact fun page address inside => ⟨index, block, by simp, inside⟩
    rw [memoryEq]
    split
    next present =>
      refine blockChanges.trans ((setLinkPrev_changes _ _ _).mono ?_)
      exact fun page address inside => ⟨index, _, by simpa using .inr (valid.head_mem present), inside⟩
    next => exact blockChanges

/-- The step lemma of taking the head off a list. -/
theorem removeHead {state : XvState} (valid : FreeLists state.memory state.pool lists) {rest : List Location}
    (listed : lists index = block :: rest) :
    FreeLists (removeBlockHead state block index).memory (removeBlockHead state block index).pool
        (Function.update lists index rest) ∧
      ChangesOnly (LinksOf lists) state.memory (removeBlockHead state block index).memory := by
  have member : block ∈ lists index := by simp [listed]
  have erased : (lists index).erase block = rest := by rw [listed, List.erase_cons_head]
  obtain ⟨back, forward, _⟩ : Linked (linkNext state.memory) (linkPrev state.memory) Location.null Location.null (block :: rest) :=
    listed ▸ valid.linked index
  set head := linkNext state.memory block with headEq
  let first := setLinkPrev state.memory block Location.null
  have memoryEq : (removeBlockHead state block index).memory =
      if head.page = noPage then first else setLinkPrev first head Location.null := by
    simp only [removeBlockHead, ← headEq]
    split <;> rfl
  have headListed (present : head.page ≠ noPage) : head ∈ lists index := valid.next_mem member present
  have changes : ChangesOnly (LinksOf lists) state.memory (removeBlockHead state block index).memory := by
    have blockChanges : ChangesOnly (LinksOf lists) state.memory first :=
      (setLinkPrev_changes _ _ _).mono fun page address inside => ⟨index, block, member, inside⟩
    rw [memoryEq]
    split
    next => exact blockChanges
    next present =>
      exact blockChanges.trans ((setLinkPrev_changes _ _ _).mono fun page address inside =>
        ⟨index, head, headListed present, inside⟩)
  refine ⟨?_, changes⟩
  rw [← erased]
  apply valid.removal member
  · intro i other inside different
    have notNext : linkNext state.memory other ≠ block := by
      rw [Ne, valid.next_eq_iff member inside, back]
      exact fun equal => (valid.real inside).1 (equal ▸ rfl)
    have before : linkNext first other = linkNext state.memory other :=
      linkNext_after_setLinkPrev (valid.separate inside member)
    rw [if_neg notNext, memoryEq]
    split
    next => exact before
    next present => rw [linkNext_after_setLinkPrev (valid.separate inside (headListed present)), before]
  · intro i other inside different
    have before : linkPrev first other = linkPrev state.memory other := by
      rw [linkPrev_after_setLinkPrev (valid.separate inside member) storable_null, if_neg different]
    rw [memoryEq, back]
    split
    next absent =>
      have notHead : other ≠ head := fun equal => (valid.real inside).1 (equal ▸ absent)
      rw [before, if_neg (fun equal => notHead ((valid.prev_eq_iff member inside).mp equal))]
    next present =>
      rw [linkPrev_after_setLinkPrev (valid.separate inside (headListed present)) storable_null, before]
      simp only [valid.prev_eq_iff member inside, headEq]
  · intro i
    have updated : (removeBlockHead state block index).pool.freelist = Function.update state.pool.freelist index head := by
      simp only [removeBlockHead, ← headEq]
      split <;> rfl
    rw [updated, erased]
    by_cases same : i = index
    · subst i
      simpa using forward
    · rw [Function.update_of_ne same, Function.update_of_ne same]
      exact valid.heads i
  · have inside := word_index_lt (valid.bounded (List.ne_nil_of_mem member))
    rw [erased]
    by_cases absent : head.page = noPage
    · have empty : rest = [] := by
        cases rest with
        | nil => rfl
        | cons second rest =>
          have secondMember : second ∈ lists index := by simp [listed]
          exact False.elim ((valid.real secondMember).1 (by simpa [headEq] using (congrArg Location.page forward).symm.trans absent))
      simp only [removeBlockHead, ← headEq, if_pos absent]
      refine (valid.tracks.clear index inside).congr ?_
      intro i
      by_cases same : i = index
      · subst i; simp [empty]
      · simp [same]
    · have nonempty : rest ≠ [] := by
        intro empty
        rw [empty] at forward
        exact absent (by simp [forward, noPage])
      simp only [removeBlockHead, ← headEq, if_neg absent]
      refine valid.tracks.congr ?_
      intro i
      by_cases same : i = index
      · subst i; simp [nonempty, listed]
      · simp [same]

/-- The block before `block` in its list leads to the one behind it. -/
def bridge (memory : Memory Page) (block : Location) : Memory Page :=
  if (linkPrev memory block).page ≠ noPage then setLinkNext memory (linkPrev memory block) (linkNext memory block) else memory

theorem linkNext_bridge (valid : FreeLists memory pool lists) (member : block ∈ lists index) {i : Nat} {other : Location}
    (inside : other ∈ lists i) :
    linkNext (bridge memory block) other = if linkNext memory other = block then linkNext memory block else linkNext memory other := by
  simp only [valid.next_eq_iff member inside, bridge]
  split
  next present =>
    exact linkNext_after_setLinkNext (valid.separate inside (valid.prev_mem member present)) (valid.next_storable member)
  next absent =>
    rw [if_neg (fun equal => (valid.real inside).1 (by rw [equal]; simpa using absent))]

theorem linkPrev_bridge (valid : FreeLists memory pool lists) (member : block ∈ lists index) {i : Nat} {other : Location}
    (inside : other ∈ lists i) : linkPrev (bridge memory block) other = linkPrev memory other := by
  unfold bridge
  split
  next present => exact linkPrev_after_setLinkNext (valid.separate inside (valid.prev_mem member present))
  next => rfl

theorem bridge_changes (valid : FreeLists memory pool lists) (member : block ∈ lists index) :
    ChangesOnly (LinksOf lists) memory (bridge memory block) := by
  unfold bridge
  split
  next present =>
    exact (setLinkNext_changes _ _ _).mono fun page address inside => ⟨index, _, valid.prev_mem member present, inside⟩
  next => exact ChangesOnly.refl _ _

/-- A block that is not the first of its list leaves it, and the list keeps its head. -/
theorem removeInner {state : XvState} (valid : FreeLists state.memory state.pool lists) (member : block ∈ lists index)
    (inner : state.pool.freelist index ≠ block) :
    FreeLists (removeBlock state block block index).memory (removeBlock state block block index).pool
        (Function.update lists index ((lists index).erase block)) ∧
      ChangesOnly (LinksOf lists) state.memory (removeBlock state block block index).memory := by
  set previous := linkPrev state.memory block with previousEq
  set following := linkNext state.memory block with followingEq
  set first := bridge state.memory block with firstEq
  have followingListed (present : following.page ≠ noPage) : following ∈ lists index := valid.next_mem member present
  have follows : linkNext first block = following := by
    rw [linkNext_bridge valid member member]
    split <;> rfl
  have memoryEq : (removeBlock state block block index).memory =
      if following.page ≠ noPage then setLinkPrev first following previous else first := by
    have unfolded : (removeBlock state block block index).memory =
        if (linkNext first block).page ≠ noPage then setLinkPrev first (linkNext first block) (linkPrev first block) else first := by
      simp only [removeBlock, if_neg inner]
      rfl
    rw [unfolded, follows, linkPrev_bridge valid member member]
  have poolEq : (removeBlock state block block index).pool = state.pool := by
    simp only [removeBlock, if_neg inner]
    rfl
  have changes : ChangesOnly (LinksOf lists) state.memory (removeBlock state block block index).memory := by
    rw [memoryEq]
    split
    next present =>
      exact (bridge_changes valid member).trans ((setLinkPrev_changes _ _ _).mono fun page address inside =>
        ⟨index, following, followingListed present, inside⟩)
    next => exact bridge_changes valid member
  -- the list keeps its head, so it stays nonempty
  have keptHead : ((lists index).erase block).headD Location.null = (lists index).headD Location.null ∧
      (lists index).erase block ≠ [] := by
    have head := valid.heads index
    cases listed : lists index with
    | nil => simp [listed] at member
    | cons front rest =>
      have different : front ≠ block := fun same => inner (by simp [head, listed, same])
      rw [List.erase_cons_tail (by simpa using different)]
      simp
  refine ⟨valid.removal member ?_ ?_ ?_ ?_, changes⟩
  · intro i other inside different
    rw [memoryEq]
    split
    next present => rw [linkNext_after_setLinkPrev (valid.separate inside (followingListed present)), linkNext_bridge valid member inside]
    next => exact linkNext_bridge valid member inside
  · intro i other inside different
    simp only [valid.prev_eq_iff member inside, ← followingEq]
    rw [memoryEq]
    split
    next present =>
      rw [linkPrev_after_setLinkPrev (valid.separate inside (followingListed present)) (valid.prev_storable member),
        linkPrev_bridge valid member inside]
    next absent =>
      rw [linkPrev_bridge valid member inside, if_neg (fun equal => (valid.real inside).1 (by rw [equal]; simpa using absent))]
  · intro i
    rw [poolEq]
    by_cases same : i = index
    · subst i
      rw [Function.update_self, keptHead.1]
      exact valid.heads index
    · rw [Function.update_of_ne same]
      exact valid.heads i
  · rw [poolEq]
    refine valid.tracks.congr ?_
    intro i
    by_cases same : i = index
    · subst i
      simp [keptHead.2, List.ne_nil_of_mem member]
    · simp [same]

/-- The step lemma of removal: the block leaves its list, wherever it stood. -/
theorem remove {state : XvState} (valid : FreeLists state.memory state.pool lists) (member : block ∈ lists index) :
    FreeLists (removeBlock state block block index).memory (removeBlock state block block index).pool
        (Function.update lists index ((lists index).erase block)) ∧
      ChangesOnly (LinksOf lists) state.memory (removeBlock state block block index).memory := by
  by_cases isHead : state.pool.freelist index = block
  · obtain ⟨rest, listed⟩ : ∃ rest, lists index = block :: rest := by
      have head := valid.heads index
      cases listed : lists index with
      | nil => simp [listed] at member
      | cons first rest => exact ⟨rest, by simp [← isHead, head, listed]⟩
    have removed := FreeLists.removeHead valid listed
    simp only [removeBlock, if_pos isHead]
    rw [listed, List.erase_cons_head]
    exact removed
  · exact valid.removeInner member isHead

end FreeLists
end Compcache.Xvmalloc
