import Compcache.Library.NestedMap
import Compcache.Proofs.ZcachePointers

/-! What a pool holds, as shelves: for each inode number the pages of its node, each
a mark or an object. The objects lie in the memory of the pool, one by one. -/

namespace Compcache.Zcache
open Library Library.PagedMemory Xvmalloc

/-- What is in a slot of a page tree: a mark for a zero-filled page, or an object and
its size. -/
inductive Stock
  | mark
  | object (location : Location) (size : Nat)
  deriving DecidableEq

/-- The pages of a pool by the inode number and the index. -/
abbrev Shelves := NestedMap Stock

def Stock.storage : Stock → Option Storage
  | mark => none
  | object location size => some (.object location size)

def Stock.location : Stock → Option Location
  | mark => none
  | object location _ => some location

def Holds (shelves : Shelves) (storage : Storage) : Prop :=
  ∃ inodeNo index stock, NestedMap.lookup shelves inodeNo index = some stock ∧ stock.storage = some storage

section Stores
variable [Arch]

def Stock.item (index : Nat) (stock : Stock) : Item := .storing index stock.location

def Stock.counts : Stock → Stat → Int
  | mark, .pagesZero => 1
  | object _ _, .pagesStored => 1
  | object _ size, .comprSize => size - objheaderSize
  | _, _ => 0

/-- An object carries the index of its page in front, at a place a pointer can tell. -/
def Stock.Sound (memory : Memory Page) (index : Nat) : Stock → Prop
  | mark => True
  | object location size => objheaderSize ≤ size ∧ memory.load location.page location.offset wordBytes = index ∧
      location.page < 2 ^ (bitsPerLong - pageShift)

/-- The objects of the pool are those of the pages and the one in hand, each in one place. -/
structure Stores (others : Finset Page) (shelves : Shelves) (hand : Option Storage) (xv : XvState) : Prop where
  backed : Backed others xv fun storage => Holds shelves storage ∨ hand = some storage
  sound : ∀ {inodeNo index stock}, NestedMap.lookup shelves inodeNo index = some stock → stock.Sound xv.memory index
  single : ∀ {one first other second stock another storage}, NestedMap.lookup shelves one first = some stock →
    NestedMap.lookup shelves other second = some another →
    stock.storage = some storage → another.storage = some storage → one = other ∧ first = second
  apart : ∀ {storage}, hand = some storage → ¬ Holds shelves storage

variable {others : Finset Page} {shelves after : Shelves} {hand : Option Storage} {xv : XvState} {inodeNo index : Nat}
    {stock : Stock} {storage : Storage}
  {location : Location} {size : Nat}

omit [Arch] in
theorem Holds.of_slot (here : NestedMap.lookup shelves inodeNo index = some stock) (lies : stock.storage = some storage) :
    Holds shelves storage :=
  ⟨inodeNo, index, stock, here, lies⟩

omit [Arch] in
theorem Holds.object (holds : Holds shelves storage) : ∃ location size, storage = .object location size := by
  obtain ⟨_, _, stock, _, lies⟩ := holds
  cases stock with
  | mark => cases lies
  | object location size => exact ⟨location, size, (Option.some.inj lies).symm⟩

theorem Stock.Sound.congr {memory changed : Memory Page} (sound : stock.Sound memory index)
    (same : ∀ storage, stock.storage = some storage → storage.bytes changed = storage.bytes memory) : stock.Sound changed index := by
  cases stock with
  | mark => trivial
  | object location size =>
    obtain ⟨large, header, low⟩ := sound
    refine ⟨large, ?_, low⟩
    rw [← header]
    exact PageBytes.load_of_read (same _ rfl) large

theorem Stores.create (memory : Memory Page) : Stores others .empty none ⟨⟨memory, others⟩, xvCreatePool⟩ where
  backed := by
    refine (Backed.create memory).congr fun storage => iff_of_false ?_ id
    rintro (⟨_, _, _, here, _⟩ | held)
    · cases here
    · cases held
  sound := by
    intro inodeNo index stock here
    cases here
  single := by
    intro _ _ _ _ _ _ _ here
    cases here
  apart := by
    intro _ held
    cases held

theorem Stores.congr (stores : Stores others shelves hand xv)
    (same : ∀ inodeNo index, NestedMap.lookup after inodeNo index = NestedMap.lookup shelves inodeNo index) :
    Stores others after hand xv := by
  have holds (storage : Storage) : Holds after storage ↔ Holds shelves storage := by simp only [Holds, same]
  refine ⟨stores.backed.congr fun storage => or_congr_left (holds storage), ?_, ?_, fun held there => stores.apart held
    ((holds _).mp there)⟩
  · intro inodeNo index stock here
    exact stores.sound ((same _ _).symm.trans here)
  · intro one first other second stock another storage here there
    exact stores.single ((same _ _).symm.trans here) ((same _ _).symm.trans there)

theorem Stores.take (stores : Stores others shelves none xv)
    (taken : ∀ other second, NestedMap.lookup after other second = if other = inodeNo ∧
      second = index then none else NestedMap.lookup shelves other second) :
    Stores others after ((NestedMap.lookup shelves inodeNo index).bind Stock.storage) xv := by
  have old {other second : Nat} {stock : Stock} (here : NestedMap.lookup after other second = some stock) :
      ¬ (other = inodeNo ∧ second = index) ∧ NestedMap.lookup shelves other second = some stock := by
    rw [taken] at here
    split at here
    next => cases here
    next elsewhere => exact ⟨elsewhere, here⟩
  refine ⟨stores.backed.congr fun storage => ?_, fun here => stores.sound (old here).2, fun here there => stores.single
    (old here).2 (old there).2, ?_⟩
  · constructor
    · rintro (⟨other, second, stock, here, lies⟩ | held)
      · exact .inl ⟨other, second, stock, (old here).2, lies⟩
      · obtain ⟨stock, here, lies⟩ := Option.bind_eq_some_iff.mp held
        exact .inl (.of_slot here lies)
    · rintro (⟨other, second, stock, here, lies⟩ | held)
      · rcases Classical.em (other = inodeNo ∧ second = index) with ⟨rfl, rfl⟩ | elsewhere
        · rw [here]
          exact .inr lies
        · refine .inl ⟨other, second, stock, ?_, lies⟩
          rw [taken, if_neg elsewhere]
          exact here
      · cases held
  · rintro storage held ⟨other, second, stock, here, lies⟩
    obtain ⟨first, there, same⟩ := Option.bind_eq_some_iff.mp held
    exact (old here).1 (stores.single (old here).2 there lies same)

theorem Stores.place (stores : Stores others shelves hand xv) (vacant : NestedMap.lookup shelves inodeNo index = none)
    (placed : ∀ other second, NestedMap.lookup after other second = if other = inodeNo ∧
      second = index then some stock else NestedMap.lookup shelves other second)
    (lies : stock.storage = hand) (sound : stock.Sound xv.memory index) : Stores others after none xv := by
  have shape {other second : Nat} {found : Stock} (here : NestedMap.lookup after other second = some found) :
      (other = inodeNo ∧ second = index) ∧ found = stock ∨ NestedMap.lookup shelves other second = some found := by
    rw [placed] at here
    split at here
    next same => exact .inl ⟨same, (Option.some.inj here).symm⟩
    next => exact .inr here
  refine ⟨stores.backed.congr fun storage => ?_, ?_, ?_, nofun⟩
  · constructor
    · rintro (⟨other, second, found, here, there⟩ | held)
      · rcases shape here with ⟨_, rfl⟩ | old
        · exact .inr (lies.symm.trans there)
        · exact .inl ⟨other, second, found, old, there⟩
      · cases held
    · rintro (⟨other, second, found, here, there⟩ | held)
      · refine .inl ⟨other, second, found, ?_, there⟩
        rw [placed, if_neg, here]
        rintro ⟨rfl, rfl⟩
        rw [vacant] at here
        cases here
      · refine .inl ⟨inodeNo, index, stock, ?_, lies.trans held⟩
        rw [placed, if_pos ⟨rfl, rfl⟩]
  · intro other second found here
    rcases shape here with ⟨⟨_, rfl⟩, rfl⟩ | old
    · exact sound
    · exact stores.sound old
  · intro one first other second found another storage here there one_ two
    rcases shape here with ⟨⟨rfl, rfl⟩, rfl⟩ | hereOld <;> rcases shape there with ⟨⟨rfl, rfl⟩, rfl⟩ | thereOld
    · exact ⟨rfl, rfl⟩
    · exact absurd (.of_slot thereOld two) (stores.apart (lies.symm.trans one_))
    · exact absurd (.of_slot hereOld one_) (stores.apart (lies.symm.trans two))
    · exact stores.single hereOld thereOld one_ two

theorem Stores.release (stores : Stores others shelves (some (.object location size)) xv) :
    ∃ freed, xvFree xv location.page location.offset = some freed ∧ Stores others shelves none freed ∧
      ∀ storage, Holds shelves storage → storage.bytes freed.memory = storage.bytes xv.memory := by
  obtain ⟨freed, released, backed, bytes⟩ := stores.backed.releaseObject (.inr rfl)
  have kept (storage : Storage) (holds : Holds shelves storage) : storage.bytes freed.memory = storage.bytes xv.memory := by
    refine bytes storage (.inl holds) ?_
    rintro rfl
    exact stores.apart rfl holds
  refine ⟨freed, released, ⟨backed.congr fun storage => ?_, ?_, stores.single, nofun⟩, kept⟩
  · constructor
    · rintro (holds | held)
      · refine ⟨.inl holds, ?_⟩
        rintro rfl
        exact stores.apart rfl holds
      · cases held
    · rintro ⟨holds | held, different⟩
      · exact .inl holds
      · exact absurd (Option.some.inj held).symm different
  · exact fun here => (stores.sound here).congr fun storage lies => kept storage (.of_slot here lies)

theorem Stores.obtain (stores : Stores others shelves none xv) (small : size ≤ 4088) (allocator : NowaitAllocator) :
    xvMalloc xv size allocator.pages = ⟨-enomem, Location.null, xv⟩ ∨
      (xvMalloc xv size allocator.pages).ret = 0 ∧
        (xvMalloc xv size allocator.pages).location.page < 2 ^ (bitsPerLong - pageShift) ∧
        Stores others shelves (some (.object (xvMalloc xv size allocator.pages).location size)) (xvMalloc xv size allocator.pages).state ∧
        ∀ storage, Holds shelves storage → storage.bytes (xvMalloc xv size allocator.pages).state.memory = storage.bytes xv.memory := by
  rcases stores.backed.takeObject small allocator.pages with refused | ⟨met, fresh, backed, bytes⟩
  · exact .inl refused
  have kept (storage : Storage) (holds : Holds shelves storage) := bytes storage (.inl holds)
  refine .inr ⟨met, ?_, ⟨backed.congr fun storage => ?_, fun here => ?_, stores.single, ?_⟩, kept⟩
  · rcases stores.backed.takeObject_page small met with ⟨storage, holds | held, samePage⟩ | offered
    · obtain ⟨inodeNo, index, stock, here, lies⟩ := holds
      have sound := stores.sound here
      cases stock with
      | mark => cases lies
      | object location size =>
        rw [← samePage, ← Option.some.inj lies]
        exact sound.2.2
    · cases held
    · obtain ⟨⟨page, kernel⟩, taken, same⟩ := Option.map_eq_some_iff.mp offered
      obtain ⟨fresh, picked, pair⟩ := Option.map_eq_some_iff.mp taken
      have word := allocator.mapped picked
      rw [← same, ← congrArg Prod.fst pair]
      refine Nat.lt_of_mul_lt_mul_right (a := pageSize) ?_
      rw [show pageSize = 2 ^ pageShift from rfl, ← pow_add, Nat.sub_add_cancel (shift_inside (by decide))]
      exact word
  · constructor
    · rintro (holds | held)
      · exact .inl (.inl holds)
      · exact .inr (Option.some.inj held).symm
    · rintro ((holds | held) | rfl)
      · exact .inl holds
      · cases held
      · exact .inr rfl
  · exact (stores.sound here).congr fun storage lies => kept storage (.of_slot here lies)
  · rintro storage held holds
    obtain rfl := Option.some.inj held
    exact fresh size (.inl holds)

theorem Stores.change (stores : Stores others shelves (some storage) xv) {memory : Memory Page}
    (changes : ChangesOnly (fun page address => page = storage.location.page ∧ storage.location.offset ≤ address ∧
      address < storage.location.offset + storage.size) xv.memory memory) :
    Stores others shelves (some storage) (xv.withMemory memory) ∧ ∀ other, Holds shelves other →
      other.bytes memory = other.bytes xv.memory := by
  obtain ⟨backed, bytes⟩ := stores.backed.change (.inr rfl) changes
  have kept (other : Storage) (holds : Holds shelves other) : other.bytes memory = other.bytes xv.memory := by
    refine bytes other (.inl holds) ?_
    rintro rfl
    exact stores.apart rfl holds
  exact ⟨⟨backed, fun here => (stores.sound here).congr fun other lies => kept other (.of_slot here lies), stores.single, stores.apart⟩,
    kept⟩

end Stores
end Compcache.Zcache
