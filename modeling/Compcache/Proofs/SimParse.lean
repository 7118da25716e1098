import Mathlib.Algebra.Order.Group.Multiset
import Mathlib.Data.List.TakeWhile
import Mathlib.Data.Nat.Digits.Lemmas
import Compcache.Library.Runs
import Compcache.Randgen
import Compcache.SimParse

/-! The replay of a profile, and what the free events of a random profile release. -/

namespace Compcache.SimParse
open Library.Runs Randgen

section Renumbering
variable {α : Type*} {live : List α} {index position : Nat}

/-- The last object takes the place of the one at the index. -/
def renumber (live : List α) (index : Nat) : List α := match live.getLast? with
  | none => []
  | some last => (live.set index last).dropLast

theorem renumber_eq (inside : index < live.length) : renumber live index = (live.set index (live[live.length - 1])).dropLast := by
  have last : live.getLast? = some live[live.length - 1] := by rw [List.getLast?_eq_getElem?, List.getElem?_eq_getElem]
  rw [renumber, last]

theorem renumber_length (inside : index < live.length) : (renumber live index).length = live.length - 1 := by
  rw [renumber_eq inside, List.length_dropLast, List.length_set]

theorem renumber_getElem? (inside : index < live.length) : (renumber live index)[position]? =
    if position = live.length - 1 then none else if position = index then live[live.length - 1]? else live[position]? := by
  rw [renumber_eq inside, List.getElem?_dropLast, List.length_set, List.getElem?_set,
    List.getElem?_eq_getElem (show live.length - 1 < live.length by omega)]
  rcases Nat.lt_trichotomy position (live.length - 1) with low | rfl | high
  · rw [if_pos low, if_neg (Nat.ne_of_lt low)]
    rcases eq_or_ne index position with rfl | other
    · rw [if_pos rfl, if_pos inside, if_pos rfl]
    · rw [if_neg other, if_neg other.symm]
  · rw [if_neg (Nat.lt_irrefl _), if_pos rfl]
  · have outside : live.length ≤ position := by omega
    rw [if_neg (by omega), if_neg (by omega), if_neg (by omega), List.getElem?_eq_none outside]

theorem renumber_perm (inside : index < live.length) : live.Perm (live[index] :: renumber live index) := by
  rw [renumber_eq inside]
  obtain ⟨front, last, rfl⟩ : ∃ front last, live = front ++ [last] := by
    rcases List.eq_nil_or_concat live with rfl | ⟨front, last, same⟩
    · cases inside
    · exact ⟨front, last, by rw [same, List.concat_eq_append]⟩
  have final : (front ++ [last])[(front ++ [last]).length - 1] = last := by simp
  rw [final]
  rcases Nat.lt_or_ge index front.length with early | late
  · rw [List.getElem_append_left early, List.set_append_left _ _ early, List.dropLast_concat]
    have moved : (front ++ [last]).Perm (last :: front) := List.perm_append_comm
    have kept := (List.getElem_cons_eraseIdx_perm early).symm
    have changed := (List.set_perm_cons_eraseIdx early last).symm
    exact moved.trans ((kept.cons last).trans ((List.Perm.swap _ _ _).trans (changed.cons _)))
  · obtain rfl : index = front.length := by simp at inside; omega
    rw [List.getElem_append_right (Nat.le_refl _), List.set_append_right _ _ (Nat.le_refl _)]
    simp only [Nat.sub_self, List.getElem_cons_zero, List.set_cons_zero, List.dropLast_concat]
    exact List.perm_append_comm

theorem renumber_map {β : Type*} (f : α → β) : renumber (live.map f) index = (renumber live index).map f := by
  rw [renumber, renumber, List.getLast?_map]
  cases live.getLast? with
  | none => rfl
  | some last => rw [Option.map_some, List.map_dropLast, List.map_set]

end Renumbering

section Replays
variable [Arch]

/-- The event on a line, if it is well formed: a letter, blanks, a number of 32 bits, and
a newline, or the end of the file before the buffer is full. -/
def wellFormed (line : List UInt8) : Option Event :=
  match line with
  | [] => none
  | first :: rest =>
    let figures := rest.dropWhile (· = 32)
    let value := decimalValue (figures.takeWhile isDigit)
    let left := figures.dropWhile isDigit
    if rest.head? = some 32 ∧ figures.takeWhile isDigit ≠ [] ∧ value < 2 ^ 32 ∧ (left = [newline] ∨ left = [] ∧ line.length < 63) then
      if first = mallocChar then some (.malloc (UInt32.ofNat value)) else if first = freeChar then some (.free value) else none
    else none

/-- What a call of `fgets` returns, and whether a line begins with it. -/
structure Piece where
  starts : Bool
  bytes : List UInt8

/-- A line longer than the buffer is no event, and neither is what is left of it. -/
def Piece.event (piece : Piece) : Option Event := if piece.starts then wellFormed piece.bytes else none

def piecesFrom (starts : Bool) : List (List UInt8) → List Piece
  | [] => []
  | bytes :: rest => ⟨starts, bytes⟩ :: piecesFrom (bytes.getLast? = some newline) rest

/-- What a replay is for: the locations of the live allocations, by index, and the calls. -/
structure Profile where
  live : List UInt64
  mallocs : Nat
  log : List Callback

/-- Malformed lines are ignored, and so is freeing what is not live, and a malloc when
the table is full. -/
def Profile.step (handle : Handle) (profile : Profile) : Option Event → Profile
  | none => profile
  | some (.malloc size) =>
    if profile.live.length = maxTableEntries then profile
    else
      let result := handle.results profile.mallocs
      ⟨if result = 0 then profile.live else profile.live ++ [result], profile.mallocs + 1,
        profile.log ++ [.simMalloc size (if handle.simMalloc then none else some profile.live.length) result]⟩
  | some (.free index) => match profile.live[index]? with
    | none => profile
    | some location => ⟨renumber profile.live index, profile.mallocs, profile.log ++ [.simFree location]⟩

def profileOf (handle : Handle) (lines : List (List UInt8)) : Profile :=
  (piecesFrom true lines).foldl (fun profile piece => profile.step handle piece.event) ⟨[], 0, []⟩

/-- One turn of the loop of `ParseFile`, which does not know where lines begin. -/
def parsePiece (handle : Handle) (replay : Replay) (piece : Piece) : Option Replay := parseLine handle replay piece.bytes

/-- What a replay copes with: an event whose index, if any, is live or comes when
nothing is, or something malformed that is taken for an event that does nothing. -/
def Replay.Apt (replay : Replay) (piece : Piece) : Prop :=
  match piece.event with
  | some (.malloc _) => True
  | some (.free index) => replay.currAllocCount = 0 ∨ index < replay.currAllocCount
  | none =>
    if (scanLine replay.event replay.value piece.bytes).1 = mallocChar then replay.currAllocCount = maxTableEntries
    else replay.currAllocCount = 0

/-- The live allocations after a call; `none` when a call frees what is not live. -/
def account (live : Multiset UInt64) : Callback → Option (Multiset UInt64)
  | .simMalloc _ _ result => some (if result = 0 then live else result ::ₘ live)
  | .simFree location => if location ∈ live then some (live.erase location) else none
  | .simEnd => none

/-- The replay does what the profile says. -/
structure Follows (replay : Replay) (profile : Profile) : Prop where
  table : ∀ index, replay.locTable index = (profile.live[index]?).getD 0
  count : replay.currAllocCount = profile.live.length
  nonzero : ∀ location ∈ profile.live, location ≠ 0
  room : profile.live.length ≤ maxTableEntries
  mallocs : replay.mallocs = profile.mallocs
  log : replay.log = profile.log
  accounted : profile.log.foldlM account 0 = some (profile.live : Multiset UInt64)

section Steps
variable {handle : Handle} {replay : Replay} {profile : Profile} {piece : Piece} {line : List UInt8} {event : UInt8} {value : UInt32}
    {size : UInt32} {index : Nat}

omit [Arch] in
theorem follows_start : Follows (Replay.start event value) ⟨[], 0, []⟩ :=
  ⟨fun _ => rfl, rfl, nofun, Nat.zero_le _, rfl, rfl, rfl⟩

omit [Arch] in
theorem Follows.scan (follows : Follows replay profile) : Follows { replay with event, value } profile :=
  ⟨follows.table, follows.count, follows.nonzero, follows.room, follows.mallocs, follows.log, follows.accounted⟩

omit [Arch] in
theorem digit_bounds {digit : UInt8} (figure : isDigit digit = true) : 48 ≤ digit.toNat ∧ digit.toNat ≤ 57 := by
  simpa [isDigit, UInt8.le_iff_toNat_le] using figure

omit [Arch] in
theorem digit_solid {digit : UInt8} (figure : isDigit digit = true) : isSpace digit = false := by
  have bounds := digit_bounds figure
  simp only [isSpace, decide_eq_false_iff_not, not_or, not_and, UInt8.le_iff_toNat_le]
  refine ⟨?_, fun _ => ?_⟩
  · rintro rfl
    simp at bounds
  · simp
    omega

theorem scanUnsigned_digits {blanks digits left : List UInt8} (spaces : ∀ blank ∈ blanks, blank = 32)
    (figures : ∀ digit ∈ digits, isDigit digit = true)
    (nonempty : digits ≠ []) (ended : left = [newline] ∨ left = []) (word : decimalValue digits < 2 ^ 32) :
    scanUnsigned (blanks ++ (digits ++ left)) = some (UInt32.ofNat (decimalValue digits)) := by
  obtain ⟨first, others, same⟩ := List.exists_cons_of_ne_nil nonempty
  have figure := figures first (same ▸ List.mem_cons_self)
  have bounds := digit_bounds figure
  have dropped : (blanks ++ (digits ++ left)).dropWhile isSpace = digits ++ left := by
    rw [List.dropWhile_append_of_pos fun blank member => by rw [spaces blank member]; decide, same, List.cons_append,
      List.dropWhile_cons_of_neg (by simp [digit_solid figure])]
  have unsigned (sign : UInt8) (low : sign.toNat < 48) : (digits ++ left).head? ≠ some sign := by
    rw [same]
    rintro signed
    cases signed
    omega
  have taken : (digits ++ left).takeWhile isDigit = digits := by
    rw [List.takeWhile_append_of_pos figures]
    rcases ended with rfl | rfl <;> simp [isDigit, newline]
  have fits : ¬ 2 ^ bitsPerLong ≤ decimalValue digits := by
    rcases Arch.bitsPerLong_cases with bits | bits <;> rw [bits] <;> omega
  have minus := unsigned 45 (by decide)
  have plus := unsigned 43 (by decide)
  simp only [scanUnsigned, dropped, minus, plus, or_self, if_false, taken, nonempty, fits]

theorem wellFormed_scanned {found : Event} (formed : wellFormed line = some found) :
    ∃ first scanned, (∀ event value, scanLine event value line = (first, scanned)) ∧
      (if first = mallocChar then some (Event.malloc scanned) else if first = freeChar then some (.free scanned.toNat) else none) =
        some found := by
  unfold wellFormed at formed
  split at formed
  next => cases formed
  next first rest =>
    dsimp only at formed
    split at formed
    next conditions =>
      obtain ⟨_, nonempty, word, ended⟩ := conditions
      have spaces : ∀ blank ∈ rest.takeWhile (· = 32), blank = 32 := fun blank member => by simpa using List.mem_takeWhile_imp member
      have figures : ∀ digit ∈ (rest.dropWhile (· = 32)).takeWhile isDigit, isDigit digit = true := fun digit => List.mem_takeWhile_imp
      have ended : (rest.dropWhile (· = 32)).dropWhile isDigit = [newline] ∨ (rest.dropWhile (· = 32)).dropWhile isDigit = [] :=
        ended.imp_right And.left
      have parts : rest.takeWhile (· = 32) ++ ((rest.dropWhile (· = 32)).takeWhile isDigit ++ (rest.dropWhile (· = 32)).dropWhile isDigit) =
          rest := by
        rw [List.takeWhile_append_dropWhile, List.takeWhile_append_dropWhile]
      have number := scanUnsigned_digits spaces figures nonempty ended word
      rw [parts] at number
      have letter : first ≠ 0 := by
        rintro rfl
        cases formed
      have whole : (first :: rest).takeWhile (· ≠ 0) = first :: rest := by
        refine List.takeWhile_eq_self_iff.mpr fun byte member => decide_eq_true ?_
        rcases List.mem_cons.mp member with rfl | inside
        · exact letter
        rw [← parts] at inside
        rcases List.mem_append.mp inside with blank | inside
        · rw [spaces byte blank]
          decide
        rcases List.mem_append.mp inside with digit | behind
        · rintro rfl
          have bounds := digit_bounds (figures 0 digit)
          simp at bounds
        · rcases ended with same | same <;> rw [same] at behind
          · rw [List.mem_singleton.mp behind]
            decide
          · cases behind
      refine ⟨first, UInt32.ofNat (decimalValue ((rest.dropWhile (· = 32)).takeWhile isDigit)), fun event value => ?_, ?_⟩
      · rw [scanLine, whole]
        exact congrArg (fun scan : Option UInt32 => (first, scan.getD value)) number
      · rwa [UInt32.toNat_ofNat', Nat.mod_eq_of_lt word]
    next => cases formed

theorem scanLine_malloc (formed : wellFormed line = some (.malloc size)) : scanLine event value line = (mallocChar, size) := by
  obtain ⟨first, scanned, taken, kind⟩ := wellFormed_scanned formed
  rw [taken]
  split at kind
  next char =>
    cases kind
    rw [char]
  next => split at kind <;> cases kind

theorem scanLine_free (event : UInt8) (value : UInt32) (formed : wellFormed line = some (.free index)) :
    ∃ scanned, scanLine event value line = (freeChar, scanned) ∧ scanned.toNat = index := by
  obtain ⟨first, scanned, taken, kind⟩ := wellFormed_scanned formed
  rw [taken]
  split at kind
  next => cases kind
  next =>
    split at kind
    next char =>
      cases kind
      exact ⟨scanned, by rw [char], rfl⟩
    next => cases kind

theorem parseLine_malloc (formed : wellFormed line = some (.malloc size)) :
    parseLine handle replay line = some (eventMalloc handle { replay with event := mallocChar, value := size } size) := by
  rw [parseLine, scanLine_malloc formed]
  exact if_pos rfl

theorem parseLine_free (formed : wellFormed line = some (.free index)) :
    ∃ value, parseLine handle replay line = eventFree { replay with event := freeChar, value } index := by
  obtain ⟨scanned, found, rfl⟩ := scanLine_free replay.event replay.value formed
  refine ⟨scanned, ?_⟩
  rw [parseLine, found]
  exact if_neg (by decide)

omit [Arch] in
theorem Follows.malloc (follows : Follows replay profile) (size : UInt32) :
    Follows (eventMalloc handle replay size) (profile.step handle (some (.malloc size))) := by
  simp only [eventMalloc, Profile.step, follows.count]
  split
  next => exact follows
  next room =>
    have least := Nat.lt_of_le_of_ne follows.room room
    rw [follows.mallocs]
    generalize handle.results profile.mallocs = result
    have accounted :
      (profile.log ++ [Callback.simMalloc size (if handle.simMalloc then none else some profile.live.length) result]).foldlM account 0 =
        some (if result = 0 then (profile.live : Multiset UInt64) else result ::ₘ profile.live) := by
      rw [List.foldlM_append, follows.accounted]
      rfl
    rcases eq_or_ne result 0 with rfl | real
    · have same : Function.update replay.locTable profile.live.length 0 = replay.locTable := by
        refine Function.update_eq_self_iff.mpr ?_
        rw [follows.table, List.getElem?_eq_none (Nat.le_refl _)]
        rfl
      simp only [same, ne_eq, not_true_eq_false, if_false, if_true] at accounted ⊢
      exact ⟨follows.table, rfl, follows.nonzero, follows.room, rfl, congrArg (· ++ _) follows.log, accounted⟩
    · simp only [real, if_false, ne_eq, not_false_eq_true, if_true] at accounted ⊢
      refine ⟨fun position => ?_, ?_, fun location member => ?_, ?_, rfl, congrArg (· ++ _) follows.log, ?_⟩
      · dsimp only
        rcases eq_or_ne position profile.live.length with rfl | other
        · rw [Function.update_self, List.getElem?_concat_length]
          rfl
        · rw [Function.update_of_ne other, follows.table, List.getElem?_append]
          split
          next => rfl
          next beyond => rw [List.getElem?_eq_none (by omega), List.getElem?_eq_none (by simp; omega)]
      · dsimp only
        rw [List.length_append]
        rfl
      · rcases List.mem_append.mp member with old | new
        · exact follows.nonzero location old
        · rwa [List.mem_singleton.mp new]
      · rw [List.length_append]
        exact least
      · have last : (result :: profile.live).Perm (profile.live ++ [result]) := (List.perm_append_singleton result profile.live).symm
        rw [accounted]
        exact congrArg some (Multiset.coe_eq_coe.mpr last)

omit [Arch] in
theorem Follows.free (follows : Follows replay profile) (inside : index < profile.live.length) :
    ∃ after, eventFree replay index = some after ∧ Follows after (profile.step handle (some (.free index))) := by
  have positive : replay.currAllocCount ≠ 0 := by rw [follows.count]; omega
  have reachable : ¬ locTableEntries ≤ index := by
    have room := follows.room
    have size : locTableEntries = maxTableEntries + 512 := by decide
    omega
  have here : replay.locTable index = profile.live[index] := by rw [follows.table, List.getElem?_eq_getElem inside]; rfl
  refine ⟨_, (if_neg positive).trans (if_neg reachable), ?_⟩
  simp only [Profile.step, List.getElem?_eq_getElem inside]
  refine ⟨fun position => ?_, ?_, fun location member => ?_, ?_, follows.mallocs, ?_, ?_⟩
  · dsimp only
    rw [renumber_getElem? inside, follows.count]
    rcases eq_or_ne position (profile.live.length - 1) with rfl | other
    · rw [Function.update_self, if_pos rfl]
      rfl
    · rw [Function.update_of_ne other, if_neg other]
      rcases eq_or_ne position index with rfl | different
      · rw [Function.update_self, if_pos rfl, follows.table]
      · rw [Function.update_of_ne different, if_neg different, follows.table]
  · rw [renumber_length inside]
    exact congrArg (· - 1) follows.count
  · exact follows.nonzero location ((renumber_perm inside).mem_iff.mpr (List.mem_cons_of_mem _ member))
  · rw [renumber_length inside]
    exact Nat.le_trans (Nat.sub_le _ _) follows.room
  · rw [follows.log, here]
  · have live : (profile.live : Multiset UInt64) = profile.live[index] ::ₘ (renumber profile.live index : Multiset UInt64) :=
      Multiset.coe_eq_coe.mpr (renumber_perm inside)
    rw [List.foldlM_append, follows.accounted]
    show account (profile.live : Multiset UInt64) (.simFree profile.live[index]) >>= _ = _
    rw [account, live, if_pos (Multiset.mem_cons_self _ _), Multiset.erase_cons_head]
    rfl

omit [Arch] in
theorem Piece.formed {found : Event} (known : piece.event = some found) : wellFormed piece.bytes = some found := by
  unfold Piece.event at known
  split at known
  next => exact known
  next => cases known

/-- The step lemma. -/
theorem Follows.step (handle : Handle) (follows : Follows replay profile) (apt : replay.Apt piece) :
    ∃ after, parsePiece handle replay piece = some after ∧ Follows after (profile.step handle piece.event) := by
  unfold Replay.Apt at apt
  unfold parsePiece
  cases known : piece.event with
  | none =>
    rw [known] at apt
    generalize scanned : scanLine replay.event replay.value piece.bytes = result at apt
    obtain ⟨event, value⟩ := result
    have idle : parseLine handle replay piece.bytes = some { replay with event, value } := by
      rw [parseLine, scanned]
      dsimp only at apt ⊢
      split at apt
      next char => rw [if_pos char, eventMalloc, if_pos apt]
      next char => rw [if_neg char, eventFree, if_pos apt]
    exact ⟨_, idle, follows.scan⟩
  | some found =>
    have formed := Piece.formed known
    rw [known] at apt
    cases found with
    | malloc size => exact ⟨_, parseLine_malloc formed, follows.scan.malloc size⟩
    | free index =>
      obtain ⟨value, parsed⟩ : ∃ value, parseLine handle replay piece.bytes = _ := parseLine_free formed
      rw [parsed]
      rcases apt with nothing | inside
      · refine ⟨_, if_pos nothing, ?_⟩
        have empty : profile.live = [] := List.eq_nil_of_length_eq_zero (follows.count.symm.trans nothing)
        have ignored : profile.step handle (some (.free index)) = profile := by simp [Profile.step, empty]
        rw [ignored]
        exact follows.scan
      · exact follows.scan.free (follows.count ▸ inside)

/-- The run lemma. -/
theorem Follows.pieces (follows : Follows replay profile) {pieces : List Piece} (met : Met (parsePiece handle) Replay.Apt replay pieces) :
    ∃ after, steps (parsePiece handle) replay pieces = some after ∧
      Follows after (pieces.foldl (fun profile piece => profile.step handle piece.event) profile) := by
  induction pieces generalizing replay profile with
  | nil => exact ⟨replay, rfl, follows⟩
  | cons piece rest ih =>
    obtain ⟨apt, later⟩ := met
    obtain ⟨middle, parsed, follows⟩ := follows.step handle apt
    rw [parsed] at later
    obtain ⟨after, taken, follows⟩ := ih follows later
    exact ⟨after, by rw [steps, parsed]; exact taken, follows⟩

theorem steps_pieces (starts : Bool) (lines : List (List UInt8)) :
    steps (parsePiece handle) replay (piecesFrom starts lines) = steps (parseLine handle) replay lines := by
  induction lines generalizing starts replay with
  | nil => rfl
  | cons bytes rest ih => exact congrArg _ (funext fun after => ih _)

end Steps

/-- The non-zero locations of the live allocations stand at the start of the table, with
zeros behind them, every call freed what was live, and the calls are those the well
formed events make. -/
structure Kept (handle : Handle) (lines : List (List UInt8)) (replay : Replay) : Prop where
  nonzero : ∀ index, index < replay.currAllocCount → replay.locTable index ≠ 0
  zeros : ∀ index, replay.currAllocCount ≤ index → replay.locTable index = 0
  accounted : replay.log.foldlM account 0 = some (((List.range replay.currAllocCount).map replay.locTable : List UInt64) : Multiset UInt64)
  calls : replay.log = (profileOf handle lines).log

omit [Arch] in
theorem Follows.kept {handle : Handle} {lines : List (List UInt8)} {replay : Replay} (follows : Follows replay (profileOf handle lines)) :
    Kept handle lines replay where
  nonzero index inside := by
    rw [follows.count] at inside
    rw [follows.table, List.getElem?_eq_getElem inside]
    exact follows.nonzero _ (List.getElem_mem inside)
  zeros index outside := by
    rw [follows.count] at outside
    rw [follows.table, List.getElem?_eq_none outside]
    rfl
  accounted := by
    rw [follows.log, follows.accounted, follows.count]
    refine congrArg (fun live : List UInt64 => some (live : Multiset UInt64)) (List.ext_getElem (by simp) fun index inside _ => ?_)
    rw [List.getElem_map, List.getElem_range, follows.table, List.getElem?_eq_getElem inside]
    rfl
  calls := follows.log

end Replays

/-! Printed profiles. -/

section Printing

theorem decimal_isDigit {value : Nat} : ∀ digit ∈ decimal value, isDigit digit = true := by
  intro digit member
  unfold decimal at member
  split at member
  next => exact List.mem_singleton.mp member ▸ rfl
  next =>
    obtain ⟨figure, inside, rfl⟩ := List.mem_map.mp member
    have small : figure < 10 := Nat.digits_lt_base (by decide) (List.mem_reverse.mp inside)
    interval_cases figure <;> rfl

theorem decimal_ne_nil (value : Nat) : decimal value ≠ [] := by
  unfold decimal
  split
  next => exact nofun
  next nonzero => simp [Nat.digits_eq_nil_iff_eq_zero, nonzero]

theorem decimalValue_decimal (value : Nat) : decimalValue (decimal value) = value := by
  unfold decimal
  split
  next zero => exact zero.symm
  next =>
    rw [decimalValue, List.foldl_map, List.foldl_reverse]
    have figures := fun figure (inside : figure ∈ Nat.digits 10 value) => Nat.digits_lt_base (b := 10) (by decide) inside
    calc (Nat.digits 10 value).foldr (fun figure rest => 10 * rest + ((UInt8.ofNat (48 + figure)).toNat - 48)) 0
        = (Nat.digits 10 value).foldr (fun figure rest => figure + 10 * rest) 0 := by
          refine List.foldr_ext _ _ 0 fun figure inside rest => ?_
          have small := figures figure inside
          rw [UInt8.toNat_ofNat']
          omega
      _ = Nat.ofDigits 10 (Nat.digits 10 value) := (Nat.ofDigits_eq_foldr 10 _).symm
      _ = value := Nat.ofDigits_digits 10 value

theorem decimal_length {value : Nat} (word : value < 2 ^ 32) : (decimal value).length ≤ 10 := by
  unfold decimal
  split
  next => decide
  next =>
    rw [List.length_map, List.length_reverse, Nat.digits_length_le_iff (by decide)]
    omega

theorem fgets_line {body rest : List UInt8} {count : Nat} (plain : newline ∉ body) (short : body.length < count) :
    fgets count (body ++ newline :: rest) = (body ++ [newline], rest) := by
  induction body generalizing count with
  | nil =>
    obtain ⟨count, rfl⟩ : ∃ more, count = more + 1 := ⟨count - 1, by simp at short; omega⟩
    simp [fgets]
  | cons byte body ih =>
    obtain ⟨count, rfl⟩ : ∃ more, count = more + 1 := ⟨count - 1, by simp at short; omega⟩
    obtain ⟨other, plain⟩ := not_or.mp (mt List.mem_cons.mpr plain)
    rw [List.length_cons] at short
    rw [List.cons_append, fgets, if_neg (Ne.symm other), ih plain (Nat.lt_of_succ_lt_succ short)]
    rfl

section Lines
variable {event : Event}

def number : Event → Nat
  | .malloc size => size.toNat
  | .free index => index

def letter : Event → UInt8
  | .malloc _ => mallocChar
  | .free _ => freeChar

def body (event : Event) : List UInt8 := letter event :: 32 :: decimal (number event)

theorem letter_spec (event : Event) : letter event ≠ 0 ∧ letter event ≠ newline := by
  cases event with
  | malloc size => exact show mallocChar ≠ 0 ∧ mallocChar ≠ newline by decide
  | free index => exact show freeChar ≠ 0 ∧ freeChar ≠ newline by decide

theorem print_eq (event : Event) : event.print = body event ++ [newline] := by cases event <;> rfl

theorem body_plain (event : Event) : newline ∉ body event := by
  simp only [body, List.mem_cons, not_or]
  refine ⟨(letter_spec event).2.symm, by decide, fun figure => ?_⟩
  have bounds := digit_bounds (decimal_isDigit _ figure)
  simp [newline] at bounds

theorem linesFrom_print {events : List Event} (words : ∀ event ∈ events, number event < 2 ^ 32) {fuel : Nat}
    (enough : (events.flatMap Event.print).length ≤ fuel) : linesFrom fuel (events.flatMap Event.print) = events.map Event.print := by
  induction events generalizing fuel with
  | nil => cases fuel <;> rfl
  | cons event rest ih =>
    rw [List.flatMap_cons] at enough ⊢
    have short : (body event).length < 63 := by
      have figures := decimal_length (words event List.mem_cons_self)
      simp only [body, List.length_cons]
      omega
    have line : fgets 63 (event.print ++ rest.flatMap Event.print) = (event.print, rest.flatMap Event.print) := by
      rw [print_eq, List.append_assoc]
      exact fgets_line (body_plain event) short
    have some_ : event.print ++ rest.flatMap Event.print ≠ [] := by simp [print_eq]
    have positive : 0 < event.print.length := by simp [print_eq]
    rw [List.length_append] at enough
    obtain ⟨fuel, rfl⟩ : ∃ more, fuel = more + 1 := ⟨fuel - 1, by omega⟩
    rw [linesFrom, if_neg some_, line]
    exact congrArg (event.print :: ·) (ih (fun other member => words other (List.mem_cons_of_mem _ member)) (by omega))

theorem wellFormed_print (word : number event < 2 ^ 32) : wellFormed event.print = some event := by
  obtain ⟨first, others, figures⟩ := List.exists_cons_of_ne_nil (decimal_ne_nil (number event))
  have digit : isDigit first = true := decimal_isDigit first (figures ▸ List.mem_cons_self)
  have solid : first ≠ 32 := by
    rintro rfl
    cases digit
  have behind : (32 :: (decimal (number event) ++ [newline])).dropWhile (· = 32) = decimal (number event) ++ [newline] := by
    rw [List.dropWhile_cons_of_pos (by decide), figures, List.cons_append, List.dropWhile_cons_of_neg (by simp [solid])]
  have taken : (decimal (number event) ++ [newline]).takeWhile isDigit = decimal (number event) := by
    rw [List.takeWhile_append_of_pos fun digit member => decimal_isDigit digit member]
    simp [isDigit, newline]
  have left : (decimal (number event) ++ [newline]).dropWhile isDigit = [newline] := by
    rw [List.dropWhile_append_of_pos fun digit member => decimal_isDigit digit member]
    simp [isDigit, newline]
  rw [print_eq, body, List.cons_append, List.cons_append, wellFormed]
  simp only [behind, taken, left, decimalValue_decimal, decimal_ne_nil, word, List.head?_cons, ne_eq, not_false_eq_true,
    true_or, and_self, if_true]
  cases event with
  | malloc size => simp [number, letter]
  | free index => simp [number, letter, mallocChar, freeChar]

theorem piecesFrom_print (events : List Event) :
    piecesFrom true (events.map Event.print) = events.map fun event => ⟨true, event.print⟩ := by
  induction events with
  | nil => rfl
  | cons event rest ih =>
    have ended : event.print.getLast? = some newline := by rw [print_eq, List.getLast?_concat]
    rw [List.map_cons, piecesFrom, ended, decide_eq_true rfl, ih, List.map_cons]

end Lines
end Printing

section Generator

/-- The objects of a generator, by index, and those its free events are meant for. Each
malloc event is the next object. -/
structure Meant where
  live : List Nat
  next : Nat
  freed : List Nat

def Meant.step (meant : Meant) : Event → Meant
  | .malloc _ => ⟨meant.live ++ [meant.next], meant.next + 1, meant.freed⟩
  | .free index => match meant.live[index]? with
    | none => meant
    | some object => ⟨renumber meant.live index, meant.next, meant.freed ++ [object]⟩

def meantBy (events : List Event) : Meant := events.foldl Meant.step ⟨[], 0, []⟩

def freedOf (log : List Callback) : List UInt64 := log.filterMap fun call => match call with
  | .simFree location => some location
  | _ => none

theorem generate_induction {holds : Generator → Prop} (start : holds ⟨0, []⟩)
    (malloc : ∀ {generator} size, holds generator → generator.currAllocCount ≠ maxAllocCount →
      holds ⟨generator.currAllocCount + 1, generator.printed ++ [.malloc size]⟩)
    (free : ∀ {generator index}, holds generator → index < generator.currAllocCount →
      holds ⟨generator.currAllocCount - 1, generator.printed ++ [.free index]⟩) (turns : List Choice) (rand : Nat → Nat) :
    holds (generate turns rand) := by
  have frees {generator : Generator} (held : holds generator) (rand : Nat) : holds (Randgen.eventFree generator rand) := by
    unfold Randgen.eventFree
    split
    next => exact held
    next some_ => exact free held (Nat.mod_lt _ (Nat.pos_of_ne_zero some_))
  have first (turns : List Choice) {generator : Generator} (held : holds generator) : holds (turns.foldl turn generator) := by
    induction turns generalizing generator with
    | nil => exact held
    | cons choice rest ih =>
      refine ih ?_
      unfold turn Randgen.eventAlloc
      split
      next =>
        split
        next => exact held
        next room => exact malloc choice.size held room
      next => exact frees held choice.rand
  have second (turns : List Nat) {generator : Generator} (held : holds generator) :
      holds (turns.foldl (fun generator turn => Randgen.eventFree generator (rand turn)) generator) := by
    induction turns generalizing generator with
    | nil => exact held
    | cons turn rest ih => exact ih (frees held (rand turn))
  exact second _ (first turns start)

theorem generate_count (turns : List Choice) (rand : Nat → Nat) : (generate turns rand).currAllocCount = 0 := by
  have one (generator : Generator) (rand : Nat) : (Randgen.eventFree generator rand).currAllocCount = generator.currAllocCount - 1 := by
    unfold Randgen.eventFree
    split
    next none_ => rw [none_]
    next => rfl
  have frees (turns : List Nat) (generator : Generator) :
      (turns.foldl (fun generator turn => Randgen.eventFree generator (rand turn)) generator).currAllocCount =
          generator.currAllocCount - turns.length := by
    induction turns generalizing generator with
    | nil => rfl
    | cons turn rest ih =>
      rw [List.foldl_cons, ih, one, List.length_cons]
      omega
  rw [generate, frees, List.length_range, Nat.sub_self]

/-- The count of a generator is that of its objects, and each is live or freed. -/
structure Tracked (generator : Generator) : Prop where
  words : ∀ event ∈ generator.printed, number event < 2 ^ 32
  count : generator.currAllocCount = (meantBy generator.printed).live.length
  bounded : generator.currAllocCount ≤ maxAllocCount
  objects : (meantBy generator.printed).freed.length + (meantBy generator.printed).live.length = (meantBy generator.printed).next

theorem tracked_start : Tracked ⟨0, []⟩ := ⟨nofun, rfl, Nat.zero_le _, rfl⟩

section Tracked
variable {generator : Generator} {index : Nat}

theorem Tracked.word (tracked : Tracked generator) (inside : index < generator.currAllocCount) : number (.free index) < 2 ^ 32 := by
  have bounded := tracked.bounded
  have small : maxAllocCount < 2 ^ 32 := by decide
  show index < 2 ^ 32
  omega

theorem Tracked.words_next (tracked : Tracked generator) {next : Event} (word : number next < 2 ^ 32) :
    ∀ event ∈ generator.printed ++ [next], number event < 2 ^ 32 := by
  intro event member
  rcases List.mem_append.mp member with old | new
  · exact tracked.words event old
  · rwa [List.mem_singleton.mp new]

theorem meantBy_malloc (events : List Event) (size : UInt32) : meantBy (events ++ [.malloc size]) =
    ⟨(meantBy events).live ++ [(meantBy events).next], (meantBy events).next + 1, (meantBy events).freed⟩ := List.foldl_append ..

theorem meantBy_free {events : List Event} (inside : index < (meantBy events).live.length) : meantBy (events ++ [.free index]) =
    ⟨renumber (meantBy events).live index, (meantBy events).next, (meantBy events).freed ++ [(meantBy events).live[index]]⟩ := by
  have meant : meantBy (events ++ [.free index]) = (meantBy events).step (.free index) := List.foldl_append ..
  simp only [meant, Meant.step, List.getElem?_eq_getElem inside]

theorem Tracked.malloc (tracked : Tracked generator) (room : generator.currAllocCount ≠ maxAllocCount) (size : UInt32) :
    Tracked ⟨generator.currAllocCount + 1, generator.printed ++ [.malloc size]⟩ := by
  refine ⟨tracked.words_next size.toNat_lt, ?_, Nat.lt_of_le_of_ne tracked.bounded room, ?_⟩
  · rw [meantBy_malloc, List.length_append, tracked.count]
    rfl
  · rw [meantBy_malloc, List.length_append]
    exact congrArg (· + 1) tracked.objects

theorem Tracked.free (tracked : Tracked generator) (inside : index < generator.currAllocCount) :
    Tracked ⟨generator.currAllocCount - 1, generator.printed ++ [.free index]⟩ := by
  have within : index < (meantBy generator.printed).live.length := tracked.count ▸ inside
  refine ⟨tracked.words_next (tracked.word inside), ?_, Nat.le_trans (Nat.sub_le _ _) tracked.bounded, ?_⟩
  · rw [meantBy_free within]
    show generator.currAllocCount - 1 = _
    rw [renumber_length within, tracked.count]
  · rw [meantBy_free within]
    dsimp only
    rw [renumber_length within, List.length_append, List.length_singleton]
    have objects := tracked.objects
    omega

theorem tracked_generate (turns : List Choice) (rand : Nat → Nat) : Tracked (generate turns rand) :=
  generate_induction tracked_start (fun size tracked room => tracked.malloc room size) Tracked.free turns rand

theorem meantBy_generate (turns : List Choice) (rand : Nat → Nat) :
    (meantBy (generate turns rand).printed).freed.length = (meantBy (generate turns rand).printed).next := by
  have tracked := tracked_generate turns rand
  rw [← tracked.objects, ← tracked.count, generate_count, Nat.add_zero]

end Tracked
variable [Arch]

/-- A replay in step with the generator. -/
structure InStep (handle : Handle) (start : Replay) (generator : Generator) : Prop where
  replays : ∃ replay, steps (parseLine handle) start (generator.printed.map Event.print) = some replay ∧
    Follows replay (profileOf handle (generator.printed.map Event.print))
  live : (profileOf handle (generator.printed.map Event.print)).live = (meantBy generator.printed).live.map handle.results
  mallocs : (profileOf handle (generator.printed.map Event.print)).mallocs = (meantBy generator.printed).next
  freed : freedOf (profileOf handle (generator.printed.map Event.print)).log = (meantBy generator.printed).freed.map handle.results

section Steps
variable {handle : Handle} {event : UInt8} {value : UInt32} {start : Replay} {generator : Generator} {index : Nat}

omit [Arch] in
theorem inStep_start [Arch] : InStep handle (Replay.start event value) ⟨0, []⟩ := ⟨⟨_, rfl, follows_start⟩, rfl, rfl, rfl⟩

omit [Arch] in
theorem profileOf_print {events : List Event} {next : Event} (word : number next < 2 ^ 32) :
    profileOf handle ((events ++ [next]).map Event.print) = (profileOf handle (events.map Event.print)).step handle (some next) := by
  rw [profileOf, profileOf, piecesFrom_print, piecesFrom_print, List.map_append, List.foldl_append]
  exact congrArg _ (wellFormed_print word)

theorem steps_print {replay after : Replay} {events : List Event} {next : Event}
    (reached : steps (parseLine handle) start (events.map Event.print) = some replay)
    (parsed : parseLine handle replay next.print = some after) :
    steps (parseLine handle) start ((events ++ [next]).map Event.print) = some after := by
  rw [List.map_append, steps_append, reached]
  show (parseLine handle replay next.print).bind _ = _
  rw [parsed]
  rfl

theorem InStep.replays_next (inStep : InStep handle start generator) (tracked : Tracked generator) {next : Event}
    (word : number next < 2 ^ 32)
    (apt : ∀ index, next = .free index → index < generator.currAllocCount) :
    ∃ replay, steps (parseLine handle) start ((generator.printed ++ [next]).map Event.print) = some replay ∧
      Follows replay (profileOf handle ((generator.printed ++ [next]).map Event.print)) := by
  obtain ⟨before, reached, follows⟩ := inStep.replays
  have known : (⟨true, next.print⟩ : Piece).event = some next := wellFormed_print word
  have able : before.Apt ⟨true, next.print⟩ := by
    unfold Replay.Apt
    rw [known]
    cases next with
    | malloc size => trivial
    | free index =>
      refine .inr ?_
      have same : before.currAllocCount = generator.currAllocCount := by
        rw [follows.count, inStep.live, List.length_map, tracked.count]
      rw [same]
      exact apt index rfl
  obtain ⟨after, parsed, follows⟩ := follows.step handle able
  rw [known] at follows
  exact ⟨after, steps_print reached parsed, profileOf_print word ▸ follows⟩

theorem InStep.malloc (inStep : InStep handle start generator) (tracked : Tracked generator) (size : UInt32)
    (succeeds : handle.results (meantBy generator.printed).next ≠ 0) :
    InStep handle start ⟨generator.currAllocCount + 1, generator.printed ++ [.malloc size]⟩ := by
  have word : number (.malloc size) < 2 ^ 32 := size.toNat_lt
  have notFull : (profileOf handle (generator.printed.map Event.print)).live.length ≠ maxTableEntries := by
    rw [inStep.live, List.length_map, ← tracked.count]
    have bounded := tracked.bounded
    have small : maxAllocCount < maxTableEntries := by decide
    omega
  have stepped : (profileOf handle ((generator.printed ++ [Event.malloc size]).map Event.print)) = _ := profileOf_print word
  simp only [Profile.step, if_neg notFull, inStep.mallocs, succeeds, if_false] at stepped
  refine ⟨inStep.replays_next tracked word nofun, ?_, ?_, ?_⟩
  · rw [stepped, meantBy_malloc, inStep.live, List.map_append]
    rfl
  · rw [stepped, meantBy_malloc]
  · rw [stepped, meantBy_malloc]
    refine Eq.trans ?_ inStep.freed
    rw [freedOf, List.filterMap_append]
    exact List.append_nil _

theorem InStep.free (inStep : InStep handle start generator) (tracked : Tracked generator) (inside : index < generator.currAllocCount) :
    InStep handle start ⟨generator.currAllocCount - 1, generator.printed ++ [.free index]⟩ := by
  have word := tracked.word inside
  have within : index < (meantBy generator.printed).live.length := tracked.count ▸ inside
  have stepped : (profileOf handle ((generator.printed ++ [Event.free index]).map Event.print)) = _ := profileOf_print word
  have here : (profileOf handle (generator.printed.map Event.print)).live[index]? =
      some (handle.results (meantBy generator.printed).live[index]) := by
    rw [inStep.live, List.getElem?_map, List.getElem?_eq_getElem within]
    rfl
  simp only [Profile.step, here] at stepped
  refine ⟨inStep.replays_next tracked word fun other same => ?_, ?_, ?_, ?_⟩
  · cases same
    exact inside
  · rw [stepped, meantBy_free within, inStep.live]
    exact renumber_map _
  · rw [stepped, meantBy_free within]
    exact inStep.mallocs
  · rw [stepped, meantBy_free within, freedOf, List.filterMap_append, List.map_append, ← inStep.freed]
    rfl

theorem inStep_generate (turns : List Choice) (rand : Nat → Nat)
    (succeeds : ∀ call < (meantBy (generate turns rand).printed).next, handle.results call ≠ 0) :
    InStep handle (Replay.start event value) (generate turns rand) := by
  have both := @generate_induction (fun generator => Tracked generator ∧
    ((∀ call < (meantBy generator.printed).next, handle.results call ≠ 0) → InStep handle (Replay.start event value) generator))
    ⟨tracked_start, fun _ => inStep_start⟩ ?_ ?_ turns rand
  · exact both.2 succeeds
  · rintro generator size ⟨tracked, follows⟩ room
    refine ⟨tracked.malloc room size, fun succeeds => ?_⟩
    rw [meantBy_malloc] at succeeds
    exact (follows fun call before => succeeds call (Nat.lt_succ_of_lt before)).malloc tracked size (succeeds _ (Nat.lt_succ_self _))
  · rintro generator index ⟨tracked, follows⟩ inside
    refine ⟨tracked.free inside, fun succeeds => ?_⟩
    rw [meantBy_free (tracked.count ▸ inside)] at succeeds
    exact (follows succeeds).free tracked inside

/-- A replay behind the generator, whatever its allocator does: it has freed no more than
it got. -/
structure Trails (handle : Handle) (start : Replay) (generator : Generator) (replay : Replay) : Prop where
  reached : steps (parseLine handle) start (generator.printed.map Event.print) = some replay
  behind : replay.currAllocCount ≤ generator.currAllocCount
  mallocs : replay.mallocs = (meantBy generator.printed).next
  balance : (freedOf replay.log).length + replay.currAllocCount = (List.range replay.mallocs).countP fun call => handle.results call ≠ 0

theorem Trails.malloc {replay : Replay} (trails : Trails handle start generator replay) (tracked : Tracked generator) (size : UInt32) :
    ∃ after, Trails handle start ⟨generator.currAllocCount + 1, generator.printed ++ [.malloc size]⟩ after := by
  have notFull : replay.currAllocCount ≠ maxTableEntries := by
    have behind := trails.behind
    have bounded := tracked.bounded
    have small : maxAllocCount < maxTableEntries := by decide
    omega
  refine ⟨_, steps_print trails.reached (parseLine_malloc (wellFormed_print size.toNat_lt)), ?_, ?_, ?_⟩
  all_goals rw [eventMalloc, if_neg notFull]
  · have behind := trails.behind
    dsimp only
    split <;> omega
  · rw [meantBy_malloc]
    exact congrArg (· + 1) trails.mallocs
  · have balance := trails.balance
    dsimp only
    rw [List.range_succ, List.countP_append, ← balance, freedOf, List.filterMap_append, List.length_append, List.countP_singleton]
    rcases eq_or_ne (handle.results replay.mallocs) 0 with failed | given
    · simp [failed, freedOf]
    · simp [given, freedOf, Nat.add_assoc]

theorem Trails.free {replay : Replay} (trails : Trails handle start generator replay) (tracked : Tracked generator)
    (inside : index < generator.currAllocCount) :
    ∃ after, Trails handle start ⟨generator.currAllocCount - 1, generator.printed ++ [.free index]⟩ after := by
  have within : index < (meantBy generator.printed).live.length := tracked.count ▸ inside
  obtain ⟨value, parsed⟩ : ∃ value, parseLine handle replay (Event.free index).print = _ :=
    parseLine_free (wellFormed_print (tracked.word inside))
  have behind := trails.behind
  have reachable : ¬ locTableEntries ≤ index := by
    have bounded := tracked.bounded
    have small : maxAllocCount < locTableEntries := by decide
    omega
  have mallocs : replay.mallocs = (meantBy (generator.printed ++ [.free index])).next := by
    rw [meantBy_free within]
    exact trails.mallocs
  simp only [SimParse.eventFree, if_neg reachable] at parsed
  split at parsed
  next nothing =>
    refine ⟨_, steps_print trails.reached parsed, ?_, mallocs, trails.balance⟩
    exact nothing ▸ Nat.zero_le _
  next some_ =>
    refine ⟨_, steps_print trails.reached parsed, Nat.sub_le_sub_right behind 1, mallocs, ?_⟩
    have balance := trails.balance
    dsimp only
    rw [← balance, freedOf, List.filterMap_append, List.length_append]
    simp only [List.filterMap_cons, List.filterMap_nil, List.length_singleton, freedOf]
    omega

theorem trails_generate (turns : List Choice) (rand : Nat → Nat) :
    ∃ replay, Trails handle (Replay.start event value) (generate turns rand) replay := by
  have both :=
    @generate_induction (fun generator => Tracked generator ∧ ∃ replay, Trails handle (Replay.start event value) generator replay)
    ⟨tracked_start, _, ⟨rfl, Nat.le_refl 0, rfl, rfl⟩⟩ ?_ ?_ turns rand
  · exact both.2
  · rintro generator size ⟨tracked, replay, trails⟩ room
    exact ⟨tracked.malloc room size, trails.malloc tracked size⟩
  · rintro generator index ⟨tracked, replay, trails⟩ inside
    exact ⟨tracked.free inside, trails.free tracked inside⟩

end Steps

theorem parseFile_eq {handle : Handle} {event : UInt8} {value : UInt32} {file : List UInt8} {replay : Replay}
    (taken : steps (parseLine handle) (Replay.start event value) (linesOf file) = some replay) :
    parseFile handle event value file = some (replay.log ++ [.simEnd]) := by
  rw [parseFile, ← steps_eq_foldlM, taken]
  rfl

omit [Arch] in
theorem freedOf_end (log : List Callback) : freedOf (log ++ [.simEnd]) = freedOf log := by
  rw [freedOf, List.filterMap_append]
  exact List.append_nil _

/-- The free events of a generator release what they are meant for just when all its
allocations succeed. -/
theorem generated_frees (handle : Handle) (event : UInt8) (value : UInt32) (turns : List Choice) (rand : Nat → Nat) :
    ∃ log, parseFile handle event value ((generate turns rand).printed.flatMap Event.print) = some log ∧
      (freedOf log = (meantBy (generate turns rand).printed).freed.map handle.results ↔
        ∀ call < (meantBy (generate turns rand).printed).next, handle.results call ≠ 0) := by
  obtain ⟨replay, trails⟩ : ∃ replay, Trails handle (Replay.start event value) (generate turns rand) replay := trails_generate turns rand
  have lines : linesOf ((generate turns rand).printed.flatMap Event.print) = (generate turns rand).printed.map Event.print :=
    linesFrom_print (tracked_generate turns rand).words (Nat.le_refl _)
  refine ⟨_, parseFile_eq ((congrArg _ lines).trans trails.reached), ?_⟩
  rw [freedOf_end]
  constructor
  · intro same call before
    have length := congrArg List.length same
    rw [List.length_map, meantBy_generate, ← trails.mallocs] at length
    have few := List.countP_le_length (p := fun call => decide (handle.results call ≠ 0)) (l := List.range replay.mallocs)
    have balance := trails.balance
    rw [List.length_range] at few
    have all : (List.range replay.mallocs).countP (fun call => handle.results call ≠ 0) = (List.range replay.mallocs).length := by
      rw [List.length_range]
      omega
    have given := List.countP_eq_length.mp all call (List.mem_range.mpr (trails.mallocs ▸ before))
    exact of_decide_eq_true given
  · intro succeeds
    have inStep : InStep handle (Replay.start event value) (generate turns rand) := inStep_generate turns rand succeeds
    obtain ⟨other, reached, follows⟩ := inStep.replays
    obtain rfl : replay = other := Option.some.inj (trails.reached.symm.trans reached)
    rw [follows.log]
    exact inStep.freed

/-- Replays that can cope with all they read keep the table and make the calls of the
well-formed events, and then the end is called once; and the free events of a generator
release what they are meant for if nothing fails, and only then. -/
theorem replays_apt (handle : Handle) (event : UInt8) (value : UInt32) :
    (∀ lines, Met (parsePiece handle) Replay.Apt (Replay.start event value) (piecesFrom true lines) →
      ∃ replay, steps (parseLine handle) (Replay.start event value) lines = some replay ∧ Kept handle lines replay) ∧
    (∀ file, Met (parsePiece handle) Replay.Apt (Replay.start event value) (piecesFrom true (linesOf file)) →
      parseFile handle event value file = some ((profileOf handle (linesOf file)).log ++ [.simEnd])) ∧
    ∀ turns rand, ∃ log, parseFile handle event value ((generate turns rand).printed.flatMap Event.print) = some log ∧
      (freedOf log = (meantBy (generate turns rand).printed).freed.map handle.results ↔
        ∀ call < (meantBy (generate turns rand).printed).next, handle.results call ≠ 0) := by
  have replays (lines : List (List UInt8)) (met : Met (parsePiece handle) Replay.Apt (Replay.start event value) (piecesFrom true lines)) :
      ∃ replay, steps (parseLine handle) (Replay.start event value) lines = some replay ∧ Follows replay (profileOf handle lines) := by
    obtain ⟨replay, taken, follows⟩ := follows_start.pieces met
    exact ⟨replay, (steps_pieces true lines).symm.trans taken, follows⟩
  refine ⟨fun lines met => ?_, fun file met => ?_, generated_frees handle event value⟩
  · obtain ⟨replay, taken, follows⟩ := replays lines met
    exact ⟨replay, taken, follows.kept⟩
  · obtain ⟨replay, taken, follows⟩ := replays (linesOf file) met
    rw [parseFile_eq taken, follows.log]

end Generator

section Sample
local instance replayArch : Arch := Arch.x64

/-- An allocator that gives one location after the other. -/
def counting : Handle := ⟨false, fun call => UInt64.ofNat (call % 2 ^ 32 + 1)⟩

theorem counting_succeeds (call : Nat) : counting.results call ≠ 0 := by
  intro zero
  have number := congrArg UInt64.toNat zero
  simp only [counting, UInt64.toNat_ofNat'] at number
  have small : call % 2 ^ 32 < 2 ^ 32 := Nat.mod_lt _ (by decide)
  simp only [UInt64.toNat_zero] at number
  omega

/-- Two allocations, and the first is freed, and then the second. -/
def twoTurns : List Choice := [⟨true, 100, 0⟩, ⟨true, 200, 0⟩, ⟨false, 0, 0⟩]

def failsSecond : Handle := ⟨false, fun call => if call = 1 then 0 else UInt64.ofNat (call + 1)⟩

/-- Three allocations, of which the second fails, are freed; then come a line that is no
event and a free event with nothing live; and the last line has no newline. -/
def patchyFile : List UInt8 :=
  ([.malloc 5, .malloc 6, .malloc 7, .free 1, .free 0] : List Event).flatMap Event.print ++ [35, 10] ++
    ([.free 9, .malloc 4] : List Event).flatMap Event.print ++ [70, 32, 48]

def Replay.able (replay : Replay) (piece : Piece) : Bool :=
  match piece.event with
  | some (.malloc _) => true
  | some (.free index) => decide (replay.currAllocCount = 0 ∨ index < replay.currAllocCount)
  | none => decide (if (scanLine replay.event replay.value piece.bytes).1 = mallocChar then replay.currAllocCount = maxTableEntries
      else replay.currAllocCount = 0)

theorem apt_of_able {replay : Replay} {piece : Piece} (passed : replay.able piece = true) : replay.Apt piece := by
  unfold Replay.able at passed
  unfold Replay.Apt
  cases known : piece.event with
  | none =>
    rw [known] at passed
    exact of_decide_eq_true passed
  | some event =>
    rw [known] at passed
    cases event with
    | malloc size => trivial
    | free index => exact of_decide_eq_true passed

theorem replays_apt_sample :
    (∃ replay, steps (parseLine failsSecond) (Replay.start 0 0) (linesOf patchyFile) = some replay ∧
      Kept failsSecond (linesOf patchyFile) replay) ∧
    (∃ log, parseFile failsSecond 0 0 patchyFile = some (log ++ [.simEnd]) ∧ freedOf log = [3, 1, 4]) ∧
    ∃ log, parseFile counting 0 0 ((generate twoTurns fun _ => 0).printed.flatMap Event.print) = some log ∧
      freedOf log = (meantBy (generate twoTurns fun _ => 0).printed).freed.map counting.results ∧ freedOf log = [1, 2] := by
  have met : Met (parsePiece failsSecond) Replay.Apt (Replay.start 0 0) (piecesFrom true (linesOf patchyFile)) := by
    have taken :
        (steps (tested (parsePiece failsSecond) Replay.able) (Replay.start 0 0) (piecesFrom true (linesOf patchyFile))).isSome := by
      decide +kernel
    obtain ⟨final, taken⟩ := Option.isSome_iff_exists.mp taken
    exact .of_tested apt_of_able taken
  obtain ⟨lines, files, _⟩ := replays_apt failsSecond 0 0
  obtain ⟨log, parsed, freed⟩ := (replays_apt counting 0 0).2.2 twoTurns fun _ => 0
  have released := freed.mpr fun call _ => counting_succeeds call
  refine ⟨lines _ met, ⟨_, files _ met, by decide +kernel⟩, log, parsed, released, ?_⟩
  rw [released]
  decide +kernel

def failsFirst : Handle := ⟨false, fun call => if call = 0 then 0 else 7⟩

/-- An index that is not live: 0 is freed. And after a failure, too, the events of a
generator free 0 where another object is meant. -/
theorem frees_unallocated : (∃ log, parseFile counting 0 0 [77, 32, 53, 10, 70, 32, 49, 10] = some log ∧ log.foldlM account 0 = none ∧
    Callback.simFree 0 ∈ log) ∧
    ∃ log, parseFile failsFirst 0 0 ((generate [⟨true, 100, 0⟩, ⟨true, 200, 0⟩, ⟨false, 0, 1⟩] fun _ => 0).printed.flatMap Event.print) =
      some log ∧
      freedOf log = [0] := by
  exact ⟨⟨_, rfl, by decide +kernel, by decide +kernel⟩, _, rfl, by decide +kernel⟩

end Sample
end Compcache.SimParse
