import Mathlib.Data.Nat.Digits.Defs
import Mathlib.Data.UInt
import Compcache.Kernel

/-! `sub-projects/alloc_stress`: the replay of a profile of allocations, and the
program that prints random profiles. -/

namespace Compcache.SimParse

def maxTableEntries : Nat := 2 ^ 20

/-- The entries there is memory for: the table ends with a page of its own. -/
def locTableEntries : Nat := (8 * maxTableEntries / 4096 + 1) * 4096 / 8

def newline : UInt8 := 10
def mallocChar : UInt8 := 77
def freeChar : UInt8 := 70

/-! Reading a line. -/

/-- `fgets` of at most `count` characters: the line, and what is left of the file. -/
def fgets : Nat → List UInt8 → List UInt8 × List UInt8
  | 0, rest => ([], rest)
  | _ + 1, [] => ([], [])
  | count + 1, byte :: rest =>
    if byte = newline then ([byte], rest)
    else
      let (line, left) := fgets count rest
      (byte :: line, left)

def linesFrom : Nat → List UInt8 → List (List UInt8)
  | 0, _ => []
  | fuel + 1, bytes =>
    if bytes = [] then []
    else
      let (line, left) := fgets 63 bytes
      line :: linesFrom fuel left

/-- What the calls of `fgets` on a file return, for a buffer of 64 characters. -/
def linesOf (file : List UInt8) : List (List UInt8) := linesFrom file.length file

def isSpace (byte : UInt8) : Bool := byte = 32 ∨ 9 ≤ byte ∧ byte ≤ 13
def isDigit (byte : UInt8) : Bool := 48 ≤ byte ∧ byte ≤ 57

def decimalValue (digits : List UInt8) : Nat := digits.foldl (fun value digit => 10 * value + (digit.toNat - 48)) 0

variable [Arch]

/-- `%u`, by way of `strtoul`. -/
def scanUnsigned (bytes : List UInt8) : Option UInt32 :=
  let bytes := bytes.dropWhile isSpace
  let negative := bytes.head? = some 45
  let digits := (if negative ∨ bytes.head? = some 43 then bytes.tail else bytes).takeWhile isDigit
  if digits = [] then none
  else
    let value := decimalValue digits
    some (if 2 ^ bitsPerLong ≤ value then 2 ^ 32 - 1 else if negative then - UInt32.ofNat value else UInt32.ofNat value)

/-- `sscanf(line, "%c %u\n", &event, &value)`. What does not match keeps its value. -/
def scanLine (event : UInt8) (value : UInt32) (line : List UInt8) : UInt8 × UInt32 :=
  match line.takeWhile (· ≠ 0) with
  | [] => (event, value)
  | first :: rest => (first, (scanUnsigned rest).getD value)

/-! The replay. -/

inductive Callback
  | simMalloc (size : UInt32) (backRef : Option Nat) (result : UInt64)
  | simFree (location : UInt64)
  | simEnd
  deriving DecidableEq

/-- The table, the count, what `ParseFile` has in its variables, and the calls it made. -/
structure Replay where
  locTable : Nat → UInt64
  currAllocCount : Nat
  event : UInt8
  value : UInt32
  mallocs : Nat
  log : List Callback

/-- Before the first line `event` and `value` are whatever the stack holds. -/
def Replay.start (event : UInt8) (value : UInt32) : Replay := ⟨fun _ => 0, 0, event, value, 0, []⟩

/-- A handle: whether `simMalloc` is set, and what the malloc callback returns each time. -/
structure Handle where
  simMalloc : Bool
  results : Nat → UInt64

def eventMalloc (handle : Handle) (replay : Replay) (size : UInt32) : Replay :=
  if replay.currAllocCount = maxTableEntries then replay
  else
    let location := handle.results replay.mallocs
    let backRef := if handle.simMalloc then none else some replay.currAllocCount
    { replay with
      locTable := Function.update replay.locTable replay.currAllocCount location
      currAllocCount := if location ≠ 0 then replay.currAllocCount + 1 else replay.currAllocCount
      mallocs := replay.mallocs + 1
      log := replay.log ++ [.simMalloc size backRef location] }

/-- `none` is an access outside the table. -/
def eventFree (replay : Replay) (index : Nat) : Option Replay :=
  if replay.currAllocCount = 0 then some replay
  else if locTableEntries ≤ index then none
  else
    let currAllocCount := replay.currAllocCount - 1
    let locTable := Function.update replay.locTable index (replay.locTable currAllocCount)
    some { replay with
      locTable := Function.update locTable currAllocCount 0
      currAllocCount
      log := replay.log ++ [.simFree (replay.locTable index)] }

/-- One turn of the loop of `ParseFile`. -/
def parseLine (handle : Handle) (replay : Replay) (line : List UInt8) : Option Replay :=
  let (event, value) := scanLine replay.event replay.value line
  let replay := { replay with event, value }
  if event = mallocChar then some (eventMalloc handle replay value) else eventFree replay value.toNat

/-- The calls `ParseFile` makes. -/
def parseFile (handle : Handle) (event : UInt8) (value : UInt32) (file : List UInt8) : Option (List Callback) :=
  ((linesOf file).foldlM (parseLine handle) (Replay.start event value)).map fun replay => replay.log ++ [.simEnd]

end Compcache.SimParse
