import Mathlib.Data.Nat.Digits.Defs

/-! `sub-projects/alloc_stress/genprofile`: random profiles of allocations. -/

namespace Compcache.Randgen

def maxAllocCount : Nat := 2 ^ 16

inductive Event
  | malloc (size : UInt32)
  | free (index : Nat)
  deriving DecidableEq

/-- How the dice fall for one event. -/
structure Choice where
  flip : Bool
  size : UInt32
  rand : Nat

/-- The count of the generator, and the events it printed. -/
structure Generator where
  currAllocCount : Nat
  printed : List Event

def eventAlloc (generator : Generator) (size : UInt32) : Generator :=
  if generator.currAllocCount = maxAllocCount then generator
  else ⟨generator.currAllocCount + 1, generator.printed ++ [.malloc size]⟩

def eventFree (generator : Generator) (rand : Nat) : Generator :=
  if generator.currAllocCount = 0 then generator
  else ⟨generator.currAllocCount - 1, generator.printed ++ [.free (rand % generator.currAllocCount)]⟩

def turn (generator : Generator) (choice : Choice) : Generator :=
  if choice.flip then eventAlloc generator choice.size else eventFree generator choice.rand

/-- `main`, for any number of turns of its first loop. The second frees what is left. -/
def generate (turns : List Choice) (rand : Nat → Nat) : Generator :=
  let generator := turns.foldl turn ⟨0, []⟩
  (List.range generator.currAllocCount).foldl (fun generator turn => eventFree generator (rand turn)) generator

/-- The digits `%u` prints. -/
def decimal (value : Nat) : List UInt8 :=
  if value = 0 then [48] else (Nat.digits 10 value).reverse.map fun digit => UInt8.ofNat (48 + digit)

def Event.print : Event → List UInt8
  | malloc size => 77 :: 32 :: (decimal size.toNat ++ [10])
  | free index => 70 :: 32 :: (decimal index ++ [10])

end Compcache.Randgen
