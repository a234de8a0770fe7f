import Mathlib.Logic.Function.Basic

/-! # Bits that share a word

A sequence of bits is kept in words of a fixed width.  A bit is stored by reading
its word, changing the bit and writing the word back; what happens to the other
bits of the word depends on when the word was read.
-/

namespace ReqPack.Data

section Words

variable (width : Nat)

/-- The word a bit stands in, as it is now. -/
def readWord (bits : Nat → Bool) (index : Nat) : Nat → Bool := fun offset =>
  bits (width * (index / width) + offset)

def setInWord (word : Nat → Bool) (index : Nat) (value : Bool) : Nat → Bool :=
  Function.update word (index % width) value

/-- Write a word back to where the bit stands. -/
def writeWord (bits : Nat → Bool) (index : Nat) (word : Nat → Bool) : Nat → Bool := fun other =>
  if other / width = index / width then word (other % width) else bits other

/-- Reading, changing and writing with nothing in between. -/
def storeBit (bits : Nat → Bool) (index : Nat) (value : Bool) : Nat → Bool :=
  writeWord width bits index (setInWord width (readWord width bits index) index value)

end Words

variable {width : Nat} {bits word : Nat → Bool} {index other : Nat} {value : Bool}

theorem readWord_apply (same : other / width = index / width) :
    readWord width bits index (other % width) = bits other := by
  rw [readWord, ← same, Nat.div_add_mod]

theorem writeWord_self : writeWord width bits index (setInWord width word index value) index = value := by
  rw [writeWord, if_pos rfl, setInWord, Function.update_self]

/-- The other bits of the word are what they were when the word was read. -/
theorem writeWord_same (same : other / width = index / width) (different : other ≠ index) :
    writeWord width bits index (setInWord width word index value) other = word (other % width) := by
  have apart : other % width ≠ index % width := by
    intro equal
    apply different
    rw [← Nat.div_add_mod other width, ← Nat.div_add_mod index width, same, equal]
  rw [writeWord, if_pos same, setInWord, Function.update_of_ne apart]

theorem writeWord_elsewhere (elsewhere : other / width ≠ index / width) :
    writeWord width bits index word other = bits other := by
  rw [writeWord, if_neg elsewhere]

/-- With nothing in between, the other bits keep their values. -/
theorem storeBit_eq : storeBit width bits index value = Function.update bits index value := by
  funext other
  by_cases here : other = index
  · rw [here, storeBit, writeWord_self, Function.update_self]
  · rw [Function.update_of_ne here, storeBit]
    by_cases same : other / width = index / width
    · rw [writeWord_same same here, readWord_apply same]
    · exact writeWord_elsewhere same

end ReqPack.Data
