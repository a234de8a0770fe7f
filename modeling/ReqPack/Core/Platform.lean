import Mathlib.Algebra.Group.Nat.Defs
import ReqPack.Core.Package

/-! # Platform policy and number parsing

`planner_platform` fixes a handful of constants at compile time; the two builds
are the two values of `Platform`.
-/

namespace ReqPack.Core

inductive Platform where
  | posix
  | windows
deriving Repr, DecidableEq

def isNixInstallSystem (system : String) : Bool := system == "nix"

namespace Platform

def reorderNonNixBeforeNix : Platform → Bool
  | posix => false
  | windows => true

def shouldIgnoreScheduleEdge (platform : Platform) (sourceSystem targetSystem : String) : Bool :=
  match platform with
  | posix => false
  | windows => isNixInstallSystem sourceSystem && !isNixInstallSystem targetSystem

def needsNonNixBeforeNixBarrier : Platform → Bool
  | posix => false
  | windows => true

def softSkipNixInstalls : Platform → Bool
  | posix => false
  | windows => true

/-- One more than the largest `unsigned long`. -/
def unsignedLongRange : Platform → Nat
  | posix => 2 ^ 64
  | windows => 2 ^ 32

end Platform

def isSpace (character : Char) : Bool :=
  character == ' ' || (9 ≤ character.toNat && character.toNat ≤ 13)

def decimalValue (digits : List Char) : Nat :=
  digits.foldl (fun value digit => value * 10 + (digit.toNat - 48)) 0

/-- `std::stoul` in base ten: leading white space and one sign are skipped, the
longest run of digits is read, a negative value wraps around, and no digits or a
value out of range is an exception. -/
def stoul (platform : Platform) (text : List Char) : Option Nat :=
  let trimmed := text.dropWhile isSpace
  let negative := trimmed.head? == some '-'
  let unsigned := if negative || trimmed.head? == some '+' then trimmed.tail else trimmed
  let digits := unsigned.takeWhile Char.isDigit
  let value := decimalValue digits
  if digits.isEmpty || platform.unsignedLongRange ≤ value then none
  else if negative then some ((platform.unsignedLongRange - value) % platform.unsignedLongRange)
  else some value

def internalEnsureOrderFlag : String := "__reqpack-internal-ensure-order="

/-- `operator<` on byte strings, which on UTF-8 text is the order of the code points. -/
def textLess (left right : String) : Bool := decide (left.toList < right.toList)

def startsWith (text leading : String) : Bool := leading.toList.isPrefixOf text.toList

/-- `internal_ensure_order`: only the first flag that carries the marker counts,
and a marker that does not parse gives no order. -/
def internalEnsureOrder (platform : Platform) (package : Package) : Option Nat :=
  (package.flags.find? fun flag => startsWith flag internalEnsureOrderFlag).bind fun flag =>
    stoul platform (flag.toList.drop internalEnsureOrderFlag.length)

end ReqPack.Core
