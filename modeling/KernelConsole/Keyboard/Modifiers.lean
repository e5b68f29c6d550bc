/-!
# Modifiers

The keys that are held or locked, one bit each, and a bit that says the last
byte was the prefix of an extended key.

A set of modifiers is a byte. Seven of its bits are named; the operations act on
all eight, so a byte with the unnamed bit set is still a set, and only
`ofBits?` and `complement` look at whether a bit is a named one.

## Main definitions

* `Modifiers`: A set of modifiers.
* `Modifiers.named`: The named modifiers with their names, lowest bit first.
* `Modifiers.union`, `inter`, `symmDiff`, `remove`, `complement`: Set algebra.
* `Modifiers.contains`, `intersects`: Comparing sets.
* `Modifiers.describe`: A set written out.
-/

namespace KernelConsole

/-- A set of modifiers, one bit each. -/
structure Modifiers where
  /-- The members. -/
  bits : UInt8
deriving DecidableEq, Ord

namespace Modifiers

/-- No modifiers. -/
def empty : Modifiers := ⟨0⟩

/-- A shift key is held. -/
def shift : Modifiers := ⟨0x01⟩

/-- A control key is held. -/
def control : Modifiers := ⟨0x02⟩

/-- An alternate key is held. -/
def alt : Modifiers := ⟨0x04⟩

/-- Capitals are locked. -/
def capsLock : Modifiers := ⟨0x08⟩

/-- Numbers are locked. -/
def numLock : Modifiers := ⟨0x10⟩

/-- Scrolling is locked. -/
def scrollLock : Modifiers := ⟨0x20⟩

/-- The last byte was the prefix of an extended key. -/
def extended : Modifiers := ⟨0x40⟩

/-- Every named modifier. -/
def all : Modifiers := ⟨0x7F⟩

/-- The named modifiers with their names, lowest bit first. -/
def named : List (String × Modifiers) :=
  [("SHIFT", shift), ("CTL", control), ("ALT", alt), ("CAPSLOCK", capsLock),
   ("NUMLOCK", numLock), ("SCROLLLOCK", scrollLock), ("E0ESC", extended)]

instance : Inhabited Modifiers := ⟨empty⟩

/-- The members of either set. -/
def union (a b : Modifiers) : Modifiers := ⟨a.bits ||| b.bits⟩

/-- The members of both sets. -/
def inter (a b : Modifiers) : Modifiers := ⟨a.bits &&& b.bits⟩

/-- The members of exactly one of the sets. -/
def symmDiff (a b : Modifiers) : Modifiers := ⟨a.bits ^^^ b.bits⟩

/-- The members of `a` that are not in `b`. -/
def remove (a b : Modifiers) : Modifiers := ⟨a.bits &&& ~~~b.bits⟩

/-- The named modifiers that are not in the set. -/
def complement (a : Modifiers) : Modifiers := all.remove a

/-- The named members of a set. -/
def truncate (a : Modifiers) : Modifiers := a.inter all

/-- Every member of `b` is in `a`. -/
def contains (a b : Modifiers) : Bool := a.inter b == b

/-- Some member of `b` is in `a`. -/
def intersects (a b : Modifiers) : Bool := a.inter b != empty

/-- The set has no member at all. -/
def isEmpty (a : Modifiers) : Bool := a == empty

/-- Every named modifier is in the set. -/
def isAll (a : Modifiers) : Bool := a.contains all

/-- The set with the given bits, if each of them is named. -/
def ofBits? (bits : UInt8) : Option Modifiers :=
  if all.contains ⟨bits⟩ then some ⟨bits⟩ else none

/-- The names of the members, lowest bit first. -/
def names (a : Modifiers) : List String :=
  (named.filter fun m => a.contains m.2).map Prod.fst

/-- A byte in lower-case hexadecimal, without a leading zero. -/
def hexByte (b : UInt8) : String :=
  "0x" ++ String.ofList (Nat.toDigits 16 b.toNat)

/-- The set written out: the names of its members, then what is left of its bits,
    and a zero when it has neither. -/
def describe (a : Modifiers) : String :=
  let rest := a.remove all
  let unnamed := if rest.isEmpty then [] else [hexByte rest.bits]
  let members := a.names ++ unnamed
  let body := if members.isEmpty then hexByte 0 else " | ".intercalate members
  "Modifiers(" ++ body ++ ")"

end Modifiers

end KernelConsole
