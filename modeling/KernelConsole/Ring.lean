/-!
# Ring

The queue of bytes that wait to be read. It has room for 512 and never refuses
one: a byte that comes when it is full takes the place of the oldest.

The positions of reading and writing run freely, each a word of `w` bits that
wraps, and are reduced to a slot only when a slot is touched. Their difference
is the number of unread bytes, which tells a full queue from an empty one.

## Main definitions

* `Ring`: Slots and two running positions.
* `ByteQueue`: The ring with machine-word positions.
* `Ring.push`, `Ring.pop`: Adding a byte and taking the oldest.
* `Ring.contents`: The unread bytes, oldest first.
* `Ring.drain`: Taking all of them.
-/

namespace KernelConsole

/-- How many bytes a ring holds. -/
def Ring.capacity : Nat := 512

/-- A queue of bytes with positions of `w` bits. -/
structure Ring (w : Nat) where
  /-- The bytes, read and unread. -/
  slots : Vector UInt8 Ring.capacity
  /-- Position of the oldest unread byte. -/
  readPos : BitVec w
  /-- Position that the next byte goes to. -/
  writePos : BitVec w
deriving DecidableEq

/-- A queue with positions as wide as a machine word. -/
abbrev ByteQueue : Type := Ring 64

namespace Ring

variable {w : Nat}

/-- A queue with nothing to read. -/
def empty : Ring w where
  slots := Vector.replicate capacity 0
  readPos := 0
  writePos := 0

/-- The slot of a position. -/
def slot (pos : BitVec w) : Fin capacity :=
  ⟨pos.toNat % capacity, Nat.mod_lt _ (by decide)⟩

/-- How many bytes are unread. -/
def size (r : Ring w) : Nat := (r.writePos - r.readPos).toNat

/-- Nothing is unread. -/
def isEmpty (r : Ring w) : Bool := r.readPos == r.writePos

/-- Adds a byte, in the place of the oldest unread one if the queue is full. -/
def push (r : Ring w) (byte : UInt8) : Ring w where
  slots := r.slots.set (slot r.writePos) byte
  readPos := if r.size = capacity then r.readPos + 1 else r.readPos
  writePos := r.writePos + 1

/-- Takes the oldest unread byte. -/
def pop (r : Ring w) : Option UInt8 × Ring w :=
  if r.isEmpty then
    (none, r)
  else
    (some r.slots[slot r.readPos], { r with readPos := r.readPos + 1 })

/-- Adds bytes in order. -/
def pushAll (r : Ring w) (bytes : List UInt8) : Ring w :=
  bytes.foldl push r

/-- The unread bytes, oldest first. -/
def contents (r : Ring w) : List UInt8 :=
  (List.range r.size).map fun i => r.slots[slot (r.readPos + BitVec.ofNat w i)]

/-- Takes every unread byte, oldest first. -/
def drain (r : Ring w) : List UInt8 × Ring w :=
  (r.contents, { r with readPos := r.writePos })

end Ring

end KernelConsole
