import Std.Data.TreeMap

/-!
# Cell Memory

Physical memory as the text adapters use it: sixteen-bit cells by address, all
zero to begin with. Two addresses that differ never share a byte.

## Main definitions

* `Memory`: The cells that have been written.
* `Memory.read`, `Memory.write`: One cell.
* `Memory.writeRun`: Neighbouring cells.

## Theorems

* `Memory.read_write`: A cell holds what was last written to its address.
* `Memory.read_empty`: A cell that was never written holds zero.
-/

namespace KernelConsole

/-- Memory of sixteen-bit cells. -/
structure Memory where
  /-- The cells that have been written, by address. -/
  written : Std.TreeMap Nat UInt16

namespace Memory

/-- Memory that holds zero everywhere. -/
def empty : Memory := ⟨∅⟩

/-- The cell at an address. -/
def read (m : Memory) (address : Nat) : UInt16 :=
  m.written.getD address 0

/-- Writes the cell at an address. -/
def write (m : Memory) (address : Nat) (cell : UInt16) : Memory :=
  ⟨m.written.insert address cell⟩

/-- Writes cells to addresses two apart. -/
def writeRun (m : Memory) (address : Nat) : List UInt16 → Memory
  | [] => m
  | cell :: rest => (m.write address cell).writeRun (address + 2) rest

theorem read_empty (a : Nat) : empty.read a = 0 := by
  simp [empty, read]

/-- A cell that is written reads as what it was given, and any other as before. -/
theorem read_write (m : Memory) (a b : Nat) (cell : UInt16) :
    (m.write a cell).read b = if a = b then cell else m.read b := by
  simp [read, write, Std.TreeMap.getD_insert]

end Memory

end KernelConsole
