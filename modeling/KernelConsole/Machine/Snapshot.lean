import KernelConsole.Machine.ScriptedPc

/-!
# Screen Snapshots

The cells of both text screens at a moment, and what changed between two of them.
Changes are given as runs of neighbouring cells, so a text that was written shows
as one run.

## Main definitions

* `Snapshot`: The cells of both screens.
* `Snapshot.changes`: The runs of cells that changed.
-/

namespace KernelConsole

/-- The cells of both text screens. -/
structure Snapshot where
  /-- Those of the monochrome adapter. -/
  mono : Array UInt16
  /-- Those of the colour adapter. -/
  color : Array UInt16

namespace Snapshot

/-- Screens whose cells are all zero. -/
def blank : Snapshot where
  mono := Array.replicate ScriptedPc.bufferCells 0
  color := Array.replicate ScriptedPc.bufferCells 0

/-- What the screens of a PC hold. -/
def of (pc : ScriptedPc) : Snapshot where
  mono := (pc.screenCells ScriptedPc.monoBuffer).toArray
  color := (pc.screenCells ScriptedPc.colorBuffer).toArray

/-- Groups cells into runs: consecutive positions go together. -/
def group : List (Nat × UInt16) → List (Nat × List UInt16)
  | [] => []
  | (pos, cell) :: rest => match group rest with
    | [] => [(pos, [cell])]
    | (start, cells) :: runs =>
      if pos + 1 = start then (pos, cell :: cells) :: runs
      else (pos, [cell]) :: (start, cells) :: runs

/-- The runs of cells of one screen that changed, each with its address. -/
def changesAt (base : Nat) (before now : Array UInt16) : List (Nat × List UInt16) :=
  let changed := (List.range now.size).filterMap fun i =>
    let cell := now.getD i 0
    if cell == before.getD i 0 then none else some (i, cell)
  (group changed).map fun (start, cells) => (base + 2 * start, cells)

/-- The runs of cells that changed, first on the monochrome screen, then on the
    colour one. -/
def changes (before now : Snapshot) : List (Nat × List UInt16) :=
  changesAt ScriptedPc.monoBuffer before.mono now.mono ++
    changesAt ScriptedPc.colorBuffer before.color now.color

end Snapshot

end KernelConsole
