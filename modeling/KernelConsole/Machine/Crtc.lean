import Std.Data.TreeMap

/-!
# Display Controllers

A cathode ray tube controller has 256 byte registers behind two ports: the first
selects a register, and the second reads or writes it. A controller is known by
its first port, and every port has one that nobody has written to yet.

Registers 14 and 15 hold the cursor, high byte first.

## Main definitions

* `Crtc`: One controller.
* `CrtcBank`: Controllers by port.
* `CrtcBank.cursor`, `CrtcBank.setCursor`: The cursor of one of them.
-/

namespace KernelConsole

/-- A display controller. -/
structure Crtc where
  /-- The register that the second port stands for. -/
  selected : UInt8
  /-- The registers. -/
  registers : Vector UInt8 256

namespace Crtc

/-- A controller whose registers are all zero. -/
def blank : Crtc := ⟨0, Vector.replicate 256 0⟩

/-- Reads a register. -/
def get (c : Crtc) (index : UInt8) : UInt8 :=
  c.registers.get ⟨index.toNat, UInt8.toNat_lt index⟩

/-- Writes a register. -/
def set (c : Crtc) (index value : UInt8) : Crtc :=
  { c with registers := c.registers.set index.toNat value (UInt8.toNat_lt index) }

end Crtc

/-- Display controllers by their first port. -/
structure CrtcBank where
  /-- The controllers that have been written to. -/
  byPort : Std.TreeMap UInt16 Crtc

namespace CrtcBank

/-- Controllers that nobody has written to. -/
def empty : CrtcBank := ⟨∅⟩

/-- The controller at a port. -/
def get (b : CrtcBank) (port : UInt16) : Crtc :=
  b.byPort.getD port Crtc.blank

/-- Replaces the controller at a port. -/
def set (b : CrtcBank) (port : UInt16) (c : Crtc) : CrtcBank :=
  ⟨b.byPort.insert port c⟩

/-- Selects a register of a controller. -/
def select (b : CrtcBank) (port : UInt16) (index : UInt8) : CrtcBank :=
  b.set port { b.get port with selected := index }

/-- Reads the selected register of a controller. -/
def readSelected (b : CrtcBank) (port : UInt16) : UInt8 :=
  let c := b.get port
  c.get c.selected

/-- Writes the selected register of a controller. -/
def writeSelected (b : CrtcBank) (port : UInt16) (value : UInt8) : CrtcBank :=
  let c := b.get port
  b.set port (c.set c.selected value)

/-- The cursor that a controller shows. -/
def cursor (b : CrtcBank) (port : UInt16) : UInt16 :=
  let c := b.get port
  (c.get 14).toUInt16 <<< 8 ||| (c.get 15).toUInt16

/-- Moves the cursor that a controller shows. -/
def setCursor (b : CrtcBank) (port pos : UInt16) : CrtcBank :=
  b.set port (((b.get port).set 14 (pos >>> 8).toUInt8).set 15 pos.toUInt8)

end CrtcBank

end KernelConsole
