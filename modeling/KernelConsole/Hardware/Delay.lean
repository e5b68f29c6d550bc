import KernelConsole.Hardware.Access

/-!
# Bounded Waiting

A device that is not ready is asked again after a short delay, at most so many
times. The caller goes on either way, so a device that is stuck costs time and
nothing else.

The delay is four reads of the diagnostic register, whose length the bus fixes
and the processor's speed does not.

## Main definitions

* `ioDelay`: One delay.
* `spinUntil`: Asking until ready, with a delay after every refusal.
* `waitForBits`: Waiting for a bit of a status register.
-/

namespace KernelConsole

/-- Burns a fixed amount of time. -/
def ioDelay : Io Unit := do
  let _ ← readReg .diagnostic
  let _ ← readReg .diagnostic
  let _ ← readReg .diagnostic
  let _ ← readReg .diagnostic
  pure ()

/-- Asks `ready` until it says yes, with a delay after every no, at most `limit`
    times. Returns whether it ever said yes. The test may access the hardware and
    keep a state of its own. -/
def spinUntil {τ : Type} (ready : τ → Io (Bool × τ)) : Nat → τ → Io (Bool × τ)
  | 0, t => pure (false, t)
  | limit + 1, t => do
      let (yes, t) ← ready t
      if yes then
        pure (true, t)
      else do
        ioDelay
        spinUntil ready limit t

/-- Waits until one of the bits in `mask` is set in a status register, asking at
    most `limit` times. -/
def waitForBits (limit : UInt32) (r : Register) (mask : UInt8) : Io Unit := do
  let _ ← spinUntil
    (fun () => do
      let status ← readReg r
      pure (status &&& mask != 0, ()))
    limit.toNat ()
  pure ()

end KernelConsole
