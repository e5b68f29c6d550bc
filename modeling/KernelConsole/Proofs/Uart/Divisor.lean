import KernelConsole.Proofs.Uart.Programming

/-!
# The Divisor of a Serial Port

A serial port can be made for settings that nobody has checked. All it asks for is a divisor,
so what it programs into the latch hangs on how the divisor is found, for any speed.

The quotient of the clock and the speed can leave the sixteen bits of the latch at both ends.
Where it is too large a port is refused, which is so for a speed of one alone. Where it is
zero, since the speed is above the clock, the port is made all the same, and programming it
leaves a divisor of zero in the latch. For every speed in between, the divisor is the largest
one that does not slow the line below the speed asked for.

## Main definitions

* `Uart.Latches`: The divisor that programming leaves in the latch.

## Theorems

* `Uart.latches_divisor`: It is the divisor of the driver.
* `Uart.divisor_pos_iff`: For which speeds it is one that a line can run at.
* `Uart.zero_divisor_latched`: A speed above the clock.
-/

namespace KernelConsole

namespace Uart

/-- Programming the UART ends and leaves a divisor in the latch, whatever the devices answer
    and whatever the registers held before. -/
def Latches (u : Uart) (d : Nat) : Prop :=
  ∀ {σ : Type} (bus : Bus σ) (fuel : Nat) (m : σ), ∃ u' events m',
    bus.trace fuel u.init m = .ok (u', events, m') ∧
      ∀ file : UartFile, (file.after u.base events).divisor = d

theorem latches_divisor (u : Uart) : u.Latches u.divisor.toNat := by
  intro σ bus fuel m
  have hprograms : Prog.Traces bus fuel u.init m _ := u.init_traffic m
  rcases hprograms.trace with ⟨u', events, m', hrun, _, htraffic⟩
  refine ⟨u', events, m', hrun, fun file => ?_⟩
  rw [UartFile.after_of_traffic htraffic]
  exact UartFile.divisor_program u file

/-- A serial port is refused for a speed of zero or one, and made for any other. The divisor
    it programs is the quotient of the clock and the speed, and it fits into the latch. It is
    no zero exactly if the speed is not above the clock. -/
theorem divisor_pos_iff (s : Settings) :
    s.baud = 0 ∧ ofSettings s = .error .zeroBaud ∨
      s.baud = 1 ∧ ofSettings s = .error (.baudTooLow 1) ∨
      2 ≤ s.baud.toNat ∧ ∃ u d, ofSettings s = .ok u ∧ u.base = s.uartBase ∧ u.Latches d ∧
        d ≤ 65535 ∧ d * s.baud.toNat ≤ 115200 ∧ 115200 < (d + 1) * s.baud.toNat ∧
        (1 ≤ d ↔ s.baud.toNat ≤ 115200) := by
  have hmade := ofSettings_eq s
  rcases s.divisor_cases with ⟨hzero, hfault⟩ | ⟨hone, hfault⟩ | ⟨hbaud, d, hdivisor, hquotient⟩
  · rw [hfault] at hmade
    exact .inl ⟨hzero, hmade⟩
  · rw [hfault] at hmade
    exact .inr (.inl ⟨hone, hmade⟩)
  · rw [hdivisor] at hmade
    have hpos : 0 < s.baud.toNat := Nat.lt_of_lt_of_le Nat.zero_lt_two hbaud
    refine .inr (.inr ⟨hbaud, _, d.toNat, hmade, rfl, latches_divisor _,
      Nat.le_of_lt_succ d.toNat_lt, ?_, ?_, ?_⟩)
    · rw [hquotient]
      exact Nat.div_mul_le_self _ _
    -- The quotient is the largest with that property, so one more is too much.
    · rw [hquotient, Nat.mul_comm]
      exact Nat.lt_mul_div_succ _ hpos
    · rw [hquotient, Nat.one_le_div_iff hpos]

/-- A speed of twice the clock is not refused, and the latch is left with a zero in it. -/
theorem zero_divisor_latched :
    ∃ u, ofSettings { baud := 230400 } = .ok u ∧ u.Latches 0 :=
  ⟨⟨0x3F8, 0, 12800, false⟩, by decide, latches_divisor ⟨0x3F8, 0, 12800, false⟩⟩

end Uart

end KernelConsole
