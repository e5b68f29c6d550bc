import KernelConsole.Console.Basic

/-!
# Which Settings Are Accepted

The check of the settings goes through six conditions in a fixed order, and reports the
first that is not met. Each condition is stated here by itself, on numbers without a bound:
the quotient of the clock and the speed is not cut to sixteen bits, and the ports of a device
near the end of the port range do not go on at its beginning.

Two of the conditions lean on each other. A quotient that needs more than sixteen bits is
only found once the speed is known to be no zero, and then the speed is one. So what is left
of all six is short: the speed is at least two and divides the clock, a busy device is asked
at least once, and no port is shared.

A console is made for exactly the settings that pass, and is refused for the same fault.
The divisor is looked at twice on the way, and cannot fail the second time.

## Main definitions

* `Settings.UartReaches`, `Settings.PrinterReaches`: Where the devices answer.
* `Settings.Fails`: The condition behind each fault.
* `Settings.checks`, `Settings.firstFault`: The order of the checks, and the first that fails.
* `Settings.CheckedExactly`: What the check finds and what follows from it.

## Theorems

* `Settings.divisor_cases`: The divisor of any speed.
* `Settings.validate_eq_firstFault`: The check reports the first fault.
* `Settings.validate_eq_ok_iff`: Which settings are accepted.
* `Settings.of_validate`: What accepted settings have.
* `Console.ofSettings_eq_error_iff`, `Console.exists_ofSettings_iff`: The same for consoles.
-/

namespace KernelConsole

namespace Settings

/-- The UART answers at a port, where ports go on without an end. -/
def UartReaches (s : Settings) (port : Nat) : Prop :=
  s.uartBase.toNat ≤ port ∧ port < s.uartBase.toNat + 8

/-- The parallel port answers at a port, where ports go on without an end. -/
def PrinterReaches (s : Settings) (port : Nat) : Prop :=
  s.printerBase.toNat ≤ port ∧ port < s.printerBase.toNat + 3

/-- The settings have a fault, whatever other faults they have. -/
def Fails (s : Settings) : Fault → Prop
  | .zeroBaud => s.baud.toNat = 0
  | .baudTooHigh _ => 115200 < s.baud.toNat
  | .inexactBaud _ => ¬s.baud.toNat ∣ 115200
  | .baudTooLow _ => 65535 < 115200 / s.baud.toNat
  | .zeroSpinLimit => s.spinLimit.toNat = 0
  | .portOverlap _ _ => ∃ port, s.UartReaches port ∧ s.PrinterReaches port

/-- The faults in the order they are looked for. -/
def checks (s : Settings) : List Fault :=
  [.zeroBaud, .baudTooHigh s.baud, .inexactBaud s.baud, .baudTooLow s.baud, .zeroSpinLimit,
    .portOverlap s.uartBase s.printerBase]

section Conditions

variable (s : Settings)

/-- The check compares the two ends of the ports, which is whether some port belongs to both
    devices. -/
theorem portsOverlap_iff :
    s.PortsOverlap ↔ s.Fails (.portOverlap s.uartBase s.printerBase) := by
  unfold PortsOverlap Fails UartReaches PrinterReaches uartSpan printerSpan
  constructor
  · intro h
    -- If the ports overlap, the later of the two first ones is in both.
    exact ⟨max s.uartBase.toNat s.printerBase.toNat, by omega, by omega⟩
  · rintro ⟨port, huart, hprinter⟩
    omega

instance : (fault : Fault) → Decidable (s.Fails fault)
  | .zeroBaud => inferInstanceAs (Decidable (_ = _))
  | .baudTooHigh _ => inferInstanceAs (Decidable (_ < _))
  | .inexactBaud _ => inferInstanceAs (Decidable (¬_))
  | .baudTooLow _ => inferInstanceAs (Decidable (_ < _))
  | .zeroSpinLimit => inferInstanceAs (Decidable (_ = _))
  | .portOverlap _ _ => decidable_of_iff _ s.portsOverlap_iff

theorem baud_eq_zero_iff : s.baud = 0 ↔ s.Fails .zeroBaud :=
  UInt32.toNat_inj.symm

theorem clock_lt_iff : uartClock < s.baud ↔ s.Fails (.baudTooHigh s.baud) :=
  UInt32.lt_iff_toNat_lt

theorem rest_ne_zero_iff : uartClock % s.baud ≠ 0 ↔ s.Fails (.inexactBaud s.baud) := by
  refine not_congr ?_
  rw [← UInt32.toNat_inj, UInt32.toNat_mod]
  exact Nat.dvd_iff_mod_eq_zero.symm

theorem spinLimit_eq_zero_iff : s.spinLimit = 0 ↔ s.Fails .zeroSpinLimit :=
  UInt32.toNat_inj.symm

end Conditions

/-- Only for a speed of one the quotient needs more than sixteen bits. -/
theorem fails_baudTooLow_iff {s : Settings} (hzero : ¬s.Fails .zeroBaud) (baud : UInt32) :
    s.Fails (.baudTooLow baud) ↔ s.baud.toNat = 1 := by
  have hpos : 0 < s.baud.toNat := Nat.pos_of_ne_zero hzero
  change 65536 ≤ 115200 / s.baud.toNat ↔ s.baud.toNat = 1
  -- Twice `65536` is more than the clock already.
  rw [Nat.le_div_iff_mul_le hpos]
  omega

/-- For a speed that is not zero, the divisor fails only where it does not fit. -/
theorem divisor_eq {s : Settings} (hzero : ¬s.Fails .zeroBaud) :
    s.divisor = if s.Fails (.baudTooLow s.baud) then .error (.baudTooLow s.baud)
      else .ok (uartClock / s.baud).toUInt16 := by
  have hquotient : (uartClock / s.baud).toNat = 115200 / s.baud.toNat := UInt32.toNat_div _ _
  unfold divisor
  rw [if_neg (mt s.baud_eq_zero_iff.1 hzero)]
  simp only [hquotient]
  by_cases hlow : s.Fails (.baudTooLow s.baud)
  · rw [if_pos hlow, if_neg (Nat.not_lt.2 (Nat.succ_le_of_lt hlow))]
  · rw [if_neg hlow, if_pos (Nat.lt_succ_of_le (Nat.not_lt.1 hlow))]

/-- The divisor of any speed: there is none for zero and one, and for all others it is the
    quotient of the clock and the speed. -/
theorem divisor_cases (s : Settings) :
    s.baud = 0 ∧ s.divisor = .error .zeroBaud ∨
      s.baud = 1 ∧ s.divisor = .error (.baudTooLow 1) ∨
      2 ≤ s.baud.toNat ∧ ∃ d, s.divisor = .ok d ∧ d.toNat = 115200 / s.baud.toNat := by
  by_cases hzero : s.baud = 0
  · exact .inl ⟨hzero, if_pos hzero⟩
  have hnonzero : ¬s.Fails .zeroBaud := mt s.baud_eq_zero_iff.2 hzero
  have hlow := fails_baudTooLow_iff hnonzero s.baud
  rw [divisor_eq hnonzero]
  by_cases hone : s.baud.toNat = 1
  · have hbaud : s.baud = 1 := UInt32.toNat_inj.1 hone
    refine .inr (.inl ⟨hbaud, ?_⟩)
    rw [if_pos (hlow.2 hone), hbaud]
  · have hfits : 115200 / s.baud.toNat ≤ 65535 := Nat.not_lt.1 (mt hlow.1 hone)
    have hbaud : s.baud.toNat ≠ 0 := hnonzero
    -- What fits into sixteen bits is not cut off by them.
    refine .inr (.inr ⟨by omega, _, if_neg (mt hlow.1 hone), ?_⟩)
    rw [UInt32.toNat_toUInt16, UInt32.toNat_div]
    exact Nat.mod_eq_of_lt (Nat.lt_succ_of_le hfits)

/-- The first of some faults that the settings have. -/
def firstFault (s : Settings) (faults : List Fault) : Except Fault Unit :=
  match faults.find? fun fault => s.Fails fault with
  | some fault => .error fault
  | none => .ok ()

/-- The first fault that there is comes before all others. -/
theorem firstFault_cons (s : Settings) (fault : Fault) (rest : List Fault) :
    s.firstFault (fault :: rest) = if s.Fails fault then .error fault else s.firstFault rest := by
  unfold firstFault
  rw [List.find?_cons]
  by_cases hfails : s.Fails fault
  · rw [if_pos hfails, decide_eq_true hfails]
  · rw [if_neg hfails, decide_eq_false hfails]

/-- The check reports the first fault. -/
theorem validate_eq_firstFault (s : Settings) : s.validate = s.firstFault s.checks := by
  unfold validate checks
  simp only [firstFault_cons, baud_eq_zero_iff, clock_lt_iff, rest_ne_zero_iff,
    spinLimit_eq_zero_iff, portsOverlap_iff]
  by_cases hzero : s.Fails .zeroBaud
  · rw [if_pos hzero, if_pos hzero]
  -- The divisor is one of the checks, but only for a speed that is not zero.
  rw [if_neg hzero, if_neg hzero, divisor_eq hzero]
  by_cases hlow : s.Fails (.baudTooLow s.baud)
  · rw [if_pos hlow, if_pos hlow]
  · rw [if_neg hlow, if_neg hlow]
    rfl

/-- The fault that is reported is the first of those looked for that the settings have. -/
theorem validate_eq_error_iff {s : Settings} {fault : Fault} :
    s.validate = .error fault ↔ s.checks.find? (fun fault => s.Fails fault) = some fault := by
  rw [validate_eq_firstFault, firstFault]
  cases s.checks.find? fun fault => s.Fails fault with
  | none => exact ⟨nofun, nofun⟩
  | some first =>
      exact ⟨fun h => congrArg some (Except.error.inj h),
        fun h => congrArg Except.error (Option.some.inj h)⟩

/-- Settings are accepted exactly if they have none of the faults. -/
theorem validate_eq_ok_iff_forall {s : Settings} :
    s.validate = .ok () ↔ ∀ fault ∈ s.checks, ¬s.Fails fault := by
  have hnone : s.checks.find? (fun fault => s.Fails fault) = none ↔
      ∀ fault ∈ s.checks, ¬s.Fails fault := by
    simp only [List.find?_eq_none, decide_eq_true_eq]
  rw [← hnone, validate_eq_firstFault, firstFault]
  cases s.checks.find? fun fault => s.Fails fault with
  | none => exact ⟨fun _ => rfl, fun _ => rfl⟩
  | some first => exact ⟨nofun, nofun⟩

/-- Which settings are accepted. -/
theorem validate_eq_ok_iff {s : Settings} :
    s.validate = .ok () ↔ 2 ≤ s.baud.toNat ∧ s.baud.toNat ∣ 115200 ∧ 1 ≤ s.spinLimit.toNat ∧
      ¬∃ port, s.UartReaches port ∧ s.PrinterReaches port := by
  rw [validate_eq_ok_iff_forall]
  simp only [checks, List.forall_mem_cons]
  constructor
  · rintro ⟨hzero, _, hexact, hlow, hspin, hoverlap, _⟩
    -- A speed of one is exact, and is refused for its divisor.
    have hone := mt (fails_baudTooLow_iff hzero s.baud).2 hlow
    have hbaud : s.baud.toNat ≠ 0 := hzero
    exact ⟨by omega, Decidable.not_not.1 hexact, Nat.pos_of_ne_zero hspin, hoverlap⟩
  · rintro ⟨hbaud, hdvd, hspin, hoverlap⟩
    have hzero : ¬s.Fails .zeroBaud := Nat.ne_of_gt (Nat.lt_of_lt_of_le Nat.zero_lt_two hbaud)
    have hlow := mt (fails_baudTooLow_iff hzero s.baud).1 (Nat.ne_of_gt hbaud)
    -- A divisor of the clock is no larger than the clock.
    exact ⟨hzero, Nat.not_lt.2 (Nat.le_of_dvd (by decide) hdvd), Decidable.not_not.2 hdvd, hlow,
      Nat.ne_of_gt hspin, hoverlap, List.forall_mem_nil _⟩

/-- Settings that pass the check have a divisor that gives their speed exactly, and their
    devices share no port. -/
theorem of_validate {s : Settings} (h : s.validate = .ok ()) :
    ∃ d, s.divisor = .ok d ∧ d.toNat * s.baud.toNat = 115200 ∧ ¬s.PortsOverlap := by
  rcases validate_eq_ok_iff.1 h with ⟨hbaud, hdvd, _, hoverlap⟩
  rcases s.divisor_cases with ⟨hzero, _⟩ | ⟨hone, _⟩ | ⟨_, d, hdivisor, hquotient⟩
  · rw [hzero] at hbaud
    exact absurd hbaud (by decide)
  · rw [hone] at hbaud
    exact absurd hbaud (by decide)
  · refine ⟨d, hdivisor, ?_, mt s.portsOverlap_iff.1 hoverlap⟩
    rw [hquotient]
    exact Nat.div_mul_cancel hdvd

end Settings

theorem Uart.ofSettings_eq (s : Settings) :
    ofSettings s = s.divisor.map fun divisor =>
      { base := s.uartBase, divisor, spinLimit := s.spinLimit, present := false } := by
  unfold ofSettings
  cases s.divisor <;> rfl

namespace Console

/-- A console is refused exactly for the settings that do not pass the check, and for the
    same fault. -/
theorem ofSettings_eq_error_iff {s : Settings} {fault : Settings.Fault} :
    ofSettings s = .error fault ↔ s.validate = .error fault := by
  unfold ofSettings
  cases hvalid : s.validate with
  | error first =>
      exact ⟨fun h => congrArg _ (Except.error.inj h), fun h => congrArg _ (Except.error.inj h)⟩
  | ok _ =>
      -- What is left to fail is the divisor, and the check has looked at it.
      rcases s.of_validate hvalid with ⟨d, hdivisor, _⟩
      rw [Uart.ofSettings_eq, hdivisor]
      exact ⟨nofun, nofun⟩

theorem exists_ofSettings_iff {s : Settings} :
    (∃ c, ofSettings s = .ok c) ↔ s.validate = .ok () := by
  constructor
  · rintro ⟨c, hmade⟩
    exact (ofSettings_eq_ok hmade).1
  · intro hvalid
    cases hmade : ofSettings s with
    | ok c => exact ⟨c, rfl⟩
    | error fault =>
        rw [ofSettings_eq_error_iff.1 hmade] at hvalid
        cases hvalid

end Console

/-- What the check of the settings finds, and what follows from it. -/
structure Settings.CheckedExactly (s : Settings) : Prop where
  /-- Which settings are accepted. -/
  accepted : s.validate = .ok () ↔
    2 ≤ s.baud.toNat ∧ s.baud.toNat ∣ 115200 ∧ 1 ≤ s.spinLimit.toNat ∧
      ¬∃ port, s.UartReaches port ∧ s.PrinterReaches port
  /-- All others are refused for their first fault. -/
  refused : ∀ fault, s.validate = .error fault ↔
    s.checks.find? (fun fault => s.Fails fault) = some fault
  /-- A console is made for the settings that are accepted. -/
  made : (∃ c, Console.ofSettings s = .ok c) ↔ s.validate = .ok ()
  /-- It is refused for the same fault. -/
  notMade : ∀ fault, Console.ofSettings s = .error fault ↔ s.validate = .error fault
  /-- The divisor of settings that are accepted gives their speed exactly. -/
  exactDivisor : s.validate = .ok () → ∃ d, s.divisor = .ok d ∧ d.toNat * s.baud.toNat = 115200

/-- The check does for any settings all that is said of it. -/
theorem Settings.checkedExactly (s : Settings) : s.CheckedExactly where
  accepted := validate_eq_ok_iff
  refused _ := validate_eq_error_iff
  made := Console.exists_ofSettings_iff
  notMade _ := Console.ofSettings_eq_error_iff
  exactDivisor h := by
    rcases s.of_validate h with ⟨d, hdivisor, hexact, _⟩
    exact ⟨d, hdivisor, hexact⟩

end KernelConsole
