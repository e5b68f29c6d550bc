import KernelConsole.Proofs.Kernel.Units

/-!
# Runs without Device Interrupts

An interrupt of an input device is armed and comes at an access of whatever runs
then. To say that it changes nothing there, a run is compared with one in which no
such interrupt is armed. Where an operation would arm one, the other run does
nothing instead, and what else it arms, or logs, is cleared of them in turn.
Device interrupts that are called and not armed stay.

What is compared is symmetric: two runs are alike if they differ in nothing but
the device interrupts that are armed in them. So what one run hands over to
another goes both ways.

## Main definitions

* `Kernel.Op.isDevice`: The interrupt of an input device.
* `Kernel.Op.undisturbed`, `World.undisturbed`: Without the device interrupts that
  are armed.
* `Kernel.Op.Alike`, `Kernel.AllAlike`: No difference but in them.

## Theorems

* `Kernel.Op.noInit_undisturbed`: Nothing more brings up the console.
* `Kernel.Op.alike_undisturbed`, `Kernel.allAlike_undisturbed`: An operation and a
  world are like themselves without the device interrupts.
* `Kernel.Op.Alike.symm`, `Kernel.AllAlike.symm`: Either of the two may come first.
* `Kernel.AllAlike.append`, `filter`, `recount`: Arming, and counting an access.
-/

namespace KernelConsole

namespace Kernel

variable {σ : Type}

/-- The interrupt of an input device. -/
def Op.isDevice : Op σ → Bool
  | .serialInterrupt | .keyboardInterrupt => true
  | _ => false

/-- A device interrupt brings up no console. -/
theorem noInit_of_isDevice {op : Op σ} (h : op.isDevice = true) : op.NoInit := by
  cases op with
  | serialInterrupt | keyboardInterrupt => trivial
  | _ => cases h

mutual

/-- The operation without the device interrupts that are armed in it. -/
def Op.undisturbed : Op σ → Op σ
  | .arm countdown op =>
      -- Writing no bytes does nothing and returns what arming returns.
      if op.isDevice then .output [] else .arm countdown op.undisturbed
  | .log level target message => .log level target message.undisturbed
  | op => op

/-- The message without the device interrupts that are armed in it. -/
def Message.undisturbed : Message σ → Message σ
  | .done => .done
  | .text piece rest => .text piece rest.undisturbed
  | .code op render rest => .code op.undisturbed render rest.undisturbed

end

/-- The world without the device interrupts that are armed. -/
def World.undisturbed (w : World σ) : World σ :=
  { w with
    armed := (w.armed.filter fun i => !i.op.isDevice).map fun i =>
      { i with op := i.op.undisturbed } }

mutual

/-- Leaving out device interrupts brings up no console that was not brought up before. -/
theorem Op.noInit_undisturbed : ∀ op : Op σ, op.NoInit → op.undisturbed.NoInit
  | .arm countdown op, h => by
      rw [Op.undisturbed]
      by_cases hdevice : op.isDevice = true
      · rw [if_pos hdevice]
        trivial
      · rw [if_neg hdevice]
        exact op.noInit_undisturbed h
  | .log _ _ message, h => message.noInit_undisturbed h
  | .init _, h => h
  | .output _, _ | .input _, _ | .getByte, _ | .readLine _ _, _ | .serialInterrupt, _
  | .keyboardInterrupt, _ | .setColor _ _, _ | .clearScreen, _ | .print _, _
  | .installLogger _, _ | .setFilter _, _ | .logEnabled _, _ | .flushLog, _
  | .flushDeferred, _ | .outside _, _ => trivial

theorem Message.noInit_undisturbed : ∀ message : Message σ, message.NoInit →
    message.undisturbed.NoInit
  | .done, _ => trivial
  | .text _ rest, h => rest.noInit_undisturbed h
  | .code op _ rest, h => ⟨op.noInit_undisturbed h.1, rest.noInit_undisturbed h.2⟩

end

theorem Op.AtTop.undisturbed {op : Op σ} (h : op.AtTop) : op.undisturbed.AtTop := by
  rcases h with ⟨settings, rfl⟩ | hnoInit
  · exact .inl ⟨settings, rfl⟩
  · exact .inr (op.noInit_undisturbed hnoInit)

theorem World.NoInit.undisturbed {w : World σ} (h : w.NoInit) : w.undisturbed.NoInit := by
  intro i hi
  rcases List.mem_map.1 hi with ⟨j, hj, rfl⟩
  exact j.op.noInit_undisturbed (h j (List.mem_of_mem_filter hj))

mutual

/-- The operations differ in nothing but device interrupts that are armed in one of
    them. -/
inductive Op.Alike : Op σ → Op σ → Prop
  | same (op : Op σ) : Op.Alike op op
  | arm {countdown : Nat} {op op' : Op σ} : Op.Alike op op' →
      Op.Alike (.arm countdown op) (.arm countdown op')
  /-- The first one arms a device interrupt, and the second does nothing. -/
  | fewer {countdown : Nat} {op : Op σ} : op.isDevice = true →
      Op.Alike (.arm countdown op) (.output [])
  /-- The second one arms a device interrupt, and the first does nothing. -/
  | more {countdown : Nat} {op : Op σ} : op.isDevice = true →
      Op.Alike (.output []) (.arm countdown op)
  | log {level : Level} {target : String} {message message' : Message σ} :
      Message.Alike message message' →
      Op.Alike (.log level target message) (.log level target message')

/-- The same of messages. -/
inductive Message.Alike : Message σ → Message σ → Prop
  | done : Message.Alike .done .done
  | text {piece : String} {rest rest' : Message σ} : Message.Alike rest rest' →
      Message.Alike (.text piece rest) (.text piece rest')
  | code {op op' : Op σ} {render : Result → String} {rest rest' : Message σ} :
      Op.Alike op op' → Message.Alike rest rest' →
      Message.Alike (.code op render rest) (.code op' render rest')

end

mutual

/-- To be alike goes both ways. -/
theorem Op.Alike.symm : ∀ {op op' : Op σ}, op.Alike op' → op'.Alike op
  | _, _, .same op => .same op
  | _, _, .arm h => .arm h.symm
  | _, _, .fewer h => .more h
  | _, _, .more h => .fewer h
  | _, _, .log h => .log h.symm

theorem Message.Alike.symm : ∀ {message message' : Message σ}, message.Alike message' →
    message'.Alike message
  | _, _, .done => .done
  | _, _, .text h => .text h.symm
  | _, _, .code hop h => .code hop.symm h.symm

end

/-- A message is like itself, and so is what runs in it. -/
theorem Message.alike_refl : ∀ message : Message σ, message.Alike message
  | .done => .done
  | .text _ rest => .text rest.alike_refl
  | .code op _ rest => .code (.same op) rest.alike_refl

mutual

/-- An operation is like the one without its device interrupts. -/
theorem Op.alike_undisturbed : ∀ op : Op σ, op.Alike op.undisturbed
  | .arm countdown op => by
      rw [Op.undisturbed]
      by_cases hdevice : op.isDevice = true
      · rw [if_pos hdevice]
        exact .fewer hdevice
      · rw [if_neg hdevice]
        exact .arm op.alike_undisturbed
  | .log _ _ message => .log message.alike_undisturbed
  | .init _ | .output _ | .input _ | .getByte | .readLine _ _ | .serialInterrupt
  | .keyboardInterrupt | .setColor _ _ | .clearScreen | .print _ | .installLogger _
  | .setFilter _ | .logEnabled _ | .flushLog | .flushDeferred | .outside _ => .same _

theorem Message.alike_undisturbed : ∀ message : Message σ, message.Alike message.undisturbed
  | .done => .done
  | .text _ rest => .text rest.alike_undisturbed
  | .code op _ rest => .code op.alike_undisturbed rest.alike_undisturbed

end

/-- The interrupts that are armed differ in nothing but those of devices, and in what
    is armed in them in turn. -/
inductive AllAlike : List (Armed σ) → List (Armed σ) → Prop
  | nil : AllAlike [] []
  | both {countdown : Nat} {op op' : Op σ} {l l' : List (Armed σ)} : op.Alike op' →
      AllAlike l l' → AllAlike (⟨countdown, op⟩ :: l) (⟨countdown, op'⟩ :: l')
  /-- Only on the first side a device interrupt is armed. -/
  | fewer {i : Armed σ} {l l' : List (Armed σ)} : i.op.isDevice = true → AllAlike l l' →
      AllAlike (i :: l) l'
  /-- Only on the second side a device interrupt is armed. -/
  | more {i : Armed σ} {l l' : List (Armed σ)} : i.op.isDevice = true → AllAlike l l' →
      AllAlike l (i :: l')

theorem AllAlike.symm {l l' : List (Armed σ)} (h : AllAlike l l') : AllAlike l' l := by
  induction h with
  | nil => exact .nil
  | both hop _ ih => exact .both hop.symm ih
  | fewer hdevice _ ih => exact .more hdevice ih
  | more hdevice _ ih => exact .fewer hdevice ih

/-- A world is like the one without its device interrupts. -/
theorem allAlike_undisturbed (w : World σ) : AllAlike w.armed w.undisturbed.armed := by
  unfold World.undisturbed
  induction w.armed with
  | nil => exact .nil
  | cons i rest ih =>
      by_cases hdevice : i.op.isDevice = true
      · -- This one is left out, so it is on the first side alone.
        rw [List.filter_cons_of_neg (by rw [hdevice]; exact nofun)]
        exact .fewer hdevice ih
      · rw [List.filter_cons_of_pos (by rw [Bool.eq_false_iff.2 hdevice]; rfl)]
        exact .both i.op.alike_undisturbed ih

/-- Lists of interrupts that are alike may be put together. -/
theorem AllAlike.append {l l' k k' : List (Armed σ)} (hl : AllAlike l l') (hk : AllAlike k k') :
    AllAlike (l ++ k) (l' ++ k') := by
  induction hl with
  | nil => exact hk
  | both hop _ ih => exact .both hop ih
  | fewer hdevice _ ih => exact .fewer hdevice ih
  | more hdevice _ ih => exact .more hdevice ih

theorem AllAlike.filter {l l' : List (Armed σ)} (h : AllAlike l l') (p : Nat → Bool) :
    AllAlike (l.filter fun i => p i.countdown) (l'.filter fun i => p i.countdown) := by
  induction h with
  | nil => exact .nil
  | both hop _ ih =>
      simp only [List.filter_cons]
      -- An interrupt that is on both sides is due on both or on neither.
      split
      · exact .both hop ih
      · exact ih
  | fewer hdevice _ ih =>
      rw [List.filter_cons]
      split
      · exact .fewer hdevice ih
      · exact ih
  | more hdevice _ ih =>
      rw [List.filter_cons]
      split
      · exact .more hdevice ih
      · exact ih

theorem AllAlike.recount {l l' : List (Armed σ)} (h : AllAlike l l') (f : Nat → Nat) :
    AllAlike (l.map fun i => { i with countdown := f i.countdown })
      (l'.map fun i => { i with countdown := f i.countdown }) := by
  induction h with
  | nil => exact .nil
  | both hop _ ih => exact .both hop ih
  | fewer hdevice _ ih => exact .fewer hdevice ih
  | more hdevice _ ih => exact .more hdevice ih

end Kernel

end KernelConsole
