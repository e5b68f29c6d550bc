import KernelConsole.Proofs.Console.Steps
import KernelConsole.Proofs.Drivers

/-!
# What a Console Transmits

The bytes that a console sends over its serial port, for whoever answers its
requests. The answers may come from hardware, or from a kernel that lets an
interrupt run before each. All that matters is that the one who answers counts
the bytes it is given, and that this can be done in every state the console is
left in.

## Main definitions

* `Access.sends`: The byte that an access sends.
* `Hears`: Whoever answers counts what is sent, in states of a kind.
* `LineBuffer.echoes`: What is echoed of the bytes that edit a line.
* `LineBuffer.Dialogue`: What is sent while a line is read.

## Theorems

* `Hears.quiet`: A program that does not send.
* `Hears.output`, `Hears.writeBytes`, `Hears.flushInto`: Output sends its bytes.
* `Hears.init`: What is sent while the console is brought up.
* `Hears.readLine`: A line is read in one dialogue.
-/

namespace KernelConsole

open Prog

/-- The byte that an access sends over the serial port. -/
def Access.sends : Access → List UInt8
  | .writeReg (.uart _ .transmit) byte => [byte]
  | _ => []

/-- The requests that send nothing. -/
def Silent : Reporting.Request → Prop := Reporting.Within fun a => a.sends = []

/-- Whoever answers counts in `sent` what is sent, and keeps the state as `K`
    says. -/
structure Hears {S : Type} (h : Handler Reporting S) (K : S → Prop) (sent : S → List UInt8) :
    Prop where
  /-- An access adds the byte that it sends. -/
  access : ∀ a s v s', K s → h (.access a) s = .ok (v, s') → K s' ∧ sent s' = sent s ++ a.sends
  /-- A report adds nothing. -/
  report : ∀ r s v s', K s → h (.report r) s = .ok (v, s') → K s' ∧ sent s' = sent s

theorem looks_silent : Looks fun a => a.sends = [] where
  uart _ _ := rfl
  keyboardStatus _ := rfl
  keyboardData _ := rfl
  reset _ := rfl

namespace LineBuffer

/-- What is echoed of a byte that edits a line. -/
def echo (b : LineBuffer) (byte : UInt8) : List UInt8 :=
  match b.editFor byte with
  | .erase => [0x08]
  | .finish => [0x0A]
  | .append _ => [byte]
  | .ignore => []

/-- What is echoed of the bytes that edit a line, one after the other. -/
def echoes (b : LineBuffer) : List UInt8 → List UInt8
  | [] => []
  | byte :: rest => b.echo byte ++ (b.after byte).echoes rest

theorem echoes_append (b : LineBuffer) (xs ys : List UInt8) :
    b.echoes (xs ++ ys) = b.echoes xs ++ (xs.foldl after b).echoes ys := by
  induction xs generalizing b with
  | nil => rfl
  | cons x rest ih => simp only [List.cons_append, echoes, ih, List.append_assoc, List.foldl_cons]

/-- A byte asks for the end of the line if and only if it ends lines. -/
theorem isEnd_of_editFor (b : LineBuffer) (byte : UInt8) :
    match b.editFor byte with
    | .finish => isEnd byte = true
    | _ => isEnd byte = false := by
  unfold editFor
  by_cases herase : (isErase byte && decide (0 < b.length)) = true
  · rw [if_pos herase]
    rw [Bool.and_eq_true, isErase, Bool.or_eq_true, beq_iff_eq, beq_iff_eq] at herase
    -- Neither of the bytes that take one back ends a line.
    rcases herase.1 with rfl | rfl <;> rfl
  · rw [if_neg herase]
    by_cases hend : isEnd byte = true
    · rw [if_pos hend]
      exact hend
    · rw [if_neg hend]
      by_cases hroom : isPrintable byte = true ∧ b.HasRoom
      · rw [dif_pos hroom]
        exact Bool.eq_false_iff.2 hend
      · rw [dif_neg hroom]
        exact Bool.eq_false_iff.2 hend

/-- What is sent while a line is read into a buffer after a prompt: the prompt, the
    echo of the bytes that edit the line, and a newline for the one that ends
    it. -/
def Dialogue (prompt : Option String) (buffer : Array UInt8) (result : LineBuffer)
    (bytes : List UInt8) : Prop :=
  ∃ keys : List UInt8, (∀ key ∈ keys, isEnd key = false) ∧
    result = keys.foldl after (ofBytes buffer) ∧
    bytes = prompt.elim [] utf8 ++ (ofBytes buffer).echoes keys ++ [0x0A]

end LineBuffer

namespace Hears

variable {S : Type} {h : Handler Reporting S} {K : S → Prop} {sent : S → List UInt8} {fuel : Nat}

theorem quiet (hears : Hears h K sent) {α : Type} {p : LoggedIo α} (hp : p.Only Silent) {s : S}
    (hs : K s) : p.Ensures h fuel s fun _ s' => K s' ∧ sent s' = sent s := by
  refine Only.ensures (K := fun t => K t ∧ sent t = sent s) ?_ hp ⟨hs, rfl⟩
  intro r hr t ⟨ht, hsent⟩ v t' hreply
  cases r with
  | access a =>
      rcases hears.access a t v t' ht hreply with ⟨hk, hadd⟩
      have hnone : a.sends = [] := hr
      rw [hnone, List.append_nil] at hadd
      exact ⟨hk, hadd.trans hsent⟩
  | report r =>
      rcases hears.report r t v t' ht hreply with ⟨hk, hadd⟩
      exact ⟨hk, hadd.trans hsent⟩

theorem transmit (hears : Hears h K sent) (u : Uart) (byte : UInt8) {s : S} (hs : K s) :
    (u.transmit byte).unreported.Ensures h fuel s fun _ s' =>
      K s' ∧ sent s' = sent s ++ [byte] := by
  rw [Uart.transmit, Prog.unreported, interpret_bind]
  refine ensures_bind (ensures_mono (hears.quiet
    (waitForBits_only (P := fun a => a.sends = []) rfl rfl _ _).unreported hs)
    fun _ s₁ hwait => ?_)
  rcases hwait with ⟨hs₁, hsent⟩
  -- The wait is over, and one write is left.
  refine ensures_call fun v s₂ hreply => ensures_done ?_
  rw [← hsent]
  exact hears.access _ _ _ _ hs₁ hreply

/-- Writing a byte sends it once. The printer and the screen send nothing. -/
theorem output (hears : Hears h K sent) (c : Console) (byte : UInt8) {s : S} (hs : K s) :
    (c.output byte).unreported.Ensures h fuel s fun c' s' =>
      c'.uart = c.uart ∧ K s' ∧ sent s' = sent s ++ [byte] := by
  rw [Console.output, Prog.unreported, interpret_bind]
  refine ensures_bind (ensures_mono (hears.transmit c.uart byte hs) fun _ s₁ huart => ?_)
  rcases huart with ⟨hs₁, hsent₁⟩
  rw [interpret_bind]
  refine ensures_bind (ensures_mono (hears.quiet (Printer.transmit_only
    (P := fun a => a.sends = []) (H := fun _ => True) rfl rfl (fun _ => rfl) (fun _ => rfl)
    byte).unreported hs₁)
    fun _ s₂ hprinter => ?_)
  rcases hprinter with ⟨hs₂, hsent₂⟩
  rw [interpret_bind]
  refine ensures_bind (ensures_mono (hears.quiet (Screen.putChar_only
    (P := fun a => a.sends = []) (H := fun _ => True) trivial (fun _ => rfl) (fun _ _ => rfl)
    (fun _ _ => rfl) (fun _ _ => rfl) c.screen byte).unreported hs₂) fun screen s₃ hscreen => ?_)
  rcases hscreen with ⟨hs₃, hsent₃⟩
  refine ensures_pure ⟨rfl, hs₃, ?_⟩
  rw [hsent₃, hsent₂, hsent₁]

/-- Writing bytes sends them in order. -/
theorem writeBytes (hears : Hears h K sent) (bytes : List UInt8) (c : Console) {s : S}
    (hs : K s) :
    (c.writeBytes bytes).unreported.Ensures h fuel s fun c' s' =>
      c'.uart = c.uart ∧ K s' ∧ sent s' = sent s ++ bytes := by
  induction bytes generalizing c s with
  | nil => exact ensures_pure ⟨rfl, hs, (List.append_nil _).symm⟩
  | cons byte rest ih =>
      rw [Console.writeBytes, Prog.unreported, interpret_bind]
      refine ensures_bind (ensures_mono (hears.output c byte hs) fun c₁ s₁ hbyte => ?_)
      rcases hbyte with ⟨huart₁, hs₁, hsent₁⟩
      refine ensures_mono (ih c₁ hs₁) fun c₂ s₂ hrest => ?_
      rcases hrest with ⟨huart₂, hs₂, hsent₂⟩
      refine ⟨huart₂.trans huart₁, hs₂, ?_⟩
      rw [hsent₂, hsent₁, List.append_assoc]
      rfl

/-- Writing out a backlog sends what is in it, and leaves it empty. -/
theorem flushInto (hears : Hears h K sent) (b : Backlog) (c : Console) {s : S} (hs : K s) :
    (b.flushInto c).unreported.Ensures h fuel s fun v s' =>
      v.1 = ⟨b.pending.drain.2⟩ ∧ v.2.uart = c.uart ∧ K s' ∧
        sent s' = sent s ++ b.pending.contents := by
  rw [Backlog.flushInto_eq, Prog.unreported, interpret_bind]
  refine ensures_bind (ensures_mono (hears.writeBytes b.pending.contents c hs)
    fun _ s₁ hbytes => ?_)
  rcases hbytes with ⟨huart, hs₁, hsent₁⟩
  exact ensures_pure ⟨rfl, huart, hs₁, hsent₁⟩

/-- While the console is brought up nothing is sent, unless no serial port answers;
    then that is said. -/
theorem init (hears : Hears h K sent) (c : Console) {s : S} (hs : K s) :
    c.init.Ensures h fuel s fun c' s' => K s' ∧
      sent s' = sent s ++ (if c'.uart.present then [] else utf8 Console.serialMissingText) := by
  unfold Console.init
  refine ensures_bind (ensures_mono (hears.quiet (Screen.init_only
    (P := fun a => a.sends = []) (fun _ => rfl) (fun _ _ => rfl) (fun _ _ => rfl)
    (fun _ => rfl) _) hs) fun screen s₁ ⟨hs₁, hsent₁⟩ => ?_)
  refine ensures_bind (ensures_mono (hears.quiet
    (Console.keyboardInterrupt_only looks_silent _) hs₁) fun c₂ s₂ ⟨hs₂, hsent₂⟩ => ?_)
  refine ensures_bind (ensures_mono (hears.quiet (Uart.init_only
    (P := fun a => a.sends = []) ?_ (fun _ => rfl)).unreported hs₂)
    fun uart s₃ ⟨hs₃, hsent₃⟩ => ?_)
  · intro r value hr
    cases r with
    | transmit => exact absurd rfl hr
    | _ => rfl
  by_cases hpresent : uart.present = true
  · simp only [if_pos hpresent]
    refine ensures_pure ⟨hs₃, ?_⟩
    rw [if_pos hpresent, List.append_nil, hsent₃, hsent₂, hsent₁]
  · simp only [if_neg hpresent]
    refine ensures_bind (ensures_mono (hears.quiet (report_only _ _ _) hs₃)
      fun _ s₄ ⟨hs₄, hsent₄⟩ => ?_)
    refine ensures_mono (hears.writeBytes (utf8 Console.serialMissingText) _ hs₄)
      fun c₅ s₅ ⟨huart₅, hs₅, hsent₅⟩ => ⟨hs₅, ?_⟩
    rw [huart₅, if_neg hpresent, hsent₅, hsent₄, hsent₃, hsent₂, hsent₁]

/-- A byte that edits a line sends its echo, and one that ends the line a
    newline. -/
theorem edit (hears : Hears h K sent) (c : Console) (b : LineBuffer) (byte : UInt8) {s : S}
    (hs : K s) :
    (c.edit b byte).unreported.Ensures h fuel s fun v s' => K s' ∧
      v.elim
        (fun w => LineBuffer.isEnd byte = false ∧ w.2 = b.after byte ∧
          sent s' = sent s ++ b.echo byte)
        (fun w => LineBuffer.isEnd byte = true ∧ w.2 = b ∧ sent s' = sent s ++ [0x0A]) := by
  have hend := b.isEnd_of_editFor byte
  unfold Console.edit LineBuffer.after LineBuffer.echo
  cases hedit : b.editFor byte with
  -- Nothing is echoed. In all other cases one byte is.
  | ignore =>
      rw [hedit] at hend
      exact ensures_pure ⟨hs, hend, rfl, (List.append_nil _).symm⟩
  | _ =>
      rw [hedit] at hend
      rw [Prog.unreported, interpret_bind]
      refine ensures_bind (ensures_mono (hears.output c _ hs) fun _ s₁ hbyte => ?_)
      rcases hbyte with ⟨_, hs₁, hsent₁⟩
      exact ensures_pure ⟨hs₁, hend, rfl, hsent₁⟩

/-- What is sent while a line is read is one dialogue: the prompt, the echo of the
    bytes that edit the line, and a newline. -/
theorem readLine (hears : Hears h K sent) (c : Console) (prompt : Option String)
    (buffer : Array UInt8) {s : S} (hs : K s) :
    (c.readLine prompt buffer).Ensures h fuel s fun v s' => K s' ∧
      ∃ bytes, LineBuffer.Dialogue prompt buffer v.1 bytes ∧ sent s' = sent s ++ bytes := by
  have hprompt : (c.writePrompt prompt).unreported.Ensures h fuel s fun _ s' =>
      K s' ∧ sent s' = sent s ++ prompt.elim [] utf8 := by
    cases prompt with
    | none => exact ensures_pure ⟨hs, (List.append_nil _).symm⟩
    | some text =>
        exact ensures_mono (hears.writeBytes (utf8 text) c hs) fun _ _ ⟨_, h⟩ => h
  unfold Console.readLine
  refine ensures_bind (ensures_mono hprompt fun c₁ s₁ ⟨hs₁, hsent₁⟩ => ensures_bind ?_)
  -- Between two bytes, what was sent is the prompt and the echo of the bytes so far.
  refine ensures_iterate (Q := fun v s' => Prog.Ensures _ _ _ s' _)
    (fun v s' => K s' ∧ ∃ keys : List UInt8, (∀ key ∈ keys, LineBuffer.isEnd key = false) ∧
      v.2 = keys.foldl LineBuffer.after (LineBuffer.ofBytes buffer) ∧
      sent s' = sent s ++ (prompt.elim [] utf8 ++ (LineBuffer.ofBytes buffer).echoes keys))
    ⟨hs₁, [], nofun, rfl, hsent₁.trans (congrArg _ (List.append_nil _).symm)⟩
    fun ⟨d, b⟩ t ⟨ht, keys, hkeys, hline, hsent⟩ => ?_
  refine ensures_bind (ensures_mono (hears.quiet (Console.blockingRead_only looks_silent d) ht)
    fun ⟨byte, d'⟩ t₁ ⟨ht₁, hsame⟩ => ?_)
  refine ensures_mono (hears.edit d' b byte ht₁) fun v t₂ ⟨ht₂, hedit⟩ => ?_
  rw [hsame, hsent] at hedit
  cases v with
  -- The byte has edited the line, and is one of the keys from now on.
  | inl w =>
      rcases hedit with ⟨hopen, hafter, hecho⟩
      refine ⟨ht₂, keys ++ [byte], ?_, ?_, ?_⟩
      · intro key hkey
        rcases List.mem_append.1 hkey with hold | hnew
        · exact hkeys key hold
        · rw [List.mem_singleton.1 hnew]
          exact hopen
      · rw [List.foldl_append, ← hline]
        exact hafter
      · rw [hecho, LineBuffer.echoes_append, ← hline]
        simp only [LineBuffer.echoes, List.append_nil, List.append_assoc]
  -- The byte has ended the line, and a newline is the last that is sent.
  | inr w =>
      rcases hedit with ⟨_, hsameLine, hnewline⟩
      refine ensures_pure ⟨ht₂, _, ⟨keys, hkeys, hsameLine.trans hline, rfl⟩, ?_⟩
      rw [hnewline]
      simp only [List.append_assoc]

end Hears

end KernelConsole
