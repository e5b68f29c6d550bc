import KernelConsole.Proofs.Console.Transmission

/-!
# Uses of a Console

What whoever holds a console does with it: write, read, choose a color, or look at
an input device. Each of these is a driver that is given the console and gives it
back, and the code around it is the same for all. So what has to be known of a
driver is proved once, and goes with it from there: for which cause it does not
halt, that its runs are paths, and what it sends.

## Main definitions

* `Console.Use`: A driver of a console with what is known of it.
* `Console.Use.acting`: A driver that returns nothing but the console.
* `Console.Use.output`, `print`, `clearScreen`, `setColor`: Writing.
* `Console.Use.input`, `blockingRead`, `readLine`: Reading.
* `Console.Use.serialInterrupt`, `keyboardInterrupt`: Looking at an input device.
* `Console.Use.AllWrite`: What several uses return and write.

## Theorems

* `Console.Use.AllWrite.texts_eq`, `Console.Use.AllWrite.texts_replicate`: Uses of which it
  is known beforehand what they write.
-/

namespace KernelConsole

namespace Console

open Prog

/-- A driver of a console with what is known of it. -/
structure Use (α : Type) where
  /-- The driver. -/
  drive : Console → LoggedIo (α × Console)
  /-- What it writes of its own and in one piece, if anything, given what it returns. -/
  Writes : α → Option (List UInt8) → Prop
  /-- It waits for no lock. -/
  drive_only : ∀ c, (drive c).Only (Reporting.Within fun _ => True) (· ≠ .deadlock)
  /-- Its runs are paths of the console. -/
  drive_path : ∀ {σ : Type} {hw : Handler Hardware σ} {fuel : Nat} (c : Console)
    (s : (σ × List Event) × List Record), (drive c).Ensures hw.observed fuel s fun v s' =>
      ∃ as, Path hw fuel (c, s) as (v.2, s')
  /-- It sends what it writes of its own, and nothing else. -/
  drive_sends : ∀ {S : Type} {h : Handler Reporting S} {K : S → Prop} {sent : S → List UInt8}
    {fuel : Nat}, Hears h K sent → ∀ (c : Console) {s : S}, K s →
      (drive c).Ensures h fuel s fun v s' =>
        K s' ∧ ∃ own, Writes v.1 own ∧ sent s' = sent s ++ own.getD []

namespace Use

/-- A driver that returns nothing but the console. What it writes is known beforehand. -/
def acting (act : Console → LoggedIo Console) (text? : Option (List UInt8))
    (act_only : ∀ c, (act c).Only (Reporting.Within fun _ => True) (· ≠ .deadlock))
    (act_path : ∀ {σ : Type} {hw : Handler Hardware σ} {fuel : Nat} (c : Console)
      (s : (σ × List Event) × List Record), (act c).Ensures hw.observed fuel s fun c' s' =>
        ∃ as, Path hw fuel (c, s) as (c', s'))
    (act_sends : ∀ {S : Type} {h : Handler Reporting S} {K : S → Prop} {sent : S → List UInt8}
      {fuel : Nat}, Hears h K sent → ∀ (c : Console) {s : S}, K s →
        (act c).Ensures h fuel s fun _ s' => K s' ∧ sent s' = sent s ++ text?.getD []) :
    Use Unit where
  drive c := do
    let c ← act c
    pure ((), c)
  Writes _ own := own = text?
  drive_only c := Only.bind (act_only c) fun _ => Only.pure
  drive_path c s := ensures_bind (ensures_mono (act_path c s) fun _ _ h => ensures_pure h)
  drive_sends hears c _ hs := ensures_bind (ensures_mono (act_sends hears c hs)
    fun _ _ ⟨hs', hsent⟩ => ensures_pure ⟨hs', text?, rfl, hsent⟩)

/-- A driver that only makes accesses which send nothing sends nothing. -/
theorem sends_nothing {S α : Type} {h : Handler Reporting S} {K : S → Prop}
    {sent : S → List UInt8} {fuel : Nat} (hears : Hears h K sent) {p : LoggedIo α}
    (hp : p.Only Silent) {s : S} (hs : K s) :
    p.Ensures h fuel s
      fun _ s' => K s' ∧ sent s' = sent s ++ (none : Option (List UInt8)).getD [] :=
  ensures_mono (hears.quiet hp hs) fun _ _ ⟨hs', hsent⟩ =>
    ⟨hs', hsent.trans (List.append_nil _).symm⟩

/-- Writing a byte to every device. -/
def output (byte : UInt8) : Use Unit :=
  acting (fun c => (c.output byte).unreported) (some [byte])
    (fun c => (c.output_only writes_without_deadlock byte).unreported)
    (fun c s => ensures_mono (output_path c byte s) fun _ _ h => ⟨_, h⟩)
    (fun hears c _ hs => ensures_mono (hears.output c byte hs) fun _ _ ⟨_, h⟩ => h)

/-- Writing a text to every device. -/
def print (text : String) : Use Unit :=
  acting (fun c => (c.writeText text).unreported) (some (utf8 text))
    (fun c => (writeBytes_only writes_without_deadlock (utf8 text) c).unreported)
    (fun c s => ensures_mono (writeBytes_path (utf8 text) c s) fun _ _ h => h.imp fun _ => And.left)
    (fun hears c _ hs => ensures_mono (hears.writeBytes (utf8 text) c hs) fun _ _ ⟨_, h⟩ => h)

theorem clearScreen_silent (c : Console) : c.clearScreen.unreported.Only Silent :=
  Only.unreported (Only.bind (Screen.clear_only (fun _ _ => rfl) (fun _ _ => rfl) (fun _ _ => rfl)
    c.screen) fun _ => Only.pure)

/-- Blanking the screen. -/
def clearScreen : Use Unit :=
  acting (fun c => c.clearScreen.unreported) none
    (fun c => (clearScreen_only writes_without_deadlock c).unreported)
    (fun _ _ _ _ hrun => ⟨[.work], .cons (.work .clearScreen hrun) (.nil _)⟩)
    (fun hears c _ hs => sends_nothing hears (clearScreen_silent c) hs)

/-- Choosing how the next characters are drawn. -/
def setColor (foreground background : Color) : Use Unit :=
  acting (fun c => pure (c.setColor foreground background)) none (fun _ => Only.pure)
    (fun _ _ _ _ hrun =>
      ⟨[.work], .cons (.work (.setColor foreground background) hrun) (.nil _)⟩)
    (fun hears _ _ hs => sends_nothing hears Only.pure hs)

/-- Looking at the serial port. -/
def serialInterrupt : Use Unit :=
  acting (fun c => c.serialInterrupt.unreported) none
    (fun c => (c.serialInterrupt_only looks_true).unreported)
    (fun c s => ensures_unreported (ensures_mono (serialInterrupt_path c s.1 s.2)
      fun _ _ h => h.imp fun _ => And.left))
    (fun hears c _ hs => sends_nothing hears (c.serialInterrupt_only looks_silent).unreported hs)

/-- Looking at the keyboard. -/
def keyboardInterrupt : Use Unit :=
  acting (fun c => c.keyboardInterrupt) none (keyboardInterrupt_only looks_true)
    (fun c s => ensures_mono (keyboardInterrupt_path c s) fun _ _ h => h.imp fun _ => And.left)
    (fun hears c _ hs => sends_nothing hears (keyboardInterrupt_only looks_silent c) hs)

/-- Taking the oldest byte. -/
def input : Use (Option UInt8) where
  drive := Console.input
  Writes _ own := own = none
  drive_only := input_only looks_true
  drive_path c s := ensures_mono (input_path c s) fun _ _ ⟨_, h, _⟩ => ⟨_, h⟩
  drive_sends hears c _ hs := ensures_mono (sends_nothing hears (input_only looks_silent c) hs)
    fun _ _ ⟨hs', hsent⟩ => ⟨hs', none, rfl, hsent⟩

/-- Waiting for a byte. -/
def blockingRead : Use UInt8 where
  drive := Console.blockingRead
  Writes _ own := own = none
  drive_only := blockingRead_only looks_true
  drive_path c s := ensures_mono (blockingRead_path c s) fun _ _ ⟨_, _, h, _⟩ => ⟨_, h⟩
  drive_sends hears c _ hs :=
    ensures_mono (sends_nothing hears (blockingRead_only looks_silent c) hs)
      fun _ _ ⟨hs', hsent⟩ => ⟨hs', none, rfl, hsent⟩

/-- Reading a line into a buffer. -/
def readLine (prompt : Option String) (buffer : Array UInt8) : Use LineBuffer where
  drive c := c.readLine prompt buffer
  Writes line own := ∃ bytes, LineBuffer.Dialogue prompt buffer line bytes ∧ own = some bytes
  drive_only c := readLine_only looks_true writes_without_deadlock c prompt buffer
  drive_path c s :=
    ensures_mono (readLine_path c prompt buffer s) fun _ _ h => h.imp fun _ => And.left
  drive_sends hears c _ hs := ensures_mono (hears.readLine c prompt buffer hs)
    fun _ _ ⟨hs', bytes, hdialogue, hsent⟩ => ⟨hs', some bytes, ⟨bytes, hdialogue, rfl⟩, hsent⟩

/-- What several uses return and write of their own: nothing if there is no console, and
    what each of them may if there is one. -/
inductive AllWrite {α : Type} (installed : Bool) :
    List (Use α) → List (Option α) → List (Option (List UInt8)) → Prop
  | nil : AllWrite installed [] [] []
  | used {use : Use α} {uses : List (Use α)} {a : α} {values : List (Option α)}
      {own : Option (List UInt8)} {texts : List (Option (List UInt8))} :
      installed = true → use.Writes a own → AllWrite installed uses values texts →
      AllWrite installed (use :: uses) (some a :: values) (own :: texts)
  | absent {use : Use α} {uses : List (Use α)} {values : List (Option α)}
      {texts : List (Option (List UInt8))} :
      installed = false → AllWrite installed uses values texts →
      AllWrite installed (use :: uses) (none :: values) (none :: texts)

/-- The first use and the others. -/
theorem AllWrite.cons {α : Type} {installed : Bool} {use : Use α} {uses : List (Use α)}
    {a : Option α} {values : List (Option α)} {own : Option (List UInt8)}
    {texts : List (Option (List UInt8))} (h : AllWrite installed [use] [a] [own])
    (hrest : AllWrite installed uses values texts) :
    AllWrite installed (use :: uses) (a :: values) (own :: texts) := by
  cases h with
  | used hyes hown _ => exact .used hyes hown hrest
  | absent hno _ => exact .absent hno hrest

/-- Uses of which it is known beforehand what they write, write that or nothing. -/
theorem AllWrite.texts_eq {α β : Type} {installed : Bool} (f : β → Use α)
    (text? : β → Option (List UInt8)) (hf : ∀ x a own, (f x).Writes a own → own = text? x)
    (xs : List β) {values : List (Option α)} {texts : List (Option (List UInt8))}
    (h : AllWrite installed (xs.map f) values texts) :
    texts = xs.map fun x => if installed then text? x else none := by
  induction xs generalizing values texts with
  | nil =>
      cases h
      rfl
  | cons x rest ih =>
      cases h with
      | used hyes hown hrest => rw [hf x _ _ hown, ih hrest, List.map_cons, if_pos hyes]
      | absent hno hrest =>
          rw [ih hrest, List.map_cons, if_neg]
          exact Bool.eq_false_iff.1 hno

/-- The same use so many times. -/
theorem AllWrite.texts_replicate {α : Type} {installed : Bool} {use : Use α}
    {text? : Option (List UInt8)} (huse : ∀ a own, use.Writes a own → own = text?) (n : Nat)
    {values : List (Option α)} {texts : List (Option (List UInt8))}
    (h : AllWrite installed (List.replicate n use) values texts) :
    texts = List.replicate n (if installed then text? else none) := by
  rw [← List.map_replicate (f := fun _ : Unit => use) (a := ())] at h
  rw [h.texts_eq (fun _ => use) (fun _ => text?) (fun _ => huse), List.map_replicate]

end Use

end Console

end KernelConsole
