import KernelConsole.Keyboard.Controller
import KernelConsole.Proofs.Keyboard.History
import KernelConsole.Proofs.Traces

/-!
# Control, Alternate and Delete

The machine is reset by the delete key while control and alternate are held, and by
nothing else. Whether they are held can be read off the bytes so far: of the bytes that
press and release a key, the last one pressed it. Either control key counts, and either
alternate key. The delete key sends a prefix first; the same code without one is a key of
the key pad, which is no delete.

The reset is written as soon as its byte has been read, before anything else is accessed,
and the poll that read it still returns the key. So the decoder never holds on to a
request: what one poll asks for, the same poll does.

## Main definitions

* `LastIs`: Of two bytes, one came last.
* `Decoder.CompletesReset`: A byte after a history completes the three keys.
* `Decoder.resetsAfter`: How many bytes of a stream do.
* `Keyboard.pollAll`: Polls, one after the other.
* `Keyboard.Polled`, `Keyboard.PolledAll`: What polls return and access.

## Theorems

* `Decoder.keyByte_eq_delete`: Only the extended delete key gives delete.
* `Decoder.resetRequested_feed`: When the decoder asks for a reset.
* `Decoder.requests_iff`: The same by the history of bytes.
* `Keyboard.poll_polled`: What one poll returns and accesses.
* `Keyboard.PolledAll.writes`: The port writes of any polls.
* `Keyboard.resets_exactly`: Both, for a keyboard that was just made.
-/

namespace KernelConsole

open Prog

/-- Of the bytes of a history that are one of two, the last is the first of them. -/
def LastIs (press release : UInt8) (history : List UInt8) : Prop :=
  (history.filter fun b => b == press || b == release).getLast? = some press

instance (press release : UInt8) (history : List UInt8) :
    Decidable (LastIs press release history) :=
  inferInstanceAs (Decidable (_ = _))

theorem byte_scanCodesAfter (prefixed : Bool) (bytes : List UInt8) :
    (scanCodesAfter prefixed bytes).map ScanCode.byte = bytes := by
  induction bytes generalizing prefixed with
  | nil => rfl
  | cons byte rest ih => rw [scanCodesAfter, List.map_cons, ih]

namespace Decoder

/-- For keys that prefixes make no difference to, the bytes alone say what was pressed
    last. -/
theorem heldAfter_isAny (press release : UInt8) (bytes : List UInt8) :
    HeldAfter (ScanCode.isAny [press]) (ScanCode.isAny [release]) (scanCodes bytes) ↔
      LastIs press release bytes := by
  -- The bytes of the scan codes of a kind are the bytes of that kind.
  have hbytes : ((scanCodes bytes).filter fun code =>
      ScanCode.isAny [press] code || ScanCode.isAny [release] code).map ScanCode.byte =
        bytes.filter fun b => b == press || b == release := by
    have hkind : (fun code : ScanCode => ScanCode.isAny [press] code ||
        ScanCode.isAny [release] code) =
          (fun b : UInt8 => b == press || b == release) ∘ ScanCode.byte := by
      funext code
      simp only [ScanCode.isAny, List.contains_cons, List.contains_nil, Bool.or_false,
        Function.comp_apply]
    rw [hkind, ← List.filter_map]
    exact congrArg _ (byte_scanCodesAfter false bytes)
  have hpressed : ∀ code, ScanCode.isAny [press] code = true ↔ code.byte = press := by
    intro code
    simp only [ScanCode.isAny, List.contains_cons, List.contains_nil, Bool.or_false, beq_iff_eq]
  unfold HeldAfter LastIs latest
  rw [← hbytes, List.getLast?_map, Option.map_eq_some_iff]
  simp only [hpressed]

/-- A byte that comes after a history is the delete key of the extended keys, and control
    and alternate are held. -/
structure CompletesReset (history : List UInt8) (byte : UInt8) : Prop where
  /-- It is the code of the delete key. -/
  delete : byte = 0x53
  /-- It comes right after the prefix of the extended keys. -/
  extended : history.getLast? = some 0xE0
  /-- A control key was pressed after one was last released. -/
  control : LastIs 0x1D 0x9D history
  /-- So was an alternate key. -/
  alt : LastIs 0x38 0xB8 history

theorem completesReset_iff {history : List UInt8} {byte : UInt8} :
    CompletesReset history byte ↔ byte = 0x53 ∧ history.getLast? = some 0xE0 ∧
      LastIs 0x1D 0x9D history ∧ LastIs 0x38 0xB8 history :=
  ⟨fun h => ⟨h.delete, h.extended, h.control, h.alt⟩, fun ⟨h₁, h₂, h₃, h₄⟩ => ⟨h₁, h₂, h₃, h₄⟩⟩

instance (history : List UInt8) (byte : UInt8) : Decidable (CompletesReset history byte) :=
  decidable_of_iff _ completesReset_iff.symm

/-- How many bytes of a stream that comes after a history complete the three keys. -/
def resetsAfter (history : List UInt8) : List UInt8 → Nat
  | [] => 0
  | byte :: rest =>
      (if CompletesReset history byte then 1 else 0) + resetsAfter (history ++ [byte]) rest

/-- Whatever the layout, the key in it that means delete is the extended one. -/
theorem legend_eq_delete {layout : Layout}
    (h : layout ∈ [Layout.plain, Layout.shifted, Layout.control]) (key : UInt8) :
    layout.legend key = VirtualKey.delete.code ↔ key = 0xD3 := by
  -- The extended delete key is in every layout, and nothing else in one is delete.
  have hplain : ∀ layout ∈ [Layout.plain, Layout.shifted, Layout.control],
      VirtualKey.delete.code ∉ 0 :: layout.plainKeys := by decide +kernel
  have hextended : ∀ layout ∈ [Layout.plain, Layout.shifted, Layout.control],
      layout.extendedKeys.filter (fun k => k.2 == VirtualKey.delete.code) =
          [(0xD3, VirtualKey.delete.code)] ∧
        layout.extendedKeys.lookup 0xD3 = some VirtualKey.delete.code := by decide +kernel
  rcases hextended layout h with ⟨honly, hfound⟩
  unfold Layout.legend
  -- A key is looked up among the extended ones, and only if it is not there among the plain
  -- ones.
  cases hlookup : layout.extendedKeys.lookup key with
  | some c =>
      constructor
      · intro (hdelete : c = VirtualKey.delete.code)
        obtain ⟨before, after, heq, _⟩ := List.lookup_eq_some_iff.1 hlookup
        have hmem : (key, c) ∈ layout.extendedKeys := by
          rw [heq]
          exact List.mem_append_right _ List.mem_cons_self
        have hkept : (key, c) ∈ layout.extendedKeys.filter
            (fun k => k.2 == VirtualKey.delete.code) :=
          List.mem_filter.2 ⟨hmem, beq_iff_eq.2 hdelete⟩
        rw [honly] at hkept
        exact congrArg Prod.fst (List.mem_singleton.1 hkept)
      · rintro rfl
        exact Option.some.inj (hlookup.symm.trans hfound)
  | none =>
      have hmem : layout.plainKeys.getD key.toNat 0 ∈ 0 :: layout.plainKeys := by
        rw [List.getD_eq_getElem?_getD]
        cases hkey : layout.plainKeys[key.toNat]? with
        | none => exact List.mem_cons_self
        | some c => exact List.mem_cons_of_mem _ (List.mem_of_getElem? hkey)
      have hne : key ≠ 0xD3 := by
        rintro rfl
        rw [hfound] at hlookup
        cases hlookup
      exact iff_of_false (fun hdelete => hplain layout h (hdelete ▸ hmem)) hne

theorem swapCase_eq_delete (c : UInt8) :
    swapCase c = VirtualKey.delete.code ↔ c = VirtualKey.delete.code := by
  have hall : ∀ i : Fin 256, swapCase (UInt8.ofFin i) = VirtualKey.delete.code ↔
      UInt8.ofFin i = VirtualKey.delete.code := by decide +kernel
  exact hall c.toFin

/-- Whatever the modifiers, the extended delete key gives delete, and no other key does. -/
theorem keyByte_eq_delete (modifiers : Modifiers) (key : UInt8) :
    keyByte modifiers key = VirtualKey.delete.code ↔ key = 0xD3 := by
  have hlayout : Layout.select modifiers ∈ [Layout.plain, Layout.shifted, Layout.control] := by
    unfold Layout.select
    split_ifs <;> simp only [List.mem_cons, true_or, or_true]
  unfold keyByte
  by_cases hcaps : modifiers.contains .capsLock = true
  · rw [if_pos hcaps, swapCase_eq_delete, legend_eq_delete hlayout]
  · rw [if_neg hcaps, legend_eq_delete hlayout]

theorem contains_control_alt (modifiers : Modifiers) :
    modifiers.contains (.union .control .alt) =
      (modifiers.contains .control && modifiers.contains .alt) := by
  have hall : ∀ i : Fin 256, Modifiers.contains ⟨UInt8.ofFin i⟩ (.union .control .alt) =
      (Modifiers.contains ⟨UInt8.ofFin i⟩ .control &&
        Modifiers.contains ⟨UInt8.ofFin i⟩ .alt) := by decide +kernel
  exact hall modifiers.bits.toFin

/-- A byte that is no release names the extended delete key only after a prefix. -/
theorem key_eq_delete (pending : Bool) {byte : UInt8} (h : byte &&& releaseBit = 0) :
    (if pending then byte ||| releaseBit else byte) = 0xD3 ↔ byte = 0x53 ∧ pending = true := by
  have hall : ∀ (pending : Bool) (i : Fin 256), UInt8.ofFin i &&& releaseBit = 0 →
      ((if pending then UInt8.ofFin i ||| releaseBit else UInt8.ofFin i) = 0xD3 ↔
        UInt8.ofFin i = 0x53 ∧ pending = true) := by decide +kernel
  exact hall pending byte.toFin h

/-- The delete key leaves the keys that are held as they are. -/
theorem held_feed_delete {k : Holder} (hk : k ∈ holders) (d : Decoder) :
    (d.feed 0x53).2.modifiers.contains k.modifier = d.modifiers.contains k.modifier := by
  have hother : ∀ k ∈ holders, ∀ prefixed,
      k.press ⟨0x53, prefixed⟩ = false ∧ k.release ⟨0x53, prefixed⟩ = false := by decide
  rcases hother k hk (d.modifiers.contains .extended) with ⟨hpress, hrelease⟩
  simp only [held_feed hk, hpress, hrelease, Bool.false_eq_true, if_false]

/-- The decoder asks for a reset at the delete key, after a prefix and with control and
    alternate held, and then the key means delete. -/
theorem resetRequested_feed (d : Decoder) (byte : UInt8) :
    ((d.feed byte).2.resetRequested = true ↔ d.resetRequested = true ∨
      byte = 0x53 ∧ d.modifiers.contains .extended = true ∧
        d.modifiers.contains .control = true ∧ d.modifiers.contains .alt = true) ∧
    (byte = 0x53 → d.modifiers.contains .extended = true → (d.feed byte).1 = .key .delete) := by
  have hcontrol := held_feed_delete (k := holders[1]) (List.getElem_mem _) d
  have halt := held_feed_delete (k := holders[2]) (List.getElem_mem _) d
  by_cases hescape : byte = extendedPrefix
  · -- a prefix asks for nothing
    have hne : byte ≠ 0x53 := by
      rw [hescape]
      decide
    simp only [feed, if_pos hescape, hne, false_and, or_false, false_implies, and_self]
  by_cases hrelease : byte &&& releaseBit ≠ 0
  · -- neither does a release
    have hne : byte ≠ 0x53 := fun h => hrelease (h ▸ by decide)
    simp only [feed, if_neg hescape, if_pos hrelease, release, hne, false_and, or_false,
      false_implies, and_self]
  -- A press gives delete exactly if it is the extended delete key.
  have hfeed : d.feed byte = d.press
      (if d.modifiers.contains .extended then byte ||| releaseBit else byte) := by
    simp only [feed, if_neg hescape, if_neg hrelease]
  have hkey := (keyByte_eq_delete (d.feed byte).2.modifiers _).trans
    (key_eq_delete (d.modifiers.contains .extended) (not_not.1 hrelease))
  have hasks : (d.feed byte).2.resetRequested = (d.resetRequested ||
      (keyByte (d.feed byte).2.modifiers
          (if d.modifiers.contains .extended then byte ||| releaseBit else byte) ==
        VirtualKey.delete.code &&
        (d.feed byte).2.modifiers.contains (.union .control .alt))) := by
    rw [hfeed]
    rfl
  constructor
  · rw [hasks, contains_control_alt, Bool.or_eq_true, Bool.and_eq_true, beq_iff_eq, hkey,
      Bool.and_eq_true, and_assoc]
    refine or_congr_right (and_congr_right fun hdelete => and_congr_right fun _ => ?_)
    rw [hdelete]
    exact and_congr (Eq.congr_left hcontrol) (Eq.congr_left halt)
  · intro hdelete hpending
    have hevent : (d.feed byte).1 = KeyEvent.ofCode (keyByte (d.feed byte).2.modifiers
        (if d.modifiers.contains .extended then byte ||| releaseBit else byte)) := by
      rw [hfeed]
      rfl
    rw [hevent, hkey.2 ⟨hdelete, hpending⟩]
    decide

/-- A decoder that has nothing pending asks for a reset exactly if the byte completes the
    three keys. -/
theorem requests_iff {d : Decoder} {history : List UInt8}
    (hmodifiers : d.modifiers = modifiersAfter history) (hnone : d.resetRequested = false)
    (byte : UInt8) :
    (d.feed byte).2.resetRequested = true ↔ CompletesReset history byte := by
  have hextended : d.modifiers.contains .extended = true ↔ history.getLast? = some 0xE0 := by
    rw [hmodifiers, extended_after]
    exact beq_iff_eq
  have hcontrol : d.modifiers.contains .control = true ↔ LastIs 0x1D 0x9D history := by
    rw [hmodifiers, ← heldAfter_isAny]
    exact held_after (k := holders[1]) (List.getElem_mem _) history
  have halt : d.modifiers.contains .alt = true ↔ LastIs 0x38 0xB8 history := by
    rw [hmodifiers, ← heldAfter_isAny]
    exact held_after (k := holders[2]) (List.getElem_mem _) history
  -- What the decoder remembers says what the history was, condition by condition.
  rw [(d.resetRequested_feed byte).1, hnone, hextended, hcontrol, halt, completesReset_iff]
  simp only [Bool.false_eq_true, false_or]

end Decoder

namespace Keyboard

open Decoder

/-- Polls a number of times, and collects what that returns. -/
def pollAll : Nat → Keyboard → LoggedIo (List (Option KeyEvent) × Keyboard)
  | 0, k => pure ([], k)
  | n + 1, k => do
      let (event?, k) ← k.poll
      let (events, k) ← pollAll n k
      pure (event? :: events, k)

/-- What a poll returns and accesses, after a history of bytes, and the history after
    it. -/
inductive Polled (s : Settings) (history : List UInt8) :
    Option KeyEvent × List Event → List UInt8 → Prop
  /-- No byte was waiting. -/
  | nothing (status : UInt8) (empty : status &&& waiting = 0) :
      Polled s history (none, [.regRead (.keyboardStatus s.keyboardStatus) status]) history
  /-- A byte that does not complete the three keys is decoded, and that is all. -/
  | byte (status scancode : UInt8) (ready : status &&& waiting ≠ 0)
      (incomplete : ¬CompletesReset history scancode) :
      Polled s history
        (some ((feedAll {} history).2.feed scancode).1,
          [.regRead (.keyboardStatus s.keyboardStatus) status,
            .regRead (.keyboardData s.keyboardData) scancode])
        (history ++ [scancode])
  /-- One that does resets the machine right away, and is still delete. -/
  | reset (status scancode : UInt8) (ready : status &&& waiting ≠ 0)
      (complete : CompletesReset history scancode) :
      Polled s history
        (some (.key .delete),
          [.regRead (.keyboardStatus s.keyboardStatus) status,
            .regRead (.keyboardData s.keyboardData) scancode,
            .regWrite .systemControl 0x03])
        (history ++ [scancode])

/-- The same for polls one after the other. -/
inductive PolledAll (s : Settings) :
    List UInt8 → List (Option KeyEvent × List Event) → List UInt8 → Prop
  | nil (history : List UInt8) : PolledAll s history [] history
  | cons {history next last : List UInt8} {poll : Option KeyEvent × List Event}
      {polls : List (Option KeyEvent × List Event)} (first : Polled s history poll next)
      (rest : PolledAll s next polls last) : PolledAll s history (poll :: polls) last

/-- A keyboard for some settings has decoded a history of bytes, and no reset is
    pending. -/
structure HasDecoded (s : Settings) (history : List UInt8) (k : Keyboard) : Prop where
  statusPort : k.statusPort = s.keyboardStatus
  dataPort : k.dataPort = s.keyboardData
  /-- Its modifiers are those of the history. -/
  modifiers : k.decoder.modifiers = modifiersAfter history
  /-- No reset is pending. -/
  idle : k.decoder.resetRequested = false

theorem hasDecoded_ofSettings (s : Settings) : HasDecoded s [] (ofSettings s) :=
  ⟨rfl, rfl, rfl, rfl⟩

variable {σ : Type} {bus : Bus σ} {fuel : Nat} {s : Settings} {history : List UInt8}

/-- The decoder afterwards has seen one byte more, and a request is taken back. -/
theorem HasDecoded.snoc {k : Keyboard} (hk : HasDecoded s history k) (scancode : UInt8) :
    HasDecoded s (history ++ [scancode])
      { k with decoder := (k.decoder.feed scancode).2.takeReset.2 } where
  statusPort := hk.statusPort
  dataPort := hk.dataPort
  modifiers := by
    refine (feed_congr hk.modifiers scancode).2.trans ?_
    unfold modifiersAfter
    rw [feedAll_snoc]
  idle := rfl

/-- Decoding a byte writes the reset if the byte completes the three keys. -/
theorem handle_writes {k : Keyboard} (hk : HasDecoded s history k) (scancode : UInt8) (m : σ) :
    (k.handle scancode).Observes bus fuel m fun v events _ =>
      v = ((k.decoder.feed scancode).1,
        { k with decoder := (k.decoder.feed scancode).2.takeReset.2 }) ∧
      events = if CompletesReset history scancode then [.regWrite .systemControl 0x03] else [] := by
  have hrequests := requests_iff hk.modifiers hk.idle scancode
  unfold handle
  by_cases hreset : CompletesReset history scancode
  · have hasks : (k.decoder.feed scancode).2.takeReset.1 = true := hrequests.2 hreset
    simp only [if_pos hasks, if_pos hreset]
    -- The reset is reported first, which is no event, and then written.
    refine observes_bind (observes_report _ _ _ (observes_bind ?_))
    exact observes_unreported (traces_access (.writeReg _ _) (observes_pure ⟨rfl, rfl⟩))
  · have hasks : ¬(k.decoder.feed scancode).2.takeReset.1 = true := fun h => hreset (hrequests.1 h)
    simp only [if_neg hasks, if_neg hreset]
    exact observes_pure ⟨rfl, rfl⟩

/-- What one poll returns and accesses. -/
theorem poll_polled {k : Keyboard} (hk : HasDecoded s history k) (m : σ) :
    k.poll.Observes bus fuel m fun v events _ => ∃ next,
      HasDecoded s next v.2 ∧ Polled s history (v.1, events) next := by
  unfold poll
  rw [hk.statusPort, hk.dataPort]
  refine observes_bind (observes_unreported (traces_access (.readReg _) ?_))
  generalize (bus (.readReg (.keyboardStatus s.keyboardStatus)) m).1 = status
  by_cases hempty : status &&& waiting = 0
  · simp only [if_pos hempty]
    exact observes_pure ⟨history, hk, .nothing status hempty⟩
  · simp only [if_neg hempty]
    refine observes_bind (observes_unreported (traces_access (.readReg _) ?_))
    -- From here on it does not matter what the bus is, only what it has answered.
    generalize (bus (.readReg (.keyboardData s.keyboardData)) _).1 = scancode
    refine observes_bind (observes_mono (handle_writes hk scancode _) ?_)
    rintro _ events m₁ ⟨rfl, rfl⟩
    refine observes_pure ⟨history ++ [scancode], hk.snoc scancode, ?_⟩
    by_cases hreset : CompletesReset history scancode
    -- The byte completes the keys, so a prefix is pending and it means delete.
    · have hpending : k.decoder.modifiers.contains .extended = true := by
        rw [hk.modifiers, extended_after]
        exact beq_iff_eq.2 hreset.extended
      have hdelete := (k.decoder.resetRequested_feed scancode).2 hreset.delete hpending
      rw [if_pos hreset, hdelete]
      exact .reset status scancode hempty hreset
    · rw [if_neg hreset, (feed_congr hk.modifiers scancode).1]
      exact .byte status scancode hempty hreset

theorem pollAll_polled (n : Nat) {k : Keyboard} (hk : HasDecoded s history k) (m : σ) :
    (k.pollAll n).Observes bus fuel m fun v events _ => ∃ polls last,
      v.1 = polls.map Prod.fst ∧ events = (polls.map Prod.snd).flatten ∧ polls.length = n ∧
        HasDecoded s last v.2 ∧ PolledAll s history polls last := by
  induction n generalizing k history m with
  | zero => exact observes_pure ⟨[], history, rfl, rfl, rfl, hk, .nil history⟩
  | succ n ih =>
      refine observes_bind (observes_mono (poll_polled hk m) ?_)
      rintro ⟨event?, k₁⟩ events m₁ ⟨next, hk₁, hfirst⟩
      refine observes_bind (observes_mono (ih hk₁ m₁) ?_)
      rintro ⟨_, k₂⟩ _ m₂ ⟨polls, last, rfl, rfl, rfl, hk₂, hrest⟩
      refine observes_pure ⟨(event?, events) :: polls, last, rfl, ?_, rfl, hk₂, .cons hfirst hrest⟩
      rw [List.append_nil]
      rfl

/-- The writes of a poll: the reset, if its byte completes the three keys. -/
theorem Polled.writes {next : List UInt8} {poll : Option KeyEvent × List Event}
    (h : Polled s history poll next) :
    ∃ bytes, next = history ++ bytes ∧ poll.2.filterMap Event.portWrite? =
      List.replicate (resetsAfter history bytes) (0x92, 0x03) := by
  cases h with
  | nothing status empty => exact ⟨[], (List.append_nil _).symm, rfl⟩
  | byte status scancode ready incomplete =>
      refine ⟨[scancode], rfl, ?_⟩
      rw [resetsAfter, if_neg incomplete]
      rfl
  | reset status scancode ready complete =>
      refine ⟨[scancode], rfl, ?_⟩
      rw [resetsAfter, if_pos complete]
      rfl

theorem resetsAfter_append (history xs ys : List UInt8) :
    resetsAfter history (xs ++ ys) = resetsAfter history xs + resetsAfter (history ++ xs) ys := by
  induction xs generalizing history with
  | nil => rw [List.nil_append, List.append_nil, resetsAfter, Nat.zero_add]
  | cons byte rest ih =>
      rw [List.cons_append, resetsAfter, ih, resetsAfter, List.append_assoc, Nat.add_assoc]
      rfl

/-- Polls write nothing but resets, as many as there are bytes that complete the three
    keys. -/
theorem PolledAll.writes {last : List UInt8} {polls : List (Option KeyEvent × List Event)}
    (h : PolledAll s history polls last) :
    ∃ bytes, last = history ++ bytes ∧
      (polls.map Prod.snd).flatten.filterMap Event.portWrite? =
        List.replicate (resetsAfter history bytes) (0x92, 0x03) := by
  induction h with
  | nil history => exact ⟨[], (List.append_nil _).symm, rfl⟩
  | cons first rest ih =>
      rcases first.writes with ⟨bytes, rfl, hfirst⟩
      rcases ih with ⟨later, rfl, hrest⟩
      -- The resets of the later polls are counted after the bytes of the first.
      refine ⟨bytes ++ later, List.append_assoc _ _ _, ?_⟩
      rw [List.map_cons, List.flatten_cons, List.filterMap_append, hfirst, hrest,
        resetsAfter_append, List.replicate_append_replicate]

/-- Whatever the hardware, any polls of a keyboard that was just made end, and each of
    them looks at the status, reads a byte if one is waiting, and writes the reset, at once
    and returning delete, exactly if that byte completes the three keys. Nothing else is
    written, so there are as many writes as such bytes, and no reset is pending
    afterwards. -/
theorem resets_exactly (s : Settings) (bus : Bus σ) (m : σ) (fuel n : Nat) :
    ∃ polls history k m',
      bus.observe fuel ((ofSettings s).pollAll n) m =
        .ok ((polls.map Prod.fst, k), (polls.map Prod.snd).flatten, m') ∧
      polls.length = n ∧ PolledAll s [] polls history ∧
      (polls.map Prod.snd).flatten.filterMap Event.portWrite? =
        List.replicate (resetsAfter [] history) (0x92, 0x03) ∧
      k.decoder.resetRequested = false := by
  rcases (pollAll_polled n (hasDecoded_ofSettings s) m).observe with
    ⟨⟨_, k⟩, _, m', hrun, polls, history, rfl, rfl, hlength, hk, hpolls⟩
  rcases hpolls.writes with ⟨bytes, rfl, hwrites⟩
  exact ⟨polls, _, k, m', hrun, hlength, hpolls, hwrites, hk.idle⟩

/-- Control and alternate are held, and control is let go before delete. -/
example : CompletesReset [0x1D, 0x38, 0xE0] 0x53 ∧
    ¬CompletesReset [0x1D, 0x38, 0x9D, 0xE0] 0x53 := by decide

end Keyboard

end KernelConsole
