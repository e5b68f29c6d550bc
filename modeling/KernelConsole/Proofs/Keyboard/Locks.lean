import KernelConsole.Proofs.Keyboard.Reset

/-!
# What Locks Do

A lock changes no key but the letters. With capitals locked a letter comes in its other
case; the other two locks change nothing at all, and so the digits of the key pad are
always digits. No lock has a say in what is held, in what a prefix means, or in when the
machine is reset.

So pressing a lock once more in the middle of a history makes no difference to what
follows, but that for the capitals every letter changes its case. The key itself means
nothing. Only after a prefix its code is that of another key.

The two histories are followed side by side. All that is different between the two
decoders is which locks are on, and every byte leaves them that way.

## Main definitions

* `KeyEvent.otherCase`: A letter in its other case.
* `Decoder.toggled`: A decoder with some locks turned around.
* `Decoder.feedTaking`: Which bytes of a sequence ask for a reset.
* `Decoder.withoutLocks`: A history without the presses of locks.

## Theorems

* `Modifiers.ext_single`: Sets are the same that have the same members.
* `Decoder.feed_toggled`, `Decoder.feedAll_toggled`: What bytes mean with other locks on.
* `Decoder.feed_lock`: A lock is pressed.
* `Decoder.feedAll_withoutLocks`: What a history comes to without its locks.
* `Decoder.locks_relabel`: One press more in the middle of a history.
-/

namespace KernelConsole

namespace KeyEvent

/-- An upper-case letter in lower case, a lower-case one in upper case, and any other
    byte as it is. -/
def caseSwapped (c : UInt8) : UInt8 :=
  if 0x41 ≤ c ∧ c ≤ 0x5A then c + 0x20
  else if 0x61 ≤ c ∧ c ≤ 0x7A then c - 0x20
  else c

/-- A character in its other case, if it is a letter. Keys without a character have no
    case. -/
def otherCase : KeyEvent → KeyEvent
  | character c => character (caseSwapped c)
  | event => event

theorem ofCode_swapCase (c : UInt8) : ofCode (Decoder.swapCase c) = (ofCode c).otherCase := by
  have hall : ∀ i : Fin 256, ofCode (Decoder.swapCase (UInt8.ofFin i)) =
      (ofCode (UInt8.ofFin i)).otherCase := by decide +kernel
  exact hall c.toFin

end KeyEvent

namespace Modifiers

/-- Sets are the same that have the same members. -/
theorem ext_single {a b : Modifiers} (h : ∀ f, f.Single → a.contains f = b.contains f) :
    a = b := by
  have hbits : a.bits.toBitVec = b.bits.toBitVec := by
    -- Each bit is a single set, so the two bytes agree bit by bit.
    refine BitVec.eq_of_getLsbD_eq fun k hk => ?_
    have hbit := h ⟨⟨BitVec.twoPow 8 k⟩⟩ ⟨k, hk, rfl⟩
    rw [contains_eq_getLsbD hk rfl, contains_eq_getLsbD hk rfl] at hbit
    exact hbit
  exact congrArg Modifiers.mk (UInt8.toBitVec_inj.1 hbits)

theorem contains_empty {f : Modifiers} (hf : f.Single) : empty.contains f = false := by
  rcases hf with ⟨k, hk, hbit⟩
  rw [contains_eq_getLsbD hk hbit]
  exact BitVec.getLsbD_zero

/-- The set has no members but locks. -/
def AreLocks (l : Modifiers) : Prop :=
  ∀ f, f.Single → l.contains f = true → f ∈ [capsLock, numLock, scrollLock]

theorem areLocks_empty : empty.AreLocks := by
  intro f hf hmem
  rw [contains_empty hf] at hmem
  cases hmem

/-- Locks that are turned around one after the other are locks. -/
theorem AreLocks.symmDiff {l l' : Modifiers} (hl : l.AreLocks) (hl' : l'.AreLocks) :
    (l.symmDiff l').AreLocks := by
  intro f hf hmem
  rw [contains_symmDiff hf] at hmem
  cases hin : l.contains f with
  | true => exact hl f hf hin
  | false =>
      rw [hin, Bool.false_xor] at hmem
      exact hl' f hf hmem

/-- What is no lock is in no set of locks. -/
theorem AreLocks.not_mem {l f : Modifiers} (hl : l.AreLocks) (hf : f.Single)
    (hne : f ∉ [capsLock, numLock, scrollLock]) : l.contains f = false :=
  Bool.eq_false_iff.2 fun hmem => hne (hl f hf hmem)

variable {a b l : Modifiers}

/-- Turning locks around goes well with adding other members. -/
theorem symmDiff_union (h : ∀ f, f.Single → l.contains f = true → b.contains f = false) :
    (a.symmDiff l).union b = (a.union b).symmDiff l := by
  refine ext_single fun f hf => ?_
  rw [contains_union hf, contains_symmDiff hf, contains_symmDiff hf, contains_union hf]
  cases hin : l.contains f with
  | false => rw [Bool.xor_false, Bool.xor_false]
  | true => rw [h f hf hin, Bool.or_false, Bool.or_false]

theorem symmDiff_remove (h : ∀ f, f.Single → l.contains f = true → b.contains f = false) :
    (a.symmDiff l).remove b = (a.remove b).symmDiff l := by
  refine ext_single fun f hf => ?_
  rw [contains_remove hf, contains_symmDiff hf, contains_symmDiff hf, contains_remove hf]
  cases hin : l.contains f with
  | false => rw [Bool.xor_false, Bool.xor_false]
  | true => rw [h f hf hin, Bool.not_false, Bool.and_true, Bool.and_true]

theorem symmDiff_right_comm : (a.symmDiff l).symmDiff b = (a.symmDiff b).symmDiff l := by
  refine ext_single fun f hf => ?_
  simp only [contains_symmDiff hf]
  rw [Bool.xor_assoc, Bool.xor_comm (l.contains f), ← Bool.xor_assoc]

theorem symmDiff_assoc {c : Modifiers} : (a.symmDiff b).symmDiff c = a.symmDiff (b.symmDiff c) := by
  refine ext_single fun f hf => ?_
  simp only [contains_symmDiff hf, Bool.xor_assoc]

/-- Removing a prefix that is not pending changes nothing. -/
theorem remove_extended (h : a.contains extended = false) : a.remove extended = a := by
  refine ext_single fun f hf => ?_
  rw [contains_remove hf]
  -- Either the member is the prefix, which is not there, or it stays.
  by_cases hext : f = extended
  · rw [hext, h, Bool.false_and]
  · have hother : extended.contains f = false := by
      rcases hf with ⟨k, hk, hbit⟩
      have hne : ∀ k < 8, k ≠ 6 → extended.bits.toBitVec.getLsbD k = false := by decide
      rw [contains_eq_getLsbD hk hbit]
      refine hne k hk fun hsix => hext ?_
      rw [hsix] at hbit
      exact congrArg Modifiers.mk (UInt8.toBitVec_inj.1 hbit)
    rw [hother, Bool.not_false, Bool.and_true]

theorem union_empty : a.union empty = a := by
  refine ext_single fun f hf => ?_
  rw [contains_union hf, contains_empty hf, Bool.or_false]

end Modifiers

namespace Decoder

open Modifiers

/-- A decoder with some locks turned around. -/
def toggled (d : Decoder) (l : Modifiers) : Decoder :=
  { d with modifiers := d.modifiers.symmDiff l }

/-- An event with its letter in the other case, or as it is. -/
def recased (swapped : Bool) (event : KeyEvent) : KeyEvent :=
  if swapped then event.otherCase else event

/-- Which bytes of a sequence ask for a reset, when each request is taken as soon as it is
    made, and the state after them. -/
def feedTaking (d : Decoder) : List UInt8 → List Bool × Decoder
  | [] => ([], d)
  | byte :: rest =>
      let (asked, d) := (d.feed byte).2.takeReset
      let (others, d) := d.feedTaking rest
      (asked :: others, d)

/-- The press of a lock. -/
def isLock (code : ScanCode) : Bool := code.isPlain (locks.map Prod.snd)

/-- A history without the presses of locks. -/
def withoutLocks (bytes : List UInt8) : List UInt8 :=
  ((scanCodes bytes).filter fun code => !isLock code).map ScanCode.byte

variable {l : Modifiers}

/-- No key holds a lock, and a prefix is none. -/
theorem heldBy_not_lock (key : UInt8) :
    ∀ f, f.Single → l.contains f = true → l.AreLocks → (heldBy key).contains f = false := by
  have hheld : ∀ key, ∀ f ∈ [capsLock, numLock, scrollLock], (heldBy key).contains f = false := by
    intro key
    unfold heldBy
    split_ifs <;> decide
  exact fun f hf hmem hl => hheld key f (hl f hf hmem)

theorem extended_not_lock (hl : l.AreLocks) :
    ∀ f, f.Single → l.contains f = true → Modifiers.extended.contains f = false := by
  have hextended : ∀ f ∈ [capsLock, numLock, scrollLock],
      Modifiers.extended.contains f = false := by decide
  exact fun f hf hmem => hextended f (hl f hf hmem)

/-- Locks select no layout. -/
theorem select_symmDiff (hl : l.AreLocks) (modifiers : Modifiers) :
    Layout.select (modifiers.symmDiff l) = Layout.select modifiers := by
  unfold Layout.select
  rw [contains_symmDiff single_control, contains_symmDiff single_shift,
    hl.not_mem single_control (by decide), hl.not_mem single_shift (by decide), Bool.xor_false,
    Bool.xor_false]

theorem swapCase_swapCase (c : UInt8) : swapCase (swapCase c) = c := by
  have hall : ∀ i : Fin 256, swapCase (swapCase (UInt8.ofFin i)) = UInt8.ofFin i := by
    decide +kernel
  exact hall c.toFin

/-- A key gives the same byte with other locks on, but that capitals swap the case. -/
theorem keyByte_symmDiff (hl : l.AreLocks) (modifiers : Modifiers) (key : UInt8) :
    keyByte (modifiers.symmDiff l) key =
      if l.contains .capsLock then swapCase (keyByte modifiers key)
      else keyByte modifiers key := by
  unfold keyByte
  rw [select_symmDiff hl, contains_symmDiff single_capsLock]
  cases l.contains .capsLock with
  | false => rw [Bool.xor_false, if_neg Bool.false_ne_true]
  | true =>
      rw [Bool.xor_true, if_pos rfl]
      cases modifiers.contains .capsLock with
      | false => rfl
      | true => exact (swapCase_swapCase _).symm

/-- A press means the same with other locks on, but for the case of a letter. -/
theorem press_toggled (hl : l.AreLocks) (d : Decoder) (key : UInt8) :
    (d.toggled l).press key =
      (recased (l.contains .capsLock) (d.press key).1, (d.press key).2.toggled l) := by
  -- The locks stay turned around through what the key holds and toggles.
  have hmodifiers : ((((d.modifiers.symmDiff l).remove .extended).union (heldBy key)).symmDiff
      (toggledBy key)) = (((d.modifiers.remove .extended).union (heldBy key)).symmDiff
        (toggledBy key)).symmDiff l := by
    rw [symmDiff_remove (extended_not_lock hl),
      symmDiff_union fun f hf hmem => heldBy_not_lock key f hf hmem hl, symmDiff_right_comm]
  simp only [press, toggled, hmodifiers]
  generalize ((d.modifiers.remove .extended).union (heldBy key)).symmDiff (toggledBy key) =
    modifiers
  have hdelete : keyByte (modifiers.symmDiff l) key = VirtualKey.delete.code ↔
      keyByte modifiers key = VirtualKey.delete.code :=
    (keyByte_eq_delete _ key).trans (keyByte_eq_delete _ key).symm
  have hbeq : (keyByte (modifiers.symmDiff l) key == VirtualKey.delete.code) =
      (keyByte modifiers key == VirtualKey.delete.code) := by
    rw [Bool.eq_iff_iff, beq_iff_eq, beq_iff_eq, hdelete]
  -- Control and alternate are no locks, so a reset is asked for on the one side exactly if it
  -- is on the other.
  rw [hbeq, contains_control_alt, contains_control_alt, contains_symmDiff single_control,
    contains_symmDiff single_alt, hl.not_mem single_control (by decide),
    hl.not_mem single_alt (by decide), Bool.xor_false, Bool.xor_false, keyByte_symmDiff hl]
  refine Prod.ext ?_ rfl
  unfold recased
  cases l.contains .capsLock with
  | false => rfl
  | true => exact KeyEvent.ofCode_swapCase _

/-- No lock makes a difference to whether a prefix is pending. -/
theorem extended_toggled (hl : l.AreLocks) (d : Decoder) :
    (d.toggled l).modifiers.contains .extended = d.modifiers.contains .extended := by
  rw [toggled, contains_symmDiff single_extended, hl.not_mem single_extended (by decide),
    Bool.xor_false]

/-- A byte means the same with other locks on, but for the case of a letter, and leaves
    the same locks turned around. -/
theorem feed_toggled (hl : l.AreLocks) (d : Decoder) (byte : UInt8) :
    (d.toggled l).feed byte =
      (recased (l.contains .capsLock) (d.feed byte).1, (d.feed byte).2.toggled l) := by
  have hsilent : recased (l.contains .capsLock) .silent = .silent := by
    cases l.contains .capsLock <;> rfl
  unfold feed
  rw [extended_toggled hl]
  -- A prefix and a release mean nothing on either side. Only a press may be a letter.
  by_cases hescape : byte = extendedPrefix
  · simp only [if_pos hescape, hsilent]
    exact congrArg (fun m => (KeyEvent.silent, { d with modifiers := m }))
      (symmDiff_union (extended_not_lock hl))
  · by_cases hrelease : byte &&& releaseBit ≠ 0
    · simp only [if_neg hescape, if_pos hrelease, hsilent]
      -- What is let go is no lock.
      refine congrArg (fun m => (KeyEvent.silent, { d with modifiers := m }))
        (symmDiff_remove fun f hf hmem => ?_)
      rw [contains_union hf, heldBy_not_lock _ f hf hmem hl, extended_not_lock hl f hf hmem]
      rfl
    · simp only [if_neg hescape, if_neg hrelease]
      exact press_toggled hl d _

/-- The same for any bytes: the two decoders go on side by side, with the same locks apart. -/
theorem feedAll_toggled (hl : l.AreLocks) (d : Decoder) (bytes : List UInt8) :
    (d.toggled l).feedAll bytes = ((d.feedAll bytes).1.map (recased (l.contains .capsLock)),
      (d.feedAll bytes).2.toggled l) := by
  induction bytes generalizing d with
  | nil => rfl
  | cons byte rest ih => simp only [feedAll, feed_toggled hl, ih, List.map_cons]

theorem feedTaking_toggled (hl : l.AreLocks) (d : Decoder) (bytes : List UInt8) :
    (d.toggled l).feedTaking bytes =
      ((d.feedTaking bytes).1, (d.feedTaking bytes).2.toggled l) := by
  induction bytes generalizing d with
  | nil => rfl
  | cons byte rest ih =>
      have htake : (d.toggled l).feed byte |>.2.takeReset =
          ((d.feed byte).2.takeReset.1, (d.feed byte).2.takeReset.2.toggled l) := by
        rw [feed_toggled hl]
        rfl
      simp only [feedTaking, htake, ih]

/-- Bytes may be fed in two goes. -/
theorem feedTaking_append (d : Decoder) (xs ys : List UInt8) :
    d.feedTaking (xs ++ ys) = ((d.feedTaking xs).1 ++ ((d.feedTaking xs).2.feedTaking ys).1,
      ((d.feedTaking xs).2.feedTaking ys).2) := by
  induction xs generalizing d with
  | nil => rfl
  | cons x rest ih => simp only [List.cons_append, feedTaking, ih]

/-- The modifiers do not hang on when requests are taken. -/
theorem modifiers_feedTaking {d e : Decoder} (h : d.modifiers = e.modifiers)
    (bytes : List UInt8) :
    (d.feedTaking bytes).2.modifiers = (e.feedAll bytes).2.modifiers := by
  induction bytes generalizing d e with
  | nil => exact h
  | cons byte rest ih => exact ih (feed_congr h byte).2

/-- A request that is taken at once is never pending. -/
theorem resetRequested_feedTaking {d : Decoder} (h : d.resetRequested = false)
    (bytes : List UInt8) : (d.feedTaking bytes).2.resetRequested = false := by
  induction bytes generalizing d with
  | nil => exact h
  | cons byte rest ih => exact ih rfl

theorem length_feedAll (d : Decoder) (bytes : List UInt8) :
    (d.feedAll bytes).1.length = bytes.length := by
  induction bytes generalizing d with
  | nil => rfl
  | cons byte rest ih => exact congrArg (· + 1) (ih _)

theorem length_feedTaking (d : Decoder) (bytes : List UInt8) :
    (d.feedTaking bytes).1.length = bytes.length := by
  induction bytes generalizing d with
  | nil => rfl
  | cons byte rest ih => exact congrArg (· + 1) (ih _)

/-- Every lock is one, and its key holds nothing and means nothing. -/
theorem lock_key {lock : Modifiers} {k : UInt8} (hk : (lock, k) ∈ locks) :
    lock.AreLocks ∧ (k ≠ extendedPrefix ∧ k &&& releaseBit = 0) ∧ heldBy k = .empty ∧
      toggledBy k = lock ∧ ∀ modifiers, keyByte modifiers k = 0 := by
  have hkey : ∀ x ∈ locks, (x.2 ≠ extendedPrefix ∧ x.2 &&& releaseBit = 0) ∧
      heldBy x.2 = .empty ∧ toggledBy x.2 = x.1 ∧
      ∀ i : Fin 256, keyByte ⟨UInt8.ofFin i⟩ x.2 = 0 := by decide +kernel
  have hself : ∀ x ∈ locks, ∀ k : Fin 8, x.1.bits.toBitVec.getLsbD k = true →
      (⟨⟨BitVec.twoPow 8 k⟩⟩ : Modifiers) ∈ [capsLock, numLock, scrollLock] := by decide +kernel
  rcases hkey _ hk with ⟨hcode, hheld, htoggled, hzero⟩
  refine ⟨?_, hcode, hheld, htoggled, fun modifiers => hzero modifiers.bits.toFin⟩
  rintro ⟨⟨f⟩⟩ ⟨n, hn, hbit⟩ hmem
  rw [contains_eq_getLsbD hn hbit] at hmem
  obtain rfl : f = BitVec.twoPow 8 n := hbit
  exact hself _ hk ⟨n, hn⟩ hmem

/-- Where no prefix is pending, the key of a lock turns that around, and means nothing. -/
theorem feed_lock {lock : Modifiers} {k : UInt8} (hk : (lock, k) ∈ locks) {d : Decoder}
    (hpending : d.modifiers.contains .extended = false) :
    d.feed k = (.silent, d.toggled lock) := by
  rcases lock_key hk with ⟨_, ⟨hescape, hrelease⟩, hheld, htoggled, hzero⟩
  simp only [feed, if_neg hescape, hrelease, ne_eq, not_true, if_false, hpending,
    Bool.false_eq_true, press, hheld, htoggled, hzero, union_empty, remove_extended hpending,
    toggled]
  have hdelete : ((0 : UInt8) == VirtualKey.delete.code) = false := by decide
  rw [hdelete, Bool.false_and, Bool.or_false]
  rfl

/-- Where no prefix is pending, the key of a lock asks for nothing. -/
theorem feedTaking_lock {lock : Modifiers} {k : UInt8} (hk : (lock, k) ∈ locks) {d : Decoder}
    (hpending : d.modifiers.contains .extended = false) (hnone : d.resetRequested = false)
    (rest : List UInt8) :
    d.feedTaking (k :: rest) =
      (false :: (d.feedTaking rest).1, (d.feedTaking rest).2.toggled lock) := by
  rcases d with ⟨modifiers, requested⟩
  obtain rfl : requested = false := hnone
  have htake : (Decoder.feed ⟨modifiers, false⟩ k).2.takeReset =
      (false, toggled ⟨modifiers, false⟩ lock) := by
    rw [feed_lock hk hpending]
    rfl
  simp only [feedTaking, htake, feedTaking_toggled (lock_key hk).1]

/-- A byte more is left out of a history if it presses a lock, and kept if it does not. -/
theorem withoutLocks_snoc (bytes : List UInt8) (byte : UInt8) :
    withoutLocks (bytes ++ [byte]) =
      withoutLocks bytes ++ if isLock ⟨byte, endsInPrefix bytes⟩ then [] else [byte] := by
  unfold withoutLocks
  rw [scanCodes_snoc, List.filter_append, List.map_append]
  cases hlock : isLock ⟨byte, endsInPrefix bytes⟩ with
  | false => rw [List.filter_cons_of_pos (by rw [hlock]; rfl)]; rfl
  | true => rw [List.filter_cons_of_neg (by rw [hlock]; exact Bool.false_ne_true)]; rfl

/-- The presses of locks only turn locks around, and without them no capitals are
    locked. -/
theorem feedAll_withoutLocks (bytes : List UInt8) : ∃ l : Modifiers, l.AreLocks ∧
    (feedAll {} bytes).2 = (feedAll {} (withoutLocks bytes)).2.toggled l ∧
    (modifiersAfter (withoutLocks bytes)).contains .capsLock = false := by
  induction bytes using List.reverseRecOn with
  | nil => exact ⟨.empty, areLocks_empty, rfl, by decide⟩
  | append_singleton rest byte ih =>
      rcases ih with ⟨l, hl, hstate, hcaps⟩
      have hpending := extended_after rest
      unfold modifiersAfter at hpending hcaps ⊢
      rw [hstate, extended_toggled hl] at hpending
      rw [withoutLocks_snoc, feedAll_snoc, hstate]
      by_cases hlock : isLock ⟨byte, endsInPrefix rest⟩ = true
      · -- A lock is pressed, which turns around one more.
        rw [if_pos hlock, List.append_nil]
        rw [isLock, ScanCode.isPlain, Bool.and_eq_true, Bool.not_eq_true', List.contains_iff_mem,
          List.mem_map] at hlock
        rcases hlock with ⟨hescape, ⟨lock, k⟩, hk, rfl⟩
        rw [feed_lock hk ((extended_toggled hl _).trans (hpending.trans hescape))]
        refine ⟨l.symmDiff lock, hl.symmDiff (lock_key hk).1, ?_, hcaps⟩
        rw [toggled, toggled, toggled, symmDiff_assoc]
      · rw [if_neg hlock, feed_toggled hl]
        refine ⟨l, hl, by rw [feedAll_snoc], ?_⟩
        -- Capitals stay unlocked, as only the press of a lock locks them.
        rw [feedAll_snoc, lock_feed (l := (.capsLock, 0x3A)) (by decide), hcaps, Bool.false_xor,
          hpending]
        refine Bool.eq_false_iff.2 fun hpress => hlock ?_
        rw [ScanCode.isPlain, Bool.and_eq_true, List.contains_iff_mem, List.mem_singleton] at hpress
        rw [isLock, ScanCode.isPlain, Bool.and_eq_true, List.contains_iff_mem, hpress.2]
        exact ⟨hpress.1, by decide⟩

/-- A lock that is pressed once more in the middle of a history means nothing and leaves
    nothing behind but that lock turned around. What the other bytes mean, and at which of
    them the machine is reset, is the same with it as without, but that capitals swap the
    case of every letter after them. So the number lock changes nothing at all, and the
    case of letters is that of an odd or an even number of presses. -/
theorem locks_relabel (u v : List UInt8) (hu : u.getLast? ≠ some 0xE0) {lock : Modifiers}
    {k : UInt8} (hk : (lock, k) ∈ [(Modifiers.capsLock, 0x3A), (.numLock, 0x45),
      (.scrollLock, 0x46)]) :
    (∃ before after, before.length = u.length ∧
      (feedAll {} (u ++ v)).1 = before ++ after ∧
      (feedAll {} (u ++ [k] ++ v)).1 = before ++ .silent ::
        after.map (if k = 0x3A then KeyEvent.otherCase else id)) ∧
    (feedAll {} (u ++ [k] ++ v)).2.modifiers =
      (feedAll {} (u ++ v)).2.modifiers.symmDiff lock ∧
    (∃ before after, before.length = u.length ∧
      (feedTaking {} (u ++ v)).1 = before ++ after ∧
      (feedTaking {} (u ++ [k] ++ v)).1 = before ++ false :: after) ∧
    (feedAll {} (u ++ [k] ++ v)).2.resetRequested = (feedAll {} (u ++ v)).2.resetRequested ∧
    ∀ byte, ((feedAll {} (u ++ v)).2.feed byte).1 =
      (if Odd ((scanCodes (u ++ v)).countP (ScanCode.isPlain [0x3A])) then KeyEvent.otherCase
        else id) ((feedAll {} (withoutLocks (u ++ v))).2.feed byte).1 := by
  have hlocks : lock.AreLocks := (lock_key hk).1
  have hpending : (modifiersAfter u).contains .extended = false := by
    rw [extended_after]
    exact beq_false_of_ne hu
  -- Only the capitals swap the case, and their key is `0x3A`.
  have hrecased : recased (lock.contains .capsLock) =
      if k = 0x3A then KeyEvent.otherCase else id := by
    simp only [List.mem_cons, Prod.mk.injEq, List.not_mem_nil, or_false] at hk
    rcases hk with ⟨rfl, rfl⟩ | ⟨rfl, rfl⟩ | ⟨rfl, rfl⟩ <;> rfl
  -- From the lock on, the two decoders differ in that lock.
  have hinserted : feedAll {} (u ++ [k] ++ v) =
      ((feedAll {} u).1 ++ .silent :: ((feedAll {} u).2.feedAll v).1.map
        (recased (lock.contains .capsLock)), ((feedAll {} u).2.feedAll v).2.toggled lock) := by
    rw [List.append_assoc, feedAll_append]
    simp only [List.singleton_append, feedAll, feed_lock hk hpending, feedAll_toggled hlocks]
  have htaken : (modifiersAfter u) = (feedTaking {} u).2.modifiers :=
    (modifiers_feedTaking rfl u).symm
  refine ⟨⟨(feedAll {} u).1, ((feedAll {} u).2.feedAll v).1, length_feedAll _ _, ?_, ?_⟩, ?_,
    ⟨(feedTaking {} u).1, ((feedTaking {} u).2.feedTaking v).1, length_feedTaking _ _, ?_, ?_⟩,
    ?_, fun byte => ?_⟩
  · rw [feedAll_append]
  · rw [hinserted, hrecased]
  · rw [hinserted, feedAll_append]
    rfl
  · rw [feedTaking_append]
  · rw [List.append_assoc, feedTaking_append, List.singleton_append,
      feedTaking_lock hk (htaken ▸ hpending) (resetRequested_feedTaking rfl u)]
  · rw [hinserted, feedAll_append]
    rfl
  · -- Without its locks the history leaves no capitals locked, so the count says if they are.
    rcases feedAll_withoutLocks (u ++ v) with ⟨l, hl, hstate, hcaps⟩
    have hodd := lock_after (l := (.capsLock, 0x3A)) (by decide) (u ++ v)
    unfold modifiersAfter at hodd hcaps
    rw [hstate, toggled, contains_symmDiff single_capsLock, hcaps, Bool.false_xor] at hodd
    rw [hstate, feed_toggled hl]
    unfold recased
    by_cases hmem : l.contains .capsLock = true
    · rw [if_pos hmem, if_pos (hodd.1 hmem)]
    · rw [if_neg hmem, if_neg fun h => hmem (hodd.2 h)]
      rfl

/-- Capitals are locked in the middle of a stream, and the letter after that is in the
    other case. -/
theorem locks_relabel_shifted_letter :
    ([0x2A, 0x1E] : List UInt8).getLast? ≠ some 0xE0 ∧
      (Modifiers.capsLock, (0x3A : UInt8)) ∈ [(Modifiers.capsLock, 0x3A), (.numLock, 0x45),
        (.scrollLock, 0x46)] ∧
      (feedAll {} [0x2A, 0x1E, 0x3A, 0x1E, 0xE0, 0x48]).1 =
        [.silent, .character 0x41, .silent, .character 0x61, .silent, .key .up] := by
  have hu : ([0x2A, 0x1E] : List UInt8).getLast? ≠ some 0xE0 := by decide
  refine ⟨hu, List.mem_cons_self, ?_⟩
  rcases (locks_relabel [0x2A, 0x1E] [0x1E, 0xE0, 0x48] hu List.mem_cons_self).1 with
    ⟨before, after, hlength, hplain, hlocked⟩
  -- Without the lock, the letter is the same both times.
  have hevents : (feedAll {} [0x2A, 0x1E, 0x1E, 0xE0, 0x48]).1 =
      [.silent, .character 0x41] ++ [.character 0x41, .silent, .key .up] := by decide
  rcases List.append_inj (hevents.symm.trans hplain) hlength.symm with ⟨rfl, rfl⟩
  exact hlocked

end Decoder

end KernelConsole
