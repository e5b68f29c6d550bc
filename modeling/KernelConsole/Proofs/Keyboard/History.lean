import KernelConsole.Proofs.Console.Arrivals
import Mathlib.Algebra.Ring.Nat
import Mathlib.Algebra.Ring.Parity
import Mathlib.Data.List.Induction
import Mathlib.Tactic.SplitIfs

/-!
# Modifiers and the History of Bytes

The decoder keeps a few bits of what it has seen, and each of them can be read off
the whole history of bytes. A lock is on if its key was pressed an odd number of
times. A key is held if it was pressed after it was last released. A prefix is
pending if it came last.

A byte means what it means by the byte before it. After a prefix a code names an
extended key. There is an extended key for control and one for alternate, so
either of two keys holds those; the code of a shift key after a prefix holds
nothing, and no extended key is a lock.

What one byte does to one modifier hangs on the key that the byte names. Two
tables over all bytes say which keys those are, and the history follows byte by
byte.

## Main definitions

* `ScanCode`, `scanCodes`: A byte and whether a prefix came right before it, and
  those of a history.
* `latest`: The last scan code of a kind.
* `Modifiers.Single`: A set of one modifier.
* `Decoder.key`: The key that a byte names.
* `Decoder.locks`, `Decoder.holders`: The locks, and the modifiers that are held.
* `Decoder.HeldAfter`: A key was pressed after it was last released.

## Theorems

* `scanCodes_snoc`, `latest_snoc`: One byte more.
* `Modifiers.contains_union`, `contains_symmDiff`, `contains_remove`: Set algebra,
  one modifier at a time.
* `Decoder.contains_feed`: What a byte does to a modifier.
* `Decoder.lock_feed`, `Decoder.held_feed`: What it does to a lock, and to a
  modifier that is held.
* `Decoder.lock_after`, `Decoder.held_after`: What a whole history does to them.
* `Decoder.modifiers_reflect_history`: The modifiers after any history.
-/

namespace KernelConsole

/-- A byte from the keyboard, and whether a prefix came right before it. -/
structure ScanCode where
  byte : UInt8
  prefixed : Bool
deriving DecidableEq

/-- The scan codes of bytes that come after a prefix, or not. -/
def scanCodesAfter (prefixed : Bool) : List UInt8 → List ScanCode
  | [] => []
  | byte :: rest => ⟨byte, prefixed⟩ :: scanCodesAfter (byte == Decoder.extendedPrefix) rest

/-- The scan codes of a history of bytes. -/
def scanCodes (bytes : List UInt8) : List ScanCode := scanCodesAfter false bytes

/-- The last scan code of a kind. -/
def latest (kind : ScanCode → Bool) (codes : List ScanCode) : Option ScanCode :=
  (codes.filter kind).getLast?

/-- The scan code is one of some bytes, and no prefix came before it. -/
def ScanCode.isPlain (bytes : List UInt8) (code : ScanCode) : Bool :=
  !code.prefixed && bytes.contains code.byte

/-- The scan code is one of some bytes. -/
def ScanCode.isAny (bytes : List UInt8) (code : ScanCode) : Bool := bytes.contains code.byte

/-- A byte that comes next comes after a prefix. -/
def endsInPrefix (bytes : List UInt8) : Bool := bytes.getLast? == some Decoder.extendedPrefix

/-- One byte more is one scan code more. It comes after a prefix if the last byte before it is
    one, or if there is none and the whole history comes after one. -/
theorem scanCodesAfter_snoc (prefixed : Bool) (bytes : List UInt8) (byte : UInt8) :
    scanCodesAfter prefixed (bytes ++ [byte]) = scanCodesAfter prefixed bytes ++
      [⟨byte, (bytes.getLast?.map (· == Decoder.extendedPrefix)).getD prefixed⟩] := by
  induction bytes generalizing prefixed with
  | nil => rfl
  | cons first rest ih =>
      simp only [List.cons_append, scanCodesAfter, ih, List.getLast?_cons]
      -- what stands right before the byte is `first` only if nothing follows it
      cases rest.getLast? with
      | none => rfl
      | some last => rfl

/-- The same for a history by itself. Everything about a history is proved by appending one
    byte, since that is what a decoder does next. -/
theorem scanCodes_snoc (bytes : List UInt8) (byte : UInt8) :
    scanCodes (bytes ++ [byte]) = scanCodes bytes ++ [⟨byte, endsInPrefix bytes⟩] := by
  unfold scanCodes endsInPrefix
  rw [scanCodesAfter_snoc]
  cases bytes.getLast? with
  | none => rfl
  | some last => rfl

theorem endsInPrefix_snoc (bytes : List UInt8) (byte : UInt8) :
    endsInPrefix (bytes ++ [byte]) = (byte == Decoder.extendedPrefix) := by
  simp only [endsInPrefix, List.getLast?_concat, Option.some_beq_some]

/-- A scan code of the kind that is appended is the last one of it. -/
theorem latest_snoc (kind : ScanCode → Bool) (codes : List ScanCode) (code : ScanCode) :
    latest kind (codes ++ [code]) = if kind code then some code else latest kind codes := by
  unfold latest
  rw [List.filter_append]
  by_cases hkind : kind code = true
  · rw [if_pos hkind, List.filter_cons_of_pos hkind, List.filter_nil, List.getLast?_concat]
  · rw [if_neg hkind, List.filter_cons_of_neg hkind, List.filter_nil, List.append_nil]

namespace Modifiers

/-- The set has one member. -/
def Single (f : Modifiers) : Prop := ∃ k < 8, f.bits.toBitVec = BitVec.twoPow 8 k

theorem single_shift : shift.Single := ⟨0, by decide, rfl⟩

theorem single_control : control.Single := ⟨1, by decide, rfl⟩

theorem single_alt : alt.Single := ⟨2, by decide, rfl⟩

theorem single_capsLock : capsLock.Single := ⟨3, by decide, rfl⟩

theorem single_numLock : numLock.Single := ⟨4, by decide, rfl⟩

theorem single_scrollLock : scrollLock.Single := ⟨5, by decide, rfl⟩

theorem single_extended : extended.Single := ⟨6, by decide, rfl⟩

/-- The one bit that no modifier has. -/
theorem single_unnamed : Single ⟨0x80⟩ := ⟨7, by decide, rfl⟩

/-- To be a member of a set is a bit of its byte. The laws of union, difference and symmetric
    difference below are those of the bits. -/
theorem contains_eq_getLsbD {f : Modifiers} {k : Nat} (hk : k < 8)
    (hf : f.bits.toBitVec = BitVec.twoPow 8 k) (a : Modifiers) :
    a.contains f = a.bits.toBitVec.getLsbD k := by
  -- What a set has in common with a single bit is that bit or nothing.
  have hinter : (a.inter f).bits.toBitVec =
      if a.bits.toBitVec.getLsbD k then BitVec.twoPow 8 k else 0#8 := by
    simp only [inter, UInt8.toBitVec_and, hf, BitVec.and_twoPow]
  have hne : (0#8 : BitVec 8) ≠ BitVec.twoPow 8 k := by
    intro hzero
    have hbit := congrArg (BitVec.getLsbD · k) hzero
    simp only [BitVec.getLsbD_zero, BitVec.getLsbD_twoPow, hk, decide_true, Bool.and_self] at hbit
    exact Bool.false_ne_true hbit
  have heq : a.inter f = f ↔ (a.inter f).bits.toBitVec = f.bits.toBitVec := by
    constructor
    · intro h
      rw [h]
    · intro h
      exact congrArg Modifiers.mk (UInt8.toBitVec_inj.1 h)
  rw [contains, Bool.eq_iff_iff, beq_iff_eq, heq, hinter, hf]
  cases a.bits.toBitVec.getLsbD k with
  | false => simp only [Bool.false_eq_true, if_false, hne]
  | true => simp only [if_true]

theorem contains_union {f : Modifiers} (hf : f.Single) (a b : Modifiers) :
    (a.union b).contains f = (a.contains f || b.contains f) := by
  rcases hf with ⟨k, hk, hbit⟩
  simp only [contains_eq_getLsbD hk hbit, union, UInt8.toBitVec_or, BitVec.getLsbD_or]

theorem contains_symmDiff {f : Modifiers} (hf : f.Single) (a b : Modifiers) :
    (a.symmDiff b).contains f = (a.contains f ^^ b.contains f) := by
  rcases hf with ⟨k, hk, hbit⟩
  simp only [contains_eq_getLsbD hk hbit, symmDiff, UInt8.toBitVec_xor, BitVec.getLsbD_xor]

theorem contains_remove {f : Modifiers} (hf : f.Single) (a b : Modifiers) :
    (a.remove b).contains f = (a.contains f && !b.contains f) := by
  rcases hf with ⟨k, hk, hbit⟩
  simp only [contains_eq_getLsbD hk hbit, remove, UInt8.toBitVec_and, UInt8.toBitVec_not,
    BitVec.getLsbD_and, BitVec.getLsbD_not, hk, decide_true, Bool.true_and]

end Modifiers

/-- What holds of each of 256 bytes holds of every byte. -/
theorem forall_byte {P : UInt8 → Prop} (h : ∀ i : Fin 256, P (UInt8.ofFin i)) (b : UInt8) : P b :=
  h b.toFin

namespace Decoder

/-- The key that a byte names, after a prefix or not. -/
def key (prefixed : Bool) (byte : UInt8) : UInt8 :=
  if byte &&& releaseBit ≠ 0 then
    if prefixed then byte else byte &&& ~~~releaseBit
  else
    if prefixed then byte ||| releaseBit else byte

/-- A byte is a release, and not a prefix, which has the same bit. -/
def isRelease (byte : UInt8) : Bool := byte != extendedPrefix && byte &&& releaseBit != 0

open Modifiers

/-- The modifiers after one byte. -/
theorem modifiers_feed (d : Decoder) (byte : UInt8) :
    (d.feed byte).2.modifiers =
      let key := key (d.modifiers.contains .extended) byte
      if byte = extendedPrefix then d.modifiers.union .extended
      else if isRelease byte then d.modifiers.remove ((heldBy key).union .extended)
      else ((d.modifiers.remove .extended).union (heldBy key)).symmDiff (toggledBy key) := by
  unfold feed key isRelease
  -- A prefix has the bit of a release, so it is told apart first.
  by_cases hescape : byte = extendedPrefix
  · simp only [if_pos hescape]
  -- Then the bit tells a release from a press.
  · by_cases hrelease : byte &&& releaseBit ≠ 0
    · have hbit : (byte != extendedPrefix && byte &&& releaseBit != 0) = true := by
        simp only [bne_iff_ne, Bool.and_eq_true]
        exact ⟨hescape, hrelease⟩
      simp only [if_neg hescape, if_pos hrelease, hbit, if_true, release]
    · have hbit : (byte != extendedPrefix && byte &&& releaseBit != 0) = false := by
        simp only [Bool.and_eq_false_iff, bne_eq_false_iff_eq]
        exact .inr (not_not.1 hrelease)
      simp only [if_neg hescape, if_neg hrelease, hbit, Bool.false_eq_true, if_false, press]

/-- What a byte does to one modifier: a press holds it or toggles it, a release lets
    it go, and a prefix does neither. -/
theorem contains_feed {f : Modifiers} (hf : f.Single) (hne : Modifiers.extended.contains f = false)
    (d : Decoder) (byte : UInt8) :
    (d.feed byte).2.modifiers.contains f =
      let key := key (d.modifiers.contains .extended) byte
      if byte = extendedPrefix then d.modifiers.contains f
      else if isRelease byte then d.modifiers.contains f && !(heldBy key).contains f
      else (d.modifiers.contains f || (heldBy key).contains f) ^^ (toggledBy key).contains f := by
  rw [modifiers_feed]
  by_cases hescape : byte = extendedPrefix
  · simp only [if_pos hescape, contains_union hf, hne, Bool.or_false]
  · by_cases hrelease : isRelease byte = true
    · simp only [if_neg hescape, if_pos hrelease, contains_remove hf, contains_union hf, hne,
        Bool.or_false]
    · simp only [if_neg hescape, if_neg hrelease, contains_symmDiff hf, contains_remove hf,
        contains_union hf, hne, Bool.not_false, Bool.and_true]

/-- A prefix is pending after a prefix, and after no other byte. -/
theorem extended_feed (d : Decoder) (byte : UInt8) :
    (d.feed byte).2.modifiers.contains .extended = (byte == extendedPrefix) := by
  -- No key holds or toggles a prefix, only the byte itself matters.
  have htoggled : ∀ key, (toggledBy key).contains .extended = false := by
    intro key
    unfold toggledBy
    split_ifs <;> decide
  have hheld : ∀ key, (heldBy key).contains .extended = false := by
    intro key
    unfold heldBy
    split_ifs <;> decide
  have hself : Modifiers.extended.contains .extended = true := by decide
  rw [modifiers_feed]
  by_cases hescape : byte = extendedPrefix
  · have hbeq : (byte == extendedPrefix) = true := beq_iff_eq.2 hescape
    simp only [if_pos hescape, contains_union single_extended, hself, Bool.or_true, hbeq]
  · have hbeq : (byte == extendedPrefix) = false := beq_false_of_ne hescape
    by_cases hrelease : isRelease byte = true
    · simp only [if_neg hescape, if_pos hrelease, contains_remove single_extended,
        contains_union single_extended, hself, Bool.or_true, Bool.not_true, Bool.and_false, hbeq]
    · simp only [if_neg hescape, if_neg hrelease, contains_symmDiff single_extended,
        contains_remove single_extended, contains_union single_extended, hself, hheld, htoggled,
        Bool.not_true, Bool.and_false, Bool.or_false, Bool.xor_false, hbeq]

/-- The locks, each with the code of its key. -/
def locks : List (Modifiers × UInt8) :=
  [(.capsLock, 0x3A), (.numLock, 0x45), (.scrollLock, 0x46)]

/-- A modifier that is held, and the scan codes that press and release it. -/
structure Holder where
  modifier : Modifiers
  press : ScanCode → Bool
  release : ScanCode → Bool

/-- The modifiers that are held. Either shift key is a plain key; there is a plain
    and an extended key for control, and for alternate. -/
def holders : List Holder :=
  [⟨.shift, ScanCode.isPlain [0x2A, 0x36], ScanCode.isPlain [0xAA, 0xB6]⟩,
   ⟨.control, ScanCode.isAny [0x1D], ScanCode.isAny [0x9D]⟩,
   ⟨.alt, ScanCode.isAny [0x38], ScanCode.isAny [0xB8]⟩]

theorem locks_single : ∀ l ∈ locks, l.1.Single ∧ Modifiers.extended.contains l.1 = false := by
  simp only [locks, List.forall_mem_cons, List.not_mem_nil, false_implies, implies_true, and_true]
  exact ⟨⟨single_capsLock, by decide⟩, ⟨single_numLock, by decide⟩, ⟨single_scrollLock, by decide⟩⟩

theorem holders_single : ∀ k ∈ holders,
    k.modifier.Single ∧ Modifiers.extended.contains k.modifier = false := by
  simp only [holders, List.forall_mem_cons, List.not_mem_nil, false_implies, implies_true, and_true]
  exact ⟨⟨single_shift, by decide⟩, ⟨single_control, by decide⟩, ⟨single_alt, by decide⟩⟩

/-- Of a lock, for one byte: no key holds it, and its own key toggles it. -/
def LockRow (l : Modifiers × UInt8) (prefixed : Bool) (byte : UInt8) : Prop :=
  (heldBy (key prefixed byte)).contains l.1 = false ∧
    if byte = extendedPrefix ∨ isRelease byte = true then
      ScanCode.isPlain [l.2] ⟨byte, prefixed⟩ = false
    else
      (toggledBy (key prefixed byte)).contains l.1 = ScanCode.isPlain [l.2] ⟨byte, prefixed⟩

instance (l : Modifiers × UInt8) (prefixed : Bool) (byte : UInt8) :
    Decidable (LockRow l prefixed byte) :=
  inferInstanceAs (Decidable (_ ∧ ite _ _ _))

/-- Of a modifier that is held, for one byte: no key toggles it, and its own keys hold
    it and let it go. -/
def HolderRow (k : Holder) (prefixed : Bool) (byte : UInt8) : Prop :=
  (toggledBy (key prefixed byte)).contains k.modifier = false ∧
    if byte = extendedPrefix then
      k.press ⟨byte, prefixed⟩ = false ∧ k.release ⟨byte, prefixed⟩ = false
    else if isRelease byte then
      k.press ⟨byte, prefixed⟩ = false ∧
        (heldBy (key prefixed byte)).contains k.modifier = k.release ⟨byte, prefixed⟩
    else
      k.release ⟨byte, prefixed⟩ = false ∧
        (heldBy (key prefixed byte)).contains k.modifier = k.press ⟨byte, prefixed⟩

instance (k : Holder) (prefixed : Bool) (byte : UInt8) : Decidable (HolderRow k prefixed byte) :=
  inferInstanceAs (Decidable (_ ∧ ite _ _ _))

theorem lockRow_all : ∀ l ∈ locks, ∀ (prefixed : Bool) (i : Fin 256),
    LockRow l prefixed (UInt8.ofFin i) := by
  decide +kernel

theorem holderRow_all : ∀ k ∈ holders, ∀ (prefixed : Bool) (i : Fin 256),
    HolderRow k prefixed (UInt8.ofFin i) := by
  decide +kernel

/-- A press of the key of a lock toggles the lock, and nothing else touches it. -/
theorem lock_feed {l : Modifiers × UInt8} (hl : l ∈ locks) (d : Decoder) (byte : UInt8) :
    (d.feed byte).2.modifiers.contains l.1 =
      (d.modifiers.contains l.1 ^^
        ScanCode.isPlain [l.2] ⟨byte, d.modifiers.contains .extended⟩) := by
  rcases locks_single l hl with ⟨hsingle, hne⟩
  rcases forall_byte (lockRow_all l hl (d.modifiers.contains .extended)) byte with
    ⟨hheld, htoggled⟩
  rw [contains_feed hsingle hne]
  simp only [hheld, Bool.not_false, Bool.and_true, Bool.or_false]
  -- Three kinds of bytes: a prefix, a release, and a press. The table has one line for each.
  by_cases hescape : byte = extendedPrefix
  · rw [if_pos (.inl hescape)] at htoggled
    rw [if_pos hescape, htoggled, Bool.xor_false]
  · by_cases hrelease : isRelease byte = true
    · rw [if_pos (.inr hrelease)] at htoggled
      rw [if_neg hescape, if_pos hrelease, htoggled, Bool.xor_false]
    · rw [if_neg (not_or.2 ⟨hescape, hrelease⟩)] at htoggled
      rw [if_neg hescape, if_neg hrelease, htoggled]

/-- A press holds a modifier, a release lets it go, and nothing else touches it. -/
theorem held_feed {k : Holder} (hk : k ∈ holders) (d : Decoder) (byte : UInt8) :
    (d.feed byte).2.modifiers.contains k.modifier =
      let code := ⟨byte, d.modifiers.contains .extended⟩
      if k.press code then true
      else if k.release code then false
      else d.modifiers.contains k.modifier := by
  rcases holders_single k hk with ⟨hsingle, hne⟩
  rcases forall_byte (holderRow_all k hk (d.modifiers.contains .extended)) byte with
    ⟨htoggled, hheld⟩
  rw [contains_feed hsingle hne]
  simp only [htoggled, Bool.xor_false]
  -- As for a lock, a prefix, a release or a press.
  by_cases hescape : byte = extendedPrefix
  · rw [if_pos hescape] at hheld
    simp only [if_pos hescape, hheld.1, hheld.2, Bool.false_eq_true, if_false]
  · rw [if_neg hescape] at hheld
    by_cases hrelease : isRelease byte = true
    · -- a release, which can only let go
      rw [if_pos hrelease] at hheld
      simp only [if_neg hescape, if_pos hrelease, hheld.1, hheld.2, Bool.false_eq_true, if_false]
      cases k.release ⟨byte, d.modifiers.contains .extended⟩ with
      | false => simp only [Bool.not_false, Bool.and_true, Bool.false_eq_true, if_false]
      | true => simp only [Bool.not_true, Bool.and_false, if_true]
    · -- a press, which can only hold
      rw [if_neg hrelease] at hheld
      simp only [if_neg hescape, if_neg hrelease, hheld.1, hheld.2, Bool.false_eq_true, if_false]
      cases k.press ⟨byte, d.modifiers.contains .extended⟩ with
      | false => simp only [Bool.or_false, Bool.false_eq_true, if_false]
      | true => simp only [Bool.or_true, if_true]

/-- The modifiers after a history of bytes. -/
def modifiersAfter (bytes : List UInt8) : Modifiers := (feedAll {} bytes).2.modifiers

/-- The last byte of a history is fed to the state that the bytes before it leave. -/
theorem feedAll_snoc (d : Decoder) (bytes : List UInt8) (byte : UInt8) :
    (d.feedAll (bytes ++ [byte])).2 = ((d.feedAll bytes).2.feed byte).2 := by
  rw [feedAll_append]
  rfl

/-- A prefix is pending exactly after a history that ends in one. -/
theorem extended_after (bytes : List UInt8) :
    (modifiersAfter bytes).contains .extended = endsInPrefix bytes := by
  induction bytes using List.reverseRecOn with
  | nil => decide
  -- Whether a prefix was pending before plays no part, so the induction hypothesis is not
  -- used.
  | append_singleton rest byte _ =>
      rw [modifiersAfter, feedAll_snoc, extended_feed, endsInPrefix_snoc]

/-- One byte more toggles a lock if it is the plain code of its key. -/
theorem lock_snoc {l : Modifiers × UInt8} (hl : l ∈ locks) (bytes : List UInt8) (byte : UInt8) :
    (modifiersAfter (bytes ++ [byte])).contains l.1 =
      ((modifiersAfter bytes).contains l.1 ^^
        ScanCode.isPlain [l.2] ⟨byte, endsInPrefix bytes⟩) := by
  rw [← extended_after]
  unfold modifiersAfter
  rw [feedAll_snoc, lock_feed hl]

/-- One byte more holds a modifier or lets it go if it is a code that does. -/
theorem held_snoc {k : Holder} (hk : k ∈ holders) (bytes : List UInt8) (byte : UInt8) :
    (modifiersAfter (bytes ++ [byte])).contains k.modifier =
      if k.press ⟨byte, endsInPrefix bytes⟩ then true
      else if k.release ⟨byte, endsInPrefix bytes⟩ then false
      else (modifiersAfter bytes).contains k.modifier := by
  rw [← extended_after]
  unfold modifiersAfter
  rw [feedAll_snoc, held_feed hk]

/-- A lock is on if its key was pressed an odd number of times. -/
theorem lock_after {l : Modifiers × UInt8} (hl : l ∈ locks) (bytes : List UInt8) :
    (modifiersAfter bytes).contains l.1 = true ↔
      Odd ((scanCodes bytes).countP (ScanCode.isPlain [l.2])) := by
  induction bytes using List.reverseRecOn with
  | nil =>
      have hoff : ∀ l ∈ locks, (modifiersAfter []).contains l.1 = false := by decide
      have hzero : ¬Odd 0 := by decide
      rw [hoff l hl]
      exact ⟨nofun, fun h => absurd h hzero⟩
  | append_singleton rest byte ih =>
      rw [lock_snoc hl, scanCodes_snoc, List.countP_append, List.countP_singleton]
      cases ScanCode.isPlain [l.2] ⟨byte, endsInPrefix rest⟩ with
      | false =>
          rw [Bool.xor_false, if_neg Bool.false_ne_true, Nat.add_zero]
          exact ih
      | true =>
          -- one press more turns odd into even and the lock around
          rw [Bool.xor_true, if_pos rfl, Nat.odd_add_one, ← ih, Bool.not_eq_true,
            Bool.not_eq_true']

/-- The last of the scan codes that press or release a key pressed it. -/
def HeldAfter (press release : ScanCode → Bool) (codes : List ScanCode) : Prop :=
  ∃ code, latest (fun code => press code || release code) codes = some code ∧ press code = true

/-- A modifier is held if its key was pressed after it was last released. -/
theorem held_after {k : Holder} (hk : k ∈ holders) (bytes : List UInt8) :
    (modifiersAfter bytes).contains k.modifier = true ↔
      HeldAfter k.press k.release (scanCodes bytes) := by
  unfold HeldAfter
  induction bytes using List.reverseRecOn with
  | nil =>
      have hoff : ∀ k ∈ holders, (modifiersAfter []).contains k.modifier = false := by decide
      rw [hoff k hk]
      exact ⟨nofun, fun ⟨_, hnone, _⟩ => nomatch hnone⟩
  | append_singleton rest byte ih =>
      rw [held_snoc hk, scanCodes_snoc, latest_snoc]
      cases hpress : k.press ⟨byte, endsInPrefix rest⟩ with
      | true =>
          simp only [if_true, Bool.true_or, true_iff]
          exact ⟨_, rfl, hpress⟩
      | false =>
          cases k.release ⟨byte, endsInPrefix rest⟩ with
          | true =>
              -- the last such scan code is this one, and it does not press the key
              simp only [Bool.false_eq_true, if_false, if_true, Bool.or_true, false_iff]
              intro ⟨code, hlast, hpressed⟩
              rw [← Option.some.inj hlast, hpress] at hpressed
              exact Bool.false_ne_true hpressed
          | false =>
              simp only [Bool.false_eq_true, if_false, Bool.or_false]
              exact ih

/-- No byte sets the bit that no modifier has. -/
theorem unnamed_after (bytes : List UInt8) : (modifiersAfter bytes).contains ⟨0x80⟩ = false := by
  have hheld : ∀ key, (heldBy key).contains ⟨0x80⟩ = false := by
    intro key
    unfold heldBy
    split_ifs <;> decide
  have htoggled : ∀ key, (toggledBy key).contains ⟨0x80⟩ = false := by
    intro key
    unfold toggledBy
    split_ifs <;> decide
  -- No key holds or toggles that bit, so a byte leaves it as it was.
  induction bytes using List.reverseRecOn with
  | nil => decide
  | append_singleton rest byte ih =>
      unfold modifiersAfter at ih ⊢
      rw [feedAll_snoc, contains_feed single_unnamed (by decide)]
      simp only [ih, hheld, htoggled, Bool.false_and, Bool.or_self, Bool.xor_self, ite_self]

/-- After any bytes, each modifier says one thing of their history, and the eighth
    bit is never set. No byte that comes after a prefix touches a lock, nor does one
    that is a release or a prefix. -/
theorem modifiers_reflect_history (bytes : List UInt8) :
    let modifiers := (feedAll {} bytes).2.modifiers
    let codes := scanCodes bytes
    (modifiers.contains .extended = true ↔ bytes.getLast? = some 0xE0) ∧
    (modifiers.contains .capsLock = true ↔ Odd (codes.countP (ScanCode.isPlain [0x3A]))) ∧
    (modifiers.contains .numLock = true ↔ Odd (codes.countP (ScanCode.isPlain [0x45]))) ∧
    (modifiers.contains .scrollLock = true ↔ Odd (codes.countP (ScanCode.isPlain [0x46]))) ∧
    (modifiers.contains .shift = true ↔
      HeldAfter (ScanCode.isPlain [0x2A, 0x36]) (ScanCode.isPlain [0xAA, 0xB6]) codes) ∧
    (modifiers.contains .control = true ↔
      HeldAfter (ScanCode.isAny [0x1D]) (ScanCode.isAny [0x9D]) codes) ∧
    (modifiers.contains .alt = true ↔
      HeldAfter (ScanCode.isAny [0x38]) (ScanCode.isAny [0xB8]) codes) ∧
    modifiers.bits &&& 0x80 = 0 ∧
    ∀ byte, byte &&& 0x80 ≠ 0 ∨ bytes.getLast? = some 0xE0 →
      ∀ lock ∈ [Modifiers.capsLock, .numLock, .scrollLock],
        (feedAll {} (bytes ++ [byte])).2.modifiers.contains lock = modifiers.contains lock := by
  have hescape : endsInPrefix bytes = true ↔ bytes.getLast? = some 0xE0 := beq_iff_eq
  refine ⟨?_, lock_after (l := (.capsLock, 0x3A)) (by decide) bytes,
    lock_after (l := (.numLock, 0x45)) (by decide) bytes,
    lock_after (l := (.scrollLock, 0x46)) (by decide) bytes,
    held_after (k := holders[0]) (List.getElem_mem _) bytes,
    held_after (k := holders[1]) (List.getElem_mem _) bytes,
    held_after (k := holders[2]) (List.getElem_mem _) bytes, ?_, ?_⟩
  · rw [← hescape, ← extended_after]
    rfl
  · have hbit : ∀ i : Fin 256, Modifiers.contains ⟨UInt8.ofFin i⟩ ⟨0x80⟩ = false →
        UInt8.ofFin i &&& 0x80 = 0 := by decide +kernel
    exact hbit _ (unnamed_after bytes)
  · intro byte hbyte lock hlock
    -- The code of a lock has no release bit, whichever lock it is.
    obtain ⟨code, hmem, hcode⟩ : ∃ code, (lock, code) ∈ locks ∧ code &&& 0x80 = 0 := by
      simp only [List.mem_cons, List.not_mem_nil, or_false] at hlock
      rcases hlock with rfl | rfl | rfl
      · exact ⟨0x3A, by decide, by decide⟩
      · exact ⟨0x45, by decide, by decide⟩
      · exact ⟨0x46, by decide, by decide⟩
    -- the key of a lock is a plain key, and its code is no release
    have hplain : ScanCode.isPlain [code] ⟨byte, endsInPrefix bytes⟩ = false := by
      unfold ScanCode.isPlain
      rcases hbyte with hhigh | hpending
      · have hne : byte ≠ code := by
          intro h
          exact hhigh (h ▸ hcode)
        simp only [List.contains_cons, List.contains_nil, beq_false_of_ne hne, Bool.or_false,
          Bool.and_false]
      · simp only [hescape.2 hpending, Bool.not_true, Bool.false_and]
    have hsnoc := lock_snoc hmem bytes byte
    rw [hplain, Bool.xor_false] at hsnoc
    exact hsnoc

end Decoder

end KernelConsole
