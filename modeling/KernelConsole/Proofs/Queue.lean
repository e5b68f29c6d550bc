import KernelConsole.Ring
import Mathlib.Algebra.Ring.Nat
import Mathlib.Data.List.DropRight

/-!
# The Queue as a List

What a ring does, seen through its contents. The slots and the two running
positions are one way of holding a list of at most 512 bytes, and everything a
user of a ring relies on can be said about that list: a push adds at the end and
drops the head of a full list, a pop takes the head.

The positions wrap, so two things have to hold of their width. The capacity has
to divide the number of positions, or the slots would jump where a position
wraps. And there have to be more positions than slots, or a full ring would have
the size of an empty one.

## Main definitions

* `Ring.WideEnough`: Positions are wide enough for the capacity.
* `Ring.Bounded`: A ring holds no more bytes than it has slots.

## Theorems

* `Ring.slot_add`: The slot of a later position.
* `Ring.contents_push`, `Ring.contents_pop`: A push and a pop on the contents.
* `Ring.bounded_push`, `Ring.bounded_pop`: No operation overfills a ring.
* `Ring.contents_pushAll`: Of bytes that are pushed the newest stay.
* `Ring.contents_drain`: Nothing is left after draining.
-/

namespace KernelConsole

namespace Ring

variable {w : Nat}

/-- Positions of `w` bits tell the slots apart, wrap in step with them, and tell
    a full ring from an empty one. -/
structure WideEnough (w : Nat) : Prop where
  /-- Wrapping a position does not jump over slots. -/
  dvd : capacity ∣ 2 ^ w
  /-- There are more positions than slots. -/
  lt : capacity < 2 ^ w

theorem wideEnough_word : WideEnough 64 := ⟨by decide, by decide⟩

/-- The ring holds no more bytes than it has slots. -/
def Bounded (r : Ring w) : Prop := r.size ≤ capacity

theorem bounded_empty : (empty : Ring w).Bounded := by
  simp only [Bounded, size, empty, BitVec.sub_self, BitVec.toNat_zero, Nat.zero_le]

/-- Nothing is unread in a ring that has never been used. -/
theorem contents_empty : (empty : Ring w).contents = [] := by
  simp only [contents, size, empty, BitVec.sub_self, BitVec.toNat_zero, List.range_zero,
    List.map_nil]

theorem length_contents (r : Ring w) : r.contents.length = r.size := by
  simp only [contents, List.length_map, List.length_range]

/-- The slot of the position `i` steps on, in numbers that do not wrap. -/
theorem slot_add (hw : WideEnough w) (pos : BitVec w) (i : Nat) :
    (slot (pos + BitVec.ofNat w i) : Nat) = (pos.toNat + i) % capacity := by
  simp only [slot, BitVec.toNat_add, BitVec.toNat_ofNat, Nat.add_mod_mod]
  exact Nat.mod_mod_of_dvd _ hw.dvd

/-- Positions less than a capacity apart have different slots. -/
theorem slot_ne (hw : WideEnough w) (pos : BitVec w) {i j : Nat} (hij : i < j)
    (hj : j < i + capacity) :
    slot (pos + BitVec.ofNat w i) ≠ slot (pos + BitVec.ofNat w j) := by
  intro heq
  have hval := congrArg Fin.val heq
  rw [slot_add hw, slot_add hw] at hval
  -- Equal slots would put the two positions a multiple of the capacity apart.
  have hdvd : capacity ∣ (pos.toNat + j) - (pos.toNat + i) :=
    Nat.dvd_of_mod_eq_zero (Nat.sub_mod_eq_zero_of_mod_eq hval.symm)
  have hle := Nat.le_of_dvd (by omega) hdvd
  omega

/-- The byte at a position. -/
def byteAt (r : Ring w) (pos : BitVec w) : UInt8 := r.slots[slot pos]

theorem contents_eq (r : Ring w) :
    r.contents = (List.range r.size).map fun i => r.byteAt (r.readPos + BitVec.ofNat w i) := rfl

theorem add_ofNat (pos : BitVec w) (i j : Nat) :
    pos + BitVec.ofNat w i + BitVec.ofNat w j = pos + BitVec.ofNat w (i + j) := by
  rw [BitVec.add_assoc, ← BitVec.ofNat_add]

theorem writePos_eq (r : Ring w) : r.writePos = r.readPos + BitVec.ofNat w r.size := by
  rw [size, BitVec.ofNat_toNat, BitVec.setWidth_eq, BitVec.add_comm, BitVec.sub_add_cancel]

theorem size_of_steps {r : Ring w} {n : Nat} (hn : n < 2 ^ w)
    (h : r.writePos = r.readPos + BitVec.ofNat w n) : r.size = n := by
  rw [size, h, BitVec.add_comm, BitVec.add_sub_cancel, BitVec.toNat_ofNat, Nat.mod_eq_of_lt hn]

/-- A push moves the write position on by one, whether the ring is full or not. -/
theorem writePos_push (r : Ring w) (byte : UInt8) :
    (r.push byte).writePos = r.readPos + BitVec.ofNat w (r.size + 1) := by
  rw [← add_ofNat, ← writePos_eq]
  rfl

theorem readPos_push (r : Ring w) (byte : UInt8) :
    (r.push byte).readPos =
      if r.size = capacity then r.readPos + BitVec.ofNat w 1 else r.readPos := rfl

/-- A push adds one to the size, up to the capacity. -/
theorem size_push (hw : WideEnough w) {r : Ring w} (hr : r.Bounded) (byte : UInt8) :
    (r.push byte).size = if r.size = capacity then capacity else r.size + 1 := by
  have hlt := hw.lt
  have hle : r.size ≤ capacity := hr
  by_cases hfull : r.size = capacity
  · -- both positions move on
    rw [if_pos hfull]
    refine size_of_steps hlt ?_
    rw [writePos_push, readPos_push, if_pos hfull, add_ofNat, hfull, Nat.add_comm]
  · -- only the write position does
    rw [if_neg hfull]
    refine size_of_steps (by omega) ?_
    rw [writePos_push, readPos_push, if_neg hfull]

/-- A push keeps a ring bounded, because a full one drops a byte for the new one. -/
theorem bounded_push (hw : WideEnough w) {r : Ring w} (hr : r.Bounded) (byte : UInt8) :
    (r.push byte).Bounded := by
  have hle : r.size ≤ capacity := hr
  rw [Bounded, size_push hw hr]
  by_cases hfull : r.size = capacity
  · rw [if_pos hfull]
  · rw [if_neg hfull]
    omega

/-- A push leaves the byte of an unread position alone, unless the ring is full
    and the position is the oldest one. -/
theorem byteAt_push (hw : WideEnough w) (r : Ring w) (byte : UInt8) {i : Nat} (hi : i < r.size)
    (hlt : r.size < i + capacity) :
    (r.push byte).byteAt (r.readPos + BitVec.ofNat w i) =
      r.byteAt (r.readPos + BitVec.ofNat w i) := by
  have hne := slot_ne hw r.readPos hi hlt
  rw [← writePos_eq] at hne
  exact Vector.getElem_set_ne (slot r.writePos).isLt (Fin.isLt _) fun h => hne (Fin.ext h.symm)

/-- The new byte is the last unread one. -/
theorem byteAt_push_last (r : Ring w) (byte : UInt8) :
    (r.push byte).byteAt (r.readPos + BitVec.ofNat w r.size) = byte := by
  rw [← writePos_eq]
  exact Vector.getElem_set_self _

/-- A push adds its byte at the end, and drops the oldest one from a full ring. -/
theorem contents_push (hw : WideEnough w) {r : Ring w} (hr : r.Bounded) (byte : UInt8) :
    (r.push byte).contents =
      (if r.size = capacity then r.contents.tail else r.contents) ++ [byte] := by
  have hle : r.size ≤ capacity := hr
  by_cases hfull : r.size = capacity
  · -- The slot of the byte that is dropped is the one the new byte goes to.
    obtain ⟨n, hn⟩ : ∃ n, capacity = n + 1 := ⟨511, rfl⟩
    have hold : r.contents.tail =
        (List.range n).map fun i => r.byteAt (r.readPos + BitVec.ofNat w (i + 1)) := by
      rw [contents_eq, hfull, hn, List.range_succ_eq_map, List.map_cons, List.tail_cons,
        List.map_map]
      rfl
    rw [if_pos hfull, hold, contents_eq, size_push hw hr, readPos_push, if_pos hfull,
      if_pos hfull, hn, List.range_succ, List.map_append]
    simp only [List.map_cons, List.map_nil, add_ofNat]
    congr 1
    · refine List.map_congr_left fun i hi => ?_
      rw [List.mem_range] at hi
      rw [Nat.add_comm 1 i]
      exact byteAt_push hw r byte (by omega) (by omega)
    · rw [Nat.add_comm 1 n, ← hn, ← hfull, byteAt_push_last]
  · -- Every byte stays, and stays where it is.
    rw [if_neg hfull, contents_eq, contents_eq, size_push hw hr, readPos_push, if_neg hfull,
      if_neg hfull, List.range_succ, List.map_append]
    simp only [List.map_cons, List.map_nil, byteAt_push_last]
    congr 1
    refine List.map_congr_left fun i hi => ?_
    rw [List.mem_range] at hi
    exact byteAt_push hw r byte hi (by omega)

/-- A ring is empty exactly if nothing in it is unread. -/
theorem isEmpty_iff (r : Ring w) : r.isEmpty = true ↔ r.contents = [] := by
  rw [← List.length_eq_zero_iff, length_contents, size, isEmpty, beq_iff_eq]
  constructor
  · intro h
    rw [h, BitVec.sub_self, BitVec.toNat_zero]
  · intro h
    -- No steps apart means the same position.
    have hzero : r.writePos - r.readPos = 0 := BitVec.eq_of_toNat_eq (by rw [h]; rfl)
    rw [← BitVec.sub_add_cancel r.writePos r.readPos, hzero]
    exact (BitVec.zero_add _).symm

/-- A pop of an empty ring gives nothing and changes nothing; any other takes the
    oldest byte. -/
theorem contents_pop (hw : WideEnough w) {r : Ring w} (hr : r.Bounded) :
    (r.contents = [] ∧ r.pop = (none, r)) ∨
      ∃ byte, r.pop.1 = some byte ∧ r.contents = byte :: r.pop.2.contents := by
  by_cases hempty : r.isEmpty = true
  · refine Or.inl ⟨(isEmpty_iff r).1 hempty, ?_⟩
    rw [pop, if_pos hempty]
  · -- The read position moves on, and the write position stays: one step less.
    have hpop : r.pop = (some (r.byteAt r.readPos),
        { r with readPos := r.readPos + BitVec.ofNat w 1 }) := by
      rw [pop, if_neg hempty]
      rfl
    have hpos : r.size ≠ 0 := by
      rw [← length_contents]
      exact fun h => hempty ((isEmpty_iff r).2 (List.length_eq_zero_iff.1 h))
    obtain ⟨n, hn⟩ : ∃ n, r.size = n + 1 := ⟨r.size - 1, by omega⟩
    have hlt := hw.lt
    have hle : r.size ≤ capacity := hr
    have hsize : r.pop.2.size = n := by
      refine size_of_steps (by omega) ?_
      rw [hpop, add_ofNat, Nat.add_comm 1 n, ← hn]
      exact writePos_eq r
    refine Or.inr ⟨r.byteAt r.readPos, by rw [hpop], ?_⟩
    rw [contents_eq, contents_eq, hsize, hn, List.range_succ_eq_map, hpop]
    simp only [List.map_cons, List.map_map, add_ofNat, List.cons.injEq]
    refine ⟨by rw [BitVec.add_zero], ?_⟩
    refine List.map_congr_left fun i _ => ?_
    simp only [Function.comp, Nat.succ_eq_add_one, Nat.add_comm 1 i]
    rfl

/-- A pop keeps a ring bounded. -/
theorem bounded_pop (hw : WideEnough w) {r : Ring w} (hr : r.Bounded) : r.pop.2.Bounded := by
  rcases contents_pop hw hr with ⟨_, hpop⟩ | ⟨byte, _, hcons⟩
  · rw [hpop]
    exact hr
  · have hlen := congrArg List.length hcons
    rw [length_contents, List.length_cons, length_contents] at hlen
    have hle : r.size ≤ capacity := hr
    simp only [Bounded]
    omega

/-- The newest `n` of at most `n` are all of them. -/
theorem rtake_of_length_le {α : Type} {xs : List α} {n : Nat} (h : xs.length ≤ n) :
    xs.rtake n = xs := by
  rw [List.rtake, Nat.sub_eq_zero_of_le h, List.drop_zero]

/-- The newest of the newest and more are the newest of all. -/
theorem rtake_append_rtake {α : Type} (xs ys : List α) (n : Nat) :
    (xs.rtake n ++ ys).rtake n = (xs ++ ys).rtake n := by
  have hdrop : xs.rtake n ++ ys = (xs ++ ys).drop (xs.length - n) := by
    rw [List.rtake, List.drop_append_of_le_length (Nat.sub_le _ _)]
  rw [hdrop, List.rtake, List.drop_drop, List.length_drop, List.rtake, List.length_append]
  congr 1
  omega

/-- What is pushed follows what is there, and the newest bytes stay. -/
theorem contents_pushAll (hw : WideEnough w) {r : Ring w} (hr : r.Bounded)
    (bytes : List UInt8) :
    (r.pushAll bytes).Bounded ∧
      (r.pushAll bytes).contents = (r.contents ++ bytes).rtake capacity := by
  induction bytes generalizing r with
  | nil =>
      refine ⟨hr, ?_⟩
      have hle : r.size ≤ capacity := hr
      rw [← length_contents] at hle
      rw [List.append_nil, rtake_of_length_le hle]
      rfl
  | cons byte rest ih =>
      have hle : r.size ≤ capacity := hr
      rcases ih (bounded_push hw hr byte) with ⟨hb, hc⟩
      refine ⟨hb, hc.trans ?_⟩
      -- The first byte is one push, and the rest is the induction on the ring after it.
      rw [contents_push hw hr]
      by_cases hfull : r.size = capacity
      · -- One byte more than fits: the head goes, and `rtake` drops it too.
        have hne : r.contents ≠ [] := by
          intro h
          have hlen := length_contents r
          rw [h, hfull] at hlen
          exact absurd hlen (by decide)
        rcases List.exists_cons_of_ne_nil hne with ⟨b, tail, htail⟩
        have hlen := length_contents r
        rw [htail, List.length_cons, hfull] at hlen
        rw [if_pos hfull, htail, List.tail_cons, List.append_assoc, List.singleton_append,
          List.cons_append, List.rtake, List.rtake]
        rw [show (b :: (tail ++ byte :: rest)).length - capacity =
          ((tail ++ byte :: rest).length - capacity) + 1 by
            simp only [List.length_cons, List.length_append]; omega, List.drop_succ_cons]
      · rw [if_neg hfull, List.append_assoc, List.singleton_append]

theorem pushAll_append (r : Ring w) (xs ys : List UInt8) :
    r.pushAll (xs ++ ys) = (r.pushAll xs).pushAll ys :=
  List.foldl_append

/-- After a drain nothing is unread. -/
theorem contents_drain (r : Ring w) : r.drain.2.Bounded ∧ r.drain.2.contents = [] := by
  have hsize : r.drain.2.size = 0 := by
    simp only [drain, size, BitVec.sub_self, BitVec.toNat_zero]
  constructor
  · rw [Bounded, hsize]
    exact Nat.zero_le _
  · rw [← List.length_eq_zero_iff, length_contents, hsize]

end Ring

end KernelConsole
