import KernelConsole.Proofs.Queue

/-!
# The Ring is a Bounded Queue

A queue of bytes that holds at most 512 and drops its oldest byte to make room is
a few lines on lists. Through its contents, a ring is that queue: whatever is done
to the one can be done to the other, and nobody can tell them apart.

This holds in every state whose positions are at most 512 apart, wherever they are.
Either of them, or both, may have wrapped past the last position. A ring that starts
empty is in such a state for ever, so any sequence of pushes and pops gives the
results of the queue.

The capacity is compared with the size of the ring, so it has to be a position
itself. That is what `Ring.WideEnough` adds to its dividing the number of positions.

## Main definitions

* `BoundedQueue.push`, `BoundedQueue.pop`: The queue on lists.
* `QueueUse`, `QueueSight`: A use of a queue, and what its user sees of it then.
* `BoundedQueue.useAll`, `Ring.useAll`: Several uses.

## Theorems

* `Ring.wideEnough_iff`: Which widths are wide enough.
* `Ring.getElem?_contents`: Where the unread bytes are.
* `Ring.contents_push_queue`, `Ring.contents_pop_queue`: One use.
* `Ring.use_queue`, `Ring.useAll_queue`: Any uses, from any state.
* `Ring.refines_bounded_queue`: The ring is the queue.
-/

namespace KernelConsole

/-- A use of a queue. -/
inductive QueueUse
  | push (byte : UInt8)
  | pop

/-- What the user of a queue sees after a use. -/
structure QueueSight where
  /-- The byte that was taken. A push takes none. -/
  taken : Option UInt8
  /-- How many bytes are unread. -/
  size : Nat
  /-- Whether none is. -/
  isEmpty : Bool
deriving DecidableEq

namespace BoundedQueue

/-- Adds a byte at the end. The first one of a full queue goes. -/
def push (q : List UInt8) (byte : UInt8) : List UInt8 :=
  if q.length = Ring.capacity then (q ++ [byte]).tail else q ++ [byte]

/-- Takes the first byte. -/
def pop : List UInt8 → Option UInt8 × List UInt8
  | [] => (none, [])
  | byte :: rest => (some byte, rest)

/-- Uses the queue once. -/
def use (q : List UInt8) : QueueUse → QueueSight × List UInt8
  | .push byte => (⟨none, (push q byte).length, (push q byte).isEmpty⟩, push q byte)
  | .pop => (⟨(pop q).1, (pop q).2.length, (pop q).2.isEmpty⟩, (pop q).2)

/-- Uses the queue several times and collects what is seen. -/
def useAll (q : List UInt8) : List QueueUse → List QueueSight × List UInt8
  | [] => ([], q)
  | u :: rest => ((use q u).1 :: (useAll (use q u).2 rest).1, (useAll (use q u).2 rest).2)

end BoundedQueue

namespace Ring

variable {w : Nat}

/-- Uses the ring once. -/
def use (r : Ring w) : QueueUse → QueueSight × Ring w
  | .push byte => (⟨none, (r.push byte).size, (r.push byte).isEmpty⟩, r.push byte)
  | .pop => (⟨r.pop.1, r.pop.2.size, r.pop.2.isEmpty⟩, r.pop.2)

/-- Uses the ring several times and collects what is seen. -/
def useAll (r : Ring w) : List QueueUse → List QueueSight × Ring w
  | [] => ([], r)
  | u :: rest => ((r.use u).1 :: ((r.use u).2.useAll rest).1, ((r.use u).2.useAll rest).2)

/-- The capacity is the ninth power of two. It is a position itself if there are
    more bits than nine, and then it divides the number of positions. -/
theorem wideEnough_iff : WideEnough w ↔ 9 < w := by
  constructor
  · intro hw
    exact (Nat.pow_lt_pow_iff_right Nat.one_lt_two).1 (show 2 ^ 9 < 2 ^ w from hw.lt)
  · intro h
    exact ⟨Nat.pow_dvd_pow (m := 9) 2 (Nat.le_of_lt h), Nat.pow_lt_pow_right (m := 9)
      Nat.one_lt_two h⟩

/-- The unread bytes are in the slots from the read position on. -/
theorem getElem?_contents (r : Ring w) {i : Nat} (hi : i < r.size) :
    r.contents[i]? = r.slots[(r.readPos.toNat + i) % 2 ^ w % capacity]? := by
  -- The position may wrap at the word, and the slot at the capacity.
  have hslot : (slot (r.readPos + BitVec.ofNat w i) : Nat) =
      (r.readPos.toNat + i) % 2 ^ w % capacity := by
    simp only [slot, BitVec.toNat_add, BitVec.toNat_ofNat, Nat.add_mod_mod]
  have hlt : (r.readPos.toNat + i) % 2 ^ w % capacity < capacity := Nat.mod_lt _ (by decide)
  have hbyte : r.contents[i]? = some r.slots[slot (r.readPos + BitVec.ofNat w i)] := by
    simp only [contents, List.getElem?_map, List.getElem?_range hi, Option.map_some]
  rw [hbyte, Vector.getElem?_eq_getElem hlt]
  simp only [Fin.getElem_fin, hslot]

/-- A push on the ring is a push on the queue of its unread bytes. -/
theorem contents_push_queue (hw : WideEnough w) {r : Ring w} (hr : r.Bounded) (byte : UInt8) :
    (r.push byte).contents = BoundedQueue.push r.contents byte := by
  rw [contents_push hw hr, BoundedQueue.push, length_contents]
  by_cases hfull : r.size = capacity
  · -- a full ring is not empty, so its head is that of the longer list
    have hne : r.contents ≠ [] := by
      intro h
      have hlen := length_contents r
      rw [h, hfull] at hlen
      exact absurd hlen (by decide)
    rw [if_pos hfull, if_pos hfull, List.tail_append_of_ne_nil hne]
  · rw [if_neg hfull, if_neg hfull]

theorem contents_pop_queue (hw : WideEnough w) {r : Ring w} (hr : r.Bounded) :
    (r.pop.1, r.pop.2.contents) = BoundedQueue.pop r.contents := by
  rcases contents_pop hw hr with ⟨hempty, hpop⟩ | ⟨byte, hbyte, hcons⟩
  · rw [hpop, hempty]
    rfl
  · rw [hbyte, hcons]
    rfl

/-- A pop gives nothing exactly if nothing is unread, and then changes nothing. -/
theorem pop_eq_none (hw : WideEnough w) {r : Ring w} (hr : r.Bounded) :
    (r.pop.1 = none ↔ r.contents = []) ∧ (r.contents = [] → r.pop.2 = r) := by
  rcases contents_pop hw hr with ⟨hempty, hpop⟩ | ⟨byte, hbyte, hcons⟩
  · rw [hpop]
    exact ⟨iff_of_true rfl hempty, fun _ => rfl⟩
  · have hne : r.contents ≠ [] := by
      rw [hcons]
      exact List.cons_ne_nil _ _
    refine ⟨iff_of_false ?_ hne, fun h => absurd h hne⟩
    rw [hbyte]
    exact Option.some_ne_none _

theorem isEmpty_contents (r : Ring w) : r.contents.isEmpty = r.isEmpty := by
  rw [Bool.eq_iff_iff, List.isEmpty_iff, isEmpty_iff]

/-- One use of a ring is one of the queue. -/
theorem use_queue (hw : WideEnough w) {r : Ring w} (hr : r.Bounded) (u : QueueUse) :
    (r.use u).2.Bounded ∧
      ((r.use u).1, (r.use u).2.contents) = BoundedQueue.use r.contents u := by
  cases u with
  | push byte =>
      refine ⟨bounded_push hw hr byte, ?_⟩
      simp only [use, BoundedQueue.use, ← contents_push_queue hw hr byte, length_contents,
        isEmpty_contents]
  | pop =>
      have hpop := contents_pop_queue hw hr
      refine ⟨bounded_pop hw hr, ?_⟩
      simp only [use, BoundedQueue.use, ← hpop, length_contents, isEmpty_contents]

/-- Any uses of a ring are those of the queue. -/
theorem useAll_queue (hw : WideEnough w) (uses : List QueueUse) {r : Ring w} (hr : r.Bounded) :
    (r.useAll uses).2.Bounded ∧
      ((r.useAll uses).1, (r.useAll uses).2.contents) = BoundedQueue.useAll r.contents uses := by
  induction uses generalizing r with
  | nil => exact ⟨hr, rfl⟩
  | cons u rest ih =>
      -- One use keeps the ring bounded, so the rest of them is again about a bounded one.
      rcases use_queue hw hr u with ⟨hbounded, huse⟩
      rcases ih hbounded with ⟨hend, hrest⟩
      refine ⟨hend, ?_⟩
      simp only [useAll, BoundedQueue.useAll, ← huse, ← hrest]

/-- In every state whose positions are at most a capacity apart, a ring does to its
    unread bytes what the queue does, its size is their number, and the positions
    stay that close. So from an empty ring any pushes and pops show what the queue
    shows. -/
theorem refines_bounded_queue (hw : WideEnough w) :
    (∀ r : Ring w, r.Bounded →
      (∀ i < r.size, r.contents[i]? = r.slots[(r.readPos.toNat + i) % 2 ^ w % capacity]?) ∧
      (∀ byte, (r.push byte).contents = BoundedQueue.push r.contents byte ∧
        (r.push byte).Bounded) ∧
      (r.pop.1, r.pop.2.contents) = BoundedQueue.pop r.contents ∧
      (r.pop.1 = none ↔ r.contents = []) ∧ (r.contents = [] → r.pop.2 = r) ∧
      r.pop.2.Bounded ∧
      r.size = r.contents.length ∧ (r.isEmpty = true ↔ r.contents = [])) ∧
    ∀ uses, ((empty : Ring w).useAll uses).1 = (BoundedQueue.useAll [] uses).1 := by
  constructor
  · intro r hr
    rcases pop_eq_none hw hr with ⟨hnone, hsame⟩
    exact ⟨fun i hi => r.getElem?_contents hi,
      fun byte => ⟨contents_push_queue hw hr byte, bounded_push hw hr byte⟩,
      contents_pop_queue hw hr, hnone, hsame, bounded_pop hw hr, r.length_contents.symm,
      r.isEmpty_iff⟩
  · intro uses
    have hqueue := (useAll_queue hw uses (r := (empty : Ring w)) bounded_empty).2
    rw [contents_empty] at hqueue
    exact congrArg Prod.fst hqueue

/-- Ten bits are the fewest that are enough. Three bytes are unread here, and the
    position that the next one goes to has wrapped. -/
def wrapped : Ring 10 where
  slots := ((Vector.replicate capacity 0x62).set 0 0x63 (by decide)).set 510 0x61 (by decide)
  readPos := 1022
  writePos := 1

theorem refines_bounded_queue_wrapped :
    WideEnough 10 ∧ wrapped.Bounded ∧
      (wrapped.push 0x64).contents = BoundedQueue.push [0x61, 0x62, 0x63] 0x64 ∧
      (wrapped.pop.1, wrapped.pop.2.contents) = (some 0x61, [0x62, 0x63]) := by
  have hw : WideEnough 10 := wideEnough_iff.2 (by decide)
  have hbounded : wrapped.Bounded := by
    rw [Bounded]
    decide
  have hcontents : wrapped.contents = [0x61, 0x62, 0x63] := by decide +kernel
  obtain ⟨_, hpush, hpop, _⟩ := (refines_bounded_queue hw).1 wrapped hbounded
  rw [hcontents] at hpush hpop
  exact ⟨hw, hbounded, (hpush 0x64).1, hpop⟩

end Ring

end KernelConsole
