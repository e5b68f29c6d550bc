import KernelConsole.Proofs.Console.Steps

/-!
# Arrivals

Which bytes come in, read off the bus. Whatever is read from the receive register of a
serial port or from the data register of a keyboard has come in, whoever read it and
whatever was made of it. There is one exception. Programming the serial port clears it, so
the byte that is read then has not come in.

What is queued follows from what arrives. A serial byte is queued unless it is
zero. A scan code goes through the decoder, which starts with nothing held when
the machine is switched on and sees every scan code once, and the byte of its
event is queued, if there is one. No such byte is zero.

## Main definitions

* `Source`: The two input devices.
* `arrivalsIn`: What was read from their registers.
* `Console.Leg.arrivals`, `arrivals`: The bytes that came in during a leg and a route.
* `bytesFrom`: Those of one device.
* `queuedBy`, `enqueued`: What is queued of them.
* `keysIn`: The bytes of the keys in some events.

## Theorems

* `Decoder.feed_congr`: The decoder looks at nothing but the modifiers.
* `Decoder.byte?_feed_ne_zero`: No event has the byte zero.
* `queuedBy_append`: Queueing in two parts.
* `queuedBy_serial`: What is queued of the serial port is what is not zero.
* `queuedBy_keyboard`: What is queued of the keyboard is what the decoder makes
  of all scan codes.
* `enqueued_snoc`, `decoderAfter_snoc`: One leg more.
-/

namespace KernelConsole

namespace Decoder

/-- The decoder looks at nothing but the modifiers. -/
theorem feed_congr {d e : Decoder} (h : d.modifiers = e.modifiers) (scancode : UInt8) :
    (d.feed scancode).1 = (e.feed scancode).1 ∧
      (d.feed scancode).2.modifiers = (e.feed scancode).2.modifiers := by
  unfold feed
  rw [h]
  by_cases hprefix : scancode = extendedPrefix
  · simp only [if_pos hprefix, and_self]
  · simp only [if_neg hprefix]
    by_cases hrelease : scancode &&& releaseBit ≠ 0
    · simp only [if_pos hrelease, release, h, and_self]
    · simp only [if_neg hrelease, press, h, and_self]

/-- Scan codes may be fed in two goes. -/
theorem feedAll_append (d : Decoder) (xs ys : List UInt8) :
    d.feedAll (xs ++ ys) =
      ((d.feedAll xs).1 ++ ((d.feedAll xs).2.feedAll ys).1, ((d.feedAll xs).2.feedAll ys).2) := by
  induction xs generalizing d with
  | nil => rfl
  | cons x rest ih => simp only [List.cons_append, feedAll, ih]

/-- The byte of an event is that of the layout, where zero is an empty place. -/
theorem byte?_ofCode (c : UInt8) :
    (KeyEvent.ofCode c).byte? = if c = 0 then none else some c := by
  unfold KeyEvent.ofCode
  by_cases hzero : c = 0
  · rw [if_pos hzero, if_pos hzero]
    rfl
  · rw [if_neg hzero, if_neg hzero]
    cases hkey : VirtualKey.ofCode? c with
    | none => rfl
    | some k =>
        -- A virtual key that was found by its code has that code.
        have hcode := List.find?_some hkey
        simp only [KeyEvent.byte?, beq_iff_eq.1 hcode]

theorem byte?_ofCode_ne_zero (c : UInt8) : (KeyEvent.ofCode c).byte? ≠ some 0 := by
  rw [byte?_ofCode]
  by_cases hzero : c = 0
  · rw [if_pos hzero]
    exact nofun
  · rw [if_neg hzero]
    exact fun h => hzero (Option.some.inj h)

theorem byte?_feed_ne_zero (d : Decoder) (scancode : UInt8) :
    (d.feed scancode).1.byte? ≠ some 0 := by
  unfold feed
  by_cases hprefix : scancode = extendedPrefix
  · simp only [if_pos hprefix, KeyEvent.byte?, ne_eq, reduceCtorEq, not_false_eq_true]
  · simp only [if_neg hprefix]
    by_cases hrelease : scancode &&& releaseBit ≠ 0
    · simp only [if_pos hrelease, KeyEvent.byte?, ne_eq, reduceCtorEq, not_false_eq_true]
    · simp only [if_neg hrelease, press]
      exact byte?_ofCode_ne_zero _

end Decoder

/-- Where a byte comes from. -/
inductive Source
  | serial
  | keyboard
deriving DecidableEq

/-- The byte that was read from an input device, and which device it was. -/
def Event.arrival? : Event → Option (Source × UInt8)
  | .regRead (.uart _ .receive) byte => some (.serial, byte)
  | .regRead (.keyboardData _) scancode => some (.keyboard, scancode)
  | _ => none

/-- What was read from the input devices in events that are given newest first, in the
    order it was read. -/
def arrivalsIn (events : List Event) : List (Source × UInt8) :=
  events.reverse.filterMap Event.arrival?

/-- One event more brings in its byte, if it is a read of an input device. -/
theorem arrivalsIn_cons (e : Event) (events : List Event) :
    arrivalsIn (e :: events) = arrivalsIn events ++ e.arrival?.toList := by
  rw [arrivalsIn, List.reverse_cons, List.filterMap_append, List.filterMap_cons]
  cases e.arrival? <;> rfl

theorem arrivalsIn_append (xs ys : List Event) :
    arrivalsIn (xs ++ ys) = arrivalsIn ys ++ arrivalsIn xs := by
  rw [arrivalsIn, List.reverse_append, List.filterMap_append]
  rfl

/-- What came in during a leg: all that was read from the input devices, unless the serial
    port was programmed, which clears it. -/
def Console.Leg.arrivals (leg : Console.Leg) : List (Source × UInt8) :=
  match leg.action with
  | .program => []
  | _ => arrivalsIn leg.events

/-- The bytes that came in along a route, in the order they came in. -/
def arrivals (legs : List Console.Leg) : List (Source × UInt8) :=
  legs.flatMap Console.Leg.arrivals

/-- The bytes of one device. -/
def bytesFrom (source : Source) (bytes : List (Source × UInt8)) : List UInt8 :=
  (bytes.filter fun b => b.1 = source).map Prod.snd

/-- The bytes that are queued of those that come in, when the decoder is in a
    given state. -/
def queuedBy (d : Decoder) : List (Source × UInt8) → List (Source × UInt8)
  | [] => []
  | (.serial, byte) :: rest => (if byte = 0 then [] else [(.serial, byte)]) ++ queuedBy d rest
  | (.keyboard, scancode) :: rest =>
      ((d.feed scancode).1.byte?.toList.map fun byte => (.keyboard, byte)) ++
        queuedBy (d.feed scancode).2 rest

/-- The bytes queued along a route, each with its source. The decoder starts with
    nothing held. -/
def enqueued (legs : List Console.Leg) : List (Source × UInt8) :=
  queuedBy {} (arrivals legs)

/-- The state of the decoder after a route. -/
def decoderAfter (legs : List Console.Leg) : Decoder :=
  (Decoder.feedAll {} (bytesFrom .keyboard (arrivals legs))).2

/-- The bytes of the keys in events that are given newest first. The decoder starts with
    nothing held. -/
def keysIn (events : List Event) : List UInt8 :=
  (Decoder.feedAll {} (bytesFrom .keyboard (arrivalsIn events))).1.filterMap KeyEvent.byte?

theorem bytesFrom_append (source : Source) (xs ys : List (Source × UInt8)) :
    bytesFrom source (xs ++ ys) = bytesFrom source xs ++ bytesFrom source ys := by
  rw [bytesFrom, List.filter_append, List.map_append]
  rfl

theorem queuedBy_append (d : Decoder) (xs ys : List (Source × UInt8)) :
    queuedBy d (xs ++ ys) =
      queuedBy d xs ++ queuedBy (d.feedAll (bytesFrom .keyboard xs)).2 ys := by
  induction xs generalizing d with
  | nil => rfl
  | cons x rest ih =>
      rcases x with ⟨source, byte⟩
      cases source with
      | serial =>
          rw [List.cons_append, queuedBy, ih, queuedBy, List.append_assoc]
          rfl
      | keyboard =>
          rw [List.cons_append, queuedBy, ih, queuedBy, List.append_assoc]
          rfl

/-- What is queued of the keyboard is what the decoder makes of all scan codes,
    whatever comes in between from the serial port. -/
theorem queuedBy_keyboard (d : Decoder) (bytes : List (Source × UInt8)) :
    bytesFrom .keyboard (queuedBy d bytes) =
      (d.feedAll (bytesFrom .keyboard bytes)).1.filterMap KeyEvent.byte? := by
  -- A serial byte does not reach the decoder, so the induction is over all decoders.
  induction bytes generalizing d with
  | nil => rfl
  | cons x rest ih =>
      rcases x with ⟨source, byte⟩
      cases source with
      | serial =>
          rw [queuedBy, bytesFrom_append, ih]
          by_cases hzero : byte = 0
          · rw [if_pos hzero]
            rfl
          · rw [if_neg hzero]
            rfl
      | keyboard =>
          rw [queuedBy, bytesFrom_append, ih]
          change _ = ((d.feed byte).1 ::
            ((d.feed byte).2.feedAll (bytesFrom .keyboard rest)).1).filterMap _
          cases hbyte : (d.feed byte).1.byte? with
          | none =>
              rw [List.filterMap_cons_none hbyte]
              rfl
          | some b =>
              rw [List.filterMap_cons_some hbyte]
              rfl

/-- What is queued of the serial port is what is not zero. -/
theorem queuedBy_serial (d : Decoder) (bytes : List (Source × UInt8)) :
    bytesFrom .serial (queuedBy d bytes) = (bytesFrom .serial bytes).filter (· ≠ 0) := by
  induction bytes generalizing d with
  | nil => rfl
  | cons x rest ih =>
      rcases x with ⟨source, byte⟩
      cases source with
      | serial =>
          rw [queuedBy, bytesFrom_append, ih]
          change _ = (byte :: bytesFrom .serial rest).filter _
          by_cases hzero : byte = 0
          · rw [if_pos hzero, List.filter_cons_of_neg (by simpa using hzero)]
            rfl
          · rw [if_neg hzero, List.filter_cons_of_pos (by simpa using hzero)]
            rfl
      | keyboard =>
          rw [queuedBy, bytesFrom_append, ih]
          change _ = (bytesFrom .serial rest).filter _
          cases (d.feed byte).1.byte? <;> rfl

/-- Zeros are left out on both sides: of the serial port by the queue, of the keyboard by the
    layout. -/
theorem queuedBy_ne_zero (d : Decoder) (bytes : List (Source × UInt8)) :
    ∀ b ∈ queuedBy d bytes, b.2 ≠ 0 := by
  induction bytes generalizing d with
  | nil => exact nofun
  | cons x rest ih =>
      rcases x with ⟨source, byte⟩
      intro b hb
      cases source with
      | serial =>
          rw [queuedBy, List.mem_append] at hb
          rcases hb with hb | hb
          · by_cases hzero : byte = 0
            · rw [if_pos hzero] at hb
              exact absurd hb List.not_mem_nil
            · rw [if_neg hzero, List.mem_singleton] at hb
              rw [hb]
              exact hzero
          · exact ih d b hb
      | keyboard =>
          rw [queuedBy, List.mem_append] at hb
          rcases hb with hb | hb
          · rcases List.mem_map.1 hb with ⟨v, hv, rfl⟩
            rw [Option.mem_toList] at hv
            exact fun hzero => d.byte?_feed_ne_zero byte (hv.trans (congrArg some hzero))
          · exact ih _ b hb

theorem arrivals_snoc (legs : List Console.Leg) (leg : Console.Leg) :
    arrivals (legs ++ [leg]) = arrivals legs ++ leg.arrivals := by
  rw [arrivals, List.flatMap_append, List.flatMap_singleton]
  rfl

/-- What is queued in a leg is what the decoder, as it is by then, lets through. -/
theorem enqueued_snoc (legs : List Console.Leg) (leg : Console.Leg) :
    enqueued (legs ++ [leg]) = enqueued legs ++ queuedBy (decoderAfter legs) leg.arrivals := by
  rw [enqueued, arrivals_snoc, queuedBy_append]
  rfl

/-- The decoder goes on by the scan codes of the leg. -/
theorem decoderAfter_snoc (legs : List Console.Leg) (leg : Console.Leg) :
    decoderAfter (legs ++ [leg]) =
      ((decoderAfter legs).feedAll (bytesFrom .keyboard leg.arrivals)).2 := by
  rw [decoderAfter, arrivals_snoc, bytesFrom_append, Decoder.feedAll_append]
  rfl

end KernelConsole
