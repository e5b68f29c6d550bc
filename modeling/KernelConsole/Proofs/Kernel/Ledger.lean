import KernelConsole.Proofs.Console.Transmission
import KernelConsole.Proofs.Kernel.Journal
import KernelConsole.Proofs.Queue

/-!
# The Ledger of a Kernel Run

What a kernel run sends over the serial port, as a list of whole units: what an
operation writes of its own, the line of a record that is written at once, and
the backlog when it is written out. The list also says when a record went into
the backlog instead, which sends nothing.

A ledger is orderly if the backlog is written out as a whole, the newest 512
bytes of all lines that went in since the last time, and if no line is written
at once while others wait.

What was sent, and which log calls got hold of a sink, is read off the journal.
A log call asks for the console first and for the backlog if it does not get it.

## Main definitions

* `Kernel.sent`: The bytes sent in a run.
* `Kernel.LogCall`, `Kernel.acquired`: The log calls that got hold of a sink.
* `Kernel.Message.Says`: What a message may come to.
* `Kernel.Entry`, `Kernel.Orderly`: The entries of a ledger, and their order.

## Theorems

* `Kernel.sent_access`: An access adds the byte it sends.
* `Kernel.Orderly.append`: Orderly ledgers follow one another.
* `Kernel.writeLine_ensures`: The line of a record is written piece by piece.
-/

namespace KernelConsole

/-- The byte that an event sent over the serial port. -/
def Event.sends : Event → List UInt8
  | .regWrite (.uart _ .transmit) byte => [byte]
  | _ => []

/-- Whether an access sends a byte does not depend on the reply. -/
theorem Event.sends_of (a : Access) (v : a.Reply) : (Event.of a v).sends = a.sends := by
  cases a with
  | writeReg r value =>
      cases r with
      | uart base reg => cases reg <;> rfl
      | _ => rfl
  | _ => rfl

theorem utf8_append (a b : String) : utf8 (a ++ b) = utf8 a ++ utf8 b := by
  simp only [utf8, String.toUTF8_eq_toByteArray, String.toByteArray_append, ByteArray.data_append,
    Array.toList_append]

namespace Kernel

variable {σ : Type}

/-- The bytes sent over the serial port, in the order they were sent. -/
def sent : List (Moment σ) → List UInt8
  | [] => []
  | .access e :: before => sent before ++ e.sends
  | _ :: before => sent before

theorem sent_access (a : Access) (v : a.Reply) (before : List (Moment σ)) :
    sent (.access (Event.of a v) :: before) = sent before ++ a.sends := by
  rw [sent, Event.sends_of]

/-- A call of the logger. -/
structure LogCall (σ : Type) where
  /-- How grave it is. -/
  level : Level
  /-- Who calls. -/
  target : String
  /-- What it says. -/
  message : Message σ

/-- Where the line of a record goes. -/
inductive Sink
  | console
  | backlog
deriving DecidableEq

/-- The log call that is looking for a sink: it has begun, and has not got one
    yet. -/
def asking : List (Moment σ) → Option (LogCall σ)
  | .enter (.log level target message) :: _ => some ⟨level, target, message⟩
  | .service .hasLogger _ :: before => asking before
  | .service .filter _ :: before => asking before
  | .service .tryLockConsole none :: before => asking before
  | _ => none

/-- The log calls that got hold of a sink, in the order they did. -/
def acquired : List (Moment σ) → List (Sink × LogCall σ)
  | [] => []
  | .service .tryLockConsole (some _) :: before =>
      acquired before ++ (asking before).toList.map (Prod.mk .console)
  | .service .tryLockBacklog (some _) :: before =>
      acquired before ++ (asking before).toList.map (Prod.mk .backlog)
  | _ :: before => acquired before

/-- What a message comes to, for some results of the operations in it. -/
inductive Message.Says : Message σ → String → Prop
  | done : Says .done ""
  | text {piece text : String} {rest : Message σ} : Says rest text →
      Says (.text piece rest) (piece ++ text)
  | code {op : Op σ} {render : Result → String} {text : String} {rest : Message σ}
      (result : Result) : Says rest text → Says (.code op render rest) (render result ++ text)

/-- The record is what the log call comes to. -/
def LogCall.Writes (call : LogCall σ) (r : Record) : Prop :=
  r.level = call.level ∧ r.target = call.target ∧ call.message.Says r.message

/-- The lines of several records. -/
def linesOf (records : List Record) : List UInt8 :=
  records.flatMap fun r => utf8 r.line

/-- An entry of a ledger. -/
inductive Entry
  /-- Something an operation writes of its own. -/
  | own (bytes : List UInt8)
  /-- The line of a record, written at once. -/
  | line (r : Record)
  /-- The line of a record goes into the backlog. -/
  | kept (r : Record)
  /-- The backlog is written out. -/
  | dump (bytes : List UInt8)

namespace Entry

/-- What an entry sends. -/
def wire : Entry → List UInt8
  | own bytes => bytes
  | line r => utf8 r.line
  | kept _ => []
  | dump bytes => bytes

/-- The record of an entry, and where its line goes. -/
def record? : Entry → Option (Sink × Record)
  | line r => some (.console, r)
  | kept r => some (.backlog, r)
  | _ => none

/-- What an entry writes that is no record. -/
def own? : Entry → Option (List UInt8)
  | own bytes => some bytes
  | _ => none

end Entry

/-- The ledger is orderly: with lines `p` in the backlog to begin with, and lines
    `q` in the end. -/
inductive Orderly : List UInt8 → List Entry → List UInt8 → Prop
  | nil (p : List UInt8) : Orderly p [] p
  /-- What an operation writes has nothing to do with the backlog. -/
  | own {p q bytes : List UInt8} {rest : List Entry} : Orderly p rest q →
      Orderly p (.own bytes :: rest) q
  /-- No line overtakes one in the backlog. -/
  | line {q : List UInt8} {r : Record} {rest : List Entry} : Orderly [] rest q →
      Orderly [] (.line r :: rest) q
  /-- A line goes into the backlog behind those that are there. -/
  | kept {p q : List UInt8} {r : Record} {rest : List Entry} :
      Orderly (p ++ utf8 r.line) rest q → Orderly p (.kept r :: rest) q
  /-- The backlog is written out, as much of it as there was room for. -/
  | dump {p q : List UInt8} {rest : List Entry} : Orderly [] rest q →
      Orderly p (.dump (p.rtake Ring.capacity) :: rest) q

/-- Two orderly ledgers are one, if the second begins where the first ends. -/
theorem Orderly.append {p q r : List UInt8} {es fs : List Entry} (hes : Orderly p es q)
    (hfs : Orderly q fs r) : Orderly p (es ++ fs) r := by
  induction hes with
  | nil p => exact hfs
  | own _ ih => exact .own (ih hfs)
  | line _ ih => exact .line (ih hfs)
  | kept _ ih => exact .kept (ih hfs)
  | dump _ ih => exact .dump (ih hfs)

/-- Lines may go into the backlog one after the other. -/
theorem Orderly.keptAll (p : List UInt8) (records : List Record) :
    Orderly p (records.map .kept) (p ++ linesOf records) := by
  induction records generalizing p with
  | nil =>
      rw [linesOf, List.flatMap_nil, List.append_nil]
      exact .nil p
  | cons r rest ih =>
      rw [linesOf, List.flatMap_cons, ← List.append_assoc]
      exact .kept (ih _)

/-- The operations in a message are as `P` says. -/
def Message.Each (P : Op σ → Prop) : Message σ → Prop
  | .done => True
  | .text _ rest => rest.Each P
  | .code op _ rest => P op ∧ rest.Each P

theorem Message.each_true : ∀ message : Message σ, message.Each fun _ => True
  | .done => trivial
  | .text _ rest => rest.each_true
  | .code _ _ rest => ⟨trivial, rest.each_true⟩

/-- What is said of the operations in a message may be weakened. -/
theorem Message.each_imp {P Q : Op σ → Prop} (h : ∀ op, P op → Q op) :
    ∀ message : Message σ, message.Each P → message.Each Q
  | .done, _ => trivial
  | .text _ rest, hrest => rest.each_imp h hrest
  | .code op _ rest, ⟨hop, hrest⟩ => ⟨h op hop, rest.each_imp h hrest⟩

section Pieces

variable {S τ : Type} {h : Handler (Calls σ) S} {fuel : Nat} {put : τ → String → KernelIo σ τ}
  {R : String → τ → S → Prop} {P : Op σ → Prop}

/-- Pieces may be written in two goes. -/
theorem writePieces_append (xs ys : Pieces σ) (t : τ) :
    writePieces put (xs ++ ys) t = writePieces put xs t >>= writePieces put ys := by
  induction xs generalizing t with
  | nil => rfl
  | cons x rest ih =>
      simp only [List.cons_append, writePieces, ih, LawfulMonad.bind_assoc]

/-- The pieces of a message are written in order. What holds of the text so far
    is kept by what is written and by the operations in the message. -/
theorem writePieces_ensures
    (hput : ∀ text t s piece, R text t s →
      (put t piece).Ensures h fuel s fun t' s' => R (text ++ piece) t' s')
    (hcall : ∀ op, P op → ∀ text t s v s', R text t s → h (.call op) s = .ok (v, s') →
      R text t s')
    (message : Message σ) (hmessage : message.Each P) {before : String} {t : τ} {s : S}
    (hs : R before t s) :
    (writePieces put message.pieces t).Ensures h fuel s fun t' s' =>
      ∃ text, message.Says text ∧ R (before ++ text) t' s' := by
  -- The induction is on the message, which is made together with its operations.
  match message with
  | .done =>
      refine Prog.ensures_pure ⟨"", .done, ?_⟩
      rw [String.append_empty]
      exact hs
  | .text piece rest =>
      refine Prog.ensures_bind (Prog.ensures_pure ?_)
      refine Prog.ensures_bind (Prog.ensures_mono (hput _ _ _ piece hs) fun t₁ s₁ hs₁ => ?_)
      refine Prog.ensures_mono (writePieces_ensures hput hcall rest hmessage hs₁)
        fun t₂ s₂ ⟨text, hsays, hs₂⟩ => ?_
      refine ⟨piece ++ text, .text hsays, ?_⟩
      rw [← String.append_assoc]
      exact hs₂
  | .code op render rest =>
      refine Prog.ensures_bind (Prog.ensures_map (Prog.ensures_call fun result s₁ hreply => ?_))
      have hs₁ := hcall op hmessage.1 _ _ _ _ _ hs hreply
      refine Prog.ensures_done ?_
      refine Prog.ensures_bind (Prog.ensures_mono (hput _ _ _ (render result) hs₁)
        fun t₂ s₂ hs₂ => ?_)
      refine Prog.ensures_mono (writePieces_ensures hput hcall rest hmessage.2 hs₂)
        fun t₃ s₃ ⟨text, hsays, hs₃⟩ => ?_
      refine ⟨render result ++ text, .code result hsays, ?_⟩
      rw [← String.append_assoc]
      exact hs₃

/-- The same for the line of a record, which is a heading, a message and a newline. -/
theorem writeLine_ensures
    (hput : ∀ text t s piece, R text t s →
      (put t piece).Ensures h fuel s fun t' s' => R (text ++ piece) t' s')
    (hcall : ∀ op, P op → ∀ text t s v s', R text t s → h (.call op) s = .ok (v, s') →
      R text t s')
    (call : LogCall σ) (hmessage : call.message.Each P) {t : τ} {s : S} (hs : R "" t s) :
    (writePieces put (linePieces call.level call.target call.message.pieces) t).Ensures h fuel s
      fun t' s' => ∃ r, call.Writes r ∧ R r.line t' s' := by
  -- The heading comes first, then the message, and then the newline.
  refine Prog.ensures_bind (Prog.ensures_pure ?_)
  refine Prog.ensures_bind (Prog.ensures_mono (hput _ _ _ _ hs) fun t₁ s₁ hs₁ => ?_)
  rw [show List.append call.message.pieces [pure "\n"] = call.message.pieces ++ [pure "\n"]
    from rfl, writePieces_append]
  refine Prog.ensures_bind (Prog.ensures_mono
    (writePieces_ensures hput hcall call.message hmessage hs₁) fun t₂ s₂ ⟨text, hsays, hs₂⟩ => ?_)
  refine Prog.ensures_bind (Prog.ensures_pure ?_)
  refine Prog.ensures_bind (Prog.ensures_mono (hput _ _ _ "\n" hs₂) fun t₃ s₃ hs₃ => ?_)
  refine Prog.ensures_pure ⟨⟨call.level, call.target, text⟩, ⟨rfl, rfl, hsays⟩, ?_⟩
  rw [String.empty_append] at hs₃
  exact hs₃

end Pieces

end Kernel

end KernelConsole
