/-!
# Programs over an Interface

Everything the console does to the outside world, it does by asking: read this
port, write that cell, take this lock. An `Interface` lists the requests that
may be asked and the type of the reply to each, and a `Prog` is a tree of such
requests whose branches are the replies.

Nothing here says what a reply is. A program can therefore be run against a
working machine, against a bus that answers nonsense, or against one that fires
an interrupt between two requests, and the requests it makes are data that a
statement can range over.

Some programs repeat until the outside world lets them stop: a drain reads
until its device is empty, a line reader until a line has ended. `loop` is that
repetition, kept as a node of the tree, so a program needs no bound on how often
it will go round. The bound appears only where a program is run.

## Main definitions

* `Interface`: Requests, and the type of the reply to each.
* `Halt`: Why a run ends without a result.
* `Prog`: A tree of requests that ends in a value.
* `Prog.request`: The program that makes one request and returns its reply.
* `Prog.iterate`: Repeating a body until it says to stop.
* `Prog.interpret`: Replacing each request by a program over another interface.

## Theorems

* `Prog.bind_assoc`, `Prog.bind_done`: Sequencing is associative, and ends with
  the value it is given.
-/

namespace KernelConsole

/-- The requests a program may make, and the type of the reply to each. -/
structure Interface where
  /-- What may be asked. -/
  Request : Type
  /-- What the answer to a request is. -/
  Reply : Request → Type

/-- Why a run ends without a result. -/
inductive Halt
  /-- A loop went round as often as the run allows. -/
  | outOfFuel
  /-- The machine gave up on a program that only waits. -/
  | stalled
  /-- A cursor position left the sixteen bits that hold it. -/
  | cursorRange
  /-- A lock was waited for that its own holder would have to release. -/
  | deadlock
deriving DecidableEq

/-- A program over the interface `I` that ends in a value. -/
inductive Prog (I : Interface) : Type → Type 1
  /-- Ends with a value. -/
  | done {α : Type} (value : α) : Prog I α
  /-- Ends without one. -/
  | halt {α : Type} (why : Halt) : Prog I α
  /-- Makes a request and goes on with the reply. -/
  | call {α : Type} (request : I.Request) (next : I.Reply request → Prog I α) : Prog I α
  /-- Repeats `body`, each round starting from the `inl` value the one before
      ended with, and goes on with the first `inr` value. -/
  | loop {α β γ : Type} (body : β → Prog I (β ⊕ γ)) (start : β)
      (next : γ → Prog I α) : Prog I α

namespace Prog

variable {I J : Interface} {α β γ : Type}

/-- Runs one program and then the one its value selects. -/
protected def bind : Prog I α → (α → Prog I β) → Prog I β
  | done a, f => f a
  | halt why, _ => halt why
  | call r next, f => call r fun a => (next a).bind f
  | loop body start next, f => loop body start fun c => (next c).bind f

instance : Monad (Prog I) where
  pure := done
  bind := Prog.bind

/-- Makes one request and returns its reply. -/
def request (r : I.Request) : Prog I (I.Reply r) :=
  call r done

/-- Repeats `body` from `start` until it returns an `inr` value. -/
def iterate (body : β → Prog I (β ⊕ γ)) (start : β) : Prog I γ :=
  loop body start done

/-- Replaces each request by a program over another interface. -/
def interpret (f : (r : I.Request) → Prog J (I.Reply r)) {α : Type} : Prog I α → Prog J α
  | done a => done a
  | halt why => halt why
  | call r next => (f r).bind fun a => (next a).interpret f
  | loop body start next =>
      loop (fun b => (body b).interpret f) start fun c => (next c).interpret f

theorem bind_eq (p : Prog I α) (f : α → Prog I β) : p >>= f = p.bind f := rfl

/-- Ending with the value after a program adds nothing to it. -/
theorem bind_done (p : Prog I α) : p.bind done = p := by
  induction p with
  | done a => rfl
  | halt why => rfl
  | call r next ih => exact congrArg (call r) (funext ih)
  | loop body start next _ ih => exact congrArg (loop body start) (funext ih)

/-- Three programs one after the other are the same however they are grouped. -/
theorem bind_assoc (p : Prog I α) (f : α → Prog I β) (g : β → Prog I γ) :
    (p.bind f).bind g = p.bind fun a => (f a).bind g := by
  induction p with
  | done a => rfl
  | halt why => rfl
  | call r next ih => exact congrArg (call r) (funext fun a => ih a f)
  | loop body start next _ ih => exact congrArg (loop body start) (funext fun c => ih c f)

instance : LawfulMonad (Prog I) :=
  LawfulMonad.mk' _ (fun p => bind_done p) (fun _ _ => rfl) (fun p f g => bind_assoc p f g)

end Prog

end KernelConsole
