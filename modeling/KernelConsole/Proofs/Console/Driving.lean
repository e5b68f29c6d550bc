import KernelConsole.Proofs.Console.InputStream
import KernelConsole.Proofs.Replay

/-!
# Who Drives the Devices

Some events are those of a console if they are the accesses of its own steps, all of them
and no others. Its steps can then be replayed from the events alone, so it does not matter
what else happened in between, or on what hardware.

While nobody takes a byte, the unread ones are the whole stream, but for what the queue
has no room for. A console that is brought up looks at its keyboard and not at the serial
port, so in its queue is then the byte of every key that came in meanwhile.

## Main definitions

* `Console.AccountsFor`: Some events are those of a console.
* `Console.WholeStream`: All that was queued is unread.

## Theorems

* `Console.Path.mono`: More fuel keeps a path.
* `Console.AccountsFor.trans`: One stretch after the other.
* `Console.accountsFor_of_told`: A program that was replayed.
* `Console.Route.wholeStream`: Where nothing is taken, all is still there.
* `Console.unread_of_init`: What is in the queue of a console that was brought up.
-/

namespace KernelConsole

/-- The newest of a list after one more element: if there are as many as asked for, the
    oldest goes. -/
theorem rtake_snoc {α : Type} {n : Nat} (hn : 0 < n) (xs : List α) (x : α) :
    (if (xs.rtake n).length = n then (xs.rtake n).tail else xs.rtake n) ++ [x] =
      (xs ++ [x]).rtake n := by
  have hle : (xs.rtake n).length ≤ n := by
    rw [List.rtake, List.length_drop]
    omega
  rw [← Ring.rtake_append_rtake]
  generalize xs.rtake n = ys at hle ⊢
  rw [List.rtake, List.length_append, List.length_singleton]
  by_cases hfull : ys.length = n
  · rw [if_pos hfull]
    cases ys with
    | nil => exact absurd hfull (Nat.ne_of_lt hn)
    | cons y rest =>
        rw [hfull, Nat.add_sub_cancel_left]
        rfl
  · rw [if_neg hfull, Nat.sub_eq_zero_of_le (by omega), List.drop_zero]

namespace Console

variable {σ : Type} {hw : Handler Hardware σ} {fuel : Nat}

/-- A step that ends on some fuel ends the same way on more. -/
theorem Step.mono {m n : Nat} (hmn : m ≤ n) {p q : Point σ} {a : Action}
    (hstep : Step hw m p a q) : Step hw n p a q := by
  cases hstep with
  | receive present run => exact .receive present (Prog.run_mono _ hmn _ run)
  | scan run => exact .scan (Prog.run_mono _ hmn _ run)
  | take => exact .take
  | program run => exact .program (Prog.run_mono _ hmn _ run)
  | work isWork run => exact .work isWork (Prog.run_mono _ hmn _ run)

theorem Path.mono {m n : Nat} (hmn : m ≤ n) {p q : Point σ} {as : List Action}
    (hpath : Path hw m p as q) : Path hw n p as q := by
  induction hpath with
  | nil p => exact .nil p
  | cons hstep _ ih => exact .cons (hstep.mono hmn) ih

/-- The events are those of the console's own steps, all of them and no others, whatever
    came before and comes after, and it is `d` in the end. -/
def AccountsFor (c : Console) (events : List Event) (d : Console) : Prop :=
  ∃ fuel, ∀ later before records, ∃ as records',
    Path replaying fuel (c, (events ++ later, before), records) as
      (d, (later, events.reverse ++ before), records')

variable {c d e : Console} {xs ys : List Event}

theorem AccountsFor.refl (c : Console) : AccountsFor c [] c :=
  ⟨0, fun _ _ records => ⟨[], records, .nil _⟩⟩

theorem AccountsFor.trans (hcd : AccountsFor c xs d) (hde : AccountsFor d ys e) :
    AccountsFor c (xs ++ ys) e := by
  rcases hcd with ⟨m, hcd⟩
  rcases hde with ⟨n, hde⟩
  -- The two stretches may have had different fuel, and with more they are the same.
  refine ⟨max m n, fun later before records => ?_⟩
  rcases hcd (ys ++ later) before records with ⟨as, records₁, hfirst⟩
  rcases hde later (xs.reverse ++ before) records₁ with ⟨bs, records₂, hsecond⟩
  refine ⟨as ++ bs, records₂, ?_⟩
  rw [List.append_assoc, List.reverse_append, List.append_assoc]
  exact (hfirst.mono (Nat.le_max_left m n)).append (hsecond.mono (Nat.le_max_right m n))

/-- The events from which a program can be replayed are those of a console, if the runs of
    the program are paths of it. -/
theorem accountsFor_of_told {α : Type} {p : LoggedIo α} {view : α → Console}
    (hpath : ∀ s, p.Ensures replaying.observed fuel s fun a s' =>
      ∃ as, Path replaying fuel (c, s) as (view a, s')) {a : α}
    (htold : Told (p.run replaying.observed fuel) xs a) : AccountsFor c xs (view a) := by
  refine ⟨fuel, fun later before records => ?_⟩
  rcases htold later before records with ⟨records', hrun⟩
  rcases hpath _ a _ hrun with ⟨as, hpath'⟩
  exact ⟨as, records', hpath'⟩

/-- All that was queued is unread, as far as there was room for it. -/
def WholeStream (legs : List Leg) (p : Point σ) : Prop :=
  p.unread = ((enqueued legs).map Prod.snd).rtake Ring.capacity

/-- A leg that takes nothing keeps what there was room for. -/
theorem WholeStream.leads {legs : List Leg} {leg : Leg} {p q : Point σ}
    (hwhole : WholeStream legs p) (hleads : Leads hw fuel p leg q) (hp : Tracks legs p)
    (hnone : delivered [leg.action] = []) : WholeStream (legs ++ [leg]) q := by
  unfold WholeStream at hwhole ⊢
  rcases leg with ⟨a, events⟩
  -- A leg that takes is no such leg, and of the others only one that queues changes anything.
  cases (hleads.tracks hp).2 with
  | taken byte first nonzero same =>
      rw [delivered, if_neg nonzero] at hnone
      cases hnone
  | missed empty still same => rw [still, same, ← hwhole, empty]
  | queued source byte notTaken last kept =>
      rw [kept, last, List.map_append, hwhole]
      exact rtake_snoc (by decide) _ byte
  | quiet notTaken same kept => rw [kept, same, hwhole]

/-- Where nothing is taken, all that was queued is still there. -/
theorem Route.wholeStream {p q : Point σ} {legs : List Leg} (hroute : Route hw fuel p legs q)
    (hp : Tracks [] p) (hwhole : WholeStream [] p)
    (hnone : delivered (legs.map Leg.action) = []) : WholeStream legs q := by
  induction hroute with
  | nil => exact hwhole
  | snoc hroute hleads ih =>
      rw [List.map_append, delivered_append, List.append_eq_nil_iff] at hnone
      exact (ih hnone.1).leads hleads (hroute.tracks hp) hnone.2

/-- What is queued along a route on which the serial port is never looked at are the keys. -/
theorem Route.enqueued_bringsUp {p q : Point σ} {legs : List Leg}
    (hroute : Route hw fuel p legs q) (hp : p.events = [])
    (hlegs : ∀ leg ∈ legs, leg.action.BringsUp) :
    (enqueued legs).map Prod.snd = keysIn q.events := by
  rcases hroute.brings hp with ⟨hkeyboard, hserial⟩
  have hlooks : legs.flatMap (·.action.received) = [] := by
    refine List.flatMap_eq_nil_iff.2 fun leg hleg => ?_
    have hbrings := hlegs leg hleg
    cases haction : leg.action with
    | receive byte? =>
        rw [haction] at hbrings
        exact absurd hbrings not_false
    | _ => rfl
  have hnone : bytesFrom .serial (enqueued legs) = [] := by
    rw [enqueued, queuedBy_serial, hserial, hlooks]
    rfl
  -- So every byte that was queued is from the keyboard, and the stream is that of the keys.
  have hall : ∀ b ∈ enqueued legs, decide (b.1 = Source.keyboard) = true := by
    intro b hb
    refine decide_eq_true ?_
    cases hsource : b.1 with
    | keyboard => rfl
    | serial =>
        refine absurd (List.map_eq_nil_iff.1 hnone) (List.ne_nil_of_mem (a := b) ?_)
        exact List.mem_filter.2 ⟨hb, decide_eq_true hsource⟩
  rw [keysIn, ← hkeyboard, ← queuedBy_keyboard]
  exact congrArg (List.map Prod.snd) (List.filter_eq_self.2 hall).symm

/-- A console that was brought up has in its queue the byte of every key that came in
    meanwhile, as far as there is room for it. -/
theorem unread_of_init {settings : Settings} (hsettings : ofSettings settings = .ok c)
    (htold : Told (c.init.run replaying.observed fuel) xs d) :
    d.queue.contents = (keysIn xs.reverse).rtake Ring.capacity := by
  rcases htold [] [] [] with ⟨records, hrun⟩
  -- The run in the replay is a path of the console, and a path is a route.
  rcases init_path c _ d _ hrun with ⟨as, hpath, has⟩
  rcases hpath.exists_route (.nil _) with ⟨legs, hroute, rfl⟩
  have hwhole := hroute.wholeStream (tracks_ofSettings _ hsettings) ?_ (delivered_of_bringsUp has)
  · have hkeys := hroute.enqueued_bringsUp rfl fun leg hleg => has _ (List.mem_map_of_mem hleg)
    unfold WholeStream at hwhole
    rw [hkeys, Point.events, List.append_nil] at hwhole
    exact hwhole
  · rcases ofSettings_eq_ok hsettings with ⟨_, _, _, rfl⟩
    exact Ring.contents_empty.trans List.drop_nil.symm

end Console

end KernelConsole
