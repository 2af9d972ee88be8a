import Courier.Bus
import Courier.Proofs.Calls
set_option autoImplicit false

/-!
# Events through the bus

Producers hand events to the bus, at once or waiting for a place, while one task takes them out and dispatches each with
two calls of the store. A place in the queue that comes free is promised to the first of those who wait. Whoever steps
when, the task is given the accepted events in the order in which they were accepted, and one that cannot be dispatched
does not hold up the next.
-/

namespace Courier

namespace Relay

/-- What clocks and generators give to one dispatch. -/
structure Reading where
  dueAt : Instant
  ids : Nat → Uuid
  now : Instant

inductive Phase where
  | resting
  | called (e : Event)
  | writing (e : Event) (found : List Webhook) (reading : Reading)
  | ended

def Phase.inHand : Phase → List Event
  | called e => [e]
  | writing e _ _ => [e]
  | _ => []

inductive Entry where
  | dispatch (e : Event) (reading : Reading)
  | call (call : Store.Call)

def Entry.apply (s : Store) : Entry → Store
  | dispatch e r => s.wrote (Dispatch.run s e r.dueAt r.ids r.now)
  | call c => s.after c

def Entry.event? : Entry → Option Event
  | dispatch e _ => some e
  | call _ => none

def Entry.call? : Entry → Option Store.Call
  | dispatch _ _ => none
  | call c => some c

inductive Move where
  | clone
  | drop
  | emit (e : Event)
  | enter (e : Event)
  /-- The call at a place of the line is let in, or gives up. -/
  | letIn (i : Nat)
  | withdraw (i : Nat)
  | receive
  | look (reading : Reading)
  | write
  | other (call : Store.Call)

def Move.call? : Move → Option Store.Call
  | other c => some c
  | _ => none

end Relay

/-- A bus with its producers and its task, and the store that the task writes to. -/
structure Relay where
  store : Store
  bus : Bus
  senders : Nat
  /-- The events whose producers wait for a place, the first in front. -/
  line : List Event
  phase : Relay.Phase
  /-- The events taken in so far, those handed to a dispatch, and what was done to the store, in order. -/
  accepted : List Event
  given : List Event
  history : List Relay.Entry

namespace Relay

def start (capacity : Nat) (s : Store) : Relay :=
  { store := s, bus := .spawn capacity, senders := 1, line := [], phase := .resting, accepted := [], given := []
    history := [] }

def take (x : Relay) (e : Event) : Relay := { x with bus := x.bus.emit e, accepted := x.accepted ++ [e] }

def finish (x : Relay) (e : Event) (reading : Reading) (s : Store) : Relay :=
  { x with store := s, phase := .resting, history := x.history ++ [.dispatch e reading] }

/-- A move that is not possible leaves all as it is. Those in the line stand for a place each. -/
def step (x : Relay) : Move → Relay
  | .clone => if x.senders = 0 then x else { x with senders := x.senders + 1 }
  | .drop => if x.senders = 1 ∧ x.line ≠ [] then x else { x with senders := x.senders - 1 }
  | .emit e =>
    if 0 < x.senders ∧ x.bus.queue.length + x.line.length < x.bus.capacity then x.take e else x
  | .enter e => if 0 < x.senders then { x with line := x.line ++ [e] } else x
  | .letIn i =>
    match x.line[i]? with
    | some e =>
      if x.bus.queue.length + i < x.bus.capacity then { x.take e with line := x.line.eraseIdx i } else x
    | none => x
  | .withdraw i => { x with line := x.line.eraseIdx i }
  | .receive =>
    match x.phase with
    | .resting =>
      match x.bus.receive with
      | some (e, bus) => { x with bus, phase := .called e, given := x.given ++ [e] }
      | none => if x.senders = 0 then { x with phase := .ended } else x
    | _ => x
  | .look reading =>
    match x.phase with
    | .called e =>
      match Dispatch.targets x.store e with
      | .ok found => { x with phase := .writing e found reading }
      | .error _ => x.finish e reading x.store
    | _ => x
  | .write =>
    match x.phase with
    | .writing e found r =>
      x.finish e r (x.store.wrote (Dispatch.write x.store e r.dueAt found r.ids r.now))
    | _ => x
  | .other call => { x with store := x.store.after call, history := x.history ++ [.call call] }

def after (capacity : Nat) (s : Store) (moves : List Move) : Relay := moves.foldl step (start capacity s)

theorem after_concat (capacity : Nat) (s : Store) (moves : List Move) (m : Move) :
    after capacity s (moves ++ [m]) = (after capacity s moves).step m :=
  List.foldl_concat _ _ _ _

/-! ### What moves keep -/

structure Sound (capacity : Nat) (x : Relay) : Prop where
  capacity_eq : x.bus.capacity = max capacity 1
  isOpen : x.bus.isOpen = true
  fits : x.bus.queue.length ≤ x.bus.capacity
  order : x.accepted = x.given ++ x.bus.queue
  closed : x.senders = 0 → x.line = []
  ended : x.phase = .ended → x.senders = 0 ∧ x.bus.queue = []
  events : x.history.filterMap Entry.event? ++ x.phase.inHand = x.given

variable {capacity : Nat} {s : Store} {x : Relay}

theorem sound_start (capacity : Nat) (s : Store) : Sound capacity (start capacity s) where
  capacity_eq := rfl
  isOpen := rfl
  fits := Nat.zero_le _
  order := rfl
  closed _ := rfl
  ended h := nomatch h
  events := rfl

namespace Sound

theorem emit_eq (sound : Sound capacity x) (room : x.bus.queue.length < x.bus.capacity) (e : Event) :
    x.bus.emit e = { x.bus with queue := x.bus.queue ++ [e] } := by
  unfold Bus.emit Bus.hasRoom
  rw [decide_eq_true room, if_pos (by rw [sound.isOpen]; rfl)]

theorem take (sound : Sound capacity x) (room : x.bus.queue.length < x.bus.capacity) (alive : 0 < x.senders)
    (e : Event) : Sound capacity (x.take e) := by
  have entered := sound.emit_eq room e
  unfold Relay.take
  rw [entered]
  exact {
    capacity_eq := sound.capacity_eq
    isOpen := sound.isOpen
    fits := by
      rw [List.length_append]
      exact room
    order := by
      dsimp only
      rw [sound.order, List.append_assoc]
    closed := fun none => absurd none (Nat.ne_of_gt alive)
    ended := fun past => absurd (sound.ended past).1 (Nat.ne_of_gt alive)
    events := sound.events }

theorem finish (sound : Sound capacity x) {e : Event} (held : x.phase.inHand = [e]) (r : Reading) (t : Store) :
    Sound capacity (x.finish e r t) where
  capacity_eq := sound.capacity_eq
  isOpen := sound.isOpen
  fits := sound.fits
  order := sound.order
  closed := sound.closed
  ended h := nomatch h
  events := by
    have events := sound.events
    rw [held] at events
    simpa [Relay.finish, Phase.inHand, Entry.event?] using events

theorem step (sound : Sound capacity x) (m : Move) : Sound capacity (x.step m) := by
  cases m with
  | clone =>
    rw [Relay.step]
    split
    · exact sound
    · exact { sound with
        closed := fun none => absurd none (Nat.succ_ne_zero _)
        ended := fun past => absurd (sound.ended past).1 ‹_› }
  | drop =>
    rw [Relay.step]
    split
    · exact sound
    · next free =>
      refine { sound with closed := fun none => ?_, ended := fun past => ?_ }
      · by_cases last : x.senders = 1
        · exact not_not.mp fun waiting => free ⟨last, waiting⟩
        · dsimp only at none
          exact sound.closed (by omega)
      · obtain ⟨gone, empty⟩ := sound.ended past
        exact ⟨by dsimp only; omega, empty⟩
  | emit e =>
    rw [Relay.step]
    split
    · next open_ => exact sound.take (by omega) open_.1 e
    · exact sound
  | enter e =>
    rw [Relay.step]
    split
    · next alive => exact { sound with closed := fun none => absurd none (Nat.ne_of_gt alive) }
    · exact sound
  | letIn i =>
    rw [Relay.step]
    split
    · next e waits =>
      split
      · next room =>
        -- who waits keeps the bus open
        have alive : 0 < x.senders := by
          by_contra none
          rw [sound.closed (by omega)] at waits
          cases waits
        exact { sound.take (by omega) alive e with
          closed := fun none => absurd none (Nat.ne_of_gt alive) }
      · exact sound
    · exact sound
  | withdraw i =>
    refine { sound with closed := fun none => ?_ }
    change x.line.eraseIdx i = []
    rw [sound.closed none]
    rfl
  | receive =>
    rw [Relay.step]
    split
    · next resting =>
      have events := sound.events
      rw [resting] at events
      split
      · next e bus taken =>
        unfold Bus.receive at taken
        split at taken
        · cases taken
        · next e' rest queue =>
          cases taken
          have order := sound.order
          have fits := sound.fits
          rw [queue] at order fits
          exact { sound with
            fits := Nat.le_of_succ_le fits
            order := by rw [order]; simp
            ended := (fun past => nomatch past)
            events := by
              change _ ++ [e] = x.given ++ [e]
              rw [← events]
              simp [Phase.inHand] }
      · next drained =>
        split
        · next none =>
          refine { sound with ended := fun _ => ⟨none, ?_⟩, events := events }
          unfold Bus.receive at drained
          split at drained
          · next queue => exact queue
          · cases drained
        · exact sound
    · exact sound
  | look reading =>
    rw [Relay.step]
    split
    · next e held =>
      split
      · refine { sound with ended := (fun past => nomatch past), events := ?_ }
        have events := sound.events
        rw [held] at events
        exact events
      · exact sound.finish (by rw [held]; rfl) reading _
    · exact sound
  | write =>
    rw [Relay.step]
    split
    · next e found r held => exact sound.finish (by rw [held]; rfl) r _
    · exact sound
  | other call =>
    refine { sound with events := ?_ }
    change (x.history ++ [Entry.call call]).filterMap Entry.event? ++ x.phase.inHand = x.given
    rw [List.filterMap_append, ← sound.events]
    exact congrArg (· ++ _) (List.append_nil _)

end Sound

theorem sound_after (capacity : Nat) (s : Store) (moves : List Move) : Sound capacity (after capacity s moves) := by
  induction moves using List.reverseRecOn with
  | nil => exact sound_start capacity s
  | append_singleton moves m ih =>
    rw [after_concat]
    exact ih.step m

/-! ### What is done to the store -/

theorem history_step (x : Relay) (m : Move) :
    (x.step m).history = x.history ∧ m.call? = none ∨
      (∃ e r, (x.step m).history = x.history ++ [.dispatch e r]) ∧ m.call? = none ∨
      ∃ c, m = .other c ∧ (x.step m).history = x.history ++ [.call c] := by
  cases m with
  | clone | drop | emit | enter =>
    rw [step]
    split <;> exact .inl ⟨rfl, rfl⟩
  | letIn i =>
    rw [step]
    split
    · split <;> exact .inl ⟨rfl, rfl⟩
    · exact .inl ⟨rfl, rfl⟩
  | withdraw i => exact .inl ⟨rfl, rfl⟩
  | receive =>
    rw [step]
    split
    · split
      · exact .inl ⟨rfl, rfl⟩
      · split <;> exact .inl ⟨rfl, rfl⟩
    · exact .inl ⟨rfl, rfl⟩
  | look reading =>
    rw [step]
    split
    · split
      · exact .inl ⟨rfl, rfl⟩
      · exact .inr (.inl ⟨⟨_, _, rfl⟩, rfl⟩)
    · exact .inl ⟨rfl, rfl⟩
  | write =>
    rw [step]
    split
    · exact .inr (.inl ⟨⟨_, _, rfl⟩, rfl⟩)
    · exact .inl ⟨rfl, rfl⟩
  | other c => exact .inr (.inr ⟨c, rfl, rfl⟩)

theorem calls_after (capacity : Nat) (s : Store) (moves : List Move) :
    (after capacity s moves).history.filterMap Entry.call? = moves.filterMap Move.call? := by
  induction moves using List.reverseRecOn with
  | nil => rfl
  | append_singleton moves m ih =>
    rw [after_concat, List.filterMap_append, ← ih]
    rcases history_step (after capacity s moves) m with ⟨same, none⟩ | ⟨⟨e, r, more⟩, none⟩ | ⟨c, rfl, more⟩
    · rw [same, List.filterMap_cons_none none, List.filterMap_nil, List.append_nil]
    · rw [more, List.filterMap_append, List.filterMap_cons_none none]
      rfl
    · rw [more, List.filterMap_append]
      rfl

/-- Nobody else calls the store between the two calls of a dispatch. -/
def Apart (capacity : Nat) (s : Store) (moves : List Move) : Prop :=
  ∀ before c later, moves = before ++ .other c :: later → (after capacity s before).phase.inHand = []

theorem apart_of_none {moves : List Move} (alone : moves.filterMap Move.call? = []) : Apart capacity s moves := by
  rintro before c later rfl
  rw [List.filterMap_append, List.append_eq_nil_iff] at alone
  cases alone.2

structure Replayed (s : Store) (x : Relay) : Prop where
  store : x.store = x.history.foldl Entry.apply s
  found : ∀ e found r, x.phase = .writing e found r → Dispatch.targets x.store e = .ok found

namespace Replayed

theorem same (replayed : Replayed s x) {y : Relay} (store : y.store = x.store) (history : y.history = x.history)
    (phase : y.phase = x.phase ∨ ∀ e found r, y.phase ≠ .writing e found r) : Replayed s y where
  store := by rw [store, history, replayed.store]
  found e found r writing := by
    rcases phase with same | other
    · rw [store]
      exact replayed.found e found r (same ▸ writing)
    · exact absurd writing (other e found r)

theorem finish (replayed : Replayed s x) {e : Event} {r : Reading} {t : Store}
    (result : t = x.store.wrote (Dispatch.run x.store e r.dueAt r.ids r.now)) : Replayed s (x.finish e r t) where
  store := by
    change t = (x.history ++ [Entry.dispatch e r]).foldl Entry.apply s
    rw [List.foldl_concat, ← replayed.store, result]
    rfl
  found _ _ _ writing := nomatch writing

theorem step (replayed : Replayed s x) {m : Move} (apart : ∀ c, m = .other c → x.phase.inHand = []) :
    Replayed s (x.step m) := by
  cases m with
  | clone | drop | emit | enter =>
    rw [Relay.step]
    split <;> exact replayed.same rfl rfl (.inl rfl)
  | letIn i =>
    rw [Relay.step]
    split
    · split <;> exact replayed.same rfl rfl (.inl rfl)
    · exact replayed
  | withdraw i => exact replayed.same rfl rfl (.inl rfl)
  | receive =>
    rw [Relay.step]
    split
    · split
      · exact replayed.same rfl rfl (.inr fun _ _ _ writing => nomatch writing)
      · split
        · exact replayed.same rfl rfl (.inr fun _ _ _ writing => nomatch writing)
        · exact replayed
    · exact replayed
  | look reading =>
    rw [Relay.step]
    split
    · split
      · next e held found ok =>
        refine ⟨replayed.store, ?_⟩
        rintro _ _ _ ⟨⟩
        exact ok
      · next e held err failed =>
        -- the whole dispatch would have failed as well
        refine replayed.finish ?_
        unfold Dispatch.run
        rw [failed]
        rfl
    · exact replayed
  | write =>
    rw [Relay.step]
    split
    · next e found r writing =>
      refine replayed.finish ?_
      unfold Dispatch.run
      rw [replayed.found e found r writing]
    · exact replayed
  | other c =>
    -- what was found is still to be written only while nobody else calls
    have resting := apart c rfl
    refine ⟨?_, fun e found r writing => ?_⟩
    · change x.store.after c = (x.history ++ [Entry.call c]).foldl Entry.apply s
      rw [List.foldl_concat, ← replayed.store]
      rfl
    · change x.phase = _ at writing
      rw [writing] at resting
      cases resting

end Replayed

theorem replayed_after {moves : List Move} (apart : Apart capacity s moves) : Replayed s (after capacity s moves) := by
  induction moves using List.reverseRecOn with
  | nil => exact ⟨rfl, fun _ _ _ writing => nomatch writing⟩
  | append_singleton moves m ih =>
    have before : Apart capacity s moves := by
      rintro early c later rfl
      exact apart early c (later ++ [m]) (by simp)
    rw [after_concat]
    refine (ih before).step ?_
    rintro c rfl
    exact apart moves c [] rfl

/-! ### The task -/

def Fails (x : Relay) : Move → Prop
  | .look _ => ∃ e err, x.phase = .called e ∧ Dispatch.targets x.store e = .error err
  | .write => ∃ e found r err, x.phase = .writing e found r ∧
      Dispatch.write x.store e r.dueAt found r.ids r.now = .error err
  | _ => False

/-- A dispatch that fails leaves the store, the queue and all who wait as they are, and the task goes on to the next. -/
theorem step_fails {m : Move} (fails : x.Fails m) : ∃ e r, x.phase.inHand = [e] ∧ x.step m = x.finish e r x.store := by
  cases m with
  | look r =>
    obtain ⟨e, err, held, failed⟩ := fails
    refine ⟨e, r, by rw [held]; rfl, ?_⟩
    rw [step, held]
    dsimp only
    rw [failed]
  | write =>
    obtain ⟨e, found, r, err, held, failed⟩ := fails
    refine ⟨e, r, by rw [held]; rfl, ?_⟩
    rw [step, held]
    dsimp only
    rw [failed]
    rfl
  | _ => exact fails.elim

theorem step_emit (sound : Sound capacity x) (alive : 0 < x.senders) (nobody : x.line = []) (e : Event) :
    x.step (.emit e) = if x.accepted.length - x.given.length = max capacity 1 then x else x.take e := by
  have held : x.accepted.length - x.given.length = x.bus.queue.length := by
    rw [sound.order, List.length_append]
    omega
  have fits := sound.fits
  rw [step, held, nobody, ← sound.capacity_eq, List.length_nil]
  split
  · next room => rw [if_neg (by omega)]
  · next full => rw [if_pos (by omega)]

def turn (r : Reading) : List Move := [.look r, .write, .receive]

theorem look_write (r : Reading) (x : Relay) :
    ((x.step (.look r)).step .write).bus = x.bus ∧ ((x.step (.look r)).step .write).senders = x.senders ∧
      (x.phase ≠ .ended ∧ ((x.step (.look r)).step .write).phase = .resting ∨
        x.phase = .ended ∧ ((x.step (.look r)).step .write).phase = .ended) := by
  cases held : x.phase with
  | resting =>
    have idle : x.step (.look r) = x := by rw [step, held]
    rw [idle, step, held]
    exact ⟨rfl, rfl, .inl ⟨Phase.noConfusion, held⟩⟩
  | called e =>
    cases targets : Dispatch.targets x.store e with
    | ok found =>
      have writing : x.step (.look r) = { x with phase := .writing e found r } := by
        rw [step, held]
        dsimp only
        rw [targets]
      rw [writing]
      exact ⟨rfl, rfl, .inl ⟨Phase.noConfusion, rfl⟩⟩
    | error err =>
      have finished : x.step (.look r) = x.finish e r x.store := by
        rw [step, held]
        dsimp only
        rw [targets]
      rw [finished]
      exact ⟨rfl, rfl, .inl ⟨Phase.noConfusion, rfl⟩⟩
  | writing e found q =>
    have idle : x.step (.look r) = x := by rw [step, held]
    rw [idle, step, held]
    exact ⟨rfl, rfl, .inl ⟨Phase.noConfusion, rfl⟩⟩
  | ended =>
    have idle : x.step (.look r) = x := by rw [step, held]
    rw [idle, step, held]
    exact ⟨rfl, rfl, .inr ⟨rfl, held⟩⟩

theorem turn_cases (r : Reading) {x : Relay} (gone : x.senders = 0) :
    ((turn r).foldl step x).senders = 0 ∧
      (((turn r).foldl step x).phase = .ended ∨
        x.phase ≠ .ended ∧ ((turn r).foldl step x).bus.queue.length + 1 = x.bus.queue.length) := by
  obtain ⟨bus, senders, phase⟩ := look_write r x
  change (((x.step (.look r)).step .write).step .receive).senders = 0 ∧
    ((((x.step (.look r)).step .write).step .receive).phase = .ended ∨
      x.phase ≠ .ended ∧ (((x.step (.look r)).step .write).step .receive).bus.queue.length + 1 = x.bus.queue.length)
  generalize (x.step (.look r)).step .write = y at bus senders phase ⊢
  rcases phase with ⟨going, resting⟩ | ⟨-, ended⟩
  · rw [step, resting, ← bus]
    dsimp only
    unfold Bus.receive
    cases hq : y.bus.queue with
    | nil =>
      dsimp only
      rw [if_pos (senders.trans gone)]
      exact ⟨senders.trans gone, .inl rfl⟩
    | cons e rest => exact ⟨senders.trans gone, .inr ⟨going, rfl⟩⟩
  · rw [step, ended]
    exact ⟨senders.trans gone, .inl ended⟩

/-- Whatever is in hand and in the queue, the task dispatches it by its own steps, and then it ends. -/
theorem task_ends {readings : List Reading} {x : Relay} (gone : x.senders = 0)
    (enough : x.phase = .ended ∨ x.bus.queue.length < readings.length) :
    ((readings.flatMap turn).foldl step x).phase = .ended := by
  induction readings generalizing x with
  | nil =>
    rcases enough with past | short
    · exact past
    · exact absurd short (Nat.not_lt_zero _)
  | cons r readings ih =>
    rw [List.flatMap_cons, List.foldl_append]
    obtain ⟨gone', past | ⟨going, shorter⟩⟩ := turn_cases r gone
    · exact ih gone' (.inl past)
    · refine ih gone' (.inr ?_)
      rw [List.length_cons] at enough
      have short := enough.resolve_left going
      omega

/-- Over any moves: the events given to dispatches are the accepted ones, each once and in order, as far as they are not
in the queue; an event that nobody waits before is dropped just when the queue is full; a failed dispatch changes
nothing; and a task that has ended dispatched all accepted events, so that the store is what these and the calls of
others made of it one after another. -/
theorem events_in_order (capacity : Nat) (s : Store) (moves : List Move) :
    let x := after capacity s moves
    x.accepted = x.given ++ x.bus.queue ∧
      (0 < x.senders → x.line = [] → ∀ e,
        x.step (.emit e) = if x.accepted.length - x.given.length = max capacity 1 then x else x.take e) ∧
      (∀ m, x.Fails m → ∃ e r, x.phase.inHand = [e] ∧ x.step m = x.finish e r x.store) ∧
      (x.phase = .ended → x.senders = 0 ∧ x.given = x.accepted ∧
        x.history.filterMap Entry.event? = x.accepted ∧
        x.history.filterMap Entry.call? = moves.filterMap Move.call? ∧
        (Apart capacity s moves → x.store = x.history.foldl Entry.apply s)) := by
  intro x
  have sound : Sound capacity x := sound_after capacity s moves
  refine ⟨sound.order, step_emit sound, fun m fails => step_fails fails, fun past => ?_⟩
  obtain ⟨gone, empty⟩ := sound.ended past
  have all : x.accepted = x.given := by
    rw [sound.order, empty, List.append_nil]
  have events := sound.events
  rw [past] at events
  exact ⟨gone, all.symm, ((List.append_nil _).symm.trans events).trans all.symm, calls_after capacity s moves,
    fun apart => (replayed_after apart).store⟩

section Crowded

open Fleet.Sample

def subscribed : Store := Store.empty.after (.createWebhook registration hook (second 0))

def blank : Event := ⟨" ", second 1, .null⟩

def created : Event := ⟨"page.created", second 1, .null⟩

def reading : Reading := ⟨second 2, fun _ => parcel, second 2⟩

/-- A queue of one place, which an event takes that has no type; the next one finds it full and then waits. -/
def crowded : List Move :=
  [.emit blank, .emit created, .enter created, .receive, .letIn 0, .look reading, .receive, .look reading, .write,
    .drop, .receive]

theorem events_in_order_crowded :
    (after 0 subscribed [.emit blank]).step (.emit created) = after 0 subscribed [.emit blank] ∧
      (after 0 subscribed crowded).phase = .ended ∧
      (after 0 subscribed crowded).accepted = [blank, created] ∧
      (after 0 subscribed crowded).store
        = [.dispatch blank reading, .dispatch created reading].foldl Entry.apply subscribed := by
  obtain ⟨-, dropped, -⟩ := events_in_order 0 subscribed [.emit blank]
  obtain ⟨-, -, -, ended⟩ := events_in_order 0 subscribed crowded
  have past : (after 0 subscribed crowded).phase = .ended := rfl
  exact ⟨dropped (by decide) rfl created, past, rfl, (ended past).2.2.2.2 (apart_of_none rfl)⟩

end Crowded

end Relay

end Courier
