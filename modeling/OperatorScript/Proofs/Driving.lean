import OperatorScript.Procedure
import OperatorScript.Proofs.Channel

/-!
Driving a procedure: its chunks go through a channel to a consumer.

The procedure goes on by itself until it hands out a chunk, waits until the channel has taken it,
and lets go of the channel when it has ended, be it with a value, a failure or a panic. The consumer
receives meanwhile. Every turn of the two is a move of the channel on the chunks that the procedure
would emit by itself, or none at all. The main statement: whatever turns they take, they come to an
end, the consumer has then received what the procedure emits by itself, and the procedure has come
to what it comes to by itself.
-/

set_option autoImplicit false
set_option relaxedAutoImplicit false

namespace OperatorScript

variable {α : Type}

inductive Producer (α : Type) where
  | running (left : Procedure String α) (state : State)
  | ended (result : Except Fault α) (state : State)

def Procedure.step (outage : Outage) : Procedure String α → State → List String × Producer α
  | .done value, s => ([], .ended (.ok value) s)
  | .emit chunk next, s => ([chunk], .running next s)
  | .read scope id part next, s =>
    match outage s.accesses (.read scope id part) with
    | some (.panic text) => ([], .ended (.error (.ofPanic text)) s.tick)
    | some (.error e) => ([], .running (next (.error e)) s.tick)
    | .none => ([], .running (next (.ok (s.world.read scope id part))) s.tick)
  | .write scope id part next, s =>
    match outage s.accesses (.write scope id part) with
    | some (.panic text) => ([], .ended (.error (.ofPanic text)) s.tick)
    | some (.error e) => ([], .running (next (.error e)) s.tick)
    | .none => ([], .running (next (.ok ())) { s.tick with world := s.world.write scope id part })
  | .role act next, s =>
    let (answer, roles) := s.world.roles.perform act
    ([], .running (next answer) { s with world := { s.world with roles } })
  | .fail failure, s => ([], .ended (.error failure.toFault) s)
  | .panic text, s => ([], .ended (.error (.ofPanic text)) s)

def Procedure.length (outage : Outage) : Procedure String α → State → Nat
  | .done _, _ => 1
  | .emit _ next, s => next.length outage s + 1
  | .read scope id part next, s =>
    match outage s.accesses (.read scope id part) with
    | some (.panic _) => 1
    | some (.error e) => (next (.error e)).length outage s.tick + 1
    | .none => (next (.ok (s.world.read scope id part))).length outage s.tick + 1
  | .write scope id part next, s =>
    match outage s.accesses (.write scope id part) with
    | some (.panic _) => 1
    | some (.error e) => (next (.error e)).length outage s.tick + 1
    | .none =>
      (next (.ok ())).length outage { s.tick with world := s.world.write scope id part } + 1
  | .role act next, s =>
    let (answer, roles) := s.world.roles.perform act
    (next answer).length outage { s with world := { s.world with roles } } + 1
  | .fail _, _ => 1
  | .panic _, _ => 1

namespace Producer

variable (outage : Outage)

def outcome : Producer α → Procedure.Outcome String α
  | .running left s => left.run outage s
  | .ended result s => { chunks := [], result, state := s }

def length : Producer α → Nat
  | .running left s => left.length outage s
  | .ended .. => 0

end Producer

namespace Procedure

variable (outage : Outage) (p : Procedure String α) (s : State)

private theorem outcome_step :
    ((p.step outage s).2.outcome outage).afterAll (p.step outage s).1 = p.run outage s := by
  cases p with
  | done | fail | panic | emit | role => rfl
  | read scope id part next =>
    simp only [step, run]
    rcases outage s.accesses (.read scope id part) with _ | _ | _ <;> rfl
  | write scope id part next =>
    simp only [step, run]
    rcases outage s.accesses (.write scope id part) with _ | _ | _ <;> rfl

private theorem length_step : (p.step outage s).2.length outage < p.length outage s := by
  cases p with
  | done | fail | panic => exact Nat.one_pos
  | emit | role => exact Nat.lt_succ_self _
  | read scope id part next | write scope id part next =>
    simp only [step, length]
    split
    · exact Nat.one_pos
    · exact Nat.lt_succ_self _
    · exact Nat.lt_succ_self _

end Procedure

/-- A procedure that sends its chunks into a channel, and the consumer of the channel. The channel
has pending the chunk that the procedure has handed out, until it takes it. -/
structure Driving (α : Type) where
  producer : Producer α
  channel : Channel

namespace Driving

inductive Turn where
  | work
  | move (m : Channel.Move)
deriving DecidableEq

def start (p : Procedure String α) (s : State) : Driving α :=
  { producer := .running p s, channel := { pending := [] } }

variable (outage : Outage)

/-- Takes a turn. The procedure goes on only when the channel has taken what it handed out, and the
channel is closed only when the procedure has ended. -/
def turn? (d : Driving α) : Turn → Option (Driving α)
  | .work =>
    match d.producer with
    | .ended .. => none
    | .running left s =>
      if d.channel.pending.isEmpty then
        let (handed, producer) := left.step outage s
        some { producer, channel := { d.channel with pending := handed } }
      else none
  | .move .close =>
    match d.producer with
    | .ended .. => (d.channel.move? .close).map fun channel => { d with channel }
    | .running .. => none
  | .move m => (d.channel.move? m).map fun channel => { d with channel }

def turns? (d : Driving α) : List Turn → Option (Driving α)
  | [] => some d
  | t :: rest => (d.turn? outage t).bind fun next => next.turns? rest

inductive Step : Driving α → Turn → Driving α → Prop
  | work {left : Procedure String α} {s : State} {c : Channel} (taken : c.pending = []) :
      Step ⟨.running left s, c⟩ .work
        ⟨(left.step outage s).2, { c with pending := (left.step outage s).1 }⟩
  | move {p : Producer α} {c c' : Channel} {m : Channel.Move} (step : c.Step m c')
      (ended : m = .close → ∃ result s, p = .ended result s) : Step ⟨p, c⟩ (.move m) ⟨p, c'⟩

variable {outage}

private theorem turn?_eq_some_iff {d e : Driving α} {t : Turn} :
    d.turn? outage t = some e ↔ Step outage d t e := by
  obtain ⟨p, c⟩ := d
  have channelMove {m : Channel.Move} (ended : m = .close → ∃ result s, p = .ended result s) :
      (c.move? m).map (fun channel => ({ producer := p, channel } : Driving α)) = some e ↔
        Step outage ⟨p, c⟩ (.move m) e := by
    constructor
    · intro turned
      obtain ⟨c', moved, rfl⟩ := Option.map_eq_some_iff.mp turned
      exact .move (Channel.move?_eq_some_iff.mp moved) ended
    · intro step
      cases step with
      | move step _ => rw [Channel.move?_eq_some_iff.mpr step, Option.map_some]
  cases t with
  | work =>
    cases p with
    | ended result s => exact ⟨nofun, nofun⟩
    | running left s =>
      constructor
      · intro turned
        obtain ⟨taken, rfl⟩ : c.pending = [] ∧ _ = e := by simpa [turn?] using turned
        exact .work taken
      · intro step
        cases step with
        | work taken => simp [turn?, taken]
  | move m =>
    cases m with
    | close =>
      cases p with
      | ended result s => exact channelMove fun _ => ⟨result, s, rfl⟩
      | running left s =>
        constructor
        · exact nofun
        · intro step
          cases step with
          | move _ ended =>
            obtain ⟨_, _, impossible⟩ := ended rfl
            cases impossible
    | send | receive | finish => exact channelMove nofun

variable (outage)

def view (d : Driving α) : Channel :=
  { d.channel with pending := d.channel.pending ++ (d.producer.outcome outage).chunks }

def ending (d : Driving α) : Except Fault α × State :=
  ((d.producer.outcome outage).result, (d.producer.outcome outage).state)

def remaining (d : Driving α) : Nat := d.producer.length outage + (d.view outage).remaining

def movesOf (ts : List Turn) : List Channel.Move :=
  ts.filterMap fun
    | .work => none
    | .move m => some m

variable {outage} {d e : Driving α} {t : Turn} {ts : List Turn}

private theorem view_of_work (step : Step outage d .work e) : e.view outage = d.view outage := by
  cases step with
  | @work left s c taken =>
    have whole := congrArg Procedure.Outcome.chunks (left.outcome_step outage s)
    simp only [view, taken, List.nil_append]
    exact congrArg (fun chunks => { c with pending := chunks }) whole

private theorem view_of_move {m : Channel.Move} (step : Step outage d (.move m) e) :
    (d.view outage).Step m (e.view outage) := by
  cases step with
  | move step ended =>
    cases step with
    | send next room => exact .send (by simp [view, next]) room
    | close sent running =>
      obtain ⟨result, s, rfl⟩ := ended rfl
      exact .close (by simp [view, sent, Producer.outcome]) running
    | receive oldest => exact .receive oldest
    | finish empty closed waiting => exact .finish empty closed waiting

private theorem Step.ending_eq (step : Step outage d t e) : e.ending outage = d.ending outage := by
  cases step with
  | @work left s c taken =>
    have whole := left.outcome_step outage s
    have result := congrArg Procedure.Outcome.result whole
    have state := congrArg Procedure.Outcome.state whole
    exact Prod.ext result state
  | move => rfl

def Released (d : Driving α) : Prop :=
  d.channel.closed = true → ∃ result s, d.producer = .ended result s

private theorem Released.step (released : d.Released) (step : Step outage d t e) : e.Released := by
  cases step with
  | work taken =>
    intro closed
    obtain ⟨_, _, impossible⟩ := released closed
    cases impossible
  | move step ended =>
    cases step with
    | close => exact fun _ => ended rfl
    | send | receive | finish => exact released

private theorem Step.remaining_lt (step : Step outage d t e) :
    e.remaining outage < d.remaining outage := by
  cases t with
  | work =>
    have same := view_of_work step
    cases step with
    | @work left s c taken =>
      have shorter := left.length_step outage s
      rw [remaining, remaining, same]
      exact Nat.add_lt_add_right shorter _
  | move m =>
    have nearer := (view_of_move step).remaining_lt
    cases step with
    | move => exact Nat.add_lt_add_left nearer _

private theorem exists_step (outage : Outage) (d : Driving α)
    (unfinished : d.channel.finished = false) :
    ∃ t e, Step outage d t e := by
  obtain ⟨p, c⟩ := d
  obtain ⟨m, c', step⟩ := c.exists_step unfinished
  by_cases closing : m = .close
  · -- The channel has nothing else to do, so the turn is that of the procedure if it still runs.
    cases p with
    | ended result s => exact ⟨_, _, .move step fun _ => ⟨result, s, rfl⟩⟩
    | running left s =>
      subst closing
      cases step with
      | close sent _ => exact ⟨_, _, .work sent⟩
  · exact ⟨_, _, .move step fun close => (closing close).elim⟩

private theorem turns?_cons_eq_some (turned : d.turns? outage (t :: ts) = some e) :
    ∃ next, Step outage d t next ∧ next.turns? outage ts = some e := by
  obtain ⟨next, first, rest⟩ := Option.bind_eq_some_iff.mp turned
  exact ⟨next, turn?_eq_some_iff.mp first, rest⟩

private theorem view_of_turns (turned : d.turns? outage ts = some e) :
    (d.view outage).moves? (movesOf ts) = some (e.view outage) := by
  induction ts generalizing d with
  | nil =>
    obtain rfl : d = e := Option.some.inj turned
    rfl
  | cons t ts ih =>
    obtain ⟨next, step, rest⟩ := turns?_cons_eq_some turned
    cases t with
    | work =>
      have same := view_of_work step
      rw [← same]
      exact ih rest
    | move m =>
      have moved := Channel.move?_eq_some_iff.mpr (view_of_move step)
      exact Option.bind_eq_some_iff.mpr ⟨_, moved, ih rest⟩

private theorem invariant_turns {I : Driving α → Prop}
    (kept : ∀ {d t e}, I d → Step outage d t e → I e) (begun : I d)
    (turned : d.turns? outage ts = some e) : I e := by
  induction ts generalizing d with
  | nil =>
    obtain rfl : d = e := Option.some.inj turned
    exact begun
  | cons t ts ih =>
    obtain ⟨next, step, rest⟩ := turns?_cons_eq_some turned
    exact ih (kept begun step) rest

private theorem ending_of_turns (turned : d.turns? outage ts = some e) :
    e.ending outage = d.ending outage :=
  invariant_turns (I := fun x => x.ending outage = d.ending outage)
    (fun same step => step.ending_eq.trans same) rfl turned

private theorem Released.turns (released : d.Released) (turned : d.turns? outage ts = some e) :
    e.Released :=
  invariant_turns Released.step released turned

private theorem length_le_of_turns (turned : d.turns? outage ts = some e) :
    ts.length + e.remaining outage ≤ d.remaining outage := by
  induction ts generalizing d with
  | nil =>
    obtain rfl : d = e := Option.some.inj turned
    simp
  | cons t ts ih =>
    obtain ⟨next, step, rest⟩ := turns?_cons_eq_some turned
    have nearer := step.remaining_lt
    have later := ih rest
    rw [List.length_cons]
    omega

private theorem count_send_movesOf (ts : List Turn) :
    (movesOf ts).count .send = ts.count (.move .send) := by
  induction ts with
  | nil => rfl
  | cons t ts ih =>
    cases t with
    | work =>
      rw [List.count_cons_of_ne (by decide), ← ih]
      rfl
    | move m =>
      have first : movesOf (.move m :: ts) = m :: movesOf ts := rfl
      rw [first, List.count_cons, List.count_cons, ih]
      cases m <;> rfl

/-- Chunk delivery. Whatever turns a procedure and its consumer take, there is a bound to their
number; what the consumer has received is a front of what has been sent, which is a front of what
the procedure emits by itself; no more chunks have been sent than received, but for those that the
channel holds; and some turn is possible until the consumer has finished. Then it has received all
that the procedure emits by itself, and the procedure has ended as it does by itself, be it with a
value, a failure or a panic. -/
theorem chunks_delivered (outage : Outage) (p : Procedure String α) (s : State) :
    let whole := p.run outage s
    ∃ bound, ∀ (ts : List Turn) (d : Driving α), (start p s).turns? outage ts = some d →
      ts.length ≤ bound ∧
      d.channel.received <+: whole.chunks.take (ts.count (.move .send)) ∧
      ts.count (.move .send) ≤ d.channel.received.length + Channel.capacity ∧
      (d.channel.finished = false → ∃ t e, d.turn? outage t = some e) ∧
      (d.channel.finished = true →
        d.channel.received = whole.chunks ∧ d.producer = .ended whole.result whole.state) := by
  intro whole
  refine ⟨(start p s).remaining outage, fun ts d turned => ?_⟩
  have moved := view_of_turns turned
  have delivers : (d.view outage).Delivers whole.chunks := (Channel.delivers_start _).moves moved
  have sent : (d.view outage).accepted.length = ts.count (.move .send) := by
    rw [Channel.length_accepted_of_moves moved, count_send_movesOf]
    exact Nat.zero_add _
  have accepted : d.channel.received ++ d.channel.queue =
      whole.chunks.take (ts.count (.move .send)) := by
    rw [← sent]
    exact delivers.accepted_eq
  refine ⟨?_, ?_, ?_, ?_, ?_⟩
  · have counted := length_le_of_turns turned
    omega
  · rw [← accepted]
    exact List.prefix_append _ _
  · have paced : d.channel.queue.length ≤ Channel.capacity := delivers.paced
    have split : (d.view outage).accepted.length =
        d.channel.received.length + d.channel.queue.length := List.length_append
    omega
  · intro unfinished
    obtain ⟨t, e, step⟩ := d.exists_step outage unfinished
    exact ⟨t, e, turn?_eq_some_iff.mpr step⟩
  · intro finished
    refine ⟨delivers.received_eq finished, ?_⟩
    have released : d.Released := Released.turns (d := start p s) nofun turned
    obtain ⟨result, t, ended⟩ := released (delivers.drained finished).1
    have ending : d.ending outage = (whole.result, whole.state) := ending_of_turns turned
    rw [Driving.ending, ended] at ending
    obtain ⟨rfl, rfl⟩ := Prod.mk.inj ending
    exact ended

theorem chunks_delivered_of_panic :
    let p : Procedure String Unit :=
      .emit "3" (.emit "2" (.emit "1" (.panic (some "wires crossed"))))
    let s : State := { world := {} }
    -- The procedure is one chunk ahead wherever the channel lets it.
    let ts : List Turn :=
      [.work, .move .send, .work, .move .receive, .move .send, .work, .move .receive, .move .send,
        .work, .move .close, .move .receive, .move .finish]
    ∃ d, (start p s).turns? .none ts = some d ∧ d.channel.finished = true ∧
      d.channel.received = ["3", "2", "1"] ∧
      d.producer = .ended (.error (.problem "wires crossed")) s := by
  intro p s ts
  let d : Driving Unit :=
    { producer := .ended (.error (.problem "wires crossed")) s
      channel := { pending := [], received := ["3", "2", "1"], closed := true, finished := true } }
  have turned : (start p s).turns? .none ts = some d := by rfl
  obtain ⟨_, all⟩ := chunks_delivered .none p s
  obtain ⟨received, ended⟩ := (all ts d turned).2.2.2.2 rfl
  exact ⟨d, turned, rfl, received, ended⟩

end Driving

end OperatorScript
