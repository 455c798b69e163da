import OperatorScript.Channel

/-!
The channel in every order of moves.

A move takes a chunk one place further: from the producer into the channel, or from there to the
consumer. The main statements: no order of moves loses, doubles or reorders a chunk, a delivery that
has not finished can go on, and each move brings it nearer to its end.
-/

set_option autoImplicit false
set_option relaxedAutoImplicit false

namespace OperatorScript.Channel

inductive Step : Channel → Move → Channel → Prop
  | send {c : Channel} {chunk : String} {rest : List String} (next : c.pending = chunk :: rest)
      (room : c.queue.length < capacity) :
      Step c .send { c with pending := rest, queue := c.queue ++ [chunk] }
  | close {c : Channel} (sent : c.pending = []) (running : c.closed = false) :
      Step c .close { c with closed := true }
  | receive {c : Channel} {chunk : String} {rest : List String} (oldest : c.queue = chunk :: rest) :
      Step c .receive { c with queue := rest, received := c.received ++ [chunk] }
  | finish {c : Channel} (empty : c.queue = []) (closed : c.closed = true)
      (waiting : c.finished = false) : Step c .finish { c with finished := true }

theorem move?_eq_some_iff {c d : Channel} {m : Move} : c.move? m = some d ↔ c.Step m d := by
  constructor
  · intro moved
    cases m with
    | send =>
      cases next : c.pending with
      | nil => simp [move?, next] at moved
      | cons chunk rest =>
        obtain ⟨room, rfl⟩ : c.queue.length < capacity ∧ _ = d := by
          simpa [move?, next] using moved
        exact .send next room
    | close =>
      obtain ⟨⟨sent, running⟩, rfl⟩ : (c.pending = [] ∧ c.closed = false) ∧ _ = d := by
        simpa [move?] using moved
      exact .close sent running
    | receive =>
      cases oldest : c.queue with
      | nil => simp [move?, oldest] at moved
      | cons chunk rest =>
        obtain rfl : _ = d := by simpa [move?, oldest] using moved
        exact .receive oldest
    | finish =>
      obtain ⟨⟨⟨empty, closed⟩, waiting⟩, rfl⟩ :
          ((c.queue = [] ∧ c.closed = true) ∧ c.finished = false) ∧ _ = d := by
        simpa [move?] using moved
      exact .finish empty closed waiting
  · intro step
    cases step with
    | send next room => simp [move?, next, room]
    | close sent running => simp [move?, sent, running]
    | receive oldest => simp [move?, oldest]
    | finish empty closed waiting => simp [move?, empty, closed, waiting]

/-- A delivery of chunks: each one has been received, is in the channel or is still to be sent, in
this order. The channel is closed only after the last one was sent, and the consumer finishes only
when nothing is left in it. -/
structure Delivers (chunks : List String) (c : Channel) : Prop where
  kept : c.received ++ c.queue ++ c.pending = chunks
  paced : c.queue.length ≤ capacity
  sent : c.closed = true → c.pending = []
  drained : c.finished = true → c.closed = true ∧ c.queue = []

def accepted (c : Channel) : List String := c.received ++ c.queue

def remaining (c : Channel) : Nat :=
  2 * c.pending.length + c.queue.length + (!c.closed).toNat + (!c.finished).toNat

variable {chunks : List String} {c d : Channel} {m : Move} {ms : List Move}

theorem delivers_start (chunks : List String) : Delivers chunks { pending := chunks } where
  kept := rfl
  paced := Nat.zero_le _
  sent := nofun
  drained := nofun

private theorem Delivers.step (delivers : c.Delivers chunks) (step : c.Step m d) :
    d.Delivers chunks := by
  obtain ⟨kept, paced, sent, drained⟩ := delivers
  cases step with
  | send next room =>
    refine ⟨?_, ?_, ?_, ?_⟩
    · simpa [next] using kept
    · rw [List.length_append]
      exact room
    · intro closed
      rw [sent closed] at next
      cases next
    · intro finished
      rw [sent (drained finished).1] at next
      cases next
  | close none running =>
    refine ⟨kept, paced, fun _ => none, ?_⟩
    intro finished
    exact ⟨rfl, (drained finished).2⟩
  | receive oldest =>
    refine ⟨?_, ?_, sent, ?_⟩
    · simpa [oldest] using kept
    · rw [oldest, List.length_cons] at paced
      exact Nat.le_of_succ_le paced
    · intro finished
      rw [(drained finished).2] at oldest
      cases oldest
  | finish empty closed waiting => exact ⟨kept, paced, sent, fun _ => ⟨closed, empty⟩⟩

private theorem Step.length_accepted (step : c.Step m d) :
    d.accepted.length = c.accepted.length + [m].count .send := by
  cases step with
  | send next room => simp [accepted, Nat.add_assoc]
  | close | finish => simp [accepted]
  | receive oldest =>
    simp only [accepted, oldest, List.append_assoc, List.singleton_append]
    rfl

theorem Step.remaining_lt (step : c.Step m d) : d.remaining < c.remaining := by
  cases step with
  | send next room =>
    simp only [remaining, next, List.length_cons, List.length_append, List.length_nil]
    omega
  | close sent running => simp [remaining, running]
  | receive oldest => simp [remaining, oldest]
  | finish empty closed waiting => simp [remaining, waiting]

theorem exists_step (c : Channel) (unfinished : c.finished = false) : ∃ m d, c.Step m d := by
  cases queue : c.queue with
  | cons chunk rest => exact ⟨_, _, .receive queue⟩
  | nil =>
    cases pending : c.pending with
    | cons chunk rest =>
      have room : c.queue.length < capacity := by
        rw [queue]
        decide
      exact ⟨_, _, .send pending room⟩
    | nil =>
      cases closed : c.closed with
      | false => exact ⟨_, _, .close pending closed⟩
      | true => exact ⟨_, _, .finish queue closed unfinished⟩

private theorem moves?_cons_eq_some {e : Channel} (moved : c.moves? (m :: ms) = some e) :
    ∃ d, c.Step m d ∧ d.moves? ms = some e := by
  obtain ⟨d, first, rest⟩ := Option.bind_eq_some_iff.mp moved
  exact ⟨d, move?_eq_some_iff.mp first, rest⟩

theorem Delivers.moves (delivers : c.Delivers chunks) (moved : c.moves? ms = some d) :
    d.Delivers chunks := by
  induction ms generalizing c with
  | nil =>
    obtain rfl : c = d := Option.some.inj moved
    exact delivers
  | cons m ms ih =>
    obtain ⟨next, step, rest⟩ := moves?_cons_eq_some moved
    exact ih (delivers.step step) rest

theorem length_accepted_of_moves (moved : c.moves? ms = some d) :
    d.accepted.length = c.accepted.length + ms.count .send := by
  induction ms generalizing c with
  | nil =>
    obtain rfl : c = d := Option.some.inj moved
    rfl
  | cons m ms ih =>
    obtain ⟨next, step, rest⟩ := moves?_cons_eq_some moved
    have sends : ([m] ++ ms).count Move.send = [m].count .send + ms.count .send :=
      List.count_append
    rw [List.singleton_append] at sends
    rw [ih rest, step.length_accepted, sends, Nat.add_assoc]

theorem Delivers.accepted_eq (delivers : c.Delivers chunks) :
    c.accepted = chunks.take c.accepted.length := by
  have split : chunks = c.accepted ++ c.pending := delivers.kept.symm
  rw [split, List.take_left']
  rfl

theorem Delivers.received_eq (delivers : c.Delivers chunks) (finished : c.finished = true) :
    c.received = chunks := by
  obtain ⟨closed, empty⟩ := delivers.drained finished
  have kept := delivers.kept
  rw [empty, delivers.sent closed] at kept
  simpa using kept

end OperatorScript.Channel
