/-!
Chunk delivery over a bounded channel.

A producer sends chunks into a first-in-first-out channel and closes it when it has ended; a
consumer receives from the channel until it is closed and empty. A move is possible only where the
channel allows it: sending needs room, receiving needs a chunk. `drive` alternates the two. The main
statement: every chunk arrives.
-/

set_option autoImplicit false
set_option relaxedAutoImplicit false

namespace OperatorScript

/-- A delivery under way. -/
structure Channel where
  pending : List String
  queue : List String := []
  received : List String := []
  closed : Bool := false
  finished : Bool := false
deriving DecidableEq

namespace Channel

def capacity : Nat := 1

inductive Move where
  | send
  | close
  | receive
  | finish
deriving DecidableEq

def move? (c : Channel) : Move → Option Channel
  | .send =>
    match c.pending with
    | [] => none
    | chunk :: rest =>
      if c.queue.length < capacity then
        some { c with pending := rest, queue := c.queue ++ [chunk] }
      else none
  | .close => if c.pending.isEmpty && !c.closed then some { c with closed := true } else none
  | .receive =>
    match c.queue with
    | [] => none
    | chunk :: rest => some { c with queue := rest, received := c.received ++ [chunk] }
  | .finish =>
    if c.queue.isEmpty && c.closed && !c.finished then some { c with finished := true } else none

def moves? (c : Channel) : List Move → Option Channel
  | [] => some c
  | m :: rest => (c.move? m).bind fun next => next.moves? rest

def alternating (chunks : List String) : List Move :=
  chunks.flatMap (fun _ => [.send, .receive]) ++ [.close, .finish]

/-- The chunks that the consumer has received at the end of a delivery. -/
def drive (chunks : List String) : List String :=
  match ({ pending := chunks } : Channel).moves? (alternating chunks) with
  | some c => c.received
  | none => []

private theorem moves?_alternating (c : Channel) (empty : c.queue = []) (running : c.closed = false)
    (waiting : c.finished = false) :
    c.moves? (alternating c.pending) =
      some { c with pending := [], received := c.received ++ c.pending, closed := true,
                    finished := true } := by
  obtain ⟨pending, queue, received, closed, finished⟩ := c
  dsimp only at empty running waiting
  subst empty running waiting
  induction pending generalizing received with
  | nil => simp [alternating, moves?, move?]
  | cons chunk rest ih =>
    have next := ih (received ++ [chunk])
    rw [List.append_assoc] at next
    simpa [alternating, moves?, move?, capacity] using next

@[simp] theorem drive_eq (chunks : List String) : drive chunks = chunks := by
  have driven := moves?_alternating { pending := chunks } rfl rfl rfl
  simp only [drive, driven, List.nil_append]

end Channel

end OperatorScript
