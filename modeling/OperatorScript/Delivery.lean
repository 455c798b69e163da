import OperatorScript.Channel
import OperatorScript.Fault
import OperatorScript.Status

/-!
Delivery: which strings an evaluation sends, and when.

Streaming sends every chunk as it is produced. Buffering keeps the chunks and sends them once,
joined by line ends, when the evaluation is over. The result is the joined chunks either way. The
lemmas say what has been taken and sent after a list of chunks.
-/

set_option autoImplicit false
set_option relaxedAutoImplicit false

namespace OperatorScript

/-- The chunks taken so far, and the strings sent so far. -/
structure Delivery where
  chunks : List String := []
  sent : List String := []
deriving DecidableEq

namespace Delivery

def take (mode : Mode) (d : Delivery) (chunk : String) : Delivery :=
  { chunks := d.chunks ++ [chunk]
    sent :=
      match mode with
      | .streaming => d.sent ++ [chunk]
      | .buffered => d.sent }

def takeFault {α : Type} (mode : Mode) (d : Delivery) : Except Fault α → Delivery
  | .ok _ => d
  | .error fault => d.take mode fault.text

def result (d : Delivery) : String := Text.join "\n" d.chunks

def close (mode : Mode) (d : Delivery) : Delivery :=
  match mode with
  | .streaming => d
  | .buffered => { d with sent := d.sent ++ [d.result] }

def early (text : String) : Delivery := { chunks := [text], sent := [text] }

/-- Takes the chunks of a command as they come out of the channel. -/
def ofCommand {α : Type} (mode : Mode) (chunks : List String) (ending : Except Fault α) :
    Delivery :=
  (((Channel.drive chunks).foldl (take mode) {}).takeFault mode ending).close mode

@[simp] theorem chunks_foldl_take (mode : Mode) (chunks : List String) (d : Delivery) :
    (chunks.foldl (take mode) d).chunks = d.chunks ++ chunks := by
  induction chunks generalizing d with
  | nil => simp
  | cons chunk rest ih => simp [ih, take]

@[simp] theorem sent_foldl_take_streaming (chunks : List String) (d : Delivery) :
    (chunks.foldl (take .streaming) d).sent = d.sent ++ chunks := by
  induction chunks generalizing d with
  | nil => simp
  | cons chunk rest ih => simp [ih, take]

@[simp] theorem sent_foldl_take_buffered (chunks : List String) (d : Delivery) :
    (chunks.foldl (take .buffered) d).sent = d.sent := by
  induction chunks generalizing d with
  | nil => rfl
  | cons chunk rest ih => simp [ih, take]

end Delivery

end OperatorScript
