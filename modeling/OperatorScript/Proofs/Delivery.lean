import OperatorScript.Proofs.Evaluation

/-!
Delivery: what an evaluation sends is its whole result, in either mode.

Streaming sends the chunks of the result one by one and buffering sends the result as one string.
An evaluation does not go by the mode in which it is delivered, so both modes come to the same.
-/

set_option autoImplicit false
set_option relaxedAutoImplicit false

namespace OperatorScript

namespace Delivery

variable {α : Type}

def faultChunk : Except Fault α → List String
  | .ok _ => []
  | .error fault => [fault.text]

theorem chunks_ofCommand (mode : Mode) (chunks : List String) (ending : Except Fault α) :
    (ofCommand mode chunks ending).chunks = chunks ++ faultChunk ending := by
  cases mode <;> cases ending <;> simp [ofCommand, takeFault, take, close, faultChunk]

theorem sent_ofCommand_streaming (chunks : List String) (ending : Except Fault α) :
    (ofCommand .streaming chunks ending).sent = chunks ++ faultChunk ending := by
  cases ending <;> simp [ofCommand, takeFault, take, close, faultChunk]

theorem sent_ofCommand_buffered (chunks : List String) (ending : Except Fault α) :
    (ofCommand .buffered chunks ending).sent =
      [Text.join "\n" (chunks ++ faultChunk ending)] := by
  cases ending <;> simp [ofCommand, takeFault, take, close, faultChunk, result]

/-- What has been sent is the whole output, in the manner of a mode: each chunk by itself, or all of
them as one string. -/
def Complete (d : Delivery) : Mode → Prop
  | .streaming => d.sent = d.chunks
  | .buffered => d.sent = [d.result]

private theorem complete_early (mode : Mode) (text : String) : (early text).Complete mode := by
  cases mode with
  | streaming => rfl
  | buffered => rfl

private theorem complete_ofCommand (mode : Mode) (chunks : List String) (ending : Except Fault α) :
    (ofCommand mode chunks ending).Complete mode := by
  cases mode with
  | streaming =>
    show (ofCommand .streaming chunks ending).sent = (ofCommand .streaming chunks ending).chunks
    rw [sent_ofCommand_streaming, chunks_ofCommand]
  | buffered =>
    show (ofCommand .buffered chunks ending).sent = [(ofCommand .buffered chunks ending).result]
    rw [sent_ofCommand_buffered, result, chunks_ofCommand]

end Delivery

namespace Ending

private theorem complete_deliver (e : Ending) (mode : Mode) : (e.deliver mode).Complete mode := by
  cases e with
  | ran c chunks ending => exact Delivery.complete_ofCommand mode chunks ending
  | _ => exact Delivery.complete_early mode _

private theorem chunks_deliver (e : Ending) (mode other : Mode) :
    (e.deliver mode).chunks = (e.deliver other).chunks := by
  cases e with
  | ran c chunks ending =>
    simp only [deliver, Delivery.chunks_ofCommand]
  | _ => rfl

private theorem result_deliver (e : Ending) (mode other : Mode) :
    (e.deliver mode).result = (e.deliver other).result := by
  unfold Delivery.result
  rw [chunks_deliver e mode other]

end Ending

namespace Interpreter

variable (i : Interpreter) (m : Message)

theorem complete_delivery_evaluate (mode : Mode) (levels : Nat) (script : String) (s : State) :
    (i.evaluate m mode levels script s).delivery.Complete mode := by
  rw [delivery_evaluate]
  exact Ending.complete_deliver _ mode

private theorem ending_evaluate_mode (mode other : Mode) (levels : Nat) (script : String)
    (s : State) :
    (i.evaluate m mode levels script s).ending = (i.evaluate m other levels script s).ending := by
  cases levels with
  | zero => rfl
  | succ levels => simp only [ending_evaluate_succ]

theorem stop_evaluate_mode (mode other : Mode) (levels : Nat) (script : String) (s : State) :
    (i.evaluate m mode levels script s).stop = (i.evaluate m other levels script s).stop := by
  cases levels with
  | zero => rfl
  | succ levels => simp only [stop_evaluate_succ]

theorem evaluation_evaluate_mode (mode other : Mode) (levels : Nat) (script : String) (s : State) :
    (i.evaluate m mode levels script s).evaluation =
      (i.evaluate m other levels script s).evaluation := by
  have ending := i.ending_evaluate_mode m mode other levels script s
  have output := Ending.result_deliver (i.evaluate m other levels script s).ending mode other
  simp only [Run.evaluation, delivery_evaluate, ending, output]

/-- Streaming and buffering agree. With any commands and modifiers, however they end, both modes
come to the same status, result and state. The buffered run sends one string, its result; the
strings that the streamed run sends, joined by line ends, are its result. -/
theorem streamed_as_buffered (script : String) (s : State) :
    let streamed := i.run m .streaming script s
    let buffered := i.run m .buffered script s
    streamed.evaluation = buffered.evaluation ∧ streamed.stop = buffered.stop ∧
      buffered.sent = [buffered.evaluation.result] ∧
      Text.join "\n" streamed.sent = streamed.evaluation.result := by
  unfold run
  generalize maxInlineDepth + 1 = levels
  have pieces : (i.evaluate m .streaming levels script s).sent =
      (i.evaluate m .streaming levels script s).delivery.chunks :=
    i.complete_delivery_evaluate m .streaming levels script s
  have whole : (i.evaluate m .buffered levels script s).sent =
      [(i.evaluate m .buffered levels script s).delivery.result] :=
    i.complete_delivery_evaluate m .buffered levels script s
  refine ⟨i.evaluation_evaluate_mode m .streaming .buffered levels script s,
    i.stop_evaluate_mode m .streaming .buffered levels script s, whole, ?_⟩
  rw [pieces]
  rfl

end Interpreter

end OperatorScript
