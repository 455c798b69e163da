import OperatorScript.Message

/-!
Statements: `[modifier ]command::target[ tail]`.

The first `::` separates the command from its target, and the first space after that the target from
the tail. The targets `self` and `replied` stand for identities of the message.
-/

set_option autoImplicit false
set_option relaxedAutoImplicit false

namespace OperatorScript

structure Statement where
  modifier : Option String
  command : String
  target : String
  tail : String
deriving DecidableEq

namespace Statement

/-- The modifier and the command among the words before the separator. Words after these two do not
count. -/
def headOfWords : List String → Option String × String
  | [] => (none, "")
  | [command] => (none, command)
  | modifier :: command :: _ => (some modifier, command)

def resolve (m : Message) (target : String) : String :=
  if target = "self" then m.sender
  else if target = "replied" then m.repliedTo.getD ""
  else target

/-- Splits a script; one without a separator is given back trimmed. -/
def read (script : String) (m : Message) : Except String Statement :=
  match Text.cut? "::" script with
  | none => .error (Text.trim script)
  | some (head, rest) =>
    let (modifier, command) := headOfWords (Text.words head)
    let (target, tail) := (Text.cut? " " rest).getD (rest, "")
    .ok { modifier, command, target := resolve m target, tail }

theorem read_eq_error_iff {script text : String} {m : Message} :
    read script m = .error text ↔ ¬ [':', ':'] <:+: script.toList ∧ text = Text.trim script := by
  have cut : Text.cut? "::" script = none ↔ ¬ [':', ':'] <:+: script.toList :=
    Text.cut?_eq_none_iff
  unfold read
  rw [← cut]
  cases found : Text.cut? "::" script with
  | none => simp [eq_comm]
  | some parts => simp

def write (modifier : Option String) (command target tail : String) : String :=
  (match modifier with
    | some m => m ++ " "
    | none => "") ++ command ++ "::" ++ target ++ (if tail = "" then "" else " " ++ tail)

/-- A statement without a modifier is read back as it was written, with its target resolved. -/
theorem read_write {command target tail : String} (m : Message) (word : Text.IsWord command)
    (colon : ':' ∉ command.toList) (spaceless : ' ' ∉ target.toList) (filled : tail ≠ "") :
    read (write none command target tail) m =
      .ok { modifier := none, command, target := resolve m target, tail } := by
  have text : write none command target tail =
      command ++ "::" ++ (target ++ " " ++ tail) := by
    simp [write, filled, String.append_assoc]
  have separated : Text.cut? "::" (command ++ "::" ++ (target ++ " " ++ tail)) =
      some (command, target ++ " " ++ tail) := Text.cut?_append rfl colon _
  have parted : Text.cut? " " (target ++ " " ++ tail) = some (target, tail) :=
    Text.cut?_append rfl spaceless tail
  rw [text]
  simp only [read, separated, parted, word.words_eq, headOfWords, Option.getD_some]

end Statement

end OperatorScript
