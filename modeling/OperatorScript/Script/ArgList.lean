import OperatorScript.Json.Value
import OperatorScript.Text.Blank

/-!
Arguments and flags of a statement.

The words of the tail that begin with two dashes are flags. A flag takes the next word as its value
unless that is a flag too; all other words are arguments. The main statement: the arguments
are the whole of a text exactly if none of its words is a flag.
-/

set_option autoImplicit false
set_option relaxedAutoImplicit false

namespace OperatorScript

open Json

structure ArgList where
  args : List String
  flags : List String
  /-- The value of the last flag with each name. -/
  values : Dict (Option String)
deriving DecidableEq, Inhabited

namespace ArgList

inductive Token where
  | argument (word : String)
  | flag (word : String) (value : Option String)
deriving DecidableEq

def isFlag (word : String) : Bool := ['-', '-'].isPrefixOf word.toList

def flagName (word : String) : String := String.ofList (word.toList.drop 2)

def tokens : List String → List Token
  | [] => []
  | [word] => [if isFlag word then .flag word none else .argument word]
  | word :: next :: rest =>
    if isFlag word then
      if isFlag next then .flag word none :: tokens (next :: rest)
      else .flag word (some next) :: tokens rest
    else .argument word :: tokens (next :: rest)

theorem tokens_of_no_flag {ws : List String} (unflagged : ∀ word ∈ ws, isFlag word = false) :
    tokens ws = ws.map Token.argument := by
  fun_induction tokens ws with
  | case1 => rfl
  | case2 word => simp [unflagged word List.mem_cons_self]
  | case3 word next rest flagged | case4 word next rest flagged =>
    rw [unflagged word List.mem_cons_self] at flagged
    cases flagged
  | case5 word next rest notFlagged ih =>
    rw [ih fun word member => unflagged word (List.mem_cons_of_mem _ member)]
    rfl

def Token.argument? : Token → Option String
  | .argument word => some word
  | .flag .. => none

def Token.flag? : Token → Option String
  | .argument _ => none
  | .flag word _ => some word

def Token.entry? : Token → Option (String × Option String)
  | .argument _ => none
  | .flag word value => some (flagName word, value)

def ofTokens (ts : List Token) : ArgList :=
  { args := ts.filterMap Token.argument?
    flags := ts.filterMap Token.flag?
    values := Dict.ofEntries (ts.filterMap Token.entry?) }

def read (tail : String) : ArgList := ofTokens (tokens (Text.words tail))

def positional (ws : List String) : List String := (tokens ws).filterMap Token.argument?

private theorem tokens_cons_of_no_flag {word : String} (unflagged : isFlag word = false)
    (ws : List String) : tokens (word :: ws) = .argument word :: tokens ws := by
  cases ws with
  | nil => simp [tokens, unflagged]
  | cons next rest => simp [tokens, unflagged]

private theorem of_mem_tokens {ws : List String} {word : String}
    (member : .argument word ∈ tokens ws) :
    word ∈ ws ∧ isFlag word = false := by
  fun_induction tokens ws with
  | case1 => cases member
  | case2 other =>
    split at member
    · simp at member
    · obtain rfl : word = other := by simpa using member
      exact ⟨List.mem_cons_self, by simpa using ‹¬ isFlag word = true›⟩
  | case3 other next rest flagged nextFlagged ih =>
    obtain ⟨inside, unflagged⟩ := ih (by simpa using member)
    exact ⟨List.mem_cons_of_mem _ inside, unflagged⟩
  | case4 other next rest flagged notFlagged ih =>
    obtain ⟨inside, unflagged⟩ := ih (by simpa using member)
    exact ⟨List.mem_cons_of_mem _ (List.mem_cons_of_mem _ inside), unflagged⟩
  | case5 other next rest notFlagged ih =>
    rcases List.mem_cons.mp member with eq | later
    · cases eq
      exact ⟨List.mem_cons_self, by simpa using notFlagged⟩
    · obtain ⟨inside, unflagged⟩ := ih later
      exact ⟨List.mem_cons_of_mem _ inside, unflagged⟩

theorem of_mem_positional {ws : List String} {word : String} (member : word ∈ positional ws) :
    word ∈ ws ∧ isFlag word = false := by
  obtain ⟨token, inside, argument⟩ := List.mem_filterMap.mp member
  cases token with
  | argument other =>
    cases argument
    exact of_mem_tokens inside
  | flag => cases argument

theorem positional_of_no_flag {ws : List String} (unflagged : ∀ word ∈ ws, isFlag word = false) :
    positional ws = ws := by
  rw [positional, tokens_of_no_flag unflagged, List.filterMap_map]
  exact List.filterMap_some

theorem join_positional_eq_iff {text : String}
    (normal : Text.join " " (Text.words text) = text) :
    Text.join " " (positional (Text.words text)) = text ↔
      ∀ word ∈ Text.words text, isFlag word = false := by
  constructor
  · intro kept word member
    have words : Text.words text = positional (Text.words text) := by
      have all : ∀ word ∈ positional (Text.words text), Text.IsWord word := fun word member =>
        Text.isWord_of_mem_words (of_mem_positional member).1
      rw [← Text.words_join all, kept]
    rw [words] at member
    exact (of_mem_positional member).2
  · intro unflagged
    rw [positional_of_no_flag unflagged, normal]

theorem args_read_cons {property : String} (word : Text.IsWord property)
    (unflagged : isFlag property = false) (text : String) :
    (read (property ++ " " ++ text)).args = property :: positional (Text.words text) := by
  rw [read, word.words_append, tokens_cons_of_no_flag unflagged]
  rfl

def hasFlag (a : ArgList) (name : String) : Bool := a.values.contains name

def flagValue? (a : ArgList) (name : String) : Option String := (a.values.get? name).join

def arg? (a : ArgList) (i : Nat) : Option String := a.args[i]?

def rest (a : ArgList) (i : Nat) : String := Text.join " " (a.args.drop i)

def flagToValue : Option String → Value
  | none => .bool true
  | some s => .str s

def toValue (a : ArgList) : Value :=
  .obj (Dict.ofEntries
    [("args", .arr (a.args.map .str)), ("flags", .arr (a.flags.map .str)),
      ("flagValues", .obj (a.values.map fun (name, v) => (name, flagToValue v)))])

end ArgList

end OperatorScript
