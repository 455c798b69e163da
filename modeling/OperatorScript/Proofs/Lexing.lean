import OperatorScript.Script.ArgList
import OperatorScript.Text.Dict.Lemmas

/-!
The roles of the words of a tail.

The tokens are read with one word of look-ahead, and a flag takes the word after it away from what
is read next. The main statement: the role of a word nevertheless depends only on the word itself
and the one before it, and the arguments, the flags and their values are the words in each role, in
order.
-/

set_option autoImplicit false
set_option relaxedAutoImplicit false

namespace OperatorScript.ArgList

inductive Role where
  | argument
  | flag
  | value
deriving DecidableEq

/-- The role of a word, judged by itself and the word before it. -/
def role (before : Option String) (word : String) : Role :=
  if isFlag word then .flag
  else if before.any isFlag then .value
  else .argument

def assigned (before : Option String) (ws : List String) : List (Role × String) :=
  ((before :: ws.map some).zip ws).map fun (previous, word) => (role previous word, word)

def inRole (r : Role) (ws : List String) : List String :=
  ((assigned none ws).filter fun e => e.1 = r).map Prod.snd

private theorem role_eq_flag_iff {before : Option String} {word : String} :
    role before word = .flag ↔ isFlag word = true := by
  unfold role
  grind

private theorem role_eq_value_iff {before : Option String} {word : String} :
    role before word = .value ↔ isFlag word = false ∧ before.any isFlag = true := by
  unfold role
  grind

private theorem role_eq_argument_iff {before : Option String} {word : String} :
    role before word = .argument ↔ isFlag word = false ∧ before.any isFlag = false := by
  unfold role
  grind

private theorem assigned_cons (before : Option String) (word : String) (ws : List String) :
    assigned before (word :: ws) = (role before word, word) :: assigned (some word) ws := rfl

def Token.roles : Token → List (Role × String)
  | .argument word => [(.argument, word)]
  | .flag word none => [(.flag, word)]
  | .flag word (some value) => [(.flag, word), (.value, value)]

def Token.used? : Role → Token → Option String
  | .argument, token => token.argument?
  | .flag, token => token.flag?
  | .value, .flag _ value => value
  | .value, .argument _ => none

def Free (before : Option String) (ws : List String) : Prop :=
  before.any isFlag = true → ∀ word ∈ ws.head?, isFlag word = true

private theorem flatMap_roles_tokens {before : Option String} {ws : List String}
    (free : Free before ws) :
    (tokens ws).flatMap Token.roles = assigned before ws := by
  -- A flag that takes a value passes two words at once; the next word then stands after that value.
  fun_induction tokens ws generalizing before with
  | case1 => rfl
  | case2 word =>
    rw [assigned_cons]
    split
    · next flagged =>
      rw [role_eq_flag_iff.mpr flagged]
      rfl
    · next unflagged =>
      rw [role_eq_argument_iff.mpr ⟨by simpa using unflagged, ?_⟩]
      · rfl
      · exact Bool.eq_false_iff.mpr fun taken => unflagged (free taken word rfl)
  | case3 word next rest flagged nextFlagged ih =>
    have later : Free (some word) (next :: rest) := by
      rintro - other ⟨rfl⟩
      exact nextFlagged
    rw [List.flatMap_cons, ih later, assigned_cons before, role_eq_flag_iff.mpr flagged]
    rfl
  | case4 word next rest flagged nextUnflagged ih =>
    have later : Free (some next) rest := fun taken => absurd taken nextUnflagged
    have value : role (some word) next = .value :=
      role_eq_value_iff.mpr ⟨by simpa using nextUnflagged, flagged⟩
    rw [List.flatMap_cons, ih later, assigned_cons before, assigned_cons, value,
      role_eq_flag_iff.mpr flagged]
    rfl
  | case5 word next rest unflagged ih =>
    have later : Free (some word) (next :: rest) := fun taken => absurd taken unflagged
    have argument : role before word = .argument := by
      refine role_eq_argument_iff.mpr ⟨by simpa using unflagged, ?_⟩
      exact Bool.eq_false_iff.mpr fun taken => unflagged (free taken word rfl)
    rw [List.flatMap_cons, ih later, assigned_cons before, argument]
    rfl

private theorem filterMap_used?_tokens (r : Role) (ws : List String) :
    (tokens ws).filterMap (Token.used? r) = inRole r ws := by
  have used (ts : List Token) : ts.filterMap (Token.used? r) =
      ((ts.flatMap Token.roles).filter fun e => e.1 = r).map Prod.snd := by
    induction ts with
    | nil => rfl
    | cons token rest ih =>
      rw [List.filterMap_cons, ih, List.flatMap_cons, List.filter_append, List.map_append]
      cases r <;> rcases token with word | ⟨word, _ | value⟩ <;> rfl
  have free : Free none ws := fun taken => nomatch taken
  rw [used, flatMap_roles_tokens free, inRole]

private theorem inRole_flag (ws : List String) : inRole .flag ws = ws.filter isFlag := by
  have flags (before : Option String) :
      ((assigned before ws).filter fun e => e.1 = .flag).map Prod.snd = ws.filter isFlag := by
    induction ws generalizing before with
    | nil => rfl
    | cons word rest ih =>
      rw [assigned_cons, List.filter_cons, List.filter_cons, ← ih (some word)]
      by_cases flagged : isFlag word = true
      · simp [role_eq_flag_iff, flagged]
      · simp [role_eq_flag_iff, flagged]
  exact flags none

private theorem perm_inRole (ws : List String) :
    ws.Perm (inRole .argument ws ++ inRole .flag ws ++ inRole .value ws) := by
  have sorted (l : List (Role × String)) : (l.map Prod.snd).Perm
      ((l.filter fun e => e.1 = .argument).map Prod.snd ++
        (l.filter fun e => e.1 = .flag).map Prod.snd ++
        (l.filter fun e => e.1 = .value).map Prod.snd) := by
    induction l with
    | nil => rfl
    | cons e rest ih =>
      obtain ⟨r, word⟩ := e
      have first := ih.cons word
      cases r with
      | argument => exact first
      | flag => exact first.trans (List.perm_middle.symm.append_right _)
      | value => exact first.trans List.perm_middle.symm
  have words (before : Option String) : (assigned before ws).map Prod.snd = ws := by
    induction ws generalizing before with
    | nil => rfl
    | cons word rest ih => rw [assigned_cons, List.map_cons, ih]
  have all := sorted (assigned none ws)
  rwa [words none] at all

theorem isFlag_append (name : String) : isFlag ("--" ++ name) = true := by
  rw [isFlag, List.isPrefixOf_iff_prefix, String.toList_append]
  exact List.prefix_append _ _

@[simp] theorem flagName_append (name : String) : flagName ("--" ++ name) = name := by
  rw [flagName, String.toList_append]
  exact String.ofList_toList

private theorem eq_append_flagName {word : String} (flagged : isFlag word = true) :
    word = "--" ++ flagName word := by
  obtain ⟨rest, text⟩ := List.isPrefixOf_iff_prefix.mp flagged
  rw [flagName, ← text, ← String.ofList_toList (s := word), ← text, String.ofList_append]
  rfl

private theorem mem_names_iff {name : String} {ws : List String} :
    name ∈ ((tokens ws).filterMap Token.entry?).map Prod.fst ↔ "--" ++ name ∈ ws := by
  have names (ts : List Token) : (ts.filterMap Token.entry?).map Prod.fst =
      (ts.filterMap Token.flag?).map flagName := by
    induction ts with
    | nil => rfl
    | cons token rest ih =>
      cases token with
      | argument word => exact ih
      | flag word value => exact congrArg (flagName word :: ·) ih
  have flags : (tokens ws).filterMap Token.flag? = ws.filter isFlag :=
    (filterMap_used?_tokens .flag ws).trans (inRole_flag ws)
  rw [names, flags, List.mem_map]
  constructor
  · rintro ⟨word, member, rfl⟩
    obtain ⟨inside, flagged⟩ := List.mem_filter.mp member
    rwa [← eq_append_flagName flagged]
  · intro member
    exact ⟨_, List.mem_filter.mpr ⟨member, isFlag_append name⟩, flagName_append name⟩

theorem tokens_append_of_flag {word : String} (flagged : isFlag word = true)
    (front back : List String) :
    tokens (front ++ word :: back) = tokens front ++ tokens (word :: back) := by
  fun_induction tokens front with
  | case1 => rfl
  | case2 first => cases first_flagged : isFlag first <;> simp [tokens, first_flagged, flagged]
  | case3 first next rest firstFlagged nextFlagged ih =>
    simpa [tokens, firstFlagged, nextFlagged] using ih
  | case4 first next rest firstFlagged nextUnflagged ih =>
    simpa [tokens, firstFlagged, nextUnflagged] using ih
  | case5 first next rest unflagged ih =>
    simpa [tokens, unflagged] using ih

def valueFrom : List String → Option String
  | [] => none
  | word :: _ => if isFlag word then none else some word

private theorem valueFrom_eq_some_iff {ws : List String} {value : String} :
    valueFrom ws = some value ↔ isFlag value = false ∧ ∃ rest, ws = value :: rest := by
  cases ws with
  | nil => simp [valueFrom]
  | cons word rest =>
    simp only [valueFrom, List.cons.injEq, exists_and_left, exists_eq', and_true]
    grind

private theorem exists_tokens_cons_of_flag {word : String} (flagged : isFlag word = true)
    (back : List String) :
    ∃ rest, rest <:+ back ∧ tokens (word :: back) = .flag word (valueFrom back) :: tokens rest := by
  cases back with
  | nil => exact ⟨[], List.suffix_rfl, by simp [tokens, flagged, valueFrom]⟩
  | cons next rest =>
    cases nextFlagged : isFlag next with
    | true =>
      exact ⟨next :: rest, List.suffix_rfl, by simp [tokens, flagged, nextFlagged, valueFrom]⟩
    | false =>
      exact ⟨rest, List.suffix_cons next rest,
        by simp [tokens, flagged, nextFlagged, valueFrom]⟩

private theorem get?_values_of_last {name : String} {front back : List String}
    (last : "--" ++ name ∉ back) :
    (ofTokens (tokens (front ++ ("--" ++ name) :: back))).values.get? name =
      some (valueFrom back) := by
  obtain ⟨rest, shorter, first⟩ := exists_tokens_cons_of_flag (isFlag_append name) back
  have later : name ∉ ((tokens rest).filterMap Token.entry?).map Prod.fst :=
    fun member => last (shorter.mem (mem_names_iff.mp member))
  have entry : Token.entry? (.flag ("--" ++ name) (valueFrom back)) = some (name, valueFrom back) :=
    congrArg (fun n => some (n, valueFrom back)) (flagName_append name)
  have entries : (tokens (front ++ ("--" ++ name) :: back)).filterMap Token.entry? =
      (tokens front).filterMap Token.entry? ++
        (name, valueFrom back) :: (tokens rest).filterMap Token.entry? := by
    rw [tokens_append_of_flag (isFlag_append name), first, List.filterMap_append,
      List.filterMap_cons_some entry]
  show Dict.get? name (Dict.ofEntries ((tokens _).filterMap Token.entry?)) = _
  rw [entries]
  exact Dict.get?_ofEntries_of_last _ later

private theorem hasFlag_ofTokens_iff {name : String} {ws : List String} :
    (ofTokens (tokens ws)).hasFlag name = true ↔ "--" ++ name ∈ ws :=
  (Dict.contains_ofEntries_iff _ name).trans mem_names_iff

private theorem exists_last {α : Type} {a : α} {l : List α} (member : a ∈ l) :
    ∃ front back, l = front ++ a :: back ∧ a ∉ back := by
  obtain ⟨later, earlier, eq, absent⟩ := List.eq_append_cons_of_mem (List.mem_reverse.mpr member)
  refine ⟨earlier.reverse, later.reverse, ?_, by simpa using absent⟩
  rw [← List.reverse_reverse l, eq]
  simp

private theorem flagValue?_ofTokens_iff {name value : String} {ws : List String} :
    (ofTokens (tokens ws)).flagValue? name = some value ↔
      ∃ front back, ws = front ++ ("--" ++ name) :: value :: back ∧ isFlag value = false ∧
        "--" ++ name ∉ back := by
  unfold flagValue?
  constructor
  · intro found
    have entry := Option.join_eq_some_iff.mp found
    have written : "--" ++ name ∈ ws := hasFlag_ofTokens_iff.mp (Option.isSome_of_eq_some entry)
    obtain ⟨front, back, rfl, last⟩ := exists_last written
    rw [get?_values_of_last last, Option.join_some, valueFrom_eq_some_iff] at found
    obtain ⟨unflagged, rest, rfl⟩ := found
    exact ⟨front, rest, rfl, unflagged, fun member => last (List.mem_cons_of_mem _ member)⟩
  · rintro ⟨front, back, rfl, unflagged, absent⟩
    have ne : "--" ++ name ≠ value := by
      rintro rfl
      rw [isFlag_append] at unflagged
      cases unflagged
    have last : "--" ++ name ∉ value :: back := List.not_mem_cons_of_ne_of_not_mem ne absent
    rw [get?_values_of_last last, Option.join_some, valueFrom_eq_some_iff]
    exact ⟨unflagged, back, rfl⟩

private theorem read_join_of_no_flag {ws : List String} (all : ∀ word ∈ ws, Text.IsWord word)
    (unflagged : ∀ word ∈ ws, isFlag word = false) :
    read (Text.join " " ws) = { args := ws, flags := [], values := [] } := by
  rw [read, Text.words_join all, tokens_of_no_flag unflagged, ofTokens, List.filterMap_map,
    List.filterMap_map, List.filterMap_map]
  have args : ws.filterMap (Token.argument? ∘ Token.argument) = ws := List.filterMap_some
  have flags : ws.filterMap (Token.flag? ∘ Token.argument) = [] :=
    List.filterMap_eq_nil_iff.mpr fun _ _ => rfl
  have entries : ws.filterMap (Token.entry? ∘ Token.argument) = [] :=
    List.filterMap_eq_nil_iff.mpr fun _ _ => rfl
  rw [args, flags, entries]
  rfl

/-- The words of a tail are what its arguments and flags are made of: nothing is lost and nothing
is used twice. -/
structure LexedFrom (ws : List String) (a : ArgList) : Prop where
  /-- The arguments are the words that are no flags and do not follow one. -/
  args : a.args = inRole .argument ws
  flags : a.flags = ws.filter isFlag
  hasFlag : ∀ name, a.hasFlag name = true ↔ "--" ++ name ∈ ws
  /-- A flag has a value if the last flag with its name has a word behind it that is no flag. -/
  flagValue : ∀ name value, a.flagValue? name = some value ↔
    ∃ front back, ws = front ++ ("--" ++ name) :: value :: back ∧ isFlag value = false ∧
      "--" ++ name ∉ back
  /-- The values that the flags take are the words that are no flags but follow one. -/
  values : (tokens ws).filterMap (Token.used? .value) = inRole .value ws
  /-- Every word is used once. -/
  usedOnce : ws.Perm (a.args ++ a.flags ++ inRole .value ws)
  /-- The arguments by themselves are read as they are. -/
  readAgain : read (Text.join " " a.args) = { args := a.args, flags := [], values := [] }

/-- The words of a tail each have one role, which they have by themselves and the word before
them, and reading the tail finds the words in each role, in order. -/
theorem lexedFrom_words (tail : String) : LexedFrom (Text.words tail) (read tail) := by
  have args : (read tail).args = inRole .argument (Text.words tail) :=
    filterMap_used?_tokens .argument _
  have flags : (read tail).flags = inRole .flag (Text.words tail) :=
    filterMap_used?_tokens .flag _
  refine
    { args
      flags := flags.trans (inRole_flag _)
      hasFlag := fun _ => hasFlag_ofTokens_iff
      flagValue := fun _ _ => flagValue?_ofTokens_iff
      values := filterMap_used?_tokens .value _
      usedOnce := ?_
      readAgain := ?_ }
  · rw [args, flags]
    exact perm_inRole _
  · have positional {word : String} (member : word ∈ (read tail).args) :
        word ∈ Text.words tail ∧ isFlag word = false := of_mem_positional member
    exact read_join_of_no_flag
      (fun _ member => Text.isWord_of_mem_words (positional member).1)
      (fun _ member => (positional member).2)

end OperatorScript.ArgList
