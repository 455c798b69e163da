import Mathlib.Data.Finset.Dedup
import Mathlib.Data.Finset.Card
import Mathlib.Data.List.TakeWhile
import OperatorScript.Proofs.PlainText
import OperatorScript.Proofs.WrittenStatement
import OperatorScript.Text.Dict.Lemmas

/-!
Registering commands and modifiers, any number of them in any order.

A list is filled item by item, an item taking the place of the one that has its name. What a look-up
finds and what is listed are then determined by what was registered. The main statement says so for
every history, also for look-ups through a table of places that is kept beside the list, and for the
listing that `help` gives.
-/

set_option autoImplicit false
set_option relaxedAutoImplicit false

namespace OperatorScript

namespace Catalog

section Placing

variable {α : Type} {name : α → String}

def placeAll (name : α → String) (items : List α) : List α :=
  items.foldl (fun listed item => place name item listed) []

def LastNamed (name : α → String) (items : List α) (n : String) (item : α) : Prop :=
  ∃ front back, items = front ++ item :: back ∧ name item = n ∧ ∀ later ∈ back, name later ≠ n

/-- A list holds each name of some items once, in the order in which the names came first, and with
each name the last item that came with it. -/
structure FilledBy (name : α → String) (items listed : List α) : Prop where
  distinct : (listed.map name).Nodup
  named : ∀ n, n ∈ listed.map name ↔ n ∈ items.map name
  ordered : ∀ n ∈ listed.map name, ∀ n' ∈ listed.map name,
    (listed.map name).idxOf n < (listed.map name).idxOf n' ↔
      (items.map name).idxOf n < (items.map name).idxOf n'
  found : ∀ n item, (listed.find? fun x => name x == n) = some item ↔ LastNamed name items n item

variable (name) in
private theorem map_place (item : α) (listed : List α) :
    (place name item listed).map name =
      if name item ∈ listed.map name then listed.map name else listed.map name ++ [name item] := by
  induction listed with
  | nil => rfl
  | cons x rest ih =>
    unfold place
    split
    · next same => simp [same]
    · next differs =>
      have here : name item ∈ (x :: rest).map name ↔ name item ∈ rest.map name := by
        simp [Ne.symm differs]
      rw [List.map_cons, ih]
      by_cases known : name item ∈ rest.map name
      · rw [if_pos known, if_pos (here.mpr known), List.map_cons]
      · rw [if_neg known, if_neg (mt here.mp known), List.map_cons, List.cons_append]

private theorem find?_place (item : α) (listed : List α) (n : String) :
    ((place name item listed).find? fun x => name x == n) =
      if name item = n then some item else listed.find? fun x => name x == n := by
  induction listed with
  | nil => by_cases same : name item = n <;> simp [place, same]
  | cons x rest ih =>
    unfold place
    split
    · next same =>
      by_cases wanted : name item = n
      · simp [wanted]
      · simp [same, wanted]
    · next differs =>
      by_cases wanted : name x = n
      · have other : name item ≠ n := fun eq => differs (wanted.trans eq.symm)
        simp [wanted, other]
      · simp [wanted, ih]

private theorem lastNamed_append_singleton {items : List α} {item other : α} {n : String} :
    LastNamed name (items ++ [item]) n other ↔
      if name item = n then item = other else LastNamed name items n other := by
  constructor
  · rintro ⟨front, back, eq, named, none⟩
    rcases List.eq_nil_or_concat back with rfl | ⟨back, last, rfl⟩
    · obtain ⟨-, rfl⟩ := List.append_singleton_inj.mp eq
      rw [if_pos named]
    · rw [List.concat_eq_append, ← List.cons_append, ← List.append_assoc] at eq
      obtain ⟨rfl, rfl⟩ := List.append_singleton_inj.mp eq
      have after : ∀ later ∈ back, name later ≠ n :=
        fun later inside => none later (by simp [inside])
      rw [if_neg (none item (by simp))]
      exact ⟨front, back, rfl, named, after⟩
  · split
    · rintro rfl
      next same => exact ⟨items, [], rfl, same, fun _ inside => nomatch inside⟩
    · next differs =>
      rintro ⟨front, back, rfl, named, none⟩
      refine ⟨front, back ++ [item], by simp, named, ?_⟩
      intro later inside
      rcases List.mem_append.mp inside with inside | inside
      · exact none later inside
      · rwa [List.mem_singleton.mp inside]

private theorem idxOf_lt_append_iff {listed called : List String}
    (named : ∀ n, n ∈ listed ↔ n ∈ called)
    (ordered : ∀ n ∈ listed, ∀ n' ∈ listed,
      listed.idxOf n < listed.idxOf n' ↔ called.idxOf n < called.idxOf n')
    {new : String} (fresh : new ∉ listed) :
    ∀ n ∈ listed ++ [new], ∀ n' ∈ listed ++ [new],
      (listed ++ [new]).idxOf n < (listed ++ [new]).idxOf n' ↔
        (called ++ [new]).idxOf n < (called ++ [new]).idxOf n' := by
  have fresh' : new ∉ called := mt (named new).mpr fresh
  have last : (listed ++ [new]).idxOf new = listed.length := by
    rw [List.idxOf_append_of_notMem fresh, List.idxOf_cons_self, Nat.add_zero]
  have last' : (called ++ [new]).idxOf new = called.length := by
    rw [List.idxOf_append_of_notMem fresh', List.idxOf_cons_self, Nat.add_zero]
  have old (n : String) (inside : n ∈ listed) :
      (listed ++ [new]).idxOf n = listed.idxOf n ∧ (called ++ [new]).idxOf n = called.idxOf n ∧
        listed.idxOf n < listed.length ∧ called.idxOf n < called.length :=
    have inside' := (named n).mp inside
    ⟨List.idxOf_append_of_mem inside, List.idxOf_append_of_mem inside',
      List.idxOf_lt_length_of_mem inside, List.idxOf_lt_length_of_mem inside'⟩
  intro n inside n' inside'
  rcases List.mem_append.mp inside with known | appended
  · have first := old n known
    rcases List.mem_append.mp inside' with known' | appended'
    · have second := old n' known'
      rw [first.1, first.2.1, second.1, second.2.1]
      exact ordered n known n' known'
    · obtain rfl := List.mem_singleton.mp appended'
      omega
  · obtain rfl := List.mem_singleton.mp appended
    rcases List.mem_append.mp inside' with known' | appended'
    · have second := old n' known'
      omega
    · obtain rfl := List.mem_singleton.mp appended'
      omega

private theorem filledBy_nil : FilledBy name [] [] where
  distinct := List.nodup_nil
  named _ := Iff.rfl
  ordered _ inside := nomatch inside
  found n item := by
    constructor
    · rintro ⟨⟩
    · rintro ⟨front, back, eq, -⟩
      cases front <;> cases eq

private theorem FilledBy.place {items listed : List α} (filled : FilledBy name items listed)
    (item : α) :
    FilledBy name (items ++ [item]) (place name item listed) := by
  have known := filled.named (name item)
  have names := map_place name item listed
  have added : (items ++ [item]).map name = items.map name ++ [name item] := by simp
  refine ⟨?_, ?_, ?_, ?_⟩
  · rw [names]
    split
    · exact filled.distinct
    · next new =>
      rw [← List.concat_eq_append]
      exact List.Nodup.concat new filled.distinct
  · intro n
    rw [names, added]
    split
    · next old =>
      rw [filled.named, List.mem_append, List.mem_singleton]
      constructor
      · exact .inl
      · rintro (inside | rfl)
        · exact inside
        · exact known.mp old
    · rw [List.mem_append, List.mem_append, filled.named]
  · rw [names, added]
    split
    · intro n inside n' inside'
      rw [List.idxOf_append_of_mem ((filled.named n).mp inside),
        List.idxOf_append_of_mem ((filled.named n').mp inside')]
      exact filled.ordered n inside n' inside'
    · next new => exact idxOf_lt_append_iff filled.named filled.ordered new
  · intro n other
    rw [find?_place, lastNamed_append_singleton]
    split
    · exact Option.some_inj
    · exact filled.found n other

private theorem placeAll_append_singleton (items : List α) (item : α) :
    placeAll name (items ++ [item]) = place name item (placeAll name items) := by
  simp only [placeAll, List.foldl_append, List.foldl_cons, List.foldl_nil]

variable (name) in
private theorem filledBy_placeAll (items : List α) : FilledBy name items (placeAll name items) := by
  induction items using List.reverseRecOn with
  | nil => exact filledBy_nil
  | append_singleton items item ih =>
    rw [placeAll_append_singleton]
    exact ih.place item

private theorem FilledBy.length_eq {items listed : List α}
    (filled : FilledBy name items listed) :
    listed.length = (items.map name).toFinset.card := by
  have same : (listed.map name).toFinset = (items.map name).toFinset := by
    ext n
    rw [List.mem_toFinset, List.mem_toFinset, filled.named]
  rw [← same, List.card_toFinset, List.dedup_eq_self.mpr filled.distinct, List.length_map]

private theorem FilledBy.find?_eq_none_iff {items listed : List α}
    (filled : FilledBy name items listed) (n : String) :
    (listed.find? fun x => name x == n) = none ↔ n ∉ items.map name := by
  rw [← filled.named, List.find?_eq_none]
  simp

private theorem exists_place_of_find? {listed : List α} {n : String} {item : α}
    (found : (listed.find? fun x => name x == n) = some item) :
    ∃ place : Nat, listed[place]? = some item ∧ (listed.map name)[place]? = some n := by
  obtain ⟨place, bound, here⟩ := List.getElem_of_mem (List.mem_of_find?_eq_some found)
  have named : name item = n := by simpa using List.find?_some found
  have item : listed[place]? = some item := by rw [List.getElem?_eq_getElem bound, here]
  exact ⟨place, item, by rw [List.getElem?_map, item, Option.map_some, named]⟩

private theorem FilledBy.find?_eq_some_iff {items listed : List α}
    (filled : FilledBy name items listed) (n : String) (item : α) :
    (listed.find? fun x => name x == n) = some item ↔
      ∃ place : Nat, listed[place]? = some item ∧ (listed.map name)[place]? = some n := by
  constructor
  · exact exists_place_of_find?
  · rintro ⟨place, here, named⟩
    cases found : listed.find? fun x => name x == n with
    | none =>
      have absent := mt (filled.named n).mp ((filled.find?_eq_none_iff n).mp found)
      exact (absent (List.mem_of_getElem? named)).elim
    | some other =>
      obtain ⟨place', here', named'⟩ := exists_place_of_find? found
      have inside : place < (listed.map name).length := (List.getElem?_eq_some_iff.mp named).1
      obtain rfl : place = place' :=
        (List.getElem?_inj inside filled.distinct).mp (named.trans named'.symm)
      exact here'.symm.trans here

variable (name) in
private theorem place_eq (item : α) (listed : List α) :
    place name item listed =
      match listed.findIdx? fun x => name x == name item with
      | some place => listed.set place item
      | none => listed ++ [item] := by
  induction listed with
  | nil => rfl
  | cons x rest ih =>
    unfold place
    rw [List.findIdx?_cons]
    by_cases same : name x = name item
    · simp [same]
    · rw [if_neg same, ih]
      simp only [beq_iff_eq, same, if_false]
      cases rest.findIdx? fun y => name y == name item <;> rfl

variable (name) in
private theorem findIdx?_place (item : α) (listed : List α) (n : String) :
    ((place name item listed).findIdx? fun x => name x == n) =
      (listed.findIdx? fun x => name x == n).or
        (if name item = n then some listed.length else none) := by
  induction listed with
  | nil => by_cases same : name item = n <;> simp [place, same]
  | cons x rest ih =>
    unfold place
    split
    · next same =>
      rw [List.findIdx?_cons, List.findIdx?_cons, same]
      by_cases wanted : name item = n
      · simp [wanted]
      · simp [wanted]
    · next differs =>
      rw [List.findIdx?_cons, List.findIdx?_cons, ih]
      by_cases wanted : name x = n
      · simp [wanted]
      · simp only [beq_iff_eq, wanted, if_false, List.length_cons]
        cases rest.findIdx? fun y => name y == n with
        | some place => rfl
        | none => by_cases same : name item = n <;> simp [same]

end Placing

end Catalog

inductive Registration where
  | command (command : Command)
  | modifier (modifier : Modifier)

namespace Registration

def command? : Registration → Option Command
  | .command x => some x
  | .modifier _ => none

def modifier? : Registration → Option Modifier
  | .command _ => none
  | .modifier x => some x

def commands (history : List Registration) : List Command := history.filterMap command?

def modifiers (history : List Registration) : List Modifier := history.filterMap modifier?

private theorem commands_append (history later : List Registration) :
    commands (history ++ later) = commands history ++ commands later := List.filterMap_append

private theorem modifiers_append (history later : List Registration) :
    modifiers (history ++ later) = modifiers history ++ modifiers later := List.filterMap_append

def commandNames (history : List Registration) : List String := (commands history).map Command.name

end Registration

namespace Catalog

def enter (c : Catalog) : Registration → Catalog
  | .command x => c.register x
  | .modifier x => c.registerModifier x

def enterAll (c : Catalog) (history : List Registration) : Catalog := history.foldl enter c

def builtinHistory : List Registration :=
  builtinCommands.map .command ++ [.modifier Command.rise]

private theorem enterAll_builtinHistory : empty.enterAll builtinHistory = builtin := rfl

private theorem enterAll_empty (history : List Registration) :
    empty.enterAll history =
      { commands := placeAll Command.name (Registration.commands history)
        modifiers := placeAll Modifier.name (Registration.modifiers history) } := by
  induction history using List.reverseRecOn with
  | nil => rfl
  | append_singleton history last ih =>
    have step : empty.enterAll (history ++ [last]) = (empty.enterAll history).enter last := by
      simp only [enterAll, List.foldl_append, List.foldl_cons, List.foldl_nil]
    rw [step, ih, Registration.commands_append, Registration.modifiers_append]
    cases last with
    | command x =>
      have one : Registration.commands [.command x] = [x] := rfl
      have none : Registration.modifiers [.command x] = [] := rfl
      rw [one, none, List.append_nil, placeAll_append_singleton]
      rfl
    | modifier x =>
      have none : Registration.commands [.modifier x] = [] := rfl
      have one : Registration.modifiers [.modifier x] = [x] := rfl
      rw [none, one, List.append_nil, placeAll_append_singleton]
      rfl

/-- A catalog that finds its commands through a table of their places. A new name gets the next
place; a known one leaves the table as it is. -/
structure Indexed where
  commands : List Command := []
  places : Dict Nat := []
  modifiers : Dict Modifier := []

namespace Indexed

def register (x : Indexed) (command : Command) : Indexed :=
  match x.places.get? command.name with
  | some place => { x with commands := x.commands.set place command }
  | none =>
    { x with
      commands := x.commands ++ [command]
      places := x.places.insert command.name x.commands.length }

def registerModifier (x : Indexed) (modifier : Modifier) : Indexed :=
  { x with modifiers := x.modifiers.insert modifier.name modifier }

def enter (x : Indexed) : Registration → Indexed
  | .command command => x.register command
  | .modifier modifier => x.registerModifier modifier

def enterAll (x : Indexed) (history : List Registration) : Indexed := history.foldl enter x

def command? (x : Indexed) (name : String) : Option Command :=
  (x.places.get? name).bind fun place => x.commands[place]?

def modifier? (x : Indexed) (name : String) : Option Modifier := x.modifiers.get? name

/-- The table knows the place of every name that is listed in a catalog, and of no other. -/
structure Mirrors (x : Indexed) (c : Catalog) : Prop where
  commands : x.commands = c.commands
  places : ∀ name, x.places.get? name = c.commands.findIdx? fun y => y.name == name
  modifiers : ∀ name, x.modifier? name = c.modifier? name

private theorem Mirrors.command?_eq {x : Indexed} {c : Catalog} (mirrors : x.Mirrors c)
    (name : String) :
    x.command? name = c.command? name := by
  rw [command?, mirrors.places, mirrors.commands, Catalog.command?,
    List.find?_eq_bind_findIdx?_getElem?]

private theorem mirrors_register {x : Indexed} {c : Catalog} (mirrors : x.Mirrors c)
    (command : Command) :
    (x.register command).Mirrors (c.register command) := by
  have place := place_eq Command.name command c.commands
  have table := findIdx?_place Command.name command c.commands
  unfold register
  rw [mirrors.places]
  split
  · next found =>
    rw [found] at place
    refine ⟨?_, ?_, mirrors.modifiers⟩
    · exact (congrArg (List.set · _ command) mirrors.commands).trans place.symm
    · intro name
      rw [Catalog.register, table, mirrors.places]
      by_cases same : command.name = name
      · rw [← same, found, Option.some_or]
      · rw [if_neg same, Option.or_none]
  · next found =>
    rw [found] at place
    refine ⟨?_, ?_, mirrors.modifiers⟩
    · exact (congrArg (· ++ [command]) mirrors.commands).trans place.symm
    · intro name
      rw [Catalog.register, table, Dict.get?_insert, mirrors.places, mirrors.commands]
      by_cases same : command.name = name
      · rw [if_pos same.symm, if_pos same, ← same, found, Option.none_or]
      · rw [if_neg (Ne.symm same), if_neg same, Option.or_none]

private theorem mirrors_registerModifier {x : Indexed} {c : Catalog} (mirrors : x.Mirrors c)
    (modifier : Modifier) :
    (x.registerModifier modifier).Mirrors (c.registerModifier modifier) := by
  refine ⟨mirrors.commands, mirrors.places, ?_⟩
  intro name
  rw [Catalog.modifier?, Catalog.registerModifier, find?_place, modifier?, registerModifier,
    Dict.get?_insert]
  by_cases same : modifier.name = name
  · rw [if_pos same.symm, if_pos same]
  · rw [if_neg (Ne.symm same), if_neg same]
    exact mirrors.modifiers name

/-- However much is registered, the table keeps up with the list. -/
private theorem mirrors_enterAll {x : Indexed} {c : Catalog} (mirrors : x.Mirrors c)
    (history : List Registration) : (x.enterAll history).Mirrors (c.enterAll history) := by
  induction history generalizing x c with
  | nil => exact mirrors
  | cons first rest ih =>
    cases first with
    | command command => exact ih (mirrors_register mirrors command)
    | modifier modifier => exact ih (mirrors_registerModifier mirrors modifier)

end Indexed

end Catalog

private theorem Text.mem_of_mem_trimChars {c : Char} {cs : List Char} (inside : c ∈ trimChars cs) :
    c ∈ cs := by
  have back := (List.dropWhile_suffix isBlank).subset (List.mem_reverse.mp inside)
  exact (List.dropWhile_suffix isBlank).subset (List.mem_reverse.mp back)

namespace Command

private theorem run_sayAll (chunks : List String) (outage : Outage) (s : State) :
    (Procedure.sayAll chunks).run outage s = { chunks, result := .ok (), state := s } := by
  induction chunks with
  | nil => rfl
  | cons chunk rest ih =>
    show ((Procedure.sayAll rest).run outage s).after chunk = _
    rw [ih]
    rfl

private theorem run_help {c : Context} (bare : c.args.args = []) (outage : Outage) (s : State) :
    (help.body c).run outage s =
      { chunks := [helpHeader] ++ c.directory.map helpLine ++ helpFooter
        result := .ok .success
        state := s } := by
  have none : c.args.arg? 0 = none := by simp [ArgList.arg?, bare]
  simp only [help, none]
  show ((Procedure.sayAll _).bind _).run outage s = _
  rw [Procedure.run_bind, run_sayAll]
  simp [Procedure.run, Procedure.Outcome.afterAll]

private theorem not_mem_helpLine {e : HelpEntry} (line : '\n' ∉ e.name.toList) :
    '\n' ∉ (helpLine e).toList := by
  have summary : '\n' ∉ e.summary.toList := by
    intro inside
    rw [HelpEntry.summary, HelpEntry.firstLine, String.toList_ofList] at inside
    have first := Text.mem_of_mem_trimChars inside
    simpa using List.mem_takeWhile_imp first
  simp [helpLine, line, summary]

end Command

private theorem Statement.read_help (m : Message) :
    read "help::" m = .ok { modifier := none, command := "help", target := "", tail := "" } := by
  have legible : Legible none "help" "" :=
    ⟨by rintro word ⟨⟩, by decide, by decide +kernel, by decide +kernel, by decide⟩
  have resolved : resolve m "" = "" := by rw [resolve, if_neg (by decide), if_neg (by decide)]
  have parts := read_write_of_legible legible "" m
  rwa [resolved, show write none "help" "" "" = "help::" by decide +kernel] at parts

def Mode.sends (chunks : List String) : Mode → List String
  | .streaming => chunks
  | .buffered => [Text.join "\n" chunks]

private theorem Run.of_conclusion {r : Run} {mode : Mode} {c : Context} {chunks : List String}
    {status : Status} {s : State}
    (concluded : r.conclusion = .ofCommand mode c { chunks, result := .ok status, state := s }) :
    r.evaluation = { status, result := Text.join "\n" chunks } ∧ r.stop = s ∧
      r.sent = mode.sends chunks := by
  simp only [Conclusion.ofCommand, Delivery.faultChunk, List.append_nil] at concluded
  have sent := congrArg Conclusion.sent concluded
  refine ⟨congrArg Conclusion.evaluation concluded, congrArg Conclusion.state concluded, ?_⟩
  cases mode <;> exact sent

private theorem Interpreter.conclusion_help {i : Interpreter}
    (found : i.catalog.command? "help" = some .help) (m : Message) (mode : Mode) (s : State) :
    ∃ c, (i.run m mode "help::" s).conclusion = .ofCommand mode c
      { chunks := [Command.helpHeader] ++
          i.catalog.commands.map (fun x => Command.helpLine x.entry) ++ Command.helpFooter
        result := .ok .success
        state := s } := by
  have plain : PlainScript "help::" := by decide +kernel
  have bare : (ArgList.read "").args = [] := by decide +kernel
  have concluded := conclusion_of_plain plain (Statement.read_help m) rfl found mode s
  rw [Command.run_help bare] at concluded
  have directory : i.catalog.directory.map Command.helpLine =
      i.catalog.commands.map fun x => Command.helpLine x.entry := List.map_map
  exact ⟨_, directory ▸ concluded⟩

namespace Catalog

/-- What a catalog holds, whatever was registered in it, in whatever order. -/
structure Keeps (history : List Registration) (c : Catalog) : Prop where
  distinct : c.names.Nodup
  named : ∀ n, n ∈ c.names ↔ n ∈ Registration.commandNames history
  /-- The commands are listed in the order in which their names were registered first. -/
  ordered : ∀ n ∈ c.names, ∀ n' ∈ c.names,
    c.names.idxOf n < c.names.idxOf n' ↔
      (Registration.commandNames history).idxOf n < (Registration.commandNames history).idxOf n'
  size : c.commands.length = (Registration.commandNames history).toFinset.card
  /-- A name belongs to the last command that was registered under it. -/
  command : ∀ n x, c.command? n = some x ↔
    LastNamed Command.name (Registration.commands history) n x
  noCommand : ∀ n, c.command? n = none ↔ n ∉ Registration.commandNames history
  /-- What is found under a name is what is listed under it. -/
  listed : ∀ n x, c.command? n = some x ↔
    ∃ place : Nat, c.commands[place]? = some x ∧ c.names[place]? = some n
  modifier : ∀ n x, c.modifier? n = some x ↔
    LastNamed Modifier.name (Registration.modifiers history) n x
  noModifier : ∀ n, c.modifier? n = none ↔
    n ∉ (Registration.modifiers history).map Modifier.name
  /-- Commands do not depend on modifiers, nor modifiers on commands. -/
  apart : ∀ other,
    (Registration.commands other = Registration.commands history →
      (empty.enterAll other).commands = c.commands) ∧
    (Registration.modifiers other = Registration.modifiers history →
      (empty.enterAll other).modifiers = c.modifiers)
  /-- Look-ups through the table of places find and list the same. -/
  indexed : ({} : Indexed).enterAll history |>.Mirrors c
  lookup : ∀ n, (({} : Indexed).enterAll history).command? n = c.command? n
  /-- The listing has one chunk for each command, in order, between its header and its footer. -/
  listing : ∀ (i : Interpreter) (m : Message) (mode : Mode) (s : State), i.catalog = c →
    c.command? "help" = some .help →
    let chunks := [Command.helpHeader] ++ c.commands.map (fun x => Command.helpLine x.entry) ++
      Command.helpFooter
    let r := i.run m mode "help::" s
    r.evaluation = { status := .success, result := Text.join "\n" chunks } ∧ r.stop = s ∧
      r.sent = mode.sends chunks
  oneLine : ∀ x ∈ c.commands, '\n' ∉ x.name.toList → '\n' ∉ (Command.helpLine x.entry).toList

private theorem keeps_enterAll (history : List Registration) :
    Keeps history (empty.enterAll history) := by
  have entered := enterAll_empty history
  have commands := filledBy_placeAll Command.name (Registration.commands history)
  have modifiers := filledBy_placeAll Modifier.name (Registration.modifiers history)
  have mirrors : (({} : Indexed).enterAll history).Mirrors (empty.enterAll history) :=
    Indexed.mirrors_enterAll ⟨rfl, fun _ => rfl, fun _ => rfl⟩ history
  have lookup := mirrors.command?_eq
  rw [entered] at mirrors lookup ⊢
  refine {
    distinct := commands.distinct
    named := commands.named
    ordered := commands.ordered
    size := commands.length_eq
    command := commands.found
    noCommand := commands.find?_eq_none_iff
    listed := commands.find?_eq_some_iff
    modifier := modifiers.found
    noModifier := modifiers.find?_eq_none_iff
    apart := ?_
    indexed := mirrors
    lookup := lookup
    listing := ?_
    oneLine := fun x _ line => Command.not_mem_helpLine line }
  · intro other
    rw [enterAll_empty other]
    exact ⟨fun same => congrArg (placeAll _) same, fun same => congrArg (placeAll _) same⟩
  · intro i m mode s catalog found chunks r
    rw [← catalog] at found
    obtain ⟨context, concluded⟩ := Interpreter.conclusion_help found m mode s
    rw [catalog] at concluded
    exact Run.of_conclusion concluded

/-- Whatever is registered after one another, from nothing on or after the built-in commands, the
catalog lists each command name once, where it came first, finds under each name what was registered
last, keeps commands and modifiers apart, and is listed by `help` as it stands. -/
theorem kept_from_history (later : List Registration) :
    Keeps later (empty.enterAll later) ∧
      Keeps (builtinHistory ++ later) (builtin.enterAll later) := by
  have after : builtin.enterAll later = empty.enterAll (builtinHistory ++ later) := by
    rw [← enterAll_builtinHistory, enterAll, enterAll, enterAll, List.foldl_append]
  exact ⟨keeps_enterAll later, after ▸ keeps_enterAll (builtinHistory ++ later)⟩

theorem kept_from_history_of_replaced_print :
    let ping : Command :=
      { name := "ping", manual := "\n  Says nothing.\n  Usage: ping::\n"
        body := fun _ => .done .success }
    let later : List Registration :=
      [.command ping, .modifier { name := "print", body := fun _ => .done .strict },
        .command { Command.print with manual := "Repeats." }]
    let c := builtin.enterAll later
    Keeps (builtinHistory ++ later) c ∧ c.names = builtin.names ++ ["ping"] ∧
      c.directory.head?.map Command.helpLine = some "  print - Repeats." ∧
      c.directory.getLast?.map Command.helpLine = some "  ping - Says nothing." ∧
      c.command? "help" = some .help ∧
      ∀ (m : Message) (s : State),
        (Interpreter.run { catalog := c } m .buffered "help::" s).evaluation.result =
          Text.join "\n" ([Command.helpHeader] ++ c.commands.map (Command.helpLine ·.entry) ++
            Command.helpFooter) := by
  intro ping later c
  have kept : Keeps (builtinHistory ++ later) c := (kept_from_history later).2
  have help : c.command? "help" = some .help := rfl
  refine ⟨kept, by decide +kernel, by decide +kernel, by decide +kernel, help, fun m s => ?_⟩
  exact congrArg Evaluation.result (kept.listing { catalog := c } m .buffered s rfl help).1

end Catalog

end OperatorScript
