import OperatorScript.Command.Catalog
import OperatorScript.Proofs.Interaction

/-!
The built-in commands, and what each of them can ask of the world.

There is one statement for each body, which says everything the body can ask and under which
condition it asks at all. What the rank of its author permits a command follows from them.
-/

set_option autoImplicit false
set_option relaxedAutoImplicit false

namespace OperatorScript

open Json Procedure

inductive Command.IsBuiltin : Command → Prop
  | print : IsBuiltin .print
  | arg : IsBuiltin .arg
  | promote : IsBuiltin .promote
  | demote : IsBuiltin .demote
  | mpromote : IsBuiltin .mpromote
  | mdemote : IsBuiltin .mdemote
  | set (owner : Command.Owner) : IsBuiltin (.set owner)
  | get (owner : Command.Owner) : IsBuiltin (.get owner)
  | input : IsBuiltin .input
  | ulink : IsBuiltin .ulink
  | uunlink : IsBuiltin .uunlink
  | links : IsBuiltin .links
  | increment (owner : Command.Owner) : IsBuiltin (.increment owner)
  | num : IsBuiltin .num
  | help : IsBuiltin .help

namespace Catalog

private theorem commands_builtin : builtin.commands = builtinCommands := rfl

private theorem modifiers_builtin : builtin.modifiers = [Command.rise] := rfl

private theorem isBuiltin_of_mem {command : Command} (member : command ∈ builtinCommands) :
    command.IsBuiltin := by
  simp only [builtinCommands, List.mem_cons, List.not_mem_nil, or_false] at member
  rcases member with rfl | rfl | rfl | rfl | rfl | rfl | rfl | rfl | rfl | rfl | rfl | rfl | rfl |
    rfl | rfl | rfl | rfl | rfl <;> constructor

theorem isBuiltin_of_command? {name : String} {command : Command}
    (found : builtin.command? name = some command) : command.IsBuiltin ∧ command.name = name := by
  have member := List.mem_of_find?_eq_some found
  rw [commands_builtin] at member
  exact ⟨isBuiltin_of_mem member, by simpa using List.find?_some found⟩

theorem eq_rise_of_modifier? {name : String} {modifier : Modifier}
    (found : builtin.modifier? name = some modifier) : modifier = Command.rise := by
  have member := List.mem_of_find?_eq_some found
  rw [modifiers_builtin] at member
  exact List.mem_singleton.mp member

end Catalog

def ArgList.firstKey? (args : ArgList) : Option String :=
  (args.arg? 0).bind fun property => (pathKeys [property]).head?

namespace Context

theorem risen_allowsTarget (c : Context) :
    c.risen.allowsTarget = true ↔ c.authorIsAdmin = true ∨ c.author = c.target := by
  simp [risen, active, Predicate.allowsTarget, Predicate.allows, Predicate.isWidened]

/-- What the rank of its author permits a statement to ask: an administrator anything, anyone else
the link table and the own records. -/
def Permits (c : Context) : Interaction → Prop
  | .access (.read scope id _) =>
    c.authorIsAdmin = true ∨ scope ≠ .global ∧ id = c.author ∨
      scope = .global ∧ id = LinkTable.recordId
  | .access (.write scope id _) => c.authorIsAdmin = true ∨ scope ≠ .global ∧ id = c.author
  | .role _ => c.authorIsAdmin = true

private theorem permits_of_authorIsAdmin {c : Context} (admin : c.authorIsAdmin = true)
    (x : Interaction) :
    c.Permits x := by
  match x with
  | .access (.read ..) | .access (.write ..) => exact .inl admin
  | .role _ => exact admin

private theorem permits_of_isAt {c : Context} {scope : Scope} {x : Interaction}
    (personal : scope ≠ .global) (allowed : c.risen.allowsTarget = true)
    (at_ : x.IsAt scope c.target) : c.Permits x := by
  rcases c.risen_allowsTarget.mp allowed with admin | self
  · exact permits_of_authorIsAdmin admin x
  · match x, at_ with
    | .access (.read ..), ⟨rfl, rfl⟩ => exact .inr (.inl ⟨personal, self.symm⟩)
    | .access (.write ..), ⟨rfl, rfl⟩ => exact .inr ⟨personal, self.symm⟩

end Context

namespace Command

variable {P : Interaction → Prop} (c : Context)

private theorem Owner.scope_ne_global (owner : Owner) : owner.scope ≠ .global := by
  cases owner <;> decide

theorem print_only : (print.body c).Only P := by
  unfold print
  dsimp only
  split <;> trivial

theorem arg_only : (arg.body c).Only P := trivial

theorem input_only : (input.body c).Only P := by
  unfold input
  dsimp only
  split <;> trivial

private theorem only_sayAll (chunks : List String) : (sayAll chunks).Only P := by
  induction chunks with
  | nil => trivial
  | cons _ _ ih => exact ih

theorem help_only : (help.body c).Only P := by
  unfold help
  dsimp only
  split
  · exact (only_sayAll _).bind fun _ => trivial
  · split <;> trivial

theorem rankBody_only (rank : Rank) (isGrant : Bool) :
    (rankBody rank isGrant c).Only fun x =>
      c.authorIsAdmin = true ∧ x = .role (rankAct rank isGrant c.target) := by
  unfold rankBody
  split
  · trivial
  · split
    · trivial
    · next authorized =>
      have admin : c.authorIsAdmin = true := by simpa using authorized
      exact ⟨⟨admin, rfl⟩, fun _ => trivial⟩

theorem get_only (owner : Owner) :
    ((get owner).body c).Only fun x =>
      c.risen.allowsTarget = true ∧
        ∃ part, x = .access (.read owner.scope c.target part) := by
  unfold get
  dsimp only
  split
  · trivial
  · split
    · trivial
    · split
      · trivial
      · next authorized =>
        have allowed : c.risen.allowsTarget = true := by simpa using authorized
        refine Only.bind ?_ fun _ => trivial
        unfold readFor
        split
        · split
          · exact only_getRecord ⟨allowed, _, rfl⟩
          · exact only_queryRecord ⟨allowed, _, rfl⟩
        · exact only_getRecord ⟨allowed, _, rfl⟩

theorem set_only (owner : Owner) :
    ((set owner).body c).Only fun x =>
      c.authorIsAdmin = true ∧
        ∃ key, c.args.firstKey? = some key ∧ x.AtMember owner.scope c.target key := by
  unfold set
  dsimp only
  split
  · trivial
  · split
    · trivial
    · next authorized =>
      have admin : c.authorIsAdmin = true := by simpa using authorized
      split
      · trivial
      · next property named =>
        split
        · trivial
        · have first : c.args.arg? 0 = some property := (Option.filter_eq_some_iff.mp named).1
          refine Only.bind ((only_writePath _ _ _ _).mono ?_) fun _ => trivial
          rintro x ⟨key, head, at_⟩
          exact ⟨admin, key, by simp [ArgList.firstKey?, first, head], at_⟩

theorem increment_only (owner : Owner) :
    ((increment owner).body c).Only fun x =>
      c.risen.allowsTarget = true ∧
        ∃ key, c.args.firstKey? = some key ∧ x.AtMember owner.scope c.target key := by
  unfold increment
  dsimp only
  split
  · trivial
  · split
    · trivial
    · next authorized =>
      have allowed : c.risen.allowsTarget = true := by simpa using authorized
      split
      · next property word first _ =>
        split
        · trivial
        · refine Only.bind ?_ fun root => ?_
          · unfold readNumberRoot
            split
            · trivial
            · next key rest keys =>
              refine (only_queryRecord ⟨allowed, key, ?_, .read⟩).bind fun _ => trivial
              simp [ArgList.firstKey?, first, keys]
          · split
            · trivial
            · refine Only.bind ((only_writePath _ _ _ _).mono ?_) fun _ => trivial
              rintro x ⟨key, head, at_⟩
              exact ⟨allowed, key, by simp [ArgList.firstKey?, first, head], at_⟩
      · trivial

theorem num_only :
    (num.body c).Only fun x => x = .access (.read .users c.author (.path "money")) := by
  refine Only.bind (only_queryRecord ?_) fun record => ?_
  · rfl
  · dsimp only
    split <;> trivial

private theorem only_load {P : Interaction → Prop}
    (allowed : P (.access (.read .global LinkTable.recordId (.path LinkTable.fieldName)))) :
    LinkTable.load.Only P :=
  (only_queryRecord allowed).bind fun _ => trivial

theorem links_only :
    (links.body c).Only fun x =>
      x = .access (.read .global LinkTable.recordId (.path LinkTable.fieldName)) := by
  refine Only.bind (only_load ?_) fun table => ?_
  · rfl
  · split <;> trivial

theorem ulink_only :
    (ulink.body c).Only fun x =>
      c.authorIsAdmin = true ∧ x.AtMember .global LinkTable.recordId LinkTable.fieldName := by
  unfold ulink
  dsimp only
  split
  · trivial
  · next authorized =>
    have admin : c.authorIsAdmin = true := by simpa using authorized
    split
    · trivial
    · split
      · trivial
      · split
        · trivial
        · refine (only_load ⟨admin, .read⟩).bind fun table => ?_
          split
          · trivial
          · exact (only_setRecord ⟨admin, .write _⟩).bind fun _ => trivial

theorem uunlink_only :
    (uunlink.body c).Only fun x =>
      c.authorIsAdmin = true ∧ x.AtMember .global LinkTable.recordId LinkTable.fieldName := by
  unfold uunlink
  dsimp only
  split
  · trivial
  · next authorized =>
    have admin : c.authorIsAdmin = true := by simpa using authorized
    split
    · trivial
    · refine (only_load ⟨admin, .read⟩).bind fun table => ?_
      split
      · trivial
      · exact (only_setRecord ⟨admin, .write _⟩).bind fun _ => trivial

/-- A built-in command asks only what the rank of its author permits. -/
theorem IsBuiltin.only_permits {command : Command} (builtin : command.IsBuiltin) :
    (command.body c).Only c.Permits := by
  have rank (rank : Rank) (isGrant : Bool) : (rankBody rank isGrant c).Only c.Permits :=
    (rankBody_only c rank isGrant).mono fun x asked =>
      Context.permits_of_authorIsAdmin asked.1 x
  cases builtin with
  | print => exact print_only c
  | arg => exact arg_only c
  | promote => exact rank .admin true
  | demote => exact rank .admin false
  | mpromote => exact rank .moderator true
  | mdemote => exact rank .moderator false
  | set owner =>
    exact (set_only c owner).mono fun x asked => Context.permits_of_authorIsAdmin asked.1 x
  | get owner =>
    refine (get_only c owner).mono ?_
    rintro x ⟨allowed, part, rfl⟩
    exact Context.permits_of_isAt owner.scope_ne_global allowed ⟨rfl, rfl⟩
  | input => exact input_only c
  | ulink => exact (ulink_only c).mono fun x asked => Context.permits_of_authorIsAdmin asked.1 x
  | uunlink => exact (uunlink_only c).mono fun x asked => Context.permits_of_authorIsAdmin asked.1 x
  | links =>
    refine (links_only c).mono ?_
    rintro x rfl
    exact .inr (.inr ⟨rfl, rfl⟩)
  | increment owner =>
    refine (increment_only c owner).mono ?_
    rintro x ⟨allowed, key, _, at_⟩
    exact Context.permits_of_isAt owner.scope_ne_global allowed at_.isAt
  | num =>
    refine (num_only c).mono ?_
    rintro x rfl
    exact .inr (.inl ⟨by decide, rfl⟩)
  | help => exact help_only c

end Command

end OperatorScript
