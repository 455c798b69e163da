import OperatorScript.Procedure

/-!
What a procedure can ask of a world, whatever it is answered.

A property of all interactions of a procedure is proved along its tree, without running it. The main
statements: such a property decides what a run can change, and what two runs from different worlds
have in common.
-/

set_option autoImplicit false
set_option relaxedAutoImplicit false

namespace OperatorScript

open Json

/-- What a procedure asks of a world: an access to a record, or an act on the roles. -/
inductive Interaction where
  | access (a : Access)
  | role (act : Roles.Act)

namespace Interaction

def apply (w : World) : Interaction → World
  | .access (.read ..) => w
  | .access (.write scope id part) => w.write scope id part
  | .role act => { w with roles := (w.roles.perform act).2 }

def IsAt (scope : Scope) (id : String) : Interaction → Prop
  | .access a => a.scope = scope ∧ a.id = id
  | .role _ => False

inductive AtMember (scope : Scope) (id key : String) : Interaction → Prop
  | read : AtMember scope id key (.access (.read scope id (.path key)))
  | write (value : Value) : AtMember scope id key (.access (.write scope id [(key, value)]))

theorem AtMember.isAt {scope : Scope} {id key : String} {x : Interaction}
    (member : x.AtMember scope id key) : x.IsAt scope id := by
  cases member <;> exact ⟨rfl, rfl⟩

end Interaction

namespace Procedure

variable {Out α β : Type} {P Q : Interaction → Prop}

/-- Every interaction of a procedure has a property, whatever the answers before it. -/
def Only (P : Interaction → Prop) : Procedure Out α → Prop
  | .done _ => True
  | .emit _ next => next.Only P
  | .read scope id part next =>
    P (.access (.read scope id part)) ∧ ∀ answer, (next answer).Only P
  | .write scope id part next =>
    P (.access (.write scope id part)) ∧ ∀ answer, (next answer).Only P
  | .role act next => P (.role act) ∧ ∀ answer, (next answer).Only P
  | .fail _ => True
  | .panic _ => True

theorem Only.mono {p : Procedure Out α} (only : p.Only P) (weaker : ∀ x, P x → Q x) :
    p.Only Q := by
  induction p with
  | done | fail | panic => trivial
  | emit _ _ ih => exact ih only
  | read _ _ _ _ ih => exact ⟨weaker _ only.1, fun answer => ih answer (only.2 answer)⟩
  | write _ _ _ _ ih => exact ⟨weaker _ only.1, fun answer => ih answer (only.2 answer)⟩
  | role _ _ ih => exact ⟨weaker _ only.1, fun answer => ih answer (only.2 answer)⟩

theorem Only.bind {p : Procedure Out α} {f : α → Procedure Out β} (first : p.Only P)
    (rest : ∀ value, (f value).Only P) : (p.bind f).Only P := by
  induction p with
  | done value => exact rest value
  | fail | panic => trivial
  | emit _ _ ih => exact ih first
  | read _ _ _ _ ih => exact ⟨first.1, fun answer => ih answer (first.2 answer)⟩
  | write _ _ _ _ ih => exact ⟨first.1, fun answer => ih answer (first.2 answer)⟩
  | role _ _ ih => exact ⟨first.1, fun answer => ih answer (first.2 answer)⟩

private theorem only_ofAnswer (answer : Except StoreError α) :
    (ofAnswer answer : Procedure Out α).Only P := by
  cases answer <;> trivial

theorem only_getRecord {scope : Scope} {id : String}
    (allowed : P (.access (.read scope id .whole))) :
    (getRecord scope id : Procedure Out Record).Only P :=
  ⟨allowed, only_ofAnswer⟩

theorem only_queryRecord {scope : Scope} {id path : String}
    (allowed : P (.access (.read scope id (.path path)))) :
    (queryRecord scope id path : Procedure Out Record).Only P :=
  ⟨allowed, only_ofAnswer⟩

theorem only_setRecord {scope : Scope} {id : String} {part : Record}
    (allowed : P (.access (.write scope id part))) :
    (setRecord scope id part : Procedure Out Unit).Only P :=
  ⟨allowed, only_ofAnswer⟩

theorem only_writePath (scope : Scope) (id : String) (keys : List String) (value : Value) :
    (writePath scope id keys value : Procedure Out Unit).Only
      fun x => ∃ key, keys.head? = some key ∧ x.AtMember scope id key := by
  match keys with
  | [] => trivial
  | [key] => exact only_setRecord ⟨key, rfl, .write value⟩
  | key :: next :: rest =>
    apply (only_queryRecord ⟨key, rfl, .read⟩).bind
    intro current
    exact only_setRecord ⟨key, rfl, .write _⟩

/-- A run keeps every reflexive and transitive relation that its interactions keep, whichever
accesses break down. -/
theorem rel_run {R : World → World → Prop} (refl : ∀ w, R w w)
    (trans : ∀ {u v w}, R u v → R v w → R u w) (step : ∀ x w, P x → R w (x.apply w))
    (outage : Outage) {p : Procedure Out α} (only : p.Only P) (s : State) :
    R s.world (p.run outage s).state.world := by
  induction p generalizing s with
  | done | fail | panic => exact refl _
  | emit _ _ ih => exact ih only s
  | read scope id part next ih =>
    simp only [run]
    split
    · exact refl _
    · exact ih _ (only.2 _) s.tick
    · exact ih _ (only.2 _) s.tick
  | write scope id part next ih =>
    simp only [run]
    split
    · exact refl _
    · exact ih _ (only.2 _) s.tick
    · have changed := step _ s.world only.1
      have rest := ih (.ok ()) (only.2 _) { s.tick with world := s.world.write scope id part }
      exact trans changed rest
  | role act next ih =>
    have changed := step _ s.world only.1
    have rest := ih (s.world.roles.perform act).1 (only.2 _)
      { s with world := { s.world with roles := (s.world.roles.perform act).2 } }
    exact trans changed rest

/-- Two runs without outages from worlds that answer every interaction of the procedure alike, and
stay so, emit the same and end alike. -/
theorem run_alike {A : World → World → Prop}
    (reads : ∀ {w v scope id part}, A w v → P (.access (.read scope id part)) →
      w.read scope id part = v.read scope id part)
    (acts : ∀ {w v act}, A w v → P (.role act) →
      (w.roles.perform act).1 = (v.roles.perform act).1)
    (changes : ∀ {w v x}, A w v → P x → A (x.apply w) (x.apply v))
    {p : Procedure Out α} (only : p.Only P) {s t : State} (alike : A s.world t.world) :
    (p.run .none s).chunks = (p.run .none t).chunks ∧
      (p.run .none s).result = (p.run .none t).result ∧
      A (p.run .none s).state.world (p.run .none t).state.world := by
  induction p generalizing s t with
  | done | fail | panic => exact ⟨rfl, rfl, alike⟩
  | emit chunk next ih =>
    obtain ⟨chunks, result, worlds⟩ := ih only alike
    exact ⟨congrArg (chunk :: ·) chunks, result, worlds⟩
  | read scope id part next ih =>
    have answer := reads alike only.1
    simp only [run, Outage.none, answer]
    exact ih _ (only.2 _) (s := s.tick) (t := t.tick) alike
  | write scope id part next ih => exact ih _ (only.2 _) (changes alike only.1)
  | role act next ih =>
    have answer := acts alike only.1
    simp only [run, answer]
    exact ih _ (only.2 _) (changes alike only.1)

end Procedure

end OperatorScript
