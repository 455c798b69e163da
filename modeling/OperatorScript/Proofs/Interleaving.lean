import OperatorScript.Proofs.Interaction

/-!
Interleavings: two procedures that go on in turn in one world.

Each interaction is a step of its own, and either of the two may take the next one. Interactions are
independent if neither changes the answer to the other and their order makes no difference. The main
statement: two procedures with independent interactions come to an end whatever turns they take,
and to the same end to which they come one after the other.
-/

set_option autoImplicit false
set_option relaxedAutoImplicit false

namespace OperatorScript

open Json

namespace Interaction

def AnsweredAlike (w v : World) : Interaction → Prop
  | .access (.read scope id part) => w.read scope id part = v.read scope id part
  | .access (.write ..) => True
  | .role act => (w.roles.perform act).1 = (v.roles.perform act).1

theorem AnsweredAlike.refl (x : Interaction) (w : World) : x.AnsweredAlike w w := by
  match x with
  | .access (.read ..) => rfl
  | .access (.write ..) => trivial
  | .role _ => rfl

theorem AnsweredAlike.trans {x : Interaction} {u v w : World} (first : x.AnsweredAlike u v)
    (second : x.AnsweredAlike v w) : x.AnsweredAlike u w := by
  match x, first, second with
  | .access (.read ..), first, second => exact Eq.trans first second
  | .access (.write ..), _, _ => trivial
  | .role _, first, second => exact Eq.trans first second

/-- Neither of two interactions changes the answer to the other, and either order of them leaves the
same world. -/
structure Independent (x y : Interaction) : Prop where
  unchanged : ∀ w, x.AnsweredAlike w (y.apply w)
  unchanging : ∀ w, y.AnsweredAlike w (x.apply w)
  commute : ∀ w, x.apply (y.apply w) = y.apply (x.apply w)

theorem Independent.symm {x y : Interaction} (independent : x.Independent y) : y.Independent x :=
  ⟨independent.unchanging, independent.unchanged, fun w => (independent.commute w).symm⟩

end Interaction

namespace Procedure

variable {α : Type} {P : Interaction → Prop}

inductive Step : Procedure Empty α → World → Interaction → Procedure Empty α → Prop
  | read (scope : Scope) (id : String) (part : World.Part)
      (next : Except StoreError Record → Procedure Empty α) (w : World) :
      Step (.read scope id part next) w (.access (.read scope id part))
        (next (.ok (w.read scope id part)))
  | write (scope : Scope) (id : String) (part : Record)
      (next : Except StoreError Unit → Procedure Empty α) (w : World) :
      Step (.write scope id part next) w (.access (.write scope id part)) (next (.ok ()))
  | role (act : Roles.Act) (next : Bool → Procedure Empty α) (w : World) :
      Step (.role act next) w (.role act) (next (w.roles.perform act).1)

private theorem Only.of_step {p q : Procedure Empty α} {w : World} {x : Interaction}
    (only : p.Only P) (step : p.Step w x q) : P x ∧ q.Only P := by
  cases step with
  | read => exact ⟨only.1, only.2 _⟩
  | write => exact ⟨only.1, only.2 _⟩
  | role => exact ⟨only.1, only.2 _⟩

private theorem Step.congr {p q : Procedure Empty α} {w v : World} {x : Interaction}
    (alike : x.AnsweredAlike w v) (step : p.Step w x q) : p.Step v x q := by
  cases step with
  | read scope id part next =>
    have answer : w.read scope id part = v.read scope id part := alike
    rw [answer]
    exact .read scope id part next v
  | write scope id part next => exact .write scope id part next v
  | role act next =>
    have answer : (w.roles.perform act).1 = (v.roles.perform act).1 := alike
    rw [answer]
    exact .role act next v

/-- What a procedure comes to by itself in a world where no access breaks down: its value or fault,
and the world that it leaves. -/
def endIn (p : Procedure Empty α) (w : World) : Except Fault α × World :=
  let outcome := p.run .none { world := w }
  (outcome.result, outcome.state.world)

theorem endIn_eq_run (p : Procedure Empty α) (s : State) :
    p.endIn s.world = ((p.run .none s).result, (p.run .none s).state.world) := by
  have anything : p.Only fun _ => True := by
    induction p with
    | done | fail | panic => trivial
    | emit chunk => exact chunk.elim
    | read _ _ _ _ ih => exact ⟨trivial, ih⟩
    | write _ _ _ _ ih => exact ⟨trivial, ih⟩
    | role _ _ ih => exact ⟨trivial, ih⟩
  obtain ⟨-, result, worlds⟩ :=
    run_alike (A := Eq) (s := { world := s.world }) (t := s) (fun same _ => by rw [same])
      (fun same _ => by rw [same]) (fun same _ => by rw [same]) anything rfl
  exact Prod.ext result worlds

private theorem endIn_of_step {p q : Procedure Empty α} {w : World} {x : Interaction}
    (step : p.Step w x q) : p.endIn w = q.endIn (x.apply w) := by
  cases step with
  | read scope id part next =>
    exact (endIn_eq_run (next (.ok (w.read scope id part))) (State.tick { world := w })).symm
  | write scope id part next =>
    exact (endIn_eq_run (next (.ok ()))
      { State.tick { world := w } with world := w.write scope id part }).symm
  | role act next =>
    exact (endIn_eq_run (next (w.roles.perform act).1)
      { world := { w with roles := (w.roles.perform act).2 } }).symm

private theorem endIn_of_no_step {p : Procedure Empty α} {w : World} (ended : ∀ x q, ¬ p.Step w x q)
    (v : World) : p.endIn v = ((p.endIn w).1, v) ∧ ∀ a, (p.endIn w).1 = .ok a → p = .done a := by
  cases p with
  | done value =>
    refine ⟨rfl, fun a same => ?_⟩
    rw [← Except.ok.inj same]
  | emit chunk => exact chunk.elim
  | read scope id part next => exact (ended _ _ (.read scope id part next w)).elim
  | write scope id part next => exact (ended _ _ (.write scope id part next w)).elim
  | role act next => exact (ended _ _ (.role act next w)).elim
  | fail failure => exact ⟨rfl, fun _ same => nomatch same⟩
  | panic text => exact ⟨rfl, fun _ same => nomatch same⟩

section Independent

variable {p : Procedure Empty α} {y : Interaction} (only : p.Only P)
  (independent : ∀ x, P x → x.Independent y) (w : World)

include only independent

private theorem endIn_apply : p.endIn (y.apply w) = ((p.endIn w).1, y.apply (p.endIn w).2) := by
  have reads {u v : World} {scope : Scope} {id : String} {part : World.Part} (same : v = y.apply u)
      (permitted : P (.access (.read scope id part))) :
      u.read scope id part = v.read scope id part := by
    rw [same]
    exact (independent _ permitted).unchanged u
  have acts {u v : World} {act : Roles.Act} (same : v = y.apply u) (permitted : P (.role act)) :
      (u.roles.perform act).1 = (v.roles.perform act).1 := by
    rw [same]
    exact (independent _ permitted).unchanged u
  have changes {u v : World} {x : Interaction} (same : v = y.apply u) (permitted : P x) :
      x.apply v = y.apply (x.apply u) := by
    rw [same]
    exact (independent _ permitted).commute u
  obtain ⟨-, result, worlds⟩ :=
    run_alike (A := fun u v => v = y.apply u) (s := { world := w }) (t := { world := y.apply w })
      reads acts changes only rfl
  exact Prod.ext result.symm worlds

private theorem answeredAlike_endIn : y.AnsweredAlike w (p.endIn w).2 :=
  rel_run (R := y.AnsweredAlike) (.refl y) .trans
    (fun x v permitted => (independent x permitted).unchanging v) .none only { world := w }

end Independent

end Procedure

structure Concurrent (α β : Type) where
  left : Procedure Empty α
  right : Procedure Empty β
  world : World

namespace Concurrent

variable {α β : Type} {P Q : Interaction → Prop}

inductive Step : Concurrent α β → Concurrent α β → Prop
  | left {p p' : Procedure Empty α} {w : World} {x : Interaction} (step : p.Step w x p')
      (q : Procedure Empty β) : Step ⟨p, q, w⟩ ⟨p', q, x.apply w⟩
  | right {q q' : Procedure Empty β} {w : World} {x : Interaction} (step : q.Step w x q')
      (p : Procedure Empty α) : Step ⟨p, q, w⟩ ⟨p, q', x.apply w⟩

def Ended (c : Concurrent α β) : Prop := ∀ d, ¬ c.Step d

/-- Whatever turns two procedures take, they come to an end, and to a good one. -/
inductive Inevitably (good : Concurrent α β → Prop) : Concurrent α β → Prop
  | ended {c : Concurrent α β} (ended : c.Ended) (holds : good c) : Inevitably good c
  | step {c : Concurrent α β} (moves : ∃ d, c.Step d)
      (rest : ∀ d, c.Step d → Inevitably good d) : Inevitably good c

private theorem acc_step (c : Concurrent α β) : Acc (fun d c => Step c d) c := by
  obtain ⟨p, q, w⟩ := c
  -- A step of either leaves the other as it is, so the inner induction is on the other tree.
  induction p generalizing q w with
  | emit chunk => exact chunk.elim
  | done | fail | panic =>
    induction q generalizing w with
    | emit chunk => exact chunk.elim
    | done | fail | panic =>
      constructor
      rintro _ (⟨⟨⟩⟩ | ⟨⟨⟩⟩)
    | read | write | role =>
      rename_i ih
      constructor
      rintro _ (⟨⟨⟩⟩ | ⟨⟨⟩⟩)
      exact ih _ _
  | read | write | role =>
    rename_i ihLeft
    induction q generalizing w with
    | emit chunk => exact chunk.elim
    | done | fail | panic =>
      constructor
      rintro _ (⟨⟨⟩⟩ | ⟨⟨⟩⟩)
      exact ihLeft _ _ _
    | read | write | role =>
      rename_i ih
      constructor
      rintro _ (⟨⟨⟩⟩ | ⟨⟨⟩⟩)
      · exact ihLeft _ _ _
      · exact ih _ _

def leftFirst (c : Concurrent α β) : Except Fault α × Except Fault β × World :=
  let first := c.left.endIn c.world
  let second := c.right.endIn first.2
  (first.1, second.1, second.2)

def rightFirst (c : Concurrent α β) : Except Fault α × Except Fault β × World :=
  let first := c.right.endIn c.world
  let second := c.left.endIn first.2
  (second.1, first.1, second.2)

structure Apart (P Q : Interaction → Prop) (c : Concurrent α β) : Prop where
  independent : ∀ x y, P x → Q y → x.Independent y
  left : c.left.Only P
  right : c.right.Only Q

def swap (c : Concurrent α β) : Concurrent β α := ⟨c.right, c.left, c.world⟩

private theorem Step.swap {c d : Concurrent α β} (step : c.Step d) : c.swap.Step d.swap := by
  cases step with
  | left step q => exact .right step q
  | right step p => exact .left step p

private theorem Apart.swap {c : Concurrent α β} (apart : c.Apart P Q) : c.swap.Apart Q P :=
  ⟨fun x y inRight inLeft => (apart.independent y x inLeft inRight).symm, apart.right, apart.left⟩

private theorem Apart.of_step {c d : Concurrent α β} (apart : c.Apart P Q) (step : c.Step d) :
    d.Apart P Q := by
  cases step with
  | left step q => exact ⟨apart.independent, (apart.left.of_step step).2, apart.right⟩
  | right step p => exact ⟨apart.independent, apart.left, (apart.right.of_step step).2⟩

private theorem leftFirst_of_step {c d : Concurrent α β} (apart : c.Apart P Q) (step : c.Step d) :
    d.leftFirst = c.leftFirst := by
  cases step with
  | left step q => simp only [leftFirst, Procedure.endIn_of_step step]
  | @right q q' w y step p =>
    have asked : Q y := (apart.right.of_step step).1
    have independent (x : Interaction) (inLeft : P x) : x.Independent y :=
      apart.independent x y inLeft asked
    have later : q.Step (p.endIn w).2 y q' :=
      step.congr (Procedure.answeredAlike_endIn apart.left independent w)
    simp only [leftFirst, Procedure.endIn_apply apart.left independent w,
      Procedure.endIn_of_step later]

private theorem rightFirst_of_step {c d : Concurrent α β} (apart : c.Apart P Q) (step : c.Step d) :
    d.rightFirst = c.rightFirst := by
  have mirrored : d.swap.leftFirst = c.swap.leftFirst := leftFirst_of_step apart.swap step.swap
  simp only [leftFirst, swap, Prod.mk.injEq] at mirrored
  simp only [rightFirst, Prod.mk.injEq]
  exact ⟨mirrored.2.1, mirrored.1, mirrored.2.2⟩

section Ended

variable {c : Concurrent α β} (ended : c.Ended)

include ended

private theorem Ended.left (v : World) : c.left.endIn v = ((c.left.endIn c.world).1, v) ∧
    ∀ a, (c.left.endIn c.world).1 = .ok a → c.left = .done a :=
  Procedure.endIn_of_no_step (fun _ _ step => ended _ (.left step c.right)) v

private theorem Ended.right (v : World) : c.right.endIn v = ((c.right.endIn c.world).1, v) ∧
    ∀ b, (c.right.endIn c.world).1 = .ok b → c.right = .done b :=
  Procedure.endIn_of_no_step (fun _ _ step => ended _ (.right step c.left)) v

private theorem Ended.leftFirst_eq : c.leftFirst =
    ((c.left.endIn c.world).1, (c.right.endIn c.world).1, c.world) := by
  have left : (c.left.endIn c.world).2 = c.world := congrArg Prod.snd (ended.left c.world).1
  have right : (c.right.endIn c.world).2 = c.world := congrArg Prod.snd (ended.right c.world).1
  simp only [leftFirst, left, right]

private theorem Ended.rightFirst_eq : c.rightFirst =
    ((c.left.endIn c.world).1, (c.right.endIn c.world).1, c.world) := by
  have left : (c.left.endIn c.world).2 = c.world := congrArg Prod.snd (ended.left c.world).1
  have right : (c.right.endIn c.world).2 = c.world := congrArg Prod.snd (ended.right c.world).1
  simp only [rightFirst, right, left]

private theorem Ended.eq_done {a : α} {b : β} {v : World}
    (whole : c.leftFirst = (.ok a, .ok b, v)) :
    c = ⟨.done a, .done b, v⟩ := by
  rw [ended.leftFirst_eq] at whole
  obtain ⟨left, right, worlds⟩ : (c.left.endIn c.world).1 = .ok a ∧
    (c.right.endIn c.world).1 = .ok b ∧ c.world = v := by simpa using whole
  obtain ⟨p, q, w⟩ := c
  obtain rfl : p = .done a := (ended.left w).2 a left
  obtain rfl : q = .done b := (ended.right w).2 b right
  rw [← worlds]

end Ended

theorem Apart.leftFirst_eq_rightFirst {c : Concurrent α β} (apart : c.Apart P Q) :
    c.leftFirst = c.rightFirst := by
  induction acc_step c with
  | intro c _ ih =>
    by_cases moves : ∃ d, c.Step d
    · obtain ⟨d, step⟩ := moves
      rw [← leftFirst_of_step apart step, ← rightFirst_of_step apart step]
      exact ih d step (apart.of_step step)
    · have ended : c.Ended := fun d step => moves ⟨d, step⟩
      rw [ended.leftFirst_eq, ended.rightFirst_eq]

/-- Whatever turns independent procedures take, they come to the end to which they come if the left
one runs first. -/
theorem Apart.inevitably {c : Concurrent α β} (apart : c.Apart P Q) {a : α} {b : β} {v : World}
    (whole : c.leftFirst = (.ok a, .ok b, v)) :
    c.Inevitably fun d => d = ⟨.done a, .done b, v⟩ := by
  induction acc_step c with
  | intro c _ ih =>
    by_cases moves : ∃ d, c.Step d
    · refine .step moves fun d step => ih d step (apart.of_step step) ?_
      rw [leftFirst_of_step apart step, whole]
    · have ended : c.Ended := fun d step => moves ⟨d, step⟩
      exact .ended ended (ended.eq_done whole)

end Concurrent

end OperatorScript
