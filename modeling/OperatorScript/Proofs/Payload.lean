import OperatorScript.Json.Equality
import OperatorScript.Proofs.ReadBack

/-!
The JSON text of a statement that sets a property.

The text is cut into words like any tail, and put together again from those that are arguments. A
word that begins with two dashes is a flag, even inside a string of JSON, and drops out together
with the word that it takes as its value. The main statement: what is stored is the value of the
words that are left, which are the whole text exactly if no word of it is a flag.
-/

set_option autoImplicit false
set_option relaxedAutoImplicit false

namespace OperatorScript

open Json

instance (text : String) (value : Value) : Decidable (Value.read text = .ok value) :=
  match h : Value.read text with
  | .ok other => decidable_of_iff (other = value) (by simp)
  | .error e => isFalse (by simp)

namespace Interpreter

open Command

/-- The words of a statement that sets a property decide what is stored. An administrator succeeds
and finds a value at the property exactly if it can be read from the words that are no flags and no
values of flags. A text with single spaces is thus stored as it is written if none of its words is a
flag; and only then are the words that are left the whole of it. -/
theorem payload_stored (settings : Settings) (m : Message) (mode : Mode) (s : State)
    (owner : Owner) {target property json : String} (admin : s.world.isAdmin m.sender = true)
    (parts : PayloadParts owner m target property json)
    (normal : Text.join " " (Text.words json) = json) (keyed : pathKeys [property] ≠ []) :
    let i : Interpreter := { settings }
    let written := i.run m mode (setScript owner target property json) s
    let record := written.stop.world.read owner.scope (Statement.resolve m target) .whole
    let stored := (Value.obj record).get? (pathKeys [property])
    let flagless := ∀ word ∈ Text.words json, ArgList.isFlag word = false
    let kept := Text.join " " (ArgList.positional (Text.words json))
    (flagless → ∀ value, Value.read json = .ok value →
      written.evaluation.status = .success ∧ stored = some value) ∧
    (∀ value, Value.read kept = .ok value ↔
      written.evaluation.status = .success ∧ stored = some value) ∧
    (kept = json ↔ flagless) := by
  intro i written record stored flagless kept
  have whole : kept = json ↔ flagless := ArgList.join_positional_eq_iff normal
  have general (value : Value) (read : Value.read kept = .ok value) :
      written.evaluation.status = .success ∧ stored = some value := by
    obtain ⟨key, rest, keys⟩ := List.exists_cons_of_ne_nil keyed
    obtain ⟨item, accesses, holds, evaluation, stop⟩ :=
      run_payload (i := i) rfl rfl parts admin read keys (r := written) rfl
    have found : stored = item.get? rest := by
      rw [← World.get?_read_write_self s.world owner.scope (Statement.resolve m target) key]
      simp only [stored, record, stop, keys]
    exact ⟨congrArg Evaluation.status evaluation, found.trans holds⟩
  refine ⟨fun flagless value read => general value ?_, fun value => ⟨general value, ?_⟩, whole⟩
  · rw [whole.mpr flagless]
    exact read
  · rintro ⟨succeeded, found⟩
    obtain ⟨other, read⟩ :=
      exists_read_of_payload (i := i) rfl rfl parts (r := written) rfl succeeded
    obtain rfl : other = value := Option.some.inj ((general other read).2.symm.trans found)
    exact read

/-- A number is stored as it is read, which is not always the nearest one. -/
theorem payload_stored_with_one_dash :
    let s : State := { world := { roles := .ofLists ["1"] [] } }
    let m : Message := { sender := "1" }
    let json := "\x7b\"a\": \"b -c\", \"n\": 7e23\x7d"
    let value :=
      Value.obj [("a", .str "b -c"), ("n", .ofReal (.ofDecimal false 6999999999999999 8))]
    let written := ({} : Interpreter).run m .streaming (setScript .user "self" "bank.note" json) s
    s.world.isAdmin m.sender = true ∧ PayloadParts .user m "self" "bank.note" json ∧
    Text.join " " (Text.words json) = json ∧ pathKeys ["bank.note"] ≠ [] ∧
    (∀ word ∈ Text.words json, ArgList.isFlag word = false) ∧ Value.read json = .ok value ∧
    written.evaluation.status = .success ∧
    (Value.obj (written.stop.world.read .users "1" .whole)).get? (pathKeys ["bank.note"]) =
      some value := by
  intro s m json value written
  have admin : s.world.isAdmin m.sender = true := by decide +kernel
  have parts : PayloadParts .user m "self" "bank.note" json :=
    { spaceless := by decide +kernel
      named := by decide +kernel
      word := by decide +kernel
      unflagged := by decide +kernel
      plain := by decide +kernel }
  have normal : Text.join " " (Text.words json) = json := by decide +kernel
  have keyed : pathKeys ["bank.note"] ≠ [] := by decide +kernel
  have flagless : ∀ word ∈ Text.words json, ArgList.isFlag word = false := by decide +kernel
  have read : Value.read json = .ok value := by decide +kernel
  have outcome :=
    (payload_stored {} m .streaming s .user admin parts normal keyed).1 flagless value read
  exact ⟨admin, parts, normal, keyed, flagless, read, outcome.1, outcome.2⟩

/-- A word of a string that begins with two dashes drops out of it with the next word, and what is
left is stored as if it had been written. -/
theorem not_stored_with_two_dashes :
    let s : State := { world := { roles := .ofLists ["1"] [] } }
    let m : Message := { sender := "1" }
    let json := "\"use --force now please\""
    let written := ({} : Interpreter).run m .buffered (setScript .user "9" "note" json) s
    s.world.isAdmin m.sender = true ∧ PayloadParts .user m "9" "note" json ∧
    Text.join " " (Text.words json) = json ∧ pathKeys ["note"] ≠ [] ∧
    Value.read json = .ok (.str "use --force now please") ∧
    written.evaluation.status = .success ∧
    (Value.obj (written.stop.world.read .users "9" .whole)).get? (pathKeys ["note"]) =
      some (.str "use please") := by
  intro s m json written
  have parts : PayloadParts .user m "9" "note" json :=
    { spaceless := by decide +kernel
      named := by decide +kernel
      word := by decide +kernel
      unflagged := by decide +kernel
      plain := by decide +kernel }
  exact ⟨by decide +kernel, parts, by decide +kernel, by decide +kernel, by decide +kernel,
    by decide +kernel, by decide +kernel⟩

end Interpreter

end OperatorScript
