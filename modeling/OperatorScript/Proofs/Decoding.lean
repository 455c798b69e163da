import OperatorScript.Proofs.FlatSpans
import OperatorScript.Proofs.Spelling
import OperatorScript.Proofs.Substitution

/-!
Messages read from JSON objects.

The sender and the reply are taken out of an object, and put back when the message is shown as a
value. A message shows a field alike in both ways if no other field hides behind the reply. The main
statement: an object that stands for a message is kept whole, so that a placeholder and the command
`input` look at the same members of it; a reply of `null` is none; and every other value is refused.
-/

set_option autoImplicit false
set_option relaxedAutoImplicit false

namespace OperatorScript

open Json

namespace Message

variable {m : Message} {members : Record}

/-- What may stand in an object for the identity replied to, and the identity that it names. -/
inductive Replies : Option Value → Option String → Prop
  | absent : Replies none none
  | null : Replies (some .null) none
  | named (id : String) : Replies (some (.str id)) (some id)

/-- An object stands for a message: its sender is a text, its reply a text, `null` or missing. -/
structure IsMessage (members : Record) : Prop where
  sender : ∃ id, members.get? senderName = some (.str id)
  reply : ∃ repliedTo, Replies (members.get? repliedToName) repliedTo

/-- A message holds what stands in an object: its sender, its reply, and all other members. -/
structure ReadFrom (m : Message) (members : Record) : Prop where
  sender : members.get? senderName = some (.str m.sender)
  reply : Replies (members.get? repliedToName) m.repliedTo
  fields : m.fields = (Dict.erase repliedToName members).erase senderName

private theorem decodeReply_eq_ok_iff {repliedTo : Option String} :
    decodeReply members = .ok repliedTo ↔ Replies (members.get? repliedToName) repliedTo := by
  unfold decodeReply
  generalize members.get? repliedToName = found
  constructor
  · intro decoded
    split at decoded
    · cases decoded
      exact .absent
    · cases decoded
      exact .null
    · next id =>
      cases decoded
      exact .named id
    · cases decoded
  · intro replies
    cases replies <;> rfl

private theorem decodeSender_eq_ok_iff {id : String} :
    decodeSender members = .ok id ↔ members.get? senderName = some (.str id) := by
  unfold decodeSender
  generalize members.get? senderName = found
  constructor
  · intro decoded
    split at decoded
    · cases decoded
    · cases decoded
      rfl
    · cases decoded
  · rintro rfl
    rfl

private theorem decode_eq_ok_iff {v : Value} :
    decode v = .ok m ↔ ∃ members, v = .obj members ∧ m.ReadFrom members := by
  constructor
  · intro decoded
    unfold decode at decoded
    split at decoded
    · next members =>
      split at decoded
      · cases decoded
      · cases decoded
      · next repliedTo sender reply given =>
        cases decoded
        exact ⟨members, rfl, decodeSender_eq_ok_iff.mp given, decodeReply_eq_ok_iff.mp reply, rfl⟩
    · cases decoded
  · rintro ⟨members, rfl, read⟩
    simp only [decode, decodeReply_eq_ok_iff.mpr read.reply, decodeSender_eq_ok_iff.mpr read.sender]
    rw [← read.fields]

private theorem get?_toRecord (hidden : m.repliedTo = none → m.fields.get? repliedToName = none)
    (name : String) : m.toRecord.get? name = m.field? name := by
  have apart : repliedToName ≠ senderName := by decide
  unfold toRecord field?
  cases replied : m.repliedTo with
  | none =>
    rw [Dict.get?_insert]
    by_cases sender : name = senderName
    · simp only [sender, if_true]
    · by_cases reply : name = repliedToName
      · simp only [reply, apart, if_true, if_false, hidden replied, Option.map_none]
      · simp only [sender, reply, if_false]
  | some id =>
    rw [Dict.get?_insert, Dict.get?_insert]
    by_cases reply : name = repliedToName
    · simp only [reply, apart, if_true, if_false, Option.map_some]
    · simp only [reply, if_false]

private theorem ordered_toRecord (ordered : m.fields.Ordered) : m.toRecord.Ordered := by
  unfold toRecord
  cases m.repliedTo with
  | none => exact ordered.insert _ _
  | some id => exact (ordered.insert _ _).insert _ _

namespace ReadFrom

variable (read : m.ReadFrom members) (ordered : members.Ordered)

include read ordered

private theorem get?_fields {name : String} (sender : name ≠ senderName)
    (reply : name ≠ repliedToName) :
    m.fields.get? name = members.get? name := by
  rw [read.fields, (ordered.erase _).get?_erase_of_ne sender, ordered.get?_erase_of_ne reply]

private theorem get?_fields_repliedToName : m.fields.get? repliedToName = none := by
  rw [read.fields, (ordered.erase _).get?_erase_of_ne (by decide), ordered.get?_erase_self]

private theorem field?_eq (given : members.get? repliedToName ≠ some .null) (name : String) :
    m.field? name = members.get? name := by
  unfold field?
  by_cases isSender : name = senderName
  · rw [if_pos isSender, isSender, read.sender]
  · rw [if_neg isSender]
    by_cases isReply : name = repliedToName
    · have reply := read.reply
      rw [if_pos isReply, isReply]
      generalize members.get? repliedToName = found at reply given ⊢
      generalize m.repliedTo = repliedTo at reply ⊢
      cases reply with
      | absent => rfl
      | null => exact absurd rfl given
      | named id => rfl
    · rw [if_neg isReply, read.get?_fields ordered isSender isReply]

private theorem toRecord_eq (given : members.get? repliedToName ≠ some .null) :
    m.toRecord = members := by
  have inOrder : m.fields.Ordered := by
    rw [read.fields]
    exact (ordered.erase _).erase _
  refine (ordered_toRecord inOrder).ext ordered fun name => ?_
  rw [get?_toRecord fun _ => read.get?_fields_repliedToName ordered,
    read.field?_eq ordered given]

end ReadFrom

private theorem isMessage_iff : IsMessage members ↔ ∃ m : Message, m.ReadFrom members := by
  constructor
  · rintro ⟨⟨sender, found⟩, repliedTo, replies⟩
    exact ⟨{ sender, repliedTo, fields := _ }, found, replies, rfl⟩
  · rintro ⟨m, read⟩
    exact ⟨⟨m.sender, read.sender⟩, m.repliedTo, read.reply⟩

private theorem exists_decode_eq_error_iff {v : Value} :
    (∃ e, decode v = .error e) ↔ ∀ members, v = .obj members → ¬ IsMessage members := by
  constructor
  · rintro ⟨e, refused⟩ members rfl isMessage
    obtain ⟨m, read⟩ := isMessage_iff.mp isMessage
    have decoded := decode_eq_ok_iff.mpr ⟨members, rfl, read⟩
    rw [refused] at decoded
    cases decoded
  · intro none
    cases decoded : decode v with
    | error e => exact ⟨e, rfl⟩
    | ok m =>
      obtain ⟨members, eq, read⟩ := decode_eq_ok_iff.mp decoded
      exact (none members eq (isMessage_iff.mpr ⟨m, read⟩)).elim

private theorem decode_of_null (ordered : members.Ordered)
    (null : members.get? repliedToName = some .null) :
    decode (.obj members) = decode (.obj (Dict.erase repliedToName members)) := by
  have absent : (Dict.erase repliedToName members).get? repliedToName = none :=
    ordered.get?_erase_self repliedToName
  have reply : decodeReply members = .ok none := decodeReply_eq_ok_iff.mpr (null ▸ .null)
  have reply' : decodeReply (Dict.erase repliedToName members) = .ok none :=
    decodeReply_eq_ok_iff.mpr (absent ▸ .absent)
  have sender : decodeSender (Dict.erase repliedToName members) = decodeSender members := by
    rw [decodeSender, ordered.get?_erase_of_ne (by decide), decodeSender]
  simp only [decode, reply, reply', sender, Dict.erase_eq_self absent]

end Message

namespace Placeholder

structure IsName (name : String) : Prop where
  filled : name ≠ ""
  front : NameFront name.toList

instance (name : String) : Decidable (IsName name) :=
  decidable_of_iff (name ≠ "" ∧ NameFront name.toList)
    ⟨fun both => ⟨both.1, both.2⟩, fun isName => ⟨isName.filled, isName.front⟩⟩

variable {name : String} (isName : IsName name)

include isName

private theorem IsName.isNameRest_of_mem {c : Char} (inside : c ∈ name.toList) :
    isNameRest c = true := by
  have front := isName.front
  cases eq : name.toList with
  | nil => rw [eq] at inside; cases inside
  | cons d cs =>
    rw [eq] at front inside
    rcases List.mem_cons.mp inside with rfl | later
    · simp [isNameRest, front.1]
    · exact front.2 c later

private theorem IsName.not_mem {c : Char} (other : isNameRest c = false) : c ∉ name.toList := by
  intro inside
  rw [isName.isNameRest_of_mem inside] at other
  cases other

private theorem IsName.isWord : Text.IsWord name where
  filled := isName.filled
  unbroken := by
    have blanks : Text.blanks.any isNameRest = false := by decide
    intro c inside
    by_contra blank
    have listed : c ∈ Text.blanks := by simpa [Text.isBlank] using blank
    exact List.any_eq_false.mp blanks c listed (isName.isNameRest_of_mem inside)

private theorem IsName.isKey : IsKey name where
  filled := isName.filled
  plain := by
    intro c inside
    by_contra separates
    have listed : c = '.' ∨ c = ' ' := by simpa using Bool.of_not_eq_false separates
    rcases listed with rfl | rfl
    · exact isName.not_mem (by decide) inside
    · exact isName.not_mem (by decide) inside

private theorem IsName.isFlag_eq : ArgList.isFlag name = false := by
  rw [Bool.eq_false_iff, ArgList.isFlag, ne_eq, List.isPrefixOf_iff_prefix]
  intro dashes
  exact isName.not_mem (by decide) (dashes.subset List.mem_cons_self)

private theorem IsName.pathKeys_eq : pathKeys [name] = [name] :=
  pathKeys_of_spellTogether (.part (.last isName.isKey) .nil)

private theorem IsName.fill_eq (m : Message) :
    fill ("%" ++ name ++ "%") m = fieldText (m.field? name) := by
  have opens : Opens ("%" ++ name ++ "%").toList name.toList [] :=
    ⟨by simp, fun empty => isName.filled (String.toList_eq_nil_iff.mp empty), isName.front⟩
  have read := leftmost_iff.mp (.field opens .nil)
  rw [fill, ← read]
  simp [Piece.render]

end Placeholder

namespace Command

def inputScript (name : String) : String := "input::self " ++ name

variable {name : String} (isName : Placeholder.IsName name)

include isName

private theorem write_input : Statement.write none input.name "self" name = inputScript name := by
  rw [Statement.write, if_neg isName.filled, ← String.append_assoc]
  rfl

private theorem plain_inputScript : PlainScript (inputScript name) := by
  have text : (inputScript name).toList = "input::self ".toList ++ name.toList :=
    String.toList_append
  have outside (c : Char) (front : c ∉ "input::self ".toList)
      (other : Placeholder.isNameRest c = false) : c ∉ (inputScript name).toList := by
    rw [text, List.mem_append]
    exact not_or_intro front (isName.not_mem other)
  refine ⟨fun piece => Placeholder.isField_of_no_percent ?_, Span.isSpan_of_no_bracket ?_⟩
  · exact outside '%' (by decide) (by decide)
  · exact outside ']' (by decide) (by decide)

private theorem read_inputScript (m : Message) :
    Statement.read (inputScript name) m =
      .ok { modifier := none, command := input.name, target := m.sender, tail := name } := by
  rw [← write_input isName]
  exact Statement.read_write m (by decide +kernel) (by decide) (by decide) isName.filled

private theorem args_read_name : (ArgList.read name).args = [name] := by
  rw [ArgList.read, isName.isWord.words_eq, ArgList.tokens_of_no_flag]
  · rfl
  · simpa using isName.isFlag_eq

private theorem run_input {c : Context} (args : c.args.args = [name]) (outage : Outage)
    (s : State) :
    (input.body c).run outage s =
      { chunks := [plainText (c.message.toRecord.get? name)], result := .ok .success
        state := s } := by
  have member : c.message.toValue.get? [name] = c.message.toRecord.get? name := by
    simp [Message.toValue, Value.get?, Value.child?]
  simp only [input, args, isName.pathKeys_eq, member]
  rfl

end Command

namespace Interpreter

open Command

private theorem evaluation_inputScript {i : Interpreter} (builtin : i.catalog = .builtin)
    {name : String}
    (isName : Placeholder.IsName name) {m : Message} {mode : Mode} {s : State} {r : Run}
    (evaluated : i.run m mode (inputScript name) s = r) :
    r.evaluation = { status := .success, result := plainText (m.toRecord.get? name) } ∧
      r.stop = s := by
  have found : i.catalog.command? input.name = some input := by
    rw [builtin]
    rfl
  have concluded := conclusion_of_plain (plain_inputScript isName) (read_inputScript isName m) rfl
    found mode s
  rw [evaluated, run_input isName (args_read_name isName)] at concluded
  exact ⟨congrArg Conclusion.evaluation concluded, congrArg Conclusion.state concluded⟩

end Interpreter

namespace Message

/-- What `%name%` and the command `input` show, if both look at the same value: the one puts its
text into a script, the other prints it and changes nothing. -/
structure Shows (m : Message) (name : String) (value : Option Value) : Prop where
  placeholder : Placeholder.StandsFor value (Placeholder.fill ("%" ++ name ++ "%") m)
  command : ∀ (settings : Settings) (outage : Outage) (mode : Mode) (s : State),
    let i : Interpreter := { settings, outage }
    let run := i.run m mode ("input::self " ++ name) s
    run.evaluation = { status := .success, result := Command.plainText value } ∧ run.stop = s

private theorem shows_of_isName {name : String} (isName : Placeholder.IsName name) {m : Message}
    {value : Option Value} (field : m.field? name = value) (member : m.toRecord.get? name = value) :
    m.Shows name value where
  placeholder := by
    rw [isName.fill_eq, field]
    exact Placeholder.standsFor_fieldText value
  command := by
    intro settings outage mode s i run
    have evaluated : i.run m mode (Command.inputScript name) s = run := rfl
    rw [← member]
    exact Interpreter.evaluation_inputScript rfl isName evaluated

/-- Decoding keeps a message. An object that stands for a message, with a reply that is a text or
missing, is decoded and given back as it was; every field is the member of its name, and is what a
placeholder and the command `input` show. A reply of `null` is decoded as if it were missing. All
values but the objects that stand for messages are refused. -/
theorem decoded_whole :
    (∀ members : Record, members.Ordered → IsMessage members →
      members.get? repliedToName ≠ some .null →
      ∃ m, decode (.obj members) = .ok m ∧ m.toValue = .obj members ∧
        ∀ name, m.field? name = members.get? name ∧
          (Placeholder.IsName name → m.Shows name (members.get? name))) ∧
    (∀ members : Record, members.Ordered → members.get? repliedToName = some .null →
      decode (.obj members) = decode (.obj (Dict.erase repliedToName members))) ∧
    ∀ v, (∃ e, decode v = .error e) ↔ ∀ members, v = .obj members → ¬ IsMessage members := by
  refine ⟨fun members ordered isMessage given => ?_, fun _ => decode_of_null,
    fun _ => exists_decode_eq_error_iff⟩
  obtain ⟨m, read⟩ := isMessage_iff.mp isMessage
  have fields := read.field?_eq ordered given
  have whole := read.toRecord_eq ordered given
  refine ⟨m, decode_eq_ok_iff.mpr ⟨members, rfl, read⟩, congrArg Value.obj whole, fun name => ?_⟩
  exact ⟨fields name, fun isName => shows_of_isName isName (fields name) (by rw [whole])⟩

theorem decoded_whole_of_null_reply :
    let members : Record :=
      [("amount", .ofInt 0), ("detectID", .str "u2"), ("inner", .obj [("senderID", .null)]),
        ("none", .null), ("senderID", .str "u1")]
    let unreplied : Record := [("detectID", .null), ("senderID", .str "u1")]
    (members.Ordered ∧ IsMessage members ∧ members.get? repliedToName ≠ some .null ∧
      Placeholder.IsName "none") ∧
    (∃ m, decode (.obj members) = .ok m ∧ m.toValue = .obj members ∧
      m.field? "none" = some .null ∧ m.Shows "none" (some .null)) ∧
    (unreplied.Ordered ∧ unreplied.get? repliedToName = some .null) ∧
    decode (.obj unreplied) = decode (.obj [("senderID", .str "u1")]) ∧
    (∀ members, Value.arr [] = .obj members → ¬ IsMessage members) ∧
      ∃ e, decode (.arr []) = .error e := by
  intro members unreplied
  obtain ⟨kept, null, refused⟩ := decoded_whole
  have ordered : members.Ordered := by decide +kernel
  have isMessage : IsMessage members := ⟨⟨"u1", by decide +kernel⟩, some "u2", .named "u2"⟩
  have given : members.get? repliedToName ≠ some .null := by decide +kernel
  have isName : Placeholder.IsName "none" := by decide +kernel
  have ordered' : unreplied.Ordered := by decide +kernel
  have isNull : unreplied.get? repliedToName = some .null := by decide +kernel
  have noObject : ∀ members, Value.arr [] = .obj members → ¬ IsMessage members := nofun
  obtain ⟨m, decoded, whole, fields⟩ := kept members ordered isMessage given
  obtain ⟨field, shows⟩ := fields "none"
  exact ⟨⟨ordered, isMessage, given, isName⟩, ⟨m, decoded, whole, field, shows isName⟩,
    ⟨ordered', isNull⟩, null unreplied ordered' isNull, noObject, (refused _).mpr noObject⟩

end Message

end OperatorScript
