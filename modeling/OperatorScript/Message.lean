import OperatorScript.Json.Printer
import OperatorScript.Text.Escaped

/-!
Messages: what is known about the message that carried a script.

A message has a sender, perhaps an identity that it replies to, and any other fields. As a JSON
value it is one object, in which the sender and the reply have names of their own.
-/

set_option autoImplicit false
set_option relaxedAutoImplicit false

namespace OperatorScript

open Json

structure Message where
  sender : String
  repliedTo : Option String := none
  fields : Record := []
deriving Inhabited

namespace Message

def senderName : String := "senderID"

def repliedToName : String := "detectID"

/-- The field with a name. The sender and the reply hide other fields of their names. -/
def field? (m : Message) (name : String) : Option Value :=
  if name = senderName then some (.str m.sender)
  else if name = repliedToName then m.repliedTo.map .str
  else m.fields.get? name

def withField (m : Message) (name : String) (value : Value) : Message :=
  { m with fields := m.fields.insert name value }

def toRecord (m : Message) : Record :=
  let named := m.fields.insert senderName (.str m.sender)
  match m.repliedTo with
  | some id => named.insert repliedToName (.str id)
  | none => named

def toValue (m : Message) : Value := .obj m.toRecord

/-- The members of the message in the order in which it is written out: the sender, the reply, then
the other fields, even those that share a name with the first two. -/
def members (m : Message) : List (String × Value) :=
  [(senderName, .str m.sender)] ++
    (m.repliedTo.map fun id => (repliedToName, Value.str id)).toList ++ m.fields

def text (m : Message) : String :=
  "\x7b" ++ Text.join "," (Value.compactMembers m.members) ++ "\x7d"

inductive DecodeError where
  | notAnObject (found : Value)
  | notText (found : Value)
  | senderMissing

def describe : Value → String
  | .null => "null"
  | .bool b => "boolean `" ++ toString b ++ "`"
  | .num (.integer i _) => "integer `" ++ toString i ++ "`"
  | .num (.real x _) => "floating point `" ++ realText x ++ "`"
  | .str s => "string " ++ Text.escaped s
  | .arr _ => "sequence"
  | .obj _ => "map"

def DecodeError.message : DecodeError → String
  | .notAnObject found => "invalid type: " ++ describe found ++ ", expected struct Input"
  | .notText found => "invalid type: " ++ describe found ++ ", expected a string"
  | .senderMissing => "missing field `" ++ senderName ++ "`"

/-- Reads the reply of an object; `null` stands for none. -/
def decodeReply (members : Record) : Except DecodeError (Option String) :=
  match members.get? repliedToName with
  | none => .ok none
  | some .null => .ok none
  | some (.str id) => .ok (some id)
  | some found => .error (.notText found)

def decodeSender (members : Record) : Except DecodeError String :=
  match members.get? senderName with
  | none => .error .senderMissing
  | some (.str id) => .ok id
  | some found => .error (.notText found)

def decode (v : Value) : Except DecodeError Message :=
  match v with
  | .obj members =>
    match decodeReply members, decodeSender members with
    | .error e, _ => .error e
    | _, .error e => .error e
    | .ok repliedTo, .ok sender =>
      .ok { sender, repliedTo, fields := (Dict.erase repliedToName members).erase senderName }
  | found => .error (.notAnObject found)

end Message

end OperatorScript
