import OperatorScript.Procedure
import OperatorScript.Text.Offset

/-!
Addresses of databases.

An address is a list of `option=value` pairs between blanks, or a URL. Values may stand between
single quotes; a backslash makes the next character part of the value. Only the form is read here;
nothing is known of the database until it is connected to.
-/

set_option autoImplicit false
set_option relaxedAutoImplicit false

namespace OperatorScript.Database

def options : List String :=
  ["user", "password", "dbname", "options", "application_name", "sslmode", "sslnegotiation",
    "host", "hostaddr", "port", "connect_timeout", "tcp_user_timeout", "keepalives",
    "keepalives_idle", "keepalives_interval", "keepalives_retries", "target_session_attrs",
    "channel_binding", "load_balance_hosts"]

def schemes : List String := ["postgres://", "postgresql://"]

def readBare : List Char → List Char × List Char
  | [] => ([], [])
  | ['\\'] => ([], [])
  | '\\' :: c :: rest =>
    let (value, rest) := readBare rest
    (c :: value, rest)
  | c :: rest =>
    if Text.isBlank c then ([], c :: rest)
    else
      let (value, rest) := readBare rest
      (c :: value, rest)

def readQuoted : List Char → Except String (List Char × List Char)
  | [] => .error "unterminated quoted connection parameter value"
  | ['\\'] => .error "unterminated quoted connection parameter value"
  | '\\' :: c :: rest => (readQuoted rest).map fun (value, rest) => (c :: value, rest)
  | c :: rest =>
    if c = '\'' then .ok ([], rest)
    else (readQuoted rest).map fun (value, rest) => (c :: value, rest)

def readValue (cs : List Char) : Except String (List Char × List Char) :=
  match cs with
  | '\'' :: rest => readQuoted rest
  | cs =>
    let (value, rest) := readBare cs
    if value.isEmpty then .error "unexpected EOF" else .ok (value, rest)

/-- Reads pairs until nothing but blanks is left; `total` is the length of the text in bytes. -/
def readPairs (total : Nat) : Nat → List Char → Except String (List (String × String))
  | 0, _ => .ok []
  | fuel + 1, cs =>
    let cs := cs.dropWhile Text.isBlank
    let isName (c : Char) := !Text.isBlank c && c != '='
    let name := String.ofList (cs.takeWhile isName)
    if name.isEmpty then .ok []
    else
      match (cs.dropWhile isName).dropWhile Text.isBlank with
      | [] => .error "unexpected EOF"
      | c :: rest =>
        if c = '=' then do
          let (value, rest) ← readValue (rest.dropWhile Text.isBlank)
          if options.contains name then
            let more ← readPairs total fuel rest
            .ok ((name, String.ofList value) :: more)
          else .error ("unknown option `" ++ name ++ "`")
        else
          .error ("unexpected character at byte " ++
            toString (total - Text.byteCount (c :: rest)) ++ ": expected `=` but got `" ++
            String.ofList [c] ++ "`")

def checkAddress (address : String) : Except StoreError Unit :=
  if schemes.any fun s => s.toList.isPrefixOf address.toList then .ok ()
  else
    match readPairs address.utf8ByteSize (address.length + 1) address.toList with
    | .ok _ => .ok ()
    | .error reason => .error (.badAddress reason)

/-- Connects to a database, which no server answers. -/
def connect (address : String) : StoreError :=
  match checkAddress address with
  | .error e => e
  | .ok () => .noConnection

end OperatorScript.Database
