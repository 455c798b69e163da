import OperatorScript.Proofs.Segments
import OperatorScript.Shell.Session

/-!
The layers of the settings with which the program starts.

The file `.env` adds variables to the environment, and sets none anew; a variable may name a file of
settings; and further variables lie over that file. The address of the database and the flag for
links replace those of the file, and the lists of identities extend those of the file. The main
statement: when the settings cannot be loaded, what they are otherwise, and who holds which rank at
the start.
-/

set_option autoImplicit false
set_option relaxedAutoImplicit false

namespace OperatorScript

namespace Environment

namespace Loading

variable {l : Loading}

/-- The variables that lines assign, in order, up to the first malformed line. -/
inductive Assigns : Loading → List Line → List (String × String) → Prop
  | nil (l : Loading) : Assigns l [] []
  | malformed {l : Loading} {line : Line} (read : l.readLine line = none) (rest : List Line) :
      Assigns l (line :: rest) []
  | passed {l : Loading} {line : Line} {rest : List Line} {assigned : List (String × String)}
      (read : l.readLine line = some l) (later : l.Assigns rest assigned) :
      Assigns l (line :: rest) assigned
  | assigned {l : Loading} {line : Line} {rest : List Line} {assigned : List (String × String)}
      {name value : String} (read : l.readLine line = some (l.assign name value))
      (later : (l.assign name value).Assigns rest assigned) :
      Assigns l (line :: rest) ((name, value) :: assigned)

private theorem readLine_cases {l' : Loading} {line : Line} (read : l.readLine line = some l') :
    l' = l ∨ ∃ name value, l' = l.assign name value := by
  cases line with
  | cutShort => cases read
  | whole text =>
    unfold readLine at read
    dsimp only at read
    split at read
    · exact .inl (Option.some.inj read).symm
    · exact .inl (Option.some.inj read).symm
    · obtain ⟨⟨name, rest⟩, -, read⟩ := Option.bind_eq_some_iff.mp read
      dsimp only at read
      split at read
      · exact .inr ⟨name, "", (Option.some.inj read).symm⟩
      · exact .inr ⟨name, "", (Option.some.inj read).symm⟩
      · obtain ⟨value, -, read⟩ := Option.bind_eq_some_iff.mp read
        exact .inr ⟨name, String.ofList value, (Option.some.inj read).symm⟩

private theorem exists_assigns (lines : List Line) (l : Loading) :
    ∃ assigned, l.Assigns lines assigned := by
  induction lines generalizing l with
  | nil => exact ⟨[], .nil l⟩
  | cons line rest ih =>
    cases read : l.readLine line with
    | none => exact ⟨[], .malformed read rest⟩
    | some l' =>
      obtain ⟨assigned, later⟩ := ih l'
      rcases readLine_cases read with rfl | ⟨name, value, rfl⟩
      · exact ⟨assigned, .passed read later⟩
      · exact ⟨(name, value) :: assigned, .assigned read later⟩

private theorem get?_assign (l : Loading) (name value other : String) :
    (l.assign name value).current.get? other =
      (l.current.get? other).or (if other = name then some value else none) := by
  unfold assign
  by_cases set : l.current.contains name = true
  · obtain ⟨old, found⟩ := Option.isSome_iff_exists.mp set
    simp only [set, if_true]
    by_cases same : other = name
    · simp [same, found]
    · simp [same]
  · have unset : l.current.get? name = none := by simpa [Dict.contains] using set
    simp only [set, Bool.false_eq_true, if_false]
    rw [Dict.get?_insert]
    by_cases same : other = name
    · simp [same, unset]
    · simp [same]

private theorem Assigns.get?_readLines {lines : List Line} {assigned : List (String × String)}
    (assigns : l.Assigns lines assigned) (name : String) :
    (readLines lines l).current.get? name = (l.current.get? name).or (assigned.lookup name) := by
  induction assigns with
  | nil l => simp [readLines]
  | malformed read rest => simp [readLines, read]
  | passed read later ih => simpa [readLines, read] using ih
  | @assigned l line rest assigned other value read later ih =>
    simp only [readLines, read, ih, get?_assign, Option.or_assoc]
    congr 1
    by_cases same : name = other
    · simp [same]
    · have other : (name == other) = false := by simpa using same
      simp [same, List.lookup_cons, other]

end Loading

def unmarked (text : String) : String :=
  match text.toList with
  | '\ufeff' :: cs => String.ofList cs
  | _ => text

/-- The variables that a file assigns in an environment, in order. -/
def Assigns (env : Environment) (text : String) (assigned : List (String × String)) : Prop :=
  Loading.Assigns { current := env } (lines (unmarked text)) assigned

private theorem exists_assigns_extend (env : Environment) (text : String) :
    ∃ assigned, env.Assigns text assigned ∧
      ∀ name, (env.extend text).get? name = (env.get? name).or (assigned.lookup name) := by
  obtain ⟨assigned, assigns⟩ :=
    Loading.exists_assigns (lines (unmarked text)) { current := env }
  exact ⟨assigned, assigns, assigns.get?_readLines⟩

end Environment

namespace Settings

/-- A variable spells a flag: without the blanks around it, it is a word for the flag, in any case
of its letters. -/
inductive SpellsFlag : String → Bool → Prop
  | on {value core : String} (trims : Text.Trims value core) (word : Text.lower core ∈ onWords) :
      SpellsFlag value true
  | off {value core : String} (trims : Text.Trims value core) (word : Text.lower core ∈ offWords) :
      SpellsFlag value false

/-- An identity stands in a list: it is an item between commas without the blanks around it, and not
empty. -/
structure StandsInList (list id : String) : Prop where
  filled : id ≠ ""
  item : ∃ segments, Text.Segments ',' list segments ∧ ∃ item ∈ segments, Text.Trims item id

private theorem flag_eq_ok_iff {name value : String} {b : Bool} :
    flag name value = .ok b ↔ SpellsFlag value b := by
  have apart : ∀ word ∈ offWords, word ∉ onWords := by decide
  constructor
  · intro read
    unfold flag at read
    dsimp only at read
    split at read
    · next word =>
      cases read
      exact .on (Text.trims_iff.mpr rfl) (by simpa using word)
    · split at read
      · next word =>
        cases read
        exact .off (Text.trims_iff.mpr rfl) (by simpa using word)
      · cases read
  · intro spells
    cases spells with
    | on trims word =>
      obtain rfl := Text.trims_iff.mp trims
      simp [flag, word]
    | off trims word =>
      obtain rfl := Text.trims_iff.mp trims
      simp [flag, word, apart _ word]

private theorem exists_flag_eq_error_iff (name : String) {value : String} :
    (∃ e, flag name value = .error e) ↔ ∀ b, ¬ SpellsFlag value b := by
  constructor
  · rintro ⟨e, refused⟩ b spells
    rw [flag_eq_ok_iff.mpr spells] at refused
    cases refused
  · intro none
    cases read : flag name value with
    | error e => exact ⟨e, rfl⟩
    | ok b => exact (none b (flag_eq_ok_iff.mp read)).elim

private theorem mem_identities_iff {list id : String} :
    id ∈ identities list ↔ StandsInList list id := by
  simp only [identities, List.mem_filter, List.mem_map]
  constructor
  · rintro ⟨⟨item, stretch, rfl⟩, filled⟩
    refine ⟨by simpa using filled, _, Text.segments_iff.mpr rfl, String.ofList item, ?_, ?_⟩
    · exact List.mem_map_of_mem stretch
    · rw [Text.trims_iff, Text.trim, String.toList_ofList]
  · rintro ⟨filled, segments, cut, item, member, trims⟩
    obtain rfl := Text.trims_iff.mp trims
    rw [Text.segments_iff.mp cut] at member
    obtain ⟨stretch, inside, rfl⟩ := List.mem_map.mp member
    refine ⟨⟨stretch, inside, ?_⟩, by simpa using filled⟩
    rw [Text.trim, String.toList_ofList]

def roles (s : Settings) : Roles := .ofLists s.admins s.moderators

def listed (s : Settings) : Rank → List String
  | .admin => s.admins
  | .moderator => s.moderators

def listVariable : Rank → String
  | .admin => adminsVariable
  | .moderator => moderatorsVariable

private theorem holds_roles_iff {s : Settings} {rank : Rank} {id : String} :
    s.roles.holds rank id = true ↔ id ∈ s.listed rank := by
  cases rank <;> simp [roles, Roles.holds, Roles.holders, Roles.ofLists, listed,
    Dict.contains_ofEntries_iff]

/-- The settings that lie under the variables: those of the file that the environment names, or the
usual ones if it names none. -/
inductive Underlie (read : FileReader) (env : Environment) : Settings → Prop
  | usual (unset : env.get? fileVariable = none) : Underlie read env {}
  | file {path text : String} {settings : Settings} (set : env.get? fileVariable = some path)
      (found : read path = .ok text) (parsed : ofText? text = some settings) :
      Underlie read env settings

def NamesBadFile (read : FileReader) (env : Environment) : Prop :=
  ∃ path, env.get? fileVariable = some path ∧
    ((∃ reason, read path = .error reason) ∨ ∃ text, read path = .ok text ∧ ofText? text = none)

def HasBadFlag (env : Environment) : Prop :=
  ∃ value, env.get? linksVariable = some value ∧ ∀ b, ¬ SpellsFlag value b

/-- Settings are those of a file with the variables of an environment on top. -/
structure Layered (env : Environment) (file settings : Settings) : Prop where
  address : ∀ url, env.get? databaseVariable = some url → settings.databaseUrl = some url
  fileAddress : env.get? databaseVariable = none → settings.databaseUrl = file.databaseUrl
  flag : ∀ value, env.get? linksVariable = some value →
    SpellsFlag value settings.ignoreAdminLinks
  fileFlag : env.get? linksVariable = none → settings.ignoreAdminLinks = file.ignoreAdminLinks
  holds : ∀ rank id, settings.roles.holds rank id = true ↔
    id ∈ file.listed rank ∨
      ∃ list, env.get? (listVariable rank) = some list ∧ StandsInList list id

variable {read : FileReader} {env : Environment} {base settings : Settings}

def withVariables (base : Settings) (env : Environment) (b : Bool) : Settings :=
  { base with
    databaseUrl := (env.get? databaseVariable).or base.databaseUrl
    admins := base.admins ++ ((env.get? adminsVariable).map identities).getD []
    moderators := base.moderators ++ ((env.get? moderatorsVariable).map identities).getD []
    ignoreAdminLinks := b }

private theorem overlay_of_unset (unset : env.get? linksVariable = none) :
    overlay env base = .ok (base.withVariables env base.ignoreAdminLinks) := by
  simp only [overlay, unset]
  rfl

private theorem overlay_of_set {value : String} (set : env.get? linksVariable = some value) :
    overlay env base = (flag linksVariable value).map (base.withVariables env) := by
  simp only [overlay, set]
  cases flag linksVariable value <;> rfl

private theorem listed_withVariables (base : Settings) (env : Environment) (b : Bool)
    (rank : Rank) :
    (base.withVariables env b).listed rank =
      base.listed rank ++ ((env.get? (listVariable rank)).map identities).getD [] := by
  cases rank <;> rfl

private theorem holds_withVariables_iff (base : Settings) (env : Environment) (b : Bool)
    (rank : Rank) (id : String) :
    (base.withVariables env b).roles.holds rank id = true ↔
      id ∈ base.listed rank ∨
        ∃ list, env.get? (listVariable rank) = some list ∧ StandsInList list id := by
  rw [holds_roles_iff, listed_withVariables, List.mem_append]
  refine or_congr_right ?_
  cases env.get? (listVariable rank) with
  | none => simp
  | some list => simp [mem_identities_iff]

private theorem layered_withVariables {b : Bool}
    (set : ∀ value, env.get? linksVariable = some value → SpellsFlag value b)
    (unset : env.get? linksVariable = none → b = base.ignoreAdminLinks) :
    Layered env base (base.withVariables env b) where
  address url given := by simp [withVariables, given]
  fileAddress given := by simp [withVariables, given]
  flag := set
  fileFlag := unset
  holds := holds_withVariables_iff base env b

private theorem layered_of_overlay (loaded : overlay env base = .ok settings) :
    Layered env base settings := by
  cases given : env.get? linksVariable with
  | none =>
    rw [overlay_of_unset given] at loaded
    cases loaded
    exact layered_withVariables (by simp [given]) fun _ => rfl
  | some value =>
    rw [overlay_of_set given] at loaded
    cases read : flag linksVariable value with
    | error e =>
      rw [read] at loaded
      cases loaded
    | ok b =>
      rw [read] at loaded
      cases loaded
      refine layered_withVariables (fun other same => ?_) (by simp [given])
      obtain rfl : value = other := Option.some.inj (given.symm.trans same)
      exact flag_eq_ok_iff.mp read

private theorem exists_overlay_eq_error_iff :
    (∃ e, overlay env base = .error e) ↔ HasBadFlag env := by
  cases given : env.get? linksVariable with
  | none =>
    rw [overlay_of_unset given]
    simp [HasBadFlag, given]
  | some value =>
    have none : HasBadFlag env ↔ ∀ b, ¬ SpellsFlag value b := by simp [HasBadFlag, given]
    rw [overlay_of_set given, none, ← exists_flag_eq_error_iff linksVariable]
    cases flag linksVariable value <;> simp [Except.map]

private theorem load_eq_ok_iff {path : String} :
    load read path = .ok settings ↔
      ∃ text, read path = .ok text ∧ ofText? text = some settings := by
  unfold load
  cases read path with
  | error reason => simp
  | ok text => cases parsed : ofText? text <;> simp [parsed]

private theorem exists_load_eq_error_iff {path : String} :
    (∃ e, load read path = .error e) ↔
      (∃ reason, read path = .error reason) ∨
        ∃ text, read path = .ok text ∧ ofText? text = none := by
  unfold load
  cases read path with
  | error reason => simp
  | ok text => cases parsed : ofText? text <;> simp [parsed]

def underlying (read : FileReader) (env : Environment) : Except LoadError Settings :=
  match env.get? fileVariable with
  | some path => load read path
  | none => .ok {}

private theorem ofEnvironment_eq (read : FileReader) (env : Environment) :
    ofEnvironment read env =
      (underlying read (extendedBy read env)).bind (overlay (extendedBy read env)) := by
  simp only [ofEnvironment, underlying]
  cases (extendedBy read env).get? fileVariable <;> rfl

private theorem underlie_iff : Underlie read env base ↔ underlying read env = .ok base := by
  unfold underlying
  constructor
  · intro underlie
    cases underlie with
    | usual unset => rw [unset]
    | file set found parsed =>
      rw [set]
      exact load_eq_ok_iff.mpr ⟨_, found, parsed⟩
  · intro found
    split at found
    · next path set =>
      obtain ⟨text, file, parsed⟩ := load_eq_ok_iff.mp found
      exact .file set file parsed
    · next unset =>
      cases found
      exact .usual unset

private theorem exists_underlying_eq_error_iff :
    (∃ e, underlying read env = .error e) ↔ NamesBadFile read env := by
  unfold underlying NamesBadFile
  cases env.get? fileVariable with
  | none => simp
  | some path => simp [exists_load_eq_error_iff]

private theorem exists_ofEnvironment_eq_error_iff :
    (∃ e, ofEnvironment read env = .error e) ↔
      NamesBadFile read (extendedBy read env) ∨ HasBadFlag (extendedBy read env) := by
  rw [ofEnvironment_eq, ← exists_underlying_eq_error_iff]
  cases found : underlying read (extendedBy read env) with
  | error e => simp [Except.bind]
  | ok base => simp [Except.bind, exists_overlay_eq_error_iff]

private theorem layered_of_ofEnvironment (loaded : ofEnvironment read env = .ok settings) :
    ∃ file, underlying read (extendedBy read env) = .ok file ∧
      Layered (extendedBy read env) file settings := by
  rw [ofEnvironment_eq] at loaded
  cases found : underlying read (extendedBy read env) with
  | error e =>
    rw [found] at loaded
    cases loaded
  | ok base =>
    rw [found] at loaded
    exact ⟨base, rfl, layered_of_overlay loaded⟩

end Settings

private theorem Shell.Session.settings_of_start {read : FileReader} {env : Environment}
    {o : Shell.Options}
    {session : Shell.Session} (started : Shell.Session.start read env o = .ok session) :
    Shell.settingsFor read env o = .ok session.interpreter.settings ∧
      session.state.world.roles = session.interpreter.settings.roles := by
  unfold Shell.Session.start at started
  split at started
  · cases started
  · split at started
    · cases started
    · next settings loaded =>
      split at started
      · cases started
      · split at started
        · cases started
        · cases started
          exact ⟨loaded, rfl⟩

namespace Settings

/-- The layers of the settings at the start. The environment is that of the process, extended by the
variables that `.env` assigns and that are not set. Loading fails just if it names a file of
settings that cannot be read or parsed, or sets the flag to no word for it. Otherwise the variables
lie over the settings of the file: the address of the database and the flag replace those of the
file, and an identity holds a rank if the file lists it or if it is an item of the variable for the
rank. So such a variable gives no rank to the empty identity, and takes none that the file gives;
and these are the roles with which a session starts. -/
theorem layered_over_file (read : FileReader) (env : Environment) :
    let full := extendedBy read env
    (∃ assigned,
      ((∃ reason, read ".env" = .error reason) ∧ assigned = [] ∨
        ∃ text, read ".env" = .ok text ∧ env.Assigns text assigned) ∧
      ∀ name, full.get? name = (env.get? name).or (assigned.lookup name)) ∧
    ((∃ e, ofEnvironment read env = .error e) ↔ NamesBadFile read full ∨ HasBadFlag full) ∧
    ∀ settings, ofEnvironment read env = .ok settings →
      (∃ file, (∀ other, Underlie read full other ↔ other = file) ∧
        Layered full file settings ∧
        ∀ rank, (settings.roles.holds rank "" = true → "" ∈ file.listed rank) ∧
          ∀ id ∈ file.listed rank, settings.roles.holds rank id = true) ∧
      ∀ (o : Shell.Options) (session : Shell.Session), o.settingsFile = none →
        Shell.Session.start read env o = .ok session →
          session.interpreter.settings = settings ∧ session.state.world.roles = settings.roles := by
  intro full
  refine ⟨?_, exists_ofEnvironment_eq_error_iff, fun settings loaded => ⟨?_, ?_⟩⟩
  · cases found : read ".env" with
    | error reason =>
      have same : full = env := by simp only [full, extendedBy, found]
      exact ⟨[], .inl ⟨⟨reason, rfl⟩, rfl⟩, by simp [same]⟩
    | ok text =>
      have extended : full = env.extend text := by simp only [full, extendedBy, found]
      obtain ⟨assigned, assigns, lookup⟩ := env.exists_assigns_extend text
      exact ⟨assigned, .inr ⟨text, rfl, assigns⟩, extended ▸ lookup⟩
  · obtain ⟨file, found, layered⟩ := layered_of_ofEnvironment loaded
    refine ⟨file, fun other => ?_, layered, fun rank => ⟨fun empty => ?_, fun id member => ?_⟩⟩
    · rw [underlie_iff, found, Except.ok.injEq, eq_comm]
    · refine ((layered.holds rank "").mp empty).resolve_right ?_
      rintro ⟨_, -, stands⟩
      exact stands.filled rfl
    · exact (layered.holds rank id).mpr (.inl member)
  · intro o session unnamed started
    obtain ⟨asked, roles⟩ := Shell.Session.settings_of_start started
    have same : session.interpreter.settings = settings := by
      rw [Shell.settingsFor, unnamed] at asked
      exact Except.ok.inj (asked.symm.trans loaded)
    exact ⟨same, same ▸ roles⟩

theorem layered_over_file_of_named_file :
    let files : Files :=
      [(".env", "NEAX_CONFIG=ops.toml\nNEAX_ADMINS=' 7, ,8 '\nNEAX_IGNORE_ADMIN_LINKS=on\n"),
        ("ops.toml", "admins = ['1', ' 2']\nignore_admin_links = true\n")]
    let env : Environment := [("NEAX_IGNORE_ADMIN_LINKS", " oFF\t")]
    let file : Settings := { admins := ["1", " 2"], ignoreAdminLinks := true }
    let settings : Settings := { admins := ["1", " 2", "7", "8"] }
    ofEnvironment files.read env = .ok settings ∧
      (∃ session, Shell.Session.start files.read env {} = .ok session ∧
        session.interpreter.settings = settings ∧ session.state.world.roles = settings.roles) ∧
      Layered (extendedBy files.read env) file settings ∧
      settings.roles.holds .admin "" = false ∧ settings.roles.holds .admin " 2" = true := by
  intro files env file settings
  have loaded : ofEnvironment files.read env = .ok settings := by decide +kernel
  obtain ⟨session, started⟩ :
      ∃ session, Shell.Session.start files.read env {} = .ok session := by
    have starts : (Shell.Session.start files.read env {}).toBool = true := by decide +kernel
    cases started : Shell.Session.start files.read env {} with
    | error e =>
      rw [started] at starts
      cases starts
    | ok session => exact ⟨session, rfl⟩
  obtain ⟨-, -, layers⟩ := layered_over_file files.read env
  obtain ⟨⟨under, underlie, layered, lists⟩, sessions⟩ := layers settings loaded
  obtain rfl : file = under := (underlie _).mp (underlie_iff.mpr (by decide +kernel))
  have unlisted : "" ∉ file.listed .admin := by decide
  have listed : " 2" ∈ file.listed .admin := by decide
  exact ⟨loaded, ⟨session, started, sessions {} session rfl started⟩, layered,
    Bool.eq_false_iff.mpr fun empty => unlisted ((lists .admin).1 empty),
    (lists .admin).2 " 2" listed⟩

end Settings

end OperatorScript
