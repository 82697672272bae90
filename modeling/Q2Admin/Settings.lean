import Q2Admin.RuleFiles

/-! The settings of a frontend on disk: `ToProto`, `Materialize` and `LoadSettings` of
`frontend/frontend.go`, and which of the settings come back. -/

namespace Q2Admin
open Go

/-- `message FrontendUser`. -/
structure FrontendUser where
  email : Bytes
  access : Bytes
  deriving DecidableEq

/-- `message Frontend`, as far as it is filled or read. -/
structure SettingsProto extends FrontendProto where
  disabled : Bool := false
  users : List FrontendUser := []
  deriving DecidableEq

/-- `type Frontend` with the users who have access to it. A map is a list in the order in
which the program happens to range over it. -/
structure SharedFrontend extends WebFrontend where
  webUsers : AList fun _ : Bytes => Bool := ∅

def access (write : Bool) : Bytes := if write then ascii "write" else ascii "read"

/-- `ToProto`, which does not fill `Disabled`. -/
def SharedFrontend.toProto (f : SharedFrontend) : SettingsProto :=
  { f.toWebFrontend.toProto with
    users := f.webUsers.entries.map fun entry => { email := entry.1, access := access entry.2 } }

/-- The libraries that write and read settings. -/
structure SettingsLib where
  settings : TextFormat (List SettingsProto)
  rules : TextFormat (List Rule)
  /-- `%q`. -/
  quote : Bytes → Bytes

def settingsHeader : Bytes := ascii "# proto-file: proto/frontend.proto\n# proto-message: Frontends\n\n"

/-- The host and the port of an address. -/
def hostPort (address : Bytes) : Bytes × Int :=
  match split address ':' with
  | [host, port] => (host, (atoi port).getD 27910)
  | tokens => (tokens.headD [], 27910)

def addWebUser (users : AList fun _ : Bytes => Bool) (user : FrontendUser) : AList fun _ : Bytes => Bool :=
  users.insert user.email (user.access = ascii "write")

namespace SettingsLib

/-- `Materialize`: the files it leaves, and its error. -/
def materialize (lib : SettingsLib) (files : Files) (f : SharedFrontend) (write : WriteResult) (reason : Bytes) :
    Files × Option Bytes :=
  writeText lib.quote files (pathJoin [f.path, ascii "settings.pb"]) settingsHeader
    (lib.settings.marshal [f.toProto]) write reason

/-- What `LoadSettings` sets for a message with the name it looks for. -/
def loadMessage (lib : SettingsLib) (files : Files) (name clientsDir : Bytes) (f : SettingsProto)
    (fe : SharedFrontend) : SharedFrontend :=
  let directory := pathJoin [clientsDir, f.name]
  { fe with
    name := f.name
    owner := f.owner
    description := f.description
    uuid := f.uuid
    path := directory
    enabled := !f.disabled
    allowInvite := f.allowInvite
    allowTeleport := f.allowTeleport
    ipAddress := (hostPort f.address).1
    port := (hostPort f.address).2
    webUsers := f.users.foldl addWebUser ∅
    publicKeyData := (files (pathJoin [clientsDir, name, ascii "key"])).getD fe.publicKeyData
    rules := (fetchRules lib.rules files directory).toOption.getD [] }

/-- `LoadSettings`. -/
def loadSettings (lib : SettingsLib) (files : Files) (name clientsDir : Bytes) : Except Bytes SharedFrontend :=
  if name = [] then .error (ascii "error loading settings: blank client name supplied")
  else if clientsDir = [] then .error (ascii "error loading settings: blank client directly supplied")
  else do
    let contents ← readFile files (pathJoin [clientsDir, name, ascii "settings.pb"])
    let fes ← lib.settings.unmarshal contents
    .ok ((fes.filter fun f => f.name = name).foldl (fun fe f => lib.loadMessage files name clientsDir f fe) {})

end SettingsLib

/-! ## What comes back -/

theorem colon_not_mem_decimal (n : Int) : charByte ':' ∉ decimal n := by
  intro member
  have range := toNat_of_mem_decimal member
  rw [show (charByte ':').toNat = 58 from rfl] at range
  omega

/-- An address is taken apart as it was put together if its host has no colon. -/
theorem hostPort_address {host : Bytes} {port : Int} (plain : charByte ':' ∉ host)
    (low : -(2 ^ 63) ≤ port) (high : port < 2 ^ 63) :
    hostPort (host ++ ascii ":" ++ decimal port) = (host, port) := by
  have tokens : split (host ++ ascii ":" ++ decimal port) ':' = [host, decimal port] := by
    have joined : host ++ ascii ":" ++ decimal port = host ++ charByte ':' :: decimal port := by simp [ascii]
    rw [joined, split, List.splitOn_append_cons_self_of_not_mem plain,
      List.splitOn_eq_singleton (colon_not_mem_decimal port)]
  have number : atoi (decimal port) = some port := parseInt_decimal low high
  rw [hostPort, tokens]
  simp [number]

theorem colon_not_mem_hostPort (address : Bytes) : charByte ':' ∉ (hostPort address).1 := by
  have plain (token : Bytes) : token ∈ split address ':' → charByte ':' ∉ token := not_mem_of_mem_split
  rw [hostPort]
  split
  · rename_i host port tokens
    exact plain host (tokens ▸ List.mem_cons_self)
  · cases tokens : split address ':' with
    | nil => simp
    | cons host rest => exact plain host (tokens ▸ List.mem_cons_self)

theorem access_write (write : Bool) : (access write = ascii "write") ↔ write = true := by
  cases write with
  | true => simp [access]
  | false => decide

theorem lookup_addWebUser (users : List (Sigma fun _ : Bytes => Bool)) (distinct : users.NodupKeys)
    (start : AList fun _ : Bytes => Bool) (email : Bytes) :
    ((users.map fun entry => (⟨entry.1, access entry.2⟩ : FrontendUser)).foldl addWebUser start).lookup email =
      (users.dlookup email).or (start.lookup email) := by
  induction users generalizing start with
  | nil => rfl
  | cons entry users ih =>
    obtain ⟨other, write⟩ := entry
    obtain ⟨fresh, distinct⟩ := List.nodupKeys_cons.mp distinct
    rw [List.map_cons, List.foldl_cons, ih distinct]
    have stored : addWebUser start ⟨other, access write⟩ = start.insert other write := by
      simp [addWebUser, access_write]
    rw [stored]
    by_cases same : email = other
    · subst same
      rw [List.dlookup_cons_eq, AList.lookup_insert, List.dlookup_eq_none.mpr fresh]
      rfl
    · rw [List.dlookup_cons_ne _ _ same, AList.lookup_insert_ne same]

/-- The settings of a frontend that its file is for. -/
structure SharedFrontend.SameSettings (f g : SharedFrontend) : Prop where
  name : g.name = f.name
  owner : g.owner = f.owner
  description : g.description = f.description
  uuid : g.uuid = f.uuid
  enabled : g.enabled = f.enabled
  verified : g.verified = f.verified
  allowTeleport : g.allowTeleport = f.allowTeleport
  allowInvite : g.allowInvite = f.allowInvite
  ipAddress : g.ipAddress = f.ipAddress
  port : g.port = f.port
  webUsers : ∀ email, g.webUsers.lookup email = f.webUsers.lookup email

/-- The settings are stored where `LoadSettings` looks for them. -/
def SharedFrontend.PlacedIn (f : SharedFrontend) (clientsDir : Bytes) : Prop :=
  clientsDir ≠ [] ∧ pathJoin [f.path, ascii "settings.pb"] = pathJoin [clientsDir, f.name, ascii "settings.pb"]

section
variable {lib : SettingsLib} {files : Files} {f : SharedFrontend} {clientsDir : Bytes} {write : WriteResult}
  {reason : Bytes}

/-- That is so once the frontend has been given its directory. -/
theorem placedIn_of_joined (named : f.name ≠ []) (directory : clientsDir ≠ [])
    (joined : f.path = pathJoin [clientsDir, f.name]) : f.PlacedIn clientsDir := by
  refine ⟨directory, ?_⟩
  rw [joined, pathJoin_pathJoin directory named (by decide)]

/-- What has been saved is the one message that is loaded. -/
theorem loadSettings_saved (inverts : lib.settings.Inverts settingsHeader) (named : f.name ≠ [])
    (placed : f.PlacedIn clientsDir) (saved : (lib.materialize files f write reason).2 = none) :
    lib.loadSettings (lib.materialize files f write reason).1 f.name clientsDir =
      .ok (lib.loadMessage (lib.materialize files f write reason).1 f.name clientsDir f.toProto {}) := by
  obtain ⟨data, marshalled, files_eq⟩ := writeText_done saved
  obtain ⟨directory, file⟩ := placed
  have stored : (lib.materialize files f write reason).1 (pathJoin [clientsDir, f.name, ascii "settings.pb"]) =
      some (settingsHeader ++ data) := by
    rw [SettingsLib.materialize, files_eq, file, Function.update_self]
  have only_one : [f.toProto].filter (fun g => g.name = f.name) = [f.toProto] := by
    simp [SharedFrontend.toProto, WebFrontend.toProto]
  simp only [SettingsLib.loadSettings, if_neg named, if_neg directory, readFile, stored, Bind.bind, Except.bind,
    inverts _ data marshalled, only_one, List.foldl_cons, List.foldl_nil]

theorem loadMessage_webUsers (name : Bytes) (fe : SharedFrontend) (email : Bytes) :
    (lib.loadMessage files name clientsDir f.toProto fe).webUsers.lookup email = f.webUsers.lookup email := by
  have users := lookup_addWebUser f.webUsers.entries f.webUsers.nodupKeys ∅ email
  rw [AList.lookup_empty, Option.or_none] at users
  exact users

/-- Elsewhere nothing has been stored, and nothing is loaded. -/
theorem loadSettings_misplaced (misplaced : ¬ f.PlacedIn clientsDir) (g : SharedFrontend) :
    lib.loadSettings (lib.materialize (fun _ => none) f .done reason).1 f.name clientsDir ≠ .ok g := by
  intro loaded
  unfold SettingsLib.loadSettings at loaded
  split at loaded
  · cases loaded
  split at loaded
  · cases loaded
  next directory =>
    have apart : pathJoin [clientsDir, f.name, ascii "settings.pb"] ≠ pathJoin [f.path, ascii "settings.pb"] :=
      fun same => misplaced ⟨directory, same.symm⟩
    have absent : (lib.materialize (fun _ => none) f .done reason).1
        (pathJoin [clientsDir, f.name, ascii "settings.pb"]) = none := by
      unfold SettingsLib.materialize writeText
      split
      · rfl
      · exact Function.update_of_ne apart _ fun _ => none
    simp [readFile, absent, Bind.bind, Except.bind] at loaded

/-- The settings of a frontend survive being saved and loaded exactly if they are stored where
they are looked for, and it is enabled, not verified, and its host has no colon. -/
theorem settings_survive_iff (inverts : lib.settings.Inverts settingsHeader) (named : f.name ≠ [])
    (low : -(2 ^ 63) ≤ f.port) (high : f.port < 2 ^ 63)
    (marshals : ∃ data, lib.settings.marshal [f.toProto] = .ok data) :
    (∀ files write reason, (lib.materialize files f write reason).2 = none →
      ∃ g, lib.loadSettings (lib.materialize files f write reason).1 f.name clientsDir = .ok g ∧ f.SameSettings g) ↔
      f.PlacedIn clientsDir ∧ f.enabled = true ∧ f.verified = false ∧ charByte ':' ∉ f.ipAddress := by
  have address : f.toProto.address = f.ipAddress ++ ascii ":" ++ decimal f.port := rfl
  constructor
  · intro survive
    have saved : (lib.materialize (fun _ => none) f .done []).2 = none := by
      obtain ⟨data, marshalled⟩ := marshals
      rw [SettingsLib.materialize, marshalled]
      rfl
    obtain ⟨g, loaded, same⟩ := survive _ _ _ saved
    have placed : f.PlacedIn clientsDir := by
      by_contra misplaced
      exact loadSettings_misplaced misplaced g loaded
    rw [loadSettings_saved inverts named placed saved] at loaded
    rw [← Except.ok.inj loaded] at same
    refine ⟨placed, same.enabled.symm, same.verified.symm, ?_⟩
    rw [← same.ipAddress]
    exact colon_not_mem_hostPort f.toProto.address
  · rintro ⟨placed, enabled, verified, plain⟩ files write reason saved
    have back := hostPort_address plain low high
    rw [← address] at back
    exact ⟨_, loadSettings_saved inverts named placed saved, rfl, rfl, rfl, rfl, enabled.symm, verified.symm, rfl, rfl,
      congrArg Prod.fst back, congrArg Prod.snd back, loadMessage_webUsers _ _⟩

end

/-- A server at a DNS name, with a user who may only look. -/
def fragSettings : SharedFrontend where
  name := ascii "frag"
  owner := ascii "claire@q2"
  uuid := ascii "a1"
  path := ascii "clients/frag"
  enabled := true
  ipAddress := ascii "frag.gr"
  port := 27999
  webUsers := AList.insert (ascii "ann@q2") false ∅

def fragText : Bytes := ascii <|
  "frontend: \x7b\n  uuid: \"a1\"\n  name: \"frag\"\n  owner: \"claire@q2\"\n  address: \"frag.gr:27999\"\n" ++
  "  users: \x7b\n    email: \"ann@q2\"\n    access: \"read\"\n  \x7d\n\x7d\n"

def fragLib : SettingsLib where
  settings := .only settingsHeader [fragSettings.toProto] fragText
  rules := .only rulesHeader [subnetBan] subnetBanText
  quote := id

theorem fragLib_inverts : fragLib.settings.Inverts settingsHeader :=
  TextFormat.only_inverts settingsHeader [fragSettings.toProto] fragText

theorem fragLib_marshals : fragLib.settings.marshal [fragSettings.toProto] = .ok fragText := TextFormat.only_marshal ..

theorem fragSettings_placed (enabled : Bool) : ({ fragSettings with enabled } : SharedFrontend).PlacedIn (ascii "clients") :=
  placedIn_of_joined (show ascii "frag" ≠ [] by decide) (by decide)
    (show ascii "clients/frag" = pathJoin [ascii "clients", ascii "frag"] by decide +kernel)

theorem fragSettings_saved : (fragLib.materialize (fun _ => none) fragSettings .done []).2 = none := by
  rw [SettingsLib.materialize, fragLib_marshals]
  rfl

theorem settings_survive_frag : ∃ g,
    fragLib.loadSettings (fragLib.materialize (fun _ => none) fragSettings .done []).1 (ascii "frag") (ascii "clients") =
      .ok g ∧ fragSettings.SameSettings g :=
  (settings_survive_iff fragLib_inverts (by decide) (by decide) (by decide) ⟨_, fragLib_marshals⟩).mpr
    ⟨fragSettings_placed true, by decide⟩ _ _ _ fragSettings_saved

/-- The same server disabled: it is saved as the same text, and comes back enabled. -/
theorem settings_not_survive : ¬ ∃ g,
    fragLib.loadSettings (fragLib.materialize (fun _ => none) { fragSettings with enabled := false } .done []).1
      (ascii "frag") (ascii "clients") = .ok g ∧ ({ fragSettings with enabled := false }).SameSettings g := by
  rintro ⟨g, loaded, same⟩
  have enabled := loadSettings_saved (f := { fragSettings with enabled := false }) fragLib_inverts (by decide)
    (fragSettings_placed false) fragSettings_saved
  rw [← Except.ok.inj (enabled.symm.trans loaded)] at same
  exact absurd same.enabled (by decide)

end Q2Admin
