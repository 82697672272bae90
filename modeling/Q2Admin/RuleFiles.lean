import Q2Admin.Website

/-! The rules of a frontend on disk: `FetchRules` and `MaterializeRules` of
`frontend/frontend.go`. What is read back is what was written, unless that was nothing. -/

namespace Q2Admin
open Go

/-- What is in the files, by their paths. -/
abbrev Files := Bytes → Option Bytes

/-- `os.ReadFile`. -/
def readFile (files : Files) (path : Bytes) : Except Bytes Bytes :=
  match files path with
  | none => .error (ascii "open " ++ path ++ ascii ": no such file or directory")
  | some contents => .ok contents

/-- The package `prototext` for one kind of message. -/
structure TextFormat (α : Type) where
  /-- `Marshal`, or its error. -/
  marshal : α → Except Bytes Bytes
  /-- `Unmarshal`, or its error. -/
  unmarshal : Bytes → Except Bytes α

namespace TextFormat
variable {α : Type}

/-- Reading inverts writing, and takes no notice of the comments at the top. -/
def Inverts (format : TextFormat α) (header : Bytes) : Prop :=
  ∀ a data, format.marshal a = .ok data → format.unmarshal (header ++ data) = .ok a

/-- A format that knows one message, with its text. -/
def only [DecidableEq α] (header : Bytes) (message : α) (text : Bytes) : TextFormat α where
  marshal a := if a = message then .ok text else .error (ascii "unknown message")
  unmarshal contents := if contents = header ++ text then .ok message else .error (ascii "unknown text")

theorem only_marshal [DecidableEq α] (header : Bytes) (message : α) (text : Bytes) :
    (only header message text).marshal message = .ok text := if_pos rfl

theorem only_inverts [DecidableEq α] (header : Bytes) (message : α) (text : Bytes) :
    (only header message text).Inverts header := by
  intro a data marshalled
  dsimp only [only] at marshalled ⊢
  split at marshalled
  · rename_i known
    have same : text = data := Except.ok.inj marshalled
    rw [← same, if_pos rfl, known]
  · simp at marshalled

end TextFormat

/-- The second half of `MaterializeRules` and of `Materialize`: the text goes into the file
behind the comments at the top. The `reason` is the text of the error of `os.WriteFile`. -/
def writeText (quote : Bytes → Bytes) (files : Files) (filename header : Bytes) (marshalled : Except Bytes Bytes)
    (write : WriteResult) (reason : Bytes) : Files × Option Bytes :=
  match marshalled with
  | .error failure => (files, some (ascii "error marshalling rules: " ++ failure))
  | .ok data => (Function.update files filename (write.left (header ++ data)),
      if write = .done then none
      else some (ascii "error writing rules to " ++ quote filename ++ ascii ": " ++ reason))

/-- Without an error, the text is in the file. -/
theorem writeText_done {quote : Bytes → Bytes} {files : Files} {filename header : Bytes}
    {marshalled : Except Bytes Bytes} {write : WriteResult} {reason : Bytes}
    (written : (writeText quote files filename header marshalled write reason).2 = none) :
    ∃ data, marshalled = .ok data ∧ (writeText quote files filename header marshalled write reason).1 =
      Function.update files filename (some (header ++ data)) := by
  cases marshalled with
  | error failure => simp [writeText] at written
  | ok data =>
    have finished : write = .done := by
      by_contra failed
      simp [writeText, failed] at written
    exact ⟨data, rfl, by rw [finished]; rfl⟩

/-! ## Rules -/

def rulesHeader : Bytes := ascii "# proto-file: proto/serverconfig.proto\n# proto-message: Rules\n\n"

/-- The file with the rules of the frontend that has this directory. -/
def rulesFile (directory : Bytes) : Bytes := pathJoin [directory, ascii "rules.pb"]

/-- `ScopeRules`. -/
def scopeRules (scope : Bytes) (rules : List Rule) : List Rule :=
  if scope = [] then rules else rules.map fun r => { r with scope := scope }

theorem scopeRules_eq_nil {scope : Bytes} {rules : List Rule} : scopeRules scope rules = [] ↔ rules = [] := by
  unfold scopeRules
  split
  · rfl
  · exact List.map_eq_nil_iff

section
variable (format : TextFormat (List Rule)) (quote : Bytes → Bytes) (files : Files) (directory : Bytes)
  (rules : List Rule) (write : WriteResult) (reason : Bytes)

/-- `FetchRules` of the frontend with this directory. -/
def fetchRules : Except Bytes (List Rule) := do
  let contents ← readFile files (rulesFile directory)
  let rules ← format.unmarshal contents
  .ok (scopeRules (ascii "client") rules)

/-- `MaterializeRules` of the frontend with this directory: the files it leaves, and its error. -/
def materializeRules : Files × Option Bytes :=
  if rules = [] then (files, none)
  else writeText quote files (rulesFile directory) rulesHeader (format.marshal rules) write reason

/-- Rules that have been written without an error are read back. -/
def RulesReadBack : Prop :=
  (materializeRules format quote files directory rules write reason).2 = none →
    fetchRules format (materializeRules format quote files directory rules write reason).1 directory =
      .ok (scopeRules (ascii "client") rules)

end

variable {format : TextFormat (List Rule)} {quote : Bytes → Bytes} {files : Files} {directory : Bytes}
  {rules : List Rule} {write : WriteResult} {reason : Bytes}

theorem fetchRules_of_file {contents : Bytes} (stored : files (rulesFile directory) = some contents)
    (read : format.unmarshal contents = .ok rules) :
    fetchRules format files directory = .ok (scopeRules (ascii "client") rules) := by
  simp [fetchRules, readFile, stored, read, Bind.bind, Except.bind]

/-- No rules are read where the file has none. -/
theorem fetchRules_empty_iff : fetchRules format files directory = .ok [] ↔
    ∃ contents, files (rulesFile directory) = some contents ∧ format.unmarshal contents = .ok [] := by
  constructor
  · intro fetched
    cases stored : files (rulesFile directory) with
    | none => simp [fetchRules, readFile, stored, Bind.bind, Except.bind] at fetched
    | some contents =>
      cases read : format.unmarshal contents with
      | error failure => simp [fetchRules, readFile, stored, read, Bind.bind, Except.bind] at fetched
      | ok rules =>
        rw [fetchRules_of_file stored read, Except.ok.injEq, scopeRules_eq_nil] at fetched
        exact ⟨contents, rfl, by rw [read, fetched]⟩
  · rintro ⟨contents, stored, read⟩
    exact fetchRules_of_file stored read

/-- Rules written are rules read, except that an empty list is not written at all: what is
read then is what was in the file before. -/
theorem rules_read_back_iff (inverts : format.Inverts rulesHeader) :
    RulesReadBack format quote files directory rules write reason ↔ rules ≠ [] ∨
      ∃ contents, files (rulesFile directory) = some contents ∧ format.unmarshal contents = .ok [] := by
  by_cases empty : rules = []
  · subst empty
    have nothing : materializeRules format quote files directory [] write reason = (files, none) := if_pos rfl
    rw [RulesReadBack, nothing, scopeRules_eq_nil.mpr (Eq.refl []), fetchRules_empty_iff]
    simp
  · refine iff_of_true (fun written => ?_) (.inl empty)
    rw [materializeRules, if_neg empty] at written ⊢
    obtain ⟨data, marshalled, files_eq⟩ := writeText_done written
    rw [files_eq]
    exact fetchRules_of_file (Function.update_self ..) (inverts rules data marshalled)

/-- A ban, and how it is stored. -/
def subnetBan : Rule where
  uuid := ascii "8f2c71d0"
  type := .ban
  address := [ascii "192.0.2.0/24"]

def subnetBanText : Bytes :=
  ascii "rule: \x7b\n  uuid: \"8f2c71d0\"\n  type: BAN\n  address: \"192.0.2.0/24\"\n\x7d\n"

def subnetFormat : TextFormat (List Rule) := .only rulesHeader [subnetBan] subnetBanText

theorem subnetFormat_inverts : subnetFormat.Inverts rulesHeader :=
  TextFormat.only_inverts rulesHeader [subnetBan] subnetBanText

theorem rules_read_back_ban :
    RulesReadBack subnetFormat id (fun _ => none) (ascii "clients/ffa") [subnetBan] .done [] :=
  (rules_read_back_iff subnetFormat_inverts).mpr (.inl (by simp))

/-- The files when the ban has been written. -/
def banStored : Files :=
  Function.update (fun _ => none) (rulesFile (ascii "clients/ffa")) (some (rulesHeader ++ subnetBanText))

/-- The last rule is deleted, and the ban is still what is read. -/
theorem rules_not_read_back : ¬ RulesReadBack subnetFormat id banStored (ascii "clients/ffa") [] .done [] := by
  intro back
  have unwritten : materializeRules subnetFormat id banStored (ascii "clients/ffa") [] .done [] = (banStored, none) :=
    if_pos rfl
  have read : fetchRules subnetFormat banStored (ascii "clients/ffa") = .ok (scopeRules (ascii "client") [subnetBan]) :=
    fetchRules_of_file (Function.update_self ..) (subnetFormat_inverts _ _ (TextFormat.only_marshal ..))
  have same := back (congrArg Prod.snd unwritten)
  rw [unwritten, read, scopeRules_eq_nil.mpr (Eq.refl []), Except.ok.injEq, scopeRules_eq_nil] at same
  exact absurd same (by simp)

end Q2Admin
