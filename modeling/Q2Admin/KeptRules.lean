import Q2Admin.Consoles
import Q2Admin.Shutdown

/-! The rules of the servers over a run of the whole program, in memory and in their files. They
get there through the wizard only, and the file of a server that has greeted has what is in memory,
unless there is nothing left to be written. -/

namespace Q2Admin
open Go Lib

/-! ## Who writes rules -/

/-- What holds of a server's name and rules and of the files is kept, if what is stored keeps it. -/
theorem Does.keeps {stores : Shared → Shared → Prop} {a b : Shared} {i : Nat}
    (holds : Bytes × List Rule → Files → Prop)
    (stored : ∀ a b, stores a b → holds (a.1.fe i).filed a.2 → holds (b.1.fe i).filed b.2)
    (does : Does stores a b) (start : holds (a.1.fe i).filed a.2) : holds (b.1.fe i).filed b.2 := by
  induction does with
  | same frontends =>
    rw [World.fe, frontends]
    exact start
  | @queue w files j f queues =>
    have kept : ((w.update j f).fe i).filed = (w.fe i).filed := by
      apply World.fe_update_field w j i Frontend.filed
      intro fe
      rw [queues.only fe]
      rfl
    exact kept.symm ▸ start
  | @send w w' files rests told =>
    have kept : (w'.fe i).filed = (w.fe i).filed := by
      have same : (w'.fe i).atRest = (w.fe i).atRest := World.field_of_map rests i
      have filed := congrArg Frontend.filed same
      exact filed
    exact kept.symm ▸ start
  | store store => exact stored _ _ store start
  | trans _ _ first second => exact second (first start)

namespace Process
variable {pf : Platform} {p : Process} {i slot session : Nat}

theorem setRecord_filed (pl : Player) (j : Nat) :
    ((p.setRecord i slot session pl).world.fe j).filed = (p.world.fe j).filed := by
  unfold setRecord
  split
  · exact World.fe_update_field p.world i j Frontend.filed fun _ => rfl
  · rfl

theorem applyDue_filed (clock : Nat → Time × Int) : Yields (p.applyDue pf i slot session clock)
    (fun p' => ∀ j, (p'.world.fe j).filed = (p.world.fe j).filed) fun _ => True := by
  unfold applyDue
  simp only []
  split
  · trivial
  split
  · exact setRecord_filed _
  · let rules := (checkEach pf.rules (checksOf clock (p.world.ruleset i)) (p.record i slot session)).1
    let checked := (checkEach pf.rules (checksOf clock (p.world.ruleset i)) (p.record i slot session)).2
    have told : p.world.WorksBy Player.Touch True i (p.world.update i fun _ =>
        (applyRules pf.q2 rules ({ checked with rules := rules }, p.world.fe i)).2) :=
      applyRules_works rules { checked with rules := rules }
    apply Yields.bind (sendMessages_working pf i _)
    intro w sent works j
    have sends : World.WorksBy Player.Touch True i _ w := works
    exact (sends.filed j).trans ((setRecord_filed _ j).trans (told.filed j))

/-- Reads, goroutines and the maintenance leave the names and the rules of all servers alone. -/
theorem step_filed (e : ProcessEvent) : Yields (p.step pf e)
    (fun p' => ∀ j, (p'.world.fe j).filed = (p.world.fe j).filed) fun _ => True := by
  cases e with
  | read e =>
    cases stepped : p.server.step pf e with
    | error fault =>
      simp only [step, read, stepped, Bind.bind, Except.bind]
      trivial
    | ok s =>
      simp only [step, read, stepped, Bind.bind, Except.bind]
      exact Server.step_filed stepped
  | proceed k answer clock map =>
    simp only [step, proceed]
    cases p.due[k]? with
    | none => exact fun _ => rfl
    | some task =>
      cases task with
      | lookup i slot session => exact setRecord_filed _
      | rules i slot session => exact applyDue_filed (p := { p with due := p.due.eraseIdx k }) clock
      | changeMap i =>
        intro j
        apply World.fe_update_field p.world i j Frontend.filed
        intro fe
        rw [(Queues.consoleCommand pf.q2 _).only fe]
        rfl
  | maintain i clock vars =>
    apply Yields.bind (maintainFrontend_works clock vars p.world)
    exact fun _ _ works => works.filed

end Process

namespace Program
variable {lib : SSHLib} {site : SSHSite} {p p' : Program} {e : ProgramEvent} {i : Nat}

/-- The wizard of a session that is with the server is done with a rule. -/
def Enters (p : Program) (i : Nat) (r : Rule) (e : ProgramEvent) : Prop :=
  ∃ k input results s, e = .console k (.line input results) ∧ p.console k = some s ∧ s.fe = some i ∧
    s.Enters input results r

/-- Only what is stored counts. -/
theorem step_keeps (holds : Bytes × List Rule → Files → Prop)
    (stored : ∀ a b, p.Stores lib site e a b → holds (a.1.fe i).filed a.2 → holds (b.1.fe i).filed b.2)
    (stepped : p.step lib site e = .ok p') (start : holds (p.process.world.fe i).filed p.files) :
    holds (p'.process.world.fe i).filed p'.files := by
  cases e with
  | process e =>
    have kept : Yields (p.step lib site (.process e)) (fun p' => p'.files = p.files ∧
        ∀ j, (p'.process.world.fe j).filed = (p.process.world.fe j).filed) fun _ => True := by
      apply Yields.bind (Process.step_filed e)
      exact fun _ _ same => ⟨rfl, same⟩
    obtain ⟨files, filed⟩ := kept.of_ok stepped
    rw [files, filed]
    exact start
  | login user =>
    cases Except.ok.inj stepped
    exact start
  | console k e =>
    obtain ⟨-, does⟩ := (console_does lib site p k e).of_ok stepped
    exact does.keeps holds stored start

/-- Nobody is renamed. -/
theorem step_name (stepped : p.step lib site e = .ok p') (i : Nat) :
    (p'.process.world.fe i).name = (p.process.world.fe i).name := by
  apply step_keeps (fun filed _ => filed.1 = (p.process.world.fe i).name) _ stepped rfl
  intro a b stored same
  obtain ⟨k, input, results, s, -, -, j, rules, -, -, rfl⟩ := stored
  have kept := World.fe_update_field a.1 j i (f := fun fe => { fe with rules := rules }) (fun fe => fe.name) fun _ => rfl
  exact kept.trans same

theorem step_entered {r : Rule} (stepped : p.step lib site e = .ok p') (bare : r ∉ (p.process.world.fe i).rules)
    (there : r ∈ (p'.process.world.fe i).rules) : p.Enters i r e := by
  let accounted (filed : Bytes × List Rule) (_ : Files) : Prop :=
    ∀ r ∈ filed.2, r ∈ (p.process.world.fe i).rules ∨ p.Enters i r e
  have stored : ∀ a b, p.Stores lib site e a b → accounted (a.1.fe i).filed a.2 → accounted (b.1.fe i).filed b.2 := by
    intro a b stored start
    obtain ⟨k, input, results, s, same, present, j, rules, current, known, rfl⟩ := stored
    by_cases here : i = j
    · subst here
      apply World.fe_update_holds a.1 (fun fe => accounted fe.filed a.2) start
      intro before r member
      rcases known r member with old | entered
      · exact before r old
      · exact .inr ⟨k, input, results, s, same, present, current, entered⟩
    · show accounted ((a.1.update j _).fe i).filed a.2
      rw [World.fe_update_ne a.1 here]
      exact start
  have accounts : accounted (p'.process.world.fe i).filed p'.files :=
    step_keeps accounted stored stepped fun _ => .inl
  exact (accounts r there).resolve_left bare

end Program

/-- A format that knows the lists of one rule. -/
def TextFormat.copies (r : Rule) : TextFormat (List Rule) where
  marshal rules :=
    if rules = List.replicate rules.length r then .ok (List.replicate rules.length 0x72)
    else .error (ascii "unknown rule")
  unmarshal contents := .ok (List.replicate (contents.length - rulesHeader.length) r)

theorem TextFormat.copies_inverts (r : Rule) : (TextFormat.copies r).Inverts rulesHeader := by
  intro rules data marshalled
  dsimp only [copies] at marshalled ⊢
  split at marshalled
  · next known =>
    rw [← Except.ok.inj marshalled, List.length_append, List.length_replicate, Nat.add_sub_cancel_left, ← known]
  · cases marshalled

/-- A ban that is entered at the wizard. -/
def enteredBan : Rule where
  uuid := ascii "8f2c71d0"
  type := .ban
  address := [ascii "192.0.2.0/24"]
  description := [ascii "subnet"]
  message := [ascii "not from there"]

def copyingLib : SSHLib := { SSHLib.plain with rulesFormat := .copies enteredBan }

def wizardry : List ProgramEvent := [
  .login (ascii "claire@q2"),
  .console 0 (.line (ascii "server openffa") {}),
  .console 0 (.line (ascii "rules add") {}),
  .console 0 (.line (ascii "ban") {}),
  .console 0 (.line (ascii "192.0.2.0/24") {}),
  .console 0 (.line (ascii "subnet") {}),
  .console 0 (.line (ascii "not from there") { uuid := ascii "8f2c71d0" })]

theorem wizardry_ran : Yields (run (Program.step copyingLib openSite)
    (Program.start guardedWorld (fun _ => none) (ascii "clients")) ((visit.take 2).map .process ++ wizardry))
    (fun p => (p.process.world.fe 0).rules = [enteredBan] ∧ p.paths 0 = ascii "clients/openffa") fun _ => False := by
  decide +kernel

/-- Whatever the game servers send, whoever connects, and whatever else is typed: a rule that is in
force on a server and was not at first has been entered for it, at the wizard of a session that
was with this server. -/
theorem rules_were_entered {lib : SSHLib} {site : SSHSite} {p p' : Program} {events : List ProgramEvent} {i : Nat}
    {r : Rule} (ran : run (Program.step lib site) p events = .ok p') (bare : r ∉ (p.process.world.fe i).rules)
    (there : r ∈ (p'.process.world.fe i).rules) :
    ∃ front e rest q, events = front ++ e :: rest ∧ run (Program.step lib site) p front = .ok q ∧ q.Enters i r e := by
  obtain ⟨front, e, rest, q, q', split, reached, stepped, before, after⟩ :=
    @run_becomes _ _ _ _ (fun p : Program => r ∈ (p.process.world.fe i).rules) _ _ _ ran bare there
  exact ⟨front, e, rest, q, split, reached, Program.step_entered stepped before after⟩

theorem rules_were_entered_ban : ∃ front e rest q,
    (visit.take 2).map .process ++ wizardry = front ++ e :: rest ∧
      run (Program.step copyingLib openSite) (Program.start guardedWorld (fun _ => none) (ascii "clients")) front = .ok q ∧
      q.Enters 0 enteredBan e := by
  obtain ⟨p, ran, rules, -⟩ := wizardry_ran.returns
  have bare : enteredBan ∉
      ((Program.start guardedWorld (fun _ => none) (ascii "clients")).process.world.fe 0).rules := by decide
  exact rules_were_entered ran bare (by simp [rules])

/-! ## What is in the files -/

/-- What `FetchRules` finds in the file of a server, next to the rules it has in memory: the same,
or if there are none, what was there at first or the last that there were. -/
structure Filed (format : TextFormat (List Rule)) (directory : Bytes) (fine : Rule → Prop) (first : Files)
    (rules : List Rule) (files : Files) : Prop where
  fine : ∀ r ∈ rules, fine r
  kept : rules ≠ [] → fetchRules format files directory = .ok (scopeRules (ascii "client") rules)
  left : rules = [] → files (rulesFile directory) = first (rulesFile directory) ∨
    ∃ gone, gone ≠ [] ∧ fetchRules format files directory = .ok (scopeRules (ascii "client") gone)

section
variable {format : TextFormat (List Rule)} {quote : Bytes → Bytes} {directory reason : Bytes} {fine : Rule → Prop}
  {first files files' : Files} {rules rules' : List Rule}

theorem fetchRules_congr (same : files' (rulesFile directory) = files (rulesFile directory)) :
    fetchRules format files' directory = fetchRules format files directory := by
  rw [fetchRules, readFile, same, fetchRules, readFile]

/-- Rules that have a text are written, and can be read. -/
theorem fetchRules_materializeRules (inverts : format.Inverts rulesHeader) (some_left : rules ≠ [])
    {data : Bytes} (marshalled : format.marshal rules = .ok data) :
    fetchRules format (materializeRules format quote files directory rules .done reason).1 directory =
      .ok (scopeRules (ascii "client") rules) := by
  rw [materializeRules, if_neg some_left, marshalled]
  exact fetchRules_of_file (Function.update_self ..) (inverts rules data marshalled)

namespace Filed

theorem of_file (filed : Filed format directory fine first rules files)
    (same : files' (rulesFile directory) = files (rulesFile directory)) :
    Filed format directory fine first rules files' where
  fine := filed.fine
  kept := by
    rw [fetchRules_congr same]
    exact filed.kept
  left := by
    rw [same, fetchRules_congr same]
    exact filed.left

/-- There are no rules in memory any more, and no rules are written. -/
theorem emptied (filed : Filed format directory fine first rules files) :
    Filed format directory fine first [] files where
  fine := by simp
  kept := fun some => absurd rfl some
  left := by
    intro _
    by_cases before : rules = []
    · exact filed.left before
    · exact .inr ⟨rules, before, filed.kept before⟩

variable (quote reason) in
/-- Other rules are stored. The server may be one that is not there. -/
theorem stored (inverts : format.Inverts rulesHeader)
    (encodes : ∀ rules, (∀ r ∈ rules, fine r) → ∃ data, format.marshal rules = .ok data)
    (filed : Filed format directory fine first rules files) (all : ∀ r ∈ rules', fine r) {now : List Rule}
    (placed : now = rules' ∨ now = []) :
    Filed format directory fine first now (materializeRules format quote files directory rules' .done reason).1 := by
  by_cases nothing : rules' = []
  · have empty : now = [] := placed.elim (fun same => same.trans nothing) id
    rw [nothing, materializeRules, if_pos rfl, empty]
    exact filed.emptied
  · obtain ⟨data, marshalled⟩ := encodes rules' all
    have read : fetchRules format (materializeRules format quote files directory rules' .done reason).1 directory =
        .ok (scopeRules (ascii "client") rules') := fetchRules_materializeRules inverts nothing marshalled
    constructor
    · rcases placed with rfl | rfl
      · exact all
      · simp
    · intro there
      rw [placed.resolve_right there]
      exact read
    · exact fun _ => .inr ⟨rules', nothing, read⟩

end Filed
end

namespace Program
variable {lib : SSHLib} {site : SSHSite}

/-- What a line has to store is written, and what is entered at the wizard has a text. -/
def Saves (fine : Rule → Prop) (p : Program) : ProgramEvent → Prop
  | .console k (.line input results) => results.write = .done ∧
    ∀ s ∈ p.console k, ∀ r ∈ s.entered input results, fine r
  | _ => True

instance (fine : Rule → Prop) [DecidablePred fine] (p : Program) : (e : ProgramEvent) → Decidable (p.Saves fine e)
  | .console k (.line input results) => inferInstanceAs (Decidable (results.write = .done ∧
      ∀ s ∈ p.console k, ∀ r ∈ s.entered input results, fine r))
  | .console _ (.readFailed _) | .console _ (.stream ..) | .process _ | .login _ => inferInstanceAs (Decidable True)

/-- When the server first greets, no rules have been entered for it. -/
def Unburdened (pf : Platform) (i : Nat) (p : Program) (e : ProgramEvent) : Prop :=
  p.greets pf e = some i → p.paths i = [] → (p.process.world.fe i).rules = []

instance (pf : Platform) (i : Nat) (p : Program) (e : ProgramEvent) : Decidable (p.Unburdened pf i e) :=
  inferInstanceAs (Decidable (p.greets pf e = some i → p.paths i = [] → (p.process.world.fe i).rules = []))

/-- Where the rules of the server are: in the file of its directory from its first greeting on,
and not there before. -/
structure Keeps (format : TextFormat (List Rule)) (fine : Rule → Prop) (first : Files) (directory : Nat → Bytes)
    (i : Nat) (p : Program) : Prop where
  directories : ∀ j, p.directory j = directory j
  paths : ∀ j, p.paths j = [] ∨ p.paths j = directory j
  all : ∀ r ∈ (p.process.world.fe i).rules, fine r
  before : p.paths i = [] → p.files (rulesFile (directory i)) = first (rulesFile (directory i))
  filed : p.paths i ≠ [] → Filed format (directory i) fine first (p.process.world.fe i).rules p.files

theorem step_paths {p p' : Program} {e : ProgramEvent} (stepped : p.step lib site e = .ok p') :
    p'.clientDirectory = p.clientDirectory ∧ p'.paths = p.pathsAfter lib.platform e := by
  have kept : Yields (p.step lib site e) (fun p' => p'.clientDirectory = p.clientDirectory ∧
      p'.paths = p.pathsAfter lib.platform e) fun _ => True := by
    cases e with
    | process e =>
      apply Yields.bind (Yields.top _)
      exact fun _ _ _ => ⟨rfl, rfl⟩
    | login user => exact ⟨rfl, rfl⟩
    | console k e =>
      simp only [step]
      cases p.console k with
      | none => exact ⟨rfl, rfl⟩
      | some s =>
        apply Yields.bind (Yields.top _)
        exact fun _ _ _ => ⟨rfl, rfl⟩
  exact kept.of_ok stepped

/-- A path is set to the directory of its server, or left alone. -/
theorem pathsAfter_eq (pf : Platform) (p : Program) (e : ProgramEvent) (j : Nat) :
    p.pathsAfter pf e j = if p.greets pf e = some j then p.directory j else p.paths j := by
  unfold pathsAfter
  cases greeted : p.greets pf e with
  | none => simp
  | some k =>
    by_cases here : k = j
    · subst here
      simp
    · simp [here, Function.update_of_ne (Ne.symm here)]

/-- Where they are in the midst of a step, which goes by the paths it finds. -/
structure Midway (format : TextFormat (List Rule)) (pf : Platform) (fine : Rule → Prop) (first : Files)
    (directory : Nat → Bytes) (i : Nat) (p : Program) (e : ProgramEvent) (filed : Bytes × List Rule)
    (files : Files) : Prop where
  all : ∀ r ∈ filed.2, fine r
  empty : p.greets pf e = some i → p.paths i = [] → filed.2 = []
  before : p.paths i = [] → files (rulesFile (directory i)) = first (rulesFile (directory i))
  filed : p.paths i ≠ [] → Filed format (directory i) fine first filed.2 files

section
variable {fine : Rule → Prop} {directory : Nat → Bytes} {first : Files} {i : Nat} {p p' : Program} {e : ProgramEvent}

/-- Rules are stored for the server or for another one, whose file is not this server's. -/
theorem stores_midway (inverts : lib.rulesFormat.Inverts rulesHeader)
    (encodes : ∀ rules, (∀ r ∈ rules, fine r) → ∃ data, lib.rulesFormat.marshal rules = .ok data)
    (apart : ∀ j, rulesFile (directory j) = rulesFile (directory i) → j = i)
    (elsewhere : rulesFile [] ≠ rulesFile (directory i)) (saves : p.Saves fine e)
    (paths : ∀ j, p.paths j = [] ∨ p.paths j = directory j) {a b : Shared} (stores : p.Stores lib site e a b)
    (start : Midway lib.rulesFormat lib.platform fine first directory i p e (a.1.fe i).filed a.2) :
    Midway lib.rulesFormat lib.platform fine first directory i p e (b.1.fe i).filed b.2 := by
  obtain ⟨k, input, results, s, same, present, j, rules, current, known, rfl⟩ := stores
  obtain ⟨all, -, before, filed⟩ := start
  rw [same] at saves
  obtain ⟨write, entered⟩ := saves
  rw [write]
  have console : p.greets lib.platform e ≠ some i := by
    rw [same]
    simp [greets]
  have untouched (other : rulesFile (p.paths j) ≠ rulesFile (directory i)) :
      (materializeRules lib.rulesFormat lib.quote a.2 (p.paths j) rules .done results.writeError).1
        (rulesFile (directory i)) = a.2 (rulesFile (directory i)) := by
    by_contra changed
    exact other (materializeRules_files changed).symm
  by_cases here : i = j
  case neg =>
    have other : rulesFile (p.paths j) ≠ rulesFile (directory i) := by
      rcases paths j with path | path
      · rw [path]
        exact elsewhere
      · rw [path]
        exact fun same => here (apart j same).symm
    rw [World.fe_update_ne a.1 here]
    exact ⟨all, fun greeted => absurd greeted console, fun path => (untouched other).trans (before path),
      fun path => (filed path).of_file (untouched other)⟩
  case pos =>
    subst here
    have new : ∀ r ∈ rules, fine r := by
      intro r member
      rcases known r member with old | new
      · exact all r old
      · exact entered s present r new
    have placed : ((a.1.update i fun fe => { fe with rules := rules }).fe i).rules = rules ∨
        ((a.1.update i fun fe => { fe with rules := rules }).fe i).rules = [] := by
      by_cases live : i < a.1.frontends.length
      · left
        rw [World.fe_update_self a.1 live]
      · right
        rw [World.update_outside a.1 live, World.fe_outside a.1 live]
    refine ⟨?_, fun greeted => absurd greeted console, fun path => ?_, fun path => ?_⟩
    · intro r member
      change r ∈ ((a.1.update i fun fe => { fe with rules := rules }).fe i).rules at member
      rcases placed with same | none
      · exact new r (same ▸ member)
      · rw [none] at member
        exact absurd member List.not_mem_nil
    · refine (untouched ?_).trans (before path)
      rw [path]
      exact elsewhere
    · have mine := (paths i).resolve_left path
      have written := (filed path).stored lib.quote results.writeError inverts encodes new placed
      rw [← mine] at written ⊢
      exact written

theorem step_kept (inverts : lib.rulesFormat.Inverts rulesHeader)
    (encodes : ∀ rules, (∀ r ∈ rules, fine r) → ∃ data, lib.rulesFormat.marshal rules = .ok data)
    (apart : ∀ j, rulesFile (directory j) = rulesFile (directory i) → j = i)
    (elsewhere : rulesFile [] ≠ rulesFile (directory i)) (saves : p.Saves fine e)
    (unburdened : p.Unburdened lib.platform i e) (stepped : p.step lib site e = .ok p')
    (keeps : Keeps lib.rulesFormat fine first directory i p) : Keeps lib.rulesFormat fine first directory i p' := by
  obtain ⟨all, empty, before, filed⟩ :=
    step_keeps (Midway lib.rulesFormat lib.platform fine first directory i p e)
      (fun _ _ => stores_midway inverts encodes apart elsewhere saves keeps.paths) stepped
      ⟨keeps.all, unburdened, keeps.before, keeps.filed⟩
  obtain ⟨clients, paths⟩ := step_paths stepped
  have directories (j : Nat) : p'.directory j = directory j := by
    rw [← keeps.directories j, Program.directory, clients, step_name stepped j, Program.directory]
  have after (j : Nat) : p'.paths j = if p.greets lib.platform e = some j then directory j else p.paths j := by
    rw [paths, pathsAfter_eq, keeps.directories]
  refine ⟨directories, fun j => ?_, all, fun path => ?_, fun path => ?_⟩
  · rw [after]
    split
    · exact .inr rfl
    · exact keeps.paths j
  · apply before
    by_contra set
    rw [after, (keeps.paths i).resolve_left set] at path
    rw [(keeps.paths i).resolve_left set] at set
    simp [set] at path
  · by_cases fresh : p.paths i = []
    case neg => exact filed fresh
    case pos =>
      have greeted : p.greets lib.platform e = some i := by
        by_contra silent
        rw [after, if_neg silent] at path
        exact path fresh
      have none : (p'.process.world.fe i).rules = [] := empty greeted fresh
      rw [none]
      exact ⟨by simp, fun some => absurd rfl some, fun _ => .inl (before fresh)⟩

end

end Program

/-- Two servers, of which the second has not greeted. A user who manages the first asks for the
second, which is offline; what he then enters is a rule of the second, in a file of neither. -/
example : Yields (run (Program.step copyingLib openSite)
    (Program.start { guardedWorld with frontends := guardedWorld.frontends ++ [{ name := ascii "duel" }] }
      (fun _ => none) (ascii "clients"))
    ((visit.take 2).map .process ++ wizardry.take 2 ++ [.console 0 (.line (ascii "server duel") {})] ++ wizardry.drop 2))
    (fun p => (p.process.world.fe 1).rules = [enteredBan] ∧ p.files (ascii "rules.pb") ≠ none ∧
      p.files (ascii "clients/duel/rules.pb") = none) fun _ => False := by decide +kernel

end Q2Admin
