import Q2Admin.Lib.Runs
import Q2Admin.SessionEffects

/-! Which server the lines of an SSH session go to, over whole sessions: the one that is
selected, and one its user may manage. Both depend on what `server <name>` finds. -/

namespace Q2Admin
open Go Lib

/-- A session as it begins. -/
def newSession (user : Bytes) (world : World) (files : Files) : SSHSession where
  user := user
  world := world
  files := files

/-- The wizard is only there when a server is managed. -/
def SSHSession.Engaged (s : SSHSession) : Prop := s.wizard.isSome = true → s.activeFE.isSome = true

theorem Selection.unlinkAll_managed (sel : Selection) :
    sel.unlinkAll.activeFE = sel.activeFE ∧ sel.unlinkAll.fe = sel.fe := by
  unfold Selection.unlinkAll
  induction List.range sel.links.length with
  | nil => exact ⟨rfl, rfl⟩
  | cons link rest ih => exact ih

theorem Selection.drop_activeFE (sel : Selection) : sel.drop.activeFE = none := rfl

/-- After a session that ends, `activeFE` is what it was. -/
theorem activeFE_of_closed {s s' : SSHSession} (selection : s'.toSelection = s.unlinkAll) :
    s'.activeFE = s.activeFE := by
  rw [selection]
  exact s.unlinkAll_managed.1

section
variable {lib : SSHLib} {site : SSHSite} {s s' : SSHSession} {e : SSHEvent}

theorem Effect.engaged (effect : Effect lib site s e s') (engaged : s.Engaged) : s'.Engaged := by
  intro waits
  cases effect with
  | missed found wanted offline selection wizard reaches => simp [wizard] at waits
  | selected i wanted online selection reaches =>
    rw [selection]
    rfl
  | dropped i unasked running active selection wizard reaches => simp [wizard] at waits
  | closed unasked ended selection wizard reaches => simp [wizard] at waits
  | handled unasked handled =>
    rw [handled.selection]
    exact (handled.wizard waits).elim engaged id
  | elsewhere i fe event same =>
    subst same
    exact engaged waits

theorem engaged_always {user : Bytes} {world : World} {files : Files} {events : List SSHEvent}
    (ran : run (sshStep lib site) (newSession user world files) events = .ok s') : s'.Engaged :=
  run_invariant SSHSession.Engaged
    (fun s e _ engaged _ stepped => ((sshStep_effect lib site s e).of_ok stepped).engaged engaged)
    (by simp [SSHSession.Engaged, newSession]) (allowed_all _ events) ran

/-! ## The selected server -/

/-- Lines go to the server that is selected: `fe` and `activeFE` are one, no field of a nil
frontend is read, and nothing else is reached. -/
structure Steered (lib : SSHLib) (site : SSHSite) (s : SSHSession) : Prop where
  same : ∀ i, s.activeFE = some i → s.fe = some i
  alive : ∀ input results, sshStep lib site s (.line input results) ≠ .error .nilFrontend
  aimed : ∀ input results s', sshStep lib site s (.line input results) = .ok s' →
    Reaches site (fun j => s'.activeFE = some j) s s'

/-- While a server is selected, a line may ask for this one or for one that is online. -/
def SSHLib.Decisive (lib : SSHLib) (s : SSHSession) (e : SSHEvent) : Prop :=
  ∀ i found, s.activeFE = some i → lib.wanted s e = some found →
    found = some i ∨ ∃ j, found = some j ∧ s.online j = true

theorem steered_of_same (engaged : s.Engaged) (same : ∀ i, s.activeFE = some i → s.fe = some i) :
    Steered lib site s where
  same := same
  alive := by
    intro input results died
    have fault := sshStep_effect lib site s (.line input results)
    rw [died] at fault
    obtain ⟨nil, managed⟩ := fault rfl
    obtain ⟨i, active⟩ := Option.isSome_iff_exists.mp (managed.elim id engaged)
    simp [same i active] at nil
  aimed := by
    intro input results s' stepped
    cases (sshStep_effect lib site s (.line input results)).of_ok stepped with
    | missed found wanted offline selection wizard reaches => exact reaches.mono fun _ => False.elim
    | selected i wanted online selection reaches =>
      refine reaches.mono fun j here => ?_
      rw [selection, here]
      rfl
    | dropped i unasked running active selection wizard reaches => exact reaches.mono fun _ => False.elim
    | closed unasked ended selection wizard reaches => exact reaches.mono fun _ => False.elim
    | handled unasked handled =>
      refine handled.toReaches.mono fun j aim => ?_
      obtain ⟨i, active⟩ := Option.isSome_iff_exists.mp (aim.1.elim id engaged)
      rw [handled.selection]
      rcases aim.2 with current | managed
      · exact active.trans ((same i active).symm.trans current)
      · exact managed
    | elsewhere i fe event same => cases event

theorem Effect.same (effect : Effect lib site s e s') (same : ∀ i, s.activeFE = some i → s.fe = some i)
    (decisive : lib.Decisive s e) : ∀ i, s'.activeFE = some i → s'.fe = some i := by
  intro i active
  cases effect with
  | missed found wanted offline selection wizard reaches =>
    rw [selection] at active ⊢
    rcases decisive i found active wanted with here | ⟨j, there, online⟩
    · exact here
    · simp [offline j there] at online
  | selected j wanted online selection reaches =>
    rw [selection] at active ⊢
    exact active
  | dropped j unasked running active' selection wizard reaches =>
    rw [selection] at active
    cases active
  | closed unasked ended selection wizard reaches =>
    rw [activeFE_of_closed selection] at active
    rw [selection]
    exact s.unlinkAll_managed.2.trans (same i active)
  | handled unasked handled =>
    rw [handled.selection] at active ⊢
    exact same i active
  | elsewhere j fe event became =>
    subst became
    exact same i active

/-- In every state of a session the lines go to the selected server, exactly when none of them
asks, while a server is selected, for another one that is unknown or offline. -/
theorem lines_steered_iff (lib : SSHLib) (site : SSHSite) (user : Bytes) (world : World) (files : Files)
    (events : List SSHEvent) :
    (∀ front s', front <+: events → run (sshStep lib site) (newSession user world files) front = .ok s' →
      Steered lib site s') ↔
      Allowed (sshStep lib site) lib.Decisive (newSession user world files) events := by
  rw [← run_always_iff (fun s : SSHSession => ∀ i, s.activeFE = some i → s.fe = some i) lib.Decisive
    (by simp [newSession])]
  · constructor
    · exact fun always front s' initial ran => (always front s' initial ran).same
    · exact fun always front s' initial ran => steered_of_same (engaged_always ran) (always front s' initial ran)
  · exact fun s e s' _ same decisive stepped => ((sshStep_effect lib site s e).of_ok stepped).same same decisive
  · intro s e _ same indecisive
    simp only [SSHLib.Decisive, not_forall, not_or, not_exists, not_and, Bool.not_eq_true] at indecisive
    obtain ⟨i, found, active, wanted, other, offline⟩ := indecisive
    obtain ⟨s', stepped⟩ := (wanted_returns_iff lib site wanted).mpr fun j there online => by
      simp [offline j there] at online
    refine ⟨s', stepped, fun spared => other ?_⟩
    rcases ((sshStep_effect lib site s e).of_ok stepped).of_wanted lib site wanted with
      ⟨-, selection, -⟩ | ⟨j, there, online, -, -⟩
    · have kept := spared i (by rw [selection]; exact active)
      rw [selection] at kept
      exact kept
    · simp [offline j there] at online

/-- Two servers that are online, each with an owner of its own. -/
def twoServers : World where
  frontends := [
    { name := ascii "ffa", owner := ascii "claire@q2", connected := true, trusted := true, connection := some 0,
      maxPlayers := 2, players := [{ connectTime := 1728145800 }, {}] },
    { name := ascii "duel", owner := ascii "rivers@q2", connected := true, trusted := true, connection := some 1,
      maxPlayers := 2, players := [{}, {}] }]
  host := Host.counting

def twoOwners : SSHSite where
  users := [{ email := ascii "claire@q2", allowSsh := true }, { email := ascii "rivers@q2", allowSsh := true }]
  roles _ _ := []
  path _ := ascii "clients"

def claireSession : SSHSession := newSession (ascii "claire@q2") twoServers fun _ => none

def typed (text : String) : SSHEvent := .line (ascii text) {}

/-- A name nobody has leaves the server managed, and the lines going nowhere. -/
theorem lines_not_steered : ¬ ∀ front s', front <+: [typed "server ffa", typed "server nowhere"] →
    run (sshStep .plain twoOwners) claireSession front = .ok s' → Steered .plain twoOwners s' := by
  intro always
  have lost : Yields (run (sshStep .plain twoOwners) claireSession [typed "server ffa", typed "server nowhere"])
      (fun s' => s'.activeFE = some 0 ∧ s'.fe = none) fun _ => False := by decide +kernel
  obtain ⟨s', ran, active, nil⟩ := lost.returns
  have steered := always _ s' (List.prefix_refl _) ran
  simp [steered.same 0 active] at nil

/-! ## The user's own servers -/

/-- The server that is managed, and the one lines go to, are the user's to manage; no other is
reached by a line that asks for no server. -/
structure Confined (lib : SSHLib) (site : SSHSite) (s : SSHSession) : Prop where
  active : ∀ i, s.activeFE = some i → site.MayManage s.world s.user i
  current : ∀ i j, s.activeFE = some i → s.fe = some j → site.MayManage s.world s.user j
  inside : ∀ input results s', lib.wanted s (.line input results) = none →
    sshStep lib site s (.line input results) = .ok s' → Reaches site (site.MayManage s.world s.user) s s'

/-- A server that is asked for and found is the user's to manage, unless none is managed and it is
offline, or the process dies of sending to it. -/
def SSHLib.Permitted (lib : SSHLib) (site : SSHSite) (s : SSHSession) (e : SSHEvent) : Prop :=
  ∀ i, lib.wanted s e = some (some i) → site.MayManage s.world s.user i ∨
    if s.online i then Fails ((s.world.fe i).flush lib.platform) else s.activeFE = none

theorem mayManage_congr {w w' : World} (owners : w'.frontends.map Frontend.owner = w.frontends.map Frontend.owner)
    (login : Bytes) (i : Nat) : site.MayManage w' login i ↔ site.MayManage w login i := by
  have count : w'.frontends.length = w.frontends.length := by
    simpa using congrArg List.length owners
  have own (u : Nat) : site.myFrontends w'.frontends u = site.myFrontends w.frontends u := by
    unfold SSHSite.myFrontends
    rw [count]
    apply List.filter_congr
    intro j _
    have same : (w'.fe j).owner = (w.fe j).owner := World.field_of_map owners j
    rw [World.fe, World.fe] at same
    rw [same]
  have delegated (u : Nat) : site.myDelegates w'.frontends u = site.myDelegates w.frontends u := by
    rw [SSHSite.myDelegates, SSHSite.myDelegates, count]
  unfold SSHSite.MayManage
  cases site.user login with
  | none => rfl
  | some u =>
    dsimp only
    rw [own, delegated]

/-- Who may manage what is the same after a line. -/
theorem Reaches.mayManage {targets : Nat → Prop} (reaches : Reaches site targets s s') (i : Nat) :
    site.MayManage s'.world s'.user i ↔ site.MayManage s.world s.user i := by
  rw [reaches.user]
  apply mayManage_congr
  have owners := congrArg (List.map fun standing => standing.2.1) reaches.standing
  simpa [List.map_map, Function.comp_def, Frontend.standing] using owners

/-- Nobody else's frontends, neither managed nor in use. -/
structure SSHSession.Guarded (site : SSHSite) (s : SSHSession) : Prop where
  active : ∀ i, s.activeFE = some i → site.MayManage s.world s.user i
  current : ∀ i j, s.activeFE = some i → s.fe = some j → site.MayManage s.world s.user j

theorem confined_of_guarded (engaged : s.Engaged) (guarded : s.Guarded site) : Confined lib site s where
  active := guarded.active
  current := guarded.current
  inside := by
    intro input results s' unasked stepped
    cases (sshStep_effect lib site s (.line input results)).of_ok stepped with
    | missed found wanted offline selection wizard reaches => simp [unasked] at wanted
    | selected i wanted online selection reaches => simp [unasked] at wanted
    | dropped i unasked running active selection wizard reaches => exact reaches.mono fun _ => False.elim
    | closed unasked ended selection wizard reaches => exact reaches.mono fun _ => False.elim
    | handled unasked handled =>
      refine handled.toReaches.mono fun j aim => ?_
      obtain ⟨i, active⟩ := Option.isSome_iff_exists.mp (aim.1.elim id engaged)
      exact aim.2.elim (guarded.current i j active) (guarded.active j)
    | elsewhere i fe event same => cases event

theorem Effect.guarded (effect : Effect lib site s e s') (guarded : s.Guarded site) (permitted : lib.Permitted site s e)
    (stepped : sshStep lib site s e = .ok s') : s'.Guarded site := by
  cases effect with
  | missed found wanted offline selection wizard reaches =>
    have managed (i : Nat) (active : s'.activeFE = some i) : s.activeFE = some i := by rwa [selection] at active
    refine ⟨fun i active => (reaches.mayManage i).mpr (guarded.active i (managed i active)), fun i j active current => ?_⟩
    rw [selection] at current
    have here : found = some j := current
    rw [reaches.mayManage, ← or_false (site.MayManage _ _ _)]
    refine (permitted j (here ▸ wanted)).imp_right fun excuse => ?_
    rw [if_neg (by simp [offline j here]), managed i active] at excuse
    nomatch excuse
  | selected i wanted online selection reaches =>
    have allowed : site.MayManage s'.world s'.user i := by
      rw [reaches.mayManage, ← or_false (site.MayManage _ _ _)]
      refine (permitted i wanted).imp_right fun dies => ?_
      rw [if_pos online] at dies
      exact (wanted_returns_iff lib site wanted).mp ⟨s', stepped⟩ i rfl online dies
    refine ⟨fun j active => ?_, fun _ j _ current => ?_⟩
    · rw [selection] at active
      exact Option.some.inj active ▸ allowed
    · rw [selection] at current
      exact Option.some.inj current ▸ allowed
  | dropped i unasked running active selection wizard reaches =>
    have none (i : Nat) : s'.activeFE ≠ some i := by
      rw [selection]
      simp [Selection.drop_activeFE]
    exact ⟨fun i active => absurd active (none i), fun i _ active => absurd active (none i)⟩
  | closed unasked ended selection wizard reaches =>
    have current : s'.fe = s.fe := by
      rw [selection]
      exact s.unlinkAll_managed.2
    refine ⟨fun i active => ?_, fun i j active used => ?_⟩
    · rw [activeFE_of_closed selection] at active
      exact (reaches.mayManage i).mpr (guarded.active i active)
    · rw [activeFE_of_closed selection] at active
      exact (reaches.mayManage j).mpr (guarded.current i j active (current ▸ used))
  | handled unasked handled =>
    refine ⟨fun i active => ?_, fun i j active used => ?_⟩
    · rw [handled.selection] at active
      exact (handled.mayManage i).mpr (guarded.active i active)
    · rw [handled.selection] at active used
      exact (handled.mayManage j).mpr (guarded.current i j active used)
  | elsewhere k fe event became =>
    subst became
    have owners : (s.world.update k fe.becomes).frontends.map Frontend.owner = s.world.frontends.map Frontend.owner :=
      World.map_update rfl
    exact ⟨fun i active => (mayManage_congr owners _ i).mpr (guarded.active i active),
      fun i j active used => (mayManage_congr owners _ j).mpr (guarded.current i j active used)⟩

/-- In every state of a session its user manages servers of their own only, exactly when all
servers that are asked for are. -/
theorem session_confined_iff (lib : SSHLib) (site : SSHSite) (user : Bytes) (world : World) (files : Files)
    (events : List SSHEvent) :
    (∀ front s', front <+: events → run (sshStep lib site) (newSession user world files) front = .ok s' →
      Confined lib site s') ↔
      Allowed (sshStep lib site) (lib.Permitted site) (newSession user world files) events := by
  rw [← run_always_iff (fun s : SSHSession => s.Guarded site) (lib.Permitted site)
    ⟨by simp [newSession], by simp [newSession]⟩]
  · constructor
    · intro always front s' initial ran
      have confined := always front s' initial ran
      exact ⟨confined.active, confined.current⟩
    · exact fun always front s' initial ran => confined_of_guarded (engaged_always ran) (always front s' initial ran)
  · exact fun s e s' _ guarded permitted stepped =>
      ((sshStep_effect lib site s e).of_ok stepped).guarded guarded permitted stepped
  · intro s e _ _ trespass
    simp only [SSHLib.Permitted, not_forall, not_or] at trespass
    obtain ⟨i, wanted, foreign, excuse⟩ := trespass
    obtain ⟨s', stepped⟩ := (wanted_returns_iff lib site wanted).mpr fun j here online => by
      rw [Option.some.inj here, if_pos online] at excuse
      exact excuse
    refine ⟨s', stepped, fun spared => foreign ?_⟩
    rcases ((sshStep_effect lib site s e).of_ok stepped).of_wanted lib site wanted with
      ⟨offline, selection, reaches⟩ | ⟨j, here, -, selection, reaches⟩
    · rw [if_neg (by simp [offline i rfl])] at excuse
      obtain ⟨k, active⟩ := Option.ne_none_iff_exists'.mp excuse
      rw [← reaches.mayManage]
      exact spared.current k i (by rw [selection]; exact active) (by rw [selection])
    · rw [← reaches.mayManage]
      exact spared.active i (by rw [selection]; exact here.symm)

/-- Any user can manage any server that is online. -/
theorem session_not_confined : ¬ ∀ front s', front <+: [typed "server duel"] →
    run (sshStep .plain twoOwners) claireSession front = .ok s' → Confined .plain twoOwners s' := by
  intro always
  have taken : Yields (run (sshStep .plain twoOwners) claireSession [typed "server duel"])
      (fun s' => s'.activeFE = some 1 ∧ ¬ twoOwners.MayManage s'.world s'.user 1) fun _ => False := by decide +kernel
  obtain ⟨s', ran, active, foreign⟩ := taken.returns
  exact foreign ((always _ s' (List.prefix_refl _) ran).active 1 active)

end
end Q2Admin
