import Q2Admin.DirectLookup
import Q2Admin.StickyMarks
import Q2Admin.Tending

/-! The process as a whole. Next to the reads of its connections it goes on with the
goroutines that connects have started, which come back late, and with its maintenance.
Whatever the order, it lives on as long as the game servers keep to the protocol and neither a
player nor his server leaves while his address is being looked up. -/

namespace Q2Admin
open Go Lib

/-- A goroutine, and what it waits for. The player of a connect is a pointer into the players
its frontend had at the time. -/
inductive Due where
  /-- The answer of `LookupAddr`. -/
  | lookup (fe slot session : Nat)
  /-- The second before the rules. -/
  | rules (fe slot session : Nat)
  /-- The five seconds before the next map. -/
  | changeMap (fe : Nat)
  deriving DecidableEq

def Task.due (session : Nat → Nat) : Task → Due
  | connect i slot => .lookup i slot (session i)
  | changeMap i => .changeMap i

structure Process where
  server : Server
  /-- How often a frontend has been given new players, and those it had before. -/
  session : Nat → Nat
  retired : Nat → Nat → List Player
  due : List Due

inductive ProcessEvent where
  | read (e : Event)
  /-- A goroutine goes on, with the answer it has waited for, the clock as the checks read it,
  or the map that is next. -/
  | proceed (k : Nat) (answer : Option Bytes) (clock : Nat → Time × Int) (map : Bytes)
  /-- The maintenance comes to a frontend. -/
  | maintain (i : Nat) (clock : Nat → Nat → Time × Int) (vars : StringMap)

/-- `CheckRule` comes to a limit that does not parse, which it logs for the player's frontend. -/
def Check.stumbles (lib : RuleLib) (p : Player) (c : Check) : Bool :=
  !c.rule.disabled && !expired c.rule c.t && (countCriteria lib p c.rule c.t).isNone

namespace Process

def start (w : World) : Process := ⟨Server.start w, fun _ => 0, fun _ _ => [], []⟩

def world (p : Process) : World := p.server.world

def setWorld (p : Process) (w : World) : Process := { p with server := { p.server with world := w } }

/-- What the pointer of a goroutine leads to. -/
def record (p : Process) (i slot session : Nat) : Player :=
  if session = p.session i then (p.world.fe i).player slot else (p.retired i session).getD slot default

def setRecord (p : Process) (i slot session : Nat) (pl : Player) : Process :=
  if session = p.session i then p.setWorld (p.world.updatePlayer i slot fun _ => pl)
  else
    let players := (p.retired i session).set slot pl
    { p with retired := Function.update p.retired i (Function.update (p.retired i) session players) }

/-- The frontend that gets new players in a step of its connection. -/
def resettled : Phase → Phase → Option Nat
  | .auth i _, .main _ => some i
  | _, _ => none

/-- The players of before are kept by whoever points to them. -/
def resettle (p : Process) : Option Nat → Process
  | none => p
  | some i =>
    let players := Function.update (p.retired i) (p.session i) (p.world.fe i).players
    { p with
      session := Function.update p.session i (p.session i + 1)
      retired := Function.update p.retired i players }

section
variable (pf : Platform)

def read (e : Event) (p : Process) : Except Fault Process := do
  let s ← p.server.step pf e
  let p' := p.resettle (resettled (p.server.phase e.conn) (s.phase e.conn))
  .ok { p' with
    server := s
    due := p.due ++ (s.world.tasks.drop p.world.tasks.length).map (Task.due p'.session) }

/-- The record has been cleared, and is needed all the same: it has no frontend any more, neither
for the log nor for `ApplyMatchedRules`. -/
def Stranded (i slot session : Nat) (clock : Nat → Time × Int) (p : Process) : Prop :=
  let old := p.record i slot session
  let checks := checksOf clock (p.world.ruleset i)
  old.connectTime = 0 ∧
    ((checkEach pf.rules checks old).1 ≠ [] ∨ checks.any (Check.stumbles pf.rules old) = true)

/-- The game server has hung up, and there is something to be sent to it when the rules have been
applied. -/
def Deserted (i slot session : Nat) (clock : Nat → Time × Int) (p : Process) : Prop :=
  ∃ fe rules pl, p.world.frontends[i]? = some fe ∧ fe.connection = none ∧
    checkEach pf.rules (checksOf clock (p.world.ruleset i)) (p.record i slot session) = (rules, pl) ∧ rules ≠ [] ∧
    (fe.messageOut.data ≠ [] ∨ rulesSay rules { pl with rules := rules } ≠ [])

instance (i slot session : Nat) (clock : Nat → Time × Int) (p : Process) :
    Decidable (Stranded pf i slot session clock p) := inferInstanceAs (Decidable (_ ∧ _))

/-- The rules are applied. -/
def applyDue (i slot session : Nat) (clock : Nat → Time × Int) (p : Process) : Except Fault Process :=
  let (rules, pl) := checkEach pf.rules (checksOf clock (p.world.ruleset i)) (p.record i slot session)
  if p.Stranded pf i slot session clock then .error .nilFrontend
  else if rules = [] then .ok (p.setRecord i slot session pl)
  else do
    let (pl, fe) := applyRules pf.q2 rules ({ pl with rules := rules }, p.world.fe i)
    let p := (p.setWorld (p.world.update i fun _ => fe)).setRecord i slot session pl
    let w ← sendMessages pf i p.world
    .ok (p.setWorld w)

def proceed (k : Nat) (answer : Option Bytes) (clock : Nat → Time × Int) (map : Bytes) (p : Process) :
    Except Fault Process :=
  match p.due[k]? with
  | none => .ok p
  | some (.lookup i slot session) =>
    .ok { p.setRecord i slot session ((p.record i slot session).lookedUp answer) with
      due := p.due.set k (.rules i slot session) }
  | some (.rules i slot session) => applyDue pf i slot session clock { p with due := p.due.eraseIdx k }
  | some (.changeMap i) =>
    .ok { p.setWorld (p.world.update i (consoleCommand pf.q2 (ascii "gamemap " ++ map))) with
      due := p.due.eraseIdx k }

def step (p : Process) : ProcessEvent → Except Fault Process
  | .read e => p.read pf e
  | .proceed k answer clock map => p.proceed pf k answer clock map
  | .maintain i clock vars => do
    let (_, w) ← maintainFrontend pf i clock vars p.world
    .ok (p.setWorld w)

end
end Process

/-! ## The goroutines of connects -/

theorem applyRules_seat (q2 : Libq2) (rules : List Rule) (p : Player) (fe : Frontend) :
    (applyRules q2 rules (p, fe)).1.seat = p.seat := by
  induction rules generalizing p fe with
  | nil => rfl
  | cons r rest ih =>
    cases type : r.type with
    | ban => simp only [applyRules, type]
    | mute =>
      simp only [applyRules, type]
      exact ih _ _
    | stifle =>
      by_cases muted : p.muted = true
      · simp only [applyRules, type, muted, ↓reduceIte]
        exact ih p fe
      · simp only [applyRules, type, muted, Bool.false_eq_true, ↓reduceIte]
        exact ih _ _
    | message =>
      simp only [applyRules, type]
      exact ih p _

theorem checkEach_seat (lib : RuleLib) (checks : List Check) (p : Player) :
    (checkEach lib checks p).2.seat = p.seat := by
  have checked := checkEach_eq lib p ⟨p.muted, p.stifled, p.stifleLength⟩ checks
  have same : p.withMarks ⟨p.muted, p.stifled, p.stifleLength⟩ = p := rfl
  rw [same] at checked
  rw [checked]
  rfl

namespace Process

/-- Game servers keep to the protocol. -/
def Fair (pf : Platform) (p : Process) : ProcessEvent → Prop
  | .read e => Orderly pf p.server e
  | _ => True

/-- The player of a goroutine has gone and the rules have something to say about what is left,
or the game server has gone and they have something to say to it. -/
def Strands (pf : Platform) (p : Process) : ProcessEvent → Prop
  | .proceed k _ clock _ => ∃ i slot session, p.due[k]? = some (.rules i slot session) ∧
    (p.Stranded pf i slot session clock ∨ p.Deserted pf i slot session clock)
  | _ => False

section
variable {p : Process} {i slot session : Nat} {pl : Player}

theorem setRecord_phase : (p.setRecord i slot session pl).server.phase = p.server.phase := by
  unfold setRecord
  split
  · rfl
  · rfl

theorem setRecord_queue {i slot session j : Nat} {pl : Player} :
    ((p.setRecord i slot session pl).world.fe j).messageOut = (p.world.fe j).messageOut := by
  unfold setRecord
  split
  · exact World.fe_update_field p.world i j (fun fe => fe.messageOut) fun _ => rfl
  · rfl

theorem setRecord_tends (same : pl.clientID = (p.record i slot session).clientID) :
    p.world.Tends (p.setRecord i slot session pl).world := by
  unfold record at same
  unfold setRecord
  split
  · next current =>
    rw [if_pos current] at same
    exact .put same
  · exact .refl

/-- The phases are left alone, and the world is only tended. -/
theorem lively_of_tends {p' : Process} (lively : p.server.Lively) (phase : p'.server.phase = p.server.phase)
    (tends : p.world.Tends p'.world) : p'.server.Lively := by
  have moved := lively.of_tends tends
  rw [← phase] at moved
  exact moved

/-- Only the players of the frontend are looked at. -/
theorem record_setWorld {w : World} (same : (w.fe i).players = (p.world.fe i).players) :
    (p.setWorld w).record i slot session = p.record i slot session := by
  unfold record
  rw [Frontend.player, Frontend.player]
  show (if session = p.session i then (w.fe i).players.getD slot default else _) = _
  rw [same]
  rfl

end

section
variable (pf : Platform) {p : Process} {i slot session : Nat}

/-- What is sent when the rules have been applied is what was queued before and what they say. -/
theorem deserted_iff (atEnd : (p.world.fe i).messageOut.AtEnd) (hungUp : (p.world.fe i).connection = none)
    {clock : Nat → Time × Int} {rules : List Rule} {pl : Player}
    (checked : checkEach pf.rules (checksOf clock (p.world.ruleset i)) (p.record i slot session) = (rules, pl)) :
    p.Deserted pf i slot session clock ↔ rules ≠ [] ∧ ((p.world.update i fun _ =>
      (applyRules pf.q2 rules ({ pl with rules := rules }, p.world.fe i)).2).fe i).messageOut.data ≠ [] := by
  by_cases live : i < p.world.frontends.length
  case pos =>
    have present : p.world.frontends[i]? = some (p.world.fe i) := by
      simp [World.fe, List.getD_eq_getElem?_getD, live]
    have said := (says_applyRules pf.q2 rules { pl with rules := rules }).appends _ atEnd
    have something (before : Bytes) (messages : List ServerMessage) :
        before ++ encodeServer messages ≠ [] ↔ before ≠ [] ∨ messages ≠ [] := by
      rw [← not_and_or, Ne, List.append_eq_nil_iff, encodeServer_eq_nil_iff]
    rw [World.fe_update_self p.world live, said.data, something]
    constructor
    · intro deserted
      obtain ⟨fe, rules', pl', present', -, checked', some, sends⟩ := deserted
      cases checked.symm.trans checked'
      rw [Option.some.inj (present.symm.trans present')]
      exact ⟨some, sends⟩
    · exact fun both => ⟨p.world.fe i, rules, pl, present, hungUp, checked, both.1, both.2⟩
  case neg =>
    rw [World.update_outside p.world live, World.fe_outside p.world live]
    constructor
    · intro deserted
      obtain ⟨fe, -, -, present, -⟩ := deserted
      exact absurd (List.getElem?_eq_some_iff.mp present).1 live
    · exact fun both => absurd rfl both.2

theorem applyDue_lively (lively : p.server.Lively) (clock : Nat → Time × Int) :
    Yields (p.applyDue pf i slot session clock)
      (fun p' => p'.server.Lively ∧ ¬ (p.Stranded pf i slot session clock ∨ p.Deserted pf i slot session clock))
      fun _ => p.Stranded pf i slot session clock ∨ p.Deserted pf i slot session clock := by
  have seat := checkEach_seat pf.rules (checksOf clock (p.world.ruleset i)) (p.record i slot session)
  unfold applyDue
  obtain ⟨rules, pl, checked⟩ : ∃ rules pl,
      checkEach pf.rules (checksOf clock (p.world.ruleset i)) (p.record i slot session) = (rules, pl) := ⟨_, _, rfl⟩
  rw [checked] at seat ⊢
  dsimp only at seat ⊢
  split
  · next stranded => exact .inl stranded
  next attended =>
  split
  · next none =>
    refine ⟨lively_of_tends lively setRecord_phase (setRecord_tends (congrArg Prod.fst seat)), ?_⟩
    rintro (stranded | left)
    · exact attended stranded
    · obtain ⟨_, _, _, -, -, checked', some, -⟩ := left
      cases checked.symm.trans checked'
      exact some none
  next matched =>
    let applied := applyRules pf.q2 rules ({ pl with rules := rules }, p.world.fe i)
    have told : p.world.Tends (p.world.update i fun _ => applied.2) :=
      applyRules_tends pf.q2 rules { pl with rules := rules }
    have players : ((p.world.update i fun _ => applied.2).fe i).players = (p.world.fe i).players := by
      apply World.fe_update_holds p.world (fun fe => fe.players = (p.world.fe i).players) rfl
      exact fun _ => applyRules_players pf.q2 rules _ _
    have same : applied.1.clientID =
        ((p.setWorld (p.world.update i fun _ => applied.2)).record i slot session).clientID := by
      rw [record_setWorld players]
      have applied_seat := applyRules_seat pf.q2 rules { pl with rules := rules } (p.world.fe i)
      exact congrArg Prod.fst (applied_seat.trans seat)
    have placed := told.trans (setRecord_tends same)
    by_cases connection : (p.world.fe i).connection.isSome = true
    case pos =>
      have able := lively.canSend_of_connection connection
      apply Yields.bind ((sendMessages_tends pf (able.of_keeps placed.toKeeps)).mono (fun _ => id) fun _ => False.elim)
      intro w' _ tends
      refine ⟨lively_of_tends lively setRecord_phase (placed.trans tends), ?_⟩
      rintro (stranded | left)
      · exact attended stranded
      · obtain ⟨fe, -, -, present, hungUp, -⟩ := left
        have here : p.world.fe i = fe := by simp [World.fe, List.getD_eq_getElem?_getD, present]
        simp [here, hungUp] at connection
    case neg =>
      have hungUp : (p.world.fe i).connection = none := by simpa using connection
      have gone := (World.field_of_frames placed.frames i (fun fe => fe.connection) fun _ => rfl).trans hungUp
      have untrusted := (World.field_of_frames placed.frames i (fun fe => fe.trusted) fun _ => rfl).trans
        (lively.untrusted hungUp)
      have sent := sendMessages_hungUp pf (placed.atEnd i (lively.queues i)) gone untrusted
      rw [setRecord_queue] at sent
      have deserted := deserted_iff pf (lively.queues i) hungUp checked
      apply Yields.bind (sent.mono (fun _ => id) fun _ some => .inr (deserted.mpr ⟨matched, some⟩))
      intro w' _ done
      refine ⟨lively_of_tends lively setRecord_phase (placed.trans done.1), ?_⟩
      rintro (stranded | left)
      · exact attended stranded
      · exact (deserted.mp left).2 done.2

/-- What comes of an event: it fails where a goroutine is stranded, and only there. -/
abbrev Comes (p : Process) (e : ProcessEvent) (x : Except Fault Process) : Prop :=
  Yields x (fun p' => p'.server.Lively ∧ ¬ p.Strands pf e) fun _ => p.Strands pf e

theorem proceed_comes (lively : p.server.Lively) {k : Nat} {answer : Option Bytes} {clock : Nat → Time × Int}
    {map : Bytes} : p.Comes pf (.proceed k answer clock map) (p.proceed pf k answer clock map) := by
  have spared {task : Due} (next : p.due[k]? = some task) (other : ∀ i slot session, task ≠ .rules i slot session) :
      ¬ p.Strands pf (.proceed k answer clock map) := by
    intro strands
    obtain ⟨i, slot, session, same, -⟩ := strands
    exact other i slot session (Option.some.inj (next.symm.trans same))
  unfold proceed
  cases next : p.due[k]? with
  | none =>
    refine ⟨lively, fun strands => ?_⟩
    obtain ⟨i, slot, session, same, -⟩ := strands
    rw [next] at same
    cases same
  | some task =>
    cases task with
    | lookup i slot session =>
      exact ⟨lively_of_tends lively setRecord_phase (setRecord_tends rfl), spared next fun _ _ _ => nofun⟩
    | changeMap i =>
      exact ⟨lively_of_tends lively rfl (.queue i (Queues.consoleCommand pf.q2 _)), spared next fun _ _ _ => nofun⟩
    | rules i slot session =>
      have applied := @applyDue_lively pf { p with due := p.due.eraseIdx k } i slot session lively clock
      apply applied.mono
      · intro p' done
        refine ⟨done.1, fun strands => done.2 ?_⟩
        obtain ⟨i', slot', session', same, stranded⟩ := strands
        cases next.symm.trans same
        exact stranded
      · exact fun _ stranded => ⟨i, slot, session, next, stranded⟩

theorem step_comes (bounded : pf.q2.Bounded) (lively : p.server.Lively) {e : ProcessEvent} (fair : p.Fair pf e) :
    p.Comes pf e (p.step pf e) := by
  cases e with
  | read e =>
    apply Yields.bind ((step_lively pf bounded lively fair).mono (fun _ => id) fun _ => False.elim)
    exact fun _ _ done => ⟨done, id⟩
  | proceed k answer clock map => exact proceed_comes pf lively
  | maintain i clock vars =>
    apply Yields.bind ((maintainFrontend_tends pf lively.canSend clock vars).mono (fun _ => id) fun _ => False.elim)
    exact fun _ _ tends => ⟨lively_of_tends lively rfl tends, id⟩

end

theorem start_lively {w : World} (queues : ∀ i, (w.fe i).messageOut.AtEnd)
    (closed : ∀ i, (w.fe i).connected = false ∧ (w.fe i).trusted = false) : (start w).server.Lively where
  toHealthy := start_healthy queues
  lingers := fun i _ => ⟨by simp [start, Server.start, closed i], by simp [start, Server.start, closed i]⟩

end Process

/-- However the reads of the game servers, the goroutines of their connects and the turns of
the maintenance come, as long as the game servers keep to the protocol: the process lives on
exactly if no player leaves so soon that the rules come to apply to his empty slot, and no game
server so soon that they have something to say on its lost connection. As long as it does, every
session is ready for its next message, and whatever is left of a session can be sent to. -/
theorem process_run_iff {pf : Platform} (bounded : pf.q2.Bounded) {w : World} {events : List ProcessEvent}
    (queues : ∀ i, (w.fe i).messageOut.AtEnd)
    (closed : ∀ i, (w.fe i).connected = false ∧ (w.fe i).trusted = false)
    (fair : Allowed (Process.step pf) (Process.Fair pf) (Process.start w) events) :
    ((∃ p, run (Process.step pf) (Process.start w) events = .ok p) ↔
      Allowed (Process.step pf) (fun p e => ¬ p.Strands pf e) (Process.start w) events) ∧
    ∀ p, run (Process.step pf) (Process.start w) events = .ok p → p.server.Lively := by
  have keeps (p : Process) (e : ProcessEvent) (p' : Process) (lively : p.server.Lively) (fair : p.Fair pf e)
      (stepped : p.step pf e = .ok p') : p'.server.Lively := ((p.step_comes pf bounded lively fair).of_ok stepped).1
  constructor
  · apply run_returns_iff (fun p : Process => p.server.Lively) keeps _ (Process.start_lively queues closed) fair
    intro p e lively fair
    have comes := p.step_comes pf bounded lively fair
    cases stepped : p.step pf e with
    | ok p' =>
      rw [stepped] at comes
      exact ⟨fun _ => comes.2, fun _ => ⟨p', rfl⟩⟩
    | error fault =>
      rw [stepped] at comes
      refine ⟨fun returned => ?_, fun fine => absurd comes fine⟩
      obtain ⟨p', same⟩ := returned
      cases same
  · exact fun p ran => run_invariant (fun p : Process => p.server.Lively) keeps
      (Process.start_lively queues closed) fair ran

/-- Players from some network are thrown out. -/
def guardedWorld : World := { openWorld with
  rules := [{ type := .ban, hostname := [ascii "example.net"], message := [ascii "not from there"] }] }

theorem guardedWorld_queues (i : Nat) : (guardedWorld.fe i).messageOut.AtEnd := by
  cases i with
  | zero => decide
  | succ i => exact Eq.refl 0

theorem guardedWorld_closed (i : Nat) :
    (guardedWorld.fe i).connected = false ∧ (guardedWorld.fe i).trusted = false := by
  cases i with
  | zero => decide
  | succ i => exact ⟨rfl, rfl⟩

/-- Claire comes from there, which is found out while the maintenance is at work. -/
def visit : List ProcessEvent := [
  .read ⟨0, some clearGreeting⟩,
  .read ⟨0, some (answerTo firstChallenge)⟩,
  .read ⟨0, some (encodeAll [.connect claireEntry])⟩,
  .proceed 0 (some (ascii "host.example.net")) noon [],
  .maintain 0 (fun _ => noon) ∅,
  .proceed 0 none noon []]

theorem visit_greeted : Yields (run (Process.step Platform.plain) (Process.start guardedWorld) (visit.take 1))
    (fun p => p.server.phase 0 = .auth 0 firstChallenge) fun _ => False := by decide +kernel

theorem visit_trusted : Yields (run (Process.step Platform.plain) (Process.start guardedWorld) (visit.take 2))
    (fun p => p.server.phase 0 = .main 0 ∧ (p.world.fe 0).maxPlayers = 16 ∧
      (p.world.fe 0).receive Platform.plain.aes ((encodeAll [.connect claireEntry]).take netReadLength) =
        .ok (some (encodeAll [.connect claireEntry]))) fun _ => False := by decide +kernel

theorem visit_fair : Allowed (Process.step Platform.plain) (Process.Fair Platform.plain)
    (Process.start guardedWorld) visit := by
  refine ⟨?_, fun p₁ first => ⟨?_, fun p₂ second => ⟨?_, fun p₃ _ => ⟨trivial, fun p₄ _ =>
    ⟨trivial, fun p₅ _ => ⟨trivial, fun _ _ => trivial⟩⟩⟩⟩⟩⟩
  · intro input read
    cases read
    have fits : GreetingFits (clearGreeting.take netReadLength) := by
      unfold GreetingFits
      decide +kernel
    refine ⟨fun _ => fits, fun a found => ?_, fun a _ => start_vacant guardedWorld a.fe⟩
    have live : a.fe < 1 := (findGreeted_live Platform.plain guardedWorld _).of_ok found a rfl
    rw [show a.fe = 0 by omega]
    exact ⟨rfl, _, rfl⟩
  · intro input read
    cases read
    have waits := visit_greeted.of_ok (run_cons [] first)
    have fits : AuthFits ((answerTo firstChallenge).take netReadLength) := by
      unfold AuthFits
      decide +kernel
    simp only [waits]
    exact fun _ => fits
  · intro input read
    cases read
    obtain ⟨session, room, received⟩ := visit_trusted.of_ok ((run_cons _ first).trans (run_cons [] second))
    simp only [session]
    refine .inr ⟨[.connect claireEntry], received, ⟨claire_userinfo, ?_⟩, fun _ _ => trivial⟩
    have kept := World.fe_update_field p₂.world 0 0 (f := fun fe =>
      { fe with message := Platform.plain.q2.newBuffer (encodeAll [.connect claireEntry]) })
      (fun fe => fe.maxPlayers) fun _ => rfl
    exact lt_of_lt_of_eq (show claireEntry.client.toNat < 16 by decide) (room ▸ kept).symm

theorem visit_ran : Yields (run (Process.step Platform.plain) (Process.start guardedWorld) visit)
    (fun p => p.due = []) fun _ => False := by decide +kernel

theorem process_run_visit : ∃ p,
    run (Process.step Platform.plain) (Process.start guardedWorld) visit = .ok p ∧ p.server.Lively := by
  obtain ⟨p, ran, -⟩ := visit_ran.returns
  exact ⟨p, ran, (process_run_iff Libq2.plain_bounded guardedWorld_queues guardedWorld_closed visit_fair).2 p ran⟩

/-- The same where Claire has left again before the answer comes. Her record has been cleared,
the host name is written there, and the rule matches a player without a frontend. -/
def shortVisit : List ProcessEvent := [
  .read ⟨0, some clearGreeting⟩,
  .read ⟨0, some (answerTo firstChallenge)⟩,
  .read ⟨0, some (encodeAll [.connect claireEntry])⟩,
  .read ⟨0, some (encodeAll [.disconnect 1])⟩,
  .proceed 0 (some (ascii "host.example.net")) noon [],
  .proceed 0 none noon []]

example : Yields (run (Process.step Platform.plain) (Process.start guardedWorld) shortVisit)
    (fun _ => False) (· = .nilFrontend) := by decide +kernel

/-- The same where her server has hung up in the second before the rules. -/
example : Yields (run (Process.step Platform.plain) (Process.start guardedWorld)
    (visit.take 4 ++ [.read ⟨0, none⟩, .proceed 0 none noon []]))
    (fun _ => False) (· = .nilConnection) := by decide +kernel

end Q2Admin
