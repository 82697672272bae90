import Mathlib.Data.List.TakeWhile
import Q2Admin.Occupants
import Q2Admin.PlayerRows
import Q2Admin.Process

/-! `Shutdown` writes the statistics of everybody, frontend by frontend, and goes by the
numbers in the records. Whatever the process has been through, each of them leads to a slot. -/

namespace Q2Admin
open Go Lib

/-- The turn of a frontend. An error is logged, and the next one has its turn. -/
def writeOut (w : World) (i : Nat) : Except Fault World := (writePlayers i w).map Prod.snd

/-- `Shutdown`, up to the database being closed. -/
def shutdown (w : World) : Except Fault World := run writeOut w (List.range w.frontends.length)

/-- The players that are written. The first record with a number from `MaxPlayers` on is an
error, and the last that is looked at. -/
def Frontend.written (fe : Frontend) : List Player :=
  ((fe.players.takeWhile fun p => p.clientID < (fe.maxPlayers : Int)).map fe.addressee).filter (·.connectTime ≠ 0)

/-! ## The numbers in the records -/

/-- A record has the number of its slot, or it is of nobody and has none. -/
def Frontend.Seated (fe : Frontend) : Prop := ∀ slot,
  (fe.player slot).clientID = slot ∨ (fe.player slot).clientID = 0 ∧ (fe.player slot).inUse = false

namespace Frontend.Seated
variable {fe fe' : Frontend}

theorem numbered (seated : fe.Seated) : fe.Numbered := fun slot used =>
  (seated slot).resolve_right fun free => Bool.false_ne_true (free.2.symm.trans used)

theorem of_players (seated : fe.Seated) (same : fe'.players = fe.players) : fe'.Seated := by
  intro slot
  rw [Frontend.player, same]
  exact seated slot

theorem of_empty (empty : fe.players = []) : fe.Seated := by
  intro slot
  rw [Frontend.player, empty]
  exact .inr ⟨rfl, rfl⟩

theorem of_seats {i : Nat} {w w' : World} (seated : (w.fe i).Seated)
    (same : w'.slots Player.seat i = w.slots Player.seat i) : (w'.fe i).Seated := by
  intro slot
  obtain ⟨number, joined⟩ := Prod.mk.inj (slots_player same slot)
  rw [number, Player.inUse, joined]
  exact seated slot

theorem set {slot : Nat} {p : Player} (seated : fe.Seated) (inside : slot < fe.players.length)
    (players : fe'.players = fe.players.set slot p)
    (fits : p.clientID = slot ∨ p.clientID = 0 ∧ p.inUse = false) : fe'.Seated := by
  intro k
  by_cases here : k = slot
  · rw [here, player_set inside players]
    exact fits
  · rw [player_set_ne here players]
    exact seated k

/-- Every number leads to a slot. -/
theorem valid (seated : fe.Seated) {p : Player} (member : p ∈ fe.players) :
    0 ≤ p.clientID ∧ p.clientID < fe.players.length := by
  obtain ⟨slot, inside, rfl⟩ := Frontend.mem_players member
  rcases seated slot with number | ⟨number, -⟩ <;> omega

theorem addressee (seated : fe.Seated) {p : Player} (member : p ∈ fe.players) (used : p.inUse = true) :
    fe.addressee p = p := by
  obtain ⟨slot, inside, rfl⟩ := Frontend.mem_players member
  rw [Frontend.addressee, seated.numbered slot used, Int.toNat_natCast]

end Frontend.Seated

/-! ## Handlers -/

section
variable {pf : Platform} {i : Nat} {w w' : World}

theorem touch_seat (f : Player → Player) (touch : Player.Touch f) (p : Player) : (f p).seat = p.seat := by
  cases touch with
  | counted f count => exact count_seat f count p
  | recorded | teleported | invited => rfl

/-- Frontend `i` is seated if it was before. -/
def World.StaysSeated (i : Nat) (w w' : World) : Prop := (w.fe i).Seated → (w'.fe i).Seated

theorem World.WorksBy.staysSeated {arrives : Prop} (works : w.WorksBy Player.Touch arrives i w') :
    World.StaysSeated i w w' :=
  fun seated => seated.of_seats (works.slots touch_seat ⟨{}, { clientID := 1 }, by decide⟩)

theorem onPlayer_seated (client : Byte) (userinfo version : Bytes) (w : World) :
    Yields (onPlayer pf i client userinfo version w) (fun result => World.StaysSeated i w result.2)
      fun _ => True := by
  cases stored : onPlayer pf i client userinfo version w with
  | error fault => trivial
  | ok result =>
    intro seated
    rcases onPlayer_joined i stored with ⟨-, rfl⟩ | ⟨-, -, info, id, -, joined⟩
    · exact seated
    · exact seated.set joined.inside joined.players (.inl rfl)

theorem onPlayerUpdate_seated (client : Byte) (userinfo : Bytes) (w : World) :
    Yields (onPlayerUpdate pf i client userinfo w) (World.StaysSeated i w) fun _ => True := by
  cases updated : onPlayerUpdate pf i client userinfo w with
  | error fault => trivial
  | ok w' =>
    intro seated
    rcases onPlayerUpdate_players i updated with ⟨-, rfl⟩ | ⟨slot, info, -, -, -, players⟩
    · exact seated
    · apply seated.of_seats
      rw [World.slots, players]
      exact map_modify_of_same (fun _ => by rfl) (w.fe i).players slot

theorem onDisconnect_seated (client : Byte) (w : World) : World.StaysSeated i w (onDisconnect i client w) := by
  intro seated
  rcases onDisconnect_cases i client w with same | removed
  · rwa [same]
  rw [removed]
  rcases removePlayer_players i client.toNat w with ⟨-, same⟩ | ⟨-, inside, players, -⟩
  · rwa [same]
  · exact seated.set inside players (.inr ⟨rfl, rfl⟩)

theorem Working.staysSeated {arrives : Prop} {x : Except Fault World} (working : Working Player.Touch arrives i w x) :
    Yields x (World.StaysSeated i w) fun _ => True :=
  working.mono (fun _ works => works.staysSeated) fun _ => id

variable (pf i) in
theorem staysSeated_handled : HandlersKeep pf i (World.StaysSeated i) where
  refl := fun _ seated => seated
  trans := fun first second seated => second (first seated)
  readByte := fun w =>
    (readByte_works pf i w).mono (fun _ works => (works : w.WorksBy _ True i _).staysSeated) fun _ => id
  readString := fun w =>
    (readString_works pf i w).mono (fun _ works => (works : w.WorksBy _ True i _).staysSeated) fun _ => id
  pong := fun w => (pong_working pf i w : Working _ True i w _).staysSeated
  print := fun level text w => (onPrint_working pf i (fun _ => id) level text w : Working _ True i w _).staysSeated
  map := fun mapname w => (.own _ rfl rfl : w.WorksBy _ True i (onMap i mapname w)).staysSeated
  player := onPlayer_seated
  connect := fun slot w => (startConnect_works i slot w : w.WorksBy _ True i _).staysSeated
  playerUpdate := onPlayerUpdate_seated
  disconnect := onDisconnect_seated
  teleport := fun client target w => (onTeleport_works pf i (fun _ => id) trivial client target w).staysSeated
  invite := fun client w => (onInvite_working pf i (fun _ => id) client w : Working _ True i w _).staysSeated

theorem trust_seated (w : World) : ((w.trust i).fe i).Seated := by
  by_cases live : i < w.frontends.length
  · have record : (w.trust i).fe i = (w.fe i).trust w.now.1 w.host.serverVars := World.fe_update_self w.now.2 live _
    intro slot
    rw [record, Frontend.player, Frontend.trust, List.getD_eq_getElem?_getD, List.getElem?_replicate]
    right
    split <;> exact ⟨rfl, rfl⟩
  · have nowhere : (w.trust i).fe i = {} := World.fe_outside _ (by rwa [World.trust, World.length_update])
    exact .of_empty (congrArg Frontend.players nowhere)

theorem serve_seated (input : Bytes) (w : World) :
    Yields (serve pf i input w) (fun next => World.StaysSeated i w next.2) fun _ => True := by
  unfold serve
  apply Yields.bind (Yields.top _)
  intro plaintext _ _
  cases plaintext with
  | none => exact fun seated => seated
  | some plaintext =>
    have filled : w.WorksBy Player.Touch True i (w.setMessage i (pf.q2.newBuffer plaintext)) := .setMessage _
    apply Yields.bind ((staysSeated_handled pf i).parseLoop _ _)
    intro w' _ read
    apply Yields.bind (sendMessages_working pf i w')
    intro w'' _ sent
    exact fun seated => (sent : w'.WorksBy _ True i w'').staysSeated (read (filled.staysSeated seated))

theorem trustClient_seated (w : World) : Yields (trustClient pf i w) (World.StaysSeated i w) fun _ => True := by
  apply Yields.bind (Yields.top _)
  exact fun w' _ _ _ => trust_seated w'

theorem judge_seated (input : Bytes) (w : World) :
    Yields (judge pf i input w) (fun next => World.StaysSeated i w next.2) fun _ => True := by
  unfold judge
  apply Yields.bind (Yields.top _)
  intro verdict _ _
  match verdict with
  | .error text =>
    apply Yields.bind (sendError_working pf i none 500 text w)
    exact fun w' _ works => (works : w.WorksBy _ True i w').staysSeated
  | .ok false => exact fun seated => seated
  | .ok true => exact Yields.bind (trustClient_seated w) fun _ _ seated => seated

end

/-! ## Whatever happens -/

/-- Every record of every frontend. -/
def World.AllSeated (w : World) : Prop := ∀ j, (w.fe j).Seated

namespace World.AllSeated
variable {w w' : World}

theorem of_atHome {j : Nat} (seated : w.AllSeated) (same : (w'.fe j).atHome = (w.fe j).atHome) : (w'.fe j).Seated := by
  have players : (w'.fe j).players = (w.fe j).players := by
    have players := congrArg Frontend.players same
    exact players
  exact (seated j).of_players players

/-- The work of a frontend, if it keeps its own seats. -/
theorem of_works {edits : (Player → Player) → Prop} {arrives : Prop} {i : Nat} (seated : w.AllSeated)
    (works : w.WorksBy edits arrives i w') (stays : w.StaysSeated i w') : w'.AllSeated := by
  intro j
  by_cases here : j = i
  · exact here ▸ stays (seated i)
  · exact seated.of_atHome (works.elsewhere here).1

theorem of_touches {arrives : Prop} {i : Nat} (seated : w.AllSeated) (works : w.WorksBy Player.Touch arrives i w') :
    w'.AllSeated :=
  seated.of_works works works.staysSeated

theorem update {i : Nat} {f : Frontend → Frontend} (seated : w.AllSeated)
    (players : ∀ fe, (f fe).players = fe.players) : (w.update i f).AllSeated :=
  fun j => (seated j).of_players (players_update players j i w)

end World.AllSeated

section
variable {pf : Platform}

theorem step_allSeated {s s' : Server} {e : Event} (seated : s.world.AllSeated) (stepped : s.step pf e = .ok s') :
    s'.world.AllSeated := by
  obtain ⟨next, rfl, outcome⟩ := Server.step_outcome stepped
  show next.2.AllSeated
  cases outcome with
  | nothing _ same => exact same ▸ seated
  | served i mine works going code =>
    apply seated.of_works works
    obtain ⟨input, ⟨own, -, judged⟩ | ⟨-, served⟩⟩ := code
    · exact (judge_seated input s.world).of_ok judged
    · exact (serve_seated input s.world).of_ok served
  | hungUp i mine lost same =>
    rw [same]
    exact seated.update fun _ => rfl
  | greeted a fresh admitted challenged =>
    have works : (s.world.update a.fe (Frontend.connect e.conn a.greeting)).WorksBy Player.Touch True a.fe next.2 :=
      ((challengeClient_worksBy pf e.conn a s.world).of_ok challenged).1
    have greeted : (s.world.update a.fe (Frontend.connect e.conn a.greeting)).AllSeated := seated.update fun _ => rfl
    exact greeted.of_touches works

/-- A record takes the place of one of the same seat. -/
theorem World.AllSeated.put {w : World} {i slot : Nat} {p : Player} (seated : w.AllSeated)
    (same : p.seat = ((w.fe i).player slot).seat) : (w.updatePlayer i slot fun _ => p).AllSeated := by
  have works : w.WorksBy AnyEdit True i (w.updatePlayer i slot fun _ => p) := .edit slot trivial
  apply seated.of_works works
  intro here
  apply here.of_seats
  rw [World.slots, players_updatePlayer, World.slots]
  ext1 n
  simp only [List.getElem?_map, List.getElem?_modify]
  by_cases there : slot = n
  · cases found : (w.fe i).players[n]? with
    | none => rfl
    | some old =>
      have stored : (w.fe i).player slot = old := by
        rw [Frontend.player, List.getD_eq_getElem?_getD, there, found]
        rfl
      rw [stored] at same
      simp [there, same]
  · simp [there]

variable {i : Nat} {w : World}

theorem applyRules_works (rules : List Rule) (p : Player) :
    w.WorksBy Player.Touch True i (w.update i fun _ => (applyRules pf.q2 rules (p, w.fe i)).2) := by
  have queues := queues_applyRules pf.q2 rules p
  rw [World.update_congr (g := fun fe => (applyRules pf.q2 rules (p, fe)).2) rfl]
  exact .queue queues

theorem maintainPlayers_working (clock : Nat → Nat → Time × Int) (cl : Frontend) (slots : List Nat) (w : World) :
    Working Player.Touch True i w (maintainPlayers pf i clock cl slots w) := by
  induction slots generalizing w with
  | nil => exact World.WorksBy.refl
  | cons slot rest ih =>
    have turn : Yields (maintainPlayer pf i (clock slot) cl slot w)
        (fun result => w.WorksBy Player.Touch True i result.2) fun _ => True := by
      unfold maintainPlayer
      simp only []
      split
      · exact World.WorksBy.refl
      split
      · exact World.WorksBy.refl
      · apply Yields.bind (sendMessages_working pf i _)
        exact fun _ _ sent => (applyRules_works _ _).trans sent
    exact .bindPair turn fun result => ih result.2

theorem maintainFrontend_works (clock : Nat → Nat → Time × Int) (vars : StringMap) (w : World) :
    Yields (maintainFrontend pf i clock vars w) (fun result => w.WorksBy Player.Touch True i result.2) fun _ => True := by
  unfold maintainFrontend
  simp only []
  split
  · exact World.WorksBy.refl
  · have granted : w.WorksBy Player.Touch True i (inviteBucketAdd i w) := World.WorksBy.now.trans (.own _ rfl rfl)
    apply Yields.bind (maintainPlayers_working clock (w.fe i) _ _)
    exact fun _ _ turns => granted.trans turns

namespace Process
variable {p : Process} {slot session : Nat}

theorem setRecord_seated {pl : Player} (seated : p.world.AllSeated) (same : pl.seat = (p.record i slot session).seat) :
    (p.setRecord i slot session pl).world.AllSeated := by
  unfold record at same
  unfold setRecord
  split
  · next current =>
    rw [if_pos current] at same
    exact seated.put same
  · exact seated

theorem applyDue_seated (seated : p.world.AllSeated) (clock : Nat → Time × Int) :
    Yields (p.applyDue pf i slot session clock) (fun p' => p'.world.AllSeated) fun _ => True := by
  have seat := checkEach_seat pf.rules (checksOf clock (p.world.ruleset i)) (p.record i slot session)
  unfold applyDue
  simp only []
  split
  · trivial
  split
  · exact setRecord_seated seated seat
  · let rules := (checkEach pf.rules (checksOf clock (p.world.ruleset i)) (p.record i slot session)).1
    let checked := (checkEach pf.rules (checksOf clock (p.world.ruleset i)) (p.record i slot session)).2
    let applied := applyRules pf.q2 rules ({ checked with rules := rules }, p.world.fe i)
    have told : p.world.WorksBy Player.Touch True i (p.world.update i fun _ => applied.2) :=
      applyRules_works rules { checked with rules := rules }
    have players : ((p.world.update i fun _ => applied.2).fe i).players = (p.world.fe i).players := by
      apply World.fe_update_holds p.world (fun fe => fe.players = (p.world.fe i).players) rfl
      exact fun _ => applyRules_players pf.q2 rules _ _
    have same : applied.1.seat =
        ((p.setWorld (p.world.update i fun _ => applied.2)).record i slot session).seat := by
      have applied_seat := applyRules_seat pf.q2 rules { checked with rules := rules } (p.world.fe i)
      rw [record_setWorld players]
      exact applied_seat.trans seat
    have placed := setRecord_seated (p := p.setWorld (p.world.update i fun _ => applied.2))
      (seated.of_touches told) same
    apply Yields.bind (sendMessages_working pf i _)
    exact fun w' _ sent => placed.of_touches (sent : World.WorksBy _ True i _ w')

/-- Reads, goroutines and the maintenance leave every record with a number that leads to a slot. -/
theorem step_seated (e : ProcessEvent) (seated : p.world.AllSeated) :
    Yields (p.step pf e) (fun p' => p'.world.AllSeated) fun _ => True := by
  cases e with
  | read e =>
    cases stepped : p.server.step pf e with
    | error fault =>
      simp only [step, read, stepped, Bind.bind, Except.bind]
      trivial
    | ok s =>
      simp only [step, read, stepped, Bind.bind, Except.bind]
      exact step_allSeated seated stepped
  | proceed k answer clock map =>
    simp only [step, proceed]
    cases p.due[k]? with
    | none => exact seated
    | some task =>
      cases task with
      | lookup i slot session => exact setRecord_seated seated rfl
      | rules i slot session => exact applyDue_seated (p := { p with due := p.due.eraseIdx k }) seated clock
      | changeMap i =>
        exact seated.update fun fe => (Queues.consoleCommand pf.q2 _).players fe
  | maintain i clock vars =>
    apply Yields.bind (maintainFrontend_works clock vars p.world)
    exact fun _ _ works => seated.of_touches works

end Process

/-! ## The rows -/

/-- Nothing has happened but that rows were added, one for each of the players if inserts succeed. -/
structure Wrote (players : List Player) (w w' : World) : Prop where
  frontends : w'.frontends = w.frontends
  host : w'.host = w.host
  shared : w'.rules = w.rules ∧ w'.tasks = w.tasks ∧ w'.wire = w.wire
  rows : (∀ n, (w.host.insertID n).isSome = true) → ∃ rows, w'.playerStats = w.playerStats ++ rows ∧
    List.Forall₂ (PlayerStat.Holds w.host) players rows

namespace Wrote
variable {w' w'' : World} {players others : List Player}

theorem nothing : Wrote [] w w := ⟨rfl, rfl, ⟨rfl, rfl, rfl⟩, fun _ => ⟨[], (List.append_nil _).symm, .nil⟩⟩

theorem trans (first : Wrote players w w') (second : Wrote others w' w'') : Wrote (players ++ others) w w'' where
  frontends := second.frontends.trans first.frontends
  host := second.host.trans first.host
  shared := ⟨second.shared.1.trans first.shared.1, second.shared.2.1.trans first.shared.2.1,
    second.shared.2.2.trans first.shared.2.2⟩
  rows := by
    intro inserts
    obtain ⟨rows, added, hold⟩ := first.rows inserts
    obtain ⟨more, addedToo, holdToo⟩ := second.rows (first.host ▸ inserts)
    refine ⟨rows ++ more, by rw [addedToo, added, List.append_assoc], ?_⟩
    exact List.rel_append hold (first.host ▸ holdToo)

theorem fe (wrote : Wrote players w w') (j : Nat) : w'.fe j = w.fe j := by
  rw [World.fe, wrote.frontends, World.fe]

end Wrote

/-- A number that leads to a slot below `MaxPlayers` adds the row of the player there, if there is one. -/
theorem tryWritePlayer_wrote {client : Int} (low : 0 ≤ client) (high : client < (w.fe i).players.length)
    (within : client < (w.fe i).maxPlayers) : ∃ err w', tryWritePlayer i client w = .ok (err, w') ∧
      ((∀ n, (w.host.insertID n).isSome = true) → err = none) ∧
      Wrote ([(w.fe i).player client.toNat].filter (·.connectTime ≠ 0)) w w' := by
  have allowed : ¬ (client < 0 ∨ (w.fe i).maxPlayers ≤ client) := by omega
  rw [tryWritePlayer, if_neg allowed, if_neg (by omega)]
  by_cases free : ((w.fe i).player client.toNat).connectTime = 0
  · rw [if_pos free]
    exact ⟨none, w, rfl, fun _ => rfl, by simpa [free] using Wrote.nothing⟩
  rw [if_neg free]
  have inside : ¬ ((w.fe i).maxPlayers ≤ client.toNat ∨ ((w.fe i).player client.toNat).connectTime = 0) := by omega
  unfold writePlayer
  simp only [inside, ↓reduceIte]
  cases inserted : w.now.2.insert.1 with
  | none =>
    refine ⟨_, _, rfl, fun inserts => ?_, ⟨rfl, rfl, ⟨rfl, rfl, rfl⟩, fun inserts => ?_⟩⟩
    all_goals
      have there : w.now.2.insert.1.isSome = true := inserts w.inserts
      rw [inserted] at there
      cases there
  | some id =>
    refine ⟨_, _, rfl, fun _ => rfl, ⟨rfl, rfl, ⟨rfl, rfl, rfl⟩, fun _ => ⟨_, rfl, ?_⟩⟩⟩
    simpa [free] using ⟨w.clockReads, rfl⟩

/-- The records up to the first number that is an error add the rows of those they lead to. -/
theorem writeEach_wrote {fe : Frontend} (targets : List Player)
    (valid : ∀ p ∈ targets, 0 ≤ p.clientID ∧ p.clientID < fe.players.length) (w : World) (here : w.fe i = fe) :
    ∃ err w', writeEach i targets w = .ok (err, w') ∧
      Wrote (((targets.takeWhile fun p => p.clientID < (fe.maxPlayers : Int)).map fe.addressee).filter
        (·.connectTime ≠ 0)) w w' := by
  induction targets generalizing w with
  | nil => exact ⟨none, w, rfl, Wrote.nothing⟩
  | cons p rest ih =>
    obtain ⟨low, high⟩ := valid p List.mem_cons_self
    by_cases within : p.clientID < fe.maxPlayers
    · obtain ⟨err, w₁, first, fine, wrote⟩ :=
        tryWritePlayer_wrote low (here ▸ high) (show p.clientID < (w.fe i).maxPlayers from here ▸ within)
      cases err with
      | some err =>
        refine ⟨some err, w₁, ?_, wrote.frontends, wrote.host, wrote.shared, fun inserts => ?_⟩
        · rw [writeEach, first]
          rfl
        cases fine inserts
      | none =>
        obtain ⟨err, w₂, others, wroteToo⟩ :=
          ih (fun q member => valid q (List.mem_cons_of_mem p member)) w₁ ((wrote.fe i).trans here)
        refine ⟨err, w₂, by rw [writeEach, first]; exact others, ?_⟩
        have parts : (((p :: rest).takeWhile fun p => p.clientID < (fe.maxPlayers : Int)).map fe.addressee).filter
            (·.connectTime ≠ 0) = [fe.addressee p].filter (·.connectTime ≠ 0) ++
              ((rest.takeWhile fun p => p.clientID < (fe.maxPlayers : Int)).map fe.addressee).filter
                (·.connectTime ≠ 0) := by
          rw [← List.filter_append, List.takeWhile_cons_of_pos (by simpa using within)]
          rfl
        rw [parts]
        exact (here ▸ wrote).trans wroteToo
    · have stops : tryWritePlayer i p.clientID w = .ok (some (.invalidClient p.clientID), w) := by
        rw [tryWritePlayer, here, if_pos (.inr (by omega))]
      refine ⟨some (.invalidClient p.clientID), w, by rw [writeEach, stops]; rfl, ?_⟩
      rw [List.takeWhile_cons_of_neg (by simpa using within)]
      exact Wrote.nothing

theorem writeOut_wrote (seated : w.AllSeated) (i : Nat) :
    ∃ w', writeOut w i = .ok w' ∧ Wrote (w.fe i).written w w' := by
  obtain ⟨err, w', done, wrote⟩ := writeEach_wrote (w.fe i).players (fun p member => (seated i).valid member) w rfl
  refine ⟨w', ?_, wrote⟩
  rw [writeOut, writePlayers, done]
  rfl

theorem writeOut_run (seated : w.AllSeated) (order : List Nat) :
    ∃ w', run writeOut w order = .ok w' ∧ Wrote (order.flatMap fun i => (w.fe i).written) w w' := by
  induction order generalizing w with
  | nil => exact ⟨w, rfl, Wrote.nothing⟩
  | cons i rest ih =>
    obtain ⟨w₁, first, wrote⟩ := writeOut_wrote seated i
    obtain ⟨w₂, others, wroteToo⟩ := ih (w := w₁) fun j => wrote.fe j ▸ seated j
    refine ⟨w₂, (run_cons rest first).trans others, ?_⟩
    simp only [wrote.fe] at wroteToo
    exact wrote.trans wroteToo

theorem map_fe (w : World) : (List.range w.frontends.length).map w.fe = w.frontends := by
  apply List.ext_getElem (by simp)
  intro n _ live
  simp [World.fe, List.getD_eq_getElem?_getD, live]

/-- Whoever is in use is written, where all slots are below `MaxPlayers`. -/
theorem Frontend.Seated.written {fe : Frontend} (seated : fe.Seated) (room : fe.players.length ≤ fe.maxPlayers)
    {p : Player} (member : p ∈ fe.players) (used : p.inUse = true) : p ∈ fe.written := by
  have everyone : (fe.players.takeWhile fun p => p.clientID < (fe.maxPlayers : Int)) = fe.players := by
    rw [List.takeWhile_eq_self_iff]
    intro q present
    have valid := seated.valid present
    exact decide_eq_true (by omega)
  rw [Frontend.written, everyone, List.mem_filter, List.mem_map]
  refine ⟨⟨p, member, seated.addressee member used⟩, decide_eq_true ?_⟩
  simp only [Player.inUse, decide_eq_true_eq] at used
  omega

end

/-- Whatever the game servers send, and however goroutines and maintenance come in between:
when the process is shut down the range over all frontends comes to its end, and every player
in use has his statistics written, unless his frontend has last greeted with fewer slots than
the players are in. Nobody is written but those the numbers lead to, in that order. -/
theorem shutdown_writes {pf : Platform} {w : World} {events : List ProcessEvent} {p : Process}
    (empty : ∀ i, (w.fe i).players = []) (ran : run (Process.step pf) (Process.start w) events = .ok p) :
    ∃ w', shutdown p.world = .ok w' ∧ Wrote (p.world.frontends.flatMap Frontend.written) p.world w' ∧
      ∀ fe ∈ p.world.frontends, fe.players.length ≤ fe.maxPlayers →
        ∀ q ∈ fe.players, q.inUse = true → q ∈ fe.written := by
  have start : (Process.start w).world.AllSeated := fun i => .of_empty (empty i)
  have seated : p.world.AllSeated := run_invariant (fun p : Process => p.world.AllSeated)
    (fun _ e _ seated _ stepped => (Process.step_seated e seated).of_ok stepped) start (allowed_all _ _) ran
  obtain ⟨w', done, wrote⟩ := writeOut_run seated (List.range p.world.frontends.length)
  refine ⟨w', done, ?_, ?_⟩
  · have everyone := congrArg (List.flatMap Frontend.written) (map_fe p.world)
    rw [List.flatMap_map] at everyone
    exact everyone ▸ wrote
  · intro fe member room q present used
    obtain ⟨i, live, rfl⟩ := List.mem_iff_getElem.mp member
    have mine := seated i
    have here : p.world.fe i = p.world.frontends[i] := by simp [World.fe, List.getD_eq_getElem?_getD, live]
    rw [here] at mine
    exact mine.written room present used

theorem visit_seated : Yields (run (Process.step Platform.plain) (Process.start guardedWorld) (visit.take 3))
    (fun p => p.due = [.lookup 0 1 1]) fun _ => False := by decide +kernel

/-- The process is shut down while Claire is there. -/
theorem shutdown_writes_visit : ∃ p w',
    run (Process.step Platform.plain) (Process.start guardedWorld) (visit.take 3) = .ok p ∧
      shutdown p.world = .ok w' ∧ Wrote (p.world.frontends.flatMap Frontend.written) p.world w' := by
  have empty : ∀ i, (guardedWorld.fe i).players = [] := by
    intro i
    cases i with
    | zero => decide
    | succ i => rfl
  obtain ⟨p, ran, -⟩ := visit_seated.returns
  obtain ⟨w', done, wrote, -⟩ := shutdown_writes empty ran
  exact ⟨p, w', ran, done, wrote⟩

end Q2Admin
