import Q2Admin.RuleActions
import Q2Admin.Slots

/-! When the rules are applied: after a connect, once the goroutine of `ParseConnect` has looked
up the host name. A change of userinfo brings the player another name, and no rule is looked at. -/

namespace Q2Admin
open Go Lib

/-! ## The goroutine -/

/-- The first host name of the answer, if there is one. -/
def Player.lookedUp (answer : Option Bytes) (p : Player) : Player :=
  { p with hostname := answer.getD p.hostname }

/-- The command that throws a client off the server. -/
def kickOf (client : Int) : ServerMessage := .command (ascii "kick " ++ decimal client ++ ascii "\n")

theorem rulesSay_kick {rules : List Rule} {p : Player} (banned : ∃ r ∈ rules, r.type = .ban) :
    kickOf p.clientID ∈ rulesSay rules p := by
  induction rules generalizing p with
  | nil => simp at banned
  | cons r rest ih =>
    cases type : r.type with
    | ban =>
      simp only [rulesSay, type]
      exact List.mem_append_right _ (List.mem_singleton.mpr rfl)
    | mute =>
      simp only [rulesSay, type]
      exact List.mem_append_right _ (ih (p := { p with muted := true }) (by simpa [type] using banned))
    | stifle =>
      have later : ∃ r ∈ rest, r.type = .ban := by simpa [type] using banned
      simp only [rulesSay, type]
      split
      · exact ih later
      · exact List.mem_append_right _ (ih (p := { p with stifled := true, stifleLength := r.stifleLength }) later)
    | message =>
      simp only [rulesSay, type]
      exact List.mem_append_right _ (ih (by simpa [type] using banned))

section
variable (pf : Platform) (i : Nat)

/-- The rules of the frontend and those for all. -/
def World.ruleset (w : World) : List Rule := (w.fe i).rules ++ w.rules

/-- The goroutine of `ParseConnect`, given the answer of the lookup and the clock that is read
in the checks. -/
def finishConnect (slot : Nat) (answer : Option Bytes) (clock : Nat → Time × Int) (w : World) :
    Except Fault World :=
  let (rules, p) := checkRules pf.rules clock (w.ruleset i) (((w.fe i).player slot).lookedUp answer)
  if rules = [] then .ok (w.updatePlayer i slot fun _ => p)
  else
    let p := { p with rules := rules }
    applyMatchedRules pf i slot rules (w.updatePlayer i slot fun _ => p)

/-- A packet as it is read at the other end. -/
def Frontend.opened (fe : Frontend) (packet : Bytes) : Bytes :=
  if fe.trusted && fe.encrypted then
    match symmetricDecrypt pf.aes fe.symmetricKey fe.initVector packet with
    | .ok (plaintext, _) => plaintext
    | .error _ => []
  else packet

/-- What has been queued between two worlds: the packets that have gone out meanwhile and what
is in the queue, less what was in it before. -/
def queuedBetween (w w' : World) : Bytes :=
  (((w'.wire.drop w.wire.length).flatMap fun sent => (w.fe i).opened pf sent.2) ++
    (w'.fe i).messageOut.data).drop (w.fe i).messageOut.data.length

/-! ## Turns -/

/-- A message, and when it has been dealt with. A connect is dealt with to the end of its
goroutine. -/
inductive Turn where
  | connect (e : PlayerEntry) (answer : Option Bytes) (clock : Nat → Time × Int) (done : Int)
  | update (client : Byte) (userinfo : WireString) (done : Int)

def Turn.done : Turn → Int
  | connect _ _ _ done | update _ _ done => done

/-- A world under observation. -/
structure Watch where
  world : World
  /-- What has been queued in the goroutines since the data in a slot last changed. -/
  since : Nat → Bytes
  /-- The latest time at which a message has been dealt with. -/
  clock : Int

/-- `ParsePlayerUpdate` rewrites the data in this slot. -/
def Frontend.Rewritten (fe : Frontend) (client : Byte) (userinfo : WireString) (slot : Nat) : Prop :=
  fe.findPlayer client.toNat = some slot ∧ md5Hash pf.keys userinfo.val ≠ (fe.player slot).userInfoHash

instance (fe : Frontend) (client : Byte) (userinfo : WireString) (slot : Nat) :
    Decidable (fe.Rewritten pf client userinfo slot) := inferInstanceAs (Decidable (_ ∧ _))

def takeTurn (s : Watch) (turn : Turn) : Except Fault Watch :=
  let clock := max s.clock turn.done
  match turn with
  | .connect e answer readings _ => do
    let (slot, w) ← deliverPlayer pf i e (s.world.advance i 1)
    match slot with
    | none => .ok ⟨w, s.since, clock⟩
    | some slot =>
      let w' ← finishConnect pf i slot answer readings w
      let queued := queuedBetween pf i w w'
      .ok ⟨w', fun k => if k = slot then queued else s.since k ++ queued, clock⟩
  | .update client userinfo _ => do
    let w ← deliver pf i s.world (.playerUpdate client userinfo)
    .ok ⟨w, fun k => if (s.world.fe i).Rewritten pf client userinfo k then [] else s.since k, clock⟩

/-- Some ban without a timespec matches the player at some time from then on. -/
def Barred (rules : List Rule) (start : Int) (p : Player) : Prop :=
  ∃ r ∈ rules, r.type = .ban ∧ r.timespec = {} ∧
    ∃ (t : Time) (now : Int), start ≤ t.unix ∧ start ≤ now ∧ (checkRule pf.rules p r t now).1 = true

/-- The bytes are those of messages with a kick of this client among them. -/
def KickQueued (client : Int) (bytes : Bytes) : Prop :=
  ∃ messages, bytes = encodeServer messages ∧ kickOf client ∈ messages

/-- Whoever is connected and barred has been told to be kicked since the data last changed. -/
def Enforced (s : Watch) : Prop := ∀ slot, ((s.world.fe i).player slot).inUse = true →
  Barred pf (s.world.ruleset i) s.clock ((s.world.fe i).player slot) →
    KickQueued ((s.world.fe i).player slot).clientID (s.since slot)

/-- The queue is written at its end, and a trusted frontend has keys that fit. -/
structure Frontend.Sends (fe : Frontend) : Prop where
  atEnd : fe.messageOut.AtEnd
  keys : fe.trusted = true → fe.KeysFit

/-- Nobody is connected yet, and nothing has been queued. -/
structure Watch.Opened (s : Watch) : Prop where
  sends : (s.world.fe i).Sends
  free : ∀ slot, ((s.world.fe i).player slot).inUse = false
  silent : ∀ slot, s.since slot = []

/-- The player of an entry, with the host name that is found for it. -/
def PlayerEntry.player (e : PlayerEntry) (answer : Option Bytes) (info : StringMap) (w : World) : Player :=
  (newPlayer pf.keys e.client e.userinfo.val e.version.val info w.now.1).lookedUp answer

/-- A player who connects and is or will be barred matches some ban at once, and a player who
changes is not and will not be barred. -/
def Turn.Sound (s : Watch) : Turn → Prop
  | connect e answer readings done => ∀ info, userinfoMap e.userinfo.val = .ok info →
    Barred pf (s.world.ruleset i) (max s.clock done) (e.player pf answer info s.world) →
      ∃ c ∈ checksOf readings (s.world.ruleset i), c.rule.type = .ban ∧
        (checkRule pf.rules (e.player pf answer info s.world) c.rule c.t c.now).1 = true
  | update client userinfo done => ∀ slot info, (s.world.fe i).Rewritten pf client userinfo slot →
    userinfoMap userinfo.val = .ok info →
      ¬ Barred pf (s.world.ruleset i) (max s.clock done)
        (((s.world.fe i).player slot).setUserinfo info (md5Hash pf.keys userinfo.val))

end

/-! ## What a verdict depends on -/

/-- What `CheckRule` reads of a player. -/
def Player.subject (p : Player) : Player where
  name := p.name
  hostname := p.hostname
  ip := p.ip
  userinfoMap := p.userinfoMap
  vpn := p.vpn
  connectTime := p.connectTime

section
variable {lib : RuleLib} {p q : Player}

theorem userInfoLoop_subject (pairs : List UserInfo) (c : Counters) :
    userInfoLoop lib p.subject pairs c = userInfoLoop lib p pairs c := by
  induction pairs generalizing c with
  | nil => rfl
  | cons ui rest ih => exact ih _

theorem countCriteria_subject (r : Rule) (t : Time) : countCriteria lib p.subject r t = countCriteria lib p r t := by
  have pairs : userInfoBlock lib p.subject r = userInfoBlock lib p r := by
    funext c
    unfold userInfoBlock
    rw [userInfoLoop_subject]
  unfold countCriteria
  rw [pairs]
  rfl

theorem checkRule_subject (r : Rule) (t : Time) (now : Int) :
    (checkRule lib p.subject r t now).1 = (checkRule lib p r t now).1 := by
  have verdict (p : Player) := congrArg Prod.fst (checkRule_eq lib p ⟨r, t, now⟩)
  have same : Check.counted lib p.subject ⟨r, t, now⟩ = Check.counted lib p ⟨r, t, now⟩ := by
    unfold Check.counted
    rw [countCriteria_subject]
  rw [verdict, verdict]
  simp only [Check.applies, Check.touches, Check.meets, same]
  rfl

theorem checkRule_congr (same : p.subject = q.subject) (r : Rule) (t : Time) (now : Int) :
    (checkRule lib p r t now).1 = (checkRule lib q r t now).1 := by
  rw [← checkRule_subject (p := p), same, checkRule_subject]

end

section
variable {pf : Platform} {i slot : Nat} {w w' : World}

theorem Barred.congr {p q : Player} {rules : List Rule} {start later : Int} (same : p.subject = q.subject)
    (earlier : start ≤ later) (barred : Barred pf rules later p) : Barred pf rules start q := by
  obtain ⟨r, member, ban, timeless, t, now, after, behind, matched⟩ := barred
  exact ⟨r, member, ban, timeless, t, now, earlier.trans after, earlier.trans behind,
    checkRule_congr same r t now ▸ matched⟩

/-! ## What the turns do -/

theorem applyRules_subject (q2 : Libq2) (rules : List Rule) (p : Player) (fe : Frontend) :
    (applyRules q2 rules (p, fe)).1.subject = p.subject ∧ (applyRules q2 rules (p, fe)).1.clientID = p.clientID := by
  induction rules generalizing p fe with
  | nil => exact ⟨rfl, rfl⟩
  | cons r rest ih =>
    simp only [applyRules]
    split
    · exact ⟨rfl, rfl⟩
    · exact ih _ _
    · split
      · exact ih p fe
      · exact ih _ _
    · exact ih p _

theorem ruleset_of_frames (frames : w'.frames = w.frames) (setting : w'.setting = w.setting) :
    w'.ruleset i = w.ruleset i := by
  have own := World.field_of_frames frames i (fun fe => fe.rules) fun _ => rfl
  have all : w'.rules = w.rules := congrArg Prod.snd setting
  rw [World.ruleset, own, all, World.ruleset]

/-- The rules change the player in the slot, whom they know by the same data, and no one else. -/
theorem applyMatchedRules_players {rules : List Rule} (some : rules ≠ []) (inside : slot < (w.fe i).players.length)
    (applied : applyMatchedRules pf i slot rules w = .ok w') :
    ∃ q, (w'.fe i).players = (w.fe i).players.set slot q ∧ q.subject = ((w.fe i).player slot).subject ∧
      q.clientID = ((w.fe i).player slot).clientID ∧ w'.ruleset i = w.ruleset i := by
  rw [applyMatchedRules, if_neg some] at applied
  obtain ⟨subject, client⟩ := applyRules_subject pf.q2 rules ((w.fe i).player slot) (w.fe i)
  have queues := (says_applyRules pf.q2 rules ((w.fe i).player slot)).toQueues.only (w.fe i)
  obtain ⟨players, setting⟩ := (sendMessages_players pf i _).of_ok applied
  have kept := (sendMessages_kept pf i _).of_ok applied
  refine ⟨_, ?_, subject, client, ?_⟩
  · rw [players, World.fe_update_self w (live_of_slot inside), queues]
  · rw [ruleset_of_frames kept.frames setting]
    refine ruleset_of_frames (World.frames_update ?_) rfl
    rw [queues]
    simp [Frontend.frame]

/-! ## What the goroutine queues -/

theorem KickQueued.append {client : Int} {bytes more : Bytes} {messages : List ServerMessage}
    (kick : KickQueued client bytes) (said : more = encodeServer messages) : KickQueued client (bytes ++ more) := by
  obtain ⟨before, rfl, member⟩ := kick
  refine ⟨before ++ messages, ?_, List.mem_append_left _ member⟩
  rw [said, encodeServer, encodeServer, encodeServer, List.flatMap_append]

/-- What a flush sends, opened at the other end, and what it leaves are what was queued. -/
theorem flush_opened {fe : Frontend} {result : Frontend × List (ConnId × Bytes)} (sends : fe.Sends)
    (flushed : fe.flush pf = .ok result) :
    (result.2.flatMap fun sent => fe.opened pf sent.2) ++ result.1.messageOut.data = fe.messageOut.data := by
  have whole : fe.messageOut.data.take fe.messageOut.index = fe.messageOut.data := by
    rw [sends.atEnd, List.take_length]
  unfold Frontend.flush at flushed
  split at flushed
  next empty =>
    cases flushed
    rfl
  next some =>
    have reset (queue : Buffer) : (pf.q2.reset queue).data = [] := by rw [pf.q2.reset_eq]
    by_cases encrypts : (fe.trusted && fe.encrypted) = true
    case pos =>
      have both : fe.trusted = true ∧ fe.encrypted = true := by simpa using encrypts
      have keys := sends.keys both.1 both.2
      simp only [Frontend.encryptQueue, if_pos encrypts, whole, symmetricEncrypt_eq pf.aes keys.1 keys.2, Bind.bind,
        Except.bind] at flushed
      cases connected : fe.connection with
      | none => simp [connected] at flushed
      | some c =>
        simp only [connected, Except.ok.injEq] at flushed
        subst flushed
        simp [Frontend.opened, encrypts, reset, pf.q2.newBuffer_eq, symmetricDecrypt_encrypted pf.aes keys.1 keys.2]
    case neg =>
      simp only [Frontend.encryptQueue, if_neg encrypts, Bind.bind, Except.bind] at flushed
      cases connected : fe.connection with
      | none => simp [connected] at flushed
      | some c =>
        simp only [connected, Except.ok.injEq] at flushed
        subst flushed
        simp only [Frontend.opened, if_neg encrypts, reset, List.flatMap_cons, List.flatMap_nil, List.append_nil]

theorem applyMatchedRules_queued {rules : List Rule} (some : rules ≠ []) (inside : slot < (w.fe i).players.length)
    (sends : (w.fe i).Sends) (applied : applyMatchedRules pf i slot rules w = .ok w') :
    queuedBetween pf i w w' = encodeServer (rulesSay rules ((w.fe i).player slot)) ∧ (w'.fe i).Sends := by
  have live := live_of_slot inside
  have spoken := says_applyRules pf.q2 rules ((w.fe i).player slot)
  have only := spoken.toQueues.only (w.fe i)
  have appends := spoken.appends (w.fe i) sends.atEnd
  rw [applyMatchedRules, if_neg some] at applied
  generalize applyRules pf.q2 rules ((w.fe i).player slot, w.fe i) = out at *
  obtain ⟨p, fe⟩ := out
  change fe = { w.fe i with messageOut := fe.messageOut } at only
  let asked : Frontend := { fe with players := fe.players.set slot p }
  have ready : asked.Sends := by
    refine ⟨appends.atEnd, ?_⟩
    show fe.trusted = true → asked.KeysFit
    simp only [asked]
    rw [only]
    exact sends.keys
  have same (packet : Bytes) : asked.opened pf packet = (w.fe i).opened pf packet := by
    simp only [asked]
    rw [only]
    rfl
  let before := w.update i fun _ => asked
  have live' : i < before.frontends.length := by
    rw [World.length_update]
    exact live
  have sending : sendMessages pf i before = .ok w' := applied
  rw [sendMessages, show before.fe i = asked from World.fe_update_self w live _] at sending
  cases flushed : asked.flush pf with
  | error fault => simp [flushed, Bind.bind, Except.bind] at sending
  | ok result =>
    simp only [flushed, Bind.bind, Except.bind, Except.ok.injEq] at sending
    subst sending
    have opened := flush_opened ready flushed
    have sent := (flush_sent pf asked).of_ok flushed
    constructor
    · have wire : (before.sent i result).wire.drop w.wire.length = result.2 := List.drop_left
      simp only [same] at opened
      rw [queuedBetween, wire, sent_fe live' result, opened]
      show fe.messageOut.data.drop _ = _
      rw [appends.data, List.drop_left]
    · rw [sent_fe live' result]
      refine ⟨sent.atEnd ready.atEnd, fun trusted => sent.keysFit (ready.keys ?_)⟩
      exact (sent.field (fun fe => fe.trusted) fun _ => rfl).symm.trans trusted

/-- A record is put into the slot, and the rules are as before. -/
theorem updatePlayer_const (w : World) (i slot : Nat) (p : Player) :
    ((w.updatePlayer i slot fun _ => p).fe i).players = (w.fe i).players.set slot p ∧
      (w.updatePlayer i slot fun _ => p).ruleset i = w.ruleset i := by
  have rules := w.fe_update_field i i (fun fe => fe.rules) (f := fun fe => fe.updatePlayer slot fun _ => p)
    fun _ => rfl
  refine ⟨?_, congrArg (· ++ w.rules) rules⟩
  rw [players_updatePlayer, List.set_eq_modify]

theorem queuedBetween_updatePlayer (inside : slot < (w.fe i).players.length) (f : Player → Player) :
    queuedBetween pf i (w.updatePlayer i slot f) w' = queuedBetween pf i w w' := by
  have here : (w.updatePlayer i slot f).fe i = (w.fe i).updatePlayer slot f :=
    World.fe_update_self w (live_of_slot inside) _
  unfold queuedBetween
  rw [here]
  rfl

/-- Nothing is queued by a change of a record. -/
theorem queuedBetween_self (inside : slot < (w.fe i).players.length) (f : Player → Player) :
    queuedBetween pf i w (w.updatePlayer i slot f) = [] := by
  have here : (w.updatePlayer i slot f).fe i = (w.fe i).updatePlayer slot f :=
    World.fe_update_self w (live_of_slot inside) _
  have wire : (w.updatePlayer i slot f).wire.drop w.wire.length = [] := List.drop_length
  rw [queuedBetween, here, wire]
  exact List.drop_length

theorem sends_updatePlayer (sends : (w.fe i).Sends) (f : Player → Player) :
    ((w.updatePlayer i slot f).fe i).Sends :=
  World.fe_update_holds w Frontend.Sends sends fun sends => ⟨sends.atEnd, sends.keys⟩

/-- The goroutine leaves a player with the same data and the host name, and if some ban
matched in a check, it has queued a kick. -/
theorem finishConnect_kicks {answer : Option Bytes} {clock : Nat → Time × Int}
    (inside : slot < (w.fe i).players.length) (sends : (w.fe i).Sends)
    (finished : finishConnect pf i slot answer clock w = .ok w') :
    (w'.fe i).Sends ∧ ∃ q messages, (w'.fe i).players = (w.fe i).players.set slot q ∧
      q.subject = (((w.fe i).player slot).lookedUp answer).subject ∧ w'.ruleset i = w.ruleset i ∧
      queuedBetween pf i w w' = encodeServer messages ∧
      ((∃ c ∈ checksOf clock (w.ruleset i), c.rule.type = .ban ∧
        (checkRule pf.rules (((w.fe i).player slot).lookedUp answer) c.rule c.t c.now).1 = true) →
          kickOf q.clientID ∈ messages) := by
  unfold finishConnect at finished
  rw [checkRules_eq] at finished
  generalize player : ((w.fe i).player slot).lookedUp answer = p at *
  generalize matched : (((checksOf clock (w.ruleset i)).filter fun c => c.applies pf.rules p).map Check.rule) =
    rules at *
  have ban_matched (some : ∃ c ∈ checksOf clock (w.ruleset i), c.rule.type = .ban ∧
      (checkRule pf.rules p c.rule c.t c.now).1 = true) : ∃ r ∈ rules, r.type = .ban := by
    obtain ⟨c, member, ban, applies⟩ := some
    rw [checkRule_eq] at applies
    exact ⟨c.rule, matched ▸ List.mem_map.mpr ⟨c, List.mem_filter.mpr ⟨member, applies⟩, rfl⟩, ban⟩
  simp only at finished
  split at finished
  next none =>
    cases finished
    obtain ⟨players, same⟩ := updatePlayer_const w i slot (p.withMarks (marksAfter pf.rules p
      (checksOf clock (w.ruleset i)) ⟨p.muted, p.stifled, p.stifleLength⟩))
    refine ⟨sends_updatePlayer sends _, _, [], players, rfl, same, queuedBetween_self inside _, fun some => ?_⟩
    obtain ⟨r, member, -⟩ := ban_matched some
    rw [none] at member
    cases member
  next some =>
    let left : Player := { p.withMarks (marksAfter pf.rules p (checksOf clock (w.ruleset i))
      ⟨p.muted, p.stifled, p.stifleLength⟩) with rules := rules }
    obtain ⟨players, same⟩ := updatePlayer_const w i slot left
    have here := Frontend.player_set inside players
    have seat : slot < ((w.updatePlayer i slot fun _ => left).fe i).players.length := by
      rw [players, List.length_set]
      exact inside
    have applied : applyMatchedRules pf i slot rules (w.updatePlayer i slot fun _ => left) = .ok w' := finished
    obtain ⟨q, changed, subject, client, kept⟩ := applyMatchedRules_players some seat applied
    obtain ⟨queued, sends'⟩ := applyMatchedRules_queued some seat (sends_updatePlayer sends _) applied
    rw [queuedBetween_updatePlayer inside] at queued
    rw [here] at subject client queued
    refine ⟨sends', q, _, by rw [changed, players, List.set_set], subject, kept.trans same, queued, fun some => ?_⟩
    rw [client]
    exact rulesSay_kick (ban_matched some)

theorem onPlayerUpdate_setting (client : Byte) (userinfo : Bytes) (w : World) :
    Yields (onPlayerUpdate pf i client userinfo w) (fun w' => w'.setting = w.setting) fun _ => True := by
  simp only [onPlayerUpdate]
  split
  · exact rfl
  split
  · exact rfl
  cases userinfoMap userinfo with
  | error fault => trivial
  | ok info =>
    simp only [Bind.bind, Except.bind]
    split <;> exact rfl

theorem Frontend.Sends.of_keeps (sends : (w.fe i).Sends) (keeps : w.Keeps w') : (w'.fe i).Sends where
  atEnd := keeps.atEnd i sends.atEnd
  keys := by
    intro trusted
    have before := World.field_of_frames keeps.frames i (fun fe => fe.trusted) fun _ => rfl
    exact keeps.keysFit i (sends.keys (before ▸ trusted))

theorem advance_sends (sends : (w.fe i).Sends) (count : Nat) : ((w.advance i count).fe i).Sends := by
  have messageOut := w.field_advance i count i (fun fe => fe.messageOut) fun _ _ => rfl
  have trusted := w.field_advance i count i (fun fe => fe.trusted) fun _ _ => rfl
  have fits := w.field_advance i count i Frontend.KeysFit fun _ _ => rfl
  exact ⟨messageOut.symm ▸ sends.atEnd, fun trust => fits ▸ sends.keys (trusted ▸ trust)⟩

/-- What holds of a watch all along. -/
structure Minded (pf : Platform) (i : Nat) (s : Watch) : Prop where
  sends : (s.world.fe i).Sends
  enforced : Enforced pf i s

/-- Slots that keep their players stay enforced while time passes and more is queued. -/
theorem Enforced.still {s s' : Watch} (enforced : Enforced pf i s)
    (same : (s'.world.fe i).player slot = (s.world.fe i).player slot)
    (rules : s'.world.ruleset i = s.world.ruleset i) (later : s.clock ≤ s'.clock) (more : List ServerMessage)
    (queued : s'.since slot = s.since slot ++ encodeServer more)
    (used : ((s'.world.fe i).player slot).inUse = true)
    (barred : Barred pf (s'.world.ruleset i) s'.clock ((s'.world.fe i).player slot)) :
    KickQueued ((s'.world.fe i).player slot).clientID (s'.since slot) := by
  rw [same] at used barred ⊢
  rw [rules] at barred
  rw [queued]
  exact (enforced slot used (barred.congr rfl later)).append rfl

/-- An entry is passed over, or its player is in the slot of its number. -/
theorem deliverPlayer_cases {e : PlayerEntry} {result : Option Nat × World}
    (delivered : deliverPlayer pf i e (w.advance i 1) = .ok result) : result.2.ruleset i = w.ruleset i ∧
      (result.1 = none ∧ (result.2.fe i).players = (w.fe i).players ∨
      ∃ info id, userinfoMap e.userinfo.val = .ok info ∧ result.1 = some e.client.toNat ∧
        e.client.toNat < (w.fe i).players.length ∧ (result.2.fe i).players = (w.fe i).players.set e.client.toNat
          ((newPlayer pf.keys e.client e.userinfo.val e.version.val info w.now.1).recordedAs id)) := by
  unfold deliverPlayer at delivered
  rw [World.advance_advance] at delivered
  have players := players_advance i w (1 + e.encode.length)
  have rules : (w.advance i (1 + e.encode.length)).ruleset i = w.ruleset i :=
    congrArg (· ++ w.rules) (w.field_advance i _ i (fun fe => fe.rules) fun _ _ => rfl)
  have kept := (onPlayer_kept pf i _ _ _ _).of_ok delivered
  have setting := (onPlayer_setting i pf _ _ _ _).of_ok delivered
  refine ⟨(ruleset_of_frames kept.frames setting).trans rules, ?_⟩
  rcases onPlayer_joined i delivered with ⟨-, same⟩ | ⟨-, here, info, id, read, joined⟩
  · exact .inl ⟨congrArg Prod.fst same, (congrArg (fun r => (r.2.fe i).players) same).trans players⟩
  · exact .inr ⟨info, id, read, here, players ▸ joined.inside, players ▸ joined.players⟩

/-- A connect is enforced if it is sound: the data of the new player are checked as they are,
and nobody else's are touched. -/
theorem connect_minded {s s' : Watch} {e : PlayerEntry} {answer : Option Bytes} {readings : Nat → Time × Int}
    {done : Int} (minded : Minded pf i s) (sound : Turn.Sound pf i s (.connect e answer readings done))
    (taken : takeTurn pf i s (.connect e answer readings done) = .ok s') : Minded pf i s' := by
  simp only [takeTurn] at taken
  cases delivered : deliverPlayer pf i e (s.world.advance i 1) with
  | error fault => simp [delivered, Bind.bind, Except.bind] at taken
  | ok result =>
    simp only [delivered, Bind.bind, Except.bind] at taken
    have keeps := (deliverPlayer_kept pf i e _).of_ok delivered
    obtain ⟨rules, cases⟩ := deliverPlayer_cases delivered
    have stored : (result.2.fe i).Sends := by
      rw [World.advance_advance] at keeps
      exact (advance_sends minded.sends _).of_keeps keeps
    rcases cases with ⟨none, players⟩ | ⟨info, id, read, here, inside, players⟩
    · rw [none] at taken
      cases taken
      refine ⟨stored, fun slot used barred => ?_⟩
      exact minded.enforced.still (by simp only [Frontend.player, players]) rules (le_max_left _ _) []
        (List.append_nil _).symm used barred
    rw [here] at taken
    cases finished : finishConnect pf i e.client.toNat answer readings result.2 with
    | error fault => simp [finished] at taken
    | ok w' =>
      simp only [finished] at taken
      cases taken
      have seat : e.client.toNat < (result.2.fe i).players.length := by
        rw [players, List.length_set]
        exact inside
      have arrived := Frontend.player_set inside players
      obtain ⟨sends, q, messages, changed, subject, same, queued, kicks⟩ := finishConnect_kicks seat stored finished
      rw [players, List.set_set] at changed
      rw [rules] at same kicks
      have record : q.subject = (e.player pf answer info s.world).subject := by
        rw [subject, arrived]
        rfl
      refine ⟨sends, fun slot used barred => ?_⟩
      by_cases own : slot = e.client.toNat
      · subst own
        simp only [Frontend.player_set inside changed, same, ↓reduceIte] at barred ⊢
        obtain ⟨c, member, ban, matched⟩ := sound info read (barred.congr record le_rfl)
        refine ⟨messages, queued, kicks ⟨c, member, ban, ?_⟩⟩
        exact (checkRule_congr (subject.symm.trans record) c.rule c.t c.now).trans matched
      · have others := Frontend.player_set_ne own changed
        apply minded.enforced.still others same (le_max_left _ _) messages _ used barred
        simp only [if_neg own, queued]

/-- An update is enforced if it is sound, since nobody it leaves barred has changed. -/
theorem update_minded {s s' : Watch} {client : Byte} {userinfo : WireString} {done : Int}
    (minded : Minded pf i s) (sound : Turn.Sound pf i s (.update client userinfo done))
    (taken : takeTurn pf i s (.update client userinfo done) = .ok s') : Minded pf i s' := by
  simp only [takeTurn] at taken
  cases delivered : deliver pf i s.world (.playerUpdate client userinfo) with
  | error fault => simp [delivered, Bind.bind, Except.bind] at taken
  | ok w' =>
    simp only [delivered, Bind.bind, Except.bind] at taken
    cases taken
    have kept := (deliver_kept pf i _ s.world).of_ok delivered
    simp only [deliver, handle, World.advance_advance] at delivered
    have setting := (onPlayerUpdate_setting client userinfo.val _).of_ok delivered
    have rules : w'.ruleset i = s.world.ruleset i := (ruleset_of_frames kept.frames setting).trans
      (congrArg (· ++ s.world.rules) (s.world.field_advance i _ i (fun fe => fe.rules) fun _ _ => rfl))
    have sends : (w'.fe i).Sends := (advance_sends minded.sends _).of_keeps kept
    refine ⟨sends, fun slot used barred => ?_⟩
    rcases onPlayerUpdate_players i delivered with ⟨old, rfl⟩ | ⟨found, info, here, read, new, players⟩
    · have kept : ¬ (s.world.fe i).Rewritten pf client userinfo slot := by
        rintro ⟨found, new⟩
        rw [findPlayer_advance] at old
        rw [old slot found, player_advance] at new
        exact new rfl
      apply minded.enforced.still (player_advance i s.world _ slot) rules (le_max_left _ _) [] _ used barred
      simp only [if_neg kept]
      exact (List.append_nil _).symm
    · rw [findPlayer_advance] at here
      rw [player_advance] at new
      rw [players_advance] at players
      by_cases own : slot = found
      · subst own
        have inside := (findPlayer_used here).1
        have changed := Frontend.player_modify inside players
        simp only [rules, changed] at barred
        exact absurd barred (sound slot info ⟨here, new⟩ read)
      · have others := Frontend.player_modify_ne own players
        have kept : ¬ (s.world.fe i).Rewritten pf client userinfo slot := fun rewritten =>
          own (Option.some.inj (rewritten.1.symm.trans here))
        apply minded.enforced.still others rules (le_max_left _ _) [] _ used barred
        simp only [if_neg kept]
        exact (List.append_nil _).symm

/-- In a run of connects and updates that starts with nobody connected, and all of whose turns
are sound, everybody who is barred by a ban without a timespec has been told to be kicked
since the player's data last changed. -/
theorem rules_enforced {s s' : Watch} {turns : List Turn}
    (opened : s.Opened i) (sound : Allowed (takeTurn pf i) (Turn.Sound pf i) s turns)
    (ran : run (takeTurn pf i) s turns = .ok s') : Enforced pf i s' := by
  have minded : Minded pf i s' := by
    apply run_invariant (Minded pf i) _ _ sound ran
    · intro s turn s' minded sound taken
      cases turn with
      | connect e answer readings done => exact connect_minded minded sound taken
      | update client userinfo done => exact update_minded minded sound taken
    · refine ⟨opened.sends, fun slot used => ?_⟩
      rw [opened.free slot] at used
      cases used
  exact minded.enforced

end

/-- Claire is banned by her name. -/
def banClaire : Rule := { type := .ban, name := [ascii "claire"] }

/-- Nobody is connected. -/
def opened : Watch := ⟨{ sessionWorld with rules := [banClaire] }, fun _ => [], 0⟩

theorem claire_sendable : 0 ∉ ascii "\\name\\claire" := by decide

/-- Claire connects and is kicked; an update for nobody is passed over. -/
def claireBanned : List Turn := [
  .connect claireEntry none noon 1728129600,
  .update 0 ⟨ascii "\\name\\claire", claire_sendable⟩ 1728129601]

theorem claire_kicked : Yields (run (takeTurn Platform.plain 0) opened claireBanned)
    (fun s => s.since 1 = encodeServer [kickOf 1]) fun _ => False := by
  decide +kernel

theorem claire_only : Yields (takeTurn Platform.plain 0 opened (.connect claireEntry none noon 1728129600))
    (fun s => (s.world.fe 0).findPlayer 0 = none) fun _ => False := by
  decide +kernel

theorem claire_checked : Yields (userinfoMap claireEntry.userinfo.val) (fun info =>
    ∃ c ∈ checksOf noon (opened.world.ruleset 0), c.rule.type = .ban ∧
      (checkRule literalLib (claireEntry.player Platform.plain none info opened.world) c.rule c.t c.now).1 = true)
    fun _ => False := by
  decide +kernel

theorem opened_free (slot : Nat) : ((opened.world.fe 0).player slot).inUse = false :=
  match slot with
  | 0 | 1 | _ + 2 => rfl

theorem opened_opened : opened.Opened 0 := ⟨⟨rfl, fun _ => sessionWorld_ready.keys rfl⟩, opened_free, fun _ => rfl⟩

theorem claireBanned_sound : Allowed (takeTurn Platform.plain 0) (Turn.Sound Platform.plain 0) opened claireBanned := by
  refine ⟨fun info read _ => claire_checked.of_ok read, fun s₁ first => ⟨?_, fun _ _ => trivial⟩⟩
  intro slot info rewritten
  rw [Frontend.Rewritten, show ((0 : Byte).toNat : Int) = 0 from rfl, claire_only.of_ok first] at rewritten
  cases rewritten.1

theorem rules_enforced_claire : ∃ s', run (takeTurn Platform.plain 0) opened claireBanned = .ok s' ∧
    Enforced Platform.plain 0 s' := by
  obtain ⟨s', ran, -⟩ := claire_kicked.returns
  exact ⟨s', ran, rules_enforced opened_opened claireBanned_sound ran⟩

/-- Claire connects under another name and takes her own. -/
def claireHides : List Turn := [
  .connect ⟨1, ⟨ascii "\\name\\dave", by decide⟩, claireEntry.version⟩ none noon 1728129600,
  .update 1 ⟨ascii "\\name\\claire", claire_sendable⟩ 1728129601]

theorem claire_hid : Yields (run (takeTurn Platform.plain 0) opened claireHides)
    (fun s => ((s.world.fe 0).player 1).inUse = true ∧ s.since 1 = [] ∧ banClaire ∈ s.world.ruleset 0 ∧
      s.clock ≤ 1728129601 ∧
      (checkRule literalLib ((s.world.fe 0).player 1) banClaire ⟨1728129601, 0, 0⟩ 1728129601).1 = true)
    fun _ => False := by
  decide +kernel

/-- No rule is looked at when the name changes. -/
theorem rules_evaded : ¬ ∀ (pf : Platform) (i : Nat) (s s' : Watch) (turns : List Turn),
    s.Opened i → run (takeTurn pf i) s turns = .ok s' → Enforced pf i s' := by
  intro promised
  obtain ⟨s', ran, used, quiet, rule, early, matched⟩ := claire_hid.returns
  obtain ⟨messages, said, kick⟩ := promised Platform.plain 0 opened s' claireHides opened_opened ran 1 used
    ⟨banClaire, rule, rfl, rfl, ⟨1728129601, 0, 0⟩, 1728129601, early, early, matched⟩
  rw [quiet] at said
  have silent := List.flatMap_eq_nil_iff.mp said.symm _ kick
  cases silent

end Q2Admin
