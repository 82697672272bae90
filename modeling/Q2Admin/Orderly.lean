import Q2Admin.Challenge
import Q2Admin.HandshakeChecks
import Q2Admin.Territory

/-! Game servers that keep to the protocol. However many of them connect, answer and send
their messages between one another's reads, the process lives on, every session stays ready
for its next message, and nobody is sent what belongs to another. -/

namespace Q2Admin
open Go Lib

namespace Server

/-- No connection works for the frontend. -/
def Vacant (s : Server) (i : Nat) : Prop := ∀ c, (s.phase c).frontend ≠ some i

/-- The record of a frontend names the connection that works for it. -/
def Owned (s : Server) : Prop :=
  ∀ c i, (s.phase c).frontend = some i → (s.world.fe i).connection = some c

end Server

/-- What a connection relies on while it waits for its next read. -/
def World.Serves (w : World) (c : ConnId) : Phase → Prop
  | .auth i own => w.Awaits i own ∧ (w.fe i).connection = some c ∧ (w.fe i).connected = true
  | .main i => (w.fe i).Ready ∧ (w.fe i).connection = some c ∧ (w.fe i).connected = true ∧
    (w.fe i).trusted = true
  | _ => True

/-- Every connection finds what it relies on, and every queue can be written to. -/
structure Server.Healthy (s : Server) : Prop where
  serves : ∀ c, s.world.Serves c (s.phase c)
  queues : ∀ i, (s.world.fe i).messageOut.AtEnd

theorem Frontend.field_of_frame {α : Type} {fe fe' : Frontend} (same : fe'.frame = fe.frame)
    (field : Frontend → α) (framed : ∀ fe : Frontend, field fe.frame = field fe) : field fe' = field fe := by
  rw [← framed, same, framed]

section
variable (pf : Platform)

/-- No greeting is admitted for a frontend that a connection works for. -/
def Unshared (s : Server) (e : Event) : Prop :=
  s.phase e.conn = .greeting → ∀ input a, e.input = some input →
    checkGreeting pf s.world input = .ok (some a) → s.Vacant a.fe

/-- A frontend that has been set up: its log can be opened, and from its key text a public
key is read, or an error that ends the connection. -/
def World.SetUp (w : World) (c : ConnId) (i : Nat) : Prop :=
  w.host.opensLog c = true ∧
    ∃ key, pf.keys.loadPublicKey (w.host.readKey c (w.fe i).publicKeyData) = .ok key

/-- What a game server that keeps to the protocol sends: a greeting with room for its fields,
for a frontend that has been set up and nobody else is connected for; an answer with the
ciphertext it announces; and packets of whole messages that are well-formed when they arrive.
What is no greeting, no answer, or cannot be decrypted does no harm either. -/
def Orderly (s : Server) (e : Event) : Prop :=
  ∀ input, e.input = some input → match s.phase e.conn with
    | .greeting => (GreetingHeader input → GreetingFits input) ∧
      (∀ a, findGreeted pf s.world input = .ok (some a) → s.world.SetUp pf e.conn a.fe) ∧
      ∀ a, checkGreeting pf s.world input = .ok (some a) → s.Vacant a.fe
    | .auth _ _ => AuthHeader input → AuthFits input
    | .main i => (s.world.fe i).receive pf.aes input = .ok none ∨
      ∃ messages, (s.world.fe i).receive pf.aes input = .ok (some (encodeAll messages)) ∧
        Allowed (deliver pf i) (fun w m => m.WellFormed (w.fe i))
          (s.world.setMessage i (pf.q2.newBuffer (encodeAll messages))) messages
    | .closed => True

end

namespace World.Serves
variable {w w' : World} {c : ConnId} {phase : Phase}

theorem connection {i : Nat} (serves : w.Serves c phase) (at_work : phase.frontend = some i) :
    (w.fe i).connection = some c := by
  cases phase with
  | auth j own =>
    cases at_work
    exact serves.2.1
  | main j =>
    cases at_work
    exact serves.2.1
  | greeting => cases at_work
  | closed => cases at_work

/-- It is a matter of the frontend alone, and the count of arrivals there is not a part of it. -/
theorem of_atHome (serves : w.Serves c phase)
    (same : ∀ i, phase.frontend = some i → (w'.fe i).atHome = (w.fe i).atHome) : w'.Serves c phase := by
  have field {α : Type} (i : Nat) (at_work : phase.frontend = some i) (field : Frontend → α)
      (framed : ∀ fe : Frontend, field fe.atHome = field fe) : field (w'.fe i) = field (w.fe i) := by
    rw [← framed, same i at_work, framed]
  cases phase with
  | auth i own =>
    obtain ⟨awaits, connection, connected⟩ := serves
    refine ⟨⟨?_, ?_, ?_, awaits.nonempty⟩, ?_, ?_⟩
    · exact (field i rfl (fun fe => fe.challenge) fun _ => rfl).trans awaits.challenge
    · exact (field i rfl (fun fe => fe.connection) fun _ => rfl).symm ▸ awaits.connection
    · exact (field i rfl (fun fe => fe.KeysFit) fun _ => rfl).symm ▸ awaits.keysFit
    · exact (field i rfl (fun fe => fe.connection) fun _ => rfl).trans connection
    · exact (field i rfl (fun fe => fe.connected) fun _ => rfl).trans connected
  | main i =>
    obtain ⟨ready, connection, connected, trusted⟩ := serves
    have framed : (w'.fe i).Ready = (w.fe i).Ready := field i rfl (fun fe => fe.Ready) fun fe =>
      propext ⟨fun r => ⟨⟨r.1.1, r.1.2⟩, r.2, r.3, r.4⟩, fun r => ⟨⟨r.1.1, r.1.2⟩, r.2, r.3, r.4⟩⟩
    refine ⟨framed.symm ▸ ready, ?_, ?_, ?_⟩
    · exact (field i rfl (fun fe => fe.connection) fun _ => rfl).trans connection
    · exact (field i rfl (fun fe => fe.connected) fun _ => rfl).trans connected
    · exact (field i rfl (fun fe => fe.trusted) fun _ => rfl).trans trusted
  | greeting => trivial
  | closed => trivial

end World.Serves

/-- No two connections work for one frontend: its record names one of them. -/
theorem Server.Owned.alone {s : Server} (owned : s.Owned) {c d : ConnId} {i : Nat}
    (one : (s.phase c).frontend = some i) (two : (s.phase d).frontend = some i) : c = d :=
  Option.some.inj ((owned c i one).symm.trans (owned d i two))

namespace Server.Healthy
variable {s : Server} (healthy : s.Healthy)
include healthy

theorem owned : s.Owned := fun c _ at_work => (healthy.serves c).connection at_work

/-- A step on frontend `i` that leaves the other frontends alone, and leaves the connection
what it goes on with. -/
theorem put {c : ConnId} {next : Phase × World} {i : Nat}
    (mine : ∀ d, d ≠ c → (s.phase d).frontend ≠ some i)
    (elsewhere : ∀ j, j ≠ i → (next.2.fe j).atHome = (s.world.fe j).atHome)
    (serves : next.2.Serves c next.1) (queue : (next.2.fe i).messageOut.AtEnd) : (s.put c next).Healthy where
  serves := by
    intro d
    by_cases here : d = c
    · rw [here, Server.put_phase_self]
      exact serves
    · rw [Server.put_phase_ne s here]
      apply (healthy.serves d).of_atHome
      intro j at_work
      exact elsewhere j fun same => mine d here (same ▸ at_work)
  queues := by
    intro j
    show (next.2.fe j).messageOut.AtEnd
    by_cases here : j = i
    · rw [here]
      exact queue
    · have same := congrArg Frontend.messageOut (elsewhere j here)
      change (next.2.fe j).messageOut = (s.world.fe j).messageOut at same
      rw [same]
      exact healthy.queues j

/-- Code of frontend `i` that returns, for the connection that works for it. -/
theorem worked {c : ConnId} {i : Nat} (at_work : (s.phase c).frontend = some i) {x : Except Fault (Phase × World)}
    (works : Yields x (fun next => s.world.Works i next.2 ∧ (next.1 = .closed ∨ next.1 = .main i)) fun _ => True)
    (served : Yields x (fun next => next.2.Serves c next.1 ∧ (next.2.fe i).messageOut.AtEnd) fun _ => False) :
    Yields x (fun next => (s.put c next).Healthy) fun _ => False := by
  obtain ⟨next, returned, serves, queue⟩ := served.returns
  have apart (d : ConnId) (other : d ≠ c) : (s.phase d).frontend ≠ some i :=
    fun same => other (healthy.owned.alone same at_work)
  rw [returned] at works ⊢
  exact healthy.put apart (fun j elsewhere => (works.1.elsewhere elsewhere).1) serves queue

/-- The connection is closed, and the world is as it was. -/
theorem close (c : ConnId) : (s.put c (.closed, s.world)).Healthy where
  serves := by
    intro d
    by_cases here : d = c
    · rw [here, Server.put_phase_self]
      trivial
    · rw [Server.put_phase_ne s here]
      exact healthy.serves d
  queues := healthy.queues

end Server.Healthy

/-! ## Every step returns -/

section
variable (pf : Platform) {i : Nat} {w : World}

/-- With a connection and keys that fit, sending returns. -/
theorem sendMessages_returns (able : (w.fe i).CanSend) :
    Yields (sendMessages pf i w) (fun w' => SentTo (w.fe i) (w'.fe i)) fun _ => False := by
  have live := World.live_of_connected able.connection
  apply Yields.bind ((flush_sent pf (w.fe i)).mono (fun _ => id) fun _ missing => missing able)
  intro result _ sent
  show SentTo _ ((w.sent i result).fe i)
  rw [sent_fe live]
  exact sent

/-- The same behind something more in the queue. -/
theorem queueAndSend_returns {f : Frontend → Frontend} (queues : Queues f) (able : (w.fe i).CanSend)
    (atEnd : (w.fe i).messageOut.AtEnd) : Yields (sendMessages pf i (w.update i f)) (fun w' =>
      (w'.fe i).frame = (w.fe i).frame ∧ ((w.fe i).KeysFit → (w'.fe i).KeysFit) ∧
        (w'.fe i).messageOut.AtEnd) fun _ => False := by
  have queued : (w.update i f).fe i = f (w.fe i) :=
    World.fe_update_self w (World.live_of_connected able.connection) f
  have able' : ((w.update i f).fe i).CanSend := by
    rw [queued, queues.only]
    exact { able with }
  apply (sendMessages_returns pf able').mono _ fun _ => id
  intro w' sent
  refine ⟨sent.frame.trans ?_, fun fit => sent.keysFit ?_, sent.atEnd ?_⟩
  · rw [queued, queues.only]
    rfl
  · rw [queued, queues.only]
    exact fit
  · rw [queued]
    exact queues.atEnd _ atEnd

theorem sessionKeys_field {α : Type} (field : Frontend → α)
    (framed : ∀ (fe : Frontend) key iv, field { fe with symmetricKey := key, initVector := iv } = field fe)
    (blob : Bytes) (w : World) (j : Nat) : field ((sessionKeys i blob w).2.fe j) = field (w.fe j) := by
  unfold sessionKeys
  split
  · exact World.fe_update_field _ i j field fun fe => framed fe _ _
  · rfl

/-- A greeting that is admitted is answered, and the connection waits for what it asked. -/
theorem challengeClient_serves {c : ConnId} {a : Admission} (live : a.fe < w.frontends.length)
    (setUp : w.SetUp pf c a.fe) (atEnd : (w.fe a.fe).messageOut.AtEnd) : Yields (challengeClient pf c a w) (fun next =>
      next.2.Serves c next.1 ∧ (next.2.fe a.fe).messageOut.AtEnd) fun _ => False := by
  have record : (w.update a.fe (Frontend.connect c a.greeting)).fe a.fe =
      (w.fe a.fe).connect c a.greeting := World.fe_update_self w live _
  obtain ⟨-, key, loads⟩ := setUp
  have loaded : Yields (pf.keys.loadPublicKey ((w.update a.fe (Frontend.connect c a.greeting)).host.readKey c
      ((w.update a.fe (Frontend.connect c a.greeting)).fe a.fe).publicKeyData)) (fun found => found = key)
      fun _ => False := by
    rw [record]
    exact loads ▸ rfl
  unfold challengeClient
  simp only
  apply Yields.bind loaded
  intro found _ same
  split
  · exact ⟨trivial, by rw [record]; exact atEnd⟩
  next _ pubkey _ =>
  let drawn := (w.update a.fe (Frontend.connect c a.greeting)).randomBytes challengeLength
  let issued := drawn.2.update a.fe fun fe => { fe with publicKey := pubkey, challenge := drawn.1 }
  have liveIssued : a.fe < issued.frontends.length := by
    simp only [issued, drawn, World.randomBytes, World.length_update]
    exact live
  have given : issued.fe a.fe =
      { (w.fe a.fe).connect c a.greeting with publicKey := pubkey, challenge := drawn.1 } := by
    rw [← record]
    exact World.fe_update_self drawn.2 ((World.length_update w a.fe _).symm ▸ live) _
  obtain ⟨challenge, connection, keysFit⟩ := sessionKeys_spec (a.hash ++ drawn.1) liveIssued
  have connected := sessionKeys_field (i := a.fe) (fun fe => fe.connected) (fun _ _ _ => rfl)
    (a.hash ++ drawn.1) issued a.fe
  have queue := sessionKeys_field (i := a.fe) (fun fe => fe.messageOut) (fun _ _ _ => rfl)
    (a.hash ++ drawn.1) issued a.fe
  rw [given] at challenge connection connected queue
  rw [← publicEncrypt_fe pf pubkey (sessionKeys a.fe (a.hash ++ drawn.1) issued).1] at challenge connection keysFit
  rw [← publicEncrypt_fe pf pubkey (sessionKeys a.fe (a.hash ++ drawn.1) issued).1] at connected queue
  split
  · exact ⟨trivial, queue.symm ▸ atEnd⟩
  next cipher _ =>
    have queues := ((Queues.writeByte pf.q2 scmdHelloAck).comp
      (Queues.writeShort pf.q2 cipher.length)).comp (Queues.writeData pf.q2 cipher)
    apply Yields.bind (queueAndSend_returns pf queues ⟨connection ▸ rfl, fun _ => keysFit⟩ (queue ▸ atEnd))
    intro w' _ told
    obtain ⟨frame, fit, empty⟩ := told
    have named := (Frontend.field_of_frame frame (fun fe => fe.connection) fun _ => rfl).trans connection
    have drawn_nonempty : drawn.1 ≠ [] := by simp [drawn, World.randomBytes, challengeLength]
    refine ⟨⟨⟨?_, by rw [named]; rfl, fit keysFit, drawn_nonempty⟩, named, ?_⟩, empty⟩
    · exact (Frontend.field_of_frame frame (fun fe => fe.challenge) fun _ => rfl).trans challenge
    · exact (Frontend.field_of_frame frame (fun fe => fe.connected) fun _ => rfl).trans connected

theorem sendError_returns (able : (w.fe i).CanSend) (atEnd : (w.fe i).messageOut.AtEnd) (text : Bytes) :
    Yields (sendError pf i none 500 text w) (fun w' => (w'.fe i).messageOut.AtEnd) fun _ => False := by
  have queues := (((Queues.writeByte pf.q2 scmdError).comp (Queues.writeByte pf.q2 (-1))).comp
    (Queues.writeByte pf.q2 500)).comp (Queues.writeString pf.q2 text)
  unfold sendError
  split
  · exact atEnd
  · exact (queueAndSend_returns pf queues able atEnd).mono (fun _ sent => sent.2.2) fun _ => id

/-- A connection that is trusted has a session. -/
theorem trustClient_serves {c : ConnId} {own : Bytes} (serves : w.Serves c (.auth i own))
    (atEnd : (w.fe i).messageOut.AtEnd) :
    Yields (trustClient pf i w) (fun w' => w'.Serves c (.main i)) fun _ => False := by
  obtain ⟨awaits, connection, connected⟩ := serves
  have able : (w.fe i).CanSend := ⟨awaits.connection, fun _ => awaits.keysFit⟩
  apply Yields.bind (queueAndSend_returns pf (Queues.writeByte pf.q2 scmdTrusted) able atEnd)
  intro w' _ told
  obtain ⟨frame, fit, empty⟩ := told
  have named := (Frontend.field_of_frame frame (fun fe => fe.connection) fun _ => rfl).trans connection
  have live : i < w'.frontends.length := World.live_of_connected (named ▸ rfl)
  have record : (w'.trust i).fe i = (w'.fe i).trust w'.now.1 w'.host.serverVars :=
    World.fe_update_self w'.now.2 live _
  refine ⟨trust_ready live (named ▸ rfl) (fit awaits.keysFit) empty, ?_, ?_, ?_⟩
  · rw [record]
    exact named
  · rw [record]
    exact (Frontend.field_of_frame frame (fun fe => fe.connected) fun _ => rfl).trans connected
  · rw [record]
    rfl

/-- The verdict on an answer is sent, and a right one opens a session. -/
theorem judge_serves (bounded : pf.q2.Bounded) {c : ConnId} {own input : Bytes} (serves : w.Serves c (.auth i own))
    (atEnd : (w.fe i).messageOut.AtEnd) (fits : AuthHeader input → AuthFits input) :
    Yields (judge pf i input w) (fun next => next.2.Serves c next.1 ∧ (next.2.fe i).messageOut.AtEnd)
      fun _ => False := by
  have able : (w.fe i).CanSend := ⟨serves.1.connection, fun _ => serves.1.keysFit⟩
  have read : Yields (authenticateClient pf (w.fe i) (pf.q2.newBuffer input)) (fun _ => True) fun _ => False := by
    obtain ⟨cipher, read⟩ := (authCipher_inside_iff pf bounded input (w.fe i).name).mpr fits
    rw [authenticateClient, read]
    trivial
  apply Yields.bind read
  intro verdict _ _
  match verdict with
  | .error text =>
    apply Yields.bind (sendError_returns pf able atEnd text)
    exact fun w' _ empty => ⟨trivial, empty⟩
  | .ok false => exact ⟨trivial, atEnd⟩
  | .ok true =>
    apply Yields.bind (trustClient_serves pf serves atEnd)
    exact fun w' _ session => ⟨session, session.1.atEnd⟩

/-! ## The message loop -/

theorem World.Serves.of_keeps {c : ConnId} {phase : Phase} {w' : World} (serves : w.Serves c phase)
    (keeps : w.Keeps w') : w'.Serves c phase := by
  have connection (i : Nat) : (w'.fe i).connection = (w.fe i).connection :=
    World.field_of_frames keeps.frames i (fun fe => fe.connection) fun _ => rfl
  have connected (i : Nat) : (w'.fe i).connected = (w.fe i).connected :=
    World.field_of_frames keeps.frames i (fun fe => fe.connected) fun _ => rfl
  cases phase with
  | auth i own =>
    obtain ⟨awaits, mine, there⟩ := serves
    have challenge := World.field_of_frames keeps.frames i (fun fe => fe.challenge) fun _ => rfl
    refine ⟨⟨challenge.trans awaits.challenge, ?_, keeps.keysFit i awaits.keysFit, awaits.nonempty⟩, ?_, ?_⟩
    · rw [connection]
      exact awaits.connection
    · rw [connection]
      exact mine
    · rw [connected]
      exact there
  | main i =>
    obtain ⟨ready, mine, there, trusted⟩ := serves
    refine ⟨keeps.ready i ready, (connection i).trans mine, (connected i).trans there, ?_⟩
    exact (World.field_of_frames keeps.frames i (fun fe => fe.trusted) fun _ => rfl).trans trusted
  | greeting => trivial
  | closed => trivial

theorem serves_update {c : ConnId} {f : Frontend → Frontend} (same : ∀ fe, fe.Ready → (f fe).Ready)
    (session : ∀ fe, (f fe).connection = fe.connection ∧ (f fe).connected = fe.connected ∧
      (f fe).trusted = fe.trusted) (serves : w.Serves c (.main i)) : (w.update i f).Serves c (.main i) := by
  obtain ⟨ready, connection, connected, trusted⟩ := serves
  refine ⟨World.fe_update_holds w Frontend.Ready ready (same _), ?_, ?_, ?_⟩
  · exact (World.fe_update_field w i i (fun fe => fe.connection) fun fe => (session fe).1).trans connection
  · exact (World.fe_update_field w i i (fun fe => fe.connected) fun fe => (session fe).2.1).trans connected
  · exact (World.fe_update_field w i i (fun fe => fe.trusted) fun fe => (session fe).2.2).trans trusted

theorem deliver_serves {c : ConnId} {m : ClientMessage} (serves : w.Serves c (.main i))
    (formed : m.WellFormed (w.fe i)) :
    Yields (deliver pf i w m) (fun w' => w'.Serves c (.main i)) fun _ => False := by
  have advanced : (w.advance i m.encode.length).Serves c (.main i) :=
    serves_update (fun fe ready => { ready with }) (fun _ => ⟨rfl, rfl, rfl⟩) serves
  apply (deliver_kept pf i m w).mono
  · exact fun w' keeps => advanced.of_keeps keeps
  · exact fun _ missing => missing ⟨formed, serves.1.equipped⟩

/-- A packet of whole, well-formed messages leaves the session as ready as it was. -/
theorem serve_serves {c : ConnId} {input : Bytes} (serves : w.Serves c (.main i))
    (fits : (w.fe i).receive pf.aes input = .ok none ∨
      ∃ messages, (w.fe i).receive pf.aes input = .ok (some (encodeAll messages)) ∧
        Allowed (deliver pf i) (fun w m => m.WellFormed (w.fe i))
          (w.setMessage i (pf.q2.newBuffer (encodeAll messages))) messages) :
    Yields (serve pf i input w) (fun next => next.2.Serves c next.1 ∧ (next.2.fe i).messageOut.AtEnd)
      fun _ => False := by
  unfold serve
  rcases fits with lost | ⟨messages, received, formed⟩
  · rw [lost]
    exact ⟨trivial, serves.1.atEnd⟩
  rw [received]
  let filled := w.setMessage i (pf.q2.newBuffer (encodeAll messages))
  have start : filled.Serves c (.main i) :=
    serves_update (fun fe ready => { ready with }) (fun _ => ⟨rfl, rfl, rfl⟩) serves
  obtain ⟨w', delivered, session⟩ := run_returns (fun v => v.Serves c (.main i))
    (fun v m held formed => (deliver_serves pf held formed).returns) start formed
  have message : (filled.fe i).message = ⟨encodeAll messages, 0, (encodeAll messages).length⟩ := by
    have filled : filled.fe i = { w.fe i with message := pf.q2.newBuffer (encodeAll messages) } :=
      World.fe_update_self w (live_of_equipped i serves.1.equipped) _
    rw [filled]
    exact pf.q2.newBuffer_eq _
  have parsed : parseMessage pf i filled = .ok w' := by
    rw [← delivered, parseMessage, message]
    apply parseLoop_run pf i messages (Nat.lt_succ_of_le (length_le_encodeAll messages))
    rw [World.unread, message]
    rfl
  have sent := (sendMessages_kept pf i w').mono (fun _ => id) fun _ missing => missing ⟨trivial, session.1.equipped⟩
  simp only [Bind.bind, Except.bind]
  rw [parsed]
  apply Yields.bind sent
  intro w'' _ keeps
  have done := session.of_keeps keeps
  exact ⟨done, done.1.atEnd⟩

/-! ## Runs -/

theorem greet_serves {s : Server} {c : ConnId} {input : Bytes} (healthy : s.Healthy)
    (fits : ReadsInside (checkGreeting pf s.world input))
    (setUp : ∀ a, findGreeted pf s.world input = .ok (some a) → s.world.SetUp pf c a.fe)
    (vacant : ∀ a, checkGreeting pf s.world input = .ok (some a) → s.Vacant a.fe) :
    Yields (greet pf c input s.world) (fun next => (s.put c next).Healthy) fun _ => False := by
  obtain ⟨result, found⟩ := (ReadsInside.map_iff _ _).mp fits
  unfold greet
  rw [found]
  cases result with
  | none => exact healthy.close c
  | some a =>
    have prepared := setUp a found
    show Yields (if _ then _ else _) _ _
    rw [if_neg (not_not.mpr prepared.1)]
    by_cases old : a.greeting.version < versionRequired
    case pos =>
      rw [if_pos old]
      exact healthy.close c
    case neg =>
      rw [if_neg old]
      have live := (findGreeted_live pf s.world input).of_ok found a rfl
      have recent : versionRequired ≤ a.greeting.version := by omega
      have alone := vacant a (by simp [checkGreeting, found, Except.map, Option.filter, recent])
      obtain ⟨next, challenged, serves, queue⟩ :=
        (challengeClient_serves pf live prepared (healthy.queues a.fe)).returns
      rw [challenged]
      have works := (challengeClient_works pf c a s.world).of_ok challenged
      refine healthy.put (fun d _ => alone d) (fun j apart => ?_) serves queue
      rw [← World.fe_update_ne s.world apart (Frontend.connect c a.greeting)]
      exact (works.1.elsewhere apart).1

/-- A step that keeps to the protocol succeeds and leaves every connection what it needs. -/
theorem step_healthy (bounded : pf.q2.Bounded) {s : Server} {e : Event} (healthy : s.Healthy)
    (orderly : Orderly pf s e) : Yields (s.step pf e) Server.Healthy fun _ => False := by
  have resumed : Yields (s.resume pf e.conn e.input) (fun next => (s.put e.conn next).Healthy) fun _ => False := by
    have mine := healthy.serves e.conn
    unfold Server.resume
    cases read : e.input with
    | none =>
      cases phase : s.phase e.conn with
      | main i =>
        refine healthy.put (i := i) (fun d apart at_work => ?_) (fun j apart => ?_) trivial ?_
        · exact apart (healthy.owned.alone at_work (by rw [phase]; rfl))
        · rw [hangUp, World.fe_update_ne s.world apart]
        · exact World.fe_update_holds s.world (fun fe => fe.messageOut.AtEnd) (healthy.queues i) id
      | greeting | auth | closed => exact healthy.close e.conn
    | some input =>
      have kept := orderly input read
      cases phase : s.phase e.conn with
      | greeting =>
        rw [phase] at kept
        obtain ⟨fits, setUp, vacant⟩ := kept
        exact greet_serves pf healthy ((checkGreeting_inside_iff pf bounded input s.world).mpr fits) setUp vacant
      | auth i own =>
        rw [phase] at kept mine
        exact healthy.worked (by rw [phase]; rfl) (judge_works pf i input s.world)
          (judge_serves pf bounded mine (healthy.queues i) kept)
      | main i =>
        rw [phase] at kept mine
        exact healthy.worked (by rw [phase]; rfl) (serve_works pf i input s.world) (serve_serves pf mine kept)
      | closed => exact healthy.close e.conn
  apply Yields.bind resumed
  exact fun next _ held => held

theorem start_healthy {w : World} (queues : ∀ i, (w.fe i).messageOut.AtEnd) : (Server.start w).Healthy where
  serves := fun _ => trivial
  queues := queues

/-- However many game servers connect, answer, send their messages and hang up, in
whatever order their reads come: if each keeps to the protocol the process never stops, and
whoever is in a session has the slots, the keys and the connection its next message needs. -/
theorem orderly_run (bounded : pf.q2.Bounded) {w : World} {events : List Event}
    (queues : ∀ i, (w.fe i).messageOut.AtEnd)
    (orderly : Allowed (Server.step pf) (Orderly pf) (Server.start w) events) :
    ∃ s, run (Server.step pf) (Server.start w) events = .ok s ∧ s.Healthy :=
  run_returns Server.Healthy (fun _ _ healthy keeps => (step_healthy pf bounded healthy keeps).returns)
    (start_healthy queues) orderly

end

/-! ## Nobody reads another's messages -/

section
variable {pf : Platform} {s s' : Server} {e : Event}

theorem start_owned (w : World) : (Server.start w).Owned := fun c i at_work => by
  simp [Server.start, Phase.frontend] at at_work

/-- Behind a step on frontend `i` the record there names the connection, and the other
records name whom they named. -/
theorem Server.Owned.put (owned : s.Owned) {c : ConnId} {next : Phase × World} {i : Nat}
    (mine : ∀ d, d ≠ c → (s.phase d).frontend ≠ some i) (within : next.1.Within i)
    (elsewhere : ∀ j, j ≠ i → (next.2.fe j).connection = (s.world.fe j).connection)
    (named : next.1.frontend = some i → (next.2.fe i).connection = some c) : (s.put c next).Owned := by
  intro d j at_work
  show (next.2.fe j).connection = some d
  by_cases here : d = c
  · rw [here, Server.put_phase_self] at at_work
    rw [here, within j at_work]
    exact named (within j at_work ▸ at_work)
  · rw [Server.put_phase_ne s here] at at_work
    have apart : j ≠ i := fun same => mine d here (same ▸ at_work)
    exact (elsewhere j apart).trans (owned d j at_work)

theorem World.WorksBy.connection_elsewhere {edits : (Player → Player) → Prop} {arrives : Prop} {i j : Nat}
    {w w' : World} (works : w.WorksBy edits arrives i w') (apart : j ≠ i) :
    (w'.fe j).connection = (w.fe j).connection := by
  have same := congrArg Frontend.connection (works.elsewhere apart).1
  exact same

theorem step_owned (owned : s.Owned) (unshared : Unshared pf s e) (stepped : s.step pf e = .ok s') :
    s'.Owned := by
  obtain ⟨next, rfl, outcome⟩ := Server.step_outcome stepped
  cases outcome with
  | nothing _ same =>
    intro d j at_work
    rw [same] at at_work ⊢
    by_cases here : d = e.conn
    · rw [here, Server.put_phase_self] at at_work
      cases at_work
    · rw [Server.put_phase_ne s here] at at_work
      exact owned d j at_work
  | served i mine works going =>
    have within := Phase.within_session i going
    refine owned.put (fun d apart same => apart (owned.alone same mine)) within ?_ fun _ => ?_
    · exact fun j apart => works.connection_elsewhere apart
    · exact works.connection.trans (owned e.conn i mine)
  | hungUp i mine lost same =>
    have at_work : (s.phase e.conn).frontend = some i := by rw [mine]; rfl
    refine owned.put (i := i) (fun d apart same => apart (owned.alone same at_work)) ?_ ?_ ?_
    · exact same ▸ Phase.within_closed i
    · intro j apart
      rw [same, hangUp, World.fe_update_ne s.world apart]
    · exact fun going => by simp [same, Phase.frontend] at going
  | greeted a fresh admitted challenged =>
    obtain ⟨input, read, checked⟩ := admitted
    obtain ⟨works, within⟩ := (challengeClient_works pf e.conn a s.world).of_ok challenged
    have live := (checkGreeting_live pf s.world input).of_ok checked a rfl
    refine owned.put (fun d _ => unshared fresh input a read checked d) within ?_ fun _ => ?_
    · intro j apart
      rw [works.connection_elsewhere apart, World.fe_update_ne s.world apart]
    · rw [works.connection, World.fe_update_self s.world live]
      rfl

/-- What a step writes goes out on the connection it has read from. -/
theorem step_writesTo (owned : s.Owned) (stepped : s.step pf e = .ok s') :
    s.world.WritesTo e.conn s'.world := by
  obtain ⟨next, rfl, outcome⟩ := Server.step_outcome stepped
  cases outcome with
  | nothing _ same => exact .of_wire (same ▸ rfl)
  | served i mine works => exact works.writesTo (owned e.conn i mine)
  | hungUp i mine lost same => exact .of_wire (same ▸ rfl)
  | greeted a fresh admitted challenged =>
    obtain ⟨input, read, checked⟩ := admitted
    obtain ⟨works, -⟩ := (challengeClient_works pf e.conn a s.world).of_ok challenged
    have live := (checkGreeting_live pf s.world input).of_ok checked a rfl
    apply (World.WritesTo.of_wire rfl).trans (works.writesTo _)
    rw [World.fe_update_self s.world live]
    rfl

/-- Whatever the bytes that arrive: as long as no two connections get to work for one
frontend, whatever a step writes it writes to the connection that it read from. -/
theorem written_to_reader {w : World} {events : List Event}
    (unshared : Allowed (Server.step pf) (Unshared pf) (Server.start w) events) :
    Allowed (Server.step pf) (fun s e => ∀ s', s.step pf e = .ok s' → s.world.WritesTo e.conn s'.world)
      (Server.start w) events :=
  allowed_of_good Server.Owned (fun _ _ _ owned fine stepped => step_owned owned fine stepped)
    (fun _ _ owned _ _ stepped => step_writesTo owned stepped) (start_owned w) unshared

end

theorem start_vacant (w : World) (i : Nat) : (Server.start w).Vacant i := fun c at_work => by
  simp [Server.start, Phase.frontend] at at_work

theorem open_greeted : Yields (run (Server.step Platform.plain) (Server.start neighbourWorld) (openEvents.take 1))
    (fun s => s.phase 0 ≠ .greeting) fun _ => False := by decide +kernel

theorem open_unshared : Allowed (Server.step Platform.plain) (Unshared Platform.plain)
    (Server.start neighbourWorld) openEvents := by
  refine ⟨?_, fun s₁ first => ⟨fun fresh => ?_, fun s₂ _ => ⟨?_, fun _ _ => trivial⟩⟩⟩
  · exact fun _ _ a _ _ => start_vacant _ a.fe
  · exact absurd fresh (open_greeted.of_ok (run_cons [] first))
  · intro _ input a nothing
    cases nothing

theorem written_to_reader_open : Allowed (Server.step Platform.plain)
    (fun s e => ∀ s', s.step Platform.plain e = .ok s' → s.world.WritesTo e.conn s'.world)
    (Server.start neighbourWorld) openEvents := written_to_reader open_unshared

/-- The same greeting without the wish for encryption. -/
def clearGreeting : Bytes :=
  ascii "Q2AC" ++ cmdHello :: openFrontend.uuid ++ [0, 203, 2, 0, 0, 6, 109, 16, 0] ++
    plainCipher (List.replicate 16 9)

theorem map_name_wired : (0 : Byte) ∉ ascii "q2dm1" := by decide

def clearMessages : List ClientMessage := [.map ⟨ascii "q2dm1", map_name_wired⟩, .ping]

/-- The frontend connects, is trusted, sends a packet of two messages, and goes away. -/
def clearEvents : List Event := [⟨0, some clearGreeting⟩, ⟨0, some (answerTo firstChallenge)⟩,
  ⟨0, some (encodeAll clearMessages)⟩, ⟨0, none⟩]

theorem clear_greeted : Yields (run (Server.step Platform.plain) (Server.start openWorld) (clearEvents.take 1))
    (fun s => s.phase 0 = .auth 0 firstChallenge) fun _ => False := by decide +kernel

theorem clear_trusted : Yields (run (Server.step Platform.plain) (Server.start openWorld) (clearEvents.take 2))
    (fun s => s.phase 0 = .main 0 ∧ (s.world.fe 0).receive Platform.plain.aes
      ((encodeAll clearMessages).take netReadLength) = .ok (some (encodeAll clearMessages)))
    fun _ => False := by decide +kernel

theorem clear_orderly : Allowed (Server.step Platform.plain) (Orderly Platform.plain)
    (Server.start openWorld) clearEvents := by
  refine ⟨?_, fun s₁ first => ⟨?_, fun s₂ second => ⟨?_, fun s₃ _ => ⟨?_, fun _ _ => trivial⟩⟩⟩⟩
  · intro input read
    cases read
    have fits : GreetingFits (clearGreeting.take netReadLength) := by
      unfold GreetingFits
      decide +kernel
    refine ⟨fun _ => fits, fun a found => ?_, fun a _ => start_vacant openWorld a.fe⟩
    have live : a.fe < 1 := (findGreeted_live Platform.plain openWorld _).of_ok found a rfl
    rw [show a.fe = 0 by omega]
    exact ⟨rfl, _, rfl⟩
  · intro input read
    cases read
    have waits := clear_greeted.of_ok (run_cons [] first)
    have fits : AuthFits ((answerTo firstChallenge).take netReadLength) := by
      unfold AuthFits
      decide +kernel
    simp only [waits]
    exact fun _ => fits
  · intro input read
    cases read
    obtain ⟨session, received⟩ := clear_trusted.of_ok ((run_cons _ first).trans (run_cons [] second))
    simp only [session]
    exact .inr ⟨clearMessages, received, trivial, fun _ _ => ⟨trivial, fun _ _ => trivial⟩⟩
  · intro input nothing
    cases nothing

theorem orderly_run_clear : ∃ s,
    run (Server.step Platform.plain) (Server.start openWorld) clearEvents = .ok s ∧ s.Healthy := by
  apply orderly_run Platform.plain Libq2.plain_bounded _ clear_orderly
  intro i
  cases i with
  | zero => decide
  | succ i => exact Eq.refl 0

end Q2Admin
