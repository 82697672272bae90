import Q2Admin.Maintenance
import Q2Admin.Orderly

/-! Sessions that have ended, and the maintenance, which goes by the records and not by the
connections: it sends to whoever is noted as connected or trusted. What a session leaves
behind can still be sent to, however it ends. -/

namespace Q2Admin
open Go Lib

/-- A key and a vector the cipher takes, used or not. -/
def Frontend.Keyed (fe : Frontend) : Prop :=
  fe.symmetricKey.length = aesBlockLength ∧ fe.initVector.length = aesBlockLength

/-- What is left of a session nobody reads for any more can still be sent to. -/
structure Frontend.Lingers (fe : Frontend) : Prop where
  connection : fe.connected = true ∨ fe.trusted = true → fe.connection.isSome = true
  keyed : fe.trusted = true → fe.Keyed

theorem Frontend.Lingers.canSend {fe : Frontend} (lingers : fe.Lingers)
    (there : fe.connected = true ∨ fe.trusted = true) : fe.CanSend :=
  ⟨lingers.connection there, fun trusted _ => lingers.keyed trusted⟩

/-- No connection serves the frontend. -/
def Server.Idle (s : Server) (i : Nat) : Prop := ∀ c, s.phase c ≠ .main i

structure Server.Lively (s : Server) : Prop extends s.Healthy where
  lingers : ∀ i, s.Idle i → (s.world.fe i).Lingers

/-- Work that disturbs no session, wherever it is done. -/
structure World.Tends (w w' : World) : Prop extends w.Keeps w' where
  keyed : ∀ j, (w.fe j).Keyed → (w'.fe j).Keyed

namespace World.Tends
variable {w w' w'' : World}

theorem refl : w.Tends w := ⟨.refl, fun _ => id⟩

theorem trans (first : w.Tends w') (second : w'.Tends w'') : w.Tends w'' where
  toKeeps := first.toKeeps.trans second.toKeeps
  keyed := fun j keyed => second.keyed j (first.keyed j keyed)

theorem of_update {j : Nat} {f : Frontend → Frontend} (keeps : w.Keeps (w.update j f))
    (keyed : (w.fe j).Keyed → (f (w.fe j)).Keyed) : w.Tends (w.update j f) where
  toKeeps := keeps
  keyed := fun _ start => fe_update_holds w Frontend.Keyed start keyed

theorem queue (j : Nat) {f : Frontend → Frontend} (queues : Queues f) : w.Tends (w.update j f) := by
  apply of_update (.queue j queues)
  intro keyed
  rw [queues.only]
  exact keyed

/-- A record takes the place of one with the same client number. -/
theorem put {j slot : Nat} {p : Player} (same : p.clientID = ((w.fe j).player slot).clientID) :
    w.Tends (w.updatePlayer j slot fun _ => p) := by
  have replaced : (w.fe j).updatePlayer slot (fun _ => p) =
      (w.fe j).updatePlayer slot fun q => { p with clientID := q.clientID } := by
    simp only [Frontend.updatePlayer, Frontend.mk.injEq, and_true, true_and]
    apply List.ext_getElem?
    intro n
    simp only [List.getElem?_modify]
    by_cases here : slot = n
    · cases found : (w.fe j).players[n]? with
      | none => rfl
      | some q =>
        have stored : (w.fe j).player slot = q := by
          rw [Frontend.player, List.getD_eq_getElem?_getD, here, found]
          rfl
        rw [stored] at same
        simp [here, ← same]
    · simp [here]
  have edited : w.updatePlayer j slot (fun _ => p) =
      w.updatePlayer j slot fun q => { p with clientID := q.clientID } := World.update_congr replaced
  rw [edited]
  exact of_update (.editPlayer fun _ => rfl) id

end World.Tends

section
variable (pf : Platform) {i : Nat} {w : World}

theorem flush_keyed (fe : Frontend) : Yields (fe.flush pf)
    (fun result => result.1.trusted = fe.trusted ∧ (fe.Keyed → result.1.Keyed)) fun _ => True := by
  have sealed : Yields (fe.encryptQueue pf)
      (fun fe' => fe'.trusted = fe.trusted ∧ (fe.Keyed → fe'.Keyed)) fun _ => True := by
    unfold Frontend.encryptQueue
    split
    · cases encrypted : symmetricEncrypt pf.aes fe.symmetricKey fe.initVector
          (fe.messageOut.data.take fe.messageOut.index) with
      | error fault => trivial
      | ok cipher =>
        refine ⟨rfl, fun keyed => ⟨keyed.1, ?_⟩⟩
        rw [symmetricEncrypt_eq pf.aes keyed.1 keyed.2, Except.ok.injEq] at encrypted
        rw [← encrypted]
        exact length_take_cipher pf.aes fe _
    · exact ⟨rfl, id⟩
  unfold Frontend.flush
  split
  · exact ⟨rfl, id⟩
  apply Yields.bind sealed
  intro fe' _ same
  cases fe'.connection with
  | none => trivial
  | some c => exact same

/-- With a connection and keys that fit, sending returns and disturbs nobody. -/
theorem sendMessages_tends (able : (w.fe i).CanSend) :
    Yields (sendMessages pf i w) w.Tends fun _ => False := by
  have live := World.live_of_connected able.connection
  have returns := (flush_sent pf (w.fe i)).mono (fun _ => id) fun _ missing => missing able
  obtain ⟨result, flushed, sent⟩ := returns.returns
  have keyed := ((flush_keyed pf (w.fe i)).of_ok flushed).2
  have placed : w.Tends (w.update i fun _ => result.1) :=
    .of_update (.update sent.frame sent.equipped sent.atEnd sent.keysFit) keyed
  rw [sendMessages, flushed]
  exact placed.trans ⟨.of_frontends rfl, fun _ => id⟩

/-- Without a connection nothing can be sent but an empty queue. -/
theorem sendMessages_hungUp (atEnd : (w.fe i).messageOut.AtEnd) (hungUp : (w.fe i).connection = none)
    (untrusted : (w.fe i).trusted = false) : Yields (sendMessages pf i w)
      (fun w' => w.Tends w' ∧ (w.fe i).messageOut.data = []) fun _ => (w.fe i).messageOut.data ≠ [] := by
  unfold sendMessages
  by_cases empty : (w.fe i).messageOut.data = []
  case pos =>
    have kept : w.Keeps (w.update i fun _ => w.fe i) := .update rfl id id id
    rw [flush_empty pf atEnd empty]
    exact ⟨(World.Tends.of_update kept id).trans ⟨.of_frontends rfl, fun _ => id⟩, empty⟩
  case neg =>
    have size := pf.q2.size_eq (w.fe i).messageOut atEnd
    have failed : (w.fe i).flush pf = .error .nilConnection := by
      simp [Frontend.flush, Frontend.encryptQueue, size, empty, untrusted, hungUp, Bind.bind, Except.bind]
    rw [failed]
    exact empty

/-- The same behind something more in the queue. -/
theorem queueAndSend_tends {f : Frontend → Frontend} (queues : Queues f) (able : (w.fe i).CanSend) :
    Yields (sendMessages pf i (w.update i f)) w.Tends fun _ => False := by
  have able' : ((w.update i f).fe i).CanSend := by
    rw [World.fe_update_self w (World.live_of_connected able.connection), queues.only]
    exact { able with }
  apply (sendMessages_tends pf able').mono _ fun _ => id
  exact fun w' tends => (World.Tends.queue i queues).trans tends

theorem sendError_tends (able : (w.fe i).CanSend) (text : Bytes) :
    Yields (sendError pf i none 500 text w) w.Tends fun _ => False := by
  have queues := (((Queues.writeByte pf.q2 scmdError).comp (Queues.writeByte pf.q2 (-1))).comp
    (Queues.writeByte pf.q2 500)).comp (Queues.writeString pf.q2 text)
  unfold sendError
  split
  · exact World.Tends.refl
  · exact queueAndSend_tends pf queues able

/-! ## What a session leaves behind -/

/-- Whoever is still trusted has keys. -/
def Frontend.Secured (fe : Frontend) : Prop := fe.trusted = true → fe.Keyed

theorem Frontend.Lingers.of_tends {j : Nat} {w w' : World} (lingers : (w.fe j).Lingers) (tends : w.Tends w') :
    (w'.fe j).Lingers := by
  have connection := World.field_of_frames tends.frames j (fun fe => fe.connection) fun _ => rfl
  have connected := World.field_of_frames tends.frames j (fun fe => fe.connected) fun _ => rfl
  have trusted := World.field_of_frames tends.frames j (fun fe => fe.trusted) fun _ => rfl
  constructor
  · rw [connection, connected, trusted]
    exact lingers.connection
  · rw [trusted]
    exact fun there => tends.keyed j (lingers.keyed there)

theorem sendMessages_secured (secured : (w.fe i).Secured) :
    Yields (sendMessages pf i w) (fun w' => (w'.fe i).Secured) fun _ => True := by
  apply Yields.bind (flush_keyed pf (w.fe i))
  intro result _ kept
  show ((w.update i fun _ => result.1).fe i).Secured
  apply World.fe_update_holds w Frontend.Secured secured
  exact fun _ trusted => kept.2 (secured (kept.1 ▸ trusted))

theorem queueAndSend_secured {f : Frontend → Frontend} (queues : Queues f) (secured : (w.fe i).Secured) :
    Yields (sendMessages pf i (w.update i f)) (fun w' => (w'.fe i).Secured) fun _ => True := by
  apply sendMessages_secured pf
  apply World.fe_update_holds w Frontend.Secured secured
  rw [queues.only]
  exact fun same trusted => same trusted

theorem sessionKeys_secured (blob : Bytes) (secured : (w.fe i).Secured) :
    ((sessionKeys i blob w).2.fe i).Secured := by
  unfold sessionKeys
  split
  · apply World.fe_update_holds _ Frontend.Secured secured
    exact fun _ _ => ⟨by simp, by simp [aesIVLength, aesBlockLength]⟩
  · exact secured

/-- A greeting leaves the keys of the session before, or sets new ones. -/
theorem challengeClient_secured (c : ConnId) {a : Admission} (secured : (w.fe a.fe).Secured) :
    Yields (challengeClient pf c a w) (fun next => (next.2.fe a.fe).Secured) fun _ => True := by
  have record : ((w.update a.fe (Frontend.connect c a.greeting)).fe a.fe).Secured :=
    World.fe_update_holds w Frontend.Secured secured fun same trusted => same trusted
  unfold challengeClient
  simp only
  apply Yields.bind (Yields.top _)
  intro loaded _ _
  split
  · exact record
  next pubkey _ =>
  let drawn := (w.update a.fe (Frontend.connect c a.greeting)).randomBytes challengeLength
  let issued := drawn.2.update a.fe fun fe => { fe with publicKey := pubkey, challenge := drawn.1 }
  have given : (issued.fe a.fe).Secured :=
    World.fe_update_holds drawn.2 Frontend.Secured record fun same trusted => same trusted
  have keyed := sessionKeys_secured (i := a.fe) (a.hash ++ drawn.1) given
  rw [← publicEncrypt_fe pf pubkey (sessionKeys a.fe (a.hash ++ drawn.1) issued).1] at keyed
  split
  · exact keyed
  next cipher _ =>
    have queues := ((Queues.writeByte pf.q2 scmdHelloAck).comp
      (Queues.writeShort pf.q2 cipher.length)).comp (Queues.writeData pf.q2 cipher)
    apply Yields.bind (queueAndSend_secured pf queues keyed)
    exact fun _ _ done => done

theorem challengeClient_lingers (c : ConnId) {a : Admission} (live : a.fe < w.frontends.length)
    (secured : (w.fe a.fe).Secured) :
    Yields (challengeClient pf c a w) (fun next => (next.2.fe a.fe).Lingers) fun _ => True := by
  cases challenged : challengeClient pf c a w with
  | error fault => trivial
  | ok next =>
    obtain ⟨works, -⟩ := (challengeClient_works pf c a w).of_ok challenged
    refine ⟨fun _ => ?_, (challengeClient_secured pf c secured).of_ok challenged⟩
    rw [works.connection, World.fe_update_self w live]
    rfl

theorem judge_lingers (able : (w.fe i).CanSend) (lingers : (w.fe i).Lingers) (input : Bytes) :
    Yields (judge pf i input w) (fun next => next.1 = .closed → (next.2.fe i).Lingers) fun _ => True := by
  unfold judge
  apply Yields.bind (Yields.top _)
  intro verdict _ _
  match verdict with
  | .error text =>
    apply Yields.bind ((sendError_tends pf able text).mono (fun _ => id) fun _ => False.elim)
    exact fun w' _ tends _ => lingers.of_tends tends
  | .ok false => exact fun _ => lingers
  | .ok true =>
    apply Yields.bind (Yields.top _)
    exact fun _ _ _ going => by cases going

/-- A connection is given up in the loop when a packet cannot be decrypted. -/
theorem serve_lingers {c : ConnId} (serves : w.Serves c (.main i)) (input : Bytes) :
    Yields (serve pf i input w) (fun next => next.1 = .closed → (next.2.fe i).Lingers) fun _ => True := by
  obtain ⟨ready, connection, -, trusted⟩ := serves
  unfold serve
  have encrypted : Yields ((w.fe i).receive pf.aes input)
      (fun plaintext => plaintext = none → (w.fe i).encrypted = true) fun _ => True := by
    unfold Frontend.receive
    split
    · next both =>
      apply Yields.top _ |>.mono _ fun _ => id
      exact fun _ _ _ => (Bool.and_eq_true _ _ ▸ both).1
    · exact fun nothing => by cases nothing
  apply Yields.bind encrypted
  intro plaintext _ lost
  cases plaintext with
  | none =>
    intro _
    exact ⟨fun _ => ready.connection, fun _ => ready.keys trusted (lost rfl)⟩
  | some plaintext =>
    apply Yields.bind (Yields.top _)
    intro w' _ _
    apply Yields.bind (Yields.top _)
    exact fun _ _ _ going => by cases going

end

theorem Frontend.Lingers.of_atHome {fe fe' : Frontend} (lingers : fe.Lingers) (same : fe'.atHome = fe.atHome) :
    fe'.Lingers := by
  have home : fe'.atHome.Lingers := same ▸ ⟨lingers.connection, lingers.keyed⟩
  exact ⟨home.connection, home.keyed⟩

namespace Server.Lively
variable {s : Server} (lively : s.Lively)
include lively

/-- Where the step of a connection is no concern of the frontend, nothing changes there. -/
theorem elsewhere {c : ConnId} {next : Phase × World} {j : Nat} (apart : s.phase c ≠ .main j)
    (same : (next.2.fe j).atHome = (s.world.fe j).atHome) (idle : (s.put c next).Idle j) :
    (next.2.fe j).Lingers := by
  have idleBefore : s.Idle j := by
    intro d going
    by_cases here : d = c
    · exact apart (here ▸ going)
    · exact idle d ((s.put_phase_ne here next).trans going)
  exact (lively.lingers j idleBefore).of_atHome same

theorem of_tends {w' : World} (tends : s.world.Tends w') : Lively { s with world := w' } where
  serves := fun c => (lively.serves c).of_keeps tends.toKeeps
  queues := fun j => tends.atEnd j (lively.queues j)
  lingers := fun j idle => (lively.lingers j idle).of_tends tends

theorem canSend_of_served {i : Nat} (served : ¬ s.Idle i) : (s.world.fe i).CanSend := by
  obtain ⟨c, session⟩ := not_forall_not.mp served
  have serves := lively.serves c
  rw [session] at serves
  exact serves.1.toCanSend

/-- Whoever is connected or trusted can be sent to, in a session or not. -/
theorem canSend {i : Nat} (there : (s.world.fe i).connected = true ∨ (s.world.fe i).trusted = true) :
    (s.world.fe i).CanSend := by
  by_cases idle : s.Idle i
  · exact (lively.lingers i idle).canSend there
  · exact lively.canSend_of_served idle

/-- A connection is all that is missing for a frontend to be sent to. -/
theorem canSend_of_connection {i : Nat} (connection : (s.world.fe i).connection.isSome = true) :
    (s.world.fe i).CanSend := by
  by_cases idle : s.Idle i
  · exact ⟨connection, fun trusted _ => (lively.lingers i idle).keyed trusted⟩
  · exact lively.canSend_of_served idle

/-- Nobody is trusted without a connection. -/
theorem untrusted {i : Nat} (hungUp : (s.world.fe i).connection = none) : (s.world.fe i).trusted = false := by
  by_contra trusted
  have able := lively.canSend (i := i) (.inr (by simpa using trusted))
  have connection := able.connection
  rw [hungUp] at connection
  cases connection

end Server.Lively

section
variable (pf : Platform)

/-- A connection that is given up leaves its frontend in a state to be sent to. -/
theorem served_lingers {s : Server} {c : ConnId} {next : Phase × World} {i : Nat} (lively : s.Lively)
    (code : ∃ input, (∃ own, s.phase c = .auth i own ∧ judge pf i input s.world = .ok next) ∨
      s.phase c = .main i ∧ serve pf i input s.world = .ok next) (closed : next.1 = .closed) :
    (next.2.fe i).Lingers := by
  have serves := lively.serves c
  obtain ⟨input, ⟨own, phase, judged⟩ | ⟨phase, served⟩⟩ := code
  · rw [phase] at serves
    have idle : s.Idle i := by
      intro d session
      have same := lively.owned.alone (c := c) (d := d) (i := i) (by simp [phase, Phase.frontend])
        (by simp [session, Phase.frontend])
      rw [← same, phase] at session
      cases session
    have able : (s.world.fe i).CanSend := ⟨serves.1.connection, fun _ => serves.1.keysFit⟩
    exact (judge_lingers pf able (lively.lingers i idle) input).of_ok judged closed
  · rw [phase] at serves
    exact (serve_lingers pf serves input).of_ok served closed

/-- A step that keeps to the protocol leaves every session that ends in a state to be sent to. -/
theorem step_lively (bounded : pf.q2.Bounded) {s : Server} {e : Event} (lively : s.Lively)
    (orderly : Orderly pf s e) : Yields (s.step pf e) Server.Lively fun _ => False := by
  obtain ⟨s', stepped, healthy⟩ := (step_healthy pf bounded lively.toHealthy orderly).returns
  rw [stepped]
  refine ⟨healthy, fun j idle => ?_⟩
  obtain ⟨next, rfl, outcome⟩ := Server.step_outcome stepped
  show (next.2.fe j).Lingers
  cases outcome with
  | nothing before same =>
    rw [same] at idle ⊢
    exact lively.elsewhere (before j) rfl idle
  | served i mine works going code =>
    by_cases here : j = i
    · subst here
      have closed : next.1 = .closed := going.resolve_right fun session =>
        idle e.conn ((s.put_phase_self e.conn next).trans session)
      exact served_lingers pf lively code closed
    · refine lively.elsewhere (fun session => here ?_) (works.elsewhere here).1 idle
      simpa [session, Phase.frontend] using mine
  | hungUp i mine lost same =>
    rw [same] at idle ⊢
    by_cases here : j = i
    · have serves := lively.serves e.conn
      rw [mine] at serves
      rw [here, hangUp, World.fe_update_self s.world (World.live_of_connected serves.1.connection)]
      exact ⟨by simp, by simp⟩
    · refine lively.elsewhere (fun session => here ?_) ?_ idle
      · simpa [mine] using session.symm
      · rw [hangUp, World.fe_update_ne s.world here]
  | greeted a fresh admitted challenged =>
    obtain ⟨input, read, checked⟩ := admitted
    have alone : s.Vacant a.fe := by
      have kept := orderly input read
      rw [fresh] at kept
      exact kept.2.2 a checked
    by_cases here : j = a.fe
    · have live := (checkGreeting_live pf s.world input).of_ok checked a rfl
      have before : s.Idle a.fe := fun d session => alone d (by simp [session, Phase.frontend])
      rw [here]
      exact (challengeClient_lingers pf e.conn live (lively.lingers a.fe before).keyed).of_ok challenged
    · obtain ⟨works, -⟩ := (challengeClient_works pf e.conn a s.world).of_ok challenged
      refine lively.elsewhere (by simp [fresh]) ?_ idle
      rw [← World.fe_update_ne s.world here (Frontend.connect e.conn a.greeting)]
      exact (works.elsewhere here).1

/-! ## Maintenance -/

variable {pf} {i : Nat} {w : World}

theorem Frontend.CanSend.of_keeps {w' : World} (able : (w.fe i).CanSend) (keeps : w.Keeps w') :
    (w'.fe i).CanSend where
  connection := by
    rw [World.field_of_frames keeps.frames i (fun fe => fe.connection) fun _ => rfl]
    exact able.connection
  keys := by
    rw [World.field_of_frames keeps.frames i (fun fe => fe.trusted) fun _ => rfl]
    exact fun trusted => keeps.keysFit i (able.keys trusted)

theorem queues_applyRules (q2 : Libq2) (rules : List Rule) (p : Player) :
    Queues fun fe => (applyRules q2 rules (p, fe)).2 := (says_applyRules q2 rules p).toQueues

theorem applyRules_tends (q2 : Libq2) (rules : List Rule) (p : Player) :
    w.Tends (w.update i fun _ => (applyRules q2 rules (p, w.fe i)).2) := by
  have queues := queues_applyRules q2 rules p
  rw [World.update_congr (g := fun fe => (applyRules q2 rules (p, fe)).2) rfl]
  exact .queue i queues

variable (pf)

theorem maintainPlayer_tends (able : (w.fe i).CanSend) (clock : Nat → Time × Int) (cl : Frontend) (slot : Nat) :
    Yields (maintainPlayer pf i clock cl slot w) (fun result => w.Tends result.2) fun _ => False := by
  unfold maintainPlayer
  simp only []
  split
  · exact World.Tends.refl
  split
  · exact World.Tends.refl
  · have told := applyRules_tends (i := i) (w := w) pf.q2 (matchDue pf.rules clock cl.rules ((w.fe i).player slot)).1
      (matchDue pf.rules clock cl.rules ((w.fe i).player slot)).2
    apply Yields.bind (sendMessages_tends pf (able.of_keeps told.toKeeps))
    exact fun _ _ tends => told.trans tends

theorem maintainPlayers_tends (able : (w.fe i).CanSend) (clock : Nat → Nat → Time × Int) (cl : Frontend)
    (slots : List Nat) : Yields (maintainPlayers pf i clock cl slots w) w.Tends fun _ => False := by
  induction slots generalizing w with
  | nil => exact World.Tends.refl
  | cons slot rest ih =>
    apply Yields.bind (maintainPlayer_tends pf able (clock slot) cl slot)
    intro result _ first
    exact (ih (able.of_keeps first.toKeeps)).mono (fun _ later => first.trans later) fun _ => id

theorem inviteBucketAdd_tends (w : World) : w.Tends (inviteBucketAdd i w) := by
  have read : w.Tends w.now.2 := ⟨.now, fun _ => id⟩
  exact read.trans (.of_update (.update rfl (fun equipped => { equipped with }) id id) id)

theorem maintainFrontend_tends (able : (w.fe i).connected = true ∨ (w.fe i).trusted = true → (w.fe i).CanSend)
    (clock : Nat → Nat → Time × Int) (vars : StringMap) :
    Yields (maintainFrontend pf i clock vars w) (fun result => w.Tends result.2) fun _ => False := by
  unfold maintainFrontend
  simp only []
  split
  · exact World.Tends.refl
  next there =>
    have granted := inviteBucketAdd_tends (i := i) w
    have ready : (w.fe i).CanSend := able (by
      cases connected : (w.fe i).connected with
      | true => exact .inl rfl
      | false => exact .inr (by simpa [connected] using there))
    apply Yields.bind (maintainPlayers_tends pf (ready.of_keeps granted.toKeeps) clock (w.fe i) _)
    exact fun _ _ tends => granted.trans tends

end

end Q2Admin
