import Q2Admin.Connection
import Q2Admin.Handlers

/-! What the steps of one connection leave alone for the others, and what the handshake
itself guarantees. -/

namespace Q2Admin
open Go Lib

/-- What a connection that waits for its answer relies on has stayed on frontend `j`. -/
structure World.Spares (j : Nat) (w w' : World) : Prop where
  challenge : (w'.fe j).challenge = (w.fe j).challenge
  connection : (w'.fe j).connection = (w.fe j).connection
  keysFit : (w.fe j).KeysFit → (w'.fe j).KeysFit

/-- Code that spares frontend `j` when it returns. -/
def Spared (j : Nat) (w : World) (x : Except Fault World) : Prop := Yields x (w.Spares j) fun _ => True

namespace World.Spares
variable {j : Nat} {w w' w'' : World}

theorem refl : w.Spares j w := ⟨rfl, rfl, id⟩

theorem trans (first : w.Spares j w') (second : w'.Spares j w'') : w.Spares j w'' where
  challenge := second.challenge.trans first.challenge
  connection := second.connection.trans first.connection
  keysFit := fun fit => second.keysFit (first.keysFit fit)

theorem of_keeps (keeps : w.Keeps w') : w.Spares j w' where
  challenge := field_of_frames keeps.frames j (fun fe => fe.challenge) fun _ => rfl
  connection := field_of_frames keeps.frames j (fun fe => fe.connection) fun _ => rfl
  keysFit := keeps.keysFit j

theorem of_fe (same : w'.fe j = w.fe j) : w.Spares j w' := by
  constructor <;> simp only [same, imp_self]

/-- An update of fields that no waiting connection relies on. -/
theorem update (i : Nat) {f : Frontend → Frontend} (challenge : ∀ fe, (f fe).challenge = fe.challenge)
    (connection : ∀ fe, (f fe).connection = fe.connection) (keysFit : ∀ fe, fe.KeysFit → (f fe).KeysFit) :
    w.Spares j (w.update i f) where
  challenge := fe_update_field w i j (fun fe => fe.challenge) challenge
  connection := fe_update_field w i j (fun fe => fe.connection) connection
  keysFit := fun fit => fe_update_holds w Frontend.KeysFit fit (keysFit _)

theorem queue (i : Nat) {f : Frontend → Frontend} (queues : Queues f) : w.Spares j (w.update i f) :=
  of_keeps (.queue i queues)

theorem setMessage (i : Nat) (msg : Buffer) : w.Spares j (w.setMessage i msg) :=
  update i (fun _ => rfl) (fun _ => rfl) fun _ => id

end World.Spares

namespace Spared
variable {i j : Nat} {w w' : World} {x : Except Fault World} {f : World → Except Fault World}

theorem of_kept {needs : Prop} (kept : Kept i needs w x) : Spared j w x :=
  kept.mono (fun _ keeps => .of_keeps keeps) fun _ _ => trivial

theorem of_spares (spares : w.Spares j w') (rest : Spared j w' x) : Spared j w x :=
  rest.mono (fun _ later => spares.trans later) fun _ _ => trivial

theorem bind (first : Spared j w x) (next : ∀ w', Spared j w' (f w')) : Spared j w (x >>= f) :=
  Yields.bind first fun w' _ spares => of_spares spares (next w')

/-- A result next to the world makes no difference. -/
theorem bindPair {α : Type} {x : Except Fault (α × World)} {f : α × World → Except Fault World}
    (first : Yields x (fun result => w.Spares j result.2) fun _ => True)
    (next : ∀ result, Spared j result.2 (f result)) : Spared j w (x >>= f) :=
  Yields.bind first fun result _ spares => of_spares spares (next result)

end Spared

/-! ## The message loop spares every frontend -/

section
variable (pf : Platform) (i j : Nat)

theorem readByte_spares (w : World) :
    Yields (w.readByte pf.q2 i) (fun result => w.Spares j result.2) fun _ => True := by
  unfold World.readByte
  split
  · trivial
  · exact .setMessage i _

theorem readString_spares (w : World) :
    Yields (w.readString pf.q2 i) (fun result => w.Spares j result.2) fun _ => True := by
  unfold World.readString
  split
  · trivial
  · exact .setMessage i _

theorem sendMessages_spared (w : World) : Spared j w (sendMessages pf i w) :=
  .of_kept (sendMessages_kept pf i w)

theorem parsePlayer_spares (w : World) :
    Yields (parsePlayer pf i w) (fun result => w.Spares j result.2) fun _ => True := by
  apply Yields.bind (readByte_spares pf i j w)
  intro client _ first
  apply Yields.bind (readString_spares pf i j client.2)
  intro userinfo _ second
  apply Yields.bind (readString_spares pf i j userinfo.2)
  intro version _ third
  apply (onPlayer_kept pf i client.1 userinfo.1 version.1 version.2).mono
  · exact fun _ keeps => ((first.trans second).trans third).trans (.of_keeps keeps)
  · exact fun _ _ => trivial

theorem parsePlayers_spared (count : Nat) (w : World) : Spared j w (parsePlayers pf i count w) := by
  induction count generalizing w with
  | zero => exact World.Spares.refl
  | succ count ih => exact .bindPair (parsePlayer_spares pf i j w) fun result => ih result.2

theorem parseCommand_spared (w : World) : Spared j w (parseCommand pf i w) := by
  apply Spared.bindPair (readByte_spares pf i j w)
  intro cmd
  simp only
  split
  · apply Spared.bindPair (readByte_spares pf i j cmd.2)
    intro player
    apply Spared.bindPair (readString_spares pf i j player.2)
    exact fun target => World.Spares.of_keeps (onTeleport_keeps pf i player.1 target.1 target.2)
  split
  · apply Spared.bindPair (readByte_spares pf i j cmd.2)
    intro client
    apply Spared.bindPair (readString_spares pf i j client.2)
    exact fun text => .of_kept (onInvite_kept pf i client.1 text.2)
  · exact World.Spares.refl

theorem dispatch_spared (cmd : Byte) (w : World) : Spared j w (dispatch pf i cmd w) := by
  unfold dispatch
  split
  · exact .of_kept (pong_kept pf i w)
  split
  · apply Spared.bindPair (readByte_spares pf i j w)
    intro level
    apply Spared.bindPair (readString_spares pf i j level.2)
    exact fun text => .of_kept (onPrint_kept pf i level.1 text.1 text.2)
  split
  · apply Spared.bindPair (readString_spares pf i j w)
    exact fun mapname => World.Spares.of_keeps (onMap_keeps i mapname.1 mapname.2)
  split
  · exact .bindPair (readByte_spares pf i j w) fun count => parsePlayers_spared pf i j count.1.toNat count.2
  split
  · apply Spared.bindPair (readByte_spares pf i j w)
    intro client
    apply Spared.bindPair (readString_spares pf i j client.2)
    exact fun userinfo => .of_kept (onPlayerUpdate_kept pf i client.1 userinfo.1 userinfo.2)
  split
  · apply Spared.bindPair (parsePlayer_spares pf i j w)
    exact fun slot => World.Spares.of_keeps (startConnect_keeps i slot.1 slot.2)
  split
  · apply Spared.bindPair (readByte_spares pf i j w)
    exact fun client => World.Spares.of_keeps (onDisconnect_keeps i client.1 client.2)
  split
  · exact parseCommand_spared pf i j w
  · exact World.Spares.refl

theorem parseLoop_spared (fuel : Nat) (w : World) : Spared j w (parseLoop pf i fuel w) := by
  induction fuel generalizing w with
  | zero => trivial
  | succ fuel ih =>
    unfold parseLoop
    split
    · exact World.Spares.refl
    · apply Spared.bind _ ih
      exact .bindPair (readByte_spares pf i j w) fun cmd => dispatch_spared pf i j cmd.1 cmd.2

/-- A packet spares what the handshakes of other connections rely on, whatever is in it. -/
theorem serve_spares (input : Bytes) (w : World) : Yields (serve pf i input w)
    (fun next => w.Spares j next.2 ∧ ∀ k own, next.1 ≠ .auth k own) fun _ => True := by
  unfold serve
  cases (w.fe i).receive pf.aes input with
  | error fault => trivial
  | ok plaintext =>
    cases plaintext with
    | none => exact ⟨World.Spares.refl, by simp⟩
    | some plaintext =>
      have received : w.Spares j (w.setMessage i (pf.q2.newBuffer plaintext)) := .setMessage i _
      have parsed : Spared j w (parseMessage pf i (w.setMessage i (pf.q2.newBuffer plaintext))) :=
        .of_spares received (parseLoop_spared pf i j _ _)
      apply Yields.bind parsed
      intro w' _ first
      apply Yields.bind (sendMessages_spared pf i j w')
      exact fun w'' _ second => ⟨first.trans second, by simp⟩

end

/-! ## A challenge is issued -/

/-- The record still has the challenge, and the verdict on the answer can be sent. -/
structure World.Awaits (w : World) (i : Nat) (own : Bytes) : Prop where
  challenge : (w.fe i).challenge = own
  connection : (w.fe i).connection.isSome = true
  keysFit : (w.fe i).KeysFit
  nonempty : own ≠ []

theorem World.Awaits.spared {w w' : World} {i : Nat} {own : Bytes} (awaits : w.Awaits i own)
    (spares : w.Spares i w') : w'.Awaits i own where
  challenge := spares.challenge.trans awaits.challenge
  connection := spares.connection.symm ▸ awaits.connection
  keysFit := spares.keysFit awaits.keysFit
  nonempty := awaits.nonempty

section
variable (pf : Platform)

theorem publicEncrypt_fe (key : Option PublicKey) (plaintext : Bytes) (w : World) (j : Nat) :
    (publicEncrypt pf key plaintext w).2.fe j = w.fe j := rfl

theorem sessionKeys_ne {i j : Nat} (apart : j ≠ i) (blob : Bytes) (w : World) :
    (sessionKeys i blob w).2.fe j = w.fe j := by
  unfold sessionKeys
  split
  · exact World.fe_update_ne _ apart _
  · rfl

theorem sessionKeys_spec {i : Nat} (blob : Bytes) {w : World} (live : i < w.frontends.length) :
    ((sessionKeys i blob w).2.fe i).challenge = (w.fe i).challenge ∧
      ((sessionKeys i blob w).2.fe i).connection = (w.fe i).connection ∧
      ((sessionKeys i blob w).2.fe i).KeysFit := by
  unfold sessionKeys
  by_cases encrypted : (w.fe i).encrypted = true
  case pos =>
    rw [if_pos encrypted]
    simp only
    rw [World.fe_update_self]
    · exact ⟨rfl, rfl, fun _ => ⟨by simp [World.randomBytes], by simp [World.randomBytes, aesIVLength, aesBlockLength]⟩⟩
    · exact live
  case neg =>
    rw [if_neg encrypted]
    exact ⟨rfl, rfl, fun given => absurd given encrypted⟩

theorem helloAck_spared (i j : Nat) (cipher : Bytes) (w : World) :
    Spared j w (helloAck pf i cipher w) := by
  unfold helloAck
  have queues := ((Queues.writeByte pf.q2 scmdHelloAck).comp
    (Queues.writeShort pf.q2 cipher.length)).comp (Queues.writeData pf.q2 cipher)
  exact .of_spares (.queue i queues) (sendMessages_spared pf i j _)

/-- The challenge of one frontend is nothing to the others. -/
theorem challengeClient_ne (c : ConnId) (a : Admission) {j : Nat} (apart : j ≠ a.fe) (w : World) :
    Yields (challengeClient pf c a w) (fun next => w.Spares j next.2) fun _ => True := by
  have connected : (w.update a.fe (Frontend.connect c a.greeting)).fe j = w.fe j :=
    World.fe_update_ne w apart _
  unfold challengeClient
  simp only
  apply Yields.bind (Yields.top _)
  intro loaded _ _
  split
  · exact .of_fe connected
  split
  · refine .of_fe ?_
    rw [publicEncrypt_fe, sessionKeys_ne apart, World.fe_update_ne _ apart]
    exact connected
  · apply Yields.bind (helloAck_spared pf a.fe j _ _)
    intro w' _ spares
    refine World.Spares.trans (.of_fe ?_) spares
    rw [publicEncrypt_fe, sessionKeys_ne apart, World.fe_update_ne _ apart]
    exact connected

theorem challengeClient_spec (c : ConnId) {a : Admission} {w : World}
    (live : a.fe < w.frontends.length) : Yields (challengeClient pf c a w)
      (fun next => (next.2.fe a.fe).connection = some c ∧
        ∀ i own, next.1 = .auth i own → i = a.fe ∧ next.2.Awaits i own) fun _ => True := by
  have connected : ((w.update a.fe (Frontend.connect c a.greeting)).fe a.fe).connection = some c := by
    rw [World.fe_update_self w live]
    rfl
  unfold challengeClient
  simp only
  apply Yields.bind (Yields.top _)
  intro loaded _ _
  split
  · exact ⟨connected, by simp⟩
  next pubkey _ =>
  let drawn := (w.update a.fe (Frontend.connect c a.greeting)).randomBytes challengeLength
  let issued := drawn.2.update a.fe fun fe => { fe with publicKey := pubkey, challenge := drawn.1 }
  have record : issued.fe a.fe =
      { drawn.2.fe a.fe with publicKey := pubkey, challenge := drawn.1 } := by
    apply World.fe_update_self
    exact (World.length_update w a.fe _).symm ▸ live
  have liveIssued : a.fe < issued.frontends.length := by
    simp only [issued, drawn, World.randomBytes, World.length_update]
    exact live
  obtain ⟨challenge, connection, keysFit⟩ := sessionKeys_spec (a.hash ++ drawn.1) liveIssued
  rw [record] at challenge connection
  have nonempty : drawn.1 ≠ [] := by simp [drawn, World.randomBytes, challengeLength]
  have same := publicEncrypt_fe pf pubkey (sessionKeys a.fe (a.hash ++ drawn.1) issued).1
    (sessionKeys a.fe (a.hash ++ drawn.1) issued).2 a.fe
  rw [← same] at challenge connection keysFit
  have mine := connection.trans connected
  split
  · exact ⟨mine, by simp⟩
  · apply Yields.bind (helloAck_spared pf a.fe a.fe _ _)
    intro w' _ spares
    refine ⟨spares.connection.trans mine, ?_⟩
    rintro i own ⟨⟩
    refine ⟨rfl, World.Awaits.spared ?_ spares⟩
    exact ⟨challenge, by rw [mine]; rfl, keysFit, nonempty⟩

/-! ## The answer is judged -/

theorem sendError_spared (i j : Nat) (pl : Option Player) (severity : Int) (err : Bytes) (w : World) :
    Spared j w (sendError pf i pl severity err w) :=
  .of_kept (sendError_kept pf i pl severity err w)

theorem trustClient_spared (i j : Nat) (w : World) : Spared j w (trustClient pf i w) := by
  have queued : w.Spares j (w.update i (Frontend.writeByte pf.q2 scmdTrusted)) :=
    .queue i (Queues.writeByte pf.q2 scmdTrusted)
  apply Yields.bind (sendMessages_spared pf i j _)
  intro w' _ sent
  have clock : w'.Spares j w'.now.2 := .of_fe rfl
  have trusted : w'.now.2.Spares j (w'.trust i) :=
    .update i (fun _ => rfl) (fun _ => rfl) fun _ => id
  exact (queued.trans sent).trans (clock.trans trusted)

/-- Whatever the verdict, other challenges are left as they are and no new one is issued. -/
theorem judge_spares (i j : Nat) (input : Bytes) (w : World) : Yields (judge pf i input w)
    (fun next => w.Spares j next.2 ∧ ∀ k own, next.1 ≠ .auth k own) fun _ => True := by
  unfold judge
  cases authenticateClient pf (w.fe i) (pf.q2.newBuffer input) with
  | error fault => trivial
  | ok verdict =>
    match verdict with
    | .error text =>
      apply Yields.bind (sendError_spared pf i j none 500 text w)
      exact fun w' _ spares => ⟨spares, by simp⟩
    | .ok false => exact ⟨World.Spares.refl, by simp⟩
    | .ok true =>
      apply Yields.bind (trustClient_spared pf i j w)
      exact fun w' _ spares => ⟨spares, by simp⟩

/-- The input is an answer whose ciphertext decrypts to the digest of the challenge. -/
def Answers (fe : Frontend) (challenge input : Bytes) : Prop :=
  ∃ cipher, authCipher pf.q2 fe.name (pf.q2.newBuffer input) = .ok (.ok cipher) ∧
    pf.keys.privateDecrypt cipher = some (List.ofFn (pf.keys.sha256 challenge))

/-- An error of the decryption never passes as the digest. -/
theorem digest_eq_iff {challenge : Bytes} (nonempty : challenge ≠ []) (cipher : Bytes) :
    (pf.keys.privateDecrypt cipher).getD [] = (messageDigest pf.keys challenge).getD [] ↔
      pf.keys.privateDecrypt cipher = some (List.ofFn (pf.keys.sha256 challenge)) := by
  simp only [messageDigest, nonempty, ↓reduceIte, Option.getD_some]
  cases pf.keys.privateDecrypt cipher with
  | none => simp
  | some plaintext => simp

theorem trustClient_returns {i : Nat} {w : World}
    (able : ((w.update i (Frontend.writeByte pf.q2 scmdTrusted)).fe i).CanSend) :
    ∃ result, SentTo ((w.update i (Frontend.writeByte pf.q2 scmdTrusted)).fe i) result.1 ∧
      trustClient pf i w =
        .ok (((w.update i (Frontend.writeByte pf.q2 scmdTrusted)).sent i result).trust i) := by
  have flushed := flush_sent pf ((w.update i (Frontend.writeByte pf.q2 scmdTrusted)).fe i)
  obtain ⟨result, sent, sentTo⟩ := (flushed.mono (fun _ => id) fun _ missing => missing able).returns
  refine ⟨result, sentTo, ?_⟩
  unfold trustClient sendMessages
  rw [sent]
  rfl

theorem trust_canSend {i : Nat} {w : World} {own : Bytes} (awaits : w.Awaits i own) :
    ((w.update i (Frontend.writeByte pf.q2 scmdTrusted)).fe i).CanSend :=
  World.fe_update_holds w Frontend.CanSend ⟨awaits.connection, fun _ => awaits.keysFit⟩
    fun able => { able with }

theorem trust_ready {i : Nat} {w : World} (live : i < w.frontends.length)
    (connection : (w.fe i).connection.isSome = true) (keysFit : (w.fe i).KeysFit)
    (atEnd : (w.fe i).messageOut.AtEnd) : ((w.trust i).fe i).Ready := by
  have record : (w.trust i).fe i = (w.fe i).trust w.now.1 w.host.serverVars :=
    World.fe_update_self w.now.2 live _
  rw [record]
  constructor
  case toCanSend => exact ⟨connection, fun _ => keysFit⟩
  case sized => exact List.length_replicate
  case ids =>
    intro p member
    obtain ⟨some, rfl⟩ := List.mem_replicate.mp member
    simp only [Frontend.InRange, Frontend.trust, List.length_replicate]
    omega
  case atEnd => exact atEnd

/-- A connection that is accepted has a session that is ready for its messages. -/
theorem trustClient_ready {i : Nat} {w : World} {own : Bytes} (awaits : w.Awaits i own)
    (live : i < w.frontends.length) (atEnd : (w.fe i).messageOut.AtEnd) :
    ∃ w', trustClient pf i w = .ok w' ∧ (w'.fe i).Ready := by
  have able := trust_canSend pf awaits
  obtain ⟨result, sent, trusted⟩ := trustClient_returns pf able
  let queued := w.update i (Frontend.writeByte pf.q2 scmdTrusted)
  have liveQueued : i < queued.frontends.length := (World.length_update w i _).symm ▸ live
  have record : (queued.sent i result).fe i = result.1 :=
    World.fe_update_self queued liveQueued fun _ => result.1
  have written : (queued.fe i).messageOut.AtEnd :=
    World.fe_update_holds w (fun fe => fe.messageOut.AtEnd) atEnd
      ((Queues.writeByte pf.q2 scmdTrusted).atEnd _)
  have keysFit : (queued.fe i).KeysFit :=
    World.fe_update_holds w Frontend.KeysFit awaits.keysFit id
  refine ⟨_, trusted, trust_ready ?_ ?_ ?_ ?_⟩
  · exact (World.length_update queued i _).symm ▸ liveQueued
  · exact record ▸ (sent.canSend able).connection
  · exact record ▸ sent.keysFit keysFit
  · exact record ▸ sent.atEnd written

/-- A connection that still has its challenge in the record is judged by its own. -/
theorem judge_own {i : Nat} {own : Bytes} {w : World} (awaits : w.Awaits i own) (input : Bytes) :
    Yields (judge pf i input w) (fun next => next.1 = .main i ↔ Answers pf (w.fe i) own input)
      fun _ => ¬ Answers pf (w.fe i) own input := by
  unfold judge authenticateClient Answers
  cases read : authCipher pf.q2 (w.fe i).name (pf.q2.newBuffer input) with
  | error fault => exact fun ⟨cipher, same, _⟩ => by simp at same
  | ok verdict =>
    cases verdict with
    | error text =>
      have silent : ¬ ∃ cipher, (Except.ok (Except.error text) : Except Fault (Except Bytes Bytes)) =
          .ok (.ok cipher) ∧
          pf.keys.privateDecrypt cipher = some (List.ofFn (pf.keys.sha256 own)) := by simp
      apply Yields.bind (sendError_spared pf i i none 500 text w |>.mono (fun _ => id) fun _ _ => silent)
      exact fun w' _ _ => ⟨by simp, fun given => absurd given silent⟩
    | ok cipher =>
      have right := digest_eq_iff pf awaits.nonempty cipher
      simp only [Except.map, awaits.challenge, Bind.bind, Except.bind, Except.ok.injEq,
        exists_eq_left', ← right]
      by_cases correct : (pf.keys.privateDecrypt cipher).getD [] = (messageDigest pf.keys own).getD []
      case pos =>
        obtain ⟨result, -, trusted⟩ := trustClient_returns pf (trust_canSend pf awaits)
        simp [correct, trusted]
      case neg => simp [correct]

end

/-! ## A frontend and its client -/

def openFrontend : Frontend where
  enabled := true
  name := ascii "openffa"
  publicKeyData := ascii "key of openffa"
  uuid := ascii "5a1bd1f6-7b3c-4d2e-9f00-27910c0ffee0"

def openWorld : World where
  frontends := [openFrontend]
  host := Host.counting

/-- A message as `KeyLib.plain` encrypts it. -/
def plainCipher (message : Bytes) : Bytes :=
  0 :: 2 :: List.replicate (rsaKeyLength - 3 - message.length) 1 ++ 0 :: message

/-- Version 715 on port 27910 with sixteen players, encrypted. -/
def openGreeting : Bytes :=
  ascii "Q2AC" ++ cmdHello :: openFrontend.uuid ++ [0, 203, 2, 0, 0, 6, 109, 16, 1] ++
    plainCipher (List.replicate 16 9)

def answerTo (challenge : Bytes) : Bytes :=
  cmdAuth :: 0 :: 1 :: plainCipher (List.ofFn (KeyLib.plain.sha256 challenge))

/-- The first challenge of the counting host. -/
def firstChallenge : Bytes := (List.range 16).map UInt8.ofNat

end Q2Admin
