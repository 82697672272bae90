import Q2Admin.Parse

/-! `HandleConnection`: the handshake of a connection and its message loop. What a run does
between two reads of its connection is one step here, and the steps of all connections
interleave on the frontends they share. -/

namespace Q2Admin
open Go

def challengeLength : Nat := 16
def versionRequired : Int := 715
def greetingLength : Nat := 306
def netReadLength : Nat := 5000
def protocolMagic : Int := 1128346193
def maxInviteTokens : Int := 3

/-- `greeting`. -/
structure Greeting where
  uuid : Bytes
  version : Int
  port : Int
  maxPlayers : Nat
  encrypted : Bool
  challenge : Bytes

/-- A read that has no result panics. -/
def demand {α : Type} (read : Option α) : Except Fault α := read.elim (.error .bufferRead) .ok

/-- `ParseGreeting`, without the error of a short one. -/
def parseGreeting (q2 : Libq2) (msg : Buffer) : Except Fault (Option Greeting) :=
  if msg.length < greetingLength then .ok none
  else do
    let (uuid, msg) ← demand (q2.readString msg)
    let (version, msg) ← demand (q2.readLong msg)
    let (port, msg) ← demand (q2.readShort msg)
    let (maxPlayers, msg) ← demand (q2.readByte msg)
    let (encrypted, msg) ← demand (q2.readByte msg)
    let (challenge, _) ← demand (q2.readData msg rsaKeyLength)
    .ok (some ⟨uuid, version, port, maxPlayers.toNat, encrypted = 1, challenge⟩)

/-- `FindFrontend`. -/
def World.findFrontend (w : World) (lookup : Bytes) : Option Nat :=
  if lookup = [] then none else w.frontends.findIdx? fun fe => fe.uuid = lookup

/-- A greeting that has passed all checks: its frontend and the digest of its nonce. -/
structure Admission where
  fe : Nat
  greeting : Greeting
  hash : Bytes

/-- Where a run of `HandleConnection` waits for its next read. -/
inductive Phase where
  | greeting
  /-- The frontend it has found, and the challenge it has sent. -/
  | auth (fe : Nat) (challenge : Bytes)
  | main (fe : Nat)
  | closed
  deriving DecidableEq

section
variable (pf : Platform)

/-! ## The greeting -/

/-- The reads of a greeting and the checks on it, up to its frontend. -/
def findGreeted (w : World) (input : Bytes) : Except Fault (Option Admission) :=
  let msg := pf.q2.newBuffer input
  if msg.length < 5 then .ok none
  else do
    let (magic, msg) ← demand (pf.q2.readLong msg)
    if magic ≠ protocolMagic then .ok none
    else do
      let (cmd, msg) ← demand (pf.q2.readByte msg)
      if cmd ≠ cmdHello then .ok none
      else do
        let greeting ← parseGreeting pf.q2 msg
        .ok (do
          let greeting ← greeting
          let nonce ← pf.keys.privateDecrypt greeting.challenge
          let hash ← messageDigest pf.keys nonce
          let i ← w.findFrontend greeting.uuid
          some ⟨i, greeting, hash⟩)

/-- All checks on a greeting, the last of which is that of its version. They come before
anything is written. -/
def checkGreeting (w : World) (input : Bytes) : Except Fault (Option Admission) :=
  (findGreeted pf w input).map (Option.filter fun a => versionRequired ≤ a.greeting.version)

/-- The fields of the frontend that the greeting sets. -/
def Frontend.connect (c : ConnId) (g : Greeting) (fe : Frontend) : Frontend := { fe with
  port := g.port
  encrypted := g.encrypted
  connection := some c
  connected := true
  version := g.version
  maxPlayers := g.maxPlayers }

/-- The session keys of an encrypted connection, drawn and appended to what is sent. -/
def sessionKeys (i : Nat) (blob : Bytes) (w : World) : Bytes × World :=
  if (w.fe i).encrypted then
    let (key, w) := w.randomBytes aesBlockLength
    let (iv, w) := w.randomBytes aesIVLength
    (blob ++ key ++ iv, w.update i fun fe => { fe with symmetricKey := key, initVector := iv })
  else (blob, w)

/-- `PublicEncrypt`, which draws its padding unless the key is nil. -/
def publicEncrypt (key : Option PublicKey) (plaintext : Bytes) (w : World) : Option Bytes × World :=
  (key.bind fun key => pf.keys.encryptPKCS1v15 key plaintext (w.host.random w.randomReads),
    { w with randomReads := w.randomReads + if key.isSome then 1 else 0 })

/-- The frontend answers with a challenge of its own. -/
def helloAck (i : Nat) (cipher : Bytes) (w : World) : Except Fault World :=
  sendMessages pf i (w.update i fun fe =>
    ((fe.writeByte pf.q2 scmdHelloAck).writeShort pf.q2 cipher.length).writeData pf.q2 cipher)

/-- From the first write to the frontend up to the read of the answer. `LoadPublicKey` is
given the text of the key where it asks for the name of a file. -/
def challengeClient (c : ConnId) (a : Admission) (w : World) : Except Fault (Phase × World) := do
  let w := w.update a.fe (Frontend.connect c a.greeting)
  match ← pf.keys.loadPublicKey (w.host.readKey c (w.fe a.fe).publicKeyData) with
  | none => .ok (.closed, w)
  | some pubkey =>
    let (challenge, w) := w.randomBytes challengeLength
    let w := w.update a.fe fun fe => { fe with publicKey := pubkey, challenge := challenge }
    let (blob, w) := sessionKeys a.fe (a.hash ++ challenge) w
    let (cipher, w) := publicEncrypt pf pubkey blob w
    match cipher with
    | none => .ok (.closed, w)
    | some cipher => do
      let w ← helloAck pf a.fe cipher w
      .ok (.auth a.fe challenge, w)

/-- The first line of the log comes before the check of the version. -/
def greet (c : ConnId) (input : Bytes) (w : World) : Except Fault (Phase × World) := do
  match ← findGreeted pf w input with
  | none => .ok (.closed, w)
  | some a =>
    if ¬ w.host.opensLog c then .error .nilLogger
    else if a.greeting.version < versionRequired then .ok (.closed, w)
    else challengeClient pf c a w

/-! ## The answer to the challenge -/

/-- The reads of `AuthenticateClient`: the text of its error, or the ciphertext. -/
def authCipher (q2 : Libq2) (name : Bytes) (msg : Buffer) : Except Fault (Except Bytes Bytes) :=
  let named (text : Bytes) := ascii "[" ++ name ++ ascii "] " ++ text
  if msg.length ≠ rsaKeyLength + 3 then
    .ok (.error (named (ascii "invalid frontend auth length (" ++ decimal msg.length ++ ascii ")")))
  else do
    let (cmd, msg) ← demand (q2.readByte msg)
    if cmd ≠ cmdAuth then .ok (.error (named (ascii "not a frontend auth message")))
    else do
      let (count, msg) ← demand (q2.readShort msg)
      let (cipher, _) ← demand (q2.readData msg count)
      if cipher.length = 0 then .ok (.error (named (ascii "invalid cipher length")))
      else .ok (.ok cipher)

/-- `AuthenticateClient`. Where a digest is missing for an error, it compares as empty. -/
def authenticateClient (fe : Frontend) (msg : Buffer) : Except Fault (Except Bytes Bool) := do
  let cipher ← authCipher pf.q2 fe.name msg
  .ok (cipher.map fun cipher =>
    (pf.keys.privateDecrypt cipher).getD [] = (messageDigest pf.keys fe.challenge).getD [])

/-- What a client that has proved itself is given. -/
def Frontend.trust (now : Int) (vars : StringMap) (fe : Frontend) : Frontend := { fe with
  trusted := true
  connectTime := now
  players := List.replicate fe.maxPlayers {}
  invites := { tokens := maxInviteTokens, max := maxInviteTokens, freq := 30 }
  serverVars := vars }

def World.trust (i : Nat) (w : World) : World :=
  let (now, w) := w.now
  w.update i (Frontend.trust now w.host.serverVars)

def trustClient (i : Nat) (w : World) : Except Fault World := do
  let w ← sendMessages pf i (w.update i (Frontend.writeByte pf.q2 scmdTrusted))
  .ok (w.trust i)

def judge (i : Nat) (input : Bytes) (w : World) : Except Fault (Phase × World) := do
  match ← authenticateClient pf (w.fe i) (pf.q2.newBuffer input) with
  | .error text => do
    let w ← sendError pf i none 500 text w
    .ok (.closed, w)
  | .ok false => .ok (.closed, w)
  | .ok true => do
    let w ← trustClient pf i w
    .ok (.main i, w)

/-! ## The message loop -/

/-- What of an input is given to `ParseMessage`; none ends the connection. When the
packet does not decrypt, `input` and `size` are the empty result of that attempt. -/
def Frontend.receive (aes : Aes) (fe : Frontend) (input : Bytes) : Except Fault (Option Bytes) :=
  if fe.encrypted && fe.trusted then do
    let (input, size) ← symmetricDecrypt aes fe.symmetricKey fe.initVector input
    if size = 0 then do
      let (input, size) ← symmetricDecrypt aes fe.symmetricKey fe.previousIV (input.take size)
      .ok (if size = 0 then none else some (input.take size))
    else .ok (some (input.take size))
  else .ok (some input)

def serve (i : Nat) (input : Bytes) (w : World) : Except Fault (Phase × World) := do
  match ← (w.fe i).receive pf.aes input with
  | none => .ok (.closed, w)
  | some plaintext => do
    let w ← parseMessage pf i (w.setMessage i (pf.q2.newBuffer plaintext))
    let w ← sendMessages pf i w
    .ok (.main i, w)

/-- The end of the loop, when the connection cannot be read. -/
def hangUp (i : Nat) (w : World) : World :=
  w.update i fun fe => { fe with connection := none, connected := false, trusted := false }

end

/-- What the checks on a greeting find decides what it comes to, unless the process ends. -/
theorem greet_of_ok {pf : Platform} {c : ConnId} {input : Bytes} {w : World} {next : Phase × World}
    (greeted : greet pf c input w = .ok next) : ∃ result, checkGreeting pf w input = .ok result ∧
      (result = none → next = (.closed, w)) ∧ ∀ a, result = some a → challengeClient pf c a w = .ok next := by
  unfold greet at greeted
  cases found : findGreeted pf w input with
  | error fault => simp [found, Bind.bind, Except.bind] at greeted
  | ok result =>
    simp only [checkGreeting, found, Bind.bind, Except.bind] at greeted ⊢
    refine ⟨_, rfl, ?_⟩
    cases result with
    | none => exact ⟨fun _ => (Except.ok.inj greeted).symm, by simp⟩
    | some a =>
      simp only at greeted
      by_cases logs : w.host.opensLog c = true
      case neg => simp [logs] at greeted
      by_cases old : a.greeting.version < versionRequired
      · rw [if_neg (not_not.mpr logs), if_pos old] at greeted
        have refused : ¬ versionRequired ≤ a.greeting.version := by omega
        exact ⟨fun _ => (Except.ok.inj greeted).symm, by simp [Option.filter, refused]⟩
      · rw [if_neg (not_not.mpr logs), if_neg old] at greeted
        have admitted : versionRequired ≤ a.greeting.version := by omega
        exact ⟨by simp [Option.filter, admitted], by simpa [Option.filter, admitted] using greeted⟩

/-! ## All connections -/

/-- A read of a connection, which fails or returns some bytes. -/
structure Event where
  conn : ConnId
  read : Option Bytes

/-- No read returns more than the buffer of the connection holds. -/
def Event.input (e : Event) : Option Bytes := e.read.map (List.take netReadLength)

structure Server where
  world : World
  phase : ConnId → Phase

namespace Server

/-- The server when it starts to listen. -/
def start (w : World) : Server := ⟨w, fun _ => .greeting⟩

def put (s : Server) (c : ConnId) (next : Phase × World) : Server :=
  ⟨next.2, Function.update s.phase c next.1⟩

/-- A connection goes on from the read it waits for, up to the next. -/
def resume (pf : Platform) (s : Server) (c : ConnId) : Option Bytes → Except Fault (Phase × World)
  | none => match s.phase c with
    | .main i => .ok (.closed, hangUp i s.world)
    | _ => .ok (.closed, s.world)
  | some input => match s.phase c with
    | .greeting => greet pf c input s.world
    | .auth i _ => judge pf i input s.world
    | .main i => serve pf i input s.world
    | .closed => .ok (.closed, s.world)

def step (pf : Platform) (s : Server) (e : Event) : Except Fault Server := do
  let next ← s.resume pf e.conn e.input
  .ok (s.put e.conn next)

theorem put_phase_self (s : Server) (c : ConnId) (next : Phase × World) :
    (s.put c next).phase c = next.1 := Function.update_self ..

theorem put_phase_ne (s : Server) {c d : ConnId} (apart : d ≠ c) (next : Phase × World) :
    (s.put c next).phase d = s.phase d := Function.update_of_ne apart ..

theorem step_ok {pf : Platform} {s s' : Server} {e : Event} (stepped : s.step pf e = .ok s') :
    ∃ next, s.resume pf e.conn e.input = .ok next ∧ s' = s.put e.conn next := by
  unfold step at stepped
  cases resumed : s.resume pf e.conn e.input with
  | error fault => simp [resumed, Bind.bind, Except.bind] at stepped
  | ok next =>
    simp only [resumed, Bind.bind, Except.bind, Except.ok.injEq] at stepped
    exact ⟨next, rfl, stepped.symm⟩

end Server
end Q2Admin
