import Q2Admin.Lib.Runs
import Q2Admin.Command
import Q2Admin.SymmetricRoundTrip

/-! The keys of the two ends of an encrypted connection. `SendMessages` chains the initial
vector from packet to packet and `RotateKeys` replaces key and vector after a packet that
still goes out under the old ones; a receiver that follows these rules stays in step. -/

namespace Q2Admin
open Lib

/-- A frontend in the main loop of an encrypted connection. -/
structure Frontend.SendReady (fe : Frontend) : Prop where
  trusted : fe.trusted = true
  encrypted : fe.encrypted = true
  connection : fe.connection.isSome = true
  keyLength : fe.symmetricKey.length = aesBlockLength
  ivLength : fe.initVector.length = aesBlockLength
  atEnd : fe.messageOut.AtEnd

/-- The ciphertext of a plaintext under the frontend's key and vector. -/
def Frontend.cipherOf (aes : Aes) (fe : Frontend) (plaintext : Bytes) : Bytes :=
  Blocks.flatten (cipherBlocks aes fe.symmetricKey fe.initVector plaintext)

/-- What the queue goes out as. -/
def Frontend.packet (aes : Aes) (fe : Frontend) : Bytes := fe.cipherOf aes fe.messageOut.data

/-- The frontend once its queue has gone out: the first block of the packet is the next
initial vector. -/
def Frontend.shipped (aes : Aes) (fe : Frontend) : Frontend := { fe with
  messageOut := {}
  previousIV := fe.initVector
  initVector := (fe.packet aes).take aesIVLength }

theorem length_take_cipher (aes : Aes) (fe : Frontend) (plaintext : Bytes) :
    ((fe.cipherOf aes plaintext).take aesIVLength).length = aesBlockLength := by
  rw [List.length_take, Frontend.cipherOf, Blocks.length_flatten, length_cipherBlocks, blockCount]
  simp only [aesIVLength, aesBlockLength]
  omega

theorem flush_empty (pf : Platform) {fe : Frontend} (atEnd : fe.messageOut.AtEnd)
    (empty : fe.messageOut.data = []) : fe.flush pf = .ok (fe, []) := by
  simp [Frontend.flush, pf.q2.size_eq _ atEnd, empty]

theorem flush_packet (pf : Platform) {fe : Frontend} (ready : fe.SendReady)
    (queued : fe.messageOut.data ≠ []) : ∃ c, fe.flush pf =
      .ok (fe.shipped pf.aes, [(c, fe.packet pf.aes)]) := by
  obtain ⟨c, connected⟩ := Option.isSome_iff_exists.mp ready.connection
  have size : pf.q2.size fe.messageOut ≠ 0 := by
    rw [pf.q2.size_eq _ ready.atEnd]
    exact fun zero => queued (List.length_eq_zero_iff.mp zero)
  have whole : fe.messageOut.data.take fe.messageOut.index = fe.messageOut.data := by
    rw [ready.atEnd, List.take_length]
  have cipher := symmetricEncrypt_eq pf.aes ready.keyLength ready.ivLength fe.messageOut.data
  refine ⟨c, ?_⟩
  simp only [Frontend.flush, Frontend.encryptQueue, size, ready.trusted, ready.encrypted, whole, cipher, connected,
    pf.q2.newBuffer_eq, pf.q2.reset_eq, Frontend.shipped, Bool.and_self, ↓reduceIte]
  rfl

theorem shipped_ready {fe : Frontend} (aes : Aes) (ready : fe.SendReady) :
    (fe.shipped aes).SendReady :=
  { ready with ivLength := length_take_cipher aes fe _, atEnd := rfl }

/-! ## The receiver -/

structure Receiver where
  key : Bytes
  iv : Bytes
  deriving DecidableEq

/-- The packet is decrypted and its first block becomes the vector; the packet of a
rotation ends with the new key and vector, which are adopted. -/
def Receiver.accept (aes : Aes) (rotates : Bool) (packet : Bytes) (r : Receiver) :
    Except Fault (Bytes × Receiver) := do
  let (plaintext, _) ← symmetricDecrypt aes r.key r.iv packet
  if rotates then
    let blob := plaintext.drop (plaintext.length - (aesBlockLength + aesIVLength))
    .ok (plaintext, ⟨blob.take aesBlockLength, blob.drop aesBlockLength⟩)
  else .ok (plaintext, ⟨r.key, packet.take aesIVLength⟩)

def Receiver.acceptAll (aes : Aes) (rotates : Bool) : List (ConnId × Bytes) → Receiver →
    Except Fault (List Bytes × Receiver)
  | [], r => .ok ([], r)
  | (_, packet) :: rest, r => do
    let (plaintext, r) ← r.accept aes rotates packet
    let (plaintexts, r) ← acceptAll aes rotates rest r
    .ok (plaintext :: plaintexts, r)

theorem acceptAll_one {aes : Aes} {rotates : Bool} {packet plaintext : Bytes} {r r' : Receiver}
    (c : ConnId) (accepted : r.accept aes rotates packet = .ok (plaintext, r')) :
    r.acceptAll aes rotates [(c, packet)] = .ok ([plaintext], r') := by
  simp only [Receiver.acceptAll, accepted]
  rfl

/-! ## What is queued -/

/-- A write to the outgoing buffer. -/
inductive OutWrite where
  | byte (n : Int)
  | string (s : Bytes)
  | data (d : Bytes)

def OutWrite.bytes : OutWrite → Bytes
  | .byte n => [byteOf n]
  | .string s => s ++ [0]
  | .data d => d

def OutWrite.apply (q2 : Libq2) : OutWrite → Frontend → Frontend
  | .byte n => Frontend.writeByte q2 n
  | .string s => Frontend.writeString q2 s
  | .data d => Frontend.writeData q2 d

inductive SendOp where
  | queue (write : OutWrite)
  | send
  | rotate

/-- The queue as the receiver is meant to see it: bytes wait, and leave in packets. -/
structure Outbox where
  pending : Bytes
  delivered : List Bytes

def Outbox.flush (o : Outbox) : Outbox :=
  if o.pending = [] then o else ⟨[], o.delivered ++ [o.pending]⟩

def Outbox.step (newkey newIV : Bytes) (o : Outbox) : SendOp → Outbox
  | .queue write => { o with pending := o.pending ++ write.bytes }
  | .send => o.flush
  | .rotate => Outbox.flush { o with pending := o.pending ++ ([byteOf scmdKey] ++ (newkey ++ newIV)) }

def SendOp.perform (pf : Platform) (i : Nat) (w : World) : SendOp → Except Fault World
  | .queue write => .ok (w.update i (write.apply pf.q2))
  | .send => sendMessages pf i w
  | .rotate => rotateKeys pf i w

def SendOp.rotates : SendOp → Bool
  | .rotate => true
  | _ => false

/-- Both ends of the connection, with what has been queued and what has been recovered. -/
structure Joint where
  world : World
  receiver : Receiver
  recovered : List Bytes
  outbox : Outbox

/-- One operation, and the receiver's work on the packets it puts on the wire. -/
def Joint.step (pf : Platform) (i : Nat) (j : Joint) (op : SendOp) : Except Fault Joint := do
  let w ← op.perform pf i j.world
  let packets := w.wire.drop j.world.wire.length
  let (plaintexts, receiver) ← j.receiver.acceptAll pf.aes op.rotates packets
  let (newkey, drawn) := j.world.randomBytes aesBlockLength
  let (newIV, _) := drawn.randomBytes aesIVLength
  .ok ⟨w, receiver, j.recovered ++ plaintexts, j.outbox.step newkey newIV op⟩

/-- A connection at its start, with a receiver that knows key and vector. -/
def Joint.start (i : Nat) (w : World) : Joint where
  world := w
  receiver := ⟨(w.fe i).symmetricKey, (w.fe i).initVector⟩
  recovered := []
  outbox := ⟨(w.fe i).messageOut.data, []⟩

/-- The two ends agree. -/
structure Joint.InSync (i : Nat) (j : Joint) : Prop where
  live : i < j.world.frontends.length
  ready : (j.world.fe i).SendReady
  key : j.receiver.key = (j.world.fe i).symmetricKey
  iv : j.receiver.iv = (j.world.fe i).initVector
  pending : j.outbox.pending = (j.world.fe i).messageOut.data
  recovered : j.recovered = j.outbox.delivered

theorem write_ready (q2 : Libq2) (write : OutWrite) {fe : Frontend} (ready : fe.SendReady) :
    (write.apply q2 fe).SendReady ∧
      (write.apply q2 fe).messageOut.data = fe.messageOut.data ++ write.bytes := by
  cases write with
  | byte n =>
    have appends := q2.writeByte_appends fe.messageOut n ready.atEnd
    exact ⟨{ ready with atEnd := appends.atEnd }, appends.data⟩
  | string s =>
    have appends := q2.writeString_appends fe.messageOut s ready.atEnd
    exact ⟨{ ready with atEnd := appends.atEnd }, appends.data⟩
  | data d =>
    have appends := q2.writeData_appends fe.messageOut d ready.atEnd
    exact ⟨{ ready with atEnd := appends.atEnd }, appends.data⟩

theorem write_keys (q2 : Libq2) (write : OutWrite) (fe : Frontend) :
    (write.apply q2 fe).symmetricKey = fe.symmetricKey ∧
      (write.apply q2 fe).initVector = fe.initVector := by
  cases write <;> exact ⟨rfl, rfl⟩

/-! ## A rotation -/

/-- The frontend with the key message in its queue, behind what waits already. -/
def Frontend.announce (q2 : Libq2) (newkey newIV : Bytes) (fe : Frontend) : Frontend :=
  (fe.writeByte q2 scmdKey).writeData q2 (newkey ++ newIV)

def Frontend.rekeyed (pf : Platform) (newkey newIV : Bytes) (fe : Frontend) : Frontend :=
  { (fe.announce pf.q2 newkey newIV).shipped pf.aes with
    symmetricKey := newkey
    initVector := newIV }

theorem announce_ready (q2 : Libq2) {fe : Frontend} (newkey newIV : Bytes) (ready : fe.SendReady) :
    (fe.announce q2 newkey newIV).SendReady ∧ (fe.announce q2 newkey newIV).messageOut.data =
      fe.messageOut.data ++ ([byteOf scmdKey] ++ (newkey ++ newIV)) := by
  have byte := write_ready q2 (.byte scmdKey) ready
  have blob := write_ready q2 (.data (newkey ++ newIV)) byte.1
  refine ⟨blob.1, blob.2.trans ?_⟩
  rw [byte.2, List.append_assoc]
  rfl

theorem rekeyed_ready (pf : Platform) {fe : Frontend} {newkey newIV : Bytes}
    (keyLength : newkey.length = aesBlockLength) (ivLength : newIV.length = aesBlockLength)
    (ready : fe.SendReady) : (fe.rekeyed pf newkey newIV).SendReady :=
  { shipped_ready pf.aes (announce_ready pf.q2 newkey newIV ready).1 with
    keyLength := keyLength
    ivLength := ivLength }

theorem rotate_packet (pf : Platform) {fe : Frontend} (newkey newIV : Bytes) (ready : fe.SendReady) :
    ∃ c, fe.rotate pf newkey newIV = .ok (fe.rekeyed pf newkey newIV,
      [(c, (fe.announce pf.q2 newkey newIV).packet pf.aes)]) := by
  have announced := announce_ready pf.q2 newkey newIV ready
  obtain ⟨c, flushed⟩ := flush_packet pf announced.1 (by rw [announced.2]; simp)
  refine ⟨c, ?_⟩
  unfold Frontend.announce at flushed
  simp only [Frontend.rotate, flushed]
  rfl

/-! ## What the receiver makes of a packet -/

section
variable (aes : Aes) {fe : Frontend} (ready : fe.SendReady)
include ready

theorem accept_packet (plaintext : Bytes) :
    Receiver.accept aes false (fe.cipherOf aes plaintext) ⟨fe.symmetricKey, fe.initVector⟩ =
      .ok (plaintext, ⟨fe.symmetricKey, (fe.cipherOf aes plaintext).take aesIVLength⟩) := by
  have plain := symmetricDecrypt_encrypted aes ready.keyLength ready.ivLength plaintext
  unfold Frontend.cipherOf
  simp only [Receiver.accept, plain]
  rfl

theorem accept_rotation (queued : Bytes) {newkey newIV : Bytes}
    (keyLength : newkey.length = aesBlockLength) (ivLength : newIV.length = aesIVLength) :
    Receiver.accept aes true (fe.cipherOf aes (queued ++ (newkey ++ newIV)))
        ⟨fe.symmetricKey, fe.initVector⟩ =
      .ok (queued ++ (newkey ++ newIV), ⟨newkey, newIV⟩) := by
  have plain := symmetricDecrypt_encrypted aes ready.keyLength ready.ivLength
    (queued ++ (newkey ++ newIV))
  have blob : (queued ++ (newkey ++ newIV)).drop
      ((queued ++ (newkey ++ newIV)).length - (aesBlockLength + aesIVLength)) = newkey ++ newIV := by
    rw [List.length_append, List.length_append, keyLength, ivLength, Nat.add_sub_cancel,
      List.drop_left]
  have key : (newkey ++ newIV).take aesBlockLength = newkey := keyLength ▸ List.take_left
  have iv : (newkey ++ newIV).drop aesBlockLength = newIV := keyLength ▸ List.drop_left
  unfold Frontend.cipherOf
  simp only [Receiver.accept, plain, Bind.bind, Except.bind, blob, key, iv, ↓reduceIte]

end

/-! ## One step keeps the two ends in step -/

theorem sent_fe {w : World} {i : Nat} (live : i < w.frontends.length)
    (result : Frontend × List (ConnId × Bytes)) : (w.sent i result).fe i = result.1 :=
  World.fe_update_self w live fun _ => result.1

theorem sent_length (w : World) (i : Nat) (result : Frontend × List (ConnId × Bytes)) :
    (w.sent i result).frontends.length = w.frontends.length :=
  World.length_update w i fun _ => result.1

/-- A step whose operation succeeds and whose packets the receiver accepts. -/
theorem Joint.step_eq {pf : Platform} {i : Nat} {j : Joint} {op : SendOp} {w : World}
    {packets : List (ConnId × Bytes)} {plaintexts : List Bytes} {receiver : Receiver}
    (performed : op.perform pf i j.world = .ok w) (wire : w.wire = j.world.wire ++ packets)
    (accepted : j.receiver.acceptAll pf.aes op.rotates packets = .ok (plaintexts, receiver)) :
    j.step pf i op = .ok ⟨w, receiver, j.recovered ++ plaintexts, j.outbox.step
      (j.world.randomBytes aesBlockLength).1
      ((j.world.randomBytes aesBlockLength).2.randomBytes aesIVLength).1 op⟩ := by
  have fresh : w.wire.drop j.world.wire.length = packets := by rw [wire, List.drop_left]
  simp only [Joint.step, performed, Bind.bind, Except.bind, fresh, accepted]

section
variable (pf : Platform) {i : Nat} {j : Joint} (sync : j.InSync i)
include sync

theorem queue_inSync (write : OutWrite) : ∃ j', j.step pf i (.queue write) = .ok j' ∧ j'.InSync i := by
  have written := World.fe_update_self j.world sync.live (write.apply pf.q2)
  have ready := write_ready pf.q2 write sync.ready
  have keys := write_keys pf.q2 write (j.world.fe i)
  have nothing : j.receiver.acceptAll pf.aes (SendOp.queue write).rotates [] =
    .ok ([], j.receiver) := rfl
  refine ⟨_, Joint.step_eq rfl (List.append_nil _).symm nothing, ?_⟩
  constructor
  case live => exact (World.length_update j.world i _).symm ▸ sync.live
  case ready => exact written.symm ▸ ready.1
  case key => rw [written, keys.1, sync.key]
  case iv => rw [written, keys.2, sync.iv]
  case pending =>
    rw [written, ready.2]
    simp only [Outbox.step, sync.pending]
  case recovered => simp only [Outbox.step, List.append_nil, sync.recovered]

theorem receiver_eq : j.receiver =
    ⟨(j.world.fe i).symmetricKey, (j.world.fe i).initVector⟩ := by
  rw [← sync.key, ← sync.iv]

/-- Nothing waits, and nothing is sent. -/
theorem send_nothing_inSync (empty : (j.world.fe i).messageOut.data = []) :
    ∃ j', j.step pf i .send = .ok j' ∧ j'.InSync i := by
  have pending : j.outbox.pending = [] := sync.pending.trans empty
  have flushed := flush_empty pf sync.ready.atEnd empty
  have performed : SendOp.send.perform pf i j.world = .ok (j.world.sent i (j.world.fe i, [])) := by
    simp only [SendOp.perform, sendMessages, flushed]
    rfl
  have same := sent_fe sync.live (j.world.fe i, [])
  refine ⟨_, Joint.step_eq performed rfl rfl, ?_⟩
  constructor
  case live => exact (sent_length _ _ _).symm ▸ sync.live
  case ready => exact same.symm ▸ sync.ready
  case key => rw [same, sync.key]
  case iv => rw [same, sync.iv]
  case pending => simp only [same, Outbox.step, Outbox.flush, pending, empty, ↓reduceIte]
  case recovered =>
    simp only [Outbox.step, Outbox.flush, pending, ↓reduceIte, List.append_nil, sync.recovered]

/-- What waits goes out as one packet, and the receiver gets it. -/
theorem send_packet_inSync (queued : (j.world.fe i).messageOut.data ≠ []) :
    ∃ j', j.step pf i .send = .ok j' ∧ j'.InSync i := by
  have pending : j.outbox.pending ≠ [] := sync.pending ▸ queued
  obtain ⟨c, flushed⟩ := flush_packet pf sync.ready queued
  have performed : SendOp.send.perform pf i j.world = .ok (j.world.sent i
      ((j.world.fe i).shipped pf.aes, [(c, (j.world.fe i).packet pf.aes)])) := by
    simp only [SendOp.perform, sendMessages, flushed]
    rfl
  have accepted := accept_packet pf.aes sync.ready (j.world.fe i).messageOut.data
  rw [← receiver_eq sync] at accepted
  refine ⟨_, Joint.step_eq performed rfl (acceptAll_one c accepted), ?_⟩
  have shipped := sent_fe sync.live ((j.world.fe i).shipped pf.aes, [(c, (j.world.fe i).packet pf.aes)])
  constructor
  case live => exact (sent_length _ _ _).symm ▸ sync.live
  case ready => exact shipped.symm ▸ shipped_ready pf.aes sync.ready
  case key => rw [shipped]; rfl
  case iv => rw [shipped]; rfl
  case pending =>
    rw [shipped]
    simp only [Outbox.step, Outbox.flush, pending, ↓reduceIte]
    rfl
  case recovered =>
    simp only [Outbox.step, Outbox.flush, pending, ↓reduceIte, sync.recovered]
    rw [sync.pending]

theorem send_inSync : ∃ j', j.step pf i .send = .ok j' ∧ j'.InSync i := by
  by_cases empty : (j.world.fe i).messageOut.data = []
  case pos => exact send_nothing_inSync pf sync empty
  case neg => exact send_packet_inSync pf sync empty

theorem rotate_inSync : ∃ j', j.step pf i .rotate = .ok j' ∧ j'.InSync i := by
  let newkey := (j.world.randomBytes aesBlockLength).1
  let newIV := ((j.world.randomBytes aesBlockLength).2.randomBytes aesIVLength).1
  let drawn := ((j.world.randomBytes aesBlockLength).2.randomBytes aesIVLength).2
  have keyLength : newkey.length = aesBlockLength := by simp [newkey, World.randomBytes]
  have ivLength : newIV.length = aesIVLength := by simp [newIV, World.randomBytes]
  have announced := announce_ready pf.q2 newkey newIV sync.ready
  obtain ⟨c, rotated⟩ := rotate_packet pf newkey newIV sync.ready
  let sent := [(c, ((j.world.fe i).announce pf.q2 newkey newIV).packet pf.aes)]
  have performed : SendOp.rotate.perform pf i j.world =
      .ok (drawn.sent i ((j.world.fe i).rekeyed pf newkey newIV, sent)) := by
    simp only [SendOp.perform, rotateKeys, sync.ready.encrypted]
    exact congrArg (· >>= fun result => Except.ok (drawn.sent i result)) rotated
  have accepted := accept_rotation pf.aes announced.1
    ((j.world.fe i).messageOut.data ++ [byteOf scmdKey]) keyLength ivLength
  rw [List.append_assoc, ← announced.2] at accepted
  have receiver : j.receiver = ⟨((j.world.fe i).announce pf.q2 newkey newIV).symmetricKey,
    ((j.world.fe i).announce pf.q2 newkey newIV).initVector⟩ := receiver_eq sync
  rw [← receiver] at accepted
  refine ⟨_, Joint.step_eq performed rfl (acceptAll_one c accepted), ?_⟩
  have rekeyed : (drawn.sent i ((j.world.fe i).rekeyed pf newkey newIV, sent)).fe i =
    (j.world.fe i).rekeyed pf newkey newIV := sent_fe sync.live _
  have pending : j.outbox.pending ++ ([byteOf scmdKey] ++ (newkey ++ newIV)) ≠ [] := by simp
  constructor
  case live => exact (sent_length _ _ _).symm ▸ sync.live
  case ready => exact rekeyed.symm ▸ rekeyed_ready pf keyLength ivLength sync.ready
  case key => rw [rekeyed]; rfl
  case iv => rw [rekeyed]; rfl
  case pending =>
    rw [rekeyed]
    simp only [Outbox.step, Outbox.flush]
    rw [if_neg pending]
    rfl
  case recovered =>
    simp only [Outbox.step, Outbox.flush, sync.recovered]
    rw [if_neg pending, announced.2, sync.pending]

theorem step_inSync (op : SendOp) : ∃ j', j.step pf i op = .ok j' ∧ j'.InSync i := by
  cases op with
  | queue write => exact queue_inSync pf sync write
  | send => exact send_inSync pf sync
  | rotate => exact rotate_inSync pf sync

end

/-- Sender and receiver keys never drift: whatever is queued, sent and rotated, and
whatever keys are drawn, the receiver recovers what the outbox delivers and holds the
frontend's key and vector. -/
theorem keys_never_drift (pf : Platform) {i : Nat} {w : World} (live : i < w.frontends.length)
    (ready : (w.fe i).SendReady) (ops : List SendOp) : ∃ j,
    run (Joint.step pf i) (Joint.start i w) ops = .ok j ∧
    j.receiver = ⟨(j.world.fe i).symmetricKey, (j.world.fe i).initVector⟩ ∧
    j.recovered = j.outbox.delivered := by
  have start : (Joint.start i w).InSync i := ⟨live, ready, rfl, rfl, rfl, rfl⟩
  obtain ⟨j, ran, sync⟩ := run_total (Joint.InSync i) (fun j op sync => step_inSync pf sync op) start ops
  exact ⟨j, ran, receiver_eq sync, sync.recovered⟩

def encryptedFrontend : Frontend where
  connected := true
  connection := some 0
  encrypted := true
  initVector := List.replicate 16 1
  symmetricKey := List.replicate 16 7
  trusted := true

def encryptedWorld : World where
  frontends := [encryptedFrontend]
  host := Host.counting

theorem encryptedWorld_ready : (encryptedWorld.fe 0).SendReady := by
  constructor <;> decide

/-- A rotation while a pong still waits, then a command under the new keys. -/
theorem keys_never_drift_rotation : ∃ j,
    run (Joint.step Platform.plain 0) (Joint.start 0 encryptedWorld)
      [.queue (.byte scmdPong), .rotate, .queue (.byte scmdCommand),
        .queue (.string (ascii "map q2dm1\n")), .send] = .ok j ∧
    j.receiver = ⟨(j.world.fe 0).symmetricKey, (j.world.fe 0).initVector⟩ ∧
    j.recovered = j.outbox.delivered :=
  keys_never_drift Platform.plain (by decide) encryptedWorld_ready _

end Q2Admin
