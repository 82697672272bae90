import Q2Admin.Lib.Outcome
import Q2Admin.KeySync
import Q2Admin.Parse

/-! What every message handler leaves alone, and the state of a session it needs. A
handler is described by one rule: what it returns has the frames it was given and is
ready again if that was, and it fails only when something it needs is missing. -/

namespace Q2Admin
open Go Lib

/-- The part of a frontend that no message changes. Of its players that is their number. -/
def Frontend.frame (fe : Frontend) : Frontend := { fe with
  currentMap := []
  initVector := []
  invites := {}
  messageOut := {}
  pingCount := 0
  playerCount := 0
  players := List.replicate fe.players.length {}
  previousIV := []
  previousMap := []
  symmetricKey := []
  teleportCount := 0 }

def World.frames (w : World) : List Frontend := w.frontends.map Frontend.frame

/-- An index into the players. -/
def Frontend.InRange (fe : Frontend) (cid : Int) : Prop := 0 ≤ cid ∧ cid < fe.players.length

instance (fe : Frontend) (cid : Int) : Decidable (fe.InRange cid) := inferInstanceAs (Decidable (_ ∧ _))

/-- Session keys that the cipher takes, where they are used at all. -/
def Frontend.KeysFit (fe : Frontend) : Prop := fe.encrypted = true →
  fe.symmetricKey.length = aesBlockLength ∧ fe.initVector.length = aesBlockLength

/-- What sending relies on. -/
structure Frontend.CanSend (fe : Frontend) : Prop where
  connection : fe.connection.isSome = true
  keys : fe.trusted = true → fe.KeysFit

/-- What the handlers rely on. -/
structure Frontend.Equipped (fe : Frontend) : Prop extends fe.CanSend where
  seats : fe.maxPlayers ≤ fe.players.length
  ids : ∀ p ∈ fe.players, fe.InRange p.clientID

/-- What `HandleConnection` sets up before it reads messages. -/
structure Frontend.Ready (fe : Frontend) : Prop extends fe.CanSend where
  sized : fe.players.length = fe.maxPlayers
  ids : ∀ p ∈ fe.players, fe.InRange p.clientID
  atEnd : fe.messageOut.AtEnd

theorem Frontend.Ready.equipped {fe : Frontend} (ready : fe.Ready) : fe.Equipped where
  toCanSend := ready.toCanSend
  seats := Nat.le_of_eq ready.sized.symm
  ids := ready.ids

structure World.Keeps (w w' : World) : Prop where
  frames : w'.frames = w.frames
  equipped : ∀ j, (w.fe j).Equipped → (w'.fe j).Equipped
  atEnd : ∀ j, (w.fe j).messageOut.AtEnd → (w'.fe j).messageOut.AtEnd
  keysFit : ∀ j, (w.fe j).KeysFit → (w'.fe j).KeysFit

/-- A handler that keeps the world, and fails only without `needs` or a frontend that is equipped. -/
def Kept (i : Nat) (needs : Prop) (w : World) (x : Except Fault World) : Prop :=
  Yields x w.Keeps fun _ => ¬ (needs ∧ (w.fe i).Equipped)

theorem mem_of_mem_modify {α : Type} {l : List α} {n : Nat} {f : α → α} {a : α}
    (member : a ∈ l.modify n f) : a ∈ l ∨ ∃ b ∈ l, a = f b := by
  obtain ⟨k, found⟩ := List.mem_iff_getElem?.mp member
  rw [List.getElem?_modify] at found
  obtain ⟨b, old, same⟩ := Option.map_eq_some_iff.mp found
  split at same
  · exact .inr ⟨b, List.mem_of_getElem? old, same.symm⟩
  · exact .inl (same ▸ List.mem_of_getElem? old)

namespace World

theorem fe_frame_of_frames {w w' : World} (same : w'.frames = w.frames) (j : Nat) :
    (w'.fe j).frame = (w.fe j).frame := field_of_map same j

/-- What the frame holds can be read off it. -/
theorem field_of_frames {α : Type} {w w' : World} (same : w'.frames = w.frames) (j : Nat)
    (field : Frontend → α) (framed : ∀ fe : Frontend, field fe.frame = field fe) :
    field (w'.fe j) = field (w.fe j) := by
  rw [← framed, ← framed (w.fe j), fe_frame_of_frames same]

theorem length_players_of_frames {w w' : World} (same : w'.frames = w.frames) (j : Nat) :
    (w'.fe j).players.length = (w.fe j).players.length :=
  field_of_frames same j (fun fe => fe.players.length) fun _ => List.length_replicate

/-- What the update preserves on its frontend, it preserves on all of them. -/
theorem fe_update_holds (w : World) (holds : Frontend → Prop) {j k : Nat} {f : Frontend → Frontend}
    (start : holds (w.fe k)) (preserved : holds (w.fe j) → holds (f (w.fe j))) :
    holds ((w.update j f).fe k) := by
  by_cases same : k = j
  · subst same
    by_cases live : k < w.frontends.length
    · rw [fe_update_self w live]
      exact preserved start
    · rwa [update_outside w live]
  · rwa [fe_update_ne w same]

theorem frames_update {w : World} {i : Nat} {f : Frontend → Frontend}
    (kept : (f (w.fe i)).frame = (w.fe i).frame) : (w.update i f).frames = w.frames := map_update kept

namespace Keeps
variable {w w' w'' : World}

theorem refl : w.Keeps w := ⟨rfl, fun _ => id, fun _ => id, fun _ => id⟩

theorem trans (first : w.Keeps w') (second : w'.Keeps w'') : w.Keeps w'' where
  frames := second.frames.trans first.frames
  equipped := fun j equipped => second.equipped j (first.equipped j equipped)
  atEnd := fun j atEnd => second.atEnd j (first.atEnd j atEnd)
  keysFit := fun j fit => second.keysFit j (first.keysFit j fit)

theorem ready (keeps : w.Keeps w') (j : Nat) (ready : (w.fe j).Ready) : (w'.fe j).Ready where
  toCanSend := (keeps.equipped j ready.equipped).toCanSend
  sized := by
    rw [length_players_of_frames keeps.frames, ready.sized]
    exact (field_of_frames keeps.frames j (fun fe => fe.maxPlayers) fun _ => rfl).symm
  ids := (keeps.equipped j ready.equipped).ids
  atEnd := keeps.atEnd j ready.atEnd

/-- Nothing but the rest of the process has changed. -/
theorem of_frontends (same : w'.frontends = w.frontends) : w.Keeps w' where
  frames := by rw [World.frames, same, World.frames]
  equipped := by
    intro j equipped
    rwa [World.fe, same]
  atEnd := by
    intro j atEnd
    rwa [World.fe, same]
  keysFit := by
    intro j fit
    rwa [World.fe, same]

theorem now : w.Keeps w.now.2 := of_frontends rfl

theorem insert : w.Keeps w.insert.2 := of_frontends rfl

theorem randomBytes (length : Nat) : w.Keeps (w.randomBytes length).2 := of_frontends rfl

theorem spawn (task : Task) : w.Keeps (w.spawn task) := of_frontends rfl

theorem update {j : Nat} {f : Frontend → Frontend} (frame : (f (w.fe j)).frame = (w.fe j).frame)
    (equipped : (w.fe j).Equipped → (f (w.fe j)).Equipped)
    (atEnd : (w.fe j).messageOut.AtEnd → (f (w.fe j)).messageOut.AtEnd)
    (keysFit : (w.fe j).KeysFit → (f (w.fe j)).KeysFit) : w.Keeps (w.update j f) where
  frames := frames_update frame
  equipped := fun _ start => fe_update_holds w Frontend.Equipped start equipped
  atEnd := fun _ start => fe_update_holds w (fun fe => fe.messageOut.AtEnd) start atEnd
  keysFit := fun _ start => fe_update_holds w Frontend.KeysFit start keysFit

theorem updatePlayer {i slot : Nat} {f : Player → Player}
    (ids : ∀ p ∈ (w.fe i).players, (w.fe i).InRange p.clientID → (w.fe i).InRange (f p).clientID) :
    w.Keeps (w.updatePlayer i slot f) := by
  apply Keeps.update
  · simp only [Frontend.updatePlayer, Frontend.frame, List.length_modify]
  · intro start
    refine { start with seats := (List.length_modify ..).symm ▸ start.seats, ids := ?_ }
    intro p member
    have range : ((w.fe i).updatePlayer slot f).InRange p.clientID ↔ (w.fe i).InRange p.clientID := by
      simp only [Frontend.InRange, Frontend.updatePlayer, List.length_modify]
    rw [range]
    rcases mem_of_mem_modify member with old | ⟨q, old, rfl⟩
    · exact start.ids p old
    · exact ids q old (start.ids q old)
  · exact id
  · exact id

/-- Client numbers are left as they are. -/
theorem editPlayer {i slot : Nat} {f : Player → Player} (same : ∀ p, (f p).clientID = p.clientID) :
    w.Keeps (w.updatePlayer i slot f) :=
  updatePlayer fun p _ range => by rwa [same p]

theorem queue (j : Nat) {f : Frontend → Frontend} (queues : Queues f) : w.Keeps (w.update j f) := by
  apply Keeps.update
  · rw [queues.only (w.fe j)]
    rfl
  · intro start
    rw [queues.only (w.fe j)]
    exact { start with }
  · exact queues.atEnd (w.fe j)
  · intro fit
    rw [queues.only (w.fe j)]
    exact fit

end Keeps
end World

namespace Kept
variable {i : Nat} {needs needs' : Prop} {w w' : World} {x : Except Fault World}
  {f : World → Except Fault World}

theorem ok (keeps : w.Keeps w') : Kept i needs w (.ok w') := keeps

/-- What the first part needs, the second may rely on in the world the first leaves. -/
theorem bind (first : Kept i needs w x) (next : ∀ w', w.Keeps w' → Kept i needs w' (f w')) :
    Kept i needs w (x >>= f) := by
  apply Yields.bind first
  intro w' _ keeps
  apply (next w' keeps).mono
  · exact fun w'' later => keeps.trans later
  · exact fun _ missing given => missing ⟨given.1, keeps.equipped i given.2⟩

/-- The handler goes on in a world that has been kept. -/
theorem of_keeps (keeps : w.Keeps w') (next : Kept i needs w' x) : Kept i needs w x := by
  apply next.mono
  · exact fun w'' later => keeps.trans later
  · exact fun _ missing given => missing ⟨given.1, keeps.equipped i given.2⟩

theorem weaken (kept : Kept i needs w x) (supplies : needs' → (w.fe i).Equipped → needs) :
    Kept i needs' w x :=
  kept.mono (fun _ => id) fun _ missing given => missing ⟨supplies given.1 given.2, given.2⟩

end Kept

/-! ## Sending -/

/-- What sending does to a frontend. -/
structure SentTo (fe fe' : Frontend) : Prop where
  frame : fe'.frame = fe.frame
  players : fe'.players = fe.players
  atEnd : fe.messageOut.AtEnd → fe'.messageOut.AtEnd
  keysFit : fe.KeysFit → fe'.KeysFit

def Sent (fe : Frontend) (x : Except Fault (Frontend × List (ConnId × Bytes))) : Prop :=
  Yields x (fun result => SentTo fe result.1) fun _ => ¬ fe.CanSend

namespace SentTo
variable {fe fe' : Frontend}

theorem field {α : Type} (sent : SentTo fe fe') (field : Frontend → α)
    (framed : ∀ fe : Frontend, field fe.frame = field fe) : field fe' = field fe := by
  rw [← framed, sent.frame, framed]

theorem canSend (sent : SentTo fe fe') (able : fe.CanSend) : fe'.CanSend where
  connection := (sent.field (fun fe => fe.connection) fun _ => rfl).symm ▸ able.connection
  keys := by
    intro trusted
    have before := sent.field (fun fe => fe.trusted) fun _ => rfl
    exact sent.keysFit (able.keys (before ▸ trusted))

theorem equipped (sent : SentTo fe fe') (equipped : fe.Equipped) : fe'.Equipped where
  toCanSend := sent.canSend equipped.toCanSend
  seats := by
    rw [sent.players]
    exact (sent.field (fun fe => fe.maxPlayers) fun _ => rfl).le.trans equipped.seats
  ids := by
    simp only [sent.players, Frontend.InRange]
    exact equipped.ids

end SentTo

theorem Keeps.sent {w : World} {j : Nat} {result : Frontend × List (ConnId × Bytes)}
    (sent : SentTo (w.fe j) result.1) : w.Keeps (w.sent j result) := by
  have updated : w.Keeps (w.update j fun _ => result.1) :=
    World.Keeps.update sent.frame sent.equipped sent.atEnd sent.keysFit
  exact updated.trans (.of_frontends rfl)

section
variable (pf : Platform)

theorem encryptQueue_sent (fe : Frontend) : Yields (fe.encryptQueue pf)
    (fun fe' => ∀ queue : Buffer, queue.AtEnd → SentTo fe { fe' with messageOut := queue })
    fun _ => ¬ fe.CanSend := by
  unfold Frontend.encryptQueue
  by_cases encrypts : (fe.trusted && fe.encrypted) = true
  case neg =>
    rw [if_neg encrypts]
    exact fun queue atEnd => ⟨rfl, rfl, fun _ => atEnd, id⟩
  obtain ⟨trusted, encrypted⟩ : fe.trusted = true ∧ fe.encrypted = true := by simpa using encrypts
  rw [if_pos encrypts]
  cases sealed : symmetricEncrypt pf.aes fe.symmetricKey fe.initVector
      (fe.messageOut.data.take fe.messageOut.index) with
  | error fault =>
    intro able
    have keys := able.keys trusted encrypted
    rw [symmetricEncrypt_eq pf.aes keys.1 keys.2] at sealed
    simp at sealed
  | ok cipher =>
    intro queue atEnd
    have chained (fit : fe.KeysFit) : (cipher.take aesIVLength).length = aesBlockLength := by
      have keys := fit encrypted
      rw [symmetricEncrypt_eq pf.aes keys.1 keys.2, Except.ok.injEq] at sealed
      exact sealed ▸ length_take_cipher pf.aes fe _
    exact ⟨rfl, rfl, fun _ => atEnd, fun fit _ => ⟨(fit encrypted).1, chained fit⟩⟩

theorem flush_sent (fe : Frontend) : Sent fe (fe.flush pf) := by
  unfold Frontend.flush
  split
  · exact ⟨rfl, rfl, id, id⟩
  apply Yields.bind (encryptQueue_sent pf fe)
  intro fe' _ sent
  have reset : (pf.q2.reset fe'.messageOut).AtEnd := by
    rw [pf.q2.reset_eq]
    rfl
  have whole := sent _ reset
  have connection := whole.field (fun fe => fe.connection) fun _ => rfl
  change fe'.connection = fe.connection at connection
  cases connected : fe'.connection with
  | none =>
    intro able
    have given := able.connection
    simp [← connection, connected] at given
  | some c =>
    rw [connected] at whole
    exact whole

theorem rotate_sent (fe : Frontend) {newkey newIV : Bytes} (keyLength : newkey.length = aesBlockLength)
    (ivLength : newIV.length = aesIVLength) : Sent fe (fe.rotate pf newkey newIV) := by
  have flushed := flush_sent pf (fe.announce pf.q2 newkey newIV)
  apply Yields.bind (flushed.mono (fun _ => id) fun _ missing able => missing { able with })
  intro result _ sent
  constructor
  case frame =>
    calc ({ result.1 with symmetricKey := newkey, initVector := newIV } : Frontend).frame
      _ = result.1.frame := rfl
      _ = fe.frame := sent.frame
  case players => exact sent.players
  case atEnd =>
    intro start
    have byte := pf.q2.writeByte_appends fe.messageOut scmdKey start
    have blob := pf.q2.writeData_appends _ (newkey ++ newIV) byte.atEnd
    exact sent.atEnd blob.atEnd
  case keysFit => exact fun _ _ => ⟨keyLength, ivLength⟩

variable (i : Nat)

theorem sendMessages_kept (w : World) : Kept i True w (sendMessages pf i w) := by
  have flushed : Yields ((w.fe i).flush pf) _ fun _ => ¬ (True ∧ (w.fe i).Equipped) :=
    (flush_sent pf (w.fe i)).mono (fun _ => id) fun _ missing given => missing given.2.toCanSend
  apply Yields.bind flushed
  intro result _ sent
  exact Keeps.sent sent

theorem sendError_kept (pl : Option Player) (severity : Int) (err : Bytes) (w : World) :
    Kept i True w (sendError pf i pl severity err w) := by
  unfold sendError
  split
  · exact World.Keeps.refl
  · have queues (client : Int) := (((Queues.writeByte pf.q2 scmdError).comp
      (Queues.writeByte pf.q2 client)).comp (Queues.writeByte pf.q2 severity)).comp
      (Queues.writeString pf.q2 err)
    exact Kept.of_keeps (.queue i (queues _)) (sendMessages_kept pf i _)

theorem rotateKeys_kept (w : World) : Kept i True w (rotateKeys pf i w) := by
  unfold rotateKeys
  split
  · exact World.Keeps.refl
  let drawn := ((w.randomBytes aesBlockLength).2.randomBytes aesIVLength).2
  have rotated : Yields ((drawn.fe i).rotate pf (w.randomBytes aesBlockLength).1
      ((w.randomBytes aesBlockLength).2.randomBytes aesIVLength).1) _
      fun _ => ¬ (True ∧ (drawn.fe i).Equipped) :=
    (rotate_sent pf (drawn.fe i) (by simp [World.randomBytes]) (by simp [World.randomBytes])).mono
      (fun _ => id) fun _ missing given => missing given.2.toCanSend
  have draws : w.Keeps drawn := (World.Keeps.randomBytes _).trans (World.Keeps.randomBytes _)
  apply Kept.of_keeps draws
  apply Yields.bind rotated
  intro result _ sent
  exact Keeps.sent sent

theorem pong_kept (w : World) : Kept i True w (pong pf i w) := by
  have counted : w.Keeps (w.update i fun fe => { fe with pingCount := fe.pingCount + 1 }) :=
    World.Keeps.update rfl (fun equipped => { equipped with }) id id
  have answered := counted.trans (World.Keeps.queue i (Queues.writeByte pf.q2 scmdPong))
  apply Kept.of_keeps answered
  simp only [pong]
  split
  · exact rotateKeys_kept pf i _
  · exact World.Keeps.refl

end
end Q2Admin
