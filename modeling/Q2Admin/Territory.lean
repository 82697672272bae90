import Q2Admin.Dispatch
import Q2Admin.Handshake
import Q2Admin.Slots

/-! What the code that serves one frontend does to the rest of the process. Whatever is read
from its connection, it works on the record of its own frontend, writes to the connection
noted there, and at most counts an arrival on another. -/

namespace Q2Admin
open Go Lib

/-- What a handler writes to a player who stays where he is, under the userinfo he has. -/
inductive Player.Touch : (Player → Player) → Prop where
  | recorded (id : Int) : Touch fun p => { p with databaseID := id }
  | teleported (now : Int) : Touch fun p => { p with lastTeleport := now, teleports := p.teleports + 1 }
  | invited (available now : Int) : Touch fun p => { p with
      invites := p.invites + 1
      lastInvite := now
      invitesAvailable := available - 1 }
  | counted (f : Player → Player) (count : Player.Count f) : Touch f

/-- What is filed for a frontend: its rules, under its name. -/
def Frontend.filed (fe : Frontend) : Bytes × List Rule := (fe.name, fe.rules)

/-- The connection and the arrivals of a frontend, and what is filed for it. -/
def Frontend.outside (fe : Frontend) : Option ConnId × Int × Bytes × List Rule :=
  (fe.connection, fe.teleportCount, fe.filed)

/-- What the code of frontend `i` is made of, if all that it does to a player is among `edits`,
and if it lets players arrive elsewhere only where that `arrives`. -/
inductive World.WorksBy (edits : (Player → Player) → Prop) (arrives : Prop) (i : Nat) : World → World → Prop where
  | process {w w' : World} (frontends : w'.frontends = w.frontends) (wire : w'.wire = w.wire)
    (setting : w'.setting = w.setting) (drawn : w.randomReads ≤ w'.randomReads) : WorksBy edits arrives i w w'
  | own {w : World} (f : Frontend → Frontend) (outside : (f (w.fe i)).outside = (w.fe i).outside)
    (players : (f (w.fe i)).players = (w.fe i).players) : WorksBy edits arrives i w (w.update i f)
  | edit {w : World} (slot : Nat) {f : Player → Player} (fits : edits f) :
    WorksBy edits arrives i w (w.updatePlayer i slot f)
  /-- The players are replaced as a whole. -/
  | settle {w : World} (f : Frontend → Frontend) (outside : (f (w.fe i)).outside = (w.fe i).outside)
    (fits : ∀ f, edits f) : WorksBy edits arrives i w (w.update i f)
  | arrival {w : World} (dest : Nat) (may : arrives) :
    WorksBy edits arrives i w (w.update dest fun f => { f with teleportCount := f.teleportCount + 1 })
  | write {w : World} {c : ConnId} (bytes : Bytes) (connected : (w.fe i).connection = some c) :
    WorksBy edits arrives i w { w with wire := w.wire ++ [(c, bytes)] }
  | trans {w w' w'' : World} (first : WorksBy edits arrives i w w') (second : WorksBy edits arrives i w' w'') :
    WorksBy edits arrives i w w''

abbrev AnyEdit (_ : Player → Player) : Prop := True

/-- Whatever it does to its players. -/
abbrev World.Works (i : Nat) : World → World → Prop := World.WorksBy AnyEdit True i

/-- Code of frontend `i`, if it returns. -/
def Working (edits : (Player → Player) → Prop) (arrives : Prop) (i : Nat) (w : World) (x : Except Fault World) : Prop :=
  Yields x (w.WorksBy edits arrives i) fun _ => True

/-- The frontend a connection works for. -/
def Phase.frontend : Phase → Option Nat
  | .auth i _ => some i
  | .main i => some i
  | _ => none

/-- The connection works for no other frontend. -/
def Phase.Within (i : Nat) (phase : Phase) : Prop := ∀ j, phase.frontend = some j → j = i

/-- A frontend as only its own code can change it. -/
def Frontend.atHome (fe : Frontend) : Frontend := { fe with teleportCount := 0 }

/-- What was written went to connection `c`. -/
def World.WritesTo (c : ConnId) (w w' : World) : Prop :=
  ∃ sent, w'.wire = w.wire ++ sent ∧ ∀ packet ∈ sent, packet.1 = c

namespace Phase
variable (i : Nat)

theorem within_closed : closed.Within i := fun _ none => by simp [frontend] at none

theorem within_auth (own : Bytes) : (auth i own).Within i := fun _ same => (Option.some.inj same).symm

theorem within_session {phase : Phase} (going : phase = closed ∨ phase = main i) : phase.Within i := by
  rcases going with rfl | rfl
  · exact within_closed i
  · exact fun _ same => (Option.some.inj same).symm

end Phase

namespace World

theorem WritesTo.of_wire {c : ConnId} {w w' : World} (same : w'.wire = w.wire) : w.WritesTo c w' :=
  ⟨[], by rw [same, List.append_nil], by simp⟩

theorem WritesTo.trans {c : ConnId} {w w' w'' : World} (first : w.WritesTo c w') (second : w'.WritesTo c w'') :
    w.WritesTo c w'' := by
  obtain ⟨sent, wire, mine⟩ := first
  obtain ⟨later, wire', mine'⟩ := second
  refine ⟨sent ++ later, by rw [wire', wire, List.append_assoc], fun packet member => ?_⟩
  exact (List.mem_append.mp member).elim (mine packet) (mine' packet)

namespace WorksBy
variable {edits : (Player → Player) → Prop} {arrives : Prop} {i : Nat} {w w' : World}

theorem refl : w.WorksBy edits arrives i w := process rfl rfl rfl (Nat.le_refl _)

theorem now : w.WorksBy edits arrives i w.now.2 := process rfl rfl rfl (Nat.le_refl _)

theorem insert : w.WorksBy edits arrives i w.insert.2 := process rfl rfl rfl (Nat.le_refl _)

theorem randomBytes (length : Nat) : w.WorksBy edits arrives i (w.randomBytes length).2 :=
  process rfl rfl rfl (Nat.le_succ _)

theorem spawn (task : Task) : w.WorksBy edits arrives i (w.spawn task) := process rfl rfl rfl (Nat.le_refl _)

theorem queue {f : Frontend → Frontend} (queues : Queues f) : w.WorksBy edits arrives i (w.update i f) :=
  own f (by rw [queues.only]; rfl) (queues.players _)

theorem setMessage (msg : Buffer) : w.WorksBy edits arrives i (w.setMessage i msg) := own _ rfl rfl

/-! ## What follows -/

theorem length (works : w.WorksBy edits arrives i w') : w'.frontends.length = w.frontends.length := by
  induction works with
  | process frontends => rw [frontends]
  | own f => exact length_update _ i f
  | edit slot => exact length_update _ i _
  | settle f => exact length_update _ i f
  | arrival dest => exact length_update _ dest _
  | write => rfl
  | trans _ _ first second => exact second.trans first

theorem connection (works : w.WorksBy edits arrives i w') : (w'.fe i).connection = (w.fe i).connection := by
  induction works with
  | process frontends => rw [fe, frontends, fe]
  | own f kept =>
    exact fe_update_holds _ (fun fe => fe.connection = _) (k := i) (j := i) rfl fun _ => congrArg Prod.fst kept
  | edit slot => exact fe_update_field _ i i (fun fe => fe.connection) fun _ => rfl
  | settle f kept =>
    exact fe_update_holds _ (fun fe => fe.connection = _) (k := i) (j := i) rfl fun _ => congrArg Prod.fst kept
  | arrival dest => exact fe_update_field _ dest i (fun fe => fe.connection) fun _ => rfl
  | write => rfl
  | trans _ _ first second => exact second.trans first

theorem setting (works : w.WorksBy edits arrives i w') : w'.setting = w.setting := by
  induction works with
  | process _ _ same => exact same
  | own f => rfl
  | edit slot => rfl
  | settle f => rfl
  | arrival dest => rfl
  | write => rfl
  | trans _ _ first second => exact second.trans first

/-- Random bytes that have been drawn are not drawn again. -/
theorem reads (works : w.WorksBy edits arrives i w') : w.randomReads ≤ w'.randomReads := by
  induction works with
  | process _ _ _ drawn => exact drawn
  | own f => exact Nat.le_refl _
  | edit slot => exact Nat.le_refl _
  | settle f => exact Nat.le_refl _
  | arrival dest => exact Nat.le_refl _
  | write => exact Nat.le_refl _
  | trans _ _ first second => exact Nat.le_trans first second

/-- Other frontends are left as they are, but for the arrivals counted there. -/
theorem elsewhere (works : w.WorksBy edits arrives i w') {j : Nat} (apart : j ≠ i) :
    (w'.fe j).atHome = (w.fe j).atHome ∧ (w.fe j).teleportCount ≤ (w'.fe j).teleportCount := by
  induction works with
  | @process w w' frontends =>
    have same : w'.fe j = w.fe j := by rw [fe, frontends, fe]
    exact ⟨by rw [same], by rw [same]⟩
  | own f => exact ⟨by rw [fe_update_ne _ apart], by rw [fe_update_ne _ apart]⟩
  | @edit w slot f =>
    rw [World.updatePlayer, fe_update_ne w apart]
    exact ⟨rfl, Int.le_refl _⟩
  | settle f => exact ⟨by rw [fe_update_ne _ apart], by rw [fe_update_ne _ apart]⟩
  | @arrival w dest =>
    refine ⟨fe_update_field w dest j Frontend.atHome fun _ => rfl, ?_⟩
    apply fe_update_holds w (fun fe => (w.fe j).teleportCount ≤ fe.teleportCount) (Int.le_refl _)
    intro below
    show _ ≤ (w.fe dest).teleportCount + 1
    omega
  | write => exact ⟨rfl, Int.le_refl _⟩
  | trans _ _ first second => exact ⟨second.1.trans first.1, Int.le_trans first.2 second.2⟩

theorem outside_update {f : Frontend → Frontend} (kept : (f (w.fe i)).outside = (w.fe i).outside) (j : Nat) :
    ((w.update i f).fe j).outside = (w.fe j).outside := by
  by_cases here : j = i
  · subst here
    exact fe_update_holds w (fun fe => fe.outside = (w.fe j).outside) rfl fun _ => kept
  · rw [fe_update_ne w here]

/-- Where nobody may arrive, nobody is counted anywhere. -/
theorem arrivals (works : w.WorksBy edits arrives i w') (nobody : ¬ arrives) (j : Nat) :
    (w'.fe j).teleportCount = (w.fe j).teleportCount := by
  induction works with
  | process frontends => rw [fe, frontends, fe]
  | own f kept => exact congrArg (fun out => out.2.1) (outside_update kept j)
  | edit slot => exact fe_update_field _ i j (fun fe => fe.teleportCount) fun _ => rfl
  | settle f kept => exact congrArg (fun out => out.2.1) (outside_update kept j)
  | arrival dest may => exact absurd may nobody
  | write => rfl
  | trans _ _ first second => exact second.trans first

/-- Nobody's name or rules are written by what serves a frontend. -/
theorem filed (works : w.WorksBy edits arrives i w') (j : Nat) : (w'.fe j).filed = (w.fe j).filed := by
  induction works with
  | process frontends => rw [fe, frontends, fe]
  | own f kept => exact congrArg (fun out => out.2.2) (outside_update kept j)
  | edit slot => exact fe_update_field _ i j Frontend.filed fun _ => rfl
  | settle f kept => exact congrArg (fun out => out.2.2) (outside_update kept j)
  | arrival dest => exact fe_update_field _ dest j Frontend.filed fun _ => rfl
  | write => rfl
  | trans _ _ first second => exact second.trans first

/-- Whatever is written goes to the connection of the frontend. -/
theorem writesTo (works : w.WorksBy edits arrives i w') {c : ConnId} (connected : (w.fe i).connection = some c) :
    w.WritesTo c w' := by
  induction works with
  | process _ wire => exact .of_wire wire
  | own f => exact .of_wire rfl
  | edit slot => exact .of_wire rfl
  | settle f => exact .of_wire rfl
  | arrival dest => exact .of_wire rfl
  | write bytes known =>
    rw [connected, Option.some.injEq] at known
    exact ⟨[(_, bytes)], rfl, by simp [known]⟩
  | trans earlier _ first second => exact (first connected).trans (second (earlier.connection.trans connected))

end WorksBy
end World

namespace Working
variable {edits : (Player → Player) → Prop} {arrives : Prop} {i : Nat} {w w' : World} {x : Except Fault World}
  {f : World → Except Fault World}

theorem ok (works : w.WorksBy edits arrives i w') : Working edits arrives i w (.ok w') := works

theorem of_works (works : w.WorksBy edits arrives i w') (rest : Working edits arrives i w' x) :
    Working edits arrives i w x :=
  rest.mono (fun _ later => works.trans later) fun _ => id

theorem bind (first : Working edits arrives i w x) (next : ∀ w', Working edits arrives i w' (f w')) :
    Working edits arrives i w (x >>= f) :=
  Yields.bind first fun w' _ works => of_works works (next w')

/-- A result next to the world makes no difference. -/
theorem bindPair {α : Type} {x : Except Fault (α × World)} {f : α × World → Except Fault World}
    (first : Yields x (fun result => w.WorksBy edits arrives i result.2) fun _ => True)
    (next : ∀ result, Working edits arrives i result.2 (f result)) : Working edits arrives i w (x >>= f) :=
  Yields.bind first fun result _ works => of_works works (next result)

end Working

/-! ## Sending -/

section
variable {edits : (Player → Player) → Prop} {arrives : Prop} (pf : Platform) (i : Nat)

/-- A flush keeps the connection, the arrivals, the rules and the players, and writes nowhere else. -/
structure Flushed (fe : Frontend) (result : Frontend × List (ConnId × Bytes)) : Prop where
  outside : result.1.outside = fe.outside
  players : result.1.players = fe.players
  sent : result.2 = [] ∨ ∃ c bytes, fe.connection = some c ∧ result.2 = [(c, bytes)]

theorem flush_flushed (fe : Frontend) : Yields (fe.flush pf) (Flushed fe) fun _ => True := by
  have sealed : Yields (fe.encryptQueue pf)
      (fun fe' => fe'.outside = fe.outside ∧ fe'.players = fe.players) fun _ => True := by
    unfold Frontend.encryptQueue
    split
    · apply Yields.bind (Yields.top _)
      exact fun _ _ _ => ⟨rfl, rfl⟩
    · exact ⟨rfl, rfl⟩
  unfold Frontend.flush
  split
  · exact ⟨rfl, rfl, .inl rfl⟩
  apply Yields.bind sealed
  intro fe' _ same
  cases connected : fe'.connection with
  | none => trivial
  | some c =>
    have before : fe.connection = some c := (congrArg Prod.fst same.1).symm.trans connected
    have outside : Frontend.outside { fe' with connection := some c } = fe.outside := connected ▸ same.1
    exact ⟨outside, same.2, .inr ⟨c, _, before, rfl⟩⟩

theorem sent_works {w : World} {result : Frontend × List (ConnId × Bytes)} (flushed : Flushed (w.fe i) result) :
    w.WorksBy edits arrives i (w.sent i result) := by
  have placed : w.WorksBy edits arrives i (w.update i fun _ => result.1) := .own _ flushed.outside flushed.players
  rcases flushed.sent with nothing | ⟨c, bytes, connected, packet⟩
  · rw [World.sent, nothing, List.append_nil]
    exact placed
  · rw [World.sent, packet]
    exact placed.trans (.write bytes (placed.connection.trans connected))

theorem sendMessages_working (w : World) : Working edits arrives i w (sendMessages pf i w) := by
  apply Yields.bind (flush_flushed pf (w.fe i))
  exact fun result _ flushed => sent_works i flushed

theorem rotate_flushed (fe : Frontend) (newkey newIV : Bytes) :
    Yields (fe.rotate pf newkey newIV) (Flushed fe) fun _ => True := by
  apply Yields.bind (flush_flushed pf (fe.announce pf.q2 newkey newIV))
  exact fun _ _ same => ⟨same.outside, same.players, same.sent⟩

theorem rotateKeys_working (w : World) : Working edits arrives i w (rotateKeys pf i w) := by
  unfold rotateKeys
  split
  · exact World.WorksBy.refl
  let drawn := ((w.randomBytes aesBlockLength).2.randomBytes aesIVLength).2
  have draws : w.WorksBy edits arrives i drawn := (World.WorksBy.randomBytes _).trans (.randomBytes _)
  have rotated := rotate_flushed pf (drawn.fe i) (w.randomBytes aesBlockLength).1
    ((w.randomBytes aesBlockLength).2.randomBytes aesIVLength).1
  apply Working.of_works draws
  apply Yields.bind rotated
  exact fun result _ flushed => sent_works i flushed

theorem sendError_working (pl : Option Player) (severity : Int) (err : Bytes) (w : World) :
    Working edits arrives i w (sendError pf i pl severity err w) := by
  unfold sendError
  split
  · exact World.WorksBy.refl
  · have queues (client : Int) := (((Queues.writeByte pf.q2 scmdError).comp
      (Queues.writeByte pf.q2 client)).comp (Queues.writeByte pf.q2 severity)).comp
      (Queues.writeString pf.q2 err)
    exact .of_works (.queue (queues _)) (sendMessages_working pf i _)

theorem pong_working (w : World) : Working edits arrives i w (pong pf i w) := by
  have answered : w.WorksBy edits arrives i ((w.update i fun fe => { fe with pingCount := fe.pingCount + 1 }).update i
      (Frontend.writeByte pf.q2 scmdPong)) := (World.WorksBy.own _ rfl rfl).trans (.queue (Queues.writeByte pf.q2 _))
  apply Working.of_works answered
  simp only [pong]
  split
  · exact rotateKeys_working pf i _
  · exact World.WorksBy.refl

/-! ## Prints -/

theorem atClient_working {f : Player → Player} (fits : edits f) (cid : Int) (w : World) :
    Working edits arrives i w (atClient i cid f w) := by
  unfold atClient
  split
  · exact World.WorksBy.edit _ fits
  · trivial

section
variable (touches : ∀ f, Player.Touch f → edits f)
include touches

theorem parseObituary_working (submatch : Bytes → Bytes → Option (Nat → Bytes)) (obit : Bytes) (w : World) :
    Working edits arrives i w (parseObituary i submatch obit w) := by
  have counts {f : Player → Player} (count : Player.Count f) (cid : Int) (w : World) :
      Working edits arrives i w (atClient i cid f w) := atClient_working i (touches f (.counted f count)) cid w
  have kdr (cid : Int) (w : World) : Working edits arrives i w (recordKDR i cid w) := counts (.rated _) cid w
  unfold parseObituary
  split
  · exact World.WorksBy.refl
  split
  · exact World.WorksBy.refl
  · exact (counts .diedAlone _ w).bind fun w₁ => kdr _ w₁
  · apply (counts .died _ w).bind
    intro w₁
    apply (counts .scored _ w₁).bind
    exact fun w₂ => (kdr _ w₂).bind fun w₃ => kdr _ w₃

omit touches in
theorem restifleAll_works (slots : List Nat) (w : World) :
    w.WorksBy edits arrives i (slots.foldl (fun w slot => restifle pf i slot w) w) := by
  induction slots generalizing w with
  | nil => exact World.WorksBy.refl
  | cons slot rest ih =>
    have one : w.WorksBy edits arrives i (restifle pf i slot w) := by
      simp only [restifle]
      split
      · exact .queue (Queues.mutePlayer pf.q2 _ _)
      · exact World.WorksBy.refl
    exact one.trans (ih _)

theorem onPrint_working (level : Byte) (text : Bytes) (w : World) :
    Working edits arrives i w (onPrint pf i level text w) := by
  simp only [onPrint]
  split
  · trivial
  split
  · exact parseObituary_working i touches pf.submatch _ w
  split
  · split
    · exact World.WorksBy.spawn _
    · exact World.WorksBy.refl
  split
  · exact restifleAll_works pf i _ w
  · exact World.WorksBy.refl

/-! ## The commands of players -/

omit touches in
theorem sayTo_works (p : Option Player) (level : Int) (text : Bytes) (w : World) :
    w.WorksBy edits arrives i (w.sayTo pf i p level text) := .queue (Queues.sayPlayer pf.q2 p level text)

theorem teleportTo_works (may : arrives) (slot dest : Nat) (w : World) :
    w.WorksBy edits arrives i (teleportTo pf i slot dest w) := by
  simp only [teleportTo]
  refine World.WorksBy.trans ?_ (.arrival dest may)
  refine World.WorksBy.trans ?_ (.edit slot (touches _ (.teleported _)))
  refine World.WorksBy.trans ?_ .now
  exact (World.WorksBy.queue (Queues.sayEveryone pf.q2 _ _)).trans (.queue (Queues.stuffPlayer pf.q2 _ _))

theorem onTeleport_works (may : arrives) (player : Byte) (target : Bytes) (w : World) :
    w.WorksBy edits arrives i (onTeleport pf i player target w) := by
  simp only [onTeleport]
  split
  · exact World.WorksBy.refl
  split
  · exact sayTo_works pf i _ _ _ w
  split
  · exact World.WorksBy.now.trans (sayTo_works pf i _ _ _ _)
  split
  · exact World.WorksBy.refl
  · exact teleportTo_works pf i touches may _ _ w

theorem acceptInvite_works (slot : Nat) (available now : Int) (w : World) :
    w.WorksBy edits arrives i (acceptInvite i slot available now w) :=
  (World.WorksBy.edit slot (touches _ (.invited available now))).trans (.own _ rfl rfl)

theorem onInvite_working (client : Byte) (w : World) : Working edits arrives i w (onInvite pf i client w) := by
  simp only [onInvite]
  split
  · exact sayTo_works pf i _ _ _ w
  split
  · exact sayTo_works pf i _ _ _ w
  split
  · trivial
  apply Working.ok
  simp only [invitePlayer]
  apply World.WorksBy.now.trans
  split
  · split
    · exact acceptInvite_works i touches _ _ _ _
    · exact sayTo_works pf i _ _ _ _
  split
  · exact sayTo_works pf i _ _ _ _
  · exact acceptInvite_works i touches _ _ _ _

/-! ## Players coming and going -/

theorem addPlayer_works (slot : Nat) (w : World) : w.WorksBy edits arrives i (addPlayer i slot w) := by
  have inserted : w.WorksBy edits arrives i w.now.2.insert.2 := World.WorksBy.now.trans World.WorksBy.insert
  simp only [addPlayer]
  split
  · exact inserted
  · exact inserted.trans (.edit slot (touches _ (.recorded _)))

end

theorem onPlayer_works (client : Byte) (userinfo version : Bytes) (w : World) :
    Yields (onPlayer pf i client userinfo version w) (fun result => w.WorksBy AnyEdit arrives i result.2) fun _ => True := by
  unfold onPlayer
  split
  · exact World.WorksBy.refl
  apply Yields.bind (Yields.top _)
  intro info _ _
  have stored : Working AnyEdit arrives i w.now.2 (storePlayer i client
      (newPlayer pf.keys client userinfo version info w.now.1) w.now.2) := by
    apply (atClient_working i trivial _ _).bind
    exact fun w₁ => World.WorksBy.trans (.own _ rfl rfl) (addPlayer_works i (fun _ _ => trivial) client.toNat _)
  apply Yields.bind stored
  exact fun w₁ _ works => World.WorksBy.now.trans works

theorem startConnect_works (slot : Option Nat) (w : World) : w.WorksBy edits arrives i (startConnect i slot w) := by
  cases slot with
  | none => exact World.WorksBy.refl
  | some slot => exact World.WorksBy.spawn _

theorem removePlayer_works (client : Nat) (w : World) : w.WorksBy AnyEdit arrives i (removePlayer i client w) := by
  have written : w.WorksBy AnyEdit arrives i (writePlayer i client w) := by
    simp only [writePlayer]
    split
    · exact World.WorksBy.refl
    split
    · exact World.WorksBy.now.trans World.WorksBy.insert
    · exact .process rfl rfl rfl (Nat.le_refl _)
  simp only [removePlayer]
  split
  · exact World.WorksBy.refl
  split
  · exact World.WorksBy.refl
  · exact (written.trans (.edit client trivial)).trans (.own _ rfl rfl)

theorem onDisconnect_works (clientnum : Byte) (w : World) :
    w.WorksBy AnyEdit arrives i (onDisconnect i clientnum w) := by
  rcases onDisconnect_cases i clientnum w with same | removed
  · rw [same]
    exact World.WorksBy.refl
  · rw [removed]
    exact removePlayer_works i clientnum.toNat w

theorem onPlayerUpdate_working (client : Byte) (userinfo : Bytes) (w : World) :
    Working AnyEdit arrives i w (onPlayerUpdate pf i client userinfo w) := by
  simp only [onPlayerUpdate]
  split
  · exact World.WorksBy.refl
  split
  · exact World.WorksBy.refl
  apply Yields.bind (Yields.top _)
  intro info _ _
  split
  · exact ((World.WorksBy.edit _ trivial).trans (.randomBytes 12)).trans
      (.queue (Queues.setupPlayerCookie pf.q2 _ _))
  · exact World.WorksBy.edit _ trivial

/-! ## The message loop -/

theorem readByte_works (w : World) :
    Yields (w.readByte pf.q2 i) (fun result => w.WorksBy edits arrives i result.2) fun _ => True := by
  unfold World.readByte
  split
  · trivial
  · exact World.WorksBy.setMessage _

theorem readString_works (w : World) :
    Yields (w.readString pf.q2 i) (fun result => w.WorksBy edits arrives i result.2) fun _ => True := by
  unfold World.readString
  split
  · trivial
  · exact World.WorksBy.setMessage _

/-- All that a message of a player brings about is work of his frontend. -/
theorem works_handled : HandlersKeep pf i (World.WorksBy AnyEdit True i) where
  refl := fun _ => World.WorksBy.refl
  trans := World.WorksBy.trans
  readByte := readByte_works pf i
  readString := readString_works pf i
  pong := pong_working pf i
  print := onPrint_working pf i fun _ _ => trivial
  map := fun _ _ => World.WorksBy.own _ rfl rfl
  player := onPlayer_works pf i
  connect := startConnect_works i
  playerUpdate := onPlayerUpdate_working pf i
  disconnect := onDisconnect_works i
  teleport := onTeleport_works pf i (fun _ _ => trivial) trivial
  invite := onInvite_working pf i fun _ _ => trivial

theorem serve_works (input : Bytes) (w : World) : Yields (serve pf i input w)
    (fun next => w.Works i next.2 ∧ (next.1 = .closed ∨ next.1 = .main i)) fun _ => True := by
  unfold serve
  apply Yields.bind (Yields.top _)
  intro plaintext _ _
  cases plaintext with
  | none => exact ⟨World.WorksBy.refl, .inl rfl⟩
  | some plaintext =>
    have parsed : Working AnyEdit True i w (parseMessage pf i (w.setMessage i (pf.q2.newBuffer plaintext))) :=
      .of_works (.setMessage _) ((works_handled pf i).parseLoop _ _)
    apply Yields.bind parsed
    intro w' _ first
    apply Yields.bind (sendMessages_working pf i w')
    exact fun w'' _ second => ⟨first.trans second, .inr rfl⟩

/-! ## The handshake -/

theorem trustClient_working (w : World) : Working AnyEdit arrives i w (trustClient pf i w) := by
  have told : Working AnyEdit arrives i w (sendMessages pf i (w.update i (Frontend.writeByte pf.q2 scmdTrusted))) :=
    .of_works (.queue (Queues.writeByte pf.q2 scmdTrusted)) (sendMessages_working pf i _)
  apply told.bind
  exact fun w' => World.WorksBy.now.trans (.settle _ rfl fun _ => trivial)

theorem judge_works (input : Bytes) (w : World) : Yields (judge pf i input w)
    (fun next => w.Works i next.2 ∧ (next.1 = .closed ∨ next.1 = .main i)) fun _ => True := by
  unfold judge
  apply Yields.bind (Yields.top _)
  intro verdict _ _
  match verdict with
  | .error text =>
    apply Yields.bind (sendError_working pf i none 500 text w)
    exact fun _ _ works => ⟨works, .inl rfl⟩
  | .ok false => exact ⟨World.WorksBy.refl, .inl rfl⟩
  | .ok true =>
    apply Yields.bind (trustClient_working pf i w)
    exact fun _ _ works => ⟨works, .inr rfl⟩

theorem sessionKeys_works (blob : Bytes) (w : World) : w.WorksBy edits arrives i (sessionKeys i blob w).2 := by
  unfold sessionKeys
  split
  · exact ((World.WorksBy.randomBytes _).trans (.randomBytes _)).trans (.own _ rfl rfl)
  · exact World.WorksBy.refl

/-- From the record of the greeting on, the handshake is the work of the frontend it found. -/
theorem challengeClient_worksBy (c : ConnId) (a : Admission) (w : World) : Yields (challengeClient pf c a w)
    (fun next => (w.update a.fe (Frontend.connect c a.greeting)).WorksBy edits arrives a.fe next.2 ∧
      next.1.Within a.fe) fun _ => True := by
  simp only [challengeClient]
  apply Yields.bind (Yields.top _)
  intro loaded _ _
  split
  · exact ⟨World.WorksBy.refl, Phase.within_closed a.fe⟩
  next pubkey _ =>
  have issued (w : World) : w.WorksBy edits arrives a.fe ((w.randomBytes challengeLength).2.update a.fe fun fe =>
      { fe with publicKey := pubkey, challenge := (w.randomBytes challengeLength).1 }) :=
    (World.WorksBy.randomBytes _).trans (.own _ rfl rfl)
  have sealed (w : World) (blob : Bytes) : w.WorksBy edits arrives a.fe
      (publicEncrypt pf pubkey (sessionKeys a.fe blob w).1 (sessionKeys a.fe blob w).2).2 :=
    (sessionKeys_works a.fe blob w).trans (.process rfl rfl rfl (Nat.le_add_right _ _))
  have drawn (blob : Bytes) := (issued (w.update a.fe (Frontend.connect c a.greeting))).trans (sealed _ blob)
  split
  · exact ⟨drawn _, Phase.within_closed a.fe⟩
  · have queues (cipher : Bytes) := ((Queues.writeByte pf.q2 scmdHelloAck).comp
      (Queues.writeShort pf.q2 cipher.length)).comp (Queues.writeData pf.q2 cipher)
    apply Yields.bind (Working.of_works (.queue (queues _)) (sendMessages_working pf a.fe _))
    exact fun _ _ works => ⟨(drawn _).trans works, Phase.within_auth a.fe _⟩

theorem challengeClient_works (c : ConnId) (a : Admission) (w : World) : Yields (challengeClient pf c a w)
    (fun next => (w.update a.fe (Frontend.connect c a.greeting)).Works a.fe next.2 ∧ next.1.Within a.fe)
    fun _ => True := challengeClient_worksBy pf c a w

end

/-! ## Steps and runs -/

namespace Server
variable (pf : Platform)

/-- The frontend whose code handles the event. -/
def concerned (s : Server) (e : Event) : Option Nat :=
  match s.phase e.conn with
  | .greeting => match e.input.map (checkGreeting pf s.world) with
    | some (.ok (some a)) => some a.fe
    | _ => none
  | .auth i _ => some i
  | .main i => some i
  | .closed => none

/-- What a step makes of its connection and the world. -/
inductive Outcome (s : Server) (e : Event) (next : Phase × World) : Prop where
  | nothing (idle : ∀ i, s.phase e.conn ≠ .main i) (same : next = (.closed, s.world))
  | served (i : Nat) (mine : (s.phase e.conn).frontend = some i) (works : s.world.Works i next.2)
    (going : next.1 = .closed ∨ next.1 = .main i)
    (code : ∃ input, (∃ own, s.phase e.conn = .auth i own ∧ judge pf i input s.world = .ok next) ∨
      s.phase e.conn = .main i ∧ serve pf i input s.world = .ok next)
  | hungUp (i : Nat) (mine : s.phase e.conn = .main i) (lost : e.input = none)
    (same : next = (.closed, hangUp i s.world))
  | greeted (a : Admission) (fresh : s.phase e.conn = .greeting)
    (admitted : ∃ input, e.input = some input ∧ checkGreeting pf s.world input = .ok (some a))
    (challenged : challengeClient pf e.conn a s.world = .ok next)

variable {pf} {s s' : Server} {e : Event}

theorem resume_outcome {next : Phase × World} (resumed : s.resume pf e.conn e.input = .ok next) :
    Outcome pf s e next := by
  unfold resume at resumed
  cases read : e.input with
  | none =>
    cases phase : s.phase e.conn with
    | main i =>
      simp only [read, phase, Except.ok.injEq] at resumed
      exact .hungUp i phase read resumed.symm
    | greeting | auth | closed =>
      simp only [read, phase, Except.ok.injEq] at resumed
      exact .nothing (by simp [phase]) resumed.symm
  | some input =>
    cases phase : s.phase e.conn with
    | greeting =>
      simp only [read, phase] at resumed
      obtain ⟨result, checked, refused, admitted⟩ := greet_of_ok resumed
      cases result with
      | none => exact .nothing (by simp [phase]) (refused rfl)
      | some a => exact .greeted a phase ⟨input, read, checked⟩ (admitted a rfl)
    | auth i own =>
      simp only [read, phase] at resumed
      obtain ⟨works, going⟩ := (judge_works pf i input s.world).of_ok resumed
      exact .served i (by rw [phase]; rfl) works going ⟨input, .inl ⟨own, phase, resumed⟩⟩
    | main i =>
      simp only [read, phase] at resumed
      obtain ⟨works, going⟩ := (serve_works pf i input s.world).of_ok resumed
      exact .served i (by rw [phase]; rfl) works going ⟨input, .inr ⟨phase, resumed⟩⟩
    | closed =>
      simp only [read, phase, Except.ok.injEq] at resumed
      exact .nothing (by simp [phase]) resumed.symm

theorem step_outcome (stepped : s.step pf e = .ok s') :
    ∃ next, s' = s.put e.conn next ∧ Outcome pf s e next := by
  obtain ⟨next, resumed, same⟩ := step_ok stepped
  exact ⟨next, same, resume_outcome resumed⟩

/-- No step of a connection writes to the name or the rules of a frontend. -/
theorem step_filed (stepped : s.step pf e = .ok s') (j : Nat) : (s'.world.fe j).filed = (s.world.fe j).filed := by
  obtain ⟨next, rfl, outcome⟩ := step_outcome stepped
  cases outcome with
  | nothing _ same => rw [same, put]
  | served i mine works => exact works.filed j
  | hungUp i mine lost same =>
    rw [same]
    exact World.fe_update_field s.world i j Frontend.filed fun _ => rfl
  | greeted a fresh admitted challenged =>
    obtain ⟨works, -⟩ := (challengeClient_works pf e.conn a s.world).of_ok challenged
    exact (works.filed j).trans (World.fe_update_field s.world a.fe j Frontend.filed fun _ => rfl)

/-- A step leaves alone every frontend it does not concern. -/
theorem step_elsewhere {j : Nat} (apart : s.concerned pf e ≠ some j) (stepped : s.step pf e = .ok s') :
    (s'.world.fe j).atHome = (s.world.fe j).atHome ∧
      (s.world.fe j).teleportCount ≤ (s'.world.fe j).teleportCount := by
  unfold concerned at apart
  obtain ⟨next, rfl, outcome⟩ := step_outcome stepped
  cases outcome with
  | nothing _ same => simp [same, put]
  | served i mine works =>
    refine works.elsewhere fun same => apart ?_
    cases phase : s.phase e.conn with
    | auth k own => simpa [same, phase, Phase.frontend] using mine
    | main k => simpa [same, phase, Phase.frontend] using mine
    | greeting => simp [phase, Phase.frontend] at mine
    | closed => simp [phase, Phase.frontend] at mine
  | hungUp i mine lost same =>
    have other : j ≠ i := by simpa [mine, eq_comm] using apart
    rw [same, put, hangUp, World.fe_update_ne _ other]
    exact ⟨rfl, Int.le_refl _⟩
  | greeted a fresh admitted challenged =>
    obtain ⟨input, read, checked⟩ := admitted
    obtain ⟨works, -⟩ := (challengeClient_works pf e.conn a s.world).of_ok challenged
    have other : j ≠ a.fe := by simpa [fresh, read, checked, eq_comm] using apart
    rw [← World.fe_update_ne s.world other (Frontend.connect e.conn a.greeting)]
    exact works.elsewhere other

end Server

/-- Whatever bytes arrive on the connections of other frontends, in whatever order, and
however these connections come and go: a frontend that none of it concerns is left as it
was, its players, keys, rules and queue included. Only arrivals by teleport are counted. -/
theorem untouched_by_others {pf : Platform} {s s' : Server} {events : List Event} {j : Nat}
    (apart : Allowed (Server.step pf) (fun s e => s.concerned pf e ≠ some j) s events)
    (ran : run (Server.step pf) s events = .ok s') :
    (s'.world.fe j).atHome = (s.world.fe j).atHome ∧
      (s.world.fe j).teleportCount ≤ (s'.world.fe j).teleportCount := by
  apply run_invariant (fun t => (t.world.fe j).atHome = (s.world.fe j).atHome ∧
    (s.world.fe j).teleportCount ≤ (t.world.fe j).teleportCount) _ ⟨rfl, Int.le_refl _⟩ apart ran
  intro t e t' held other stepped
  obtain ⟨same, grown⟩ := Server.step_elsewhere other stepped
  exact ⟨same.trans held.1, Int.le_trans held.2 grown⟩

/-- A second frontend, which is in a session of its own. -/
def neighbourWorld : World where
  frontends := [openFrontend, {
    connected := true
    connection := some 7
    maxPlayers := 1
    name := ascii "duel"
    players := [{}]
    trusted := true
    uuid := ascii "9c0dc0de-0000-4000-8000-27911c0ffee0" }]
  host := Host.counting

/-- The first frontend connects, is trusted, and goes away. -/
def openEvents : List Event := [⟨0, some openGreeting⟩, ⟨0, some (answerTo firstChallenge)⟩, ⟨0, none⟩]

theorem open_apart : Allowed (Server.step Platform.plain) (fun s e => s.concerned Platform.plain e ≠ some 1)
    (Server.start neighbourWorld) openEvents := by decide +kernel

theorem open_ran : Yields (run (Server.step Platform.plain) (Server.start neighbourWorld) openEvents)
    (fun s => s.phase 0 = .closed) fun _ => False := by decide +kernel

theorem untouched_by_others_neighbour : ∃ s',
    run (Server.step Platform.plain) (Server.start neighbourWorld) openEvents = .ok s' ∧
      (s'.world.fe 1).atHome = ((Server.start neighbourWorld).world.fe 1).atHome := by
  obtain ⟨s', ran, -⟩ := open_ran.returns
  exact ⟨s', ran, (untouched_by_others open_apart ran).1⟩

end Q2Admin
