import Q2Admin.Framing

/-! What the messages do to the slots. Most handlers write at most a few fields of a player
who is there already; an observation that overlooks those fields is told so once. Joining and
leaving put a whole record into a slot. -/

namespace Q2Admin
open Go Lib

/-- What a handler writes to a player apart from an obituary. -/
inductive Player.Edit : (Player → Player) → Prop where
  | recorded (id : Int) : Edit fun p => { p with databaseID := id }
  | userinfo (info : StringMap) (hash : Bytes) : Edit (Player.setUserinfo info hash)
  | teleported (now : Int) :
    Edit fun p => { p with lastTeleport := now, teleports := p.teleports + 1 }
  | invited (available now : Int) : Edit fun p => { p with
      invites := p.invites + 1
      lastInvite := now
      invitesAvailable := available - 1 }

/-- An observation of players and rows that does not look at the fields of an edit. -/
structure Overlooks {α : Type} (obs : World → α) : Prop where
  process : ∀ w w' : World, w'.frontends = w.frontends → w'.playerStats = w.playerStats → obs w' = obs w
  update : ∀ (w : World) (j : Nat) (f : Frontend → Frontend), (f (w.fe j)).players = (w.fe j).players →
    (f (w.fe j)).playerCount = (w.fe j).playerCount → obs (w.update j f) = obs w
  edit : ∀ (w : World) (j slot : Nat) (f : Player → Player), Player.Edit f →
    obs (w.updatePlayer j slot f) = obs w

/-- If this returns, all that is observed is as it was. -/
def Overlooked {α : Type} (obs : World → α) (w : World) (x : Except Fault World) : Prop :=
  Yields x (fun w' => obs w' = obs w) fun _ => True

/-- Sending leaves the players and their number. -/
def Unsent (fe : Frontend) (x : Except Fault (Frontend × List (ConnId × Bytes))) : Prop :=
  Yields x (fun result => result.1.players = fe.players ∧ result.1.playerCount = fe.playerCount)
    fun _ => True

section
variable (pf : Platform)

theorem encryptQueue_unsent (fe : Frontend) : Yields (fe.encryptQueue pf)
    (fun fe' => fe'.players = fe.players ∧ fe'.playerCount = fe.playerCount) fun _ => True := by
  unfold Frontend.encryptQueue
  split
  · apply Yields.bind (Yields.top _)
    exact fun _ _ _ => ⟨rfl, rfl⟩
  · exact ⟨rfl, rfl⟩

theorem flush_unsent (fe : Frontend) : Unsent fe (fe.flush pf) := by
  unfold Frontend.flush
  split
  · exact ⟨rfl, rfl⟩
  apply Yields.bind (encryptQueue_unsent pf fe)
  intro fe' _ same
  cases fe'.connection with
  | none => trivial
  | some c => exact same

theorem rotate_unsent (fe : Frontend) (newkey newIV : Bytes) : Unsent fe (fe.rotate pf newkey newIV) := by
  apply Yields.bind (flush_unsent pf _)
  exact fun _ _ same => same

end

namespace Overlooks
variable {α : Type} {obs : World → α} (unseen : Overlooks obs) (pf : Platform) (i : Nat)
include unseen

theorem queue (w : World) (j : Nat) {f : Frontend → Frontend} (queues : Queues f) :
    obs (w.update j f) = obs w :=
  unseen.update w j f (queues.players _) (by rw [queues.only])

theorem now (w : World) : obs w.now.2 = obs w := unseen.process _ _ rfl rfl

theorem advance (w : World) (count : Nat) : obs (w.advance i count) = obs w := unseen.update w i _ rfl rfl

theorem sent {w : World} {x : Except Fault (Frontend × List (ConnId × Bytes))} (unsent : Unsent (w.fe i) x) :
    Overlooked obs w (x >>= fun result => .ok (w.sent i result)) := by
  apply Yields.bind unsent
  intro result _ same
  have placed := unseen.update w i (fun _ => result.1) same.1 same.2
  have wired : obs (w.sent i result) = obs (w.update i fun _ => result.1) := unseen.process _ _ rfl rfl
  exact wired.trans placed

theorem sendMessages (w : World) : Overlooked obs w (sendMessages pf i w) :=
  unseen.sent i (flush_unsent pf (w.fe i))

theorem rotateKeys (w : World) : Overlooked obs w (rotateKeys pf i w) := by
  simp only [Q2Admin.rotateKeys]
  split
  · exact rfl
  · exact (unseen.sent i (rotate_unsent pf _ _ _)).mono
      (fun _ same => same.trans (unseen.process w _ rfl rfl)) fun _ => id

theorem pong (w : World) : Overlooked obs w (pong pf i w) := by
  have counted : obs ((w.update i fun fe => { fe with pingCount := fe.pingCount + 1 }).update i
      (Frontend.writeByte pf.q2 scmdPong)) = obs w :=
    (unseen.queue _ i (Queues.writeByte pf.q2 scmdPong)).trans (unseen.update w i _ rfl rfl)
  simp only [Q2Admin.pong]
  split
  · exact (unseen.rotateKeys pf i _).mono (fun _ same => same.trans counted) fun _ => id
  · exact counted

theorem restifleAll (slots : List Nat) (w : World) :
    obs (slots.foldl (fun w slot => restifle pf i slot w) w) = obs w := by
  induction slots generalizing w with
  | nil => rfl
  | cons slot rest ih =>
    have one : obs (restifle pf i slot w) = obs w := by
      simp only [restifle]
      split
      · exact unseen.queue w i (Queues.mutePlayer pf.q2 _ _)
      · rfl
    exact (ih _).trans one

theorem startConnect (slot : Option Nat) (w : World) : obs (startConnect i slot w) = obs w := by
  cases slot
  · rfl
  · exact unseen.process w _ rfl rfl

theorem onPlayerUpdate (client : Byte) (userinfo : Bytes) (w : World) :
    Overlooked obs w (onPlayerUpdate pf i client userinfo w) := by
  simp only [Q2Admin.onPlayerUpdate]
  split
  · exact rfl
  rename_i slot _
  split
  · exact rfl
  cases userinfoMap userinfo with
  | error fault => trivial
  | ok info =>
    have set := unseen.edit w i slot _ (.userinfo info (md5Hash pf.keys userinfo))
    have drawn (w : World) : obs (w.randomBytes 12).2 = obs w := unseen.process _ _ rfl rfl
    simp only [Bind.bind, Except.bind]
    split
    · exact (unseen.queue _ i (Queues.setupPlayerCookie pf.q2 _ _)).trans ((drawn _).trans set)
    · exact set

theorem onMap (mapname : Bytes) (w : World) : obs (onMap i mapname w) = obs w :=
  unseen.update w i _ rfl rfl

theorem sayTo (p : Option Player) (level : Int) (text : Bytes) (w : World) :
    obs (w.sayTo pf i p level text) = obs w :=
  unseen.queue w i (Queues.sayPlayer pf.q2 p level text)

theorem teleportTo (slot dest : Nat) (w : World) : obs (teleportTo pf i slot dest w) = obs w := by
  simp only [Q2Admin.teleportTo]
  -- from the last update back to the notice
  refine (unseen.update _ dest _ rfl rfl).trans ?_
  refine (unseen.edit _ i slot _ (.teleported _)).trans ?_
  refine (unseen.now _).trans ?_
  exact (unseen.queue _ i (Queues.stuffPlayer pf.q2 _ _)).trans
    (unseen.queue w i (Queues.sayEveryone pf.q2 _ _))

theorem onTeleport (player : Byte) (target : Bytes) (w : World) :
    obs (onTeleport pf i player target w) = obs w := by
  simp only [Q2Admin.onTeleport]
  split
  · rfl
  split
  · exact unseen.sayTo pf i _ _ _ w
  split
  · exact (unseen.sayTo pf i _ _ _ w.now.2).trans (unseen.now w)
  split
  · rfl
  · exact unseen.teleportTo pf i _ _ w

theorem acceptInvite (slot : Nat) (available now : Int) (w : World) :
    obs (acceptInvite i slot available now w) = obs w := by
  simp only [Q2Admin.acceptInvite]
  exact (unseen.update _ i _ rfl rfl).trans (unseen.edit w i slot _ (.invited available now))

theorem invitePlayer (slot : Nat) (w : World) : obs (invitePlayer pf i slot w) = obs w := by
  refine Eq.trans ?_ (unseen.now w)
  simp only [Q2Admin.invitePlayer]
  split
  · split
    · exact unseen.acceptInvite i slot 3 _ w.now.2
    · exact unseen.sayTo pf i _ _ _ w.now.2
  split
  · exact unseen.sayTo pf i _ _ _ w.now.2
  · exact unseen.acceptInvite i slot _ _ w.now.2

theorem onInvite (client : Byte) (w : World) : Overlooked obs w (onInvite pf i client w) := by
  simp only [Q2Admin.onInvite]
  split
  · exact unseen.sayTo pf i _ _ _ w
  split
  · exact unseen.sayTo pf i _ _ _ w
  cases (w.fe i).findPlayer client.toNat with
  | none => trivial
  | some slot => exact unseen.invitePlayer pf i slot w

end Overlooks

/-! ## The players of one frontend -/

theorem map_modify_of_same {α β : Type} {g : α → β} {f : α → α} (same : ∀ a, g (f a) = g a) (l : List α)
    (n : Nat) : (l.modify n f).map g = l.map g := by
  ext1 k
  simp only [List.getElem?_map, List.getElem?_modify]
  by_cases here : n = k
  · cases l[k]? <;> simp [here, same]
  · simp [here]

/-- The slots of a frontend, as far as `g` looks. -/
def World.slots {α : Type} (g : Player → α) (i : Nat) (w : World) : List α := (w.fe i).players.map g

theorem slots_overlooks {α : Type} {g : Player → α} (same : ∀ f, Player.Edit f → ∀ p, g (f p) = g p)
    (i : Nat) : Overlooks (World.slots g i) where
  process w w' frontends _ := by rw [World.slots, World.fe, frontends, World.slots, World.fe]
  update w j f players _ :=
    World.fe_update_holds w (fun fe => fe.players.map g = w.slots g i) rfl fun start => by
      rw [players]
      exact start
  edit w j slot f edit :=
    w.fe_update_field j i (fun fe => fe.players.map g) fun fe => map_modify_of_same (same f edit) fe.players slot

/-- A frontend with a slot is there. -/
theorem live_of_slot {i slot : Nat} {w : World} (inside : slot < (w.fe i).players.length) :
    i < w.frontends.length := by
  by_contra outside
  rw [World.fe_outside w outside] at inside
  simp at inside

theorem players_updatePlayer (i slot : Nat) (f : Player → Player) (w : World) :
    ((w.updatePlayer i slot f).fe i).players = (w.fe i).players.modify slot f := by
  by_cases live : i < w.frontends.length
  · rw [World.updatePlayer, World.fe_update_self w live]
    rfl
  · rw [World.updatePlayer, World.update_outside w live, World.fe_outside w live]
    exact (List.modify_nil ..).symm

theorem players_update {f : Frontend → Frontend} (same : ∀ fe, (f fe).players = fe.players) (i j : Nat)
    (w : World) : ((w.update j f).fe i).players = (w.fe i).players :=
  w.fe_update_field j i (fun fe => fe.players) same

theorem players_advance (i : Nat) (w : World) (count : Nat) :
    ((w.advance i count).fe i).players = (w.fe i).players :=
  w.fe_update_field i i (fun fe => fe.players) fun _ => rfl

theorem findPlayer_advance (i : Nat) (w : World) (count : Nat) (client : Int) :
    ((w.advance i count).fe i).findPlayer client = (w.fe i).findPlayer client :=
  w.field_advance i count i (fun fe => fe.findPlayer client) fun _ _ => rfl

theorem player_advance (i : Nat) (w : World) (count slot : Nat) :
    ((w.advance i count).fe i).player slot = (w.fe i).player slot :=
  w.field_advance i count i (fun fe => fe.player slot) fun _ _ => rfl

/-- What surrounds the frontends: the host, and the rules for all of them. -/
def World.setting (w : World) : Host × List Rule := (w.host, w.rules)

/-- Sending leaves all players, and what surrounds the frontends. -/
theorem sendMessages_players (pf : Platform) (i : Nat) (w : World) : Yields (sendMessages pf i w)
    (fun w' => (w'.fe i).players = (w.fe i).players ∧ w'.setting = w.setting) fun _ => True := by
  apply Yields.bind (flush_unsent pf (w.fe i))
  intro result _ same
  have placed := w.fe_update_holds (fun fe => fe.players = (w.fe i).players) (k := i) (j := i)
    (f := fun _ => result.1) rfl fun _ => same.1
  exact ⟨placed, rfl⟩

theorem modify_const_modify {α : Type} (l : List α) (n : Nat) (a : α) (f : α → α) :
    (l.modify n fun _ => a).modify n f = l.set n (f a) := by
  rw [List.modify_modify_eq, List.set_eq_modify]
  rfl

section
variable (i : Nat)

theorem atClient_ok {cid : Int} {f : Player → Player} {w w' : World} (ran : atClient i cid f w = .ok w') :
    cid.toNat < (w.fe i).players.length ∧ w' = w.updatePlayer i cid.toNat f := by
  unfold atClient at ran
  by_cases valid : (w.fe i).validPlayerID cid = true
  · rw [if_pos valid, Except.ok.injEq] at ran
    obtain ⟨low, high⟩ := (validPlayerID_iff _ _).mp valid
    exact ⟨by omega, ran.symm⟩
  · simp [if_neg valid] at ran

/-- What the database makes of a player: an id is noted if there is one. -/
def Player.recordedAs (id : Option Int) (p : Player) : Player := { p with databaseID := id.getD p.databaseID }

theorem addPlayer_players (slot : Nat) (w : World) : ∃ id,
    ((addPlayer i slot w).fe i).players = (w.fe i).players.modify slot (Player.recordedAs id) := by
  simp only [addPlayer]
  cases w.now.2.insert.1 with
  | none => exact ⟨none, (List.modify_id slot _).symm⟩
  | some id => exact ⟨some id, players_updatePlayer i slot _ _⟩

/-- A player has taken the slot, and is counted. -/
structure Joined (i slot : Nat) (p : Player) (w w' : World) : Prop where
  inside : slot < (w.fe i).players.length
  players : (w'.fe i).players = (w.fe i).players.set slot p
  playerCount : (w'.fe i).playerCount = (w.fe i).playerCount + 1
  playerStats : w'.playerStats = w.playerStats

theorem addPlayer_count (slot : Nat) (w : World) :
    ((addPlayer i slot w).fe i).playerCount = (w.fe i).playerCount ∧
      (addPlayer i slot w).playerStats = w.playerStats := by
  simp only [addPlayer]
  split
  · exact ⟨rfl, rfl⟩
  · exact ⟨World.fe_update_field _ i i (fun fe => fe.playerCount) fun _ => rfl, rfl⟩

theorem storePlayer_joined {client : Byte} {p : Player} {w w' : World}
    (stored : storePlayer i client p w = .ok w') : ∃ id, Joined i client.toNat (p.recordedAs id) w w' := by
  unfold storePlayer at stored
  cases placed : atClient i client.toNat (fun _ => p) w with
  | error fault => simp [placed, Bind.bind, Except.bind] at stored
  | ok w₁ =>
    simp only [placed, Bind.bind, Except.bind, Except.ok.injEq] at stored
    obtain ⟨inside, rfl⟩ := atClient_ok i placed
    rw [Int.toNat_natCast] at inside stored
    subst stored
    let count (fe : Frontend) : Frontend := { fe with playerCount := fe.playerCount + 1 }
    have live : i < (w.updatePlayer i client.toNat fun _ => p).frontends.length := by
      rw [World.updatePlayer, World.length_update]
      exact live_of_slot inside
    have before : ((w.updatePlayer i client.toNat fun _ => p).fe i).playerCount = (w.fe i).playerCount :=
      World.fe_update_field w i i (fun fe => fe.playerCount) fun _ => rfl
    obtain ⟨counted, rows⟩ := addPlayer_count i client.toNat ((w.updatePlayer i client.toNat fun _ => p).update i count)
    rw [World.fe_update_self _ live] at counted
    obtain ⟨id, added⟩ := addPlayer_players i client.toNat ((w.updatePlayer i client.toNat fun _ => p).update i count)
    rw [players_update (f := count) (fun _ => rfl), players_updatePlayer, modify_const_modify] at added
    exact ⟨id, inside, added, counted.trans (congrArg (· + 1) before), rows⟩

theorem storePlayer_setting (client : Byte) (p : Player) (w : World) :
    Yields (storePlayer i client p w) (fun w' => w'.setting = w.setting) fun _ => True := by
  unfold storePlayer
  cases placed : atClient i client.toNat (fun _ => p) w with
  | error fault => trivial
  | ok w₁ =>
    obtain ⟨-, rfl⟩ := atClient_ok i placed
    simp only [Bind.bind, Except.bind, addPlayer]
    split <;> rfl

theorem onPlayer_setting (pf : Platform) (client : Byte) (userinfo version : Bytes) (w : World) :
    Yields (onPlayer pf i client userinfo version w) (fun result => result.2.setting = w.setting) fun _ => True := by
  unfold onPlayer
  split
  · exact rfl
  cases userinfoMap userinfo with
  | error fault => trivial
  | ok info =>
    apply Yields.bind (storePlayer_setting i client _ w.now.2)
    exact fun _ _ same => same

/-- An entry is passed over for its number, or its player takes the slot. -/
theorem onPlayer_joined {pf : Platform} {client : Byte} {userinfo version : Bytes} {w : World}
    {result : Option Nat × World} (stored : onPlayer pf i client userinfo version w = .ok result) :
    ((w.fe i).maxPlayers < client.toNat ∧ result = (none, w)) ∨
      client.toNat ≤ (w.fe i).maxPlayers ∧ result.1 = some client.toNat ∧
      ∃ info id, userinfoMap userinfo = .ok info ∧ Joined i client.toNat
        ((newPlayer pf.keys client userinfo version info w.now.1).recordedAs id) w result.2 := by
  unfold onPlayer at stored
  by_cases beyond : (w.fe i).maxPlayers < client.toNat
  · rw [if_pos beyond, Except.ok.injEq] at stored
    exact .inl ⟨beyond, stored.symm⟩
  rw [if_neg beyond] at stored
  cases read : userinfoMap userinfo with
  | error fault => simp [read, Bind.bind, Except.bind] at stored
  | ok info =>
    simp only [read, Bind.bind, Except.bind] at stored
    cases placed : storePlayer i client (newPlayer pf.keys client userinfo version info w.now.1) w.now.2 with
    | error fault => simp [placed] at stored
    | ok w₁ =>
      simp only [placed, Except.ok.injEq] at stored
      subst stored
      obtain ⟨id, joined⟩ := storePlayer_joined i placed
      exact .inr ⟨Nat.le_of_not_lt beyond, rfl, info, id, rfl, joined.inside, joined.players,
        joined.playerCount, joined.playerStats⟩

/-- Only players in use are found. -/
theorem findPlayer_used {fe : Frontend} {client : Int} {slot : Nat} (found : fe.findPlayer client = some slot) :
    slot < fe.players.length ∧ (fe.player slot).clientID = client ∧ (fe.player slot).inUse = true := by
  unfold Frontend.findPlayer at found
  split at found
  · obtain ⟨inside, this, -⟩ := List.findIdx?_eq_some_iff_getElem.mp found
    rw [Frontend.player_eq_getElem inside]
    simp only [Bool.and_eq_true, decide_eq_true_eq] at this
    exact ⟨inside, this⟩
  · simp at found

theorem onPlayerUpdate_players {pf : Platform} {client : Byte} {userinfo : Bytes} {w w' : World}
    (updated : onPlayerUpdate pf i client userinfo w = .ok w') :
    ((∀ slot, (w.fe i).findPlayer client.toNat = some slot →
        md5Hash pf.keys userinfo = ((w.fe i).player slot).userInfoHash) ∧ w' = w) ∨
      ∃ slot info, (w.fe i).findPlayer client.toNat = some slot ∧ userinfoMap userinfo = .ok info ∧
        md5Hash pf.keys userinfo ≠ ((w.fe i).player slot).userInfoHash ∧
        (w'.fe i).players =
          (w.fe i).players.modify slot (Player.setUserinfo info (md5Hash pf.keys userinfo)) := by
  simp only [onPlayerUpdate] at updated
  cases found : (w.fe i).findPlayer client.toNat with
  | none =>
    simp only [found, Except.ok.injEq] at updated
    exact .inl ⟨by simp, updated.symm⟩
  | some slot =>
    simp only [found] at updated
    by_cases same : md5Hash pf.keys userinfo = ((w.fe i).player slot).userInfoHash
    · rw [if_pos same, Except.ok.injEq] at updated
      exact .inl ⟨by simpa using same, updated.symm⟩
    rw [if_neg same] at updated
    cases read : userinfoMap userinfo with
    | error fault => simp [read, Bind.bind, Except.bind] at updated
    | ok info =>
      refine .inr ⟨slot, info, rfl, rfl, same, ?_⟩
      have set := players_updatePlayer i slot (Player.setUserinfo info (md5Hash pf.keys userinfo)) w
      simp only [read, Bind.bind, Except.bind] at updated
      split at updated <;> cases updated
      · exact (players_update (fun fe => (Queues.setupPlayerCookie pf.q2 _ _).players fe) i i _).trans set
      · exact set

/-- Whoever is removed was in use, and leaves an empty slot. -/
theorem removePlayer_players (client : Nat) (w : World) :
    (((w.fe i).player client).inUse = false ∧ removePlayer i client w = w) ∨
      ((w.fe i).player client).inUse = true ∧ client < (w.fe i).players.length ∧
        ((removePlayer i client w).fe i).players = (w.fe i).players.set client {} ∧
        ((removePlayer i client w).fe i).playerCount = (w.fe i).playerCount - 1 ∧
        (removePlayer i client w).playerStats = (writePlayer i client w).playerStats := by
  by_cases inside : client < (w.fe i).players.length
  case neg =>
    have empty := Frontend.player_outside inside
    have nowhere : (w.fe i).validPlayerID client = false := by
      simp [Frontend.validPlayerID, inside]
    exact .inl ⟨by rw [empty]; rfl, by simp [removePlayer, nowhere]⟩
  have valid : (w.fe i).validPlayerID client = true := by
    simp [Frontend.validPlayerID, inside]
  cases used : ((w.fe i).player client).inUse with
  | false => exact .inl ⟨rfl, by simp [removePlayer, used]⟩
  | true =>
    have same : (writePlayer i client w).fe i = w.fe i := by
      rw [World.fe, writePlayer_frontends, World.fe]
    let count (fe : Frontend) : Frontend := { fe with playerCount := fe.playerCount - 1 }
    have removed : removePlayer i client w =
        ((writePlayer i client w).updatePlayer i client fun _ => {}).update i count := by
      simp [removePlayer, valid, used, count]
    have live : i < ((writePlayer i client w).updatePlayer i client fun _ => {}).frontends.length := by
      rw [World.updatePlayer, World.length_update, writePlayer_frontends]
      exact live_of_slot inside
    refine .inr ⟨rfl, inside, ?_, ?_, by rw [removed]; rfl⟩
    · rw [removed, players_update (f := count) (fun _ => rfl), players_updatePlayer, same, List.set_eq_modify]
    · rw [removed, World.fe_update_self _ live]
      have kept := World.fe_update_field (writePlayer i client w) i i (fun fe => fe.playerCount)
        (f := fun fe => fe.updatePlayer client fun _ => {}) fun _ => rfl
      exact congrArg (· - 1) (kept.trans (by rw [same]))

theorem onDisconnect_cases (clientnum : Byte) (w : World) :
    onDisconnect i clientnum w = w ∨ onDisconnect i clientnum w = removePlayer i clientnum.toNat w := by
  unfold onDisconnect
  split
  · exact .inl rfl
  split
  · exact .inl rfl
  · exact .inr rfl

/-! ## Messages -/

variable (pf : Platform)

/-- An entry of a player list, with the index moved behind it. -/
def storeEntry (w : World) (e : PlayerEntry) : Except Fault World :=
  (deliverPlayer pf i e w).map Prod.snd

theorem deliverPlayers_eq_run (entries : List PlayerEntry) (w : World) :
    deliverPlayers pf i entries w = run (storeEntry i pf) w entries := by
  induction entries generalizing w with
  | nil => rfl
  | cons e rest ih =>
    rw [deliverPlayers, run, storeEntry]
    cases deliverPlayer pf i e w with
    | error fault => rfl
    | ok result => exact ih result.2

theorem storeEntry_delivered {e : PlayerEntry} {w w' : World} (stored : storeEntry i pf w e = .ok w') :
    ∃ slot, deliverPlayer pf i e w = .ok (slot, w') := by
  unfold storeEntry at stored
  cases delivered : deliverPlayer pf i e w with
  | error fault => simp [delivered, Except.map] at stored
  | ok result =>
    simp only [delivered, Except.map, Except.ok.injEq] at stored
    exact ⟨result.1, by rw [← stored]⟩

/-- An entry is passed over for its number, or its player takes the slot. -/
theorem storeEntry_joined {e : PlayerEntry} {w w' : World} (stored : storeEntry i pf w e = .ok w') :
    ((w.fe i).maxPlayers < e.client.toNat ∧ w' = w.advance i e.encode.length) ∨
      e.client.toNat ≤ (w.fe i).maxPlayers ∧ ∃ info id, userinfoMap e.userinfo.val = .ok info ∧
        Joined i e.client.toNat
          ((newPlayer pf.keys e.client e.userinfo.val e.version.val info w.now.1).recordedAs id) w w' := by
  have max := World.field_advance i w e.encode.length i (fun fe => fe.maxPlayers) fun _ _ => rfl
  have players := World.field_advance i w e.encode.length i (fun fe => fe.players) fun _ _ => rfl
  have count := World.field_advance i w e.encode.length i (fun fe => fe.playerCount) fun _ _ => rfl
  obtain ⟨slot, delivered⟩ := storeEntry_delivered i pf stored
  rcases onPlayer_joined i delivered with ⟨beyond, passed⟩ | ⟨within, -, info, id, read, joined⟩
  · exact .inl ⟨max ▸ beyond, congrArg Prod.snd passed⟩
  · exact .inr ⟨max ▸ within, info, id, read, players ▸ joined.inside, players ▸ joined.players,
      count ▸ joined.playerCount, joined.playerStats⟩

theorem storeEntry_setting {e : PlayerEntry} {w w' : World} (stored : storeEntry i pf w e = .ok w') :
    w'.setting = w.setting := by
  obtain ⟨slot, delivered⟩ := storeEntry_delivered i pf stored
  exact (onPlayer_setting i pf _ _ _ _).of_ok delivered

theorem maxPlayers_of_keeps {i : Nat} {w w' : World} {count : Nat} (keeps : (w.advance i count).Keeps w') :
    (w'.fe i).maxPlayers = (w.fe i).maxPlayers :=
  (World.field_of_frames keeps.frames i (fun fe => fe.maxPlayers) fun _ => rfl).trans
    (w.field_advance i count i (fun fe => fe.maxPlayers) fun _ _ => rfl)

theorem maxPlayers_deliver {m : ClientMessage} {w w' : World} (delivered : deliver pf i w m = .ok w') :
    (w'.fe i).maxPlayers = (w.fe i).maxPlayers :=
  maxPlayers_of_keeps ((deliver_kept pf i m w).of_ok delivered)

theorem maxPlayers_storeEntry {e : PlayerEntry} {w w' : World} (stored : storeEntry i pf w e = .ok w') :
    (w'.fe i).maxPlayers = (w.fe i).maxPlayers := by
  obtain ⟨slot, delivered⟩ := storeEntry_delivered i pf stored
  exact maxPlayers_of_keeps ((deliverPlayer_kept pf i e w).of_ok delivered)

/-- A player who connects is stored, and then looked up in a goroutine. -/
theorem handle_connect {e : PlayerEntry} {w w' : World} (handled : handle pf i (.connect e) w = .ok w') :
    ∃ slot w₁, deliverPlayer pf i e w = .ok (slot, w₁) ∧ storeEntry i pf w e = .ok w₁ ∧
      w' = startConnect i slot w₁ := by
  simp only [handle] at handled
  cases delivered : deliverPlayer pf i e w with
  | error fault => simp [delivered, Bind.bind, Except.bind] at handled
  | ok result =>
    simp only [delivered, Bind.bind, Except.bind, Except.ok.injEq] at handled
    exact ⟨result.1, result.2, rfl, by rw [storeEntry, delivered]; rfl, handled.symm⟩

/-- The message neither fills nor empties a slot, and counts nothing. -/
def ClientMessage.Quiet : ClientMessage → Prop
  | .print .. | .connect _ | .playerList _ | .disconnect _ => False
  | _ => True

theorem Overlooks.handle {α : Type} {obs : World → α} (unseen : Overlooks obs) {m : ClientMessage}
    (quiet : m.Quiet) (w : World) : Overlooked obs w (handle pf i m w) := by
  have past := unseen.advance i w m.payload.length
  have after {x : Except Fault World} (overlooked : Overlooked obs (w.advance i m.payload.length) x) :
      Overlooked obs w x := overlooked.mono (fun _ same => same.trans past) fun _ => id
  cases m with
  | ping => exact unseen.pong pf i w
  | map mapname => exact (unseen.onMap i mapname.val _).trans past
  | playerUpdate client userinfo => exact after (unseen.onPlayerUpdate pf i client userinfo.val _)
  | teleport client target => exact (unseen.onTeleport pf i client target.val _).trans past
  | invite client text => exact after (unseen.onInvite pf i client _)
  | print level text => exact quiet.elim
  | connect player => exact quiet.elim
  | playerList players => exact quiet.elim
  | disconnect client => exact quiet.elim

/-! ## Obituaries -/

/-- What an obituary writes to a player. -/
inductive Player.Count : (Player → Player) → Prop where
  | diedAlone : Count Player.diedAlone
  | died : Count Player.died
  | scored : Count Player.scored
  | rated (ratio : Rat) : Count fun p => { p with kdr := ratio }

theorem Overlooked.bind {α : Type} {obs : World → α} {w : World} {x : Except Fault World}
    {f : World → Except Fault World} (first : Overlooked obs w x) (next : ∀ w', Overlooked obs w' (f w')) :
    Overlooked obs w (x >>= f) := by
  apply Yields.bind first
  exact fun w' _ same => (next w').mono (fun _ later => later.trans same) fun _ => id

section
variable {i pf} {α : Type} {g : Player → α} (counted : ∀ f, Player.Count f → ∀ p, g (f p) = g p)
include counted

/-- Counting leaves what `g` looks at. -/
theorem atClient_slots {f : Player → Player} (count : Player.Count f) (cid : Int) (w : World) :
    Overlooked (World.slots g i) w (atClient i cid f w) := by
  cases ran : atClient i cid f w with
  | error fault => trivial
  | ok w' =>
    obtain ⟨-, rfl⟩ := atClient_ok i ran
    show List.map g _ = _
    rw [players_updatePlayer]
    exact map_modify_of_same (counted f count) _ _

theorem parseObituary_slots (submatch : Bytes → Bytes → Option (Nat → Bytes)) (obit : Bytes) (w : World) :
    Overlooked (World.slots g i) w (parseObituary i submatch obit w) := by
  have kdr (cid : Int) (w : World) : Overlooked (World.slots g i) w (recordKDR i cid w) :=
    atClient_slots counted (.rated _) cid w
  unfold parseObituary
  split
  · exact rfl
  split
  · exact rfl
  · exact (atClient_slots counted .diedAlone _ w).bind (kdr _)
  · apply (atClient_slots counted .died _ w).bind
    intro w₁
    apply (atClient_slots counted .scored _ w₁).bind
    exact fun w₂ => (kdr _ w₂).bind (kdr _)

theorem onPrint_slots (edited : ∀ f, Player.Edit f → ∀ p, g (f p) = g p) (level : Byte) (text : Bytes) (w : World) :
    Overlooked (World.slots g i) w (onPrint pf i level text w) := by
  simp only [onPrint]
  split
  · trivial
  split
  · exact parseObituary_slots counted pf.submatch _ w
  split
  · split <;> exact rfl
  split
  · exact (slots_overlooks edited i).restifleAll pf i _ w
  · exact rfl

end
end

end Q2Admin
