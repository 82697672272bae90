import Q2Admin.DirectLookup
import Q2Admin.Lib.Cells
import Q2Admin.Territory

/-! Who the server takes to be in a slot. Seen from outside a slot is empty or has a guest, who
comes with a userinfo, may announce new ones, and leaves. The records of all frontends, with
all that is written to them, say just that: what the messages of the frontend itself have said
about the slot. -/

namespace Q2Admin
open Go Lib

/-- Somebody in a slot: the userinfo and the version he came with, and the last userinfo he
has announced since. -/
structure Guest where
  joined : Bytes
  version : Bytes
  renewed : Option Bytes := none
  deriving DecidableEq

def Guest.userinfo (g : Guest) : Bytes := g.renewed.getD g.joined

/-- What a message says about a slot. -/
inductive Seating where
  | takes (userinfo version : Bytes)
  | renews (userinfo : Bytes)
  | leaves

/-- A userinfo with the hash of the last one is passed over. -/
def Seating.act (keys : KeyLib) : Seating → Option Guest → Option Guest
  | takes userinfo version, _ => some ⟨userinfo, version, none⟩
  | renews userinfo, guest => guest.map fun g =>
    if md5Hash keys userinfo = md5Hash keys g.userinfo then g else { g with renewed := some userinfo }
  | leaves, _ => none

/-- The slots an entry and a message speak about. -/
def PlayerEntry.seating (maxPlayers : Nat) (e : PlayerEntry) : List (Nat × Seating) :=
  if maxPlayers < e.client.toNat then [] else [(e.client.toNat, .takes e.userinfo.val e.version.val)]

def ClientMessage.seating (maxPlayers : Nat) : ClientMessage → List (Nat × Seating)
  | connect e => e.seating maxPlayers
  | playerList players => players.val.flatMap fun e => e.seating maxPlayers
  | playerUpdate client userinfo => [(client.toNat, .renews userinfo.val)]
  | disconnect client => [(client.toNat, .leaves)]
  | _ => []

/-- The part of a player's record that comes from his userinfo. -/
structure Face where
  userinfo : Bytes
  version : Bytes
  userinfoMap : StringMap
  userInfoHash : Bytes
  name : Bytes
  cookie : Bytes
  fov : Int
  ip : Bytes
  port : Int

def Player.face (p : Player) : Face :=
  ⟨p.userinfo, p.version, p.userinfoMap, p.userInfoHash, p.name, p.cookie, p.fov, p.ip, p.port⟩

/-- What the record of a guest holds. His address is that of the userinfo he came with. -/
def Guest.face (keys : KeyLib) (g : Guest) : Except Fault Face := do
  let first ← userinfoMap g.joined
  let info ← userinfoMap g.userinfo
  .ok {
    userinfo := g.joined
    version := g.version
    userinfoMap := info
    userInfoHash := md5Hash keys g.userinfo
    name := info.at (ascii "name")
    cookie := info.at (ascii "cl_cookie")
    fov := match g.renewed with
      | none => (atoi (info.at (ascii "fov"))).getD 0
      | some _ => atoiValue (info.at (ascii "fov"))
    ip := first.at (ascii "ip")
    port := (atoi (first.at (ascii "port"))).getD 0 }

/-- The record is that of the guest, or of nobody. -/
def Player.Shows (keys : KeyLib) (p : Player) : Option Guest → Prop
  | none => p.inUse = false
  | some g => p.inUse = true ∧ g.face keys = .ok p.face

/-- The slots of a frontend show these guests. -/
def Frontend.Shows (keys : KeyLib) (fe : Frontend) (guests : Nat → Option Guest) : Prop :=
  ∀ slot, (fe.player slot).Shows keys (guests slot)

/-- The messages of frontend `i`. -/
def messagesOf (i : Nat) (events : List (Nat × ClientMessage)) : List ClientMessage :=
  (events.filter (·.1 = i)).map (·.2)

/-! ## What messages do to slots -/

/-- What no edit shows in is as it was. -/
theorem World.WorksBy.slots {α : Type} {edits : (Player → Player) → Prop} {arrives : Prop} {g : Player → α} {i : Nat}
    {w w' : World} (works : w.WorksBy edits arrives i w') (unseen : ∀ f, edits f → ∀ p, g (f p) = g p)
    (tells : ∃ p q, g p ≠ g q) :
    w'.slots g i = w.slots g i := by
  induction works with
  | @process w w' frontends => rw [World.slots, World.fe, frontends, World.slots, World.fe]
  | @own w f _ players =>
    apply World.fe_update_holds w (fun fe => fe.players.map g = w.slots g i) (k := i) (j := i) rfl
    intro _
    rw [players]
    rfl
  | @edit w slot f fits =>
    exact World.fe_update_field w i i (fun fe => fe.players.map g) fun fe =>
      map_modify_of_same (unseen f fits) fe.players slot
  | @settle w f _ fits =>
    -- not everything is among the edits
    obtain ⟨p, q, apart⟩ := tells
    exact absurd (unseen (fun _ => q) (fits _) p).symm apart
  | @arrival w dest => exact World.fe_update_field w dest i (fun fe => fe.players.map g) fun _ => rfl
  | write => rfl
  | trans _ _ first second => exact second.trans first

section
variable {pf : Platform} {i : Nat} {w w' : World} {m : ClientMessage}

/-- A message that says nothing about who is in a slot. -/
def ClientMessage.Unseating : ClientMessage → Prop
  | connect _ | playerList _ | playerUpdate _ _ | disconnect _ => False
  | _ => True

/-- A message of a player who wants to be somewhere else. -/
def ClientMessage.Teleports : ClientMessage → Prop
  | teleport _ _ => True
  | _ => False

variable {arrives : Prop}

theorem deliver_touches {edits : (Player → Player) → Prop} (touches : ∀ f, Player.Touch f → edits f)
    (unseating : m.Unseating) (may : m.Teleports → arrives) (w : World) :
    Working edits arrives i w (deliver pf i w m) := by
  have past (count : Nat) (w : World) : w.WorksBy edits arrives i (w.advance i count) := .own _ rfl rfl
  apply Working.of_works (past 1 w)
  cases m with
  | ping => exact pong_working pf i _
  | print level text => exact .of_works (past _ _) (onPrint_working pf i touches level text.val _)
  | map mapname => exact (past _ _).trans (.own _ rfl rfl)
  | teleport client target => exact (past _ _).trans (onTeleport_works pf i touches (may trivial) client target.val _)
  | invite client text => exact .of_works (past _ _) (onInvite_working pf i touches client _)
  | _ => exact unseating.elim

theorem deliverPlayer_works (e : PlayerEntry) (w : World) :
    Yields (deliverPlayer pf i e w) (fun result => w.WorksBy AnyEdit arrives i result.2) fun _ => True :=
  (onPlayer_works pf i e.client e.userinfo.val e.version.val _).mono
    (fun _ works => World.WorksBy.trans (.own _ rfl rfl) works) fun _ => id

theorem deliverPlayers_working (entries : List PlayerEntry) (w : World) :
    Working AnyEdit arrives i w (deliverPlayers pf i entries w) := by
  induction entries generalizing w with
  | nil => exact World.WorksBy.refl
  | cons e rest ih => exact .bindPair (deliverPlayer_works e w) fun result => ih result.2

/-- A message is the work of the frontend it comes from. -/
theorem deliver_working (may : m.Teleports → arrives) (w : World) :
    Working AnyEdit arrives i w (deliver pf i w m) := by
  have past (count : Nat) (w : World) : w.WorksBy AnyEdit arrives i (w.advance i count) := .own _ rfl rfl
  cases m with
  | connect e =>
    apply Working.of_works (past 1 w)
    apply Working.bindPair (deliverPlayer_works e _)
    exact fun result => startConnect_works i result.1 result.2
  | playerList players => exact .of_works (past 1 w) (.of_works (past 1 _) (deliverPlayers_working players.val _))
  | playerUpdate client userinfo =>
    exact .of_works (past 1 w) (.of_works (past _ _) (onPlayerUpdate_working pf i client userinfo.val _))
  | disconnect client => exact (past 1 w).trans ((past _ _).trans (onDisconnect_works i client _))
  | ping | print | map | teleport | invite => exact deliver_touches (fun _ _ => trivial) (by exact trivial) may w

end

/-! ## Slots show their guests -/

/-- What the record shows of a guest, and whether it is in use. -/
def Player.shown (p : Player) : Face × Int := (p.face, p.connectTime)

theorem touch_shown (f : Player → Player) (touch : Player.Touch f) (p : Player) : (f p).shown = p.shown := by
  cases touch with
  | counted f count => cases count <;> rfl
  | recorded | teleported | invited => rfl

namespace Frontend.Shows
variable {keys : KeyLib} {fe fe' : Frontend} {guests : Nat → Option Guest}

theorem of_shown (shows : fe.Shows keys guests)
    (same : ∀ slot, (fe'.player slot).shown = (fe.player slot).shown) : fe'.Shows keys guests := by
  intro slot
  obtain ⟨face, time⟩ := Prod.mk.inj (same slot)
  have before := shows slot
  unfold Player.Shows Player.inUse at before ⊢
  rwa [face, time]

/-- One slot has a new occupant. -/
theorem set (shows : fe.Shows keys guests) {slot : Nat} {p : Player} {guest : Option Guest}
    (inside : slot < fe.players.length) (players : fe'.players = fe.players.set slot p)
    (fits : p.Shows keys guest) : fe'.Shows keys (Function.update guests slot guest) := by
  intro k
  by_cases here : k = slot
  · rw [here, player_set inside players, Function.update_self]
    exact fits
  · rw [player_set_ne here players, Function.update_of_ne here]
    exact shows k

/-- One record has been written to. -/
theorem modify (shows : fe.Shows keys guests) {slot : Nat} {f : Player → Player} {guest : Option Guest}
    (inside : slot < fe.players.length) (players : fe'.players = fe.players.modify slot f)
    (fits : (f (fe.player slot)).Shows keys guest) : fe'.Shows keys (Function.update guests slot guest) := by
  intro k
  by_cases here : k = slot
  · rw [here, player_modify inside players, Function.update_self]
    exact fits
  · rw [player_modify_ne here players, Function.update_of_ne here]
    exact shows k

/-- A slot without a player has no guest. -/
theorem nobody (shows : fe.Shows keys guests) {slot : Nat} (free : (fe.player slot).inUse = false) :
    guests slot = none := by
  have here := shows slot
  cases found : guests slot with
  | none => rfl
  | some g =>
    rw [found] at here
    exact absurd (here.1.symm.trans free) (by decide)

end Frontend.Shows

section
variable {pf : Platform} {i : Nat} {w w' : World} {guests : Nat → Option Guest}

theorem shows_of_players (shows : (w.fe i).Shows pf.keys guests) (same : (w'.fe i).players = (w.fe i).players) :
    (w'.fe i).Shows pf.keys guests :=
  shows.of_shown fun slot => by rw [Frontend.player, Frontend.player, same]

theorem newPlayer_shows (keys : KeyLib) (client : Byte) {userinfo : Bytes} (version : Bytes) {info : StringMap}
    {now : Int} (id : Option Int) (clock : 0 < now) (read : userinfoMap userinfo = .ok info) :
    ((newPlayer keys client userinfo version info now).recordedAs id).Shows keys
      (some ⟨userinfo, version, none⟩) := by
  refine ⟨decide_eq_true clock, ?_⟩
  simp only [Guest.face, Guest.userinfo, Option.getD_none, read, Bind.bind, Except.bind]
  rfl

theorem storeEntry_shows {e : PlayerEntry} (clock : 0 < w.now.1) (shows : (w.fe i).Shows pf.keys guests)
    (stored : storeEntry i pf w e = .ok w') : (w'.fe i).Shows pf.keys
      (replay (Seating.act pf.keys) guests (e.seating (w.fe i).maxPlayers)) := by
  unfold PlayerEntry.seating
  rcases storeEntry_joined i pf stored with ⟨beyond, rfl⟩ | ⟨within, info, id, read, joined⟩
  · rw [if_pos beyond]
    exact shows_of_players shows (players_advance i w _)
  · rw [if_neg (Nat.not_lt.mpr within)]
    exact shows.set joined.inside joined.players (newPlayer_shows _ _ _ id clock read)

theorem Guest.face_ok {keys : KeyLib} {g : Guest} {p : Player} (shown : g.face keys = .ok p.face) :
    ∃ first, userinfoMap g.joined = .ok first ∧ p.userinfo = g.joined ∧ p.version = g.version ∧
      p.userInfoHash = md5Hash keys g.userinfo ∧ p.ip = first.at (ascii "ip") ∧
      p.port = (atoi (first.at (ascii "port"))).getD 0 := by
  unfold Guest.face at shown
  cases first : userinfoMap g.joined with
  | error fault => simp [first, Bind.bind, Except.bind] at shown
  | ok info₀ =>
    cases last : userinfoMap g.userinfo with
    | error fault => simp [first, last, Bind.bind, Except.bind] at shown
    | ok info =>
      simp only [first, last, Bind.bind, Except.bind, Except.ok.injEq, Player.face, Face.mk.injEq] at shown
      obtain ⟨userinfo, version, -, hash, -, -, -, ip, port⟩ := shown
      exact ⟨info₀, rfl, userinfo.symm, version.symm, hash.symm, ip.symm, port.symm⟩

/-- Another userinfo of the guest in the slot. -/
theorem setUserinfo_shows {keys : KeyLib} {p : Player} {g : Guest} {userinfo : Bytes} {info : StringMap}
    (shows : p.Shows keys (some g)) (read : userinfoMap userinfo = .ok info) :
    (p.setUserinfo info (md5Hash keys userinfo)).Shows keys (some { g with renewed := some userinfo }) := by
  obtain ⟨first, joined, same, version, -, ip, port⟩ := Guest.face_ok shows.2
  refine ⟨shows.1, ?_⟩
  simp only [Guest.face, Guest.userinfo, Option.getD_some, joined, read, Bind.bind, Except.bind,
    Player.face, Player.setUserinfo, same, version, ip, port]

theorem used_inside {fe : Frontend} {slot : Nat} (used : (fe.player slot).inUse = true) :
    slot < fe.players.length := by
  by_contra outside
  rw [Frontend.player_outside outside] at used
  exact absurd used (by decide)

/-- A slot that is in use is found by its number. -/
theorem findPlayer_of_used {fe : Frontend} (numbered : fe.Numbered) {slot : Nat}
    (used : (fe.player slot).inUse = true) : fe.findPlayer slot = some slot := by
  have inside := used_inside used
  have valid : fe.validPlayerID slot = true :=
    (validPlayerID_iff _ _).mpr ⟨Int.natCast_nonneg _, Int.ofNat_lt.mpr inside⟩
  rw [numbered.findPlayer_eq, Frontend.playerSlotInUse, valid, Int.toNat_natCast, used]
  rfl

/-- An update finds the player of the slot, or nobody. -/
theorem onPlayerUpdate_shows {client : Byte} {userinfo : Bytes} (numbered : (w.fe i).Numbered)
    (shows : (w.fe i).Shows pf.keys guests) (updated : onPlayerUpdate pf i client userinfo w = .ok w') :
    (w'.fe i).Shows pf.keys (Function.update guests client.toNat
      ((Seating.renews userinfo).act pf.keys (guests client.toNat))) := by
  rcases onPlayerUpdate_players i updated with ⟨passed, rfl⟩ | ⟨slot, info, found, read, other, players⟩
  · -- whoever is there has announced this userinfo before
    have same : (Seating.renews userinfo).act pf.keys (guests client.toNat) = guests client.toNat := by
      cases known : guests client.toNat with
      | none => rfl
      | some g =>
        have here := shows client.toNat
        rw [known] at here
        obtain ⟨first, -, -, -, hash, -⟩ := Guest.face_ok here.2
        have old := passed client.toNat (findPlayer_of_used numbered here.1)
        rw [hash] at old
        simp only [Seating.act, Option.map_some, old, ↓reduceIte]
    rw [same, Function.update_eq_self]
    exact shows
  · obtain ⟨inside, number, used⟩ := findPlayer_used found
    have at_number : slot = client.toNat := Int.ofNat_inj.mp ((numbered slot used).symm.trans number)
    subst at_number
    have here := shows client.toNat
    cases known : guests client.toNat with
    | none =>
      rw [known] at here
      exact absurd (used.symm.trans here) (by decide)
    | some g =>
      rw [known] at here
      obtain ⟨first, -, -, -, hash, -⟩ := Guest.face_ok here.2
      rw [hash] at other
      simp only [Seating.act, Option.map_some, other, ↓reduceIte]
      exact shows.modify inside players (setUserinfo_shows here read)

/-- Whoever leaves is in the slot, or nobody was. -/
theorem onDisconnect_shows {client : Byte} (numbered : (w.fe i).Numbered)
    (sized : (w.fe i).players.length ≤ (w.fe i).maxPlayers) (shows : (w.fe i).Shows pf.keys guests) :
    ((onDisconnect i client w).fe i).Shows pf.keys (Function.update guests client.toNat none) := by
  by_cases used : ((w.fe i).player client.toNat).inUse = true
  case pos =>
    have inside := used_inside used
    have known : ¬ (w.fe i).maxPlayers < client.toNat := by omega
    have removed : onDisconnect i client w = removePlayer i client.toNat w := by
      rw [onDisconnect, if_neg known, findPlayer_of_used numbered used]
    rcases removePlayer_players i client.toNat w with ⟨free, -⟩ | ⟨-, -, players, -⟩
    · exact absurd (used.symm.trans free) (by decide)
    · rw [removed]
      exact shows.set inside players rfl
  case neg =>
    have free : ((w.fe i).player client.toNat).inUse = false := Bool.eq_false_iff.mpr used
    have same : onDisconnect i client w = w := by
      rcases onDisconnect_cases i client w with same | removed
      · exact same
      · rcases removePlayer_players i client.toNat w with ⟨-, kept⟩ | ⟨present, -⟩
        · exact removed.trans kept
        · exact absurd present used
    rw [same, ← shows.nobody free, Function.update_eq_self]
    exact shows

/-! ## Messages and runs -/

/-- A frontend as a session keeps it. -/
structure Hosted (host : Host) (maxPlayers i : Nat) (w : World) : Prop where
  host : w.host = host
  limit : (w.fe i).maxPlayers = maxPlayers
  sized : (w.fe i).players.length ≤ maxPlayers
  numbered : (w.fe i).Numbered

variable {host : Host} {maxPlayers : Nat}

theorem Hosted.of_frame (hosted : Hosted host maxPlayers i w) (setting : w'.setting = w.setting)
    (limit : (w'.fe i).maxPlayers = (w.fe i).maxPlayers)
    (length : (w'.fe i).players.length = (w.fe i).players.length) (numbered : (w'.fe i).Numbered) :
    Hosted host maxPlayers i w' where
  host := (congrArg Prod.fst setting).trans hosted.host
  limit := limit.trans hosted.limit
  sized := length.symm ▸ hosted.sized
  numbered := numbered

theorem Hosted.advance (hosted : Hosted host maxPlayers i w) (count : Nat) :
    Hosted host maxPlayers i (w.advance i count) := by
  have players := players_advance i w count
  have setting : (w.advance i count).setting = w.setting := rfl
  apply hosted.of_frame setting
  · exact w.field_advance i count i (fun fe => fe.maxPlayers) fun _ _ => rfl
  · rw [players]
  · exact w.field_advance i count i (fun fe => fe.Numbered) (fun _ _ => rfl) ▸ hosted.numbered

theorem storeEntry_hosted {e : PlayerEntry} (hosted : Hosted host maxPlayers i w)
    (stored : storeEntry i pf w e = .ok w') : Hosted host maxPlayers i w' := by
  obtain ⟨slot, delivered⟩ := storeEntry_delivered i pf stored
  have keeps := (deliverPlayer_kept pf i e w).of_ok delivered
  apply hosted.of_frame (storeEntry_setting i pf stored) (maxPlayers_storeEntry i pf stored)
  · rw [World.length_players_of_frames keeps.frames, players_advance]
  · exact storeEntry_numbered hosted.numbered stored

theorem deliver_hosted {m : ClientMessage} (hosted : Hosted host maxPlayers i w)
    (delivered : deliver pf i w m = .ok w') : Hosted host maxPlayers i w' := by
  have keeps := (deliver_kept pf i m w).of_ok delivered
  have works := (deliver_working (fun _ => trivial) w).of_ok delivered
  apply hosted.of_frame works.setting (maxPlayers_deliver i pf delivered)
  · rw [World.length_players_of_frames keeps.frames, players_advance]
  · exact deliver_numbered hosted.numbered delivered

/-- The slots show what the message says. -/
theorem deliver_shows {m : ClientMessage} (clock : ∀ n, 0 < host.now n) (hosted : Hosted host maxPlayers i w)
    (shows : (w.fe i).Shows pf.keys guests) (delivered : deliver pf i w m = .ok w') :
    (w'.fe i).Shows pf.keys (replay (Seating.act pf.keys) guests (m.seating maxPlayers)) := by
  have past {w : World} (count : Nat) (shows : (w.fe i).Shows pf.keys guests) :
      ((w.advance i count).fe i).Shows pf.keys guests := shows_of_players shows (players_advance i w count)
  have stores (w : World) (e : PlayerEntry) (w' : World) (guests : Nat → Option Guest)
      (hosted : Hosted host maxPlayers i w) (shows : (w.fe i).Shows pf.keys guests)
      (stored : storeEntry i pf w e = .ok w') : Hosted host maxPlayers i w' ∧
        (w'.fe i).Shows pf.keys (replay (Seating.act pf.keys) guests (e.seating maxPlayers)) := by
    have time : 0 < w.now.1 := by
      rw [World.now, hosted.host]
      exact clock _
    exact ⟨storeEntry_hosted hosted stored, hosted.limit ▸ storeEntry_shows time shows stored⟩
  have unseating (kind : m.Unseating) : (w'.fe i).Shows pf.keys guests := by
    have works := (deliver_touches (fun _ => id) kind (fun _ => trivial) w).of_ok delivered
    have same := works.slots touch_shown ⟨{}, { connectTime := 1 }, by simp [Player.shown]⟩
    exact shows.of_shown (slots_player same)
  cases m with
  | connect e =>
    obtain ⟨known, w₁, -, stored, rfl⟩ := handle_connect i pf delivered
    have seated := (stores _ e w₁ guests (hosted.advance 1) (past 1 shows) stored).2
    cases known with
    | none => exact seated
    | some slot => exact shows_of_players seated rfl
  | playerList players =>
    simp only [deliver, handle, deliverPlayers_eq_run i pf] at delivered
    exact (run_replays (Hosted host maxPlayers i) (fun w guests => (w.fe i).Shows pf.keys guests) stores
      ((hosted.advance 1).advance 1) (past 1 (past 1 shows)) delivered).2
  | playerUpdate client userinfo =>
    exact onPlayerUpdate_shows ((hosted.advance 1).advance _).numbered (past _ (past 1 shows)) delivered
  | disconnect client =>
    cases delivered
    have ready := (hosted.advance 1).advance (ClientMessage.payload (.disconnect client)).length
    exact onDisconnect_shows ready.numbered (ready.limit ▸ ready.sized) (past _ (past 1 shows))
  | ping | print | map | teleport | invite => exact unseating (by exact trivial)

/-- What the event says about the slots of frontend `i`. -/
def seatingAt (maxPlayers i : Nat) (e : Nat × ClientMessage) : List (Nat × Seating) :=
  if e.1 = i then e.2.seating maxPlayers else []

theorem flatMap_seatingAt (events : List (Nat × ClientMessage)) : events.flatMap (seatingAt maxPlayers i) =
    (messagesOf i events).flatMap fun m => m.seating maxPlayers := by
  induction events with
  | nil => rfl
  | cons e rest ih =>
    by_cases here : e.1 = i
    · simp [seatingAt, messagesOf, here, ih]
    · simp [seatingAt, messagesOf, here] at ih ⊢
      exact ih

/-- Messages of all frontends come in any order. Whoever a slot shows then is who the messages
of its own frontend about that slot, one after the other, say: the last who came, with the
last userinfo he has announced, if he has not left. -/
theorem slots_show_guests {events : List (Nat × ClientMessage)} (clock : ∀ n, 0 < w.host.now n)
    (numbered : (w.fe i).Numbered) (sized : (w.fe i).players.length ≤ (w.fe i).maxPlayers)
    (shows : (w.fe i).Shows pf.keys guests)
    (ran : run (fun w e => deliver pf e.1 w e.2) w events = .ok w') (slot : Nat) :
    ((w'.fe i).player slot).Shows pf.keys ((changesOf slot ((messagesOf i events).flatMap
      fun m => m.seating (w.fe i).maxPlayers)).foldl (fun guest said => said.act pf.keys guest) (guests slot)) := by
  have start : Hosted w.host (w.fe i).maxPlayers i w := ⟨rfl, rfl, sized, numbered⟩
  have steps (v : World) (e : Nat × ClientMessage) (v' : World) (guests : Nat → Option Guest)
      (hosted : Hosted w.host (w.fe i).maxPlayers i v) (shows : (v.fe i).Shows pf.keys guests)
      (delivered : deliver pf e.1 v e.2 = .ok v') : Hosted w.host (w.fe i).maxPlayers i v' ∧
        (v'.fe i).Shows pf.keys (replay (Seating.act pf.keys) guests (seatingAt (w.fe i).maxPlayers i e)) := by
    unfold seatingAt
    by_cases here : e.1 = i
    · rw [here] at delivered
      rw [if_pos here]
      exact ⟨deliver_hosted hosted delivered, deliver_shows clock hosted shows delivered⟩
    · -- the messages of others leave the frontend alone
      have works := (deliver_working (fun _ => trivial) v).of_ok delivered
      have home := (works.elsewhere (Ne.symm here)).1
      have players : (v'.fe i).players = (v.fe i).players := by
        have same := congrArg Frontend.players home
        exact same
      have limit : (v'.fe i).maxPlayers = (v.fe i).maxPlayers := by
        have same := congrArg Frontend.maxPlayers home
        exact same
      rw [if_neg here]
      refine ⟨hosted.of_frame works.setting limit (by rw [players]) ?_, shows_of_players shows players⟩
      have record (k : Nat) : (v'.fe i).player k = (v.fe i).player k := by
        rw [Frontend.player, players, Frontend.player]
      intro k used
      rw [record] at used ⊢
      exact hosted.numbered k used
  have replayed := run_replays (Hosted w.host (w.fe i).maxPlayers i)
    (fun v guests => (v.fe i).Shows pf.keys guests) steps start shows ran
  have done := replayed.2 slot
  rwa [flatMap_seatingAt, replay_at] at done

end

/-- A second frontend next to that of Claire. -/
def twoHouses : World := { sessionWorld with
  frontends := sessionWorld.frontends ++ [{
    connected := true
    connection := some 1
    maxPlayers := 2
    players := [{}, {}]
    trusted := true }] }

theorem widened_wired : (0 : Byte) ∉ ascii "\\name\\claire\\fov\\110" := by decide

/-- Claire widens her view while somebody comes and goes next door, in a slot of the same number. -/
def neighbourhood : List (Nat × ClientMessage) := [
  (0, .connect claireEntry),
  (1, .connect claireEntry),
  (0, .playerUpdate 1 ⟨ascii "\\name\\claire\\fov\\110", widened_wired⟩),
  (1, .disconnect 1)]

/-- Claire is there with her last userinfo. -/
def claireWidened : Guest :=
  ⟨claireEntry.userinfo.val, claireEntry.version.val, some (ascii "\\name\\claire\\fov\\110")⟩

theorem neighbourhood_ran : Yields
    (run (fun w e => deliver Platform.plain e.1 w e.2) twoHouses neighbourhood) (fun _ => True) fun _ => False := by
  decide +kernel

theorem neighbourhood_said :
    (changesOf 1 ((messagesOf 0 neighbourhood).flatMap fun m => m.seating 2)).foldl
      (fun guest said => said.act Platform.plain.keys guest) none = some claireWidened := by
  decide +kernel

theorem slots_show_guests_claire : ∃ w',
    run (fun w e => deliver Platform.plain e.1 w e.2) twoHouses neighbourhood = .ok w' ∧
      ((w'.fe 0).player 1).Shows Platform.plain.keys (some claireWidened) := by
  obtain ⟨w', ran, -⟩ := neighbourhood_ran.returns
  have clock (n : Nat) : 0 < twoHouses.host.now n := by
    show (0 : Int) < 1728145800 + (n : Int)
    omega
  have free (slot : Nat) : (twoHouses.fe 0).player slot = {} := by
    rcases slot with _ | _ | slot <;> rfl
  have shows : (twoHouses.fe 0).Shows Platform.plain.keys fun _ => none := by
    intro slot
    rw [free]
    rfl
  have numbered : (twoHouses.fe 0).Numbered := by
    intro slot used
    rw [free] at used
    exact absurd used (by decide)
  have shown := slots_show_guests clock numbered (by decide) shows ran 1
  exact ⟨w', ran, neighbourhood_said ▸ shown⟩

end Q2Admin
