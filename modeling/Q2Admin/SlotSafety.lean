import Q2Admin.Framing

/-! Slot numbers from the wire. Six handlers take a client number from a message and check
it in four ways; two of them let a number through that no slot has. -/

namespace Q2Admin
open Go Lib

namespace World
variable (i : Nat)

/-- No player but the one in the slot has changed. -/
structure Touches (slot : Nat) (w w' : World) : Prop where
  others : ∀ k, k ≠ slot → (w'.fe i).players[k]? = (w.fe i).players[k]?
  elsewhere : ∀ j, j ≠ i → (w'.fe j).players = (w.fe j).players

/-- A message has been read and that is all. -/
def OnlyRead (w w' : World) : Prop := ∃ count, w' = w.advance i count

/-- What becomes of a client number: work on its slot, which is there, or nothing. -/
def Handled (slotFor : Frontend → Byte → Option Nat) (client : Byte) (w w' : World) : Prop :=
  (∃ slot < (w.fe i).players.length, slotFor (w.fe i) client = some slot ∧ Touches i slot w w') ∨ OnlyRead i w w'

/-- The same for the client numbers of a message in turn. -/
def HandledAll (slotFor : Frontend → Byte → Option Nat) : List Byte → World → World → Prop
  | [], w, w' => OnlyRead i w w'
  | client :: rest, w, w'' => ∃ w', Handled i slotFor client w w' ∧ HandledAll slotFor rest w' w''

namespace Touches
variable {i} {slot : Nat} {w w' w'' : World}

theorem trans (first : Touches i slot w w') (second : Touches i slot w' w'') : Touches i slot w w'' where
  others := fun k apart => (second.others k apart).trans (first.others k apart)
  elsewhere := fun j apart => (second.elsewhere j apart).trans (first.elsewhere j apart)

theorem of_frontends (same : w'.frontends = w.frontends) : Touches i slot w w' := by
  constructor <;> intros <;> rw [World.fe, same, World.fe]

theorem update (j : Nat) {f : Frontend → Frontend} (same : ∀ fe, (f fe).players = fe.players) :
    Touches i slot w (w.update j f) := by
  have players (k : Nat) : ((w.update j f).fe k).players = (w.fe k).players :=
    fe_update_field w j k (fun fe => fe.players) same
  exact ⟨fun k _ => by rw [players], fun k _ => players k⟩

theorem queue (j : Nat) {f : Frontend → Frontend} (queues : Queues f) : Touches i slot w (w.update j f) :=
  update j queues.players

theorem updatePlayer (f : Player → Player) : Touches i slot w (w.updatePlayer i slot f) where
  others := by
    intro k apart
    by_cases live : i < w.frontends.length
    · rw [World.updatePlayer, fe_update_self w live, Frontend.updatePlayer, List.getElem?_modify]
      simp [apart.symm]
    · rw [World.updatePlayer, update_outside w live]
  elsewhere := fun j apart => by rw [World.updatePlayer, fe_update_ne w apart]

theorem now : Touches i slot w w.now.2 := of_frontends rfl

theorem insert : Touches i slot w w.insert.2 := of_frontends rfl

theorem randomBytes (length : Nat) : Touches i slot w (w.randomBytes length).2 := of_frontends rfl

theorem refl : Touches i slot w w := of_frontends rfl

theorem advance (count : Nat) : Touches i slot w (w.advance i count) := update i fun _ => rfl

end Touches

variable {slotFor : Frontend → Byte → Option Nat}

theorem Handled.of_advance {client : Byte} {w w' : World} {count : Nat}
    (same : slotFor ((w.advance i count).fe i) client = slotFor (w.fe i) client)
    (handled : Handled i slotFor client (w.advance i count) w') : Handled i slotFor client w w' := by
  rcases handled with ⟨slot, inside, leads, touches⟩ | ⟨more, rfl⟩
  · rw [field_advance i w count i (fun fe => fe.players.length) fun _ _ => rfl] at inside
    exact .inl ⟨slot, inside, same ▸ leads, (Touches.advance count).trans touches⟩
  · exact .inr ⟨count + more, advance_advance i w count more⟩

theorem HandledAll.of_advance {clients : List Byte} {w w' : World} {count : Nat}
    (same : ∀ client, slotFor ((w.advance i count).fe i) client = slotFor (w.fe i) client)
    (handled : HandledAll i slotFor clients (w.advance i count) w') : HandledAll i slotFor clients w w' := by
  cases clients with
  | nil =>
    obtain ⟨more, rfl⟩ := handled
    exact ⟨count + more, advance_advance i w count more⟩
  | cons client clients =>
    obtain ⟨middle, first, rest⟩ := handled
    exact ⟨middle, first.of_advance i (same client), rest⟩

end World

section
variable (pf : Platform) (i : Nat)

/-! ## Connect and player list -/

theorem addPlayer_touches (slot : Nat) (w : World) : World.Touches i slot w (addPlayer i slot w) := by
  simp only [addPlayer]
  have inserted : World.Touches i slot w w.now.2.insert.2 := World.Touches.now.trans World.Touches.insert
  split
  · exact inserted
  · exact inserted.trans (World.Touches.updatePlayer _)

theorem storePlayer_touches {client : Byte} {p : Player} {w : World}
    (inside : client.toNat < (w.fe i).players.length) :
    Yields (storePlayer i client p w) (World.Touches i client.toNat w) fun _ => False := by
  have valid : (w.fe i).validPlayerID client.toNat = true :=
    (validPlayerID_iff _ _).mpr ⟨Int.natCast_nonneg _, Int.ofNat_lt.mpr inside⟩
  have stored : atClient i client.toNat (fun _ => p) w = .ok (w.updatePlayer i client.toNat fun _ => p) := by
    rw [atClient, if_pos valid, Int.toNat_natCast]
  rw [storePlayer, stored]
  refine World.Touches.trans ?_ (addPlayer_touches i client.toNat _)
  exact (World.Touches.updatePlayer _).trans (World.Touches.update i fun _ => rfl)

theorem storePlayer_outside {client : Byte} {p : Player} {w : World}
    (outside : (w.fe i).players.length ≤ client.toNat) :
    storePlayer i client p w = .error .slotIndex := by
  have invalid : ¬ (w.fe i).validPlayerID client.toNat = true := by
    rw [validPlayerID_iff]
    exact fun range => absurd (Int.ofNat_lt.mp range.2) (Nat.not_lt.mpr outside)
  simp only [storePlayer, atClient, invalid]
  rfl

/-- A connect and the entries of a player list name the slot itself. -/
def slotNamed (_ : Frontend) (client : Byte) : Option Nat := some client.toNat

/-- Where the first entry of a list that ends the process does so by its userinfo, and
not by naming the slot behind the last. -/
def EntriesFit (maxPlayers : Nat) : List PlayerEntry → Prop
  | [] => True
  | e :: rest =>
    if maxPlayers < e.client.toNat then EntriesFit maxPlayers rest
    else WholePairs e.userinfo.val → e.client.toNat ≠ maxPlayers ∧ EntriesFit maxPlayers rest

/-- The faults of a slot number that names no player. -/
def SlotFault (fault : Fault) : Prop := fault = .slotIndex ∨ fault = .nilPlayer

theorem userinfoField_not_slotFault : ¬ SlotFault .userinfoField := by
  simp [SlotFault]

theorem deliverPlayer_over {e : PlayerEntry} {w : World} (beyond : (w.fe i).maxPlayers < e.client.toNat) :
    deliverPlayer pf i e w = .ok (none, w.advance i e.encode.length) := by
  have max := World.field_advance i w e.encode.length i (fun fe => fe.maxPlayers) fun _ _ => rfl
  rw [deliverPlayer, onPlayer, if_pos (max ▸ beyond)]

theorem deliverPlayer_broken {e : PlayerEntry} {w : World}
    (within : ¬ (w.fe i).maxPlayers < e.client.toNat) (broken : ¬ WholePairs e.userinfo.val) :
    deliverPlayer pf i e w = .error .userinfoField := by
  have max := World.field_advance i w e.encode.length i (fun fe => fe.maxPlayers) fun _ _ => rfl
  rw [deliverPlayer, onPlayer, if_neg (max ▸ within)]
  cases read : userinfoMap e.userinfo.val with
  | error fault => rw [userinfoMap_fault read]; rfl
  | ok info => exact absurd ((userinfoMap_ok_iff _).mp ⟨info, read⟩) broken

theorem deliverPlayer_whole {e : PlayerEntry} {w : World}
    (within : ¬ (w.fe i).maxPlayers < e.client.toNat) (whole : WholePairs e.userinfo.val) :
    ∃ p, deliverPlayer pf i e w =
      storePlayer i e.client p (w.advance i e.encode.length).now.2 >>= fun w' =>
        .ok (some e.client.toNat, w') := by
  have max := World.field_advance i w e.encode.length i (fun fe => fe.maxPlayers) fun _ _ => rfl
  obtain ⟨info, read⟩ := (userinfoMap_ok_iff _).mpr whole
  refine ⟨newPlayer pf.keys e.client e.userinfo.val e.version.val info
    (w.advance i e.encode.length).now.1, ?_⟩
  rw [deliverPlayer, onPlayer, if_neg (max ▸ within), read]
  rfl

theorem length_players_advance (w : World) (count : Nat) :
    ((w.advance i count).now.2.fe i).players.length = (w.fe i).players.length :=
  World.field_advance i w count i (fun fe => fe.players.length) fun _ _ => rfl

section
variable {e : PlayerEntry} {entries : List PlayerEntry} {w : World}
  (sized : (w.fe i).players.length = (w.fe i).maxPlayers)
include sized

theorem deliverPlayer_stored (whole : WholePairs e.userinfo.val)
    (inside : e.client.toNat < (w.fe i).maxPlayers) :
    Yields (deliverPlayer pf i e w) (fun result => World.Touches i e.client.toNat w result.2)
      fun _ => False := by
  obtain ⟨p, stored⟩ := deliverPlayer_whole pf i (Nat.lt_asymm inside) whole
  have slot : e.client.toNat < ((w.advance i e.encode.length).now.2.fe i).players.length := by
    rwa [length_players_advance, sized]
  rw [stored]
  apply Yields.bind (storePlayer_touches i slot)
  intro w' _ touches
  have start : World.Touches i e.client.toNat w (w.advance i e.encode.length).now.2 :=
    (World.Touches.advance _).trans World.Touches.now
  exact start.trans touches

theorem deliverPlayer_fit (fits : WholePairs e.userinfo.val → e.client.toNat ≠ (w.fe i).maxPlayers) :
    Yields (deliverPlayer pf i e w) (fun result => World.Handled i slotNamed e.client w result.2)
      fun fault => ¬ SlotFault fault := by
  by_cases beyond : (w.fe i).maxPlayers < e.client.toNat
  · rw [deliverPlayer_over pf i beyond]
    exact .inr ⟨_, rfl⟩
  by_cases whole : WholePairs e.userinfo.val
  · have inside : e.client.toNat < (w.fe i).maxPlayers :=
      Nat.lt_of_le_of_ne (Nat.not_lt.mp beyond) (fits whole)
    exact (deliverPlayer_stored pf i sized whole inside).mono
      (fun _ touches => .inl ⟨_, sized.symm ▸ inside, rfl, touches⟩) fun _ => False.elim
  · rw [deliverPlayer_broken pf i beyond whole]
    exact userinfoField_not_slotFault

theorem deliverPlayer_unfit (whole : WholePairs e.userinfo.val)
    (edge : e.client.toNat = (w.fe i).maxPlayers) : deliverPlayer pf i e w = .error .slotIndex := by
  have within : ¬ (w.fe i).maxPlayers < e.client.toNat := by omega
  obtain ⟨p, stored⟩ := deliverPlayer_whole pf i within whole
  rw [stored, storePlayer_outside i (by rw [length_players_advance]; omega)]
  rfl

/-- The slots are as many as before, and the limit is the same. -/
theorem deliverPlayer_sized {result : Option Nat × World} (delivered : deliverPlayer pf i e w = .ok result) :
    (result.2.fe i).maxPlayers = (w.fe i).maxPlayers ∧
      (result.2.fe i).players.length = (result.2.fe i).maxPlayers := by
  have keeps := (deliverPlayer_kept pf i e w).of_ok delivered
  have max := (World.field_of_frames keeps.frames i (fun fe => fe.maxPlayers) fun _ => rfl).trans
    (World.field_advance i w _ i (fun fe => fe.maxPlayers) fun _ _ => rfl)
  have count := (World.length_players_of_frames keeps.frames i).trans
    (World.field_advance i w _ i (fun fe => fe.players.length) fun _ _ => rfl)
  exact ⟨max, count.trans (sized.trans max.symm)⟩

theorem deliverPlayers_fit (fit : EntriesFit (w.fe i).maxPlayers entries) :
    Yields (deliverPlayers pf i entries w) (World.HandledAll i slotNamed (entries.map fun e => e.client) w)
      fun fault => ¬ SlotFault fault := by
  induction entries generalizing w with
  | nil => exact ⟨0, (World.advance_zero i w).symm⟩
  | cons e rest ih =>
    unfold EntriesFit at fit
    have fits : WholePairs e.userinfo.val → e.client.toNat ≠ (w.fe i).maxPlayers := by
      intro whole edge
      rw [if_neg (by omega)] at fit
      exact (fit whole).1 edge
    apply Yields.bind (deliverPlayer_fit pf i sized fits)
    intro result delivered handled
    obtain ⟨max, sized'⟩ := deliverPlayer_sized pf i sized delivered
    have fit' : EntriesFit (result.2.fe i).maxPlayers rest := by
      rw [max]
      split at fit
      · exact fit
      · rename_i within
        by_cases whole : WholePairs e.userinfo.val
        · exact (fit whole).2
        · rw [deliverPlayer_broken pf i within whole] at delivered
          simp at delivered
    exact (ih sized' fit').mono (fun w' later => ⟨result.2, handled, later⟩) fun _ => id

theorem deliverPlayers_unfit (unfit : ¬ EntriesFit (w.fe i).maxPlayers entries) :
    deliverPlayers pf i entries w = .error .slotIndex := by
  induction entries generalizing w with
  | nil => exact absurd trivial unfit
  | cons e rest ih =>
    unfold EntriesFit at unfit
    rw [deliverPlayers]
    by_cases edge : WholePairs e.userinfo.val ∧ e.client.toNat = (w.fe i).maxPlayers
    · rw [deliverPlayer_unfit pf i sized edge.1 edge.2]
      rfl
    -- otherwise the entry is passed and the bad one is further on
    have fits : WholePairs e.userinfo.val → e.client.toNat ≠ (w.fe i).maxPlayers :=
      fun whole same => edge ⟨whole, same⟩
    obtain ⟨result, delivered⟩ : ∃ result, deliverPlayer pf i e w = .ok result := by
      by_cases beyond : (w.fe i).maxPlayers < e.client.toNat
      · exact ⟨_, deliverPlayer_over pf i beyond⟩
      · rw [if_neg beyond] at unfit
        have whole : WholePairs e.userinfo.val := by
          by_contra broken
          exact unfit fun whole => absurd whole broken
        have inside := Nat.lt_of_le_of_ne (Nat.not_lt.mp beyond) (fits whole)
        obtain ⟨result, delivered, -⟩ := (deliverPlayer_stored pf i sized whole inside).returns
        exact ⟨result, delivered⟩
    obtain ⟨max, sized'⟩ := deliverPlayer_sized pf i sized delivered
    rw [delivered]
    apply ih sized'
    rw [max]
    split at unfit
    · exact unfit
    · exact fun fit' => unfit fun whole => ⟨fits whole, fit'⟩

end

/-! ## The four other messages -/

theorem writePlayer_touches (slot client : Nat) (w : World) :
    World.Touches i slot w (writePlayer i client w) :=
  World.Touches.of_frontends (writePlayer_frontends i client w)

theorem removePlayer_touches (client : Nat) (w : World) :
    World.Touches i client w (removePlayer i client w) := by
  simp only [removePlayer]
  split
  · exact World.Touches.refl
  split
  · exact World.Touches.refl
  refine World.Touches.trans ?_ (World.Touches.update i fun _ => rfl)
  exact (writePlayer_touches i client client w).trans (World.Touches.updatePlayer _)

theorem onPlayerUpdate_touches {client : Byte} {userinfo : Bytes} {w : World} {slot : Nat}
    (found : (w.fe i).findPlayer client.toNat = some slot) :
    Yields (onPlayerUpdate pf i client userinfo w) (World.Touches i slot w)
      fun fault => ¬ SlotFault fault := by
  simp only [onPlayerUpdate, found]
  split
  · exact World.Touches.refl
  cases read : userinfoMap userinfo with
  | error fault =>
    rw [userinfoMap_fault read]
    exact userinfoField_not_slotFault
  | ok info =>
    have set : World.Touches i slot w
        (w.updatePlayer i slot (Player.setUserinfo info (md5Hash pf.keys userinfo))) :=
      World.Touches.updatePlayer _
    simp only [Bind.bind, Except.bind]
    split
    · refine set.trans (World.Touches.trans (World.Touches.randomBytes 12) ?_)
      exact World.Touches.queue i (Queues.setupPlayerCookie pf.q2 _ _)
    · exact set

theorem sayTo_touches (slot : Nat) (p : Option Player) (level : Int) (text : Bytes) (w : World) :
    World.Touches i slot w (w.sayTo pf i p level text) :=
  World.Touches.queue i (Queues.sayPlayer pf.q2 p level text)

theorem onTeleport_touches {player : Byte} {target : Bytes} {w : World} {slot : Nat}
    (found : (w.fe i).findPlayer player.toNat = some slot) :
    World.Touches i slot w (onTeleport pf i player target w) := by
  simp only [onTeleport, found]
  split
  · exact sayTo_touches pf i slot _ _ _ w
  split
  · exact World.Touches.now.trans (sayTo_touches pf i slot _ _ _ w.now.2)
  split
  · exact World.Touches.refl
  simp only [teleportTo]
  refine World.Touches.trans ?_ (World.Touches.update _ fun _ => rfl)
  refine World.Touches.trans ?_ (World.Touches.updatePlayer _)
  refine World.Touches.trans ?_ World.Touches.now
  refine World.Touches.trans ?_ (World.Touches.queue i (Queues.stuffPlayer pf.q2 _ _))
  exact World.Touches.queue i (Queues.sayEveryone pf.q2 _ _)

theorem acceptInvite_touches (slot : Nat) (available now : Int) (w : World) :
    World.Touches i slot w (acceptInvite i slot available now w) := by
  simp only [acceptInvite]
  refine World.Touches.trans ?_ (World.Touches.update i fun _ => rfl)
  exact World.Touches.updatePlayer _

theorem invitePlayer_touches (slot : Nat) (w : World) :
    World.Touches i slot w (invitePlayer pf i slot w) := by
  apply World.Touches.now.trans
  simp only [invitePlayer]
  split
  · split
    · exact acceptInvite_touches i slot 3 _ _
    · exact sayTo_touches pf i slot _ _ _ _
  split
  · exact sayTo_touches pf i slot _ _ _ _
  · exact acceptInvite_touches i slot _ _ _

end

/-! ## A message that carries client numbers -/

namespace ClientMessage

def CarriesClient : ClientMessage → Prop
  | ping | print _ _ | map _ => False
  | _ => True

/-- The client numbers that the message carries. -/
def clients : ClientMessage → List Byte
  | playerList players => players.val.map fun e => e.client
  | connect player => [player.client]
  | playerUpdate client _ | disconnect client | teleport client _ | invite client _ => [client]
  | ping | print _ _ | map _ => []

/-- The slot that is worked on for a client number. A connect and a player list name it. A
disconnect names the slot too, but of a player who has to be found; the other messages work on
the player that is found. -/
def slotFor : ClientMessage → Frontend → Byte → Option Nat
  | connect _ | playerList _ => slotNamed
  | disconnect _ => fun fe client => (fe.findPlayer client.toNat).map fun _ => client.toNat
  | _ => fun fe client => fe.findPlayer client.toNat

/-- The slot numbers that lead nowhere: the one behind the last in a connect or a player
list, and one without a player in an invite that would be accepted. -/
def SlotsFit (fe : Frontend) : ClientMessage → Prop
  | connect player => EntriesFit fe.maxPlayers [player]
  | playerList players => EntriesFit fe.maxPlayers players.val
  | invite client _ => fe.allowInvite = true → fe.invites.tokens ≠ 0 →
    (fe.findPlayer client.toNat).isSome = true
  | _ => True

end ClientMessage

/-- Every slot number is worked on or rejected, and none ends the process. -/
def SlotSafe (i : Nat) (m : ClientMessage) (w : World) (x : Except Fault World) : Prop :=
  Yields x (World.HandledAll i m.slotFor m.clients w) fun fault => ¬ SlotFault fault

section
variable (pf : Platform) (i : Nat)

theorem handledAll_one {slotFor : Frontend → Byte → Option Nat} {client : Byte} {w w' : World}
    (handled : World.Handled i slotFor client w w') : World.HandledAll i slotFor [client] w w' :=
  ⟨w', handled, 0, (World.advance_zero i w').symm⟩

theorem slotFor_advance (m : ClientMessage) (w : World) (count : Nat) (client : Byte) :
    m.slotFor ((w.advance i count).fe i) client = m.slotFor (w.fe i) client :=
  World.field_advance i w count i (fun fe => m.slotFor fe client) fun _ _ => by cases m <;> rfl

/-- A player that is found is worked on where it is. -/
theorem touches_found {m : ClientMessage} {client : Byte} {w w' : World} {count slot : Nat}
    (found : m.slotFor ((w.advance i count).fe i) client = some slot)
    (inside : slot < ((w.advance i count).fe i).players.length)
    (touches : World.Touches i slot (w.advance i count) w') : World.HandledAll i m.slotFor [client] w w' :=
  handledAll_one i (World.Handled.of_advance i (slotFor_advance i m w count client)
    (.inl ⟨slot, inside, found, touches⟩))

theorem onlyRead_advance (m : ClientMessage) (client : Byte) (w : World) (count : Nat) :
    World.HandledAll i m.slotFor [client] w (w.advance i count) := handledAll_one i (.inr ⟨count, rfl⟩)

theorem handle_connect_fit {player : PlayerEntry} {w : World}
    (sized : (w.fe i).players.length = (w.fe i).maxPlayers)
    (fit : EntriesFit (w.fe i).maxPlayers [player]) :
    SlotSafe i (.connect player) w (handle pf i (.connect player) w) := by
  unfold EntriesFit at fit
  by_cases beyond : (w.fe i).maxPlayers < player.client.toNat
  · simp only [handle, deliverPlayer_over pf i beyond]
    exact onlyRead_advance i (.connect player) player.client w _
  by_cases whole : WholePairs player.userinfo.val
  · rw [if_neg beyond] at fit
    have inside := Nat.lt_of_le_of_ne (Nat.not_lt.mp beyond) (fit whole).1
    apply Yields.bind ((deliverPlayer_stored pf i sized whole inside).mono (fun _ => id) fun _ => False.elim)
    intro result _ touches
    have started : World.Touches i player.client.toNat w (startConnect i result.1 result.2) := by
      apply touches.trans
      cases result.1 with
      | none => exact World.Touches.refl
      | some slot => exact World.Touches.of_frontends rfl
    exact handledAll_one i (.inl ⟨_, sized.symm ▸ inside, rfl, started⟩)
  · simp only [handle, deliverPlayer_broken pf i beyond whole]
    exact userinfoField_not_slotFault

theorem handle_invite_fit {client : Byte} {text : WireString} {w : World}
    (fit : ClientMessage.SlotsFit (w.fe i) (.invite client text)) :
    SlotSafe i (.invite client text) w (handle pf i (.invite client text) w) := by
  have same := World.field_advance i w (ClientMessage.payload (.invite client text)).length i
    (fun fe => ClientMessage.SlotsFit fe (.invite client text)) fun _ _ => rfl
  rw [← same] at fit
  simp only [handle, onInvite]
  cases found : ((w.advance i (ClientMessage.payload (.invite client text)).length).fe i).findPlayer
      client.toNat with
  | none =>
    -- nobody is told that the invite is refused
    have silent (level : Int) (text : Bytes) (w : World) : w.sayTo pf i none level text = w := by
      have list : w.frontends.modify i (fun fe => fe) = w.frontends := List.modify_id i w.frontends
      rw [World.sayTo, World.update]
      change { w with frontends := w.frontends.modify i fun fe => fe } = w
      rw [list]
    simp only [Option.map_none, silent]
    split
    · exact onlyRead_advance i (.invite client text) client w _
    split
    · exact onlyRead_advance i (.invite client text) client w _
    · rename_i allowed tokens
      have present := fit (by simpa using allowed) tokens
      rw [found] at present
      simp at present
  | some slot =>
    have done {w' : World} (touches : World.Touches i slot _ w') :=
      touches_found i (m := .invite client text) found (Frontend.findPlayer_lt found) touches
    split
    · exact done (sayTo_touches pf i slot _ _ _ _)
    split
    · exact done (sayTo_touches pf i slot _ _ _ _)
    · exact done (invitePlayer_touches pf i slot _)

theorem handle_fit {m : ClientMessage} {w : World} (carries : m.CarriesClient)
    (sized : (w.fe i).players.length = (w.fe i).maxPlayers) (fit : m.SlotsFit (w.fe i)) :
    SlotSafe i m w (handle pf i m w) := by
  cases m with
  | ping => exact carries.elim
  | print level text => exact carries.elim
  | map mapname => exact carries.elim
  | playerList players =>
    have limits := World.field_advance i w 1 i (fun fe => fe.maxPlayers) fun _ _ => rfl
    have counts := World.field_advance i w 1 i (fun fe => fe.players.length) fun _ _ => rfl
    have fit' : EntriesFit ((w.advance i 1).fe i).maxPlayers players.val := limits.symm ▸ fit
    have entries := deliverPlayers_fit pf i (counts.trans (sized.trans limits.symm)) fit'
    exact entries.mono (fun _ handled => handled.of_advance i fun _ => rfl) fun _ => id
  | playerUpdate client userinfo =>
    simp only [handle]
    cases found : ((w.advance i (ClientMessage.payload (.playerUpdate client userinfo)).length).fe
        i).findPlayer client.toNat with
    | none =>
      simp only [onPlayerUpdate, found]
      exact onlyRead_advance i (.playerUpdate client userinfo) client w _
    | some slot =>
      apply (onPlayerUpdate_touches pf i found).mono _ fun _ => id
      have inside := Frontend.findPlayer_lt found
      exact fun _ touches => touches_found i (m := .playerUpdate client userinfo) found inside touches
  | connect player => exact handle_connect_fit pf i sized fit
  | disconnect client =>
    simp only [handle, onDisconnect]
    split
    · exact onlyRead_advance i (.disconnect client) client w _
    cases found : ((w.advance i (ClientMessage.payload (.disconnect client)).length).fe i).findPlayer
        client.toNat with
    | none => exact onlyRead_advance i (.disconnect client) client w _
    | some slot =>
      have inside := ((validPlayerID_iff _ _).mp (Frontend.findPlayer_valid found)).2
      have leads : ClientMessage.slotFor (.disconnect client)
          ((w.advance i (ClientMessage.payload (.disconnect client)).length).fe i) client = some client.toNat := by
        simp only [ClientMessage.slotFor, found, Option.map_some]
      exact touches_found i leads (Int.ofNat_lt.mp inside) (removePlayer_touches i _ _)
  | teleport client target =>
    simp only [handle]
    cases found : ((w.advance i (ClientMessage.payload (.teleport client target)).length).fe
        i).findPlayer client.toNat with
    | none =>
      simp only [onTeleport, found]
      exact onlyRead_advance i (.teleport client target) client w _
    | some slot =>
      exact touches_found i (m := .teleport client target) found (Frontend.findPlayer_lt found)
        (onTeleport_touches pf i found)
  | invite client text => exact handle_invite_fit pf i fit

theorem handle_unfit {m : ClientMessage} {w : World}
    (sized : (w.fe i).players.length = (w.fe i).maxPlayers) (unfit : ¬ m.SlotsFit (w.fe i)) :
    ∃ fault, handle pf i m w = .error fault ∧ SlotFault fault := by
  cases m with
  | playerList players =>
    have limits := World.field_advance i w 1 i (fun fe => fe.maxPlayers) fun _ _ => rfl
    have counts := World.field_advance i w 1 i (fun fe => fe.players.length) fun _ _ => rfl
    have unfit' : ¬ EntriesFit ((w.advance i 1).fe i).maxPlayers players.val := limits.symm ▸ unfit
    have stopped := deliverPlayers_unfit pf i (counts.trans (sized.trans limits.symm)) unfit'
    exact ⟨_, stopped, .inl rfl⟩
  | connect player =>
    have stopped := deliverPlayers_unfit pf i sized unfit
    refine ⟨.slotIndex, ?_, .inl rfl⟩
    simp only [handle]
    cases delivered : deliverPlayer pf i player w with
    | error fault =>
      rw [deliverPlayers, delivered] at stopped
      exact stopped
    | ok result =>
      rw [deliverPlayers, delivered] at stopped
      simp [deliverPlayers, Bind.bind, Except.bind] at stopped
  | invite client text =>
    have same := World.field_advance i w (ClientMessage.payload (.invite client text)).length i
      (fun fe => ClientMessage.SlotsFit fe (.invite client text)) fun _ _ => rfl
    rw [← same] at unfit
    simp only [ClientMessage.SlotsFit, not_forall] at unfit
    obtain ⟨allowed, tokens, missing⟩ := unfit
    rw [Option.not_isSome_iff_eq_none] at missing
    refine ⟨.nilPlayer, ?_, .inr rfl⟩
    simp only [handle, onInvite, allowed, tokens, missing]
    rfl
  | _ => exact absurd trivial unfit

/-- With as many slots as the frontend announced, a message that carries client numbers
works on slots there are or changes nothing, exactly when its numbers fit. -/
theorem slots_safe_iff {w : World} {m : ClientMessage} {rest : Bytes} (carries : m.CarriesClient)
    (sized : (w.fe i).players.length = (w.fe i).maxPlayers)
    (left : w.unread i = m.encode ++ rest) :
    SlotSafe i m w (parseOne pf i w) ↔ m.SlotsFit (w.fe i) := by
  have limits := World.field_advance i w 1 i (fun fe => fe.maxPlayers) fun _ _ => rfl
  have counts := World.field_advance i w 1 i (fun fe => fe.players.length) fun _ _ => rfl
  have sized' := counts.trans (sized.trans limits.symm)
  have fits := World.field_advance i w 1 i (fun fe => m.SlotsFit fe) fun _ _ => by cases m <;> rfl
  rw [parseOne_eq pf i m left, ← fits]
  constructor
  · intro safe
    by_contra unfit
    obtain ⟨fault, stopped, bad⟩ := handle_unfit pf i sized' unfit
    rw [deliver, stopped] at safe
    exact safe bad
  · intro fit
    apply (handle_fit pf i carries sized' fit).mono _ fun _ => id
    exact fun _ handled => handled.of_advance i (slotFor_advance i m w 1)

end

/-- A frontend of one slot, and a player that connects to slot 1. -/
def edgeMessage : ClientMessage :=
  .connect ⟨1, ⟨ascii "\\name\\claire", by decide⟩, claireEntry.version⟩

def edgeWorld (m : ClientMessage) : World where
  frontends := [{
    allowInvite := true
    connected := true
    connection := some 0
    invites := { tokens := 3, max := 3, freq := 30 }
    maxPlayers := 1
    message := ⟨m.encode, 0, m.encode.length⟩
    players := [{}]
    trusted := true }]
  host := Host.counting

theorem slots_safe_edge : ¬ ∀ (pf : Platform) (i : Nat) (w : World) (m : ClientMessage) (rest : Bytes),
    m.CarriesClient → (w.fe i).players.length = (w.fe i).maxPlayers →
      w.unread i = m.encode ++ rest → SlotSafe i m w (parseOne pf i w) := by
  intro safe
  have verdict := safe Platform.plain 0 (edgeWorld edgeMessage) edgeMessage [] trivial rfl (by decide)
  have stopped : parseOne Platform.plain 0 (edgeWorld edgeMessage) = .error .slotIndex := rfl
  rw [stopped] at verdict
  exact verdict (.inl rfl)

/-- Slot 0 is there, though nobody is in it yet. -/
theorem slots_safe_first :
    SlotSafe 0 (.disconnect 0) (edgeWorld (.disconnect 0))
        (parseOne Platform.plain 0 (edgeWorld (.disconnect 0))) ↔
      ClientMessage.SlotsFit ((edgeWorld (.disconnect 0)).fe 0) (.disconnect 0) :=
  slots_safe_iff Platform.plain 0 trivial rfl (List.append_nil _).symm

end Q2Admin
