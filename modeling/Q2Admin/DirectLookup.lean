import Q2Admin.Connection
import Q2Admin.Slots

/-! `FindPlayer` scans for a client number that free slots carry as well. From the start of
a session on, though, whoever is in a slot has the number of that slot, so the scan ends at
the index it was asked for or nowhere. -/

namespace Q2Admin
open Go Lib

/-- `PlayerSlotInUse`. -/
def Frontend.playerSlotInUse (fe : Frontend) (slot : Int) : Bool :=
  fe.validPlayerID slot && (fe.player slot.toNat).inUse

/-- Whoever is in a slot has its number. -/
def Frontend.Numbered (fe : Frontend) : Prop :=
  ∀ slot, (fe.player slot).inUse = true → (fe.player slot).clientID = slot

/-- The two fields that say who is in a slot. -/
def Player.seat (p : Player) : Int × Int := (p.clientID, p.connectTime)

theorem edit_seat (f : Player → Player) (edit : Player.Edit f) (p : Player) : (f p).seat = p.seat := by
  cases edit <;> rfl

theorem count_seat (f : Player → Player) (count : Player.Count f) (p : Player) : (f p).seat = p.seat := by
  cases count <;> rfl

/-- The scan and the index agree. -/
theorem Frontend.Numbered.findPlayer_eq {fe : Frontend} (numbered : fe.Numbered) (c : Int) :
    fe.findPlayer c = if fe.playerSlotInUse c then some c.toNat else none := by
  by_cases valid : fe.validPlayerID c = true
  case neg =>
    rw [Frontend.findPlayer, if_neg valid, Frontend.playerSlotInUse, Bool.eq_false_iff.mpr valid]
    rfl
  obtain ⟨low, high⟩ := (validPlayerID_iff fe c).mp valid
  have inside : c.toNat < fe.players.length := by omega
  -- a player in use is one the scan stops at exactly in the slot of the number
  have stops {slot : Nat} (below : slot < fe.players.length) :
      (fe.players[slot].clientID = c && fe.players[slot].inUse) = true ↔
        slot = c.toNat ∧ (fe.player c.toNat).inUse = true := by
    rw [← player_eq_getElem below, Bool.and_eq_true, decide_eq_true_eq]
    constructor
    · intro found
      have number := numbered slot found.2
      have same : slot = c.toNat := by omega
      exact ⟨same, same ▸ found.2⟩
    · intro here
      obtain ⟨rfl, used⟩ := here
      have number := numbered c.toNat used
      exact ⟨by omega, used⟩
  rw [Frontend.findPlayer, if_pos valid, Frontend.playerSlotInUse, valid, Bool.true_and]
  cases used : (fe.player c.toNat).inUse with
  | true =>
    rw [if_pos rfl, List.findIdx?_eq_some_iff_getElem]
    refine ⟨inside, (stops inside).mpr ⟨rfl, used⟩, fun slot before found => ?_⟩
    have same := ((stops (before.trans inside)).mp found).1
    omega
  | false =>
    rw [if_neg (by decide), List.findIdx?_eq_none_iff]
    intro p member
    obtain ⟨slot, below, rfl⟩ := List.mem_iff_getElem.mp member
    rw [← Bool.not_eq_true, stops below, used]
    exact fun found => Bool.false_ne_true found.2

section
variable {pf : Platform} {i : Nat} {w w' : World}

theorem slots_player {α : Type} {g : Player → α} (same : w'.slots g i = w.slots g i) (slot : Nat) :
    g ((w'.fe i).player slot) = g ((w.fe i).player slot) := by
  have read (v : World) : g ((v.fe i).player slot) = ((v.slots g i)[slot]?).getD (g default) := by
    rw [World.slots, List.getElem?_map, Option.getD_map, Frontend.player, List.getD_eq_getElem?_getD]
  rw [read, read, same]

/-- Where the seats are the same, so is their numbering. -/
theorem Frontend.Numbered.of_seats (numbered : (w.fe i).Numbered)
    (same : w'.slots Player.seat i = w.slots Player.seat i) : (w'.fe i).Numbered := by
  intro slot used
  have seat := slots_player same slot
  obtain ⟨number, joined⟩ := Prod.mk.inj seat
  rw [number]
  apply numbered slot
  rwa [Player.inUse, ← joined]

/-- A record that is put into the slot of its number, or is of nobody. -/
theorem Frontend.Numbered.set {fe fe' : Frontend} {slot : Nat} {p : Player} (numbered : fe.Numbered)
    (inside : slot < fe.players.length) (players : fe'.players = fe.players.set slot p)
    (fits : p.inUse = true → p.clientID = slot) : fe'.Numbered := by
  intro k used
  by_cases here : k = slot
  · rw [here, player_set inside players] at used ⊢
    exact fits used
  · rw [player_set_ne here players] at used ⊢
    exact numbered k used

theorem storeEntry_numbered {e : PlayerEntry} (numbered : (w.fe i).Numbered)
    (stored : storeEntry i pf w e = .ok w') : (w'.fe i).Numbered := by
  rcases storeEntry_joined i pf stored with ⟨-, rfl⟩ | ⟨-, info, id, -, joined⟩
  · exact numbered.of_seats ((slots_overlooks edit_seat i).advance i w _)
  · exact numbered.set joined.inside joined.players fun _ => rfl

theorem onDisconnect_numbered (client : Byte) (numbered : (w.fe i).Numbered) :
    ((onDisconnect i client w).fe i).Numbered := by
  rcases onDisconnect_cases i client w with same | removed
  · rwa [same]
  rw [removed]
  rcases removePlayer_players i client.toNat w with ⟨-, same⟩ | ⟨-, inside, players, -⟩
  · rwa [same]
  · exact numbered.set inside players fun used => absurd used (by decide)

/-- One message, whichever it is. -/
theorem deliver_numbered {m : ClientMessage} (numbered : (w.fe i).Numbered)
    (delivered : deliver pf i w m = .ok w') : (w'.fe i).Numbered := by
  have unseen := slots_overlooks edit_seat i
  have past {w : World} (numbered : (w.fe i).Numbered) (count : Nat) : ((w.advance i count).fe i).Numbered :=
    numbered.of_seats (unseen.advance i w count)
  replace numbered := past numbered 1
  unfold deliver at delivered
  generalize w.advance i 1 = w at *
  have quiet (still : m.Quiet) : (w'.fe i).Numbered :=
    numbered.of_seats ((unseen.handle i pf still w).of_ok delivered)
  cases m with
  | connect e =>
    obtain ⟨known, w₁, -, stored, rfl⟩ := handle_connect i pf delivered
    exact (storeEntry_numbered numbered stored).of_seats (unseen.startConnect i known w₁)
  | playerList players =>
    simp only [handle, deliverPlayers_eq_run i pf] at delivered
    exact run_invariant (fun w => (w.fe i).Numbered) (fun _ _ _ held _ stored => storeEntry_numbered held stored)
      (past numbered 1) (allowed_all _ _) delivered
  | disconnect client =>
    cases delivered
    exact onDisconnect_numbered client (past numbered 1)
  | print level text =>
    exact (past numbered _).of_seats ((onPrint_slots count_seat edit_seat level text.val _).of_ok delivered)
  | _ => exact quiet trivial

/-- At the start of a session nobody is in any slot. -/
theorem trust_numbered (w : World) (i : Nat) : ((w.trust i).fe i).Numbered := by
  have none : ∀ fe : Frontend, ∀ slot, (fe.trust w.now.1 w.host.serverVars).player slot = {} := by
    intro fe slot
    rw [Frontend.player, Frontend.trust, List.getD_eq_getElem?_getD, List.getElem?_replicate]
    split <;> rfl
  intro slot used
  by_cases live : i < w.frontends.length
  · have record : (w.trust i).fe i = (w.fe i).trust w.now.1 w.host.serverVars := World.fe_update_self w.now.2 live _
    rw [record, none] at used
    exact absurd used (by decide)
  · have nowhere : (w.trust i).fe i = {} := World.fe_outside _ (by rwa [World.trust, World.length_update])
    rw [nowhere, Frontend.player_outside (Nat.not_lt_zero slot)] at used
    exact absurd used (by decide)

/-- In every state of a session each player in use is in the slot of its number, and a player
is found by its number where indexing finds it. -/
theorem findPlayer_is_index (pf : Platform) (i : Nat) (w w' : World) (messages : List ClientMessage)
    (ran : run (deliver pf i) (w.trust i) messages = .ok w') :
    (∀ slot, ((w'.fe i).player slot).inUse = true → ((w'.fe i).player slot).clientID = slot) ∧
      ∀ c : Int, (w'.fe i).findPlayer c = if (w'.fe i).playerSlotInUse c then some c.toNat else none := by
  have numbered : (w'.fe i).Numbered := run_invariant (fun w => (w.fe i).Numbered)
    (fun _ _ _ held _ delivered => deliver_numbered held delivered) (trust_numbered w i) (allowed_all _ _) ran
  exact ⟨numbered, numbered.findPlayer_eq⟩

end

/-- Claire takes slot 1, while slot 0 stays free with the number it carries. -/
theorem claire_seated : Yields (run (deliver Platform.plain 0) (sessionWorld.trust 0) claireMessages)
    (fun w' => (w'.fe 0).playerSlotInUse 1 = true ∧ (w'.fe 0).playerSlotInUse 0 = false) fun _ => False := by
  decide +kernel

theorem findPlayer_is_index_claire : ∃ w',
    run (deliver Platform.plain 0) (sessionWorld.trust 0) claireMessages = .ok w' ∧
      (w'.fe 0).findPlayer 1 = some 1 ∧ (w'.fe 0).findPlayer 0 = none := by
  obtain ⟨w', ran, seated, free⟩ := claire_seated.returns
  have found := (findPlayer_is_index Platform.plain 0 sessionWorld w' claireMessages ran).2
  exact ⟨w', ran, by rw [found, seated]; rfl, by rw [found, free]; rfl⟩

end Q2Admin
