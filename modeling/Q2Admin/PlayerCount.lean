import Mathlib.Data.Nat.Cast.Basic
import Mathlib.Data.Int.Cast.Basic
import Q2Admin.Roster

/-! `PlayerCount`. It goes up with every player that is stored and down with every one that
is removed, so it drifts from the number of slots in use when a slot is filled twice. -/

namespace Q2Admin
open Go Lib

/-- The number of slots in use. -/
def Frontend.used (fe : Frontend) : Nat := fe.players.countP (·.inUse)

/-- By how much the count exceeds the players. -/
def World.excess (i : Nat) (w : World) : Int := (w.fe i).playerCount - (w.fe i).used

/-- One for a slot in use. -/
def occupancy (standing : Int × Stats) : Int := if 0 < standing.1 then 1 else 0

section
variable (pf : Platform) (i : Nat)

/-- By how much an entry of a player list raises the excess: a slot already in use counts a
second time, and a player that connects at no positive time is in no slot in use. -/
def PlayerEntry.surplus (w : World) (e : PlayerEntry) : Nat :=
  if (w.fe i).maxPlayers < e.client.toNat then 0
  else (if ((w.fe i).player e.client.toNat).inUse then 1 else 0) + if 0 < w.now.1 then 0 else 1

/-- An entry that is not passed over takes a free slot. -/
def PlayerEntry.Joins (w : World) (e : PlayerEntry) : Prop := e.client.toNat ≤ (w.fe i).maxPlayers →
  ((w.fe i).player e.client.toNat).inUse = false ∧ 0 < w.now.1

instance (w : World) (e : PlayerEntry) : Decidable (e.Joins i w) := inferInstanceAs (Decidable (_ → _))

namespace ClientMessage

def surplus (w : World) : ClientMessage → Nat
  | connect player => player.surplus i (w.advance i 1)
  | playerList players =>
    total (storeEntry i pf) (fun w e => e.surplus i w) ((w.advance i 1).advance i 1) players.val
  | _ => 0

/-- All players of the message take free slots, each after those before it. -/
def Joins (w : World) : ClientMessage → Prop
  | connect player => player.Joins i (w.advance i 1)
  | playerList players =>
    Allowed (storeEntry i pf) (fun w e => e.Joins i w) ((w.advance i 1).advance i 1) players.val
  | _ => True

instance (w : World) : (m : ClientMessage) → Decidable (m.Joins pf i w)
  | connect player => inferInstanceAs (Decidable (player.Joins i _))
  | playerList _ => inferInstanceAs (Decidable (Allowed _ _ _ _))
  | ping | print _ _ | map _ | playerUpdate _ _ | disconnect _ | teleport _ _ | invite _ _ => inferInstanceAs (Decidable True)

end ClientMessage

theorem surplus_eq_zero_iff (w : World) (e : PlayerEntry) : e.surplus i w = 0 ↔ e.Joins i w := by
  unfold PlayerEntry.surplus PlayerEntry.Joins
  by_cases beyond : (w.fe i).maxPlayers < e.client.toNat
  · simp [beyond, Nat.not_le.mpr beyond]
  · cases ((w.fe i).player e.client.toNat).inUse <;> simp [beyond, Nat.le_of_not_lt beyond]

theorem message_surplus_eq_zero_iff (w : World) (m : ClientMessage) :
    m.surplus pf i w = 0 ↔ m.Joins pf i w := by
  cases m with
  | connect player => exact surplus_eq_zero_iff i _ player
  | playerList players =>
    simp only [ClientMessage.surplus, ClientMessage.Joins, total_eq_zero_iff, surplus_eq_zero_iff]
  | _ => simp [ClientMessage.surplus, ClientMessage.Joins]

variable {i}

theorem used_eq (w : World) : ((w.fe i).used : Int) = w.slotSum occupancy i := by
  unfold Frontend.used World.slotSum World.standings
  induction (w.fe i).players with
  | nil => rfl
  | cons p rest ih =>
    rw [List.countP_cons, List.map_cons, List.map_cons, List.sum_cons, ← ih]
    by_cases used : 0 < p.connectTime
    · simp [Player.inUse, Player.standing, occupancy, used, Int.add_comm]
    · simp [Player.inUse, Player.standing, occupancy, used]

theorem occupancy_additive (t : Int) (s d : Stats) :
    occupancy (t, s + d) = occupancy (t, s) + (0 : Stats →+ Int) d := by
  simp [occupancy]

theorem excess_of_raised {w w' : World} (raised : Raised occupancy i 0 w w') : w'.excess i = w.excess i := by
  rw [World.excess, World.excess, used_eq, used_eq, raised.slotSum, raised.playerCount, add_zero]

theorem occupancy_standing (p : Player) : occupancy p.standing = if p.inUse then 1 else 0 := by
  by_cases used : 0 < p.connectTime <;> simp [occupancy, Player.standing, Player.inUse, used]

theorem storeEntry_excess {e : PlayerEntry} {w w' : World} (stored : storeEntry i pf w e = .ok w') :
    w'.excess i = w.excess i + e.surplus i w := by
  rcases storeEntry_ok i pf stored with ⟨beyond, same⟩ | ⟨within, p, fresh, replaced, count, -⟩
  · rw [excess_of_raised (Raised.of_books occupancy i same), PlayerEntry.surplus, if_pos beyond]
    simp
  · have used : ((w'.fe i).used : Int) = (w.fe i).used + (occupancy (w.now.1, 0) -
        occupancy ((w.fe i).player e.client.toNat).standing) := by
      rw [used_eq, used_eq, replaced.slotSum, fresh]
    rw [occupancy_standing] at used
    rw [World.excess, World.excess, count, used, PlayerEntry.surplus, if_neg (Nat.not_lt.mpr within)]
    cases ((w.fe i).player e.client.toNat).inUse <;> by_cases clock : 0 < w.now.1 <;>
      simp [occupancy, clock] <;> omega

theorem disconnect_excess (clientnum : Byte) (w : World) : (onDisconnect i clientnum w).excess i = w.excess i := by
  rcases onDisconnect_cases i clientnum w with same | removed
  · rw [same]
  rw [removed]
  rcases removePlayer_cases i clientnum.toNat w with ⟨-, same⟩ | ⟨used, replaced, count, -⟩
  · rw [same]
  · have left : (((removePlayer i clientnum.toNat w).fe i).used : Int) = (w.fe i).used - 1 := by
      have one : occupancy ((w.fe i).player clientnum.toNat).standing = 1 := by
        rw [occupancy_standing, used]
        rfl
      rw [used_eq, used_eq, replaced.slotSum, one]
      rfl
    rw [World.excess, World.excess, count, left]
    omega

theorem excess_advance (w : World) (count : Nat) : (w.advance i count).excess i = w.excess i :=
  excess_of_raised (Raised.of_books occupancy i ((books_overlooks i).advance i w count))

theorem deliver_excess {m : ClientMessage} {w w' : World} (delivered : deliver pf i w m = .ok w') :
    w'.excess i = w.excess i + m.surplus pf i w := by
  have handled : handle pf i m (w.advance i 1) = .ok w' := delivered
  rw [← excess_advance w 1]
  by_cases keeps : m.KeepsSlots
  case pos =>
    have raised := (handle_raised (h := 0) pf occupancy_additive keeps (w.advance i 1)).of_ok handled
    have none : m.surplus pf i w = 0 := by cases m <;> first | rfl | exact keeps.elim
    rw [excess_of_raised raised, none]
    simp
  cases m with
  | connect player =>
    obtain ⟨w₁, stored, same⟩ := connect_books i pf handled
    rw [excess_of_raised (Raised.of_books occupancy i same), storeEntry_excess pf stored]
    rfl
  | playerList players =>
    simp only [handle, deliverPlayers_eq_run i pf] at handled
    have raised : w'.excess i = _ := run_raises (World.excess i)
      (fun _ _ _ _ stored => storeEntry_excess pf stored) (allowed_all _ _) handled
    rw [raised, excess_advance]
    exact congrArg _ (map_total (Nat.castAddMonoidHom Int) (storeEntry i pf) (PlayerEntry.surplus i) _ _)
  | disconnect client =>
    cases handled
    rw [disconnect_excess, excess_advance]
    simp [ClientMessage.surplus]
  | _ => exact absurd trivial keeps

theorem joins_iff (w : World) (messages : List ClientMessage) :
    Allowed (deliver pf i) (fun w m => m.Joins pf i w) w messages ↔
      total (deliver pf i) (fun w m => m.surplus pf i w) w messages = 0 := by
  rw [total_eq_zero_iff]
  simp only [message_surplus_eq_zero_iff]

/-- On any messages that follow on a fresh session, the count is the number of players
exactly if every player that was stored took a free slot. -/
theorem playerCount_iff {w w' : World} {messages : List ClientMessage}
    (none : (w.fe i).playerCount = 0) (empty : ∀ p ∈ (w.fe i).players, p.inUse = false)
    (ran : run (deliver pf i) w messages = .ok w') :
    (w'.fe i).playerCount = (w'.fe i).used ↔
      Allowed (deliver pf i) (fun w m => m.Joins pf i w) w messages := by
  have fresh : w.excess i = 0 := by
    have unused : (w.fe i).used = 0 := List.countP_eq_zero.mpr fun p member => by simp [empty p member]
    rw [World.excess, none, unused]
    rfl
  have raised : w'.excess i = _ := run_raises (World.excess i)
    (fun _ _ _ _ delivered => deliver_excess pf delivered) (allowed_all w messages) ran
  have sum := map_total (Nat.castAddMonoidHom Int) (deliver pf i) (fun w m => m.surplus pf i w) w messages
  rw [fresh, zero_add] at raised
  rw [joins_iff, ← Int.natCast_eq_zero (n := total _ _ w messages)]
  calc (w'.fe i).playerCount = (w'.fe i).used
    _ ↔ w'.excess i = 0 := Int.sub_eq_zero.symm
    _ ↔ _ := by rw [raised.trans sum]; rfl

end

/-- The map changes while claire plays, and she is listed again. -/
def claireListed : List ClientMessage := [
  .connect claireEntry,
  .playerList ⟨[claireEntry], by decide⟩]

theorem claire_counted_twice : Yields (run (deliver Platform.plain 0) sessionWorld claireListed)
    (fun w' => (w'.fe 0).playerCount = 2 ∧ (w'.fe 0).used = 1) fun _ => False := by
  decide +kernel

theorem playerCount_iff_claire : ∃ w', run (deliver Platform.plain 0) sessionWorld claireListed = .ok w' ∧
    ((w'.fe 0).playerCount = (w'.fe 0).used ↔
      Allowed (deliver Platform.plain 0) (fun w m => m.Joins Platform.plain 0 w) sessionWorld claireListed) := by
  obtain ⟨w', ran, -⟩ := claire_counted_twice.returns
  exact ⟨w', ran, playerCount_iff Platform.plain rfl (by decide) ran⟩

/-- The messages about players that come, go, or change their userinfo. -/
def ClientMessage.OfPlayers : ClientMessage → Prop
  | connect _ | playerList _ | playerUpdate _ _ | disconnect _ => True
  | _ => False

/-- Two messages and one player. -/
theorem playerCount_drifts : ¬ ∀ (pf : Platform) (i : Nat) (w w' : World) (messages : List ClientMessage),
    (∀ m ∈ messages, m.OfPlayers) → (w.fe i).playerCount = 0 →
      (∀ p ∈ (w.fe i).players, p.inUse = false) → run (deliver pf i) w messages = .ok w' →
        (w'.fe i).playerCount = (w'.fe i).used := by
  intro counted
  obtain ⟨w', ran, count, used⟩ := claire_counted_twice.returns
  have of_players : ∀ m ∈ claireListed, m.OfPlayers := by
    intro m member
    rcases List.mem_cons.mp member with rfl | rest
    · trivial
    · exact List.mem_singleton.mp rest ▸ trivial
  have same := counted Platform.plain 0 sessionWorld w' claireListed of_players rfl (by decide) ran
  rw [count, used] at same
  exact absurd same (by decide)

end Q2Admin
