import Q2Admin.Framing

/-! A rule for the message loop of a frontend: what reading and all its handlers keep to,
the loop keeps to, whatever the bytes. -/

namespace Q2Admin
open Go Lib

section
variable (pf : Platform) (i : Nat)

/-- How worlds are related by reading and by every handler, if these return. -/
structure HandlersKeep (R : World → World → Prop) : Prop where
  refl : ∀ w, R w w
  trans : ∀ {w w' w''}, R w w' → R w' w'' → R w w''
  readByte : ∀ w, Yields (w.readByte pf.q2 i) (fun result => R w result.2) fun _ => True
  readString : ∀ w, Yields (w.readString pf.q2 i) (fun result => R w result.2) fun _ => True
  pong : ∀ w, Yields (Q2Admin.pong pf i w) (R w) fun _ => True
  print : ∀ level text w, Yields (onPrint pf i level text w) (R w) fun _ => True
  map : ∀ mapname w, R w (onMap i mapname w)
  player : ∀ client userinfo version w,
    Yields (onPlayer pf i client userinfo version w) (fun result => R w result.2) fun _ => True
  connect : ∀ slot w, R w (startConnect i slot w)
  playerUpdate : ∀ client userinfo w, Yields (onPlayerUpdate pf i client userinfo w) (R w) fun _ => True
  disconnect : ∀ client w, R w (onDisconnect i client w)
  teleport : ∀ client target w, R w (onTeleport pf i client target w)
  invite : ∀ client w, Yields (onInvite pf i client w) (R w) fun _ => True

namespace HandlersKeep
variable {pf i} {R : World → World → Prop} (handled : HandlersKeep pf i R)
include handled

/-- One thing after the other. -/
theorem bind {α : Type} {w : World} {x : Except Fault (α × World)} {f : α × World → Except Fault World}
    (first : Yields x (fun result => R w result.2) fun _ => True)
    (next : ∀ result, Yields (f result) (R result.2) fun _ => True) : Yields (x >>= f) (R w) fun _ => True :=
  Yields.bind first fun result _ read => (next result).mono (fun _ later => handled.trans read later) fun _ => id

theorem parsePlayer (w : World) :
    Yields (Q2Admin.parsePlayer pf i w) (fun result => R w result.2) fun _ => True := by
  apply Yields.bind (handled.readByte w)
  intro client _ first
  apply Yields.bind (handled.readString client.2)
  intro userinfo _ second
  apply Yields.bind (handled.readString userinfo.2)
  intro version _ third
  have read := handled.trans (handled.trans first second) third
  exact (handled.player client.1 userinfo.1 version.1 version.2).mono (fun _ stored => handled.trans read stored)
    fun _ => id

theorem parsePlayers (count : Nat) (w : World) : Yields (Q2Admin.parsePlayers pf i count w) (R w) fun _ => True := by
  induction count generalizing w with
  | zero => exact handled.refl w
  | succ count ih => exact handled.bind (handled.parsePlayer w) fun result => ih result.2

theorem parseCommand (w : World) : Yields (Q2Admin.parseCommand pf i w) (R w) fun _ => True := by
  apply handled.bind (handled.readByte w)
  intro cmd
  simp only
  split
  · apply handled.bind (handled.readByte cmd.2)
    intro player
    apply handled.bind (handled.readString player.2)
    exact fun target => handled.teleport player.1 target.1 target.2
  split
  · apply handled.bind (handled.readByte cmd.2)
    intro client
    apply handled.bind (handled.readString client.2)
    exact fun text => handled.invite client.1 text.2
  · exact handled.refl cmd.2

/-- Whatever the command. -/
theorem dispatch (cmd : Byte) (w : World) : Yields (Q2Admin.dispatch pf i cmd w) (R w) fun _ => True := by
  unfold Q2Admin.dispatch
  split
  · exact handled.pong w
  split
  · apply handled.bind (handled.readByte w)
    intro level
    apply handled.bind (handled.readString level.2)
    exact fun text => handled.print level.1 text.1 text.2
  split
  · apply handled.bind (handled.readString w)
    exact fun mapname => handled.map mapname.1 mapname.2
  split
  · exact handled.bind (handled.readByte w) fun count => handled.parsePlayers count.1.toNat count.2
  split
  · apply handled.bind (handled.readByte w)
    intro client
    apply handled.bind (handled.readString client.2)
    exact fun userinfo => handled.playerUpdate client.1 userinfo.1 userinfo.2
  split
  · apply handled.bind (handled.parsePlayer w)
    exact fun slot => handled.connect slot.1 slot.2
  split
  · apply handled.bind (handled.readByte w)
    exact fun client => handled.disconnect client.1 client.2
  split
  · exact handled.parseCommand w
  · exact handled.refl w

theorem parseLoop (fuel : Nat) (w : World) : Yields (Q2Admin.parseLoop pf i fuel w) (R w) fun _ => True := by
  induction fuel generalizing w with
  | zero => trivial
  | succ fuel ih =>
    unfold Q2Admin.parseLoop
    split
    · exact handled.refl w
    · apply Yields.bind (handled.bind (handled.readByte w) fun cmd => handled.dispatch cmd.1 cmd.2)
      exact fun w' _ first => (ih w').mono (fun _ later => handled.trans first later) fun _ => id

end HandlersKeep

end

end Q2Admin
