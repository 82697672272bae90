import Q2Admin.Outgoing
import Q2Admin.PlayerCommand

/-! What becomes of an invite: it is refused, which says something to the player at most,
or it is accepted and announced. The announcement ranges over the frontends by value. -/

namespace Q2Admin
open Go

section
variable (q2 : Libq2)

/-- The text of an invitation. -/
def invitation (p : Player) (fe : Frontend) : Bytes :=
  p.name ++ ascii " invites you to play at " ++ fe.name ++ ascii " (" ++ fe.address ++ ascii ")"

/-- What `for _, s := range be.frontends` works on: the stored frontends, and `s`. -/
structure RangeMemory where
  stored : List Frontend
  s : Frontend

/-- Where a `*Frontend` points to. -/
inductive FrontendRef where
  | stored (k : Nat)
  | rangeVar
  deriving DecidableEq, Repr

def RangeMemory.write (ref : FrontendRef) (f : Frontend → Frontend) (m : RangeMemory) : RangeMemory :=
  match ref with
  | .stored k => { m with stored := m.stored.modify k f }
  | .rangeVar => { m with s := f m.s }

/-- A frontend that invitations are said on. -/
def Frontend.takesInvites (fe : Frontend) : Bool := fe.enabled && fe.connected && fe.allowInvite

/-- One turn of the range: the entry is copied to `s`, and `SayEveryone` gets `&s`. -/
def announceTurn (inv : Bytes) (m : RangeMemory) (k : Nat) : RangeMemory :=
  let m := { m with s := m.stored.getD k default }
  if m.s.takesInvites then m.write .rangeVar (sayEveryone q2 printChat inv) else m

/-- The whole range. -/
def announce (inv : Bytes) (w : World) : World :=
  let m := (List.range w.frontends.length).foldl (announceTurn q2 inv) ⟨w.frontends, {}⟩
  { w with frontends := m.stored }

theorem announceTurn_stored (inv : Bytes) (m : RangeMemory) (k : Nat) :
    (announceTurn q2 inv m k).stored = m.stored := by
  simp only [announceTurn]
  split <;> rfl

/-- No write of the range reaches a stored frontend. -/
theorem announce_eq (inv : Bytes) (w : World) : announce q2 inv w = w := by
  have turns (ks : List Nat) (m : RangeMemory) : (ks.foldl (announceTurn q2 inv) m).stored = m.stored := by
    induction ks generalizing m with
    | nil => rfl
    | cons k ks ih => exact (ih _).trans (announceTurn_stored q2 inv m k)
  rw [announce, turns]

end

/-! ## Refused or accepted -/

/-- The player's own allowance lets another invite through, and what it then stands at. -/
def Player.MayInvite (p : Player) (now available : Int) : Prop :=
  (p.invitesAvailable = 0 ∧ 600 < now - p.lastInvite ∧ available = 3) ∨
    (p.invitesAvailable ≠ 0 ∧ 30 ≤ now - p.lastInvite ∧ available = p.invitesAvailable)

/-- What `Invite` asks for. -/
structure Accepts (i : Nat) (client : Byte) (w : World) (slot : Nat) (available : Int) : Prop where
  found : (w.fe i).findPlayer client.toNat = some slot
  allowed : (w.fe i).allowInvite = true
  token : (w.fe i).invites.tokens ≠ 0
  allowance : ((w.fe i).player slot).MayInvite w.now.1 available

/-- An invite that is refused: the player is told so, or nothing happens. -/
inductive Refused (i : Nat) (w : World) : World → Prop where
  | atOnce {f : Frontend → Frontend} (queues : Queues f) : Refused i w (w.update i f)
  | byClock {f : Frontend → Frontend} (queues : Queues f) : Refused i w (w.now.2.update i f)

section
variable {pf : Platform} {i : Nat} {client : Byte} {w w' : World}

theorem invitePlayer_cases (slot : Nat) :
    Refused i w (invitePlayer pf i slot w) ∨
      ∃ available, ((w.fe i).player slot).MayInvite w.now.1 available ∧
        invitePlayer pf i slot w = acceptInvite i slot available w.now.1 w.now.2 := by
  simp only [invitePlayer]
  by_cases spent : ((w.fe i).player slot).invitesAvailable = 0
  · rw [if_pos spent]
    by_cases rested : 600 < w.now.1 - ((w.fe i).player slot).lastInvite
    · rw [if_pos rested]
      exact .inr ⟨3, .inl ⟨spent, rested, rfl⟩, rfl⟩
    · rw [if_neg rested]
      exact .inl (.byClock (Queues.sayPlayer pf.q2 _ _ _))
  · rw [if_neg spent]
    by_cases soon : w.now.1 - ((w.fe i).player slot).lastInvite < 30
    · rw [if_pos soon]
      exact .inl (.byClock (Queues.sayPlayer pf.q2 _ _ _))
    · rw [if_neg soon]
      exact .inr ⟨_, .inr ⟨spent, by omega, rfl⟩, rfl⟩

/-- All that an invite can do. -/
theorem onInvite_cases (done : onInvite pf i client w = .ok w') :
    Refused i w w' ∨ ∃ slot available, Accepts i client w slot available ∧
      w' = acceptInvite i slot available w.now.1 w.now.2 := by
  simp only [onInvite] at done
  by_cases allowed : (w.fe i).allowInvite = true
  case neg =>
    simp only [allowed, Bool.not_false, ↓reduceIte, Except.ok.injEq] at done
    exact .inl (done ▸ .atOnce (Queues.sayPlayer pf.q2 _ _ _))
  by_cases empty : (w.fe i).invites.tokens = 0
  case pos =>
    simp only [allowed, Bool.not_true, Bool.false_eq_true, ↓reduceIte, empty, Except.ok.injEq] at done
    exact .inl (done ▸ .atOnce (Queues.sayPlayer pf.q2 _ _ _))
  cases found : (w.fe i).findPlayer client.toNat with
  | none => simp [allowed, empty, found] at done
  | some slot =>
    simp only [allowed, Bool.not_true, Bool.false_eq_true, ↓reduceIte, empty, found, Except.ok.injEq] at done
    rcases invitePlayer_cases slot with refused | ⟨available, allowance, taken⟩
    · exact .inl (done ▸ refused)
    · exact .inr ⟨slot, available, ⟨found, allowed, empty, allowance⟩, done.symm.trans taken⟩

/-- As the source has it: the invitation is announced first. -/
theorem onInvite_accepts {slot : Nat} {available : Int} (accepts : Accepts i client w slot available) :
    onInvite pf i client w = .ok (acceptInvite i slot available w.now.1
      (announce pf.q2 (invitation ((w.fe i).player slot) (w.fe i)) w.now.2)) := by
  obtain ⟨found, allowed, token, allowance⟩ := accepts
  rw [announce_eq]
  simp only [onInvite, allowed, Bool.not_true, Bool.false_eq_true, ↓reduceIte, token, found, invitePlayer]
  rcases allowance with ⟨spent, rested, rfl⟩ | ⟨left, rested, rfl⟩
  · rw [if_pos spent, if_pos rested]
  · rw [if_neg left, if_neg (by omega)]

/-! ## Counters and queues -/

theorem invites_update {f : Frontend → Frontend} (queues : Queues f) :
    ((w.update i f).fe i).invites = (w.fe i).invites :=
  w.fe_update_field i i (fun fe => fe.invites) fun fe => by rw [queues.only fe]

/-- An invite that is refused takes no token and counts no use. -/
theorem Refused.invites (refused : Refused i w w') : (w'.fe i).invites = (w.fe i).invites := by
  cases refused with
  | atOnce queues => exact invites_update queues
  | byClock queues => exact invites_update queues

theorem acceptInvite_messageOut (slot : Nat) (available now : Int) (j : Nat) :
    ((acceptInvite i slot available now w).fe j).messageOut = (w.fe j).messageOut := by
  refine Eq.trans (World.fe_update_field _ i j (fun fe => fe.messageOut) fun _ => rfl) ?_
  exact w.fe_update_field i j (fun fe => fe.messageOut) fun _ => rfl

/-- The frame that carries the invitation. -/
def invitationFrame (p : Player) (fe : Frontend) : Bytes :=
  (ServerMessage.sayAll printChat (newline (invitation p fe))).encode

/-- The invitation stands at the end of the queue of every frontend that takes invites, and
the other queues are as they were. -/
def Delivered (frame : Bytes) (w w' : World) : Prop :=
  ∀ j < w.frontends.length,
    if (w.fe j).takesInvites then frame <:+ (w'.fe j).messageOut.data
    else (w'.fe j).messageOut = (w.fe j).messageOut

/-- The message takes a token. -/
def TakesToken (i : Nat) (w w' : World) : Prop :=
  (w'.fe i).invites.tokens = (w.fe i).invites.tokens - 1

theorem accepts_of_takesToken (done : onInvite pf i client w = .ok w') (takes : TakesToken i w w') :
    ∃ slot available, Accepts i client w slot available ∧
      w' = acceptInvite i slot available w.now.1 w.now.2 := by
  rcases onInvite_cases done with refused | accepted
  · rw [TakesToken, refused.invites] at takes
    omega
  · exact accepted

/-- An accepted invite is delivered exactly when it was there already: every frontend that
takes invites had that very frame at the end of its queue. -/
theorem invite_delivered_iff (done : onInvite pf i client w = .ok w') (takes : TakesToken i w w') :
    ∃ slot, (w.fe i).findPlayer client.toNat = some slot ∧
      (Delivered (invitationFrame ((w.fe i).player slot) (w.fe i)) w w' ↔
        ∀ j < w.frontends.length, (w.fe j).takesInvites = true →
          invitationFrame ((w.fe i).player slot) (w.fe i) <:+ (w.fe j).messageOut.data) := by
  obtain ⟨slot, available, accepts, rfl⟩ := accepts_of_takesToken done takes
  refine ⟨slot, accepts.found, forall_congr' fun j => imp_congr_right fun _ => ?_⟩
  rw [acceptInvite_messageOut]
  change (if (w.fe j).takesInvites = true then _ <:+ (w.fe j).messageOut.data
    else (w.fe j).messageOut = (w.fe j).messageOut) ↔ _
  cases (w.fe j).takesInvites <;> simp

end

/-- Two servers that take invites, and a player on the first with invites left. -/
def invitingWorld : World where
  frontends := [
    { name := ascii "dm", enabled := true, connected := true, allowInvite := true, maxPlayers := 1,
      invites := { tokens := 1, max := 1 },
      players := [{ name := ascii "claire", connectTime := 1, invitesAvailable := 3 }] },
    { name := ascii "ctf", enabled := true, connected := true, allowInvite := true }]
  host := Host.counting

def invitedWorld : World := acceptInvite 0 0 3 1728145800 invitingWorld.now.2

theorem invite_delivered_iff_claire : ∃ slot, (invitingWorld.fe 0).findPlayer (0 : Byte).toNat = some slot ∧
    (Delivered (invitationFrame ((invitingWorld.fe 0).player slot) (invitingWorld.fe 0)) invitingWorld
        invitedWorld ↔
      ∀ j < invitingWorld.frontends.length, (invitingWorld.fe j).takesInvites = true →
        invitationFrame ((invitingWorld.fe 0).player slot) (invitingWorld.fe 0) <:+
          (invitingWorld.fe j).messageOut.data) :=
  have done : onInvite Platform.plain 0 0 invitingWorld = .ok invitedWorld := rfl
  invite_delivered_iff done rfl

/-- The second server is told nothing. -/
theorem invite_undelivered : ¬ ∀ (pf : Platform) (i : Nat) (client : Byte) (w w' : World) (slot : Nat),
    onInvite pf i client w = .ok w' → TakesToken i w w' → (w.fe i).findPlayer client.toNat = some slot →
    Delivered (invitationFrame ((w.fe i).player slot) (w.fe i)) w w' := by
  intro promised
  have ends := promised Platform.plain 0 0 invitingWorld invitedWorld 0 rfl rfl rfl 1 (by decide)
  revert ends
  decide

end Q2Admin
