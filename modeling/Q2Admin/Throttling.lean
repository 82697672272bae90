import Q2Admin.Invitation
import Q2Admin.Lib.Throttle
import Q2Admin.Slots

/-! How many invites get through. The tokens of a frontend are a bucket that the maintenance
thread refills, the invites of a player an allowance that renews itself. -/

namespace Q2Admin
open Go Lib

/-- The bucket behind `InviteBucketAdd`. -/
def InviteBucket.add (now : Int) (b : InviteBucket) : InviteBucket :=
  if b.tokens < b.max ∧ b.freq < now - b.lastAddition then
    { b with tokens := b.tokens + 1, lastAddition := now }
  else b

/-- The player's own tokens and times let an invite through. -/
def Player.mayInvite (p : Player) (now : Int) : Bool :=
  let invtime := now - p.lastInvite
  if p.invitesAvailable = 0 then 600 < invtime else 30 ≤ invtime

inductive ThrottleEvent where
  | invite (client : Byte) (text : WireString)
  | tick

/-- An invite that was accepted: the slot of the player, and when. -/
structure Acceptance where
  slot : Nat
  time : Int
  deriving DecidableEq, Repr

/-- A session, with the invites that were accepted in it, the latest first. -/
structure InviteSession where
  world : World
  accepted : List Acceptance

def InviteSession.times (s : InviteSession) : List Int := s.accepted.map (·.time)

/-- When the invites of one player were accepted. -/
def InviteSession.timesOf (s : InviteSession) (slot : Nat) : List Int :=
  (s.accepted.filter fun a => a.slot = slot).map (·.time)

section
variable (pf : Platform) (i : Nat)

def inviteBucketAdd (w : World) : World :=
  let (now, w) := w.now
  w.update i fun fe => { fe with invites := fe.invites.add now }

/-- The slot of the player whose invite is accepted. -/
def acceptedSlot (client : Byte) (w : World) : Option Nat :=
  if (w.fe i).allowInvite = true ∧ (w.fe i).invites.tokens ≠ 0 then
    ((w.fe i).findPlayer client.toNat).filter fun slot => ((w.fe i).player slot).mayInvite w.now.1
  else none

def throttleStep (s : InviteSession) : ThrottleEvent → Except Fault InviteSession
  | .invite client text => do
    let w ← deliver pf i s.world (.invite client text)
    match acceptedSlot i client s.world with
    | none => .ok { s with world := w }
    | some slot => .ok ⟨w, ⟨slot, s.world.now.1⟩ :: s.accepted⟩
  | .tick => .ok { s with world := inviteBucketAdd i s.world }

variable {pf} {i} {client : Byte} {w w' : World}

theorem mayInvite_iff (p : Player) (now : Int) : p.mayInvite now = true ↔ ∃ available, p.MayInvite now available := by
  unfold Player.mayInvite Player.MayInvite
  by_cases spent : p.invitesAvailable = 0 <;> simp [spent]

theorem acceptedSlot_iff {slot : Nat} :
    acceptedSlot i client w = some slot ↔ ∃ available, Accepts i client w slot available := by
  unfold acceptedSlot
  constructor
  · intro accepted
    split at accepted
    next open_ =>
      obtain ⟨found, may⟩ := Option.filter_eq_some_iff.mp accepted
      obtain ⟨available, allowance⟩ := (mayInvite_iff _ _).mp may
      exact ⟨available, found, open_.1, open_.2, allowance⟩
    · cases accepted
  · rintro ⟨available, found, allowed, token, allowance⟩
    rw [if_pos ⟨allowed, token⟩, found, Option.filter_some, if_pos ((mayInvite_iff _ _).mpr ⟨available, allowance⟩)]

/-- What an invite that is refused leaves, and what every event leaves of the clock. -/
structure Uncounted (i : Nat) (w w' : World) : Prop where
  invites : (w'.fe i).invites = (w.fe i).invites
  players : (w'.fe i).players = (w.fe i).players
  host : w'.host = w.host
  reads : w.clockReads ≤ w'.clockReads

theorem Uncounted.trans {w'' : World} (first : Uncounted i w w') (second : Uncounted i w' w'') :
    Uncounted i w w'' where
  invites := second.invites.trans first.invites
  players := second.players.trans first.players
  host := second.host.trans first.host
  reads := first.reads.trans second.reads

theorem uncounted_advance (w : World) (count : Nat) : Uncounted i w (w.advance i count) where
  invites := w.field_advance i count i (fun fe => fe.invites) fun _ _ => rfl
  players := players_advance i w count
  host := rfl
  reads := le_rfl

theorem Refused.uncounted (refused : Refused i w w') : Uncounted i w w' := by
  have queue (w : World) {f : Frontend → Frontend} (queues : Queues f) : Uncounted i w (w.update i f) :=
    ⟨invites_update queues, players_update queues.players i i w, rfl, le_rfl⟩
  cases refused with
  | atOnce queues => exact queue w queues
  | byClock queues =>
    have read : Uncounted i w w.now.2 := ⟨rfl, rfl, rfl, Nat.le_succ _⟩
    exact read.trans (queue w.now.2 queues)

theorem acceptedSlot_advance (client : Byte) (w : World) (count : Nat) :
    acceptedSlot i client (w.advance i count) = acceptedSlot i client w :=
  w.field_advance i count i (fun fe => if fe.allowInvite = true ∧ fe.invites.tokens ≠ 0 then
    (fe.findPlayer client.toNat).filter fun slot => (fe.player slot).mayInvite w.now.1 else none) fun _ _ => rfl

/-- What an invite that is accepted counts. -/
structure Counts (i slot : Nat) (available : Int) (w w' : World) : Prop where
  inside : slot < (w.fe i).players.length
  token : (w.fe i).invites.tokens ≠ 0
  allowance : ((w.fe i).player slot).MayInvite w.now.1 available
  invites : (w'.fe i).invites = { (w.fe i).invites with
    tokens := (w.fe i).invites.tokens - 1
    useCount := (w.fe i).invites.useCount + 1 }
  players : (w'.fe i).players = (w.fe i).players.modify slot fun p => { p with
    invites := p.invites + 1
    lastInvite := w.now.1
    invitesAvailable := available - 1 }
  host : w'.host = w.host
  reads : w'.clockReads = w.clockReads + 1

theorem Accepts.counts {slot : Nat} {available : Int} (accepts : Accepts i client w slot available) :
    Counts i slot available w (acceptInvite i slot available w.now.1 w.now.2) := by
  have inside := (findPlayer_used accepts.found).1
  have live : i < w.now.2.frontends.length := live_of_slot inside
  refine ⟨inside, accepts.token, accepts.allowance, ?_, ?_, rfl, rfl⟩
  · rw [acceptInvite, World.fe_update_self _ (by rw [World.updatePlayer, World.length_update]; exact live),
      World.updatePlayer, World.fe_update_self _ live]
    rfl
  · refine Eq.trans (World.fe_update_field _ i i (fun fe => fe.players) fun _ => rfl) ?_
    exact players_updatePlayer i slot _ w.now.2

/-- An invite is refused and counts nothing, or it is accepted. -/
theorem deliver_invite {text : WireString} (delivered : deliver pf i w (.invite client text) = .ok w') :
    (acceptedSlot i client w = none ∧ Uncounted i w w') ∨
      ∃ slot available, acceptedSlot i client w = some slot ∧ Counts i slot available w w' := by
  simp only [deliver, handle, World.advance_advance] at delivered
  have past := uncounted_advance (i := i) w (1 + (ClientMessage.payload (.invite client text)).length)
  have player := player_advance i w (1 + (ClientMessage.payload (.invite client text)).length)
  rw [← acceptedSlot_advance client w (1 + (ClientMessage.payload (.invite client text)).length)]
  have now : (w.advance i (1 + (ClientMessage.payload (.invite client text)).length)).now.1 = w.now.1 := rfl
  have reads : (w.advance i (1 + (ClientMessage.payload (.invite client text)).length)).clockReads = w.clockReads := rfl
  generalize w.advance i (1 + (ClientMessage.payload (.invite client text)).length) = arrived at *
  cases accepted : acceptedSlot i client arrived with
  | none =>
    rcases onInvite_cases delivered with refused | ⟨slot, available, accepts, -⟩
    · exact .inl ⟨rfl, past.trans refused.uncounted⟩
    · rw [acceptedSlot_iff.mpr ⟨available, accepts⟩] at accepted
      cases accepted
  | some slot =>
    obtain ⟨available, accepts⟩ := acceptedSlot_iff.mp accepted
    rw [onInvite_accepts accepts, announce_eq] at delivered
    obtain rfl := Except.ok.inj delivered
    have counts := accepts.counts
    refine .inr ⟨slot, available, rfl, past.players ▸ counts.inside, past.invites ▸ counts.token, ?_, ?_, ?_,
      counts.host.trans past.host, counts.reads.trans (by rw [reads])⟩
    · rw [← player, ← now]
      exact counts.allowance
    · rw [← past.invites]
      exact counts.invites
    · rw [← past.players, ← now]
      exact counts.players

end

/-! ## Bucket and allowances -/

/-- The frontend's tokens are those of the bucket, which knows what was accepted. -/
structure ShowsBucket (i : Nat) (s : InviteSession) {cap gap : Int} (b : Bucket cap gap) : Prop where
  tokens : b.tokens = (s.world.fe i).invites.tokens
  last : b.last = (s.world.fe i).invites.lastAddition
  spent : b.spent = s.times
  now : ∀ n, s.world.clockReads ≤ n → b.now ≤ s.world.host.now n

/-- The player's invites are those of the allowance, which knows which were accepted. -/
structure ShowsAllowance (i slot : Nat) (s : InviteSession) (al : Allowance 3 600 30) : Prop where
  left : al.left = ((s.world.fe i).player slot).invitesAvailable
  last : al.last = ((s.world.fe i).player slot).lastInvite
  uses : al.uses = s.timesOf slot
  now : ∀ n, s.world.clockReads ≤ n → al.now ≤ s.world.host.now n

/-- All invites are accounted for. -/
structure Rationed (i : Nat) (cap gap : Int) (s : InviteSession) : Prop where
  clock : ∀ ⦃m n : Nat⦄, m ≤ n → s.world.host.now m ≤ s.world.host.now n
  max : (s.world.fe i).invites.max = cap
  freq : (s.world.fe i).invites.freq + 1 = gap
  bucket : ∃ b : Bucket cap gap, ShowsBucket i s b
  players : ∀ slot < (s.world.fe i).players.length, ∃ al, ShowsAllowance i slot s al

namespace Rationed
variable {i : Nat} {cap gap : Int} {s : InviteSession} {w' : World} (rationed : Rationed i cap gap s)
include rationed

/-- An invite that is refused changes no account. -/
theorem refused (uncounted : Uncounted i s.world w') : Rationed i cap gap { s with world := w' } where
  clock := uncounted.host ▸ rationed.clock
  max := uncounted.invites ▸ rationed.max
  freq := uncounted.invites ▸ rationed.freq
  bucket := by
    obtain ⟨b, shows⟩ := rationed.bucket
    refine ⟨b, uncounted.invites ▸ shows.tokens, uncounted.invites ▸ shows.last, shows.spent, fun n late => ?_⟩
    rw [uncounted.host]
    exact shows.now n (uncounted.reads.trans late)
  players slot inside := by
    have same : (w'.fe i).player slot = (s.world.fe i).player slot := by
      rw [Frontend.player, uncounted.players, Frontend.player]
    obtain ⟨al, shows⟩ := rationed.players slot (uncounted.players ▸ inside)
    refine ⟨al, same ▸ shows.left, same ▸ shows.last, shows.uses, fun n late => ?_⟩
    rw [uncounted.host]
    exact shows.now n (uncounted.reads.trans late)

/-- An invite that is accepted is one token of the bucket and one use of the allowance. -/
theorem accepted {slot : Nat} {available : Int} (counts : Counts i slot available s.world w') :
    Rationed i cap gap ⟨w', ⟨slot, s.world.now.1⟩ :: s.accepted⟩ := by
  have later (n : Nat) (late : w'.clockReads ≤ n) : s.world.now.1 ≤ w'.host.now n := by
    rw [counts.host]
    rw [counts.reads] at late
    exact rationed.clock (by omega)
  refine ⟨counts.host ▸ rationed.clock, ?_, ?_, ?_, fun k inside => ?_⟩
  · rw [counts.invites]
    exact rationed.max
  · rw [counts.invites]
    exact rationed.freq
  · obtain ⟨b, shows⟩ := rationed.bucket
    refine ⟨b.spend (shows.now _ le_rfl) (by rw [shows.tokens]; exact counts.token), ?_, ?_, ?_, later⟩
    · rw [counts.invites]
      exact congrArg (· - 1) shows.tokens
    · rw [counts.invites]
      exact shows.last
    · exact congrArg (_ :: ·) shows.spent
  rw [counts.players, List.length_modify] at inside
  obtain ⟨al, shows⟩ := rationed.players k inside
  have now : al.now ≤ s.world.now.1 := shows.now _ le_rfl
  by_cases own : k = slot
  case neg =>
    have same := Frontend.player_modify_ne own counts.players
    refine ⟨al, same ▸ shows.left, same ▸ shows.last, ?_, fun n late => now.trans (later n late)⟩
    rw [shows.uses]
    simp [InviteSession.timesOf, Ne.symm own]
  subst own
  have invited := Frontend.player_modify inside counts.players
  have uses : s.world.now.1 :: al.uses = InviteSession.timesOf ⟨w', ⟨k, s.world.now.1⟩ :: s.accepted⟩ k := by
    rw [shows.uses]
    simp [InviteSession.timesOf]
  have last := shows.last
  rcases counts.allowance with ⟨spent, rested, rfl⟩ | ⟨left, rested, rfl⟩
  · exact ⟨al.renew now (by omega) (by omega) (by omega), by rw [invited]; rfl, by rw [invited]; rfl, uses, later⟩
  · refine ⟨al.use now (by rw [shows.left]; exact left) (by omega) (by omega), ?_, by rw [invited]; rfl, uses, later⟩
    rw [invited]
    exact congrArg (· - 1) shows.left

/-- A tick is a refill of the bucket, or passes it over. -/
theorem tick (some : 0 < cap) : Rationed i cap gap { s with world := inviteBucketAdd i s.world } := by
  have live : i < s.world.frontends.length := by
    by_contra outside
    have max := rationed.max
    rw [World.fe_outside s.world outside] at max
    change (0 : Int) = cap at max
    omega
  have bucket : ((inviteBucketAdd i s.world).fe i).invites = (s.world.fe i).invites.add s.world.now.1 :=
    congrArg (·.invites) (World.fe_update_self s.world.now.2 live _)
  have players : ((inviteBucketAdd i s.world).fe i).players = (s.world.fe i).players :=
    World.fe_update_field s.world.now.2 i i (fun fe => fe.players) fun _ => rfl
  by_cases refills : (s.world.fe i).invites.tokens < (s.world.fe i).invites.max ∧
      (s.world.fe i).invites.freq < s.world.now.1 - (s.world.fe i).invites.lastAddition
  case neg =>
    rw [InviteBucket.add, if_neg refills] at bucket
    exact rationed.refused ⟨bucket, players, rfl, Nat.le_succ _⟩
  rw [InviteBucket.add, if_pos refills] at bucket
  obtain ⟨room, rested⟩ := refills
  have max := rationed.max
  have freq := rationed.freq
  refine ⟨rationed.clock, by rw [bucket]; exact max, by rw [bucket]; exact freq, ?_, fun slot inside => ?_⟩
  · obtain ⟨b, shows⟩ := rationed.bucket
    have now : b.now ≤ s.world.now.1 := shows.now _ le_rfl
    have tokens := shows.tokens
    have last := shows.last
    refine ⟨b.refill now (by omega) (by omega), ?_, ?_, shows.spent, fun n late => ?_⟩
    · rw [bucket]
      exact congrArg (· + 1) tokens
    · rw [bucket]
      rfl
    · exact rationed.clock (Nat.le_of_succ_le late)
  · have same : ((inviteBucketAdd i s.world).fe i).player slot = (s.world.fe i).player slot := by
      rw [Frontend.player, players, Frontend.player]
    obtain ⟨al, shows⟩ := rationed.players slot (players ▸ inside)
    exact ⟨al, same ▸ shows.left, same ▸ shows.last, shows.uses, fun n late => shows.now n (Nat.le_of_succ_le late)⟩

end Rationed

section
variable {pf : Platform} {i : Nat} {s s' : InviteSession}

/-- What a step with an invite comes to: it is refused, or noted with its time. -/
theorem throttleStep_invite {client : Byte} {text : WireString}
    (stepped : throttleStep pf i s (.invite client text) = .ok s') : ∃ w',
    (s' = { s with world := w' } ∧ Uncounted i s.world w') ∨
      ∃ slot available, s' = ⟨w', ⟨slot, s.world.now.1⟩ :: s.accepted⟩ ∧ Counts i slot available s.world w' := by
  simp only [throttleStep] at stepped
  cases delivered : deliver pf i s.world (.invite client text) with
  | error fault => simp [delivered, Bind.bind, Except.bind] at stepped
  | ok w' =>
    simp only [delivered, Bind.bind, Except.bind] at stepped
    rcases deliver_invite delivered with ⟨none, uncounted⟩ | ⟨slot, available, accepted, counts⟩
    · simp only [none, Except.ok.injEq] at stepped
      exact ⟨w', .inl ⟨stepped.symm, uncounted⟩⟩
    · simp only [accepted, Except.ok.injEq] at stepped
      exact ⟨w', .inr ⟨slot, available, stepped.symm, counts⟩⟩

theorem throttleStep_rationed {cap gap : Int} (some : 0 < cap) {e : ThrottleEvent}
    (rationed : Rationed i cap gap s) (stepped : throttleStep pf i s e = .ok s') : Rationed i cap gap s' := by
  cases e with
  | tick =>
    cases stepped
    exact rationed.tick some
  | invite client text =>
    obtain ⟨w', ⟨rfl, uncounted⟩ | ⟨slot, available, rfl, counts⟩⟩ := throttleStep_invite stepped
    · exact rationed.refused uncounted
    · exact rationed.accepted counts

/-- The session at its start: all tokens are there, and nobody has more than three invites. -/
structure Opens (i : Nat) (s : InviteSession) : Prop where
  clock : ∀ ⦃m n : Nat⦄, m ≤ n → s.world.host.now m ≤ s.world.host.now n
  full : (s.world.fe i).invites.tokens = (s.world.fe i).invites.max
  some : 0 < (s.world.fe i).invites.max
  freq : 0 ≤ (s.world.fe i).invites.freq
  players : ∀ p ∈ (s.world.fe i).players, 0 ≤ p.invitesAvailable ∧ p.invitesAvailable ≤ 3
  none : s.accepted = []

theorem Opens.rationed (opens : Opens i s) :
    Rationed i (s.world.fe i).invites.max ((s.world.fe i).invites.freq + 1) s where
  clock := opens.clock
  max := rfl
  freq := rfl
  bucket := by
    have some := opens.some
    have freq := opens.freq
    refine ⟨Bucket.full (s.world.fe i).invites.lastAddition s.world.now.1 (by omega) (by omega), opens.full.symm,
      rfl, ?_, fun n late => opens.clock late⟩
    rw [InviteSession.times, opens.none]
    rfl
  players slot inside := by
    obtain ⟨low, high⟩ := opens.players _ (Frontend.player_mem inside)
    refine ⟨Allowance.opening _ ((s.world.fe i).player slot).lastInvite s.world.now.1 low high, rfl, rfl, ?_,
      fun n late => opens.clock late⟩
    rw [InviteSession.timesOf, opens.none]
    rfl

/-- On every run of invites and ticks: the tokens stay between none and all; in a window of `T`
seconds no more invites are accepted than there are tokens at most, and refills; those of one
player are thirty seconds apart and at most three in ten minutes; and an invite that is refused
counts nothing. -/
theorem invites_throttled {events : List ThrottleEvent} (opens : Opens i s)
    (ran : run (throttleStep pf i) s events = .ok s') :
    (0 ≤ (s'.world.fe i).invites.tokens ∧ (s'.world.fe i).invites.tokens ≤ (s'.world.fe i).invites.max) ∧
    (∀ a T, 0 ≤ T → (within a (a + T) s'.times : Int) ≤
      (s.world.fe i).invites.max + T / ((s.world.fe i).invites.freq + 1) + 1) ∧
    (∀ slot < (s'.world.fe i).players.length, Spaced 30 (s'.timesOf slot) ∧
      (∀ a, within a (a + 600) (s'.timesOf slot) ≤ 3) ∧
      0 ≤ ((s'.world.fe i).player slot).invitesAvailable ∧ ((s'.world.fe i).player slot).invitesAvailable ≤ 3) ∧
    ∀ client text s'', throttleStep pf i s' (.invite client text) = .ok s'' → s''.accepted = s'.accepted →
      (s''.world.fe i).invites = (s'.world.fe i).invites ∧ (s''.world.fe i).players = (s'.world.fe i).players := by
  have rationed := run_invariant (Rationed i (s.world.fe i).invites.max ((s.world.fe i).invites.freq + 1))
    (fun _ _ _ rationed _ => throttleStep_rationed opens.some rationed) opens.rationed (allowed_all _ _) ran
  obtain ⟨b, bucket⟩ := rationed.bucket
  refine ⟨⟨?_, ?_⟩, fun a T nonneg => ?_, fun slot inside => ?_, fun client text s'' stepped same => ?_⟩
  · rw [← bucket.tokens]
    exact b.nonneg
  · rw [← bucket.tokens, rationed.max]
    exact b.atMost
  · rw [← bucket.spent]
    exact b.within_spent_le a nonneg
  · obtain ⟨al, shows⟩ := rationed.players slot inside
    rw [← shows.uses, ← shows.left]
    refine ⟨al.spaced, fun a => ?_, al.nonneg, al.atMost⟩
    exact_mod_cast al.bounded a (a + 600) (by omega)
  · obtain ⟨w', ⟨rfl, uncounted⟩ | ⟨slot, available, rfl, counts⟩⟩ := throttleStep_invite stepped
    · exact ⟨uncounted.invites, uncounted.players⟩
    · simp at same

end
/-- Claire invites, a token is added, and she invites again too soon. -/
def claireInvites : List ThrottleEvent :=
  [.invite 0 ⟨ascii "join us", by decide⟩, .tick, .invite 0 ⟨ascii "come on", by decide⟩]

theorem claire_invited : Yields (run (throttleStep Platform.plain 0) ⟨invitingWorld, []⟩ claireInvites)
    (fun s => s.times = [1728145800] ∧ (s.world.fe 0).invites.tokens = 1) fun _ => False := by
  decide +kernel

theorem inviting_opens : Opens 0 ⟨invitingWorld, []⟩ where
  clock m n early := by
    show (1728145800 + m : Int) ≤ 1728145800 + n
    omega
  full := rfl
  some := by decide
  freq := by decide
  players := by decide
  none := rfl

theorem invites_throttled_claire : ∃ s', run (throttleStep Platform.plain 0) ⟨invitingWorld, []⟩ claireInvites = .ok s' ∧
    (0 ≤ (s'.world.fe 0).invites.tokens ∧ (s'.world.fe 0).invites.tokens ≤ (s'.world.fe 0).invites.max) ∧
    ∀ a T, 0 ≤ T → (within a (a + T) s'.times : Int) ≤
      (invitingWorld.fe 0).invites.max + T / ((invitingWorld.fe 0).invites.freq + 1) + 1 := by
  obtain ⟨s', ran, -⟩ := claire_invited.returns
  obtain ⟨tokens, windows, -⟩ := invites_throttled inviting_opens ran
  exact ⟨s', ran, tokens, windows⟩

end Q2Admin
