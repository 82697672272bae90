import Q2Admin.Connection
import Q2Admin.Roster

/-! The statistics of the players. They are counted in the slots and written to the database
when a player is removed; where a slot or a whole session is replaced otherwise, what its
players had is gone. -/

namespace Q2Admin
open Go Lib

/-- What may happen to a frontend: a message, or a lost connection and the next session. -/
inductive SessionEvent where
  | message (m : ClientMessage)
  | restart (c : ConnId) (greeting : Greeting) (hash : Bytes)

section
variable (pf : Platform) (i : Nat)

/-- The connection is lost, and the frontend comes back on another and proves itself. -/
def restartSession (c : ConnId) (greeting : Greeting) (hash : Bytes) (w : World) : Except Fault World := do
  match ← challengeClient pf c ⟨i, greeting, hash⟩ (hangUp i w) with
  | (.auth _ _, w) => trustClient pf i w
  | (_, w) => .ok w

def sessionStep (w : World) : SessionEvent → Except Fault World
  | .message m => deliver pf i w m
  | .restart c greeting hash => restartSession pf i c greeting hash w

/-- What the rows hold. -/
def rowStats (w : World) : Stats := (w.playerStats.map PlayerStat.stats).sum

/-- What is held in the slots and what is held in the rows. -/
def World.recorded (w : World) : Stats := w.slotSum Prod.snd i + rowStats w

/-- What the event counts. -/
def SessionEvent.counts (w : World) : SessionEvent → Stats
  | message m => m.counts pf.submatch ((w.advance i 1).fe i)
  | restart _ _ _ => 0

/-! ## Nothing is lost -/

/-- An entry that is not passed over takes a slot without statistics. -/
def PlayerEntry.Spares (w : World) (e : PlayerEntry) : Prop := e.client.toNat ≤ (w.fe i).maxPlayers →
  ((w.fe i).player e.client.toNat).stats = 0

/-- The statistics of a player who leaves can be written. -/
def CanWrite (w : World) (client : Nat) : Prop := ((w.fe i).player client).inUse = true →
  ((w.fe i).player client).stats ≠ 0 →
    client < (w.fe i).maxPlayers ∧ (w.host.insertID w.inserts).isSome = true

namespace ClientMessage

def Spares (w : World) : ClientMessage → Prop
  | connect player => player.Spares i w
  | playerList players => Allowed (storeEntry i pf) (fun w e => e.Spares i w) (w.advance i 1) players.val
  | disconnect client => CanWrite i w client.toNat
  | _ => True

end ClientMessage

/-- No slot with statistics is filled again, those of players who leave can be written, and
a session is replaced when its slots have none. -/
def SessionEvent.Spares (w : World) : SessionEvent → Prop
  | message m => m.Spares pf i (w.advance i 1)
  | restart _ _ _ => ∀ p ∈ (w.fe i).players, p.stats = 0

variable {i}

theorem snd_additive (t : Int) (s d : Stats) :
    Prod.snd (t, s + d) = Prod.snd (t, s) + AddMonoidHom.id Stats d := rfl

theorem recorded_of_raised {amount : Stats} {w w' : World} (raised : Raised Prod.snd i amount w w') :
    w'.recorded i = w.recorded i + amount := by
  rw [World.recorded, World.recorded, raised.slotSum, rowStats, raised.playerStats, rowStats,
    add_right_comm]

theorem recorded_of_books {w w' : World} (same : w'.books i = w.books i) : w'.recorded i = w.recorded i := by
  rw [recorded_of_raised (Raised.of_books Prod.snd i same), add_zero]

theorem storeEntry_recorded {e : PlayerEntry} {w w' : World} (spares : e.Spares i w)
    (stored : storeEntry i pf w e = .ok w') : w'.recorded i = w.recorded i := by
  rcases storeEntry_ok i pf stored with ⟨-, same⟩ | ⟨within, p, fresh, replaced, -, rows⟩
  · exact recorded_of_books same
  · have none : ((w.fe i).player e.client.toNat).standing.2 = 0 := spares within
    rw [World.recorded, World.recorded, replaced.slotSum, fresh, none, rowStats, rows, rowStats]
    simp

theorem writePlayer_rows {client : Nat} {w : World} (can : CanWrite i w client)
    (used : ((w.fe i).player client).inUse = true) :
    rowStats (writePlayer i client w) = rowStats w + ((w.fe i).player client).stats := by
  have played : ((w.fe i).player client).connectTime ≠ 0 := by
    simp only [Player.inUse, decide_eq_true_eq] at used
    omega
  by_cases none : ((w.fe i).player client).stats = 0
  case pos =>
    -- a row of zeroes makes no difference
    have row : ((w.fe i).player client).deaths = 0 ∧ ((w.fe i).player client).frags = 0 ∧
        ((w.fe i).player client).suicides = 0 := by simpa [Player.stats, Prod.ext_iff] using none
    rw [none, add_zero]
    unfold writePlayer
    simp only
    split
    · rfl
    cases w.now.2.insert.1 with
    | none => rfl
    | some id => simp [rowStats, PlayerStat.stats, row, World.now, World.insert]
  case neg =>
    obtain ⟨inside, inserted⟩ := can used none
    obtain ⟨id, row⟩ := Option.isSome_iff_exists.mp inserted
    have written : w.now.2.insert.1 = some id := row
    unfold writePlayer
    simp only [Nat.not_le.mpr inside, played, or_self, ↓reduceIte, written]
    simp only [rowStats, World.now, World.insert, List.map_append, List.sum_append, List.map_cons,
      List.map_nil, List.sum_cons, List.sum_nil, add_zero]
    rfl

theorem removePlayer_recorded {client : Nat} {w : World} (can : CanWrite i w client) :
    (removePlayer i client w).recorded i = w.recorded i := by
  rcases removePlayer_cases i client w with ⟨-, same⟩ | ⟨used, replaced, -, rows⟩
  · rw [same]
  · have old : ((w.fe i).player client).standing.2 = ((w.fe i).player client).stats := rfl
    have written := writePlayer_rows can used
    rw [rowStats, ← rows] at written
    rw [World.recorded, replaced.slotSum, old, World.recorded, rowStats, written, rowStats]
    have left : ({} : Player).standing.2 = 0 := rfl
    rw [left, zero_sub, add_comm _ ((w.fe i).player client).stats, ← add_assoc, neg_add_cancel_right]

theorem handle_recorded {m : ClientMessage} {w w' : World} (spares : m.Spares pf i w)
    (handled : handle pf i m w = .ok w') :
    w'.recorded i = w.recorded i + m.counts pf.submatch (w.fe i) := by
  by_cases keeps : m.KeepsSlots
  case pos => exact recorded_of_raised ((handle_raised pf snd_additive keeps w).of_ok handled)
  cases m with
  | connect player =>
    obtain ⟨w₁, stored, same⟩ := connect_books i pf handled
    rw [recorded_of_books same, storeEntry_recorded pf spares stored]
    exact (add_zero _).symm
  | playerList players =>
    simp only [handle, deliverPlayers_eq_run i pf] at handled
    have kept : w'.recorded i = w.recorded i := run_invariant (fun w' => w'.recorded i = w.recorded i)
      (fun _ _ _ before spared stored => (storeEntry_recorded pf spared stored).trans before)
      (recorded_of_books ((books_overlooks i).advance i w 1)) spares handled
    rw [kept]
    exact (add_zero _).symm
  | disconnect client =>
    have past (count : Nat) : (w.advance i count).recorded i = w.recorded i :=
      recorded_of_books ((books_overlooks i).advance i w count)
    have can : CanWrite i (w.advance i 1) client.toNat := by
      have player := World.field_advance i w 1 i (fun fe => fe.player client.toNat) fun _ _ => rfl
      have max := World.field_advance i w 1 i (fun fe => fe.maxPlayers) fun _ _ => rfl
      unfold CanWrite
      rw [player, max]
      exact spares
    cases handled
    show (onDisconnect i client (w.advance i 1)).recorded i = w.recorded i + 0
    rw [add_zero, ← past 1]
    rcases onDisconnect_cases i client (w.advance i 1) with same | removed
    · rw [same]
    · rw [removed, removePlayer_recorded can]
  | _ => exact absurd trivial keeps

/-! ## A new session -/

theorem hangUp_books (w : World) : (hangUp i w).books i = w.books i :=
  (books_overlooks i).update w i _ rfl rfl

theorem sessionKeys_books (blob : Bytes) (w : World) : (sessionKeys i blob w).2.books i = w.books i := by
  simp only [sessionKeys]
  split
  · exact (books_overlooks i).update ((w.randomBytes aesBlockLength).2.randomBytes aesIVLength).2 i _ rfl rfl
  · rfl

theorem helloAck_steady (cipher : Bytes) (w : World) : Steady i w (helloAck pf i cipher w) := by
  have queues := ((Queues.writeByte pf.q2 scmdHelloAck).comp
    (Queues.writeShort pf.q2 cipher.length)).comp (Queues.writeData pf.q2 cipher)
  exact ((books_overlooks i).sendMessages pf i _).mono (fun _ same => same.trans ((books_overlooks i).queue w i queues)) fun _ => id

theorem challengeClient_books (c : ConnId) (greeting : Greeting) (hash : Bytes) (w : World) :
    Yields (challengeClient pf c ⟨i, greeting, hash⟩ w) (fun next => next.2.books i = w.books i)
      fun _ => True := by
  have connected : (w.update i (Frontend.connect c greeting)).books i = w.books i :=
    (books_overlooks i).update w i _ rfl rfl
  unfold challengeClient
  simp only
  apply Yields.bind (Yields.top _)
  intro loaded _ _
  split
  · exact connected
  next pubkey _ =>
  let drawn := (w.update i (Frontend.connect c greeting)).randomBytes challengeLength
  let issued := drawn.2.update i fun fe => { fe with publicKey := pubkey, challenge := drawn.1 }
  have published : issued.books i = w.books i :=
    Eq.trans ((books_overlooks i).update drawn.2 i _ rfl rfl) connected
  have keyed : (sessionKeys i (hash ++ drawn.1) issued).2.books i = w.books i :=
    (sessionKeys_books _ issued).trans published
  split
  · exact keyed
  · apply Yields.bind (helloAck_steady pf _ _)
    exact fun _ _ same => same.trans keyed

/-- The slots hold no statistics. -/
def Blank (i : Nat) (w : World) : Prop := ∀ standing ∈ w.standings i, standing.2 = 0

theorem slotSum_of_blank {w : World} (blank : Blank i w) : w.slotSum Prod.snd i = 0 := by
  apply List.sum_eq_zero
  intro stats member
  obtain ⟨standing, there, rfl⟩ := List.mem_map.mp member
  exact blank standing there

theorem recorded_of_blank {w w' : World} (before : Blank i w) (behind : Blank i w')
    (rows : w'.playerStats = w.playerStats) : w'.recorded i = w.recorded i := by
  rw [World.recorded, World.recorded, slotSum_of_blank before, slotSum_of_blank behind, rowStats, rows,
    rowStats]

/-- The new session starts with empty slots. -/
theorem trust_blank (w : World) : Blank i (w.trust i) := by
  intro standing member
  obtain ⟨p, there, rfl⟩ := List.mem_map.mp member
  by_cases live : i < w.frontends.length
  · rw [World.trust, World.fe_update_self w.now.2 live] at there
    rw [List.eq_of_mem_replicate there]
    rfl
  · have missing : (w.trust i).fe i = {} := by
      rw [World.trust]
      simp only
      rw [World.update_outside w.now.2 live, World.fe_outside w.now.2 live]
    simp [missing] at there

theorem trustClient_recorded {w : World} (blank : Blank i w) :
    Yields (trustClient pf i w) (fun w' => w'.recorded i = w.recorded i) fun _ => True := by
  apply Yields.bind ((books_overlooks i).sendMessages pf i _)
  intro w₁ _ same
  have sent : w₁.books i = w.books i :=
    same.trans ((books_overlooks i).queue w i (Queues.writeByte pf.q2 scmdTrusted))
  have rows : w₁.playerStats = w.playerStats := congrArg (fun books => books.2.2) sent
  exact recorded_of_blank blank (trust_blank w₁) rows

theorem restartSession_recorded {c : ConnId} {greeting : Greeting} {hash : Bytes} {w : World}
    (blank : Blank i w) : Yields (restartSession pf i c greeting hash w)
      (fun w' => w'.recorded i = w.recorded i) fun _ => True := by
  unfold restartSession
  apply Yields.bind (challengeClient_books pf c greeting hash (hangUp i w))
  rintro ⟨phase, w₁⟩ _ same
  have kept : w₁.books i = w.books i := same.trans (hangUp_books w)
  have blank₁ : Blank i w₁ := by
    rw [Blank, show w₁.standings i = w.standings i from congrArg Prod.fst kept]
    exact blank
  cases phase with
  | auth j own =>
    exact (trustClient_recorded pf blank₁).mono
      (fun _ trusted => trusted.trans (recorded_of_books kept)) fun _ => id
  | _ => exact recorded_of_books kept

/-- What one event leaves behind. -/
theorem sessionStep_recorded {e : SessionEvent} {w w' : World} (spares : e.Spares pf i w)
    (stepped : sessionStep pf i w e = .ok w') :
    w'.recorded i = w.recorded i + e.counts pf i w := by
  cases e with
  | message m =>
    rw [handle_recorded pf spares stepped, recorded_of_books ((books_overlooks i).advance i w 1)]
    rfl
  | restart c greeting hash =>
    have blank : Blank i w := by
      intro standing member
      obtain ⟨p, there, rfl⟩ := List.mem_map.mp member
      exact spares p there
    rw [(restartSession_recorded pf blank).of_ok stepped]
    exact (add_zero _).symm

/-- No statistics are lost on a run that fills no slot with statistics again, can write those
of the players who leave, and replaces its session when no slot has any: what the slots and
the rows hold has grown by what was counted. -/
theorem statistics_kept {w w' : World} {events : List SessionEvent}
    (spares : Allowed (sessionStep pf i) (fun w e => e.Spares pf i w) w events)
    (ran : run (sessionStep pf i) w events = .ok w') :
    w'.recorded i = w.recorded i + total (sessionStep pf i) (fun w e => e.counts pf i w) w events :=
  run_raises (World.recorded i) (fun _ _ _ spared stepped => sessionStep_recorded pf spared stepped)
    spares ran

end

/-- A platform that understands one kind of obituary. -/
def suicidesPlatform : Platform := { Platform.plain with
  submatch := fun pattern text =>
    if pattern = ascii "(.+) suicides" then (textBefore (ascii " suicides") text).map fun name _ => name
    else none }

def claireSuicides : SessionEvent := .message (.print 1 ⟨ascii "claire suicides.\n", by decide⟩)

/-- Claire plays, dies by her own hand, and leaves. -/
def claireLeaves : List SessionEvent :=
  [.message (.connect claireEntry), claireSuicides, .message (.disconnect 1)]

/-- Claire plays, dies by her own hand, and connects again. -/
def claireReturns : List SessionEvent :=
  [.message (.connect claireEntry), claireSuicides, .message (.connect claireEntry)]

theorem claire_died : Yields (run (sessionStep suicidesPlatform 0) sessionWorld (claireLeaves.take 2))
    (fun w => (w.fe 0).maxPlayers = 2 ∧ (w.host.insertID w.inserts).isSome = true ∧ w.recorded 0 = (1, -1, 1))
    fun _ => False := by
  decide +kernel

theorem claire_left : Yields (run (sessionStep suicidesPlatform 0) sessionWorld claireLeaves)
    (fun w => w.playerStats.map PlayerStat.stats = [(1, -1, 1)]) fun _ => False := by
  decide +kernel

theorem claire_returned : Yields (run (sessionStep suicidesPlatform 0) sessionWorld claireReturns)
    (fun w => w.recorded 0 = 0) fun _ => False := by
  decide +kernel

theorem claire_counted : total (sessionStep suicidesPlatform 0)
    (fun w e => e.counts suicidesPlatform 0 w) sessionWorld claireReturns = (1, -1, 1) := by
  decide +kernel

theorem claireLeaves_spares : Allowed (sessionStep suicidesPlatform 0)
    (fun w e => e.Spares suicidesPlatform 0 w) sessionWorld claireLeaves := by
  refine ⟨fun _ => by decide, fun w₁ first => ⟨trivial, fun w₂ second => ⟨?_, fun _ _ => trivial⟩⟩⟩
  have ran : run (sessionStep suicidesPlatform 0) sessionWorld (claireLeaves.take 2) = .ok w₂ :=
    (run_cons _ first).trans (run_cons [] second)
  obtain ⟨max, inserted, -⟩ := claire_died.of_ok ran
  intro _ _
  refine ⟨?_, inserted⟩
  rw [World.field_advance 0 w₂ 1 0 (fun fe => fe.maxPlayers) fun _ _ => rfl, max]
  decide

theorem statistics_kept_claire : ∃ w', run (sessionStep suicidesPlatform 0) sessionWorld claireLeaves = .ok w' ∧
    w'.recorded 0 = sessionWorld.recorded 0 + total (sessionStep suicidesPlatform 0)
      (fun w e => e.counts suicidesPlatform 0 w) sessionWorld claireLeaves := by
  obtain ⟨w', ran, -⟩ := claire_left.returns
  exact ⟨w', ran, statistics_kept suicidesPlatform claireLeaves_spares ran⟩

/-- The events that count, write or replace statistics. -/
def SessionEvent.OfStatistics : SessionEvent → Prop
  | message (.print _ _) | message (.connect _) | message (.playerList _) | message (.disconnect _) => True
  | message _ => False
  | restart _ _ _ => True

/-- Claire's death is gone with her slot. -/
theorem statistics_lost : ¬ ∀ (pf : Platform) (i : Nat) (w w' : World) (events : List SessionEvent),
    (∀ e ∈ events, e.OfStatistics) → (∀ inserts, (w.host.insertID inserts).isSome = true) →
      (w.fe i).players.length = (w.fe i).maxPlayers → run (sessionStep pf i) w events = .ok w' →
        w'.recorded i = w.recorded i + total (sessionStep pf i) (fun w e => e.counts pf i w) w events := by
  intro kept
  obtain ⟨w', ran, empty⟩ := claire_returned.returns
  have counted : ∀ e ∈ claireReturns, e.OfStatistics := by
    simp [claireReturns, claireSuicides, SessionEvent.OfStatistics]
  have same := kept suicidesPlatform 0 sessionWorld w' claireReturns counted (fun _ => rfl) rfl ran
  rw [empty, claire_counted] at same
  exact absurd same (by decide +kernel)

end Q2Admin
