import Q2Admin.Parse

/-! `WritePlayers` of `frontend/frontend.go`, which writes the statistics of everybody when
the process is shut down. It goes by the client number in each record, and a free slot holds
the number of slot 0. -/

namespace Q2Admin
open Go

/-- What `WritePlayer` returns an error for. -/
inductive WriteError where
  | invalidClient (client : Int)
  | notWritten
  deriving DecidableEq, Repr

section
variable (i : Nat)

/-- `WritePlayer`, with its error. -/
def tryWritePlayer (client : Int) (w : World) : Except Fault (Option WriteError × World) :=
  let fe := w.fe i
  if client < 0 ∨ fe.maxPlayers ≤ client then .ok (some (.invalidClient client), w)
  else if fe.players.length ≤ client then .error .slotIndex
  else if (fe.player client.toNat).connectTime = 0 then .ok (none, w)
  else
    let written := w.now.2.insert.1.isSome
    .ok (if written then none else some .notWritten, writePlayer i client.toNat w)

/-- The range over the players, up to the first error. -/
def writeEach : List Player → World → Except Fault (Option WriteError × World)
  | [], w => .ok (none, w)
  | p :: rest, w => do
    let (err, w) ← tryWritePlayer i p.clientID w
    match err with
    | some err => .ok (some err, w)
    | none => writeEach rest w

def writePlayers (w : World) : Except Fault (Option WriteError × World) :=
  writeEach i (w.fe i).players w

end

/-- The row holds the player's statistics, up to some reading of the clock. -/
def PlayerStat.Holds (host : Host) (p : Player) (row : PlayerStat) : Prop :=
  ∃ reads, row = ⟨p.databaseID, p.frags, p.deaths, p.suicides, p.kdr, host.now reads - p.connectTime⟩

def Frontend.inUse (fe : Frontend) : List Player := fe.players.filter (·.inUse)

/-- Every player in use has one row, and there are no other new rows. -/
def WrittenOnce (i : Nat) (w w' : World) : Prop :=
  ∃ rows order, w'.playerStats = w.playerStats ++ rows ∧ order.Perm (w.fe i).inUse ∧
    List.Forall₂ (PlayerStat.Holds w.host) order rows

/-- A slot in use holds its own number, and a free one nothing. -/
structure Frontend.Slotted (fe : Frontend) : Prop where
  sized : fe.players.length = fe.maxPlayers
  numbered : ∀ slot < fe.players.length, (fe.player slot).inUse = true → (fe.player slot).clientID = slot
  free : ∀ slot < fe.players.length, (fe.player slot).inUse = false → fe.player slot = {}

/-- The player in the slot that a record's number leads to. -/
def Frontend.addressee (fe : Frontend) (p : Player) : Player := fe.player p.clientID.toNat

section
variable {i : Nat}

theorem Frontend.mem_players {fe : Frontend} {p : Player} (member : p ∈ fe.players) :
    ∃ slot < fe.players.length, fe.player slot = p := by
  obtain ⟨slot, inside, same⟩ := List.mem_iff_getElem.mp member
  exact ⟨slot, inside, (Frontend.player_eq_getElem inside).trans same⟩

/-- Rows have been added that hold the statistics of these players, one each. -/
structure Adds (i : Nat) (players : List Player) (w w' : World) : Prop where
  fe : w'.fe i = w.fe i
  host : w'.host = w.host
  rows : ∃ rows, w'.playerStats = w.playerStats ++ rows ∧
    List.Forall₂ (PlayerStat.Holds w.host) players rows

namespace Adds
variable {w w' w'' : World} {players others : List Player}

theorem nothing : Adds i [] w w := ⟨rfl, rfl, [], (List.append_nil _).symm, .nil⟩

theorem trans (first : Adds i players w w') (second : Adds i others w' w'') :
    Adds i (players ++ others) w w'' where
  fe := second.fe.trans first.fe
  host := second.host.trans first.host
  rows := by
    obtain ⟨rows, added, hold⟩ := first.rows
    obtain ⟨more, addedToo, holdToo⟩ := second.rows
    refine ⟨rows ++ more, by rw [addedToo, added, List.append_assoc], ?_⟩
    exact List.rel_append hold (first.host ▸ holdToo)

end Adds

/-- With inserts succeeding, a valid number adds the row of its player, if in use. -/
theorem tryWritePlayer_adds {w : World} {client : Int} (slotted : (w.fe i).Slotted) (low : 0 ≤ client)
    (high : client < (w.fe i).players.length) (inserts : ∀ n, (w.host.insertID n).isSome = true) :
    ∃ w', tryWritePlayer i client w = .ok (none, w') ∧
      Adds i ([(w.fe i).player client.toNat].filter (·.inUse)) w w' := by
  have inside : client.toNat < (w.fe i).players.length := by omega
  have sized := slotted.sized
  have valid : ¬ (client < 0 ∨ (w.fe i).maxPlayers ≤ client) := by omega
  rw [tryWritePlayer, if_neg valid, if_neg (by omega)]
  cases used : ((w.fe i).player client.toNat).inUse with
  | false =>
    have free := slotted.free _ inside used
    rw [if_pos (by rw [free])]
    exact ⟨w, rfl, by simpa [used] using Adds.nothing⟩
  | true =>
    have played : ((w.fe i).player client.toNat).connectTime ≠ 0 := by
      simp only [Player.inUse, decide_eq_true_eq] at used
      omega
    obtain ⟨id, inserted⟩ := Option.isSome_iff_exists.mp (inserts w.inserts)
    have written : w.now.2.insert.1 = some id := inserted
    rw [if_neg played]
    refine ⟨_, by rw [written]; rfl, ?_⟩
    unfold writePlayer
    simp only [written, Nat.not_le.mpr (sized ▸ inside), played, or_self, ↓reduceIte]
    refine ⟨rfl, rfl, _, rfl, ?_⟩
    simpa [used] using ⟨w.clockReads, rfl⟩

/-- Each record adds the row of its addressee, if that is in use. -/
theorem writeEach_adds {fe : Frontend} (slotted : fe.Slotted) (targets : List Player)
    (valid : ∀ p ∈ targets, 0 ≤ p.clientID ∧ p.clientID < fe.players.length) (w : World)
    (here : w.fe i = fe) (inserts : ∀ n, (w.host.insertID n).isSome = true) :
    ∃ w', writeEach i targets w = .ok (none, w') ∧
      Adds i ((targets.map fe.addressee).filter (·.inUse)) w w' := by
  induction targets generalizing w with
  | nil => exact ⟨w, rfl, Adds.nothing⟩
  | cons p rest ih =>
    obtain ⟨low, high⟩ := valid p List.mem_cons_self
    obtain ⟨w₁, first, added⟩ := tryWritePlayer_adds (here ▸ slotted) low (here ▸ high) inserts
    obtain ⟨w₂, others, addedToo⟩ := ih (fun q member => valid q (List.mem_cons_of_mem p member)) w₁
      (added.fe.trans here) (added.host ▸ inserts)
    refine ⟨w₂, by rw [writeEach, first]; exact others, ?_⟩
    have parts : ((p :: rest).map fe.addressee).filter (·.inUse) =
        [fe.addressee p].filter (·.inUse) ++ (rest.map fe.addressee).filter (·.inUse) := by
      rw [← List.filter_append]
      rfl
    rw [parts]
    exact (here ▸ added).trans addedToo

theorem Frontend.Slotted.addressee_used {fe : Frontend} (slotted : fe.Slotted) {p : Player} (member : p ∈ fe.players)
    (used : p.inUse = true) : fe.addressee p = p := by
  obtain ⟨slot, inside, rfl⟩ := Frontend.mem_players member
  rw [Frontend.addressee, slotted.numbered slot inside used, Int.toNat_natCast]

/-- The record of a free slot leads to slot 0. -/
theorem Frontend.Slotted.addressee_free {fe : Frontend} (slotted : fe.Slotted) {p : Player} (member : p ∈ fe.players)
    (free : p.inUse = false) : fe.addressee p = fe.player 0 := by
  obtain ⟨slot, inside, rfl⟩ := Frontend.mem_players member
  rw [Frontend.addressee, slotted.free slot inside free]
  rfl

theorem Frontend.Slotted.valid {fe : Frontend} (slotted : fe.Slotted) (p : Player) (member : p ∈ fe.players) :
    0 ≤ p.clientID ∧ p.clientID < fe.players.length := by
  obtain ⟨slot, inside, rfl⟩ := Frontend.mem_players member
  cases used : (fe.player slot).inUse with
  | true =>
    rw [slotted.numbered slot inside used]
    omega
  | false =>
    rw [slotted.free slot inside used]
    exact ⟨by decide, by simpa using Nat.zero_lt_of_lt inside⟩

theorem filter_map_of_fixed {α : Type} {q : α → Bool} {f : α → α} {l : List α}
    (fixed : ∀ a ∈ l, q a = true → f a = a) (out : ∀ a ∈ l, q a = false → q (f a) = false) :
    (l.map f).filter q = l.filter q := by
  induction l with
  | nil => rfl
  | cons a l ih =>
    have rest := ih (fun b member => fixed b (List.mem_cons_of_mem a member))
      fun b member => out b (List.mem_cons_of_mem a member)
    cases held : q a with
    | true =>
      rw [List.map_cons, fixed a List.mem_cons_self held, List.filter_cons_of_pos held,
        List.filter_cons_of_pos held, rest]
    | false =>
      have still := out a List.mem_cons_self held
      simp [held, still, rest]

/-- The statistics are written once exactly when the number of the free slots leads to
nobody: slot 0 is free itself, or there are no free slots. -/
theorem writePlayers_once_iff {w : World} (slotted : (w.fe i).Slotted)
    (inserts : ∀ n, (w.host.insertID n).isSome = true) :
    (∃ w', writePlayers i w = .ok (none, w') ∧ WrittenOnce i w w') ↔
      ¬ (((w.fe i).player 0).inUse = true ∧ ∃ p ∈ (w.fe i).players, p.inUse = false) := by
  obtain ⟨w', done, added⟩ := writeEach_adds slotted _ slotted.valid w rfl inserts
  obtain ⟨rows, written, hold⟩ := added.rows
  constructor
  · rintro ⟨_, same, others, order, writtenToo, perm, holdToo⟩ ⟨first, p, member, free⟩
    obtain rfl : w' = _ := congrArg Prod.snd (Except.ok.inj (done.symm.trans same))
    obtain rfl : rows = others := List.append_cancel_left (written.symm.trans writtenToo)
    have everyone : ∀ q ∈ (w.fe i).players.map (w.fe i).addressee, q.inUse = true := by
      intro q member
      obtain ⟨r, present, rfl⟩ := List.mem_map.mp member
      cases used : r.inUse with
      | true => rwa [slotted.addressee_used present used]
      | false => rwa [slotted.addressee_free present used]
    rw [List.filter_eq_self.mpr everyone] at hold
    have count : (w.fe i).players.length = (w.fe i).inUse.length := calc
      (w.fe i).players.length = rows.length := (List.length_map ..).symm.trans hold.length_eq
      _ = order.length := holdToo.length_eq.symm
      _ = (w.fe i).inUse.length := perm.length_eq
    have used := List.length_filter_eq_length_iff.mp count.symm p member
    rw [free] at used
    exact Bool.false_ne_true used
  · intro apart
    refine ⟨w', done, rows, _, written, ?_, hold⟩
    rw [filter_map_of_fixed fun p member => slotted.addressee_used member]
    · exact List.Perm.refl _
    · intro p member free
      rw [slotted.addressee_free member free]
      by_contra first
      exact apart ⟨Bool.eq_true_of_not_eq_false first, p, member, free⟩

end

/-- Two slots of which the first is in use. -/
def halfFull : World where
  frontends := [{ maxPlayers := 2, players := [{ name := ascii "claire", connectTime := 1 }, {}] }]
  host := Host.counting

/-- Two slots that are both in use. -/
def allUsed : World where
  frontends := [{ maxPlayers := 2, players :=
    [{ name := ascii "claire", connectTime := 1 }, { name := ascii "best: me", clientID := 1, connectTime := 2 }] }]
  host := Host.counting

theorem writePlayers_once_iff_allUsed :
    (∃ w', writePlayers 0 allUsed = .ok (none, w') ∧ WrittenOnce 0 allUsed w') ↔
      ¬ (((allUsed.fe 0).player 0).inUse = true ∧ ∃ p ∈ (allUsed.fe 0).players, p.inUse = false) :=
  writePlayers_once_iff ⟨by decide, by decide, by decide⟩ fun _ => rfl

/-- The player in slot 0 has a second row, for the slot that is free. -/
theorem writePlayers_twice : ¬ ∀ (i : Nat) (w : World), (w.fe i).Slotted →
    (∀ n, (w.host.insertID n).isSome = true) →
    ∃ w', writePlayers i w = .ok (none, w') ∧ WrittenOnce i w w' := by
  intro promised
  have slotted : (halfFull.fe 0).Slotted := by
    refine ⟨by decide, by decide, fun slot inside free => ?_⟩
    match slot, inside with
    | 0, _ => exact absurd free (by decide)
    | 1, _ => rfl
  obtain ⟨w', done, rows, order, written, perm, hold⟩ := promised 0 halfFull slotted fun _ => rfl
  have two : (writePlayers 0 halfFull).toOption.map (·.2.playerStats.length) = some 2 := by decide
  rw [done] at two
  have total : w'.playerStats.length = 2 := Option.some.inj two
  have count : rows.length = 2 := by simpa [written, halfFull] using total
  rw [← hold.length_eq, perm.length_eq] at count
  revert count
  decide

end Q2Admin
