import Q2Admin.RuleActions
import Q2Admin.Slots

/-! How long a mute or a stifle lasts. No handler writes to the marks of a player who stays,
but a player who is announced again is a new record. -/

namespace Q2Admin
open Go Lib

def Player.marks (p : Player) : Marks := ⟨p.muted, p.stifled, p.stifleLength⟩

/-- Mute and stifle are as they were set. -/
structure StillSet (m m' : Marks) : Prop where
  muted : m.muted = true → m'.muted = true
  stifled : m.stifled = true → m'.stifled = true ∧ m'.stifleLength = m.stifleLength

/-- The entry has a number that is accepted, and it is that of the slot. -/
def PlayerEntry.Takes (maxPlayers slot : Nat) (e : PlayerEntry) : Prop :=
  e.client.toNat = slot ∧ slot ≤ maxPlayers

/-- The message has a player take the slot, whether newly or again. -/
def ClientMessage.Announces (maxPlayers slot : Nat) : ClientMessage → Prop
  | connect e => e.Takes maxPlayers slot
  | playerList players => ∃ e ∈ players.val, e.Takes maxPlayers slot
  | _ => False

/-! ## Marking -/

section
variable (q2 : Libq2)

theorem applyRules_players (rules : List Rule) (p : Player) (fe : Frontend) :
    (applyRules q2 rules (p, fe)).2.players = fe.players := by
  induction rules generalizing p fe with
  | nil => rfl
  | cons r rest ih =>
    cases type : r.type with
    | ban =>
      simp only [applyRules, type]
      exact (Says.kickPlayer q2 p _).toQueues.players fe
    | mute =>
      simp only [applyRules, type]
      rw [ih, (Queues.mutePlayer q2 _ _).players, (Queues.sayPlayer q2 _ _ _).players]
    | stifle =>
      by_cases muted : p.muted = true
      · simp only [applyRules, type, muted, ↓reduceIte]
        exact ih p fe
      · simp only [applyRules, type, muted, Bool.false_eq_true, ↓reduceIte]
        rw [ih, (Queues.mutePlayer q2 _ _).players, (Queues.sayPlayer q2 _ _ _).players]
    | message =>
      simp only [applyRules, type]
      rw [ih, (Queues.sayPlayer q2 _ _ _).players]

def Marks.Set (m : Marks) : Prop := m.muted = true ∨ m.stifled = true

/-- Marks that are set stay set. -/
theorem applyRules_marked {rules : List Rule} {p : Player} (fe : Frontend) (marked : p.marks.Set) :
    (applyRules q2 rules (p, fe)).1.marks.Set := by
  induction rules generalizing p fe with
  | nil => exact marked
  | cons r rest ih =>
    cases type : r.type with
    | ban =>
      simp only [applyRules, type]
      exact marked
    | mute =>
      simp only [applyRules, type]
      exact ih _ (.inl rfl)
    | stifle =>
      by_cases muted : p.muted = true
      · simp only [applyRules, type, muted, ↓reduceIte]
        exact ih fe marked
      · simp only [applyRules, type, muted, Bool.false_eq_true, ↓reduceIte]
        exact ih _ (.inr rfl)
    | message =>
      simp only [applyRules, type]
      exact ih _ marked

/-- A mute or a stifle in front of the first ban is carried out. -/
theorem applyRules_marks {rules : List Rule} (p : Player) (fe : Frontend)
    (marking : ∃ r ∈ rules.takeWhile (·.type ≠ .ban), r.type = .mute ∨ r.type = .stifle) :
    (applyRules q2 rules (p, fe)).1.marks.Set := by
  induction rules generalizing p fe with
  | nil => simp at marking
  | cons r rest ih =>
    cases type : r.type with
    | ban => simp [type] at marking
    | mute =>
      simp only [applyRules, type]
      exact applyRules_marked q2 _ (.inl rfl)
    | stifle =>
      by_cases muted : p.muted = true
      · simp only [applyRules, type, muted, ↓reduceIte]
        exact applyRules_marked q2 _ (.inl muted)
      · simp only [applyRules, type, muted, Bool.false_eq_true, ↓reduceIte]
        exact applyRules_marked q2 _ (.inr rfl)
    | message =>
      simp only [applyRules, type]
      exact ih _ _ (by simpa [type] using marking)

end

section
variable (pf : Platform) (i slot : Nat)

/-- The marks of the player in a slot, if there is such a slot. -/
def World.marks (w : World) : Option Marks := (w.slots Player.marks i)[slot]?

theorem edit_marks (f : Player → Player) (edit : Player.Edit f) (p : Player) : (f p).marks = p.marks := by
  cases edit <;> rfl

theorem count_marks (f : Player → Player) (count : Player.Count f) (p : Player) : (f p).marks = p.marks := by
  cases count <;> rfl

variable {i slot} {w w' : World}

/-- Rules that are carried out leave the player with a mark. -/
theorem applyMatchedRules_marks {rules : List Rule} (inside : slot < (w.fe i).players.length)
    (marking : ∃ r ∈ rules.takeWhile (·.type ≠ .ban), r.type = .mute ∨ r.type = .stifle)
    (applied : applyMatchedRules pf i slot rules w = .ok w') :
    ∃ m, m.Set ∧ w'.marks i slot = some m := by
  have some : rules ≠ [] := by
    rintro rfl
    simp at marking
  rw [applyMatchedRules, if_neg some] at applied
  have sent := ((slots_overlooks edit_marks i).sendMessages pf i _).of_ok applied
  refine ⟨_, applyRules_marks pf.q2 ((w.fe i).player slot) (w.fe i) marking, ?_⟩
  rw [World.marks, sent, World.slots, World.fe_update_self w (live_of_slot inside)]
  simp [applyRules_players, inside]

/-! ## What the messages do to a slot -/

/-- A new player is neither muted nor stifled. -/
def bare : Marks := ⟨false, false, 0⟩

theorem storeEntry_marks {e : PlayerEntry} (stored : storeEntry i pf w e = .ok w') :
    (e.Takes (w.fe i).maxPlayers slot → w'.marks i slot = some bare) ∧
      (¬ e.Takes (w.fe i).maxPlayers slot → w'.marks i slot = w.marks i slot) := by
  rcases storeEntry_joined i pf stored with ⟨beyond, rfl⟩ | ⟨within, info, id, -, joined⟩
  · refine ⟨fun takes => absurd takes.2 (by rw [← takes.1]; omega), fun _ => ?_⟩
    rw [World.marks, (slots_overlooks edit_marks i).advance, World.marks]
  · have inside := joined.inside
    constructor
    · rintro ⟨rfl, -⟩
      simp [World.marks, World.slots, joined.players, inside]
      rfl
    · intro other
      have apart : e.client.toNat ≠ slot := fun same => other ⟨same, same ▸ within⟩
      simp [World.marks, World.slots, joined.players, apart]

theorem onDisconnect_marks {client : Byte} (other : client.toNat ≠ slot) (w : World) :
    (onDisconnect i client w).marks i slot = w.marks i slot := by
  rcases onDisconnect_cases i client w with same | removed
  · rw [same]
  rw [removed]
  rcases removePlayer_players i client.toNat w with ⟨-, same⟩ | ⟨-, -, players, -⟩
  · rw [same]
  · simp [World.marks, World.slots, players, other]

/-- A message resets the marks of a slot if it announces a player there, and leaves them
otherwise, as long as it does not disconnect that player. -/
theorem deliver_marks {m : ClientMessage} (stays : ∀ client, client.toNat = slot → m ≠ .disconnect client)
    (delivered : deliver pf i w m = .ok w') :
    (m.Announces (w.fe i).maxPlayers slot → w'.marks i slot = some bare) ∧
      (¬ m.Announces (w.fe i).maxPlayers slot → w'.marks i slot = w.marks i slot) := by
  have unseen := slots_overlooks edit_marks i
  have kept {w : World} (count : Nat) : (w.advance i count).marks i slot = w.marks i slot := by
    rw [World.marks, unseen.advance, World.marks]
  have max := w.field_advance i 1 i (fun fe => fe.maxPlayers) fun _ _ => rfl
  rw [← max, ← kept (w := w) 1]
  unfold deliver at delivered
  generalize w.advance i 1 = past at *
  have quiet (still : m.Quiet) : w'.marks i slot = past.marks i slot :=
    congrArg (·[slot]?) ((unseen.handle i pf still past).of_ok delivered)
  cases m with
  | connect e =>
    obtain ⟨known, w₁, -, stored, rfl⟩ := handle_connect i pf delivered
    have same : (startConnect i known w₁).marks i slot = w₁.marks i slot :=
      congrArg (·[slot]?) (unseen.startConnect i known w₁)
    rw [same]
    exact storeEntry_marks pf stored
  | playerList players =>
    simp only [handle, deliverPlayers_eq_run i pf] at delivered
    have one := past.field_advance i 1 i (fun fe => fe.maxPlayers) fun _ _ => rfl
    rw [← kept (w := past) 1]
    have entries := run_resets (World.marks i slot) (some bare)
      (fun w => (w.fe i).maxPlayers = (past.fe i).maxPlayers) (PlayerEntry.Takes (past.fe i).maxPlayers slot)
      (fun w e w' _ held stored =>
        ⟨(maxPlayers_storeEntry i pf stored).trans held, held ▸ storeEntry_marks pf stored⟩)
      one delivered
    exact ⟨entries.1, fun none => entries.2 fun e member same => none ⟨e, member, same⟩⟩
  | disconnect client =>
    refine ⟨False.elim, fun _ => ?_⟩
    cases delivered
    rw [onDisconnect_marks (fun same => stays client same rfl), kept]
  | print level text =>
    refine ⟨False.elim, fun _ => ?_⟩
    have printed := (onPrint_slots count_marks edit_marks level text.val _).of_ok delivered
    rw [World.marks, printed, unseen.advance, World.marks]
  | _ => exact ⟨False.elim, fun _ => quiet trivial⟩

/-- What is left of the marks at the end of a run: nothing if the player was announced again,
all of them otherwise. -/
theorem run_marks {messages : List ClientMessage}
    (stays : ∀ client, client.toNat = slot → .disconnect client ∉ messages)
    (ran : run (deliver pf i) w messages = .ok w') :
    ((∃ m ∈ messages, m.Announces (w.fe i).maxPlayers slot) → w'.marks i slot = some bare) ∧
      ((∀ m ∈ messages, ¬ m.Announces (w.fe i).maxPlayers slot) → w'.marks i slot = w.marks i slot) := by
  apply run_resets (World.marks i slot) (some bare) (fun w' => (w'.fe i).maxPlayers = (w.fe i).maxPlayers)
    (ClientMessage.Announces (w.fe i).maxPlayers slot) _ rfl ran
  intro w m w' member held delivered
  refine ⟨(maxPlayers_deliver i pf delivered).trans held, held ▸ deliver_marks pf ?_ delivered⟩
  exact fun client number same => stays client number (same ▸ member)

theorem marks_getD {m : Marks} (marked : w.marks i slot = some m) : ((w.fe i).player slot).marks = m := by
  rw [World.marks, World.slots, List.getElem?_map] at marked
  obtain ⟨p, there, rfl⟩ := Option.map_eq_some_iff.mp marked
  rw [Frontend.player, List.getD_eq_getElem?_getD, there]
  rfl

/-- A mute or a stifle that was carried out sticks, in a run without a disconnect of the
player, exactly when no message of the run announces a player in that slot. -/
theorem marks_stick_iff {w₀ : World} {rules : List Rule} {messages : List ClientMessage}
    (inside : slot < (w₀.fe i).players.length)
    (marking : ∃ r ∈ rules.takeWhile (·.type ≠ .ban), r.type = .mute ∨ r.type = .stifle)
    (applied : applyMatchedRules pf i slot rules w₀ = .ok w)
    (stays : ∀ client, client.toNat = slot → .disconnect client ∉ messages)
    (ran : run (deliver pf i) w messages = .ok w') :
    StillSet ((w.fe i).player slot).marks ((w'.fe i).player slot).marks ↔
      ∀ m ∈ messages, ¬ m.Announces (w.fe i).maxPlayers slot := by
  obtain ⟨m, set, marked⟩ := applyMatchedRules_marks pf inside marking applied
  obtain ⟨reset, kept⟩ := run_marks pf stays ran
  rw [marks_getD marked]
  constructor
  · intro still n member announced
    rw [marks_getD (reset ⟨n, member, announced⟩)] at still
    rcases set with muted | stifled
    · exact absurd (still.muted muted) (by decide)
    · exact absurd (still.stifled stifled).1 (by decide)
  · intro none
    rw [marks_getD ((kept none).trans marked)]
    exact ⟨fun muted => muted, fun stifled => ⟨stifled, rfl⟩⟩

end
/-- Claire plays in slot 1. -/
def seatedWorld : World := { sessionWorld with
  frontends := [{ sessionWorld.fe 0 with
    players := [{}, { name := ascii "claire", clientID := 1, connectTime := 1 }] }] }

/-- Claire is muted, and what follows. -/
def muteThen (messages : List ClientMessage) (after : World → World → Prop) : Prop :=
  Yields (applyMatchedRules Platform.plain 0 1 [{ type := .mute }] seatedWorld)
    (fun w => Yields (run (deliver Platform.plain 0) w messages) (after w) fun _ => False) fun _ => False

/-- A new map, on which a neighbour joins. -/
def neighbourJoins : List ClientMessage :=
  [.map ⟨ascii "q2dm2", by decide⟩, .connect { claireEntry with client := 0 }]

theorem claire_undisturbed : muteThen neighbourJoins fun _ _ => True := by
  unfold muteThen
  decide +kernel

theorem marks_stick_iff_claire : ∃ w w', run (deliver Platform.plain 0) w neighbourJoins = .ok w' ∧
    (StillSet ((w.fe 0).player 1).marks ((w'.fe 0).player 1).marks ↔
      ∀ m ∈ neighbourJoins, ¬ m.Announces (w.fe 0).maxPlayers 1) := by
  obtain ⟨w, applied, after⟩ := claire_undisturbed.returns
  obtain ⟨w', ran, -⟩ := after.returns
  refine ⟨w, w', ran, marks_stick_iff Platform.plain (by decide) ?_ applied ?_ ran⟩
  · exact ⟨{ type := .mute }, by decide, .inl rfl⟩
  · intro client _ member
    simp [neighbourJoins] at member

theorem claire_fits : [claireEntry].length < 256 := by decide

/-- The players are listed again, as on every new map. -/
def claireRelisted : List ClientMessage := [.playerList ⟨[claireEntry], claire_fits⟩]

theorem claire_relisted : muteThen claireRelisted fun w w' =>
    ((w.fe 0).player 1).muted = true ∧ ((w'.fe 0).player 1).muted = false := by
  unfold muteThen
  decide +kernel

/-- The list announces the same player, who is muted no more. -/
theorem marks_lost : ¬ ∀ (pf : Platform) (i slot : Nat) (rules : List Rule) (messages : List ClientMessage)
    (w₀ w w' : World), slot < (w₀.fe i).players.length → ((w₀.fe i).player slot).inUse = true →
    (∃ r ∈ rules.takeWhile (·.type ≠ .ban), r.type = .mute ∨ r.type = .stifle) →
    applyMatchedRules pf i slot rules w₀ = .ok w →
    (∀ client : Byte, client.toNat = slot → .disconnect client ∉ messages) →
    run (deliver pf i) w messages = .ok w' →
    StillSet ((w.fe i).player slot).marks ((w'.fe i).player slot).marks := by
  intro promised
  obtain ⟨w, applied, after⟩ := claire_relisted.returns
  obtain ⟨w', ran, before, behind⟩ := after.returns
  have still := promised Platform.plain 0 1 _ claireRelisted seatedWorld w w' (by decide) (by decide)
    ⟨{ type := .mute }, by decide, .inl rfl⟩ applied (fun client _ member => by simp [claireRelisted] at member) ran
  have muted := still.muted before
  rw [show ((w'.fe 0).player 1).marks.muted = ((w'.fe 0).player 1).muted from rfl, behind] at muted
  exact Bool.false_ne_true muted

end Q2Admin
