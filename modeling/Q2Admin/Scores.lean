import Q2Admin.DirectLookup
import Q2Admin.PlayerCount
import Q2Admin.PlayerRows
import Q2Admin.Statistics

/-! The score of every player. A death goes to the victim, and a frag to the murderer or from
the victim, so over all slots and rows deaths, frags and suicides balance. The ratio that is
stored with a player is that of the player's own counters. -/

namespace Q2Admin
open Go Lib

/-- The formula of `CalculateKDR` on the player's own counters. -/
def Player.ratio (p : Player) : Rat :=
  let swapped := p.frags < p.deaths
  let nom : Rat := if swapped then p.deaths else p.frags
  let denom : Rat := if swapped then p.frags else p.deaths
  let multiplier : Rat := if swapped then -1 else 1
  if denom = 0 then |nom| * multiplier else |nom / denom| * multiplier

/-- A death is a frag of somebody, or a frag less and a suicide of the same player. -/
def Stats.Balanced (stats : Stats) : Prop := stats.1 = stats.2.1 + 2 * stats.2.2

/-- A name is one character or more, as the groups of the patterns say. -/
structure Naming (submatch : Bytes → Bytes → Option (Nat → Bytes)) : Prop where
  solo : ∀ test ∈ solo, ∀ obit groups, submatch (ascii test.matchstr) obit = some groups → groups 1 ≠ []
  duo : ∀ test ∈ duo, ∀ obit groups, submatch (ascii test.matchstr) obit = some groups →
    groups 1 ≠ [] ∧ groups 2 ≠ []

/-- The slot of the victim or of the murderer. -/
def Frontend.Concerns (fe : Frontend) (submatch : Bytes → Bytes → Option (Nat → Bytes)) (obit : Bytes)
    (slot : Nat) : Prop :=
  ∃ death, fe.calculateDeath submatch obit = some death ∧
    (death.victim = some slot ∨ death.murderer = some slot)

/-- What is stored with the player is the ratio of the counters. -/
def Player.Rated (p : Player) : Prop := p.kdr = p.ratio

/-- Players are in the slots of their numbers, each with the ratio of its counters. -/
structure Frontend.Scored (fe : Frontend) : Prop where
  slotted : fe.Slotted
  ratios : ∀ slot, (fe.player slot).inUse = true → (fe.player slot).Rated

/-- The messages that change scores: an obituary is a print. -/
def ClientMessage.OfScores : ClientMessage → Prop
  | print _ _ | connect _ | disconnect _ => True
  | _ => False

namespace Frontend
variable {fe : Frontend} {slot : Nat}

theorem inside_of_used (used : (fe.player slot).inUse = true) : slot < fe.players.length := by
  by_contra outside
  rw [player_outside outside] at used
  exact absurd used (by decide)

theorem player_updatePlayer (fe : Frontend) {slot : Nat} (inside : slot < fe.players.length) (f : Player → Player)
    (k : Nat) : (fe.updatePlayer slot f).player k = if k = slot then f (fe.player slot) else fe.player k := by
  by_cases here : k = slot
  · rw [if_pos here, here]
    exact player_modify inside rfl
  · rw [if_neg here]
    exact player_modify_ne here rfl

namespace Slotted
variable (slotted : fe.Slotted)
include slotted

/-- An edit of a player in use that leaves number and connect time. -/
theorem updatePlayer (used : (fe.player slot).inUse = true) {f : Player → Player}
    (number : ∀ p, (f p).clientID = p.clientID) (joined : ∀ p, (f p).connectTime = p.connectTime) :
    (fe.updatePlayer slot f).Slotted := by
  have inside := inside_of_used used
  have length : (fe.updatePlayer slot f).players.length = fe.players.length := List.length_modify ..
  have still : (f (fe.player slot)).inUse = true := by
    rw [Player.inUse, joined]
    exact used
  refine ⟨length.trans slotted.sized, fun k below => ?_, fun k below => ?_⟩
  all_goals
    rw [length] at below
    rw [fe.player_updatePlayer inside]
    by_cases here : k = slot
  · rw [if_pos here, number, here]
    exact fun _ => slotted.numbered slot inside used
  · rw [if_neg here]
    exact slotted.numbered k below
  · rw [if_pos here, still]
    simp
  · rw [if_neg here]
    exact slotted.free k below

theorem findPlayer (used : (fe.player slot).inUse = true) : fe.findPlayer slot = some slot := by
  have inside := inside_of_used used
  have numbered : fe.Numbered := fun slot used => slotted.numbered slot (inside_of_used used) used
  have there : fe.playerSlotInUse slot = true := by simp [playerSlotInUse, validPlayerID, inside, used]
  rw [numbered.findPlayer_eq, if_pos there, Int.toNat_natCast]

theorem calculateKDR (used : (fe.player slot).inUse = true) : fe.calculateKDR slot = (fe.player slot).ratio := by
  have inside := inside_of_used used
  have sized := slotted.sized
  have within : ¬ ((slot : Int) < 0 ∨ (fe.maxPlayers : Int) ≤ slot) := by omega
  rw [Frontend.calculateKDR, if_neg within, slotted.findPlayer used]
  rfl

/-- A name leads to a player in use, since a free slot has none. -/
theorem findPlayerByName {name : Bytes} (given : name ≠ []) (found : fe.findPlayerByName name = some slot) :
    (fe.player slot).inUse = true ∧ (fe.player slot).clientID = slot := by
  obtain ⟨inside, named, -⟩ := List.findIdx?_eq_some_iff_getElem.mp found
  rw [← player_eq_getElem inside, decide_eq_true_eq] at named
  cases used : (fe.player slot).inUse with
  | true => exact ⟨rfl, slotted.numbered slot inside used⟩
  | false =>
    rw [slotted.free slot inside used] at named
    exact absurd named.symm given

end Slotted
end Frontend

/-! ## Obituaries -/

/-- Only slots that are touched have changed, and those in use still are. -/
structure Edited (i : Nat) (touched : Nat → Prop) (w w' : World) : Prop where
  slotted : (w'.fe i).Slotted
  used : ∀ slot, ((w.fe i).player slot).inUse = true → ((w'.fe i).player slot).inUse = true
  kept : ∀ slot, ¬ touched slot → (w'.fe i).player slot = (w.fe i).player slot
  host : w'.host = w.host

section
variable {i slot : Nat}

namespace Edited
variable {touched more : Nat → Prop} {w w' w'' : World}

theorem trans (first : Edited i touched w w') (second : Edited i more w' w'') :
    Edited i (fun slot => touched slot ∨ more slot) w w'' where
  slotted := second.slotted
  used slot used := second.used slot (first.used slot used)
  kept slot none := (second.kept slot fun hit => none (.inr hit)).trans
    (first.kept slot fun hit => none (.inl hit))
  host := second.host.trans first.host

theorem mono (edited : Edited i touched w w') (wider : ∀ slot, touched slot → more slot) : Edited i more w w' where
  slotted := edited.slotted
  used := edited.used
  kept slot none := edited.kept slot fun hit => none (wider slot hit)
  host := edited.host

end Edited

/-- Where a client number is that of its slot, only that slot is written to. -/
theorem atClient_edited {f : Player → Player} {w : World} (slotted : (w.fe i).Slotted)
    (used : ((w.fe i).player slot).inUse = true) (number : ∀ p, (f p).clientID = p.clientID)
    (joined : ∀ p, (f p).connectTime = p.connectTime) :
    Yields (atClient i slot f w) (fun w' => Edited i (· = slot) w w' ∧
      (w'.fe i).player slot = f ((w.fe i).player slot)) fun _ => True := by
  have inside := Frontend.inside_of_used used
  have valid : (w.fe i).validPlayerID slot = true := (validPlayerID_iff _ _).mpr ⟨by omega, by omega⟩
  have after : (w.updatePlayer i slot f).fe i = (w.fe i).updatePlayer slot f :=
    World.fe_update_self w (live_of_slot inside) _
  have same : ((w.updatePlayer i slot f).fe i).player slot = f ((w.fe i).player slot) := by
    rw [after, Frontend.player_updatePlayer _ inside, if_pos rfl]
  rw [atClient, if_pos valid, Int.toNat_natCast]
  refine ⟨⟨?_, fun k was => ?_, fun k other => ?_, rfl⟩, same⟩
  · rw [after]
    exact slotted.updatePlayer used number joined
  · rw [after, Frontend.player_updatePlayer _ inside]
    split
    · rw [Player.inUse, joined]
      exact used
    · exact was
  · rw [after, Frontend.player_updatePlayer _ inside, if_neg other]

theorem recordKDR_edited {w : World} (slotted : (w.fe i).Slotted)
    (used : ((w.fe i).player slot).inUse = true) :
    Yields (recordKDR i slot w) (fun w' => Edited i (· = slot) w w' ∧ ((w'.fe i).player slot).Rated)
      fun _ => True := by
  have set := atClient_edited (f := fun p => { p with kdr := (w.fe i).calculateKDR slot }) slotted used
    (fun _ => rfl) fun _ => rfl
  apply set.mono _ fun _ => id
  rintro w' ⟨edited, same⟩
  refine ⟨edited, ?_⟩
  rw [same]
  exact slotted.calculateKDR used

theorem countSolo_edited {w : World} (slotted : (w.fe i).Slotted)
    (used : ((w.fe i).player slot).inUse = true) :
    Yields (countSolo i slot w) (fun w' => Edited i (· = slot) w w' ∧ ((w'.fe i).player slot).Rated)
      fun _ => True := by
  apply Yields.bind (atClient_edited (f := Player.diedAlone) slotted used (fun _ => rfl) fun _ => rfl)
  rintro w₁ - ⟨died, -⟩
  apply (recordKDR_edited died.slotted (died.used slot used)).mono _ fun _ => id
  rintro w' ⟨recorded, rated⟩
  exact ⟨(died.trans recorded).mono fun k hit => hit.elim id id, rated⟩

theorem countDuo_edited {victim murderer : Nat} {w : World} (slotted : (w.fe i).Slotted)
    (usedV : ((w.fe i).player victim).inUse = true) (usedM : ((w.fe i).player murderer).inUse = true) :
    Yields (countDuo i victim murderer w) (fun w' => Edited i (fun k => k = victim ∨ k = murderer) w w' ∧
      ((w'.fe i).player victim).Rated ∧ ((w'.fe i).player murderer).Rated) fun _ => True := by
  apply Yields.bind (atClient_edited (f := Player.died) slotted usedV (fun _ => rfl) fun _ => rfl)
  rintro w₁ - ⟨died, -⟩
  apply Yields.bind (atClient_edited (f := Player.scored) died.slotted (died.used _ usedM) (fun _ => rfl) fun _ => rfl)
  rintro w₂ - ⟨scored, -⟩
  have counted := died.trans scored
  apply Yields.bind (recordKDR_edited counted.slotted (counted.used _ usedV))
  rintro w₃ - ⟨first, ratedV⟩
  have half := counted.trans first
  apply (recordKDR_edited half.slotted (half.used _ usedM)).mono _ fun _ => id
  rintro w' ⟨second, ratedM⟩
  refine ⟨(half.trans second).mono fun k => by tauto, ?_, ratedM⟩
  -- the second ratio is not written over the first, unless they are one
  by_cases same : victim = murderer
  · rw [same]
    exact ratedM
  · rw [second.kept victim same]
    exact ratedV

end

section
variable {i : Nat} {submatch : Bytes → Bytes → Option (Nat → Bytes)}

/-- Victim and murderer are players in use, in the slots of their numbers. -/
theorem calculateDeath_used {fe : Frontend} {obit : Bytes} {death : Death} (naming : Naming submatch)
    (slotted : fe.Slotted) (judged : fe.calculateDeath submatch obit = some death) :
    ∀ slot, death.victim = some slot ∨ death.murderer = some slot →
      (fe.player slot).inUse = true ∧ (fe.player slot).clientID = slot := by
  intro slot concerned
  unfold Frontend.calculateDeath at judged
  split at judged
  · cases judged
  split at judged
  next mod groups first =>
    obtain ⟨test, member, -, matched⟩ := firstObit_some first
    obtain ⟨victim, murderer⟩ := naming.duo test member obit groups matched
    cases judged
    rcases concerned with found | found
    · exact slotted.findPlayerByName victim found
    · exact slotted.findPlayerByName murderer found
  split at judged
  next mod groups first =>
    obtain ⟨test, member, -, matched⟩ := firstObit_some first
    cases judged
    rcases concerned with found | found
    · exact slotted.findPlayerByName (naming.solo test member obit groups matched) found
    · cases found
  · cases judged

/-- An obituary changes the players it concerns, and leaves the others. -/
theorem parseObituary_edited {obit : Bytes} {w : World} (naming : Naming submatch)
    (slotted : (w.fe i).Slotted) : Yields (parseObituary i submatch obit w) (fun w' =>
      Edited i ((w.fe i).Concerns submatch obit) w w' ∧
        ∀ slot, (w'.fe i).player slot = (w.fe i).player slot ∨ ((w'.fe i).player slot).Rated) fun _ => True := by
  have nothing : Edited i ((w.fe i).Concerns submatch obit) w w ∧
      ∀ slot, (w.fe i).player slot = (w.fe i).player slot ∨ ((w.fe i).player slot).Rated :=
    ⟨⟨slotted, fun _ => id, fun _ _ => rfl, rfl⟩, fun _ => .inl rfl⟩
  unfold parseObituary
  cases judged : (w.fe i).calculateDeath submatch obit with
  | none => exact nothing
  | some death =>
    have players := calculateDeath_used naming slotted judged
    obtain ⟨murderer, victim, means, solo⟩ := death
    cases victim with
    | none => exact nothing
    | some victim =>
      obtain ⟨usedV, numberV⟩ := players victim (.inl rfl)
      cases murderer with
      | none =>
        simp only [numberV]
        apply (countSolo_edited slotted usedV).mono _ fun _ => id
        rintro w' ⟨edited, rated⟩
        refine ⟨edited.mono fun k hit => ⟨_, judged, .inl (by rw [hit])⟩, fun k => ?_⟩
        by_cases hit : k = victim
        · exact .inr (hit ▸ rated)
        · exact .inl (edited.kept k hit)
      | some murderer =>
        obtain ⟨usedM, numberM⟩ := players murderer (.inr rfl)
        simp only [numberV, numberM]
        apply (countDuo_edited slotted usedV usedM).mono _ fun _ => id
        rintro w' ⟨edited, ratedV, ratedM⟩
        refine ⟨edited.mono fun k hit => ⟨_, judged, ?_⟩, fun k => ?_⟩
        · exact hit.imp (fun same => by rw [same]) fun same => by rw [same]
        · by_cases hit : k = victim ∨ k = murderer
          · exact .inr (hit.elim (· ▸ ratedV) (· ▸ ratedM))
          · exact .inl (edited.kept k hit)

/-! ## Messages -/

variable {w w' : World}

theorem Frontend.Slotted.of_players {fe fe' : Frontend} (slotted : fe.Slotted)
    (players : fe'.players = fe.players) (max : fe'.maxPlayers = fe.maxPlayers) : fe'.Slotted := by
  have same (slot : Nat) : fe'.player slot = fe.player slot := by
    rw [Frontend.player, players, Frontend.player]
  refine ⟨?_, ?_, ?_⟩
  · rw [players, max]
    exact slotted.sized
  · simp only [players, same]
    exact slotted.numbered
  · simp only [players, same]
    exact slotted.free

theorem Frontend.Scored.of_players {fe fe' : Frontend} (scored : fe.Scored)
    (players : fe'.players = fe.players) (max : fe'.maxPlayers = fe.maxPlayers) : fe'.Scored where
  slotted := scored.slotted.of_players players max
  ratios slot := by
    rw [Frontend.player, players]
    exact scored.ratios slot

theorem Edited.of_players {touched : Nat → Prop} (slotted : (w.fe i).Slotted)
    (players : (w'.fe i).players = (w.fe i).players) (max : (w'.fe i).maxPlayers = (w.fe i).maxPlayers)
    (host : w'.host = w.host) : Edited i touched w w' := by
  have same (slot : Nat) : (w'.fe i).player slot = (w.fe i).player slot := by
    rw [Frontend.player, players, Frontend.player]
  exact ⟨slotted.of_players players max, fun slot used => by rwa [same], fun slot _ => same slot, host⟩

theorem restifleAll_host (pf : Platform) (slots : List Nat) (w : World) :
    (slots.foldl (fun w slot => restifle pf i slot w) w).host = w.host := by
  induction slots generalizing w with
  | nil => rfl
  | cons slot rest ih =>
    have one : (restifle pf i slot w).host = w.host := by
      simp only [restifle]
      split <;> rfl
    exact (ih _).trans one

theorem restifleAll_players (pf : Platform) (slots : List Nat) (w : World) :
    ((slots.foldl (fun w slot => restifle pf i slot w) w).fe i).players = (w.fe i).players := by
  induction slots generalizing w with
  | nil => rfl
  | cons slot rest ih =>
    have one : ((restifle pf i slot w).fe i).players = (w.fe i).players := by
      simp only [restifle]
      split
      · exact players_update (fun fe => (Queues.mutePlayer pf.q2 _ _).players fe) i i w
      · rfl
    exact (ih _).trans one

/-- A print changes the players it concerns, if it is an obituary. -/
theorem onPrint_edited {pf : Platform} (level : Byte) (text : Bytes) (naming : Naming pf.submatch)
    (slotted : (w.fe i).Slotted) : Yields (onPrint pf i level text w) (fun w' =>
      Edited i ((w.fe i).Concerns pf.submatch text.dropLast) w w' ∧
        ∀ slot, (w'.fe i).player slot = (w.fe i).player slot ∨ ((w'.fe i).player slot).Rated) fun _ => True := by
  have quiet {w' : World} (players : (w'.fe i).players = (w.fe i).players)
      (max : (w'.fe i).maxPlayers = (w.fe i).maxPlayers) (host : w'.host = w.host) :
      Edited i ((w.fe i).Concerns pf.submatch text.dropLast) w w' ∧
        ∀ slot, (w'.fe i).player slot = (w.fe i).player slot ∨ ((w'.fe i).player slot).Rated :=
    ⟨Edited.of_players slotted players max host, fun slot => .inl (by rw [Frontend.player, players, Frontend.player])⟩
  simp only [onPrint]
  split
  · trivial
  split
  · exact parseObituary_edited naming slotted
  split
  · split <;> exact quiet rfl rfl rfl
  split
  · have frames := (restifleAll_keeps pf i ((w.fe i).getPlayerFromPrint text.dropLast) w).frames
    exact quiet (restifleAll_players pf _ w) (World.field_of_frames frames i (fun fe => fe.maxPlayers) fun _ => rfl)
      (restifleAll_host pf _ w)
  · exact quiet rfl rfl rfl

/-- A record that is put into a slot. -/
theorem Frontend.Scored.set {fe fe' : Frontend} {slot : Nat} {p : Player} (scored : fe.Scored)
    (inside : slot < fe.players.length) (players : fe'.players = fe.players.set slot p)
    (max : fe'.maxPlayers = fe.maxPlayers)
    (fits : p = {} ∨ p.inUse = true ∧ p.clientID = slot ∧ p.Rated) : fe'.Scored := by
  have length : fe'.players.length = fe.players.length := by rw [players, List.length_set]
  have here := Frontend.player_set inside players
  have there := fun k (other : k ≠ slot) => Frontend.player_set_ne other players
  refine ⟨⟨by rw [length, max, scored.slotted.sized], fun k below used => ?_, fun k below free => ?_⟩,
    fun k used => ?_⟩
  all_goals by_cases at_slot : k = slot
  · subst at_slot
    rw [here] at used ⊢
    rcases fits with rfl | ⟨-, number, -⟩
    · cases used
    · exact number
  · rw [there k at_slot] at used ⊢
    exact scored.slotted.numbered k (length ▸ below) used
  · subst at_slot
    rw [here] at free ⊢
    rcases fits with empty | ⟨used, -, -⟩
    · exact empty
    · rw [used] at free
      cases free
  · rw [there k at_slot] at free ⊢
    exact scored.slotted.free k (length ▸ below) free
  · subst at_slot
    rw [here] at used ⊢
    rcases fits with rfl | ⟨-, -, rated⟩
    · cases used
    · exact rated
  · rw [there k at_slot] at used ⊢
    exact scored.ratios k used

/-- Whoever joins takes a free slot with no frags and no deaths. -/
theorem storeEntry_scored {pf : Platform} {e : PlayerEntry} (scored : (w.fe i).Scored) (joins : e.Joins i w)
    (stored : storeEntry i pf w e = .ok w') : (w'.fe i).Scored := by
  have max := maxPlayers_storeEntry i pf stored
  rcases storeEntry_joined i pf stored with ⟨-, rfl⟩ | ⟨within, info, id, -, joined⟩
  · exact scored.of_players (players_advance i w _) max
  · refine scored.set joined.inside joined.players max (.inr ⟨?_, rfl, ?_⟩)
    · exact decide_eq_true (joins within).2
    · show (0 : Rat) = _
      simp [Player.ratio, newPlayer, Player.recordedAs]

theorem onDisconnect_scored (client : Byte) (scored : (w.fe i).Scored) :
    ((onDisconnect i client w).fe i).Scored := by
  have frames := (onDisconnect_keeps i client w).frames
  have max := World.field_of_frames frames i (fun fe => fe.maxPlayers) fun _ => rfl
  rcases onDisconnect_cases i client w with same | removed
  · rwa [same]
  rw [removed] at max ⊢
  rcases removePlayer_players i client.toNat w with ⟨-, same⟩ | ⟨-, inside, players, -⟩
  · rwa [same]
  · exact scored.set inside players max (.inl rfl)

theorem onDisconnect_appends (client : Byte) (w : World) :
    w.playerStats <+: (onDisconnect i client w).playerStats ∧ (onDisconnect i client w).host = w.host := by
  have written (slot : Nat) : w.playerStats <+: (writePlayer i slot w).playerStats ∧
      (writePlayer i slot w).host = w.host := by
    simp only [writePlayer]
    split
    · exact ⟨List.prefix_rfl, rfl⟩
    split
    · exact ⟨List.prefix_rfl, rfl⟩
    · exact ⟨List.prefix_append _ _, rfl⟩
  rcases onDisconnect_cases i client w with same | removed
  · rw [same]
    exact ⟨List.prefix_rfl, rfl⟩
  rw [removed, removePlayer]
  split
  · exact ⟨List.prefix_rfl, rfl⟩
  split
  · exact ⟨List.prefix_rfl, rfl⟩
  · exact written client.toNat

/-- What a message of the run leaves behind. -/
structure Counted (i : Nat) (amount : Stats) (w w' : World) : Prop where
  scored : (w'.fe i).Scored
  host : w'.host = w.host
  rows : w.playerStats <+: w'.playerStats
  recorded : w'.recorded i = w.recorded i + amount

theorem Counted.trans {a b : Stats} {w'' : World} (first : Counted i a w w') (second : Counted i b w' w'') :
    Counted i (a + b) w w'' where
  scored := second.scored
  host := second.host.trans first.host
  rows := first.rows.trans second.rows
  recorded := by
    calc w''.recorded i
      _ = w'.recorded i + b := second.recorded
      _ = w.recorded i + a + b := by rw [first.recorded]
      _ = w.recorded i + (a + b) := add_assoc _ _ _

theorem Frontend.Slotted.free_stats {fe : Frontend} {slot : Nat} (slotted : fe.Slotted)
    (free : (fe.player slot).inUse = false) : (fe.player slot).stats = 0 := by
  by_cases inside : slot < fe.players.length
  · rw [slotted.free slot inside free]
    rfl
  · rw [Frontend.player_outside inside]
    rfl

theorem deliver_print {pf : Platform} {level : Byte} {text : WireString} (naming : Naming pf.submatch)
    (slotted : (w.fe i).Slotted) (delivered : deliver pf i w (.print level text) = .ok w') :
    Edited i ((w.fe i).Concerns pf.submatch text.val.dropLast) w w' ∧
      ∀ slot, (w'.fe i).player slot = (w.fe i).player slot ∨ ((w'.fe i).player slot).Rated := by
  simp only [deliver, handle, World.advance_advance] at delivered
  have past := players_advance i w (1 + (ClientMessage.payload (.print level text)).length)
  have max := w.field_advance i (1 + (ClientMessage.payload (.print level text)).length) i
    (fun fe => fe.maxPlayers) fun _ _ => rfl
  have death := w.field_advance i (1 + (ClientMessage.payload (.print level text)).length) i
    (fun fe => fe.Concerns pf.submatch text.val.dropLast) fun _ _ => rfl
  obtain ⟨edited, rated⟩ := (onPrint_edited level text.val naming (slotted.of_players past max)).of_ok delivered
  have first : Edited i ((w.fe i).Concerns pf.submatch text.val.dropLast) w
      (w.advance i (1 + (ClientMessage.payload (.print level text)).length)) :=
    Edited.of_players slotted past max rfl
  rw [death] at edited
  refine ⟨(first.trans edited).mono fun _ hit => hit.elim id id, fun slot => ?_⟩
  rw [← player_advance i w (1 + (ClientMessage.payload (.print level text)).length) slot]
  exact rated slot

theorem deliver_counted {pf : Platform} {m : ClientMessage} (naming : Naming pf.submatch)
    (inserts : ∀ n, (w.host.insertID n).isSome = true) (scored : (w.fe i).Scored) (kind : m.OfScores)
    (joins : m.Joins pf i w) (delivered : deliver pf i w m = .ok w') :
    Counted i (m.counts pf.submatch ((w.advance i 1).fe i)) w w' := by
  have past (count : Nat) : ((w.advance i count).fe i).Scored := scored.of_players (players_advance i w count)
    (w.field_advance i count i (fun fe => fe.maxPlayers) fun _ _ => rfl)
  have recorded (spares : m.Spares pf i (w.advance i 1)) :
      w'.recorded i = w.recorded i + m.counts pf.submatch ((w.advance i 1).fe i) := by
    rw [handle_recorded pf spares delivered, recorded_of_books ((books_overlooks i).advance i w 1)]
  cases m with
  | print level text =>
    obtain ⟨edited, rated⟩ := deliver_print naming scored.slotted delivered
    have raised := (handle_raised pf snd_additive (m := .print level text) trivial (w.advance i 1)).of_ok delivered
    refine ⟨⟨edited.slotted, fun slot used => ?_⟩, edited.host, ?_, recorded trivial⟩
    · rcases rated slot with same | new
      · rw [same] at used ⊢
        exact scored.ratios slot used
      · exact new
    · rw [raised.playerStats]
      exact List.prefix_rfl
  | connect e =>
    obtain ⟨known, w₁, -, stored, rfl⟩ := handle_connect i pf delivered
    have spares : e.Spares i (w.advance i 1) := fun within =>
      (past 1).slotted.free_stats (joins within).1
    have done := storeEntry_scored (past 1) joins stored
    have rows : w₁.playerStats = w.playerStats := by
      rcases storeEntry_joined i pf stored with ⟨-, rfl⟩ | ⟨-, info, id, -, joined⟩
      · rfl
      · exact joined.playerStats
    have host : w₁.host = w.host := congrArg Prod.fst (storeEntry_setting i pf stored)
    cases known with
    | none => exact ⟨done, host, rows ▸ List.prefix_rfl, recorded spares⟩
    | some slot => exact ⟨done.of_players rfl rfl, host, rows ▸ List.prefix_rfl, recorded spares⟩
  | disconnect client =>
    have can : CanWrite i (w.advance i 1) client.toNat := by
      intro used _
      have sized := (past 1).slotted.sized
      exact ⟨sized ▸ Frontend.inside_of_used used, inserts _⟩
    have counted := recorded can
    cases delivered
    obtain ⟨rows, host⟩ := onDisconnect_appends (i := i) client ((w.advance i 1).advance i 1)
    have again := (past 1).of_players (players_advance i (w.advance i 1) 1)
      ((w.advance i 1).field_advance i 1 i (fun fe => fe.maxPlayers) fun _ _ => rfl)
    exact ⟨onDisconnect_scored client again, host, rows, counted⟩
  | _ => exact kind.elim

/-! ## The balance -/

theorem Stats.Balanced.add {a b : Stats} (first : Stats.Balanced a) (second : Stats.Balanced b) :
    Stats.Balanced (a + b) := by
  simp only [Stats.Balanced, Prod.fst_add, Prod.snd_add] at *
  omega

theorem counts_balanced (submatch : Bytes → Bytes → Option (Nat → Bytes)) (fe : Frontend) (m : ClientMessage) :
    Stats.Balanced (m.counts submatch fe) := by
  have obituary (obit : Bytes) : Stats.Balanced (fe.obituaryStats submatch obit) := by
    unfold Frontend.obituaryStats
    split
    · rfl
    split <;> rfl
  cases m with
  | print level text =>
    simp only [ClientMessage.counts, Frontend.printStats]
    split
    · exact obituary text.val.dropLast
    · rfl
  | _ => rfl

/-- The run so far: everything is in order, and what is recorded has grown by a balanced amount. -/
theorem run_counted {pf : Platform} {messages : List ClientMessage} (naming : Naming pf.submatch)
    (inserts : ∀ n, (w.host.insertID n).isSome = true) (scored : (w.fe i).Scored)
    (kinds : ∀ m ∈ messages, m.OfScores)
    (joins : Allowed (deliver pf i) (fun w m => m.Joins pf i w) w messages)
    (ran : run (deliver pf i) w messages = .ok w') : ∃ amount, Stats.Balanced amount ∧ Counted i amount w w' := by
  induction messages generalizing w with
  | nil =>
    obtain rfl : w = w' := Except.ok.inj ran
    exact ⟨0, rfl, scored, rfl, List.prefix_rfl, (add_zero _).symm⟩
  | cons m rest ih =>
    obtain ⟨w₁, first, later⟩ := run_cons_ok ran
    have one := deliver_counted naming inserts scored (kinds m List.mem_cons_self) joins.1 first
    obtain ⟨amount, balanced, others⟩ := ih (one.host ▸ inserts) one.scored
      (fun n member => kinds n (List.mem_cons_of_mem m member)) (joins.2 w₁ first) later
    exact ⟨_, (counts_balanced pf.submatch ((w.advance i 1).fe i) m).add balanced, one.trans others⟩

theorem slotSum_stats (w : World) : w.slotSum Prod.snd i = ((w.fe i).players.map Player.stats).sum := by
  rw [World.slotSum, World.standings, List.map_map]
  rfl

/-- On every run of prints, players joining free slots and players leaving, from a start
without scores: deaths are frags and twice the suicides over all slots and all rows that were
written, everybody in use has the ratio of their counters, and another print leaves whoever is
neither its victim nor its murderer. -/
theorem scores_balance {pf : Platform} {messages : List ClientMessage} (naming : Naming pf.submatch)
    (inserts : ∀ n, (w.host.insertID n).isSome = true) (scored : (w.fe i).Scored)
    (zero : ∀ p ∈ (w.fe i).players, p.stats = 0) (kinds : ∀ m ∈ messages, m.OfScores)
    (joins : Allowed (deliver pf i) (fun w m => m.Joins pf i w) w messages)
    (ran : run (deliver pf i) w messages = .ok w') :
    (∃ rows, w'.playerStats = w.playerStats ++ rows ∧
      Stats.Balanced (((w'.fe i).players.map Player.stats).sum + (rows.map PlayerStat.stats).sum)) ∧
    (∀ slot, ((w'.fe i).player slot).inUse = true →
      ((w'.fe i).player slot).kdr = ((w'.fe i).player slot).ratio) ∧
    ∀ level text w'', deliver pf i w' (.print level text) = .ok w'' → ∀ slot,
      ¬ (w'.fe i).Concerns pf.submatch text.val.dropLast slot → (w''.fe i).player slot = (w'.fe i).player slot := by
  obtain ⟨amount, balanced, counted⟩ := run_counted naming inserts scored kinds joins ran
  obtain ⟨rows, appended⟩ := counted.rows
  have nothing : w.slotSum Prod.snd i = 0 := by
    rw [slotSum_stats]
    exact List.sum_eq_zero (by simpa using zero)
  have all : ((w'.fe i).players.map Player.stats).sum + (rows.map PlayerStat.stats).sum = amount := by
    have recorded := counted.recorded
    rw [World.recorded, World.recorded, nothing, slotSum_stats, rowStats, rowStats, ← appended, List.map_append,
      List.sum_append, zero_add, add_left_comm] at recorded
    exact add_left_cancel recorded
  refine ⟨⟨rows, appended.symm, all ▸ balanced⟩, counted.scored.ratios, ?_⟩
  intro level text w'' delivered slot other
  exact (deliver_print naming counted.scored.slotted delivered).1.kept slot other

end
/-- A platform that understands two kinds of obituaries. -/
def railsPlatform : Platform := { Platform.plain with
  submatch := fun pattern text =>
    let victim (words : Bytes) := (textBefore words text).filter (· ≠ [])
    if pattern = ascii "(.+) suicides" then (victim (ascii " suicides")).map fun name _ => name
    else if pattern = ascii "(.+) was railed by (.+)" then do
      let name ← victim (ascii " was railed by ")
      let other := text.drop (name.length + 15)
      if other = [] then none else some fun group => if group = 1 then name else other
    else none }

/-- Bob rails Claire, who dies once more by her own hand, and leaves. -/
def claireRailed : List ClientMessage := [
  .connect claireEntry,
  .connect ⟨0, ⟨ascii "\\name\\bob", by decide⟩, claireEntry.version⟩,
  .print 1 ⟨ascii "claire was railed by bob\n", by decide⟩,
  .print 1 ⟨ascii "claire suicides\n", by decide⟩,
  .disconnect 1]

theorem claire_railed : Yields (run (deliver railsPlatform 0) sessionWorld claireRailed)
    (fun w => w.playerStats.map PlayerStat.stats = [(2, -1, 1)] ∧
      (w.fe 0).players.map Player.stats = [(0, 1, 0), 0]) fun _ => False := by
  decide +kernel

theorem rails_naming : Naming railsPlatform.submatch := by
  have named {words text name : Bytes} (found : (textBefore words text).filter (· ≠ []) = some name) :
      name ≠ [] := by
    obtain ⟨-, given⟩ := Option.filter_eq_some_iff.mp found
    simpa using given
  have groups {pattern text : Bytes} {groups : Nat → Bytes}
      (matched : railsPlatform.submatch pattern text = some groups) :
      groups 1 ≠ [] ∧ (pattern ≠ ascii "(.+) suicides" → groups 2 ≠ []) := by
    simp only [railsPlatform] at matched
    split at matched
    · obtain ⟨name, found, rfl⟩ := Option.map_eq_some_iff.mp matched
      exact ⟨named found, fun other => absurd ‹_› other⟩
    split at matched
    · obtain ⟨name, found, rest⟩ := Option.bind_eq_some_iff.mp matched
      split at rest
      · cases rest
      · cases rest
        exact ⟨named found, fun _ => ‹_›⟩
    · cases matched
  have apart : ∀ test ∈ duo, ascii test.matchstr ≠ ascii "(.+) suicides" := by decide +kernel
  exact ⟨fun _ _ _ _ matched => (groups matched).1,
    fun test member _ _ matched => ⟨(groups matched).1, (groups matched).2 (apart test member)⟩⟩

theorem claireRailed_joins : Allowed (deliver railsPlatform 0) (fun w m => m.Joins railsPlatform 0 w)
    sessionWorld claireRailed := by
  decide +kernel

theorem sessionWorld_scored : (sessionWorld.fe 0).Scored := by
  have free : ∀ slot, (sessionWorld.fe 0).player slot = {} := fun
    | 0 | 1 | _ + 2 => rfl
  refine ⟨⟨rfl, fun slot _ used => ?_, fun slot _ _ => free slot⟩, fun slot used => ?_⟩
  all_goals
    rw [free slot] at used
    cases used

theorem scores_balance_claire : ∃ w', run (deliver railsPlatform 0) sessionWorld claireRailed = .ok w' ∧
    (∃ rows, w'.playerStats = sessionWorld.playerStats ++ rows ∧
      Stats.Balanced (((w'.fe 0).players.map Player.stats).sum + (rows.map PlayerStat.stats).sum)) := by
  obtain ⟨w', ran, -⟩ := claire_railed.returns
  refine ⟨w', ran, (scores_balance rails_naming (fun _ => rfl) sessionWorld_scored ?_ ?_ claireRailed_joins ran).1⟩
  · decide
  · simp [claireRailed, ClientMessage.OfScores]

end Q2Admin
