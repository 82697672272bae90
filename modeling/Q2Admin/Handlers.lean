import Q2Admin.Session

/-! Every handler of `ParseMessage` keeps the world, each with what it needs for that. -/

namespace Q2Admin
open Go Lib

section
variable (pf : Platform) (i : Nat)

/-! ## Obituaries -/

theorem validPlayerID_iff (fe : Frontend) (cid : Int) : fe.validPlayerID cid = true ↔ fe.InRange cid := by
  simp [Frontend.validPlayerID, Frontend.InRange]

theorem inRange_of_frames {w w' : World} (same : w'.frames = w.frames) (cid : Int) :
    (w'.fe i).InRange cid ↔ (w.fe i).InRange cid := by
  unfold Frontend.InRange
  rw [World.length_players_of_frames same]

theorem atClient_kept (w : World) (cid : Int) {f : Player → Player}
    (same : ∀ p, (f p).clientID = p.clientID ∨ (f p).clientID = cid) :
    Kept i ((w.fe i).InRange cid) w (atClient i cid f w) := by
  unfold atClient
  by_cases valid : (w.fe i).validPlayerID cid = true
  · rw [if_pos valid]
    apply Kept.ok
    apply World.Keeps.updatePlayer
    intro p _ range
    rcases same p with own | new
    · rwa [own]
    · rw [new]
      exact (validPlayerID_iff _ _).mp valid
  · rw [if_neg valid]
    exact fun given => valid ((validPlayerID_iff _ _).mpr given.1)

/-- The player a name leads to is one of the players. -/
theorem findPlayerByName_mem {fe : Frontend} {name : Bytes} {slot : Nat}
    (found : fe.findPlayerByName name = some slot) : fe.player slot ∈ fe.players := by
  obtain ⟨inside, -⟩ := List.findIdx?_eq_some_iff_getElem.mp found
  exact Frontend.player_mem inside

theorem calculateDeath_mem {fe : Frontend} {submatch : Bytes → Bytes → Option (Nat → Bytes)}
    {obit : Bytes} {death : Death} (judged : fe.calculateDeath submatch obit = some death) :
    (∀ slot, death.victim = some slot → fe.player slot ∈ fe.players) ∧
      ∀ slot, death.murderer = some slot → fe.player slot ∈ fe.players := by
  unfold Frontend.calculateDeath at judged
  split at judged
  · simp at judged
  split at judged
  · cases judged
    exact ⟨fun slot => findPlayerByName_mem, fun slot => findPlayerByName_mem⟩
  split at judged
  · cases judged
    exact ⟨fun slot => findPlayerByName_mem, by simp⟩
  · simp at judged

theorem recordKDR_kept (w : World) (cid : Int) :
    Kept i ((w.fe i).InRange cid) w (recordKDR i cid w) :=
  atClient_kept i w cid fun _ => .inl rfl

theorem countSolo_kept (w : World) (cid : Int) :
    Kept i ((w.fe i).InRange cid) w (countSolo i cid w) := by
  apply Kept.bind (atClient_kept i w cid (f := Player.diedAlone) fun _ => .inl rfl)
  intro w' keeps
  exact (recordKDR_kept i w' cid).weaken fun given _ => (inRange_of_frames i keeps.frames cid).mpr given

theorem countDuo_kept (w : World) (cidV cidM : Int) :
    Kept i ((w.fe i).InRange cidV ∧ (w.fe i).InRange cidM) w (countDuo i cidV cidM w) := by
  apply Kept.bind ((atClient_kept i w cidV (f := Player.died) fun _ => .inl rfl).weaken fun given _ => given.1)
  intro w₁ first
  apply Kept.bind ((atClient_kept i w₁ cidM (f := Player.scored) fun _ => .inl rfl).weaken
    fun given _ => (inRange_of_frames i first.frames cidM).mpr given.2)
  intro w₂ second
  have same := second.frames.trans first.frames
  apply Kept.bind ((recordKDR_kept i w₂ cidV).weaken fun given _ =>
    (inRange_of_frames i same cidV).mpr given.1)
  intro w₃ third
  exact (recordKDR_kept i w₃ cidM).weaken fun given _ =>
    (inRange_of_frames i (third.frames.trans same) cidM).mpr given.2

theorem parseObituary_kept (submatch : Bytes → Bytes → Option (Nat → Bytes)) (obit : Bytes) (w : World) :
    Kept i True w (parseObituary i submatch obit w) := by
  unfold parseObituary
  cases judged : (w.fe i).calculateDeath submatch obit with
  | none => exact World.Keeps.refl
  | some death =>
    obtain ⟨victims, murderers⟩ := calculateDeath_mem judged
    obtain ⟨murderer, victim, means, solo⟩ := death
    cases victim with
    | none => exact World.Keeps.refl
    | some victim =>
      have range (equipped : (w.fe i).Equipped) := equipped.ids _ (victims victim rfl)
      cases murderer with
      | none => exact (countSolo_kept i w _).weaken fun _ equipped => range equipped
      | some murderer =>
        exact (countDuo_kept i w _ _).weaken fun _ equipped =>
          ⟨range equipped, equipped.ids _ (murderers murderer rfl)⟩

/-! ## Prints -/

theorem restifle_keeps (slot : Nat) (w : World) : w.Keeps (restifle pf i slot w) := by
  simp only [restifle]
  split
  · exact World.Keeps.queue i (Queues.mutePlayer pf.q2 _ _)
  · exact World.Keeps.refl

theorem restifleAll_keeps (slots : List Nat) (w : World) :
    w.Keeps (slots.foldl (fun w slot => restifle pf i slot w) w) := by
  induction slots generalizing w with
  | nil => exact World.Keeps.refl
  | cons slot rest ih => exact (restifle_keeps pf i slot w).trans (ih _)

theorem onPrint_kept (level : Byte) (text : Bytes) (w : World) :
    Kept i (text ≠ []) w (onPrint pf i level text w) := by
  unfold onPrint
  by_cases empty : text = []
  · rw [if_pos empty]
    exact fun given => given.1 empty
  rw [if_neg empty]
  simp only
  split
  · exact (parseObituary_kept i pf.submatch _ w).weaken fun _ _ => trivial
  split
  · split
    · exact Kept.ok (World.Keeps.spawn _)
    · exact World.Keeps.refl
  split
  · exact restifleAll_keeps pf i _ w
  · exact World.Keeps.refl

/-! ## Players coming and going -/

theorem addPlayer_keeps (slot : Nat) (w : World) : w.Keeps (addPlayer i slot w) := by
  simp only [addPlayer]
  have inserted : w.Keeps w.now.2.insert.2 := World.Keeps.now.trans World.Keeps.insert
  split
  · exact inserted
  · exact inserted.trans (World.Keeps.editPlayer fun _ => rfl)

theorem storePlayer_kept (w : World) (client : Byte) (p : Player) (own : p.clientID = client.toNat) :
    Kept i ((w.fe i).InRange client.toNat) w (storePlayer i client p w) := by
  apply Kept.bind (atClient_kept i w client.toNat (f := fun _ => p) fun _ => .inr own)
  intro w' _
  have counted : w'.Keeps (w'.update i fun fe => { fe with playerCount := fe.playerCount + 1 }) :=
    World.Keeps.update rfl (fun equipped => { equipped with }) id id
  exact counted.trans (addPlayer_keeps i client.toNat _)

theorem onPlayer_kept (client : Byte) (userinfo version : Bytes) (w : World) :
    Yields (onPlayer pf i client userinfo version w) (fun result => w.Keeps result.2) fun _ =>
      ¬ ((WholePairs userinfo ∧ client.toNat < (w.fe i).maxPlayers) ∧ (w.fe i).Equipped) := by
  unfold onPlayer
  split
  · exact World.Keeps.refl
  cases read : userinfoMap userinfo with
  | error fault =>
    intro given
    obtain ⟨info, whole⟩ := (userinfoMap_ok_iff userinfo).mpr given.1.1
    simp [read] at whole
  | ok info =>
    have clock : w.Keeps w.now.2 := World.Keeps.now
    have stored := storePlayer_kept i w.now.2 client
      (newPlayer pf.keys client userinfo version info w.now.1) rfl
    apply Yields.bind (stored.mono (fun _ keeps => clock.trans keeps) ?_)
    · exact fun w' _ keeps => keeps
    · intro fault missing given
      have small : (client.toNat : Int) < (w.fe i).players.length := by
        have seats := given.2.seats
        have below := given.1.2
        omega
      exact missing ⟨⟨Int.natCast_nonneg _, small⟩, clock.equipped i given.2⟩

theorem startConnect_keeps (slot : Option Nat) (w : World) : w.Keeps (startConnect i slot w) := by
  cases slot with
  | none => exact World.Keeps.refl
  | some slot => exact World.Keeps.spawn _

theorem writePlayer_frontends (client : Nat) (w : World) :
    (writePlayer i client w).frontends = w.frontends := by
  simp only [writePlayer]
  split
  · rfl
  · split <;> rfl

theorem removePlayer_keeps (client : Nat) (w : World) : w.Keeps (removePlayer i client w) := by
  simp only [removePlayer]
  split
  · exact World.Keeps.refl
  split
  · exact World.Keeps.refl
  have written : w.Keeps (writePlayer i client w) :=
    World.Keeps.of_frontends (writePlayer_frontends i client w)
  have freed : (writePlayer i client w).Keeps
      ((writePlayer i client w).updatePlayer i client fun _ => {}) := by
    apply World.Keeps.updatePlayer
    intro p _ range
    -- the zero value has client number 0, a slot there is since one is freed
    exact ⟨Int.le_refl 0, Int.lt_of_le_of_lt range.1 range.2⟩
  have counted := World.Keeps.update (j := i) (f := fun fe => { fe with playerCount := fe.playerCount - 1 })
    (w := (writePlayer i client w).updatePlayer i client fun _ => {}) rfl (fun equipped => { equipped with }) id id
  exact (written.trans freed).trans counted

theorem onDisconnect_keeps (clientnum : Byte) (w : World) : w.Keeps (onDisconnect i clientnum w) := by
  unfold onDisconnect
  split
  · exact World.Keeps.refl
  split
  · exact World.Keeps.refl
  · exact removePlayer_keeps i _ w

theorem onPlayerUpdate_kept (clientnum : Byte) (userinfo : Bytes) (w : World) :
    Kept i (WholePairs userinfo) w (onPlayerUpdate pf i clientnum userinfo w) := by
  simp only [onPlayerUpdate]
  split
  · exact World.Keeps.refl
  rename_i slot _
  split
  · exact World.Keeps.refl
  cases read : userinfoMap userinfo with
  | error fault =>
    intro given
    obtain ⟨info, whole⟩ := (userinfoMap_ok_iff userinfo).mpr given.1
    simp [read] at whole
  | ok info =>
    have set : w.Keeps (w.updatePlayer i slot (Player.setUserinfo info (md5Hash pf.keys userinfo))) :=
      World.Keeps.editPlayer fun _ => rfl
    apply Kept.of_keeps set
    simp only [Bind.bind, Except.bind]
    split
    · apply Kept.of_keeps (World.Keeps.randomBytes 12)
      exact Kept.ok (World.Keeps.queue i (Queues.setupPlayerCookie pf.q2 _ _))
    · exact World.Keeps.refl

theorem onMap_keeps (mapname : Bytes) (w : World) : w.Keeps (onMap i mapname w) :=
  World.Keeps.update rfl (fun equipped => { equipped with }) id id

/-! ## Player commands -/

theorem sayTo_keeps (p : Option Player) (level : Int) (text : Bytes) (w : World) :
    w.Keeps (w.sayTo pf i p level text) := World.Keeps.queue i (Queues.sayPlayer pf.q2 p level text)

theorem teleportTo_keeps (slot dest : Nat) (w : World) : w.Keeps (teleportTo pf i slot dest w) := by
  -- from the last update back to the notice
  refine World.Keeps.trans ?_ (World.Keeps.update rfl (fun equipped => { equipped with }) id id)
  refine World.Keeps.trans ?_ (World.Keeps.editPlayer fun _ => rfl)
  refine World.Keeps.trans ?_ World.Keeps.now
  refine World.Keeps.trans ?_ (World.Keeps.queue i (Queues.stuffPlayer pf.q2 _ _))
  exact World.Keeps.queue i (Queues.sayEveryone pf.q2 _ _)

theorem onTeleport_keeps (player : Byte) (target : Bytes) (w : World) :
    w.Keeps (onTeleport pf i player target w) := by
  simp only [onTeleport]
  split
  · exact World.Keeps.refl
  split
  · exact sayTo_keeps pf i _ _ _ w
  split
  · exact World.Keeps.now.trans (sayTo_keeps pf i _ _ _ w.now.2)
  split
  · exact World.Keeps.refl
  · exact teleportTo_keeps pf i _ _ w

theorem acceptInvite_keeps (slot : Nat) (available now : Int) (w : World) :
    w.Keeps (acceptInvite i slot available now w) := by
  simp only [acceptInvite]
  refine World.Keeps.trans ?_ (World.Keeps.update rfl (fun equipped => { equipped with }) id id)
  exact World.Keeps.editPlayer fun _ => rfl

theorem invitePlayer_keeps (slot : Nat) (w : World) : w.Keeps (invitePlayer pf i slot w) := by
  apply World.Keeps.now.trans
  simp only [invitePlayer]
  split
  · split
    · exact acceptInvite_keeps i slot 3 _ _
    · exact sayTo_keeps pf i _ _ _ _
  split
  · exact sayTo_keeps pf i _ _ _ _
  · exact acceptInvite_keeps i slot _ _ _

theorem onInvite_kept (client : Byte) (w : World) :
    Kept i (((w.fe i).findPlayer client.toNat).isSome = true) w (onInvite pf i client w) := by
  simp only [onInvite]
  split
  · exact sayTo_keeps pf i _ _ _ w
  split
  · exact sayTo_keeps pf i _ _ _ w
  cases found : (w.fe i).findPlayer client.toNat with
  | none => exact fun given => by simp at given
  | some slot => exact invitePlayer_keeps pf i slot w

end
end Q2Admin
