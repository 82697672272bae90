import Q2Admin.PlayerCount

/-! The fields of a player that are read off the userinfo. A player who joins has them from
the userinfo that is stored; an update brings new ones and leaves the stored userinfo. -/

namespace Q2Admin
open Go Lib

/-- The derived fields belong to the stored userinfo. -/
structure Player.Derived (keys : KeyLib) (p : Player) : Prop where
  hash : p.userInfoHash = md5Hash keys p.userinfo
  map : Q2Admin.userinfoMap p.userinfo = .ok p.userinfoMap
  name : p.name = p.userinfoMap.at (ascii "name")
  cookie : p.cookie = p.userinfoMap.at (ascii "cl_cookie")
  fov : p.fov = (atoi (p.userinfoMap.at (ascii "fov"))).getD 0

/-- The fields of every player in use are derived. -/
def AllDerived (keys : KeyLib) (i : Nat) (w : World) : Prop :=
  ∀ p ∈ (w.fe i).players, p.inUse = true → p.Derived keys

/-- The message updates a player in use to a userinfo with another hash. -/
def ClientMessage.Renews (keys : KeyLib) (i : Nat) (w : World) : ClientMessage → Prop
  | playerUpdate client userinfo => ∃ slot, (w.fe i).findPlayer client.toNat = some slot ∧
      md5Hash keys userinfo.val ≠ ((w.fe i).player slot).userInfoHash
  | _ => False

theorem newPlayer_derived (keys : KeyLib) (client : Byte) {userinfo : Bytes} (version : Bytes)
    {info : StringMap} (now : Int) (id : Option Int) (read : userinfoMap userinfo = .ok info) :
    ((newPlayer keys client userinfo version info now).recordedAs id).Derived keys :=
  ⟨rfl, read, rfl, rfl, rfl⟩

section
variable {pf : Platform} {i : Nat} {w w' : World}

theorem AllDerived.of_players (derived : AllDerived pf.keys i w)
    (same : (w'.fe i).players = (w.fe i).players) : AllDerived pf.keys i w' := by
  rw [AllDerived, same]
  exact derived

theorem AllDerived.of_free (free : ∀ p ∈ (w.fe i).players, p.inUse = false) : AllDerived pf.keys i w := by
  intro p member used
  rw [free p member] at used
  cases used

theorem AllDerived.set {slot : Nat} {p : Player} (derived : AllDerived pf.keys i w)
    (players : (w'.fe i).players = (w.fe i).players.set slot p)
    (fresh : p.inUse = true → p.Derived pf.keys) : AllDerived pf.keys i w' := by
  intro q member used
  rw [players] at member
  rcases List.mem_or_eq_of_mem_set member with old | rfl
  · exact derived q old used
  · exact fresh used

theorem storeEntry_derived {e : PlayerEntry} (derived : AllDerived pf.keys i w)
    (stored : storeEntry i pf w e = .ok w') : AllDerived pf.keys i w' := by
  rcases storeEntry_joined i pf stored with ⟨-, rfl⟩ | ⟨-, info, id, read, joined⟩
  · exact derived.of_players (players_advance i w _)
  · exact derived.set joined.players fun _ => newPlayer_derived _ _ _ _ _ read

theorem onDisconnect_derived (client : Byte) (derived : AllDerived pf.keys i w) :
    AllDerived pf.keys i (onDisconnect i client w) := by
  rcases onDisconnect_cases i client w with same | removed
  · rwa [same]
  rw [removed]
  rcases removePlayer_players i client.toNat w with ⟨-, same⟩ | ⟨-, -, players, -⟩
  · rwa [same]
  · exact derived.set players fun used => absurd used (by decide)

/-- An update spoils the fields if it is not passed over: the userinfo stays what it was, and
its hash with it. -/
theorem onPlayerUpdate_spoils {client : Byte} {userinfo : Bytes} {slot : Nat} (derived : AllDerived pf.keys i w)
    (found : (w.fe i).findPlayer client.toNat = some slot)
    (other : md5Hash pf.keys userinfo ≠ ((w.fe i).player slot).userInfoHash) (whole : WholePairs userinfo) :
    ∃ w', onPlayerUpdate pf i client userinfo w = .ok w' ∧ ¬ AllDerived pf.keys i w' := by
  obtain ⟨inside, -, used⟩ := findPlayer_used found
  obtain ⟨info, read⟩ := (userinfoMap_ok_iff userinfo).mpr whole
  cases updated : onPlayerUpdate pf i client userinfo w with
  | error fault =>
    simp only [onPlayerUpdate, found, if_neg other, read, Bind.bind, Except.bind] at updated
    split at updated <;> cases updated
  | ok w' =>
    refine ⟨w', rfl, fun still => ?_⟩
    rcases onPlayerUpdate_players i updated with ⟨same, -⟩ | ⟨slot', info', found', -, -, players⟩
    · exact other (same slot found)
    obtain rfl : slot = slot' := Option.some.inj (found.symm.trans found')
    have here := Frontend.player_mem inside
    have changed : ((w.fe i).player slot).setUserinfo info' (md5Hash pf.keys userinfo) ∈ (w'.fe i).players := by
      have still : slot < (w'.fe i).players.length := by rw [players, List.length_modify]; exact inside
      exact Frontend.player_modify inside players ▸ Frontend.player_mem still
    exact other ((still _ changed used).hash.trans (derived _ here used).hash.symm)

/-- A message about players keeps the fields derived unless it renews them. -/
theorem deliver_derived {m : ClientMessage} (kind : m.OfPlayers) (derived : AllDerived pf.keys i w)
    (old : ¬ m.Renews pf.keys i w) (delivered : deliver pf i w m = .ok w') : AllDerived pf.keys i w' := by
  have past (count : Nat) {w : World} (derived : AllDerived pf.keys i w) :
      AllDerived pf.keys i (w.advance i count) := derived.of_players (players_advance i w count)
  cases m with
  | connect e =>
    obtain ⟨known, w₁, -, stored, rfl⟩ := handle_connect i pf delivered
    have done := storeEntry_derived (past 1 derived) stored
    cases known with
    | none => exact done
    | some slot => exact done.of_players rfl
  | playerList players =>
    simp only [deliver, handle, deliverPlayers_eq_run i pf] at delivered
    exact run_invariant (AllDerived pf.keys i) (fun _ _ _ derived _ => storeEntry_derived derived)
      (past 1 (past 1 derived)) (allowed_all _ _) delivered
  | disconnect client =>
    cases delivered
    exact onDisconnect_derived client (past 1 (past 1 derived))
  | playerUpdate client userinfo =>
    simp only [deliver, handle, World.advance_advance] at delivered
    rcases onPlayerUpdate_players i delivered with ⟨-, rfl⟩ | ⟨slot, info, found, -, other, -⟩
    · exact past _ derived
    · rw [findPlayer_advance] at found
      rw [player_advance] at other
      exact absurd ⟨slot, found, other⟩ old
  | _ => exact kind.elim

/-- On any messages about players, the fields are derived in every state on the way exactly
when no player in use is updated to a userinfo with another hash. -/
theorem derived_iff {messages : List ClientMessage} (start : AllDerived pf.keys i w)
    (kinds : ∀ m ∈ messages, m.OfPlayers)
    (whole : ∀ client userinfo, .playerUpdate client userinfo ∈ messages → WholePairs userinfo.val) :
    (∀ front w', front <+: messages → run (deliver pf i) w front = .ok w' → AllDerived pf.keys i w') ↔
      Allowed (deliver pf i) (fun w m => ¬ m.Renews pf.keys i w) w messages := by
  apply run_always_iff (AllDerived pf.keys i) _ start
  · intro w m w' member derived old delivered
    exact deliver_derived (kinds m member) derived old delivered
  · intro w m member derived renews
    rw [not_not] at renews
    cases m with
    | playerUpdate client userinfo =>
      obtain ⟨slot, found, other⟩ := renews
      let past := w.advance i (1 + (ClientMessage.payload (.playerUpdate client userinfo)).length)
      have spoiled := onPlayerUpdate_spoils (w := past) (derived.of_players (players_advance i w _))
        ((findPlayer_advance i w _ _).trans found) (player_advance i w _ slot ▸ other) (whole client userinfo member)
      simpa only [deliver, handle, World.advance_advance] using spoiled
    | _ => exact renews.elim

end
/-- Claire connects and widens her view. -/
def claireWidens : List ClientMessage := [
  .connect claireEntry,
  .playerUpdate 1 ⟨ascii "\\name\\claire\\fov\\110", by decide⟩]

theorem claire_widened : Yields (run (deliver Platform.plain 0) sessionWorld claireWidens)
    (fun w' => ∃ p ∈ (w'.fe 0).players, p.inUse = true ∧
      p.userInfoHash ≠ md5Hash Platform.plain.keys p.userinfo) fun _ => False := by
  decide +kernel

theorem derived_iff_claire :
    (∀ front w', front <+: claireWidens → run (deliver Platform.plain 0) sessionWorld front = .ok w' →
      AllDerived Platform.plain.keys 0 w') ↔
    Allowed (deliver Platform.plain 0) (fun w m => ¬ m.Renews Platform.plain.keys 0 w) sessionWorld
      claireWidens := by
  apply derived_iff
  · exact AllDerived.of_free (by decide)
  · simp [claireWidens, ClientMessage.OfPlayers]
  · intro client userinfo member
    obtain ⟨-, rfl⟩ : client = 1 ∧ userinfo = _ := by simpa [claireWidens] using member
    decide

/-- The hash is that of the new userinfo, the userinfo is the old one. -/
theorem derived_spoiled : ¬ ∀ (pf : Platform) (i : Nat) (w w' : World) (messages : List ClientMessage),
    (∀ p ∈ (w.fe i).players, p.inUse = false) → (∀ m ∈ messages, m.OfPlayers) →
    (∀ client userinfo, .playerUpdate client userinfo ∈ messages → WholePairs userinfo.val) →
    run (deliver pf i) w messages = .ok w' → AllDerived pf.keys i w' := by
  intro promised
  obtain ⟨w', ran, p, member, used, other⟩ := claire_widened.returns
  have derived := promised Platform.plain 0 sessionWorld w' claireWidens (by decide)
    (by simp [claireWidens, ClientMessage.OfPlayers]) (fun client userinfo member => by
      obtain ⟨-, rfl⟩ : client = 1 ∧ userinfo = _ := by simpa [claireWidens] using member
      decide) ran
  exact other (derived p member used).hash

end Q2Admin
