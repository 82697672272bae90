import Q2Admin.SelectedServer

/-! How many consoles are streamed to the terminal of an SSH session. A link is begun by each
selection of a server, and ended when that server is found to have dropped. -/

namespace Q2Admin
open Go Lib

/-- The terminal is registered once at most, with the server that is managed. -/
structure SSHSession.OneStream (s : SSHSession) : Prop where
  managed : ∀ j, s.terminals j ≠ [] → s.activeFE = some j
  single : ∀ j, (s.terminals j).length ≤ 1

/-- While a session runs, the last `cancel` is for a link with the server that is managed. -/
def SSHSession.Linked (s : SSHSession) : Prop := s.ended = false → ∀ i, s.activeFE = some i →
  ∃ link, s.cancel = some link ∧ s.links[link]? = some i ∧ link ∈ s.terminals i

/-- A server is only selected when there is none, unless the process dies of sending to it. -/
def SSHLib.OneAtATime (lib : SSHLib) (s : SSHSession) (e : SSHEvent) : Prop :=
  ∀ i, lib.wanted s e = some (some i) → s.online i = true →
    s.activeFE = none ∨ Fails ((s.world.fe i).flush lib.platform)

namespace Selection
variable (sel : Selection)

theorem unlink_sublist (link j : Nat) : ((sel.unlink link).terminals j).Sublist (sel.terminals j) := by
  dsimp only [unlink]
  by_cases here : j = sel.links.getD link 0
  · rw [here, Function.update_self]
    exact List.filter_sublist
  · rw [Function.update_of_ne here]

theorem unlinkAll_sublist (j : Nat) : (sel.unlinkAll.terminals j).Sublist (sel.terminals j) := by
  unfold unlinkAll
  induction List.range sel.links.length with
  | nil => exact List.Sublist.refl _
  | cons link rest ih => exact (unlink_sublist _ link j).trans ih

theorem select_terminals_self (i : Nat) : (sel.select i).terminals i = sel.terminals i ++ [sel.links.length] :=
  Function.update_self ..

theorem select_terminals_ne {i j : Nat} (other : j ≠ i) : (sel.select i).terminals j = sel.terminals j :=
  Function.update_of_ne other ..

end Selection

section
variable {lib : SSHLib} {site : SSHSite} {s s' : SSHSession} {e : SSHEvent}

theorem running_of_wanted {found : Option Nat} (wanted : lib.wanted s e = some found) : s.ended = false := by
  obtain ⟨-, -, -, listening, -⟩ := wanted_line lib wanted
  simp only [SSHSession.listening, Bool.and_eq_true, Bool.not_eq_true'] at listening
  exact listening.1.1

theorem Reaches.running {targets : Nat → Prop} (reaches : Reaches site targets s s') (running : s'.ended = false) :
    s.ended = false := by
  by_contra stopped
  simp [reaches.ended (by simpa using stopped)] at running

theorem Effect.linked (effect : Effect lib site s e s') (linked : s.Linked) : s'.Linked := by
  intro running i active
  cases effect with
  | missed found wanted offline selection wizard reaches =>
    rw [selection] at active ⊢
    exact linked (reaches.running running) i active
  | selected j wanted online selection reaches =>
    rw [selection] at active ⊢
    have here : j = i := Option.some.inj active
    subst here
    refine ⟨s.links.length, rfl, ?_, ?_⟩
    · simp [Selection.select]
    · rw [s.select_terminals_self]
      exact List.mem_append_right _ List.mem_cons_self
  | dropped j unasked running' active' selection wizard reaches =>
    rw [selection] at active
    cases active
  | closed unasked ended selection wizard reaches => simp [ended] at running
  | handled unasked handled =>
    rw [handled.selection] at active ⊢
    exact linked (handled.running running) i active
  | elsewhere j fe event became =>
    subst became
    exact linked running i active

theorem linked_always {user : Bytes} {world : World} {files : Files} {events : List SSHEvent}
    (ran : run (sshStep lib site) (newSession user world files) events = .ok s') : s'.Linked :=
  run_invariant SSHSession.Linked
    (fun s e _ linked _ stepped => ((sshStep_effect lib site s e).of_ok stepped).linked linked)
    (by simp [SSHSession.Linked, newSession]) (allowed_all _ events) ran

/-- Without a server there are no streams. -/
theorem SSHSession.OneStream.idle (stream : s.OneStream) (idle : s.activeFE = none) (j : Nat) : s.terminals j = [] := by
  by_contra registered
  exact absurd (stream.managed j registered) (by simp [idle])

/-- The link with the server that has dropped was the only one. -/
theorem SSHSession.OneStream.drop {i : Nat} (stream : s.OneStream) (linked : s.Linked) (running : s.ended = false)
    (active : s.activeFE = some i) (j : Nat) : s.drop.terminals j = [] := by
  obtain ⟨link, cancel, place, registered⟩ := linked running i active
  have home : s.links.getD link 0 = i := by rw [List.getD_eq_getElem?_getD, place, Option.getD_some]
  have unlinked : s.drop.terminals = (s.unlink link).terminals := by rw [Selection.drop, cancel]
  rw [unlinked]
  dsimp only [Selection.unlink]
  by_cases here : j = i
  · rw [here, home, Function.update_self, List.filter_eq_nil_iff]
    intro other member
    obtain ⟨only, all⟩ := List.length_eq_one_iff.mp
      (Nat.le_antisymm (stream.single i) (List.length_pos_of_mem registered))
    rw [all, List.mem_singleton] at registered member
    simp [registered, member]
  · rw [home, Function.update_of_ne here]
    by_contra elsewhere
    exact here (Option.some.inj ((stream.managed j elsewhere).symm.trans active))

theorem Effect.oneStream (effect : Effect lib site s e s') (stream : s.OneStream) (linked : s.Linked)
    (once : lib.OneAtATime s e) (stepped : sshStep lib site s e = .ok s') : s'.OneStream := by
  cases effect with
  | missed found wanted offline selection wizard reaches =>
    refine ⟨fun j => ?_, fun j => ?_⟩
    · rw [selection]
      exact stream.managed j
    · rw [selection]
      exact stream.single j
  | selected i wanted online selection reaches =>
    have idle : s.activeFE = none := by
      rw [← or_false (_ = none)]
      refine (once i wanted online).imp_right fun dies => ?_
      exact (wanted_returns_iff lib site wanted).mp ⟨s', stepped⟩ i rfl online dies
    have others (j : Nat) (other : j ≠ i) : s'.terminals j = [] := by
      rw [selection, s.select_terminals_ne other]
      exact stream.idle idle j
    have here : s'.terminals i = [s.links.length] := by
      rw [selection, s.select_terminals_self, stream.idle idle i, List.nil_append]
    refine ⟨fun j registered => ?_, fun j => ?_⟩
    · by_cases same : j = i
      · rw [selection, same]
        rfl
      · exact absurd (others j same) registered
    · by_cases same : j = i
      · rw [same, here, List.length_singleton]
      · rw [others j same]
        exact Nat.zero_le 1
  | dropped i unasked running active selection wizard reaches =>
    have none (j : Nat) : s'.terminals j = [] := by
      rw [selection]
      exact stream.drop linked running active j
    refine ⟨fun j registered => absurd (none j) registered, fun j => ?_⟩
    rw [none j]
    exact Nat.zero_le 1
  | closed unasked ended selection wizard reaches =>
    have fewer (j : Nat) : (s'.terminals j).Sublist (s.terminals j) := by
      rw [selection]
      exact s.unlinkAll_sublist j
    refine ⟨fun j registered => ?_, fun j => (fewer j).length_le.trans (stream.single j)⟩
    rw [activeFE_of_closed selection]
    refine stream.managed j fun empty => registered ?_
    exact List.sublist_nil.mp (empty ▸ fewer j)
  | handled unasked handled =>
    refine ⟨fun j => ?_, fun j => ?_⟩
    · rw [handled.selection]
      exact stream.managed j
    · rw [handled.selection]
      exact stream.single j
  | elsewhere k fe event became =>
    subst became
    exact ⟨stream.managed, stream.single⟩

/-- In every state of a session one console at most is streamed to its terminal, exactly when no
server is selected while another one is, or the same. -/
theorem one_stream_iff (lib : SSHLib) (site : SSHSite) (user : Bytes) (world : World) (files : Files)
    (events : List SSHEvent) :
    (∀ front s', front <+: events → run (sshStep lib site) (newSession user world files) front = .ok s' →
      s'.OneStream) ↔
      Allowed (sshStep lib site) lib.OneAtATime (newSession user world files) events := by
  rw [← run_always_iff (fun s : SSHSession => s.OneStream ∧ s.Linked) lib.OneAtATime
    ⟨⟨by simp [newSession], by simp [newSession]⟩, by simp [SSHSession.Linked, newSession]⟩]
  · constructor
    · exact fun always front s' initial ran => ⟨always front s' initial ran, linked_always ran⟩
    · exact fun always front s' initial ran => (always front s' initial ran).1
  · intro s e s' _ both once stepped
    have effect := (sshStep_effect lib site s e).of_ok stepped
    exact ⟨effect.oneStream both.1 both.2 once stepped, effect.linked both.2⟩
  · intro s e _ both twice
    simp only [SSHLib.OneAtATime, not_forall, not_or] at twice
    obtain ⟨i, wanted, online, managed, sends⟩ := twice
    obtain ⟨s', stepped⟩ := (wanted_returns_iff lib site wanted).mpr fun j here _ =>
      Option.some.inj here ▸ sends
    refine ⟨s', stepped, fun spared => ?_⟩
    obtain ⟨k, active⟩ := Option.ne_none_iff_exists'.mp managed
    obtain ⟨link, -, -, registered⟩ := both.2 (running_of_wanted wanted) k active
    rcases ((sshStep_effect lib site s e).of_ok stepped).of_wanted lib site wanted with
      ⟨offline, -, -⟩ | ⟨j, -, -, selection, -⟩
    · simp [offline i rfl] at online
    by_cases same : k = j
    · have twice := spared.1.single j
      rw [selection, s.select_terminals_self, List.length_append, List.length_singleton] at twice
      have once := List.length_pos_of_mem (same ▸ registered)
      omega
    · have kept : s'.terminals k = s.terminals k := by rw [selection, s.select_terminals_ne same]
      have here := spared.1.managed k (kept ▸ List.ne_nil_of_mem registered)
      rw [selection] at here
      exact same (Option.some.inj here).symm

/-- The same server is selected twice, and streamed twice from then on. -/
theorem two_streams : ¬ ∀ front s', front <+: [typed "server ffa", typed "server ffa"] →
    run (sshStep .plain twoOwners) claireSession front = .ok s' → s'.OneStream := by
  intro always
  have twice : Yields (run (sshStep .plain twoOwners) claireSession [typed "server ffa", typed "server ffa"])
      (fun s' => s'.terminals 0 = [0, 1]) fun _ => False := by decide +kernel
  obtain ⟨s', ran, registered⟩ := twice.returns
  have single := (always _ s' (List.prefix_refl _) ran).single 0
  simp [registered] at single

end
end Q2Admin
