import Mathlib.Algebra.BigOperators.Group.List.Basic
import Mathlib.Algebra.Group.Hom.Defs
import Mathlib.Algebra.Group.Int.Defs
import Mathlib.Algebra.Group.Prod
import Q2Admin.Slots

/-! The books a frontend keeps on its players: when they connected, their deaths, frags and
suicides, how many there are, and the rows written when they leave. Most handlers overlook all
of that; what the others do is told by sums over the slots. -/

namespace Q2Admin
open Go Lib

/-- Deaths, frags and suicides. -/
abbrev Stats := Int × Int × Int

def Player.stats (p : Player) : Stats := (p.deaths, p.frags, p.suicides)

def PlayerStat.stats (row : PlayerStat) : Stats := (row.deaths, row.frags, row.suicides)

/-- What the books hold on a player. -/
def Player.standing (p : Player) : Int × Stats := (p.connectTime, p.stats)

namespace World
variable (i : Nat) (w : World)

def standings : List (Int × Stats) := (w.fe i).players.map Player.standing

/-- The books of a frontend, and the rows. -/
def books : List (Int × Stats) × Int × List PlayerStat :=
  (w.standings i, (w.fe i).playerCount, w.playerStats)

end World

/-- None of the edits shows in the books. -/
theorem books_overlooks (i : Nat) : Overlooks (World.books i) where
  process w w' frontends rows := by
    rw [World.books, World.standings, World.fe, frontends, rows]
    rfl
  update w j f players count := by
    have kept := w.fe_update_holds (fun fe => fe.players.map Player.standing = w.standings i ∧
      fe.playerCount = (w.fe i).playerCount) (k := i) ⟨rfl, rfl⟩ fun start => by rwa [players, count]
    exact Prod.ext kept.1 (Prod.ext kept.2 rfl)
  edit w j slot f edit := by
    have standings (fe : Frontend) : (fe.updatePlayer slot f).players.map Player.standing =
        fe.players.map Player.standing := map_modify_of_same (fun p => by cases edit <;> rfl) fe.players slot
    have first := w.fe_update_field j i (fun fe => fe.players.map Player.standing) standings
    have second := w.fe_update_field j i (fun fe => fe.playerCount)
      (f := fun fe => fe.updatePlayer slot f) fun _ => rfl
    exact Prod.ext first (Prod.ext second rfl)

/-- The books are as they were if this returns. -/
def Steady (i : Nat) (w : World) (x : Except Fault World) : Prop :=
  Yields x (fun w' => w'.books i = w.books i) fun _ => True

/-! ## Handlers that fill and empty slots -/

/-- The player in the slot has given way to another. -/
structure Replaced (i slot : Nat) (p : Player) (w w' : World) : Prop where
  inside : slot < (w.fe i).players.length
  standings : w'.standings i = (w.standings i).set slot p.standing

namespace Replaced
variable {i slot : Nat} {p : Player} {w w' w'' : World}

theorem of_players (inside : slot < (w.fe i).players.length)
    (players : (w'.fe i).players = (w.fe i).players.set slot p) : Replaced i slot p w w' where
  inside := inside
  standings := by rw [World.standings, players, List.map_set, World.standings]

theorem modify {w : World} (inside : slot < (w.fe i).players.length) (f : Player → Player) :
    Replaced i slot (f ((w.fe i).player slot)) w (w.updatePlayer i slot f) := by
  apply of_players inside
  rw [players_updatePlayer]
  ext1 k
  rw [List.getElem?_modify, List.getElem?_set]
  by_cases here : slot = k
  · subst here
    simp [inside, Frontend.player, List.getD_eq_getElem?_getD]
  · simp [here]

end Replaced

/-- What the books hold on the slots, summed up. -/
def World.slotSum {M : Type} [AddCommGroup M] (g : Int × Stats → M) (i : Nat) (w : World) : M :=
  ((w.standings i).map g).sum

theorem Replaced.slotSum {M : Type} [AddCommGroup M] {g : Int × Stats → M} {i slot : Nat} {p : Player}
    {w w' : World} (replaced : Replaced i slot p w w') : w'.slotSum g i =
      w.slotSum g i + (g p.standing - g ((w.fe i).player slot).standing) := by
  have inside := replaced.inside
  have old := Frontend.player_eq_getElem inside
  rw [World.slotSum, replaced.standings, List.map_set, List.sum_set', World.slotSum, old]
  simp only [World.standings, List.length_map, inside, ↓reduceDIte, List.getElem_map]
  rw [neg_add_eq_sub]

section
variable (i : Nat)

/-- Whoever is removed was in use, and leaves an empty slot. -/
theorem removePlayer_cases (client : Nat) (w : World) :
    (((w.fe i).player client).inUse = false ∧ removePlayer i client w = w) ∨
      ((w.fe i).player client).inUse = true ∧ Replaced i client {} w (removePlayer i client w) ∧
        ((removePlayer i client w).fe i).playerCount = (w.fe i).playerCount - 1 ∧
        (removePlayer i client w).playerStats = (writePlayer i client w).playerStats := by
  rcases removePlayer_players i client w with kept | ⟨used, inside, players, count, rows⟩
  · exact .inl kept
  · exact .inr ⟨used, .of_players inside players, count, rows⟩

variable (pf : Platform)

/-- An entry is passed over for its number, or its player takes a slot with a clean slate. -/
theorem storeEntry_ok {e : PlayerEntry} {w w' : World} (stored : storeEntry i pf w e = .ok w') :
    ((w.fe i).maxPlayers < e.client.toNat ∧ w'.books i = w.books i) ∨
      e.client.toNat ≤ (w.fe i).maxPlayers ∧ ∃ p : Player, p.standing = (w.now.1, 0) ∧
        Replaced i e.client.toNat p w w' ∧ (w'.fe i).playerCount = (w.fe i).playerCount + 1 ∧
        w'.playerStats = w.playerStats := by
  rcases storeEntry_joined i pf stored with ⟨beyond, rfl⟩ | ⟨within, info, id, -, joined⟩
  · exact .inl ⟨beyond, (books_overlooks i).advance i w _⟩
  · exact .inr ⟨within, _, rfl, .of_players joined.inside joined.players, joined.playerCount,
      joined.playerStats⟩

/-- Connecting adds nothing to the books that storing does not. -/
theorem connect_books {e : PlayerEntry} {w w' : World} (handled : handle pf i (.connect e) w = .ok w') :
    ∃ w₁, storeEntry i pf w e = .ok w₁ ∧ w'.books i = w₁.books i := by
  obtain ⟨slot, w₁, -, stored, rfl⟩ := handle_connect i pf handled
  exact ⟨w₁, stored, (books_overlooks i).startConnect i slot w₁⟩

end

/-! ## Obituaries -/

/-- What an obituary counts. A player who dies alone loses a frag. -/
def Frontend.obituaryStats (submatch : Bytes → Bytes → Option (Nat → Bytes)) (obit : Bytes)
    (fe : Frontend) : Stats :=
  match fe.calculateDeath submatch obit with
  | none => 0
  | some death =>
    match death.victim, death.murderer with
    | none, _ => 0
    | some _, none => (1, -1, 1)
    | some _, some _ => (1, 1, 0)

/-- What a print counts: it is an obituary if its level is medium. -/
def Frontend.printStats (submatch : Bytes → Bytes → Option (Nat → Bytes)) (level : Byte) (text : Bytes)
    (fe : Frontend) : Stats :=
  if (level.toNat : Int) = printMedium then fe.obituaryStats submatch text.dropLast else 0

section
variable {M : Type} [AddCommGroup M] (g : Int × Stats → M) (i : Nat)

/-- The slots sum up to so much more, and nothing else in the books has changed. -/
structure Raised (amount : M) (w w' : World) : Prop where
  slotSum : w'.slotSum g i = w.slotSum g i + amount
  playerCount : (w'.fe i).playerCount = (w.fe i).playerCount
  playerStats : w'.playerStats = w.playerStats

theorem Raised.of_books {w w' : World} (same : w'.books i = w.books i) : Raised g i 0 w w' where
  slotSum := by
    rw [add_zero]
    exact congrArg (fun books => (books.1.map g).sum) same
  playerCount := congrArg (fun books => books.2.1) same
  playerStats := congrArg (fun books => books.2.2) same

variable {g} {i}

theorem Raised.trans {a b : M} {w w' w'' : World} (first : Raised g i a w w')
    (second : Raised g i b w' w'') : Raised g i (a + b) w w'' where
  slotSum := by rw [second.slotSum, first.slotSum, add_assoc]
  playerCount := second.playerCount.trans first.playerCount
  playerStats := second.playerStats.trans first.playerStats

theorem atClient_raised {cid : Int} {f : Player → Player} {amount : M} {w : World}
    (raises : ∀ p : Player, g (f p).standing = g p.standing + amount) :
    Yields (atClient i cid f w) (Raised g i amount w) fun _ => True := by
  cases ran : atClient i cid f w with
  | error fault => trivial
  | ok w' =>
    obtain ⟨inside, rfl⟩ := atClient_ok i ran
    have replaced := Replaced.modify inside f
    have count : ((w.updatePlayer i cid.toNat f).fe i).playerCount = (w.fe i).playerCount :=
      World.fe_update_field w i i (fun fe => fe.playerCount) fun _ => rfl
    refine ⟨?_, count, rfl⟩
    rw [replaced.slotSum, raises, add_sub_cancel_left]

theorem recordKDR_raised {cid : Int} {w : World} :
    Yields (recordKDR i cid w) (Raised g i 0 w) fun _ => True :=
  atClient_raised fun _ => (add_zero _).symm

variable {h : Stats →+ M} (additive : ∀ t s d, g (t, s + d) = g (t, s) + h d)
include additive

theorem countSolo_raised (cid : Int) (w : World) :
    Yields (countSolo i cid w) (Raised g i (h (1, -1, 1)) w) fun _ => True := by
  have died : Yields (atClient i cid Player.diedAlone w) (Raised g i (h (1, -1, 1)) w) fun _ => True :=
    atClient_raised fun p => additive p.connectTime p.stats (1, -1, 1)
  apply Yields.bind died
  intro w' _ raised
  exact recordKDR_raised.mono (fun _ kept => add_zero (h (1, -1, 1)) ▸ raised.trans kept) fun _ => id

theorem countDuo_raised (cidV cidM : Int) (w : World) :
    Yields (countDuo i cidV cidM w) (Raised g i (h (1, 1, 0)) w) fun _ => True := by
  have died : Yields (atClient i cidV Player.died w) (Raised g i (h (1, 0, 0)) w) fun _ => True := by
    apply atClient_raised
    intro p
    have more : p.died.standing = (p.connectTime, p.stats + (1, 0, 0)) := by
      simp [Player.standing, Player.stats, Player.died]
    rw [more, additive, Player.standing]
  have scored (w₁ : World) :
      Yields (atClient i cidM Player.scored w₁) (Raised g i (h (0, 1, 0)) w₁) fun _ => True := by
    apply atClient_raised
    intro p
    have more : p.scored.standing = (p.connectTime, p.stats + (0, 1, 0)) := by
      simp [Player.standing, Player.stats, Player.scored]
    rw [more, additive, Player.standing]
  have amount : h (1, 0, 0) + h (0, 1, 0) + 0 + 0 = h (1, 1, 0) := by
    rw [add_zero, add_zero, ← map_add]
    rfl
  apply Yields.bind died
  intro w₁ _ first
  apply Yields.bind (scored w₁)
  intro w₂ _ second
  apply Yields.bind (recordKDR_raised (g := g))
  intro w₃ _ third
  exact recordKDR_raised.mono
    (fun _ fourth => amount ▸ ((first.trans second).trans third).trans fourth) fun _ => id

theorem parseObituary_raised (submatch : Bytes → Bytes → Option (Nat → Bytes)) (obit : Bytes) (w : World) :
    Yields (parseObituary i submatch obit w) (Raised g i (h ((w.fe i).obituaryStats submatch obit)) w)
      fun _ => True := by
  have nothing : Raised g i (h 0) w w := by
    rw [map_zero]
    exact Raised.of_books g i rfl
  unfold parseObituary Frontend.obituaryStats
  cases (w.fe i).calculateDeath submatch obit with
  | none => exact nothing
  | some death =>
    obtain ⟨murderer, victim, means, solo⟩ := death
    cases victim with
    | none => exact nothing
    | some victim =>
      cases murderer with
      | none => exact countSolo_raised additive _ w
      | some murderer => exact countDuo_raised additive _ _ w

theorem onPrint_raised (pf : Platform) (level : Byte) (text : Bytes) (w : World) :
    Yields (onPrint pf i level text w) (Raised g i (h ((w.fe i).printStats pf.submatch level text)) w)
      fun _ => True := by
  have quiet {w' : World} (same : w'.books i = w.books i) : Raised g i (h 0) w w' := by
    rw [map_zero]
    exact Raised.of_books g i same
  unfold onPrint Frontend.printStats
  by_cases empty : text = []
  · rw [if_pos empty]
    trivial
  rw [if_neg empty]
  simp only
  split
  · exact parseObituary_raised additive pf.submatch _ w
  split
  · split
    · exact quiet rfl
    · exact quiet rfl
  split
  · exact quiet ((books_overlooks i).restifleAll pf i _ w)
  · exact quiet rfl

end

/-! ## Messages -/

namespace ClientMessage

/-- The message neither fills nor empties a slot. -/
def KeepsSlots : ClientMessage → Prop
  | connect _ | playerList _ | disconnect _ => False
  | _ => True

/-- What the message counts. -/
def counts (submatch : Bytes → Bytes → Option (Nat → Bytes)) (fe : Frontend) : ClientMessage → Stats
  | print level text => fe.printStats submatch level text.val
  | _ => 0

end ClientMessage

section
variable {M : Type} [AddCommGroup M] {g : Int × Stats → M} {h : Stats →+ M} (pf : Platform) {i : Nat}

theorem handle_raised (additive : ∀ t s d, g (t, s + d) = g (t, s) + h d) {m : ClientMessage}
    (keeps : m.KeepsSlots) (w : World) :
    Yields (handle pf i m w) (Raised g i (h (m.counts pf.submatch (w.fe i))) w) fun _ => True := by
  have quiet (still : m.Quiet) (none : m.counts pf.submatch (w.fe i) = 0) :
      Yields (handle pf i m w) (Raised g i (h (m.counts pf.submatch (w.fe i))) w) fun _ => True := by
    rw [none, map_zero]
    exact ((books_overlooks i).handle i pf still w).mono (fun _ same => Raised.of_books g i same) fun _ => id
  cases m with
  | print level text =>
    have past := (books_overlooks i).advance i w (ClientMessage.payload (.print level text)).length
    have printed := onPrint_raised (i := i) additive pf level text.val (w.advance i
      (ClientMessage.payload (.print level text)).length)
    have same := World.field_advance i w (ClientMessage.payload (.print level text)).length i
      (fun fe => fe.printStats pf.submatch level text.val) fun _ _ => rfl
    apply printed.mono _ fun _ => id
    intro w' raised
    have moved := (Raised.of_books g i past).trans raised
    rw [zero_add, same] at moved
    exact moved
  | playerList players => exact keeps.elim
  | connect player => exact keeps.elim
  | disconnect client => exact keeps.elim
  | _ => exact quiet trivial rfl

end
end Q2Admin
