import Q2Admin.Occupants
import Q2Admin.TeleportTargets

/-! Arrivals by teleport. Every frontend counts them on the records of the others, so its
own count depends on what the connections of all the others do. -/

namespace Q2Admin
open Go Lib

section
variable (pf : Platform)

/-- Where a message sends its player, if it does. -/
def World.sends (w : World) : Nat × ClientMessage → Option Nat
  | (i, .teleport client target) =>
    if ((w.fe i).findPlayer client.toNat).isSome ∧ (w.fe i).allowTeleport = true ∧ target.val ≠ [] then
      w.frontends.findIdx? fun f => pf.equalFold f.name target.val
    else none
  | _ => none

/-- What a message adds to the arrivals of frontend `j`. -/
def arrivalsAt (j : Nat) (w : World) (e : Nat × ClientMessage) : Int :=
  if w.sends pf e = some j then 1 else 0

variable {pf} {w w' : World} {i j : Nat}

/-- Reading a message makes no difference to where it sends its player. -/
theorem sends_advance (e : Nat × ClientMessage) (w : World) (count : Nat) :
    (w.advance i count).sends pf e = w.sends pf e := by
  obtain ⟨k, m⟩ := e
  cases m with
  | teleport client target =>
    have found : ((w.advance i count).fe k).findPlayer client.toNat = (w.fe k).findPlayer client.toNat :=
      w.field_advance i count k (fun fe => fe.findPlayer client.toNat) fun _ _ => rfl
    have allowed : ((w.advance i count).fe k).allowTeleport = (w.fe k).allowTeleport :=
      w.field_advance i count k (fun fe => fe.allowTeleport) fun _ _ => rfl
    have names : (w.advance i count).frontends.map (fun f => f.name) = w.frontends.map fun f => f.name :=
      map_modify_of_same (f := fun fe => { fe with message := fe.message.advance count }) (fun _ => rfl) w.frontends i
    have first : (w.advance i count).frontends.findIdx? (fun f => pf.equalFold f.name target.val) =
        w.frontends.findIdx? fun f => pf.equalFold f.name target.val := by
      have lookup := congrArg (List.findIdx? fun name => pf.equalFold name target.val) names
      rwa [List.findIdx?_map, List.findIdx?_map] at lookup
    simp only [World.sends, found, allowed, first]
  | _ => rfl

/-- The one frontend a player is sent to counts it. -/
theorem onTeleport_arrivals {client : Byte} {target : WireString} (live : j < w.frontends.length) :
    ((onTeleport pf i client target.val w).fe j).teleportCount =
      (w.fe j).teleportCount + arrivalsAt pf j w (i, .teleport client target) := by
  cases found : (w.fe i).findPlayer client.toNat with
  | none => simp [arrivalsAt, World.sends, onTeleport, found]
  | some slot =>
    cases allowed : (w.fe i).allowTeleport with
    | false => simp [arrivalsAt, World.sends, onTeleport, found, allowed, sayTo_count]
    | true =>
      by_cases named : target.val = []
      · -- the list of destinations is said, and nobody moves
        simp only [arrivalsAt, World.sends, onTeleport, found, allowed, named, Bool.not_true, Bool.false_eq_true,
          ↓reduceIte, sayTo_count, ne_eq, not_true_eq_false, and_false, reduceCtorEq, Int.add_zero]
        rfl
      · cases first : w.frontends.findIdx? fun f => pf.equalFold f.name target.val with
        | none => simp [arrivalsAt, World.sends, onTeleport, found, allowed, named, first]
        | some dest =>
          simp [arrivalsAt, World.sends, onTeleport, found, allowed, named, first, teleportTo_count live, eq_comm]

/-- A message adds to the arrivals what it sends there. -/
theorem deliver_arrivals {m : ClientMessage} (live : j < w.frontends.length) (delivered : deliver pf i w m = .ok w') :
    (w'.fe j).teleportCount = (w.fe j).teleportCount + arrivalsAt pf j w (i, m) := by
  have elsewhere (stays : ¬ m.Teleports) (nowhere : w.sends pf (i, m) = none) :
      (w'.fe j).teleportCount = (w.fe j).teleportCount + arrivalsAt pf j w (i, m) := by
    have works : w.WorksBy AnyEdit False i w' := (deliver_working stays w).of_ok delivered
    rw [works.arrivals (fun may => may) j, arrivalsAt, nowhere]
    exact (Int.add_zero _).symm
  cases m with
  | teleport client target =>
    have past (count : Nat) (w : World) : ((w.advance i count).fe j).teleportCount = (w.fe j).teleportCount :=
      w.field_advance i count j (fun fe => fe.teleportCount) fun _ _ => rfl
    have length (count : Nat) (w : World) : (w.advance i count).frontends.length = w.frontends.length :=
      World.length_update w i _
    obtain rfl := Except.ok.inj delivered
    rw [onTeleport_arrivals (by rwa [length, length]), past, past]
    simp only [arrivalsAt, sends_advance]
  | _ => exact elsewhere (fun may => may) rfl

variable (pf) in
/-- Whatever the frontends send, in whatever order: each has counted the players that were
sent to it by the others, or by itself, and nobody else. -/
theorem arrivals_counted (events : List (Nat × ClientMessage)) (live : j < w.frontends.length)
    (ran : run (fun w e => deliver pf e.1 w e.2) w events = .ok w') :
    (w'.fe j).teleportCount =
      (w.fe j).teleportCount + total (fun w e => deliver pf e.1 w e.2) (arrivalsAt pf j) w events := by
  have allLive : Allowed (fun w e => deliver pf e.1 w e.2) (fun w _ => j < w.frontends.length) w events := by
    refine allowed_of_good (fun w => j < w.frontends.length) ?_ (fun _ _ live _ => live) live (allowed_all w events)
    intro w e w' live _ delivered
    have works : w.WorksBy AnyEdit True e.1 w' := (deliver_working (fun _ => trivial) w).of_ok delivered
    rwa [works.length]
  exact run_raises (fun w => (w.fe j).teleportCount) (fun _ _ _ live delivered => deliver_arrivals live delivered)
    allLive ran

end

/-! ## A wandering player -/

theorem empty_wired : (0 : Byte) ∉ [] := by decide

theorem away_wired : (0 : Byte) ∉ ascii "away" := by decide

theorem nowhere_wired : (0 : Byte) ∉ ascii "nowhere" := by decide

/-- Claire asks where she can go, goes away, and asks for a place that does not exist. -/
def wandering : List (Nat × ClientMessage) := [
  (0, .teleport 1 ⟨[], empty_wired⟩),
  (0, .teleport 1 ⟨ascii "away", away_wired⟩),
  (0, .teleport 1 ⟨ascii "nowhere", nowhere_wired⟩)]

theorem wandering_runs : Yields (run (fun w e => deliver Platform.plain e.1 w e.2) teleportWorld wandering)
    (fun w => (w.fe 1).teleportCount = 1) fun _ => False := by
  decide +kernel

theorem arrivals_counted_wandering :
    total (fun w e => deliver Platform.plain e.1 w e.2) (arrivalsAt Platform.plain 1) teleportWorld wandering = 1 := by
  obtain ⟨w, ran, once⟩ := wandering_runs.returns
  have live : 1 < teleportWorld.frontends.length := by decide
  have counted := arrivals_counted Platform.plain wandering live ran
  rw [once] at counted
  have none : (teleportWorld.fe 1).teleportCount = 0 := by decide
  omega

end Q2Admin
