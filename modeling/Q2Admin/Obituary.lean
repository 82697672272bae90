import Mathlib.Algebra.Order.Ring.Rat
import Q2Admin.Frontend

/-! `frontend/meansofdeath.go`: an obituary print says who died by whose hand. -/

namespace Q2Admin
open Go

inductive Means where
  | unknown | blaster | shotgun | sShotgun | machinegun | chaingun | grenade | gSplash
  | rocket | rSplash | hyperblaster | railgun | bfgLaser | bfgBlast | bfgEffect
  | handgrenade | hgSplash | water | slime | lava | crush | telefrag | falling | suicide
  | heldGrenade | explosive | barrel | bomb | exit | splash | targetLaser | triggerHurt
  | hit | targetBlaster | friendlyFire
  deriving DecidableEq, Repr

structure ObitTest where
  matchstr : String
  mod : Means

/-- Only has a victim. -/
def solo : List ObitTest := [
  ⟨"(.+) suicides", .suicide⟩,
  ⟨"(.+) cratered", .falling⟩,
  ⟨"(.+) was squished", .crush⟩,
  ⟨"(.+) sank like a rock", .water⟩,
  ⟨"(.+) melted", .slime⟩,
  ⟨"(.+) does a back flip into the lava", .lava⟩,
  ⟨"(.+) blew up", .explosive⟩,
  ⟨"(.+) found a way out", .exit⟩,
  ⟨"(.+) saw the light", .targetLaser⟩,
  ⟨"(.+) got blasted", .targetBlaster⟩,
  ⟨"(.+) was in the wrong place", .splash⟩,
  ⟨"(.+) tried to put the pin back in", .heldGrenade⟩,
  ⟨"(.+) tripped on .+ own grenade", .gSplash⟩,
  ⟨"(.+) blew .+self up", .rSplash⟩,
  ⟨"(.+) should have used a smaller gun", .bfgBlast⟩,
  ⟨"(.+) killed .+self", .suicide⟩,
  ⟨"(.+) died", .unknown⟩]

/-- Has a victim and an attacker. -/
def duo : List ObitTest := [
  ⟨"(.+) was blasted by (.+)", .blaster⟩,
  ⟨"(.+) was gunned down by (.+)", .shotgun⟩,
  ⟨"(.+) was blown away by (.+)'s super shotgun", .sShotgun⟩,
  ⟨"(.+) was machinegunned by (.+)", .machinegun⟩,
  ⟨"(.+) was cut in half by (.+)'s chaingun", .chaingun⟩,
  ⟨"(.+) was popped by (.+)'s grenade", .grenade⟩,
  ⟨"(.+) was shredded by (.+)'s shrapnel", .gSplash⟩,
  ⟨"(.+) ate (.+)'s rocket", .rocket⟩,
  ⟨"(.+) almost dodged (.+)'s rocket", .rSplash⟩,
  ⟨"(.+) was melted by (.+)'s hyperblaster", .hyperblaster⟩,
  ⟨"(.+) was railed by (.+)", .railgun⟩,
  ⟨"(.+) saw the pretty lights from (.+)'s BFG", .bfgLaser⟩,
  ⟨"(.+) was disintegrated by (.+)'s BFG blast", .bfgBlast⟩,
  ⟨"(.+) couldn't hide from (.+)'s BFG", .bfgEffect⟩,
  ⟨"(.+) caught (.+)'s handgrenade", .handgrenade⟩,
  ⟨"(.+) didn't see (.+)'s handgrenade", .hgSplash⟩,
  ⟨"(.+) feels (.+)'s pain", .heldGrenade⟩,
  ⟨"(.+) tried to invade (.+)'s personal space", .telefrag⟩]

structure Death where
  murderer : Option Nat
  victim : Option Nat
  means : Means
  solo : Bool
  deriving DecidableEq, Repr

/-- The first test whose pattern matches, with the groups of its match. -/
def firstObit (submatch : Bytes → Bytes → Option (Nat → Bytes)) (obit : Bytes) :
    List ObitTest → Option (Means × (Nat → Bytes))
  | [] => none
  | test :: rest =>
    match submatch (ascii test.matchstr) obit with
    | some groups => some (test.mod, groups)
    | none => firstObit submatch obit rest

section
variable {submatch : Bytes → Bytes → Option (Nat → Bytes)} {obit : Bytes}

theorem firstObit_some {tests : List ObitTest} {mod : Means} {groups : Nat → Bytes}
    (found : firstObit submatch obit tests = some (mod, groups)) :
    ∃ t ∈ tests, t.mod = mod ∧ submatch (ascii t.matchstr) obit = some groups := by
  induction tests with
  | nil => cases found
  | cons t tests ih =>
    rw [firstObit] at found
    cases matched : submatch (ascii t.matchstr) obit with
    | some groups' =>
      rw [matched] at found
      cases found
      exact ⟨t, List.mem_cons_self, rfl, matched⟩
    | none =>
      rw [matched] at found
      obtain ⟨other, member, found⟩ := ih found
      exact ⟨other, List.mem_cons_of_mem t member, found⟩

end

namespace Frontend
variable (fe : Frontend)

/-- `CalculateDeath`: obituaries of two are tried first. -/
def calculateDeath (submatch : Bytes → Bytes → Option (Nat → Bytes)) (obit : Bytes) : Option Death :=
  if obit = [] then none
  else match firstObit submatch obit duo with
    | some (mod, groups) => some {
        means := mod
        victim := fe.findPlayerByName (groups 1)
        murderer := fe.findPlayerByName (groups 2)
        solo := false }
    | none => match firstObit submatch obit Q2Admin.solo with
      | some (mod, groups) => some {
          means := mod
          victim := fe.findPlayerByName (groups 1)
          murderer := none
          solo := true }
      | none => none

/-- `CalculateKDR`: frags by deaths, or deaths by frags and negative when those are more. -/
def calculateKDR (cid : Int) : Rat :=
  if cid < 0 ∨ (fe.maxPlayers : Int) ≤ cid then 0
  else match fe.findPlayer cid with
    | none => 0
    | some slot =>
      let p := fe.player slot
      let swapped := p.frags < p.deaths
      let nom : Rat := if swapped then p.deaths else p.frags
      let denom : Rat := if swapped then p.frags else p.deaths
      let multiplier : Rat := if swapped then -1 else 1
      if denom = 0 then |nom| * multiplier else |nom / denom| * multiplier

end Frontend

section
variable (i : Nat)

def World.updatePlayer (w : World) (slot : Nat) (f : Player → Player) : World :=
  w.update i fun fe => fe.updatePlayer slot f

/-- `fe.Players[cid]` where it is written to. -/
def atClient (cid : Int) (f : Player → Player) (w : World) : Except Fault World :=
  if (w.fe i).validPlayerID cid then .ok (w.updatePlayer i cid.toNat f) else .error .slotIndex

/-- `fe.Players[cid].KDR = fe.CalculateKDR(cid)`. -/
def recordKDR (cid : Int) (w : World) : Except Fault World :=
  atClient i cid (fun p => { p with kdr := (w.fe i).calculateKDR cid }) w

def Player.diedAlone (p : Player) : Player :=
  { p with deaths := p.deaths + 1, suicides := p.suicides + 1, frags := p.frags - 1 }

def Player.died (p : Player) : Player := { p with deaths := p.deaths + 1 }

def Player.scored (p : Player) : Player := { p with frags := p.frags + 1 }

def countSolo (cid : Int) (w : World) : Except Fault World := do
  let w ← atClient i cid Player.diedAlone w
  recordKDR i cid w

def countDuo (cidV cidM : Int) (w : World) : Except Fault World := do
  let w ← atClient i cidV Player.died w
  let w ← atClient i cidM Player.scored w
  let w ← recordKDR i cidV w
  recordKDR i cidM w

/-- `ParseObituary`. The slots counted in are those of the players' client numbers. -/
def parseObituary (submatch : Bytes → Bytes → Option (Nat → Bytes)) (obit : Bytes) (w : World) :
    Except Fault World :=
  match (w.fe i).calculateDeath submatch obit with
  | none => .ok w
  | some death =>
    match death.victim, death.murderer with
    | none, _ => .ok w
    | some victim, none => countSolo i ((w.fe i).player victim).clientID w
    | some victim, some murderer =>
      countDuo i ((w.fe i).player victim).clientID ((w.fe i).player murderer).clientID w

end
end Q2Admin
