import Q2Admin.Lib.Tally
import Q2Admin.Clock
import Q2Admin.Player

/-! `backend/rules.go`: whether a rule applies to a player. The blocks of `CheckRule`
share two counters and a flag; each block below is one of them, in the source's order. -/

namespace Q2Admin
open Go Lib

/-- The counters `need` and `have`, and `match`. -/
abbrev Counters := Tally

def Counters.need (c : Counters) : Counters := { c with needs := c.needs + 1 }
def Counters.hit (c : Counters) : Counters := { c with haves := c.haves + 1, matched := true }

/-- `(?i)` in front of a pattern. -/
def caseless (pattern : Bytes) : Bytes := ascii "(?i)" ++ pattern

/-- The range over addresses or host names: malformed entries are skipped and the
first match ends the loop. -/
def firstHit (parse : Bytes → Option (Bytes → Bool)) (subject : Bytes) :
    List Bytes → Counters → Counters
  | [], c => c
  | entry :: rest, c =>
    match parse entry with
    | none => firstHit parse subject rest c
    | some accepts => if accepts subject then c.hit else firstHit parse subject rest c

/-- The range over names, which goes on after a match. -/
def everyHit (parse : Bytes → Option (Bytes → Bool)) (subject : Bytes) :
    List Bytes → Counters → Counters
  | [], c => c
  | entry :: rest, c =>
    match parse entry with
    | none => everyHit parse subject rest c
    | some accepts => everyHit parse subject rest (if accepts subject then c.hit else c)

section
variable (lib : RuleLib)

/-- The range over `p.UserinfoMap`, in whatever order the map yields its entries. -/
def userinfoMatchesIn (ui : UserInfo) : List (Σ _ : Bytes, Bytes) → Bool
  | [] => false
  | ⟨k, v⟩ :: rest =>
    if k = ui.property then
      match lib.compile ui.value with
      | none => false
      | some re => if re v then true else userinfoMatchesIn ui rest
    else userinfoMatchesIn ui rest

def userinfoMatches (ui : UserInfo) (p : Player) : Bool :=
  userinfoMatchesIn lib ui p.userinfoMap.entries

/-- One turn of an exception's loops: a malformed entry is skipped. -/
def entryMatches (parse : Bytes → Option (Bytes → Bool)) (subject entry : Bytes) : Bool :=
  match parse entry with
  | none => false
  | some accepts => accepts subject

def someEntry (parse : Bytes → Option (Bytes → Bool)) (subject : Bytes) (entries : List Bytes) :
    Bool :=
  entries.any (entryMatches parse subject)

/-- `now` is the clock `RuleExceptionMatch` reads for itself. -/
def ruleExceptionMatch (now : Int) (ex : Exception) (p : Player) : Bool :=
  if 0 < ex.expirationTime ∧ ex.expirationTime < now then false
  else if someEntry lib.parseCIDR p.ip ex.address then true
  else if someEntry (fun host => lib.compile (caseless host)) p.hostname ex.hostname then true
  else if someEntry lib.compile p.name ex.name then true
  else ex.userInfo.any fun pair =>
    entryMatches lib.compile (p.userinfoMap.at pair.property) pair.value

/-! The blocks. -/

def addressBlock (p : Player) (r : Rule) (c : Counters) : Counters :=
  if r.address = [] then c else firstHit lib.parseCIDR p.ip r.address c.need

def hostnameBlock (p : Player) (r : Rule) (c : Counters) : Counters :=
  if r.hostname = [] then c
  else firstHit (fun host => lib.compile (caseless host)) p.hostname r.hostname c.need

def nameBlock (p : Player) (r : Rule) (c : Counters) : Counters :=
  if r.name = [] then c
  else everyHit (fun name => lib.compile (caseless name)) p.name r.name c.need

/-- `need++` for every pair and `have++` for every pair that matches. -/
def userInfoLoop (p : Player) : List UserInfo → Counters → Counters
  | [], c => c
  | ui :: rest, c =>
    let needed := c.need
    userInfoLoop p rest
      (if userinfoMatches lib ui p then { needed with haves := needed.haves + 1 } else needed)

def userInfoBlock (p : Player) (r : Rule) (c : Counters) : Counters :=
  if r.userInfo = [] then c
  else
    let after := userInfoLoop lib p r.userInfo c
    if after.needs - c.needs = after.haves - c.haves then { after with matched := true } else after

def vpnBlock (p : Player) (r : Rule) (c : Counters) : Counters :=
  if r.vpn then (if p.vpn then c.need.hit else c.need) else c

/-- The test of the `before` block on a parsed limit. -/
def beforeHolds (t when' : Time) : Bool :=
  if when'.year = 0 then t.hour ≤ when'.hour && t.minute ≤ when'.minute
  else t.before when'

/-- The test of the `after` block on a parsed limit. -/
def afterHolds (t when' : Time) : Bool :=
  if when'.year = 0 then when'.hour ≤ t.hour && when'.minute ≤ t.minute
  else t.after when'

/-- The test of the `play_time` block on a parsed limit. -/
def playTimeHolds (p : Player) (t : Time) (limit : Int) : Bool :=
  limit ≤ t.unix - p.connectTime

/-- A timing block. Without a result `CheckRule` returns false at once. -/
def timingBlock {limit : Type} (spec : Bytes) (parse : Bytes → Option limit)
    (holds : limit → Bool) (c : Counters) : Option Counters :=
  if spec = [] then some c
  else match parse spec with
    | none => none
    | some value => some (if holds value then c.need.hit else c.need)

def beforeBlock (r : Rule) (t : Time) : Counters → Option Counters :=
  timingBlock r.timespec.before (stringToTime lib) (beforeHolds t)

def afterBlock (r : Rule) (t : Time) : Counters → Option Counters :=
  timingBlock r.timespec.after (stringToTime lib) (afterHolds t)

def playTimeBlock (p : Player) (r : Rule) (t : Time) : Counters → Option Counters :=
  timingBlock r.timespec.playTime (durationToSeconds lib) (playTimeHolds p t)

def expired (r : Rule) (t : Time) : Bool := 0 < r.expirationTime && r.expirationTime < t.unix

/-- The counters after all blocks, unless a limit does not parse. -/
def countCriteria (p : Player) (r : Rule) (t : Time) : Option Counters := do
  let c := addressBlock lib p r Tally.zero
  let c := hostnameBlock lib p r c
  let c := nameBlock lib p r c
  let c := userInfoBlock lib p r c
  let c := vpnBlock p r c
  let c ← beforeBlock lib r t c
  let c ← afterBlock lib r t c
  playTimeBlock lib p r t c

/-- The persistent data set on the player, which asks for `match` only. -/
def markPlayer (p : Player) (r : Rule) : Player :=
  match r.type with
  | .stifle => { p with stifled := true, stifleLength := r.stifleLength }
  | .mute => { p with muted := true }
  | _ => p

/-- The verdict, and the player as `CheckRule` leaves it. -/
def checkRule (p : Player) (r : Rule) (t : Time) (now : Int) : Bool × Player :=
  if r.disabled then (false, p)
  else if expired r t then (false, p)
  else match countCriteria lib p r t with
    | none => (false, p)
    | some c =>
      let exempt := r.exception.any (ruleExceptionMatch lib now · p)
      (c.matched && c.needs ≤ c.haves && !exempt, if c.matched then markPlayer p r else p)

end
end Q2Admin
