import Mathlib.Data.Rat.Defs
import Q2Admin.Proto

/-! `type Player` of `frontend/player.go`. The zero value is a free slot. -/

namespace Q2Admin
open Go

structure Player where
  clientID : Int := 0
  connectTime : Int := 0
  cookie : Bytes := []
  databaseID : Int := 0
  deaths : Int := 0
  fov : Int := 0
  frags : Int := 0
  hostname : Bytes := []
  invites : Int := 0
  invitesAvailable : Int := 0
  ip : Bytes := []
  /-- Kill:death ratio, a float in the source. -/
  kdr : Rat := 0
  lastInvite : Int := 0
  lastTeleport : Int := 0
  muted : Bool := false
  name : Bytes := []
  port : Int := 0
  /-- Rules that match this player. -/
  rules : List Rule := []
  stifled : Bool := false
  stifleLength : Int := 0
  suicides : Int := 0
  teleports : Int := 0
  userinfo : Bytes := []
  userinfoMap : StringMap := ∅
  /-- MD5 of the userinfo, to see whether it changed. -/
  userInfoHash : Bytes := []
  version : Bytes := []
  vpn : Bool := false
  deriving DecidableEq

instance : Inhabited Player := ⟨{}⟩

/-- Whether the slot holds an actual player. -/
def Player.inUse (p : Player) : Bool := 0 < p.connectTime

end Q2Admin
