import Q2Admin.Go

/-! The messages of `proto/rule.proto`. A nil message reads like the default one through
its getters, so no field is optional here. -/

namespace Q2Admin

/-- `enum RuleType`, in the order of its numbers. -/
inductive RuleType where
  | mute
  | ban
  | message
  | stifle
  deriving DecidableEq, Repr

/-- `message UserInfo`. -/
structure UserInfo where
  property : Bytes := []
  value : Bytes := []
  deriving DecidableEq, Repr

/-- `message TimeSpec`; nothing reads its `every`. -/
structure TimeSpec where
  before : Bytes := []
  after : Bytes := []
  playTime : Bytes := []
  every : Bytes := []
  deriving DecidableEq, Repr

/-- `message Exception`; nothing reads its `client`, its `description` or its `timespec`. -/
structure Exception where
  address : List Bytes := []
  hostname : List Bytes := []
  name : List Bytes := []
  client : List Bytes := []
  userInfo : List UserInfo := []
  expirationTime : Int := 0
  description : List Bytes := []
  timespec : TimeSpec := {}
  deriving DecidableEq, Repr

/-- `message Rule`. -/
structure Rule where
  uuid : Bytes := []
  type : RuleType := .mute
  address : List Bytes := []
  hostname : List Bytes := []
  name : List Bytes := []
  client : List Bytes := []
  userInfo : List UserInfo := []
  message : List Bytes := []
  vpn : Bool := false
  expirationTime : Int := 0
  stifleLength : Int := 0
  description : List Bytes := []
  exception : List Exception := []
  timespec : TimeSpec := {}
  disabled : Bool := false
  /-- Where the rule is applied: on the server or on a client. -/
  scope : Bytes := []
  creationTime : Int := 0
  delay : Nat := 0
  deriving DecidableEq, Repr

end Q2Admin
