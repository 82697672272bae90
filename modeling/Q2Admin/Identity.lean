import Mathlib.Data.List.Nodup
import Q2Admin.Accounts

/-! `backend/identity.go`: who asks the API, and for which frontends that may be. There are two
checks, one for a list of frontends and one for a single one. -/

namespace Q2Admin
open Go

/-- `message ApiKey`, of which nothing reads the scopes. -/
structure ApiKey where
  secret : Bytes
  deriving DecidableEq

/-- `type Frontend` with its API keys. -/
structure KeyedFrontend extends WebFrontend where
  apiKeys : List ApiKey := []
  deriving DecidableEq

/-- `type IdentityContext`. The user and the frontends are pointers, here indexes. -/
structure IdentityContext where
  user : Option Nat
  apiKey : Bytes
  frontends : List Nat := []
  srcIP : Bytes := []
  deriving DecidableEq

structure ApiRequest where
  /-- The value of the session's cookie, if there is one. -/
  cookie : Option Bytes
  /-- The parameter `key` of the query. -/
  key : Bytes
  remoteAddr : Bytes

namespace Site
variable (s : Site)

/-- `ctx.user.Email`. -/
def userEmail : Option Nat → Except Fault Bytes
  | none => .error .nilUser
  | some u => .ok (s.user u).email

/-- What `FrontendsByContext` appends for a frontend: it is there for every key that matches. -/
def listOne (email apiKey : Bytes) (i : Nat) (cl : KeyedFrontend) : List Nat :=
  if cl.owner = email then [i]
  else (cl.apiKeys.filter fun key => key.secret = apiKey).map fun _ => i

/-- The loop of `FrontendsByContext`, from a frontend on. -/
def listFrom (ctx : IdentityContext) : Nat → List KeyedFrontend → Except Fault (List Nat)
  | _, [] => .ok []
  | i, cl :: rest => do
    let email ← s.userEmail ctx.user
    let later ← listFrom ctx (i + 1) rest
    .ok (listOne email ctx.apiKey i cl ++ later)

/-- `FrontendsByContext`. -/
def frontendsByContext (frontends : List KeyedFrontend) (ctx : IdentityContext) : Except Fault (List Nat) :=
  s.listFrom ctx 0 frontends

/-- `identityAllowed`, with its error. -/
def identityAllowed (quote : Bytes → Bytes) (frontends : List KeyedFrontend) (ident : IdentityContext)
    (uuid : Bytes) : Except Fault (Except Bytes Nat) :=
  if uuid = [] then .ok (.error (ascii "empty uuid looking up client"))
  else match frontends.findIdx? fun fe => fe.uuid = uuid with
    | none => .ok (.error (ascii "unknown client: " ++ quote uuid))
    | some i => do
      let fe : KeyedFrontend := frontends.getD i { }
      let email ← s.userEmail ident.user
      if email = fe.owner then .ok (.ok i)
      else if ident.apiKey ≠ [] ∧ fe.apiKeys.any fun key => key.secret = ident.apiKey then .ok (.ok i)
      else .ok (.error (ascii "not allowed"))

/-- The context of a user, or of nobody: the end of `CreateIdentContext`. -/
def contextOf (frontends : List KeyedFrontend) (request : ApiRequest) (user : Option Nat) :
    Except Fault IdentityContext := do
  let ctx : IdentityContext := { user := user, apiKey := request.key, srcIP := request.remoteAddr }
  let listed ← s.frontendsByContext frontends ctx
  .ok { ctx with frontends := listed }

/-- `CreateIdentContext`, with its error. -/
def createIdentContext (lib : AccountLib) (frontends : List KeyedFrontend) (request : ApiRequest) :
    Except Fault (Except Bytes IdentityContext) :=
  match request.cookie with
  | none => (s.contextOf frontends request none).map .ok
  | some value =>
    match validateSession lib s value with
    | .error failure => .ok (.error failure)
    | .ok i => (s.contextOf frontends request (some i)).map .ok

end Site

/-- The keys of a frontend with this secret. -/
def KeyedFrontend.matching (cl : KeyedFrontend) (apiKey : Bytes) : List ApiKey :=
  cl.apiKeys.filter fun key => key.secret = apiKey

/-- The user's own frontends have a UUID; another one has the key at most once, and none where no
key is given or its own UUID is missing. -/
def KeyedFrontend.Sound (cl : KeyedFrontend) (email apiKey : Bytes) : Prop :=
  if cl.owner = email then cl.uuid ≠ []
  else if cl.uuid = [] ∨ apiKey = [] then cl.matching apiKey = []
  else (cl.matching apiKey).length ≤ 1

instance KeyedFrontend.decidableSound (cl : KeyedFrontend) (email apiKey : Bytes) : Decidable (cl.Sound email apiKey) :=
  inferInstanceAs (Decidable (if cl.owner = email then cl.uuid ≠ []
    else if cl.uuid = [] ∨ apiKey = [] then cl.matching apiKey = []
    else (cl.matching apiKey).length ≤ 1))

section
variable (quote : Bytes → Bytes) (s : Site) (frontends : List KeyedFrontend) (ctx : IdentityContext)

/-- The two checks agree: neither faults, a frontend is listed once if access to it is allowed
and not at all otherwise, and for a key alone those are listed that hold it. -/
def AccessAgrees : Prop :=
  ∃ list, s.frontendsByContext frontends ctx = .ok list ∧
    (∀ uuid, ∃ answer, s.identityAllowed quote frontends ctx uuid = .ok answer) ∧
    (∀ i cl, frontends[i]? = some cl → list.count i =
      if s.identityAllowed quote frontends ctx cl.uuid = .ok (.ok i) then 1 else 0) ∧
    (ctx.user = none → ctx.apiKey ≠ [] → ∀ i cl, frontends[i]? = some cl →
      (i ∈ list ↔ cl.matching ctx.apiKey ≠ []))

/-- What the two checks take for granted of the frontends. -/
def Unambiguous : Prop :=
  match ctx.user with
  | none => frontends = []
  | some u => ∀ cl ∈ frontends, cl.Sound (s.user u).email ctx.apiKey

end

variable {quote : Bytes → Bytes} {s : Site} {frontends : List KeyedFrontend} {ctx : IdentityContext} {u i : Nat}

/-! ## With a session user -/

/-- How often a frontend is listed. -/
def KeyedFrontend.hits (cl : KeyedFrontend) (email apiKey : Bytes) : Nat :=
  if cl.owner = email then 1 else (cl.matching apiKey).length

/-- A frontend the user may use, by its owner or by the key. -/
def KeyedFrontend.Allows (cl : KeyedFrontend) (email apiKey : Bytes) : Prop :=
  cl.uuid ≠ [] ∧ (cl.owner = email ∨ apiKey ≠ [] ∧ cl.matching apiKey ≠ [])

theorem count_listOne (cl : KeyedFrontend) (email apiKey : Bytes) (i j : Nat) :
    (Site.listOne email apiKey i cl).count j = if i = j then cl.hits email apiKey else 0 := by
  unfold Site.listOne KeyedFrontend.hits
  split
  · by_cases same : i = j <;> simp [same]
  · rw [List.map_const', List.count_replicate]
    simp [KeyedFrontend.matching]

theorem listFrom_ok (user : ctx.user = some u) (base : Nat) : ∃ list, s.listFrom ctx base frontends = .ok list ∧
    (∀ j < base, list.count j = 0) ∧
    ∀ i cl, frontends[i]? = some cl → list.count (base + i) = cl.hits (s.user u).email ctx.apiKey := by
  induction frontends generalizing base with
  | nil => exact ⟨[], rfl, by simp, by simp⟩
  | cons first rest ih =>
    obtain ⟨later, listed, before, behind⟩ := ih (base + 1)
    refine ⟨Site.listOne (s.user u).email ctx.apiKey base first ++ later, ?_, ?_, ?_⟩
    · simp [Site.listFrom, Site.userEmail, user, listed, Bind.bind, Except.bind]
    · intro j earlier
      rw [List.count_append, count_listOne, before j (by omega), if_neg (by omega)]
    · intro i cl found
      rw [List.count_append, count_listOne]
      cases i with
      | zero =>
        have same : first = cl := by simpa using found
        rw [Nat.add_zero, if_pos rfl, before base (by omega), same, Nat.add_zero]
      | succ i =>
        rw [if_neg (by omega), show base + (i + 1) = base + 1 + i by omega, behind i cl (by simpa using found)]
        omega

theorem identityAllowed_returns (user : ctx.user = some u) (uuid : Bytes) :
    ∃ answer, s.identityAllowed quote frontends ctx uuid = .ok answer := by
  unfold Site.identityAllowed
  split
  · exact ⟨_, rfl⟩
  split
  · exact ⟨_, rfl⟩
  · simp only [Site.userEmail, user, Bind.bind, Except.bind]
    split
    · exact ⟨_, rfl⟩
    split
    · exact ⟨_, rfl⟩
    · exact ⟨_, rfl⟩

theorem findIdx_uuid (distinct : (frontends.map fun fe => fe.uuid).Nodup) {cl : KeyedFrontend}
    (found : frontends[i]? = some cl) : frontends.findIdx? (fun fe => fe.uuid = cl.uuid) = some i := by
  obtain ⟨inside, here⟩ := List.getElem?_eq_some_iff.mp found
  rw [List.findIdx?_eq_some_iff_getElem]
  refine ⟨inside, by simp [here], fun j before => ?_⟩
  have listed : j < (frontends.map fun fe => fe.uuid).length := by simpa using before.trans inside
  have listed' : i < (frontends.map fun fe => fe.uuid).length := by simpa using inside
  have apart : (frontends.map fun fe => fe.uuid)[j] ≠ (frontends.map fun fe => fe.uuid)[i] := fun same =>
    before.ne (distinct.getElem_inj_iff.mp same)
  simpa [here] using apart

theorem any_matching (cl : KeyedFrontend) (apiKey : Bytes) :
    (cl.apiKeys.any fun key => key.secret = apiKey) = true ↔ cl.matching apiKey ≠ [] := by
  rw [KeyedFrontend.matching, ne_eq, List.filter_eq_nil_iff]
  simp

/-- Access is allowed to the user's own frontends and to those that hold the key. -/
theorem identityAllowed_iff (user : ctx.user = some u) (distinct : (frontends.map fun fe => fe.uuid).Nodup)
    {cl : KeyedFrontend} (found : frontends[i]? = some cl) :
    s.identityAllowed quote frontends ctx cl.uuid = .ok (.ok i) ↔ cl.Allows (s.user u).email ctx.apiKey := by
  have here : frontends.getD i {} = cl := by rw [List.getD_eq_getElem?_getD, found, Option.getD_some]
  unfold Site.identityAllowed KeyedFrontend.Allows
  by_cases named : cl.uuid = []
  · simp [named]
  · simp only [if_neg named, findIdx_uuid distinct found, here, Site.userEmail, user, Bind.bind, Except.bind]
    by_cases own : (s.user u).email = cl.owner
    · simp [own, named]
    · simp only [if_neg own, any_matching, Ne.symm own, false_or]
      split
      · rename_i holds
        simp [named, holds]
      · rename_i other
        simp [named, other]

/-! ## The two checks -/

theorem hits_eq_iff (cl : KeyedFrontend) (email apiKey : Bytes) {access : Prop} [Decidable access]
    (allows : access ↔ cl.Allows email apiKey) :
    (cl.hits email apiKey = if access then 1 else 0) ↔ cl.Sound email apiKey := by
  unfold KeyedFrontend.Allows at allows
  unfold KeyedFrontend.hits KeyedFrontend.Sound
  by_cases own : cl.owner = email
  · rw [if_pos own, if_pos own]
    have granted : access ↔ cl.uuid ≠ [] := by simp [allows, own]
    rw [← granted]
    by_cases given : access <;> simp [given]
  · rw [if_neg own, if_neg own]
    by_cases closed : cl.uuid = [] ∨ apiKey = []
    · have denied : ¬ access := by
        rw [allows]
        rintro ⟨named, owned | ⟨asked, -⟩⟩
        · exact own owned
        · exact closed.elim named asked
      rw [if_neg denied, if_pos closed, List.length_eq_zero_iff]
    · obtain ⟨named, asked⟩ := not_or.mp closed
      have granted : access ↔ cl.matching apiKey ≠ [] := by simp [allows, own, named, asked]
      rw [if_neg closed]
      cases held : cl.matching apiKey with
      | nil =>
        have denied : ¬ access := by simp [granted, held]
        simp [denied]
      | cons key others =>
        have given : access := by simp [granted, held]
        rw [if_pos given, List.length_cons]
        omega

theorem frontendsByContext_nobody (nobody : ctx.user = none) (first : KeyedFrontend) (rest : List KeyedFrontend) :
    s.frontendsByContext (first :: rest) ctx = .error .nilUser := by
  simp [Site.frontendsByContext, Site.listFrom, Site.userEmail, nobody, Bind.bind, Except.bind]

/-- Of a session user's list and the other check, once in each frontend. -/
theorem agrees_user_iff (distinct : (frontends.map fun fe => fe.uuid).Nodup) (user : ctx.user = some u) :
    AccessAgrees quote s frontends ctx ↔ ∀ cl ∈ frontends, cl.Sound (s.user u).email ctx.apiKey := by
  obtain ⟨list, listed, -, counts⟩ := @listFrom_ok s frontends ctx u user 0
  have each {i : Nat} {cl : KeyedFrontend} (found : frontends[i]? = some cl) :
      (list.count i = if s.identityAllowed quote frontends ctx cl.uuid = .ok (.ok i) then 1 else 0) ↔
        cl.Sound (s.user u).email ctx.apiKey := by
    have hits := counts i cl found
    rw [Nat.zero_add] at hits
    rw [hits]
    exact hits_eq_iff cl _ _ (identityAllowed_iff user distinct found)
  constructor
  · rintro ⟨list', listed', -, once, -⟩ cl member
    obtain ⟨i, found⟩ := List.mem_iff_getElem?.mp member
    cases listed.symm.trans listed'
    exact (each found).mp (once i cl found)
  · intro sound
    refine ⟨list, listed, identityAllowed_returns user, fun i cl found => ?_, by simp [user]⟩
    exact (each found).mpr (sound cl (List.mem_of_getElem? found))

/-- For frontends with distinct UUIDs, the two checks agree exactly if there is a session user,
or nothing to check, and the user's frontends have UUIDs, and of the others none has the key
twice, nor any key that passes where none is given. -/
theorem access_agrees_iff (distinct : (frontends.map fun fe => fe.uuid).Nodup) :
    AccessAgrees quote s frontends ctx ↔ Unambiguous s frontends ctx := by
  cases user : ctx.user with
  | none =>
    rw [Unambiguous, user]
    constructor
    · rintro ⟨list, listed, -⟩
      cases frontends with
      | nil => rfl
      | cons first rest =>
        rw [frontendsByContext_nobody user] at listed
        cases listed
    · rintro rfl
      refine ⟨[], rfl, fun uuid => ?_, by simp, by simp⟩
      by_cases named : uuid = []
      · exact ⟨_, if_pos named⟩
      · exact ⟨_, if_neg named⟩
  | some u =>
    rw [Unambiguous, user]
    exact agrees_user_iff distinct user

/-! ## The contexts -/

/-- What is listed does not depend on what is listed already. -/
theorem listFrom_frontends (ctx : IdentityContext) (list : List Nat) (base : Nat) (frontends : List KeyedFrontend) :
    s.listFrom { ctx with frontends := list } base frontends = s.listFrom ctx base frontends := by
  induction frontends generalizing base with
  | nil => rfl
  | cons first rest ih => simp only [Site.listFrom, ih]

theorem contextOf_frontends {request : ApiRequest} {user : Option Nat}
    (built : s.contextOf frontends request user = .ok ctx) :
    s.frontendsByContext frontends ctx = .ok ctx.frontends := by
  unfold Site.contextOf at built
  cases listed : s.frontendsByContext frontends { user := user, apiKey := request.key, srcIP := request.remoteAddr } with
  | error fault => simp [listed, Bind.bind, Except.bind] at built
  | ok list =>
    simp only [listed, Bind.bind, Except.bind, Except.ok.injEq] at built
    subst built
    exact (listFrom_frontends _ list 0 frontends).trans listed

/-- A context lists what `FrontendsByContext` lists for it. -/
theorem createIdentContext_frontends {lib : AccountLib} {request : ApiRequest}
    (built : s.createIdentContext lib frontends request = .ok (.ok ctx)) :
    s.frontendsByContext frontends ctx = .ok ctx.frontends := by
  have context {user : Option Nat} (made : (s.contextOf frontends request user).map Except.ok =
      (.ok (.ok ctx) : Except Fault (Except Bytes IdentityContext))) :
      s.contextOf frontends request user = .ok ctx := by
    cases whole : s.contextOf frontends request user with
    | error fault => simp [whole, Except.map] at made
    | ok made_ctx => simpa [whole, Except.map] using made
  unfold Site.createIdentContext at built
  split at built
  · exact contextOf_frontends (context built)
  split at built
  · cases built
  · exact contextOf_frontends (context built)

/-- The list in the context of a session user has each frontend that the other check lets him use
once, and no other. -/
theorem context_agrees {lib : AccountLib} {request : ApiRequest} (distinct : (frontends.map fun fe => fe.uuid).Nodup)
    (built : s.createIdentContext lib frontends request = .ok (.ok ctx)) (user : ctx.user = some u)
    (sound : ∀ cl ∈ frontends, cl.Sound (s.user u).email ctx.apiKey) {cl : KeyedFrontend}
    (found : frontends[i]? = some cl) :
    ctx.frontends.count i = if s.identityAllowed quote frontends ctx cl.uuid = .ok (.ok i) then 1 else 0 := by
  obtain ⟨list, listed, -, once, -⟩ := (show AccessAgrees quote s frontends ctx from (agrees_user_iff distinct user).mpr sound)
  cases (createIdentContext_frontends built).symm.trans listed
  exact once i cl found

/-- A server of the user, and one that has given out a key. -/
def keyedPair : List KeyedFrontend := [
  { uuid := ascii "a1", owner := ascii "claire@q2" },
  { uuid := ascii "b2", owner := ascii "ann@q2", apiKeys := [⟨ascii "k1"⟩] }]

def claireSite : Site where
  users := [{ email := ascii "claire@q2" }]
  secret := []
  now := 0

theorem access_agrees_claire : AccessAgrees id claireSite keyedPair { user := some 0, apiKey := ascii "k1" } :=
  (access_agrees_iff (by decide)).mpr (show ∀ cl ∈ keyedPair, cl.Sound _ _ by decide)

/-- With the key alone, the list of frontends cannot be made. -/
theorem access_not_agrees : ¬ AccessAgrees id claireSite keyedPair { user := none, apiKey := ascii "k1" } := by
  rintro ⟨list, listed, -⟩
  rw [keyedPair, frontendsByContext_nobody rfl] at listed
  cases listed

end Q2Admin
