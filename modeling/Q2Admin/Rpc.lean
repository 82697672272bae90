import Q2Admin.RpcToken
import Q2Admin.SessionLife
import Q2Admin.Website

/-! The method of the RPC server: `FetchStatus` of `backend/rpc.go`, and how long a header opens
it while people sign in at the website and change their servers there. -/

namespace Q2Admin
open Go Lib

/-- A call of `FetchStatus`. -/
structure StatusCall where
  /-- The authorization headers, if the request has metadata. -/
  md : Option (List Bytes)
  server : Bytes
  deriving DecidableEq

inductive StatusError where
  | token (error : TokenError)
  | unauthorized
  | blankServer
  | unknownServer
  deriving DecidableEq

def StatusError.text (quote : Bytes → Bytes) : StatusError → Bytes
  | token error => error.text quote
  | unauthorized => ascii "unauthorized"
  | blankServer => ascii "blank server name in request"
  | unknownServer => ascii "frontend not found"

/-- `FetchStatus`: the UUID in its response, which has nothing else. -/
def fetchStatus (lib : TokenLib) (users : List User) (now : Int) (b : Backend) (call : StatusCall) :
    Except Fault (Except StatusError Bytes) := do
  let verdict ← checkRPCAuthorization lib users now call.md
  match verdict.error with
  | some error => .ok (.error (.token error))
  | none =>
    if !verdict.valid then .ok (.error .unauthorized)
    else if call.server = [] then .ok (.error .blankServer)
    else match b.findFrontendByName call.server with
      | none => .ok (.error .unknownServer)
      | some i => .ok (.ok (b.fe i).uuid)

/-- `GetRequestMetadata` of the client. -/
def getRequestMetadata (token : Bytes) : Option (List Bytes) := some [ascii "Bearer " ++ token]

/-- The website and the RPC server of one program. -/
structure Portal where
  accounts : SiteRun
  backend : Backend

/-- The users, as the RPC server looks at them. -/
def Portal.users (p : Portal) : List User := p.accounts.site.users.map Account.toUser

def Portal.now (p : Portal) : Int := p.accounts.site.now

inductive PortalEvent where
  | account (e : SiteEvent)
  | web (r : WebRequest)
  | status (call : StatusCall)

/-- A fault in a call ends the program. -/
def Portal.step (lib : TokenLib) (accounts : AccountLib) (web : WebLib) (p : Portal) :
    PortalEvent → Except Fault Portal
  | .account e =>
    match accounts.siteStep p.accounts e with
    | .ok r => .ok { p with accounts := r }
  | .web r => .ok { p with backend := (web.serve p.backend r).1 }
  | .status call => do
    let _ ← fetchStatus lib p.users p.now p.backend call
    .ok p

/-! ## What a call asks for -/

/-- The header is a token that passes. -/
def HeaderPasses (lib : TokenLib) (users : List User) (now : Int) (md : Option (List Bytes)) : Prop :=
  ∃ t data payload signature u, md = getRequestMetadata t ∧ lib.decode t = some data ∧
    sliceToken data = .ok (payload, signature) ∧ TokenPasses lib users now u payload signature

section
variable {lib : TokenLib} {users : List User} {now : Int}

theorem checkSignature_error {u : User} {payload signature : Bytes} {verdict : Verdict}
    (checked : checkSignature lib u payload signature = .ok verdict) (valid : verdict.valid = true) :
    verdict.error = none := by
  unfold checkSignature at checked
  split at checked
  · rw [← Except.ok.inj checked] at valid
    cases valid
  · rename_i der pem
    cases asserted : assertRSA (lib.parsePKIXPublicKey der) with
    | error fault => simp [asserted, Bind.bind, Except.bind] at checked
    | ok key =>
      simp only [asserted, Bind.bind, Except.bind] at checked
      exact Except.ok.inj checked ▸ rfl

/-- A valid verdict has no error. -/
theorem validateBearerToken_error {t : Bytes} {verdict : Verdict}
    (returned : validateBearerToken lib users now t = .ok verdict) (valid : verdict.valid = true) :
    verdict.error = none := by
  unfold validateBearerToken at returned
  cases decoded : lib.decode t with
  | none =>
    simp only [decoded, Except.ok.injEq] at returned
    rw [← returned] at valid
    cases valid
  | some data =>
    cases sliced : sliceToken data with
    | error fault => simp [decoded, sliced, Bind.bind, Except.bind] at returned
    | ok parts =>
      simp only [decoded, sliced, Bind.bind, Except.bind] at returned
      cases claimed : claimant users now parts.1 with
      | error other =>
        simp only [claimed, Except.ok.injEq] at returned
        rw [← returned, claimant_refused claimed] at valid
        cases valid
      | ok u =>
        simp only [claimed] at returned
        exact checkSignature_error returned valid

theorem bearer_isPrefixOf {header : Bytes} :
    (ascii "Bearer ").isPrefixOf header = true ↔ header = ascii "Bearer " ++ header.drop 7 := by
  rw [List.isPrefixOf_iff_prefix, List.prefix_iff_eq_append]
  exact eq_comm

/-- The request is authorized exactly if its header is a token that passes. -/
theorem checkRPCAuthorization_iff {md : Option (List Bytes)} :
    (∃ verdict, checkRPCAuthorization lib users now md = .ok verdict ∧ verdict.valid = true) ↔
      HeaderPasses lib users now md := by
  constructor
  · intro ⟨verdict, checked, valid⟩
    unfold checkRPCAuthorization at checked
    split at checked
    · rw [← Except.ok.inj checked] at valid
      cases valid
    · rename_i header
      split at checked
      · rename_i bearer
        obtain ⟨data, payload, signature, u, decoded, sliced, -, passes⟩ :=
          (validateBearerToken_valid_iff lib).mp ⟨verdict, checked, valid, rfl⟩
        refine ⟨header.drop 7, data, payload, signature, u, ?_, decoded, sliced, passes⟩
        rw [getRequestMetadata, ← bearer_isPrefixOf.mp bearer]
      · rw [← Except.ok.inj checked] at valid
        cases valid
    · rw [← Except.ok.inj checked] at valid
      cases valid
  · intro ⟨t, data, payload, signature, u, same, decoded, sliced, passes⟩
    obtain ⟨verdict, returned, valid, -⟩ :=
      (validateBearerToken_valid_iff lib).mpr ⟨data, payload, signature, u, decoded, sliced, rfl, passes⟩
    refine ⟨verdict, ?_, valid⟩
    have rest : (ascii "Bearer " ++ t).drop 7 = t := List.drop_left' rfl
    have bearer : (ascii "Bearer ").isPrefixOf (ascii "Bearer " ++ t) = true := by
      rw [bearer_isPrefixOf, rest]
    simp only [same, getRequestMetadata, checkRPCAuthorization, bearer, ↓reduceIte, rest, returned]

/-- A valid verdict has no error. -/
theorem checkRPCAuthorization_error {md : Option (List Bytes)} {verdict : Verdict}
    (checked : checkRPCAuthorization lib users now md = .ok verdict) (valid : verdict.valid = true) :
    verdict.error = none := by
  unfold checkRPCAuthorization at checked
  split at checked
  · rw [← Except.ok.inj checked] at valid
    cases valid
  · split at checked
    · exact validateBearerToken_error checked valid
    · rw [← Except.ok.inj checked] at valid
      cases valid
  · rw [← Except.ok.inj checked] at valid
    cases valid

theorem Backend.named_iff {b : Backend} {name uuid : Bytes} :
    (∃ i, b.findFrontendByName name = some i ∧ (b.fe i).uuid = uuid) ↔
      name ≠ [] ∧ ∃ f, b.frontends.find? (fun f => f.name = name) = some f ∧ f.uuid = uuid := by
  by_cases blank : name = []
  · simp [Backend.findFrontendByName, blank]
  · simp only [Backend.findFrontendByName, blank, ↓reduceIte, ne_eq, not_false_eq_true, true_and,
      List.find?_eq_bind_findIdx?_getElem?]
    cases found : b.frontends.findIdx? fun f => f.name = name with
    | none => simp
    | some i =>
      have inside : i < b.frontends.length := (List.findIdx?_eq_some_iff_getElem.mp found).1
      simp [Backend.fe, inside]

/-- A call is answered with a UUID exactly if its header passes and a frontend has the name: it
is the first one's, whoever owns it. -/
theorem fetchStatus_iff {b : Backend} {call : StatusCall} {uuid : Bytes} :
    fetchStatus lib users now b call = .ok (.ok uuid) ↔ HeaderPasses lib users now call.md ∧
      call.server ≠ [] ∧ ∃ f, b.frontends.find? (fun f => f.name = call.server) = some f ∧ f.uuid = uuid := by
  rw [← checkRPCAuthorization_iff, ← Backend.named_iff]
  unfold fetchStatus
  cases checked : checkRPCAuthorization lib users now call.md with
  | error fault => simp [Bind.bind, Except.bind]
  | ok verdict =>
    simp only [Bind.bind, Except.bind, Except.ok.injEq, exists_eq_left']
    cases valid : verdict.valid with
    | false => cases verdict.error <;> simp
    | true =>
      simp only [checkRPCAuthorization_error checked valid, Bool.not_true, Bool.false_eq_true, ↓reduceIte, true_and]
      by_cases blank : call.server = []
      · simp [blank, Backend.findFrontendByName]
      · simp only [blank, ↓reduceIte]
        cases b.findFrontendByName call.server <;> simp

/-! ## Deadlines -/

/-- What passes does so up to an instant of its own. -/
theorem headerPasses_deadline (lib : TokenLib) (users : List User) (md : Option (List Bytes)) :
    ∃ deadline : Option Int, ∀ now, HeaderPasses lib users now md ↔ ∃ d ∈ deadline, now ≤ d := by
  by_cases ever : ∃ now, HeaderPasses lib users now md
  · obtain ⟨first, t, data, payload, signature, u, same, decoded, sliced, passes⟩ := ever
    obtain ⟨ttl, expires, parts, read, -⟩ := passes.unexpired
    refine ⟨some expires, fun now => ⟨fun again => ?_, fun early => ?_⟩⟩
    · obtain ⟨t', data', payload', signature', u', same', decoded', sliced', passes'⟩ := again
      obtain ⟨ttl', expires', parts', read', early⟩ := passes'.unexpired
      -- there is one token in the header, and one time in the token
      have token : t' = t := by
        have headers := Option.some.inj (same'.symm.trans same)
        exact List.append_cancel_left (List.singleton_inj.mp headers)
      subst token
      rw [decoded] at decoded'
      cases decoded'
      rw [sliced] at sliced'
      cases sliced'
      have times : ttl = ttl' := (Prod.mk.inj (Option.some.inj (parts.symm.trans parts'))).2
      subst times
      rw [read] at read'
      cases read'
      exact ⟨expires, rfl, early⟩
    · obtain ⟨d, own, early⟩ := early
      cases own
      exact ⟨t, data, payload, signature, u, same, decoded, sliced,
        { passes with unexpired := ⟨ttl, expires, parts, read, early⟩ }⟩
  · exact ⟨none, fun now => ⟨fun passes => absurd ⟨now, passes⟩ ever, fun early => by simp at early⟩⟩

end

/-! ## Runs -/

/-- People who have signed up, behind the users there were. -/
def SignedUp (users users' : List User) : Prop :=
  ∃ added, users' = users ++ added ∧ ∀ u ∈ added, u.allowRpc = false

theorem SignedUp.refl (users : List User) : SignedUp users users := ⟨[], (List.append_nil users).symm, by simp⟩

theorem SignedUp.trans {users users' users'' : List User} (first : SignedUp users users')
    (second : SignedUp users' users'') : SignedUp users users'' := by
  obtain ⟨added, rfl, plain⟩ := first
  obtain ⟨added', rfl, plain'⟩ := second
  refine ⟨added ++ added', List.append_assoc .., fun u member => ?_⟩
  rcases List.mem_append.mp member with old | new
  · exact plain u old
  · exact plain' u new

section
variable {lib : TokenLib} {users users' : List User} {now : Int}

theorem SignedUp.tokenPasses_iff (joined : SignedUp users users') {u : User} {payload signature : Bytes} :
    TokenPasses lib users' now u payload signature ↔ TokenPasses lib users now u payload signature := by
  obtain ⟨added, rfl, plain⟩ := joined
  constructor
  · intro passes
    refine { passes with found := ?_ }
    have found := passes.found
    rw [List.find?_append] at found
    cases old : users.find? fun v => v.email = u.email with
    | some v => simpa [old] using found
    | none =>
      rw [old, Option.none_or] at found
      have allowed := passes.allowed
      rw [plain u (List.mem_of_find?_eq_some found)] at allowed
      cases allowed
  · intro passes
    exact { passes with found := by rw [List.find?_append, passes.found, Option.some_or] }

theorem SignedUp.headerPasses_iff (joined : SignedUp users users') {md : Option (List Bytes)} :
    HeaderPasses lib users' now md ↔ HeaderPasses lib users now md := by
  simp only [HeaderPasses, joined.tokenPasses_iff]

end

section
variable {accounts : AccountLib}

theorem Site.setSession_users (s : Site) (i : Nat) (session : WebSession) :
    (s.setSession i session).users.map Account.toUser = s.users.map Account.toUser := by
  apply List.ext_getElem?
  intro n
  simp only [Site.setSession, List.getElem?_map, List.getElem?_modify]
  cases s.users[n]? with
  | none => rfl
  | some u => by_cases same : i = n <;> simp [same]

theorem beginSession_users (s : Site) (i : Nat) (ttl : Int) (session : WebSession) :
    (beginSession accounts s i ttl session).site.users.map Account.toUser = s.users.map Account.toUser := by
  unfold beginSession
  split
  · rfl
  · exact s.setSession_users i session

theorem mockLogin_users (s : Site) (email id : Bytes) :
    (mockLogin accounts s email id).site.users.map Account.toUser = s.users.map Account.toUser := by
  unfold mockLogin
  split
  · rfl
  · rfl
  · exact beginSession_users ..

theorem processDiscordLogin_users (s : Site) (profile : Profile) (id : Bytes) :
    (processDiscordLogin accounts s profile id).site.users.map Account.toUser = s.users.map Account.toUser := by
  unfold processDiscordLogin
  split
  · rfl
  · rfl
  · exact beginSession_users ..

/-- Whoever signs in for the first time is a user without the right to call. -/
theorem processGoogleLogin_users (s : Site) (profile : Profile) (id fresh : Bytes) (written : Bool) :
    SignedUp (s.users.map Account.toUser)
      ((processGoogleLogin accounts s profile id fresh written).site.users.map Account.toUser) := by
  have joins : SignedUp (s.users.map Account.toUser)
      ((s.users ++ [({ uuid := fresh, email := profile.email } : Account)]).map Account.toUser) :=
    ⟨[{ email := profile.email }], List.map_append, by simp⟩
  unfold processGoogleLogin
  split
  · exact .refl _
  · dsimp only
    split
    · rw [beginSession_users]
      exact joins
    · exact joins
  · rw [beginSession_users]
    exact .refl _

theorem authLogout_users (s : Site) (cookie : Option Bytes) :
    (authLogout accounts s cookie).users.map Account.toUser = s.users.map Account.toUser := by
  unfold authLogout
  split
  · rfl
  · exact s.setSession_users ..

theorem siteStep_users {r r' : SiteRun} {e : SiteEvent} (stepped : accounts.siteStep r e = .ok r') :
    SignedUp (r.site.users.map Account.toUser) (r'.site.users.map Account.toUser) := by
  cases e with
  | mockLogin email id =>
    cases stepped
    exact (@mockLogin_users accounts r.site email id).symm ▸ .refl _
  | discordLogin profile id =>
    cases stepped
    exact (@processDiscordLogin_users accounts r.site profile id).symm ▸ .refl _
  | googleLogin profile id fresh written =>
    cases stepped
    exact processGoogleLogin_users r.site profile id fresh written
  | logout cookie =>
    cases stepped
    exact (@authLogout_users accounts r.site cookie).symm ▸ .refl _
  | tick seconds =>
    cases stepped
    exact .refl _

variable {lib : TokenLib} {web : WebLib}

theorem Portal.step_users {p p' : Portal} {e : PortalEvent} (stepped : p.step lib accounts web e = .ok p') :
    SignedUp p.users p'.users := by
  cases e with
  | account e =>
    simp only [Portal.step] at stepped
    cases site : accounts.siteStep p.accounts e with
    | error fault => exact fault.elim
    | ok r =>
      simp only [site, Except.ok.injEq] at stepped
      exact stepped ▸ siteStep_users site
  | web r =>
    cases stepped
    exact .refl _
  | status call =>
    cases served : fetchStatus lib p.users p.now p.backend call with
    | error fault => simp [Portal.step, served, Bind.bind, Except.bind] at stepped
    | ok reply =>
      simp only [Portal.step, served, Bind.bind, Except.bind, Except.ok.injEq] at stepped
      exact stepped ▸ .refl _

theorem Portal.run_users {p p' : Portal} {events : List PortalEvent}
    (ran : run (Portal.step lib accounts web) p events = .ok p') : SignedUp p.users p'.users :=
  run_invariant (fun later => SignedUp p.users later.users)
    (fun _ _ _ joined _ stepped => joined.trans (Portal.step_users stepped)) (.refl _)
    (allowed_all p events) ran

end

/-- A header has a deadline, by the users the program begins with: whoever signs in, and whatever
happens to the servers, a call under it is answered exactly until then, as often as it is sent and
for any server that is registered under the name that is asked for. -/
theorem headers_have_deadlines (lib : TokenLib) (accounts : AccountLib) (web : WebLib) (users : List User)
    (md : Option (List Bytes)) : ∃ deadline : Option Int, ∀ (start p : Portal) (events : List PortalEvent),
      start.users = users → run (Portal.step lib accounts web) start events = .ok p → ∀ server uuid,
        fetchStatus lib p.users p.now p.backend ⟨md, server⟩ = .ok (.ok uuid) ↔
          (∃ d ∈ deadline, p.now ≤ d) ∧ server ≠ [] ∧
            ∃ f, p.backend.frontends.find? (fun f => f.name = server) = some f ∧ f.uuid = uuid := by
  obtain ⟨deadline, passes⟩ := headerPasses_deadline lib users md
  refine ⟨deadline, fun start p events begun ran server uuid => ?_⟩
  have joined : SignedUp users p.users := begun ▸ Portal.run_users ran
  rw [fetchStatus_iff, joined.headerPasses_iff, passes p.now]

/-- Claire has the key; the server is somebody else's. -/
def claireCalls (now : Int) : Portal where
  accounts := {
    site := {
      users := [{ keyHolder (ascii "claire@packetflinger.com") with allowSsh := true }]
      secret := ascii "secret"
      now := now } }
  backend := {
    clientDirectory := ascii "clients"
    frontends := [{ uuid := ascii "1", name := ascii "ffa", owner := ascii "joe@packetflinger.com" }]
    table := []
    files := fun _ => none }

def claireHeader : Option (List Bytes) :=
  getRequestMetadata (makeToken TokenLib.plain (ascii "claire@packetflinger.com") 5 1767019152 smallKey)

theorem headers_have_deadlines_claire : ∃ deadline : Option Int, ∀ server uuid,
    fetchStatus TokenLib.plain (claireCalls 1767019155).users 1767019155 (claireCalls 1767019155).backend
        ⟨claireHeader, server⟩ = .ok (.ok uuid) ↔
      (∃ d ∈ deadline, 1767019155 ≤ d) ∧ server ≠ [] ∧
        ∃ f, (claireCalls 1767019155).backend.frontends.find? (fun f => f.name = server) = some f ∧
          f.uuid = uuid := by
  have served : fetchStatus TokenLib.plain (claireCalls 1767019152).users 1767019152
      (claireCalls 1767019152).backend ⟨claireHeader, ascii "ffa"⟩ = .ok (.ok (ascii "1")) := by decide +kernel
  have ran : run (Portal.step TokenLib.plain loginLib WebLib.plain) (claireCalls 1767019152)
      [.status ⟨claireHeader, ascii "ffa"⟩, .account (.tick 3)] = .ok (claireCalls 1767019155) := by
    rw [run, Portal.step]
    show (fetchStatus TokenLib.plain (claireCalls 1767019152).users 1767019152
      (claireCalls 1767019152).backend ⟨claireHeader, ascii "ffa"⟩ >>= fun _ => .ok (claireCalls 1767019152)) >>= _ = _
    rw [served]
    rfl
  obtain ⟨deadline, meets⟩ := headers_have_deadlines TokenLib.plain loginLib WebLib.plain
    (claireCalls 1767019152).users claireHeader
  exact ⟨deadline, meets (claireCalls 1767019152) (claireCalls 1767019155) _ rfl ran⟩

end Q2Admin
