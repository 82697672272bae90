import Q2Admin.RuleActions
import Q2Admin.Settings

/-! Which servers the pages of the website show to whom. Some list the servers of the visitor,
one those that are connected, and the others show what their address names, a server or a
rule, without asking whose it is. A visitor can name what he has seen on a page before. -/

namespace Q2Admin
open Go

/-- The requests for pages about servers, with the variables of their routes. -/
inductive PageRequest where
  | dashboard
  | servers
  | listServers
  | connectedServers
  | serverView (uuid : Bytes)
  | playerView (uuid clientNum : Bytes)
  | ruleView (uuid : Bytes)
  | ruleEdit (uuid : Bytes)
  | ruleList (uuid : Bytes)
  deriving DecidableEq

/-- What a page is made of. -/
inductive PageData where
  | signon
  | failure
  | aborted
  | listing (frontends : List SharedFrontend)
  /-- Of these frontends, the name, the UUID and the number of slots. -/
  | active (frontends : List SharedFrontend)
  | server (f : SharedFrontend)
  | player (f : SharedFrontend) (p : Player)
  | rule (found : Option (SharedFrontend × Rule))
  | rules (found : Option (SharedFrontend × List Rule))

/-- The frontends a page is about. -/
def PageData.frontends : PageData → List SharedFrontend
  | signon | failure | aborted => []
  | listing frontends | active frontends => frontends
  | server f | player f _ => [f]
  | rule found => (found.map Prod.fst).toList
  | rules found => (found.map Prod.fst).toList

section
variable (equalFold : Bytes → Bytes → Bool) (frontends : List SharedFrontend)

/-- `FrontendsByIdentity` -/
def frontendsByIdentity (ident : Bytes) : List SharedFrontend :=
  if ident = [] then [] else frontends.filter fun cl => equalFold cl.owner ident

/-- `UserFrontends` -/
def userFrontends (u : Bytes) : List SharedFrontend :=
  if u = [] then []
  else frontends.flatMap fun f => (f.webUsers.keys.filter fun k => equalFold k u).map fun _ => f

/-- `FindFrontend` -/
def findShared (lookup : Bytes) : Option SharedFrontend :=
  if lookup = [] then none else frontends.find? fun f => f.uuid = lookup

/-- The last rule with this UUID, and the frontend it is of: the loops of `RuleViewHandler` and
`RuleEditHandler`. -/
def findRule (frontends : List SharedFrontend) (lookup : Bytes) : Option (SharedFrontend × Rule) :=
  (frontends.flatMap fun f => (f.rules.filter fun r => r.uuid = lookup).map fun r => (f, r)).getLast?

/-- `PlayerViewHandler`, which looks the frontend up before it asks for a session. -/
def playerViewHandler (user : Option Bytes) (uuid clientNum : Bytes) : PageData :=
  match findShared frontends uuid with
  | none => .failure
  | some fe =>
    match user with
    | none => .signon
    | some _ =>
      match atoi clientNum with
      | none => .failure
      | some pid =>
        if pid < 0 ∨ pid ≥ fe.maxPlayers then .failure
        else
          match fe.players[pid.toNat]? with
          | none => .aborted
          | some p => .player fe p

/-- The handlers of pages that need a session, `user` being its user. -/
def sessionPage (user : Bytes) : PageRequest → PageData
  | .dashboard | .servers | .listServers => .listing (frontendsByIdentity equalFold frontends user)
  | .serverView uuid =>
    match findShared frontends uuid with
    | none => .failure
    | some fe => .server fe
  | .ruleView uuid => .rule (findRule (userFrontends equalFold frontends user) uuid)
  | .ruleEdit uuid => .rule (findRule frontends uuid)
  | .ruleList uuid => .rules <|
    ((userFrontends equalFold frontends user).find? fun f => f.uuid = uuid).map fun f => (f, sortRules f.rules)
  | .playerView .. | .connectedServers => .failure

/-- The page a visitor gets, with or without a session. -/
def pageFor (user : Option Bytes) : PageRequest → PageData
  | .connectedServers => .active (frontends.filter fun s => s.connected)
  | .playerView uuid clientNum => playerViewHandler frontends user uuid clientNum
  | request =>
    match user with
    | none => .signon
    | some user => sessionPage equalFold frontends user request

end

/-- The frontends as they are, and what a visitor asks for. -/
structure Visit where
  frontends : List SharedFrontend
  request : PageRequest

/-- A request whose address names something names it after what has been seen. -/
def PageRequest.Names (seen : List SharedFrontend) : PageRequest → Prop
  | dashboard | servers | listServers | connectedServers => True
  | serverView uuid | playerView uuid _ | ruleList uuid => ∃ f ∈ seen, f.uuid = uuid
  | ruleView uuid | ruleEdit uuid => uuid ≠ [] ∧ ∃ f ∈ seen, ∃ r ∈ f.rules, r.uuid = uuid

/-- Visits one after the other, each of which follows what the pages before have shown. -/
def Explores (equalFold : Bytes → Bytes → Bool) (user : Option Bytes) : List SharedFrontend → List Visit → Prop
  | _, [] => True
  | seen, v :: rest => v.request.Names seen ∧
    Explores equalFold user (seen ++ (pageFor equalFold v.frontends user v.request).frontends) rest

/-- Connected servers are listed for everybody, others for who has the address of the owner. -/
def SharedFrontend.Exposed (equalFold : Bytes → Bytes → Bool) (user : Option Bytes) (f : SharedFrontend) : Prop :=
  f.connected = true ∨ ∃ email, user = some email ∧ email ≠ [] ∧ equalFold f.owner email = true

/-- UUIDs of servers and of rules each belong to one server. -/
structure Distinguished (server ruleServer : Bytes → Int) (frontends : List SharedFrontend) : Prop where
  server : ∀ f ∈ frontends, server f.uuid = f.id
  rule : ∀ f ∈ frontends, ∀ r ∈ f.rules, r.uuid ≠ [] → ruleServer r.uuid = f.id

variable {equalFold : Bytes → Bytes → Bool} {frontends : List SharedFrontend} {user : Option Bytes} {f : SharedFrontend}

/-! ## One page -/

theorem userFrontends_mem {u : Bytes} (listed : f ∈ userFrontends equalFold frontends u) : f ∈ frontends := by
  unfold userFrontends at listed
  split at listed
  · cases listed
  · obtain ⟨g, member, same⟩ := List.mem_flatMap.mp listed
    obtain ⟨_, _, rfl⟩ := List.mem_map.mp same
    exact member

theorem findShared_mem {lookup : Bytes} (found : findShared frontends lookup = some f) :
    f ∈ frontends ∧ f.uuid = lookup := by
  unfold findShared at found
  split at found
  · cases found
  · exact ⟨List.mem_of_find?_eq_some found, by simpa using List.find?_some found⟩

theorem findRule_mem {lookup : Bytes} {r : Rule} (found : findRule frontends lookup = some (f, r)) :
    f ∈ frontends ∧ r ∈ f.rules ∧ r.uuid = lookup := by
  obtain ⟨g, member, there⟩ := List.mem_flatMap.mp (List.mem_of_getLast? found)
  obtain ⟨s, chosen, same⟩ := List.mem_map.mp there
  obtain ⟨rfl, rfl⟩ := Prod.mk.inj same
  obtain ⟨held, named⟩ := List.mem_filter.mp chosen
  exact ⟨member, held, of_decide_eq_true named⟩

/-- The address names this frontend, or a rule of it. -/
def PageRequest.IsFor (f : SharedFrontend) : PageRequest → Prop
  | dashboard | servers | listServers | connectedServers => False
  | serverView uuid | playerView uuid _ | ruleList uuid => f.uuid = uuid
  | ruleView uuid | ruleEdit uuid => ∃ r ∈ f.rules, r.uuid = uuid

theorem playerViewHandler_frontends {uuid clientNum : Bytes}
    (shown : f ∈ (playerViewHandler frontends user uuid clientNum).frontends) : f ∈ frontends ∧ f.uuid = uuid := by
  unfold playerViewHandler at shown
  split at shown
  · cases shown
  next fe found =>
  split at shown
  · cases shown
  split at shown
  · cases shown
  split at shown
  · cases shown
  split at shown
  · cases shown
  · exact List.mem_singleton.mp shown ▸ findShared_mem found

theorem sessionPage_frontends {email : Bytes} {request : PageRequest}
    (shown : f ∈ (sessionPage equalFold frontends email request).frontends) :
    f ∈ frontends ∧ (f.Exposed equalFold (some email) ∨ request.IsFor f) := by
  have own (listed : f ∈ frontendsByIdentity equalFold frontends email) :
      f ∈ frontends ∧ f.Exposed equalFold (some email) := by
    unfold frontendsByIdentity at listed
    split at listed
    · cases listed
    next known =>
    obtain ⟨member, same⟩ := List.mem_filter.mp listed
    exact ⟨member, .inr ⟨email, rfl, known, same⟩⟩
  cases request with
  | dashboard | servers | listServers => exact ⟨(own shown).1, .inl (own shown).2⟩
  | connectedServers => cases shown
  | playerView => cases shown
  | serverView uuid =>
    dsimp only [sessionPage] at shown
    split at shown
    · cases shown
    next fe found =>
    obtain rfl := List.mem_singleton.mp shown
    exact ⟨(findShared_mem found).1, .inr (findShared_mem found).2⟩
  | ruleView uuid =>
    obtain ⟨⟨_, r⟩, found, rfl⟩ := Option.map_eq_some_iff.mp (Option.mem_toList.mp shown)
    obtain ⟨member, held, same⟩ := findRule_mem found
    exact ⟨userFrontends_mem member, .inr ⟨r, held, same⟩⟩
  | ruleEdit uuid =>
    obtain ⟨⟨_, r⟩, found, rfl⟩ := Option.map_eq_some_iff.mp (Option.mem_toList.mp shown)
    obtain ⟨member, held, same⟩ := findRule_mem found
    exact ⟨member, .inr ⟨r, held, same⟩⟩
  | ruleList uuid =>
    obtain ⟨⟨_, sorted⟩, there, rfl⟩ := Option.map_eq_some_iff.mp (Option.mem_toList.mp shown)
    obtain ⟨g, found, same⟩ := Option.map_eq_some_iff.mp there
    obtain ⟨rfl, -⟩ := Prod.mk.inj same
    have named : g.uuid = uuid := by simpa using List.find?_some found
    exact ⟨userFrontends_mem (List.mem_of_find?_eq_some found), .inr named⟩

/-- A page is about frontends that are listed for the visitor, or that its address names. -/
theorem pageFor_frontends {request : PageRequest} (shown : f ∈ (pageFor equalFold frontends user request).frontends) :
    f ∈ frontends ∧ (f.Exposed equalFold user ∨ request.IsFor f) := by
  unfold pageFor at shown
  split at shown
  · obtain ⟨member, connected⟩ := List.mem_filter.mp shown
    exact ⟨member, .inl (.inl connected)⟩
  · obtain ⟨member, same⟩ := playerViewHandler_frontends shown
    exact ⟨member, .inr same⟩
  · cases user with
    | none => cases shown
    | some email => exact sessionPage_frontends shown

/-! ## One page after the other -/

/-- What an address names after what has been seen is a server that has been seen. -/
theorem PageRequest.Names.seen {server ruleServer : Bytes → Int} {seen : List SharedFrontend} {request : PageRequest}
    (names : request.Names seen) (before : Distinguished server ruleServer seen)
    (now : Distinguished server ruleServer frontends) (member : f ∈ frontends) (asked : request.IsFor f) :
    ∃ g ∈ seen, g.id = f.id := by
  have named {uuid : Bytes} (known : ∃ g ∈ seen, g.uuid = uuid) (same : f.uuid = uuid) : ∃ g ∈ seen, g.id = f.id := by
    obtain ⟨g, old, same'⟩ := known
    refine ⟨g, old, ?_⟩
    rw [← before.server g old, ← now.server f member, same', same]
  have ruled {uuid : Bytes} (known : uuid ≠ [] ∧ ∃ g ∈ seen, ∃ r ∈ g.rules, r.uuid = uuid)
      (same : ∃ r ∈ f.rules, r.uuid = uuid) : ∃ g ∈ seen, g.id = f.id := by
    obtain ⟨some, g, old, r, held, rfl⟩ := known
    obtain ⟨r', held', same'⟩ := same
    refine ⟨g, old, ?_⟩
    rw [← before.rule g old r held some, ← now.rule f member r' held' (same' ▸ some), same']
  cases request with
  | dashboard | servers | listServers | connectedServers => exact asked.elim
  | serverView | playerView | ruleList => exact named names asked
  | ruleView | ruleEdit => exact ruled names asked

theorem explores_exposed (exposed : Int → Prop) {server ruleServer : Bytes → Int} {seen : List SharedFrontend}
    {visits : List Visit} (old : Distinguished server ruleServer seen) (start : ∀ f ∈ seen, exposed f.id)
    (distinguished : ∀ v ∈ visits, Distinguished server ruleServer v.frontends)
    (now : ∀ v ∈ visits, ∀ f ∈ v.frontends, f.Exposed equalFold user → exposed f.id)
    (explores : Explores equalFold user seen visits) :
    ∀ v ∈ visits, ∀ f ∈ (pageFor equalFold v.frontends user v.request).frontends, exposed f.id := by
  induction visits generalizing seen with
  | nil => exact fun v member => nomatch member
  | cons v rest ih =>
    have current := distinguished v List.mem_cons_self
    have here : ∀ f ∈ (pageFor equalFold v.frontends user v.request).frontends, f ∈ v.frontends ∧ exposed f.id := by
      intro f shown
      obtain ⟨member, listed | asked⟩ := pageFor_frontends shown
      · exact ⟨member, now v List.mem_cons_self f member listed⟩
      · obtain ⟨g, known, same⟩ := explores.1.seen old current member asked
        exact ⟨member, same ▸ start g known⟩
    have later (f : SharedFrontend) (member : f ∈ seen ++ (pageFor equalFold v.frontends user v.request).frontends) :
        (f ∈ seen ∨ f ∈ v.frontends) ∧ exposed f.id := by
      rcases List.mem_append.mp member with known | shown
      · exact ⟨.inl known, start f known⟩
      · exact ⟨.inr (here f shown).1, (here f shown).2⟩
    have both : Distinguished server ruleServer (seen ++ (pageFor equalFold v.frontends user v.request).frontends) := by
      constructor
      · intro f member
        exact (later f member).1.elim (old.server f) (current.server f)
      · intro f member
        exact (later f member).1.elim (old.rule f) (current.rule f)
    intro v' member
    rcases List.mem_cons.mp member with rfl | behind
    · exact fun f shown => (here f shown).2
    · exact ih both (fun f member => (later f member).2)
        (fun v member => distinguished v (List.mem_cons_of_mem _ member))
        (fun v member => now v (List.mem_cons_of_mem _ member)) explores.2 v' behind

theorem distinguished_nil (server ruleServer : Bytes → Int) : Distinguished server ruleServer [] where
  server := fun _ member => nomatch member
  rule := fun _ member => nomatch member

/-- However long somebody follows what the pages show him, and whatever happens in between:
a server that comes to be shown to him is one that has been connected at one of his visits,
or whose owner has had his address at one of them. -/
theorem shown_was_exposed {server ruleServer : Bytes → Int} {visits : List Visit}
    (distinguished : ∀ v ∈ visits, Distinguished server ruleServer v.frontends)
    (explores : Explores equalFold user [] visits) : ∀ v ∈ visits,
      ∀ f ∈ (pageFor equalFold v.frontends user v.request).frontends,
        ∃ v' ∈ visits, ∃ g ∈ v'.frontends, g.id = f.id ∧ g.Exposed equalFold user := by
  have now : ∀ v ∈ visits, ∀ f ∈ v.frontends, f.Exposed equalFold user →
      ∃ v' ∈ visits, ∃ g ∈ v'.frontends, g.id = f.id ∧ g.Exposed equalFold user :=
    fun v member f held listed => ⟨v, member, f, held, rfl, listed⟩
  exact explores_exposed (fun id => ∃ v' ∈ visits, ∃ g ∈ v'.frontends, g.id = id ∧ g.Exposed equalFold user)
    (distinguished_nil server ruleServer) (fun _ member => nomatch member) distinguished now explores

/-- A server that is connected, and one that is not. -/
def duelServer : SharedFrontend := { id := 1, uuid := ascii "a1", owner := ascii "first@q2", connected := true }

def ffaServer : SharedFrontend := { id := 2, uuid := ascii "b2", owner := ascii "first@q2" }

def numbered (uuid : Bytes) : Int := if uuid = ascii "a1" then 1 else 2

theorem servers_distinguished : Distinguished numbered numbered [duelServer, ffaServer] where
  server := by decide
  rule := by decide

/-- A stranger sees the server that is connected, and then its own page. -/
def strangerVisits : List Visit := [
  ⟨[duelServer, ffaServer], .connectedServers⟩,
  ⟨[duelServer, ffaServer], .serverView (ascii "a1")⟩]

theorem shown_was_exposed_stranger : ∃ v ∈ strangerVisits, ∃ g ∈ v.frontends, g.id = 1 ∧
    g.Exposed (· == ·) (some (ascii "third@q2")) := by
  have distinguished (v : Visit) (member : v ∈ strangerVisits) : Distinguished numbered numbered v.frontends := by
    simp only [strangerVisits, List.mem_cons, List.not_mem_nil, or_false] at member
    rcases member with rfl | rfl <;> exact servers_distinguished
  have explores : Explores (· == ·) (some (ascii "third@q2")) [] strangerVisits :=
    ⟨trivial, ⟨duelServer, List.mem_singleton_self duelServer, rfl⟩, trivial⟩
  exact shown_was_exposed distinguished explores ⟨[duelServer, ffaServer], .serverView (ascii "a1")⟩
    (by simp [strangerVisits])
    duelServer (List.mem_singleton_self duelServer)

/-! ## What can be shown -/

theorem findShared_of_mem (ids : (frontends.map fun f => f.id).Nodup) {server ruleServer : Bytes → Int}
    (distinguished : Distinguished server ruleServer frontends) (member : f ∈ frontends) (named : f.uuid ≠ []) :
    findShared frontends f.uuid = some f := by
  unfold findShared
  rw [if_neg named]
  cases found : frontends.find? fun g => g.uuid = f.uuid with
  | none =>
    have unknown := List.find?_eq_none.mp found f member
    exact absurd (decide_eq_true rfl) unknown
  | some g =>
    have same : g.uuid = f.uuid := by simpa using List.find?_some found
    have known := List.mem_of_find?_eq_some found
    have id : g.id = f.id := by rw [← distinguished.server g known, ← distinguished.server f member, same]
    rw [List.inj_on_of_nodup_map ids known member id]

/-- As things are at some moment, whoever is signed in can get to the page of a server exactly
if it is connected, or if the owner has his address. -/
theorem viewable_iff {server ruleServer : Bytes → Int} {email : Bytes} (ids : (frontends.map fun f => f.id).Nodup)
    (distinguished : Distinguished server ruleServer frontends) (member : f ∈ frontends) (named : f.uuid ≠ []) :
    (∃ requests : List PageRequest, Explores equalFold (some email) [] (requests.map (Visit.mk frontends)) ∧
      ∃ request ∈ requests, pageFor equalFold frontends (some email) request = .server f) ↔
      f.Exposed equalFold (some email) := by
  constructor
  · intro viewable
    obtain ⟨requests, explores, request, asked, shown⟩ := viewable
    have visited (v : Visit) (member : v ∈ requests.map (Visit.mk frontends)) : v.frontends = frontends := by
      obtain ⟨_, _, rfl⟩ := List.mem_map.mp member
      rfl
    have exposed := explores_exposed (fun id => ∃ g ∈ frontends, g.id = id ∧ g.Exposed equalFold (some email))
      (distinguished_nil server ruleServer) (fun _ member => nomatch member)
      (fun v member => visited v member ▸ distinguished)
      (fun v member f held listed => ⟨f, visited v member ▸ held, rfl, listed⟩) explores
    obtain ⟨g, held, same, listed⟩ := exposed _ (List.mem_map_of_mem asked) f (by
      rw [shown]
      exact List.mem_singleton_self f)
    exact List.inj_on_of_nodup_map ids held member same ▸ listed
  · intro exposed
    have viewed : pageFor equalFold frontends (some email) (.serverView f.uuid) = .server f := by
      dsimp only [pageFor, sessionPage]
      rw [findShared_of_mem ids distinguished member named]
    have listed : ∃ request : PageRequest, request.Names [] ∧
        f ∈ (pageFor equalFold frontends (some email) request).frontends := by
      rcases exposed with connected | ⟨_, mine, known, same⟩
      · exact ⟨.connectedServers, trivial, List.mem_filter.mpr ⟨member, connected⟩⟩
      · obtain rfl := Option.some.inj mine
        refine ⟨.servers, trivial, ?_⟩
        dsimp only [pageFor, sessionPage, frontendsByIdentity]
        rw [if_neg known]
        exact List.mem_filter.mpr ⟨member, same⟩
    obtain ⟨request, free, there⟩ := listed
    refine ⟨[request, .serverView f.uuid], ⟨free, ⟨f, there, rfl⟩, trivial⟩, _, ?_, viewed⟩
    exact List.mem_cons_of_mem _ List.mem_cons_self

/-- A stranger gets to the page of the server that is connected, and not to that of the other. -/
theorem viewable_iff_stranger :
    (∃ requests : List PageRequest,
      Explores (· == ·) (some (ascii "third@q2")) [] (requests.map (Visit.mk [duelServer, ffaServer])) ∧
        ∃ request ∈ requests, pageFor (· == ·) [duelServer, ffaServer] (some (ascii "third@q2")) request =
          .server duelServer) ∧
      ¬ ∃ requests : List PageRequest,
        Explores (· == ·) (some (ascii "third@q2")) [] (requests.map (Visit.mk [duelServer, ffaServer])) ∧
          ∃ request ∈ requests, pageFor (· == ·) [duelServer, ffaServer] (some (ascii "third@q2")) request =
            .server ffaServer := by
  constructor
  · exact (viewable_iff (by decide) servers_distinguished (by simp) (by decide)).mpr (.inl rfl)
  · intro viewable
    rcases (viewable_iff (by decide) servers_distinguished (by simp) (by decide)).mp viewable with connected | own
    · exact absurd connected (by decide)
    · obtain ⟨_, mine, -, same⟩ := own
      obtain rfl := Option.some.inj mine
      exact absurd same (by decide)

end Q2Admin
