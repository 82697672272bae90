import Q2Admin.Lib.Runs
import Q2Admin.WebEffects

/-! Frontends belong to their owners. A request is allowed by the frontend its UUID finds,
but deletes by that frontend's name, and saves a key under a name from the form. What other
users own is safe exactly as long as these names lead back to the frontend that was found. -/

namespace Q2Admin
open Go Lib

variable {b b' : Backend} {user uuid : Bytes} {i : Nat} {results : Results}

/-! ## Isolation -/

/-- The names of what other users own. -/
def Backend.foreignNames (b : Backend) (user : Bytes) : List Bytes :=
  ((b.frontends.filter fun f => f.owner ≠ user).map fun f => f.name) ++
    (b.table.filter fun row => row.owner ≠ user).map fun row => row.name

/-- Nothing that another user owns has changed. -/
structure Backend.Isolated (b : Backend) (user : Bytes) (b' : Backend) : Prop where
  frontends : (b'.frontends.filter fun f => f.owner ≠ user) = b.frontends.filter fun f => f.owner ≠ user
  table : (b'.table.filter fun row => row.owner ≠ user) = b.table.filter fun row => row.owner ≠ user
  keys : ∀ name ∈ b.foreignNames user, b'.files (b.keyFile name) = b.files (b.keyFile name)

theorem filter_map_ite {α : Type} {chosen : α → Prop} [DecidablePred chosen] {f : α → α} {seen : α → Bool}
    {xs : List α} (unseen : ∀ x ∈ xs, chosen x → seen x = false ∧ seen (f x) = false) :
    (xs.map fun x => if chosen x then f x else x).filter seen = xs.filter seen := by
  induction xs with
  | nil => rfl
  | cons x xs ih =>
    have later := ih fun y member => unseen y (List.mem_cons_of_mem x member)
    rw [List.map_cons]
    split
    · rename_i here
      obtain ⟨before, after⟩ := unseen x List.mem_cons_self here
      rw [List.filter_cons_of_neg (by simp [after]), List.filter_cons_of_neg (by simp [before]), later]
    · rw [List.filter_cons, List.filter_cons, later]

theorem Backend.Consistent.filter_update (consistent : b.Consistent) (own : b.Owns user uuid i)
    {f : WebFrontend → WebFrontend} (kept : ∀ fe, (f fe).owner = fe.owner) :
    ((b.update i f).frontends.filter fun fe => fe.owner ≠ user) = b.frontends.filter fun fe => fe.owner ≠ user := by
  rw [Backend.update_eq_map consistent.uuids own]
  refine filter_map_ite fun fe member same => ?_
  have owner : fe.owner = user := by
    rw [consistent.eq_of_uuid member own.mem (same.trans own.uuid_eq.symm), own.owner_eq]
  simp [kept, owner]

theorem Backend.filter_updateRows {chosen : FrontendRow → Prop} [DecidablePred chosen]
    {f : FrontendRow → FrontendRow} (kept : ∀ row, (f row).owner = row.owner)
    (owned : ∀ row ∈ b.table, chosen row → row.owner = user) :
    ((b.updateRows chosen f).table.filter fun row => row.owner ≠ user) =
      b.table.filter fun row => row.owner ≠ user := by
  refine filter_map_ite fun row member same => ?_
  simp [kept, owned row member same]

theorem keyFile_ne_settings (b : Backend) (name path : Bytes) :
    b.keyFile name ≠ pathJoin [path, ascii "settings.pb"] := by
  have key : ascii "key" <:+ b.keyFile name :=
    suffix_pathJoin [b.clientDirectory, name] ⟨by decide, by decide, by decide, by decide⟩
  have settings : ascii "settings.pb" <:+ pathJoin [path, ascii "settings.pb"] :=
    suffix_pathJoin [path] ⟨by decide, by decide, by decide, by decide⟩
  intro same
  rw [same] at key
  exact absurd (List.suffix_of_suffix_length_le key settings (by decide)) (by decide)

/-- Of the requests, those that go by a name are not known to leave others alone. -/
theorem Backend.Effect.isolated {form : WebForm} (effect : b.Effect user results form b')
    (consistent : b.Consistent) (deletes : ∀ uuid, form = .delServer uuid → b.Isolated user b')
    (keys : ∀ name ∈ b.foreignNames user, b'.files (b.keyFile name) = b.files (b.keyFile name)) :
    b.Isolated user b' := by
  have owned_uuid {uuid : Bytes} {i : Nat} (own : b.Owns user uuid i) :
      ∀ row ∈ b.table, row.uuid = uuid → row.owner = user := by
    intro row member same
    have id := (consistent.paired _ own.mem row member).mp (same.trans own.uuid_eq.symm)
    rw [consistent.owned _ own.mem row member id, own.owner_eq]
  cases effect with
  | nothing => exact ⟨rfl, rfl, keys⟩
  | insert own named => exact ⟨rfl, by simp [WebFrontend.row, own], keys⟩
  | create own named => exact ⟨by simp [own], by simp [WebFrontend.row, own], keys⟩
  | delete own deleted => exact deletes _ rfl
  | reidentify own =>
    exact ⟨consistent.filter_update own fun f => rfl, Backend.filter_updateRows (fun row => rfl) (owned_uuid own), keys⟩
  | materialize own f data =>
    exact ⟨consistent.filter_update own fun f => rfl, Backend.filter_updateRows (fun row => rfl) (owned_uuid own), keys⟩
  | edit own edit => exact ⟨consistent.filter_update own edit.apply_owner, rfl, keys⟩
  | editRow own edit =>
    refine ⟨consistent.filter_update own edit.apply_owner, ?_, keys⟩
    refine Backend.filter_updateRows (fun row => rfl) fun row member same => ?_
    rw [own.fe_update, edit.apply_id] at same
    rw [consistent.owned _ own.mem row member same, own.owner_eq]
  | saveKey own named given => exact ⟨consistent.filter_update own fun f => rfl, rfl, keys⟩

/-! ## Deleting -/

def Backend.Owned (b : Backend) (user uuid : Bytes) : Prop :=
  uuid ≠ [] ∧ ∃ f ∈ b.frontends, f.uuid = uuid ∧ f.owner = user

instance (b : Backend) (user uuid : Bytes) : Decidable (b.Owned user uuid) :=
  inferInstanceAs (Decidable (_ ∧ _))

theorem Backend.owned_iff : b.Owned user uuid ↔ ∃ i, b.Owns user uuid i := by
  constructor
  · intro ⟨asked, f, member, same, owner⟩
    obtain ⟨i, inside, rfl⟩ := List.mem_iff_getElem.mp member
    rw [← Backend.fe_getElem inside] at same owner
    exact ⟨i, asked, inside, same, owner⟩
  · intro ⟨i, own⟩
    exact ⟨own.asked, b.fe i, own.mem, own.uuid_eq, own.owner_eq⟩

theorem Backend.forOwner_denied {unknown denied : Reply} {proceed : Nat → Backend × Reply}
    (denies : ¬ b.Owned user uuid) : (b.forOwner user uuid unknown denied proceed).1 = b :=
  Backend.forOwner_keeps (fun b' => b' = b) rfl fun i own => absurd (Backend.owned_iff.mpr ⟨i, own⟩) denies

/-- Without the frontend of that UUID, and its row. -/
def Backend.without (b : Backend) (uuid : Bytes) : Backend := { b with
  frontends := b.frontends.filter fun f => f.uuid ≠ uuid
  table := b.table.filter fun row => row.uuid ≠ uuid }

/-- The frontend has a name, and no other frontend has it. -/
def Backend.NamesOnly (b : Backend) (f : WebFrontend) : Prop :=
  f.name ≠ [] ∧ ∀ g ∈ b.frontends, g.name = f.name → g.uuid = f.uuid

instance (b : Backend) (f : WebFrontend) : Decidable (b.NamesOnly f) :=
  inferInstanceAs (Decidable (_ ∧ _))

theorem Backend.findFrontendByName_mem {f : WebFrontend} (member : f ∈ b.frontends) (named : f.name ≠ []) :
    ∃ j, b.findFrontendByName f.name = some j ∧ b.fe j ∈ b.frontends ∧ (b.fe j).name = f.name := by
  cases found : b.findFrontendByName f.name with
  | none =>
    rw [Backend.findFrontendByName, if_neg named, List.findIdx?_eq_none_iff] at found
    simpa using found f member
  | some j =>
    have first := found
    rw [Backend.findFrontendByName, if_neg named] at first
    obtain ⟨inside, same, -⟩ := List.findIdx?_eq_some_iff_getElem.mp first
    rw [← Backend.fe_getElem inside] at same
    exact ⟨j, rfl, Backend.fe_getElem inside ▸ List.getElem_mem inside, by simpa using same⟩

theorem Backend.deleteFrontend_found {name : Bytes} {j : Nat} (found : b.findFrontendByName name = some j)
    (works : results.exec = none) : b.deleteFrontend name results = some { b with
      table := b.table.filter fun row => row.id ≠ (b.fe j).id
      frontends := b.frontends.filter fun f => f.name ≠ name } := by
  rw [Backend.deleteFrontend, found]
  exact if_neg (by simp [works])

/-- What goes by the name and the id is what goes by the UUID. -/
theorem Backend.Consistent.without_eq (consistent : b.Consistent) {f : WebFrontend} (member : f ∈ b.frontends)
    (names : b.NamesOnly f) : b.without f.uuid = { b with
      table := b.table.filter fun row => row.id ≠ f.id
      frontends := b.frontends.filter fun g => g.name ≠ f.name } := by
  have memory : (b.frontends.filter fun g => g.uuid ≠ f.uuid) = b.frontends.filter fun g => g.name ≠ f.name := by
    apply List.filter_congr
    intro g before
    have back : g.uuid = f.uuid → g.name = f.name := fun same => by
      rw [consistent.eq_of_uuid before member same]
    have agree : g.uuid = f.uuid ↔ g.name = f.name := ⟨back, names.2 g before⟩
    simp [agree]
  have rows : (b.table.filter fun row => row.uuid ≠ f.uuid) = b.table.filter fun row => row.id ≠ f.id := by
    apply List.filter_congr
    intro row before
    simp [consistent.paired f member row before]
  rw [Backend.without, memory, rows]

/-- Deleting by name is deleting by UUID where the name leads back to the frontend. -/
theorem Backend.Consistent.deleteFrontend_iff (consistent : b.Consistent) {f : WebFrontend}
    (member : f ∈ b.frontends) (works : results.exec = none) :
    (b.deleteFrontend f.name results).getD b = b.without f.uuid ↔ b.NamesOnly f := by
  by_cases named : f.name = []
  · have refused : b.deleteFrontend f.name results = none := by
      rw [Backend.deleteFrontend, Backend.findFrontendByName, if_pos named]
      rfl
    rw [refused]
    refine iff_of_false (fun same => ?_) fun names => names.1 named
    have kept : f ∈ (b.without f.uuid).frontends := same ▸ member
    simp [Backend.without] at kept
  · obtain ⟨j, found, there, same_name⟩ := Backend.findFrontendByName_mem member named
    rw [Backend.deleteFrontend_found found works, Option.getD_some]
    constructor
    · intro same
      refine ⟨named, fun g before alike => ?_⟩
      by_contra apart
      have kept : g ∈ (b.without f.uuid).frontends := List.mem_filter.mpr ⟨before, by simpa using apart⟩
      rw [← same] at kept
      simp [alike] at kept
    · intro names
      have found_f : b.fe j = f := consistent.eq_of_uuid there member (names.2 _ there same_name)
      rw [found_f, consistent.without_eq member names]

theorem Backend.Consistent.without_isolated (consistent : b.Consistent) {f : WebFrontend}
    (member : f ∈ b.frontends) (owner : f.owner = user) : b.Isolated user (b.without f.uuid) := by
  refine ⟨?_, ?_, fun _ _ => rfl⟩
  · rw [Backend.without, List.filter_filter]
    apply List.filter_congr
    intro g before
    have own : g.uuid = f.uuid → g.owner = user := fun same => by
      rw [consistent.eq_of_uuid before member same, owner]
    simpa using mt own
  · rw [Backend.without, List.filter_filter]
    apply List.filter_congr
    intro row before
    have own : row.uuid = f.uuid → row.owner = user := fun same => by
      rw [consistent.owned f member row before ((consistent.paired f member row before).mp same), owner]
    simpa using mt own

/-! ## What is respected, and when -/

/-- A request of a user leaves alone what others own, and a request to delete takes the one
frontend of its UUID, unless that is not the user's or the database fails. -/
def WebLib.Respected (lib : WebLib) (b : Backend) (request : WebRequest) : Prop :=
  ∀ user ∈ request.session, b.Isolated user (lib.serve b request).1 ∧
    ∀ uuid, request.form = .delServer uuid → (lib.serve b request).1 =
      if b.Owned user uuid ∧ request.results.exec = none then b.without uuid else b

def Backend.SoundForm (b : Backend) (user : Bytes) (results : Results) : WebForm → Prop
  | .delServer uuid => results.exec = none → b.Owned user uuid →
      ∀ f ∈ b.frontends, f.uuid = uuid → b.NamesOnly f
  | .serverKeys action uuid name keydata =>
    action = ascii "SaveKey" → name ≠ [] → keydata ≠ [] → b.Owned user uuid →
      ∀ other ∈ b.foreignNames user, b.keyFile other = b.keyFile name →
        b.files (b.keyFile name) = results.write.left (trim keydata (ascii " \r\n\t"))
  | _ => True

instance (b : Backend) (user : Bytes) (results : Results) :
    (form : WebForm) → Decidable (b.SoundForm user results form)
  | .delServer _ => inferInstanceAs (Decidable (_ → _))
  | .serverKeys .. => inferInstanceAs (Decidable (_ → _))
  | .addServer .. => inferInstanceAs (Decidable True)
  | .changeUUID _ => inferInstanceAs (Decidable True)
  | .editServer .. => inferInstanceAs (Decidable True)

/-- The name a request goes by leads to the frontend that its UUID finds: a frontend to be
deleted has a name of its own, and a key is saved where no other user's key is, unless that
is the key already. -/
def Backend.Sound (b : Backend) (request : WebRequest) : Prop :=
  ∀ user ∈ request.session, b.SoundForm user request.results request.form

instance (b : Backend) (request : WebRequest) : Decidable (b.Sound request) :=
  inferInstanceAs (Decidable (∀ user ∈ request.session, _))

theorem Backend.Effect.keys_kept {form : WebForm} (effect : b.Effect user results form b')
    (saves : ∀ action uuid name keydata, form ≠ .serverKeys action uuid name keydata) (name : Bytes) :
    b'.files (b.keyFile name) = b.files (b.keyFile name) := by
  cases effect with
  | nothing => rfl
  | insert own named => rfl
  | create own named => rfl
  | delete own deleted =>
    obtain ⟨j, -, -, rfl⟩ := Backend.deleteFrontend_some deleted
    rfl
  | reidentify own => rfl
  | materialize own f data => exact Function.update_of_ne (keyFile_ne_settings b name f.path) _ b.files
  | edit own edit => rfl
  | editRow own edit => rfl
  | saveKey own named given => exact absurd rfl (saves _ _ _ _)

theorem Backend.isolated_refl (b : Backend) (user : Bytes) : b.Isolated user b := ⟨rfl, rfl, fun _ _ => rfl⟩

theorem Backend.deleteFrontend_refused (name : Bytes) (fails : results.exec ≠ none) :
    b.deleteFrontend name results = none := by
  cases found : b.deleteFrontend name results with
  | none => rfl
  | some b' =>
    obtain ⟨j, -, works, -⟩ := Backend.deleteFrontend_some found
    exact absurd works fails

theorem webDelServer_owned (lib : WebLib) (consistent : b.Consistent) (own : b.Owns user uuid i) :
    (lib.webDelServer b user uuid results).1 = (b.deleteFrontend (b.fe i).name results).getD b := by
  rw [WebLib.webDelServer, Backend.forOwner_owns consistent.uuids own]
  cases b.deleteFrontend (b.fe i).name results with
  | none => rfl
  | some b' => rfl

theorem webDelServer_respected_iff (lib : WebLib) (consistent : b.Consistent) (user uuid : Bytes)
    (results : Results) : (b.Isolated user (lib.webDelServer b user uuid results).1 ∧
      (lib.webDelServer b user uuid results).1 =
        if b.Owned user uuid ∧ results.exec = none then b.without uuid else b) ↔
      b.SoundForm user results (.delServer uuid) := by
  by_cases owned : b.Owned user uuid
  · obtain ⟨i, own⟩ := Backend.owned_iff.mp owned
    rw [webDelServer_owned lib consistent own]
    by_cases works : results.exec = none
    · have exact_iff := consistent.deleteFrontend_iff own.mem works
      rw [own.uuid_eq] at exact_iff
      have sound_iff : b.SoundForm user results (.delServer uuid) ↔ b.NamesOnly (b.fe i) := by
        refine ⟨fun sound => sound works owned _ own.mem own.uuid_eq, fun names _ _ f member same => ?_⟩
        rw [consistent.eq_of_uuid member own.mem (same.trans own.uuid_eq.symm)]
        exact names
      rw [if_pos ⟨owned, works⟩, sound_iff, ← exact_iff]
      refine and_iff_right_of_imp fun same => ?_
      rw [same, ← own.uuid_eq]
      exact consistent.without_isolated own.mem own.owner_eq
    · rw [Backend.deleteFrontend_refused _ works, if_neg fun both => works both.2]
      exact iff_of_true ⟨b.isolated_refl user, rfl⟩ fun worked => absurd worked works
  · have denied : (lib.webDelServer b user uuid results).1 = b := Backend.forOwner_denied owned
    rw [denied, if_neg fun both => owned both.1]
    exact iff_of_true ⟨b.isolated_refl user, rfl⟩ fun _ own => absurd own owned

/-- The key goes into the file of the name in the form. -/
theorem serverKeysHandler_files (results : Results) (consistent : b.Consistent) (own : b.Owns user uuid i)
    {name keydata : Bytes} (named : name ≠ []) (given : keydata ≠ []) :
    (b.serverKeysHandler user (ascii "SaveKey") uuid name keydata results).1.files =
      Function.update b.files (b.keyFile name) (results.write.left (trim keydata (ascii " \r\n\t"))) := by
  rw [Backend.serverKeysHandler, if_pos rfl, if_neg (by simp [own.asked, named, given]), Backend.forOwner_owns consistent.uuids own]
  dsimp only
  rw [own.fe_update]
  split
  · rfl
  · rfl

theorem serverKeysHandler_unsaved {action name keydata : Bytes}
    (unsaved : ¬ (action = ascii "SaveKey" ∧ name ≠ [] ∧ keydata ≠ [] ∧ b.Owned user uuid)) :
    (b.serverKeysHandler user action uuid name keydata results).1 = b := by
  unfold Backend.serverKeysHandler
  split
  · rename_i asked
    split
    · rfl
    rename_i filled
    have unowned : ¬ b.Owned user uuid := fun owned => unsaved
      ⟨asked, fun empty => filled (.inr (.inl empty)), fun empty => filled (.inr (.inr empty)), owned⟩
    exact Backend.forOwner_denied unowned
  · rfl

theorem serverKeysHandler_isolated_iff (consistent : b.Consistent) (user action uuid name keydata : Bytes)
    (results : Results) : b.Isolated user (b.serverKeysHandler user action uuid name keydata results).1 ↔
      b.SoundForm user results (.serverKeys action uuid name keydata) := by
  by_cases saves : action = ascii "SaveKey" ∧ name ≠ [] ∧ keydata ≠ [] ∧ b.Owned user uuid
  · obtain ⟨rfl, named, given, owned⟩ := saves
    obtain ⟨i, own⟩ := Backend.owned_iff.mp owned
    have files := serverKeysHandler_files results consistent own named given
    have effect := serverKeysHandler_effect b user (ascii "SaveKey") uuid name keydata results
    constructor
    · intro isolated _ _ _ _ other foreign same
      have kept := isolated.keys other foreign
      rw [files, same, Function.update_self] at kept
      exact kept.symm
    · intro sound
      refine effect.isolated consistent (fun uuid deletes => by cases deletes) fun other foreign => ?_
      rw [files]
      by_cases same : b.keyFile other = b.keyFile name
      · rw [same, Function.update_self]
        exact (sound rfl named given owned other foreign same).symm
      · rw [Function.update_of_ne same]
  · rw [serverKeysHandler_unsaved saves]
    exact iff_of_true (b.isolated_refl user) fun asked named given owned => absurd ⟨asked, named, given, owned⟩ saves

theorem respected_iff (lib : WebLib) (consistent : b.Consistent) (request : WebRequest) :
    lib.Respected b request ↔ b.Sound request := by
  apply forall_congr'
  intro user
  apply imp_congr_right
  intro session
  have served : (lib.serve b request).1 = (lib.handle b user request.results request.form).1 := by
    rw [WebLib.serve, Option.mem_def.mp session]
  rw [served]
  have harmless (deletes : ∀ uuid, request.form ≠ .delServer uuid)
      (saves : ∀ action uuid name keydata, request.form ≠ .serverKeys action uuid name keydata) :
      b.Isolated user (lib.handle b user request.results request.form).1 := by
    have effect := handle_effect lib b user request.results request.form
    exact effect.isolated consistent (fun uuid same => absurd same (deletes uuid))
      fun name _ => effect.keys_kept saves name
  cases asked : request.form with
  | delServer uuid =>
    rw [← webDelServer_respected_iff lib consistent]
    apply and_congr_right
    intro _
    refine ⟨fun exactly => exactly uuid rfl, fun exactly uuid' same => ?_⟩
    rw [← WebForm.delServer.inj same]
    exact exactly
  | serverKeys action uuid name keydata =>
    rw [← serverKeysHandler_isolated_iff consistent]
    exact and_iff_left fun uuid same => by cases same
  | addServer addButton name address port =>
    rw [asked] at harmless
    exact iff_of_true ⟨harmless (by simp) (by simp), by simp⟩ trivial
  | changeUUID uuid =>
    rw [asked] at harmless
    exact iff_of_true ⟨harmless (by simp) (by simp), by simp⟩ trivial
  | editServer uuid name address enabled teleport invite protect =>
    rw [asked] at harmless
    exact iff_of_true ⟨harmless (by simp) (by simp), by simp⟩ trivial

/-! ## Runs -/

/-- One request; a handler that panics ends only its own. -/
def WebLib.step (lib : WebLib) (b : Backend) (request : WebRequest) : Except Empty Backend :=
  .ok (lib.serve b request).1

theorem serve_consistent (lib : WebLib) (consistent : b.Consistent) {request : WebRequest}
    (fresh : b.Fresh request.results) : (lib.serve b request).1.Consistent := by
  unfold WebLib.serve
  split
  · exact consistent
  · exact (handle_effect lib b _ request.results request.form).consistent consistent fresh

/-- A run of requests respects the owners of the frontends exactly if every request in it
goes by a name that leads to the frontend it may change. -/
theorem owners_respected (lib : WebLib) {requests : List WebRequest} (consistent : b.Consistent)
    (fresh : Allowed lib.step (fun b request => b.Fresh request.results) b requests) :
    Allowed lib.step lib.Respected b requests ↔ Allowed lib.step Backend.Sound b requests := by
  refine allowed_congr Backend.Consistent ?_ ?_ consistent fresh
  · intro b request b' start new stepped
    exact Except.ok.inj stepped ▸ serve_consistent lib start new
  · intro b request start _
    exact respected_iff lib start request

/-- A backend with one frontend, whose owner's key is in its file. -/
def ffaBackend : Backend :=
  let f : WebFrontend := { uuid := ascii "a1", name := ascii "ffa", owner := ascii "first@q2" }
  Backend.load (ascii "clients") [f.row 1] fun path =>
    if path = ascii "clients/ffa/key" then some (ascii "first key") else none

theorem ffaBackend_consistent : ffaBackend.Consistent := load_consistent _ _ (by decide) (by decide)

/-- A request of another user. -/
def secondAsks (form : WebForm) (newUUID : String) (rowID : Int) : WebRequest where
  session := some (ascii "second@q2")
  form := form
  results := { uuid := ascii newUUID, rowID := rowID }

def secondAdds (name : String) : WebRequest :=
  secondAsks (.addServer (ascii "Add") (ascii name) (ascii "10.0.0.2") []) "b2" 2

/-- A server added under a name of its own is edited, gets a key and a new UUID, and is deleted. -/
def duelRequests : List WebRequest := [
  secondAdds "Duel Two",
  secondAsks (.editServer (ascii "b2") (ascii "duel") (ascii "10.0.0.3:27911") (ascii "on") [] [] []) "b3" 3,
  secondAsks (.serverKeys (ascii "SaveKey") (ascii "b2") (ascii "duel") (ascii "second key\n")) "b4" 4,
  secondAsks (.changeUUID (ascii "b2")) "b5" 5,
  secondAsks (.delServer (ascii "b5")) "b6" 6]

theorem owners_respected_duel : Allowed WebLib.plain.step WebLib.plain.Respected ffaBackend duelRequests :=
  (owners_respected WebLib.plain ffaBackend_consistent (by decide +kernel)).mpr (by decide +kernel)

/-- A server added under the name of another is deleted, which takes the other one from
memory and from the table, and leaves the row of the one that was asked for. -/
def ffaRequests : List WebRequest := [secondAdds "FFA", secondAsks (.delServer (ascii "b2")) "b3" 3]

theorem owners_not_respected :
    Allowed WebLib.plain.step (fun b request => b.Fresh request.results) ffaBackend ffaRequests ∧
      (run WebLib.plain.step ffaBackend ffaRequests).toOption.map (fun b =>
        (b.frontends.map fun f => f.uuid, b.table.map fun row => row.uuid)) = some ([], [ascii "b2"]) ∧
      ¬ Allowed WebLib.plain.step WebLib.plain.Respected ffaBackend ffaRequests := by
  refine ⟨by decide +kernel, by decide +kernel, fun respected => ?_⟩
  have isolated := ((respected.2 _ rfl).1 (ascii "second@q2") rfl).1.table
  exact absurd isolated (by decide +kernel)

end Q2Admin
