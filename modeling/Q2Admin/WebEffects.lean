import Mathlib.Data.List.Nodup
import Q2Admin.Website

/-! What a web request can make of the backend: it is allowed by the owner of the frontend
its UUID finds, and whatever it does then, the frontends in memory and their rows still
know each other by UUID and by id. -/

namespace Q2Admin
open Go

/-! ## What the requests rely on -/

/-- A frontend in memory and its row know each other by UUID and by id, and have one owner. -/
structure Backend.Consistent (b : Backend) : Prop where
  uuids : (b.frontends.map fun f => f.uuid).Nodup
  paired : ∀ f ∈ b.frontends, ∀ row ∈ b.table, row.uuid = f.uuid ↔ row.id = f.id
  owned : ∀ f ∈ b.frontends, ∀ row ∈ b.table, row.id = f.id → row.owner = f.owner

/-- Random UUIDs and the ids of an `AUTOINCREMENT` column do not come twice. -/
def Backend.Fresh (b : Backend) (results : Results) : Prop :=
  (∀ f ∈ b.frontends, f.uuid ≠ results.uuid ∧ f.id ≠ results.rowID) ∧
    ∀ row ∈ b.table, row.uuid ≠ results.uuid ∧ row.id ≠ results.rowID

instance (b : Backend) (results : Results) : Decidable (b.Fresh results) :=
  inferInstanceAs (Decidable (_ ∧ _))

theorem load_consistent (clientDirectory : Bytes) {table : List FrontendRow} (files : Bytes → Option Bytes)
    (ids : (table.map fun row => row.id).Nodup) (uuids : (table.map fun row => row.uuid).Nodup) :
    (Backend.load clientDirectory table files).Consistent := by
  have same_row {row row' : FrontendRow} (member : row ∈ table) (member' : row' ∈ table) :
      (row'.uuid = row.uuid ↔ row'.id = row.id) ∧ (row'.id = row.id → row'.owner = row.owner) := by
    have by_id := fun same : row'.id = row.id => List.inj_on_of_nodup_map ids member' member same
    have by_uuid := fun same : row'.uuid = row.uuid => List.inj_on_of_nodup_map uuids member' member same
    exact ⟨⟨fun same => by rw [by_uuid same], fun same => by rw [by_id same]⟩, fun same => by rw [by_id same]⟩
  refine ⟨?_, ?_, ?_⟩
  · rw [Backend.load, List.map_map]
    exact uuids
  · intro f loaded row' member'
    obtain ⟨row, member, rfl⟩ := List.mem_map.mp loaded
    exact (same_row member member').1
  · intro f loaded row' member'
    obtain ⟨row, member, rfl⟩ := List.mem_map.mp loaded
    exact (same_row member member').2

/-! ## The frontend a request is about -/

/-- The frontend a UUID finds is the user's. -/
structure Backend.Owns (b : Backend) (user uuid : Bytes) (i : Nat) : Prop where
  asked : uuid ≠ []
  inside : i < b.frontends.length
  uuid_eq : (b.fe i).uuid = uuid
  owner_eq : (b.fe i).owner = user

variable {b b' : Backend} {user uuid : Bytes} {i : Nat} {results : Results}

theorem Backend.fe_getElem (inside : i < b.frontends.length) : b.fe i = b.frontends[i] := by
  simp [Backend.fe, inside]

theorem Backend.Owns.mem (own : b.Owns user uuid i) : b.fe i ∈ b.frontends := by
  rw [Backend.fe_getElem own.inside]
  exact List.getElem_mem own.inside

theorem Backend.Consistent.eq_of_uuid (consistent : b.Consistent) {f g : WebFrontend} (member : f ∈ b.frontends)
    (member' : g ∈ b.frontends) (same : f.uuid = g.uuid) : f = g :=
  List.inj_on_of_nodup_map consistent.uuids member member' same

theorem Backend.findFrontend_inside {lookup : Bytes} (found : b.findFrontend lookup = some i) :
    lookup ≠ [] ∧ i < b.frontends.length ∧ (b.fe i).uuid = lookup := by
  unfold Backend.findFrontend at found
  split at found
  · simp at found
  · rename_i asked
    obtain ⟨inside, same, -⟩ := List.findIdx?_eq_some_iff_getElem.mp found
    exact ⟨asked, inside, by simpa [Backend.fe_getElem inside] using same⟩

/-- What holds of the backend as it is, and behind every request for a frontend of the user,
holds behind every request. -/
theorem Backend.forOwner_keeps {unknown denied : Reply} {proceed : Nat → Backend × Reply}
    (holds : Backend → Prop) (start : holds b) (proceeds : ∀ i, b.Owns user uuid i → holds (proceed i).1) :
    holds (b.forOwner user uuid unknown denied proceed).1 := by
  unfold Backend.forOwner
  split
  · exact start
  · rename_i i found
    obtain ⟨asked, inside, same⟩ := Backend.findFrontend_inside found
    split
    · exact start
    · rename_i owner
      exact proceeds i ⟨asked, inside, same, not_not.mp owner⟩

theorem Backend.index_eq (uuids : (b.frontends.map fun f => f.uuid).Nodup) {j : Nat} (inside : i < b.frontends.length)
    (inside' : j < b.frontends.length) (same : b.frontends[i].uuid = b.frontends[j].uuid) : i = j := by
  have listed : i < (b.frontends.map fun f => f.uuid).length := by simpa using inside
  have listed' : j < (b.frontends.map fun f => f.uuid).length := by simpa using inside'
  have same_uuid : (b.frontends.map fun f => f.uuid)[i] = (b.frontends.map fun f => f.uuid)[j] := by
    rw [List.getElem_map, List.getElem_map, same]
  exact uuids.getElem_inj_iff.mp same_uuid

theorem Backend.forOwner_owns (uuids : (b.frontends.map fun f => f.uuid).Nodup) (own : b.Owns user uuid i)
    (unknown denied : Reply) (proceed : Nat → Backend × Reply) :
    b.forOwner user uuid unknown denied proceed = proceed i := by
  have inside := own.inside
  have here : b.frontends[i].uuid = uuid := Backend.fe_getElem inside ▸ own.uuid_eq
  have found : b.findFrontend uuid = some i := by
    rw [Backend.findFrontend, if_neg own.asked, List.findIdx?_eq_some_iff_getElem]
    refine ⟨inside, by simpa using here, ?_⟩
    intro j before
    have earlier : b.frontends[j].uuid ≠ uuid := by
      intro same
      have := Backend.index_eq uuids (before.trans inside) inside (same.trans here.symm)
      omega
    simpa using earlier
  rw [Backend.forOwner, found]
  exact if_neg (not_not.mpr own.owner_eq)

/-- A frontend found by its UUID is the only one an update could mean. -/
theorem Backend.update_eq_map (uuids : (b.frontends.map fun f => f.uuid).Nodup) (own : b.Owns user uuid i)
    (f : WebFrontend → WebFrontend) :
    (b.update i f).frontends = b.frontends.map fun g => if g.uuid = uuid then f g else g := by
  have here := own.uuid_eq
  rw [Backend.fe_getElem own.inside] at here
  apply List.ext_getElem?
  intro j
  rw [Backend.update, List.getElem?_modify, List.getElem?_map]
  by_cases inside : j < b.frontends.length
  · rw [List.getElem?_eq_getElem inside]
    by_cases same : i = j
    · subst same
      simp [here]
    · have apart : b.frontends[j].uuid ≠ uuid := fun other =>
        same (Backend.index_eq uuids own.inside inside (here.trans other.symm))
      simp [same, apart]
  · simp [List.getElem?_eq_none (Nat.le_of_not_lt inside)]

theorem Backend.Owns.fe_update (own : b.Owns user uuid i) (f : WebFrontend → WebFrontend) :
    (b.update i f).fe i = f (b.fe i) := by
  simp [Backend.fe, Backend.update, own.inside]

/-! ## What a request can do -/

/-- The new UUID in memory and in the table. -/
def Backend.reidentify (b : Backend) (uuid new : Bytes) (i : Nat) : Backend :=
  (b.updateRows (fun row => row.uuid = uuid) fun row => { row with uuid := new }).update i fun f =>
    { f with uuid := new }

/-- The edited columns of the frontend, where its id is. -/
def Backend.writeRow (b : Backend) (i : Nat) : Backend :=
  b.updateRows (fun row => row.id = (b.fe i).id) (FrontendRow.edited (b.fe i))

/-- What becomes of the backend in a request of a user. -/
inductive Backend.Effect (b : Backend) (user : Bytes) (results : Results) : WebForm → Backend → Prop where
  | nothing (form : WebForm) : Effect b user results form b
  | insert {addButton name address port : Bytes} {f : WebFrontend} (own : f.owner = user)
      (named : f.uuid = results.uuid) : Effect b user results (.addServer addButton name address port)
        { b with table := b.table ++ [f.row results.rowID] }
  | create {addButton name address port : Bytes} {f : WebFrontend} (own : f.owner = user)
      (named : f.uuid = results.uuid) : Effect b user results (.addServer addButton name address port)
        { b with
          table := b.table ++ [f.row results.rowID]
          frontends := b.frontends ++ [{ f with id := results.rowID }] }
  | delete {uuid : Bytes} {i : Nat} {b' : Backend} (own : b.Owns user uuid i)
      (deleted : b.deleteFrontend (b.fe i).name results = some b') : Effect b user results (.delServer uuid) b'
  | reidentify {uuid : Bytes} {i : Nat} (own : b.Owns user uuid i) :
      Effect b user results (.changeUUID uuid) (b.reidentify uuid results.uuid i)
  | materialize {uuid : Bytes} {i : Nat} (own : b.Owns user uuid i) (f : WebFrontend) (data : Bytes) :
      Effect b user results (.changeUUID uuid)
        ((b.reidentify uuid results.uuid i).writeFile (pathJoin [f.path, ascii "settings.pb"]) data results.write)
  | edit {uuid name address enabled teleport invite protect : Bytes} {i : Nat} (own : b.Owns user uuid i)
      (edit : Edit) : Effect b user results (.editServer uuid name address enabled teleport invite protect)
        (b.update i edit.apply)
  | editRow {uuid name address enabled teleport invite protect : Bytes} {i : Nat} (own : b.Owns user uuid i)
      (edit : Edit) : Effect b user results (.editServer uuid name address enabled teleport invite protect)
        ((b.update i edit.apply).writeRow i)
  | saveKey {uuid name keydata : Bytes} {i : Nat} (own : b.Owns user uuid i) (named : name ≠ [])
      (given : keydata ≠ []) : Effect b user results (.serverKeys (ascii "SaveKey") uuid name keydata)
        ((b.update i fun f => { f with publicKeyData := trim keydata (ascii " \r\n\t") }).writeFile
          (b.keyFile name) (trim keydata (ascii " \r\n\t")) results.write)

theorem webAddServer_effect (lib : WebLib) (b : Backend) (user addButton name address port : Bytes)
    (results : Results) : b.Effect user results (.addServer addButton name address port)
      (lib.webAddServer b user addButton name address port results).1 := by
  have created (f : WebFrontend) (own : f.owner = user) (named : f.uuid = results.uuid) :
      b.Effect user results (.addServer addButton name address port) (b.createFrontend f results).1 := by
    unfold Backend.createFrontend
    split
    · exact .nothing _
    · dsimp only
      split
      · exact .insert own named
      · exact .create own named
  unfold WebLib.webAddServer
  split
  · exact .nothing _
  split
  · exact .nothing _
  dsimp only
  split
  · exact .nothing _
  split
  · rename_i b' failure result
    rw [← show _ = b' from congrArg Prod.fst result]
    exact created _ rfl rfl
  · rename_i b' result
    rw [← show _ = b' from congrArg Prod.fst result]
    exact created _ rfl rfl

theorem webDelServer_effect (lib : WebLib) (b : Backend) (user uuid : Bytes) (results : Results) :
    b.Effect user results (.delServer uuid) (lib.webDelServer b user uuid results).1 := by
  refine Backend.forOwner_keeps _ (.nothing _) fun i own => ?_
  split
  · exact .nothing _
  · rename_i b' deleted
    exact .delete own deleted

theorem changeUUIDHandler_effect (lib : WebLib) (b : Backend) (user uuid : Bytes) (results : Results) :
    b.Effect user results (.changeUUID uuid) (lib.changeUUIDHandler b user uuid results).1 := by
  refine Backend.forOwner_keeps _ (.nothing _) fun i own => ?_
  split
  · exact .nothing _
  have materialized : b.Effect user results (.changeUUID uuid) (lib.materialize (b.reidentify uuid results.uuid i)
      ((b.reidentify uuid results.uuid i).fe i) results.write).1 := by
    unfold WebLib.materialize
    split
    · exact .reidentify own
    · exact .materialize own _ _
  dsimp only
  split
  · rename_i b' result
    exact congrArg Prod.fst result ▸ materialized
  · rename_i b' result
    exact congrArg Prod.fst result ▸ materialized

theorem webEditServer_effect (b : Backend) (user uuid name address enabled teleport invite protect : Bytes)
    (results : Results) : b.Effect user results (.editServer uuid name address enabled teleport invite protect)
      (b.webEditServer user uuid name address enabled teleport invite protect results).1 := by
  unfold Backend.webEditServer
  split
  · exact .nothing _
  dsimp only
  split
  · exact .nothing _
  refine Backend.forOwner_keeps _ (.nothing _) fun i own => ?_
  split
  · exact .edit own _
  · exact .editRow own _

theorem serverKeysHandler_effect (b : Backend) (user action uuid name keydata : Bytes) (results : Results) :
    b.Effect user results (.serverKeys action uuid name keydata)
      (b.serverKeysHandler user action uuid name keydata results).1 := by
  unfold Backend.serverKeysHandler
  split
  · rename_i asked
    subst asked
    split
    · exact .nothing _
    rename_i filled
    have named : name ≠ [] := fun empty => filled (.inr (.inl empty))
    have given : keydata ≠ [] := fun empty => filled (.inr (.inr empty))
    refine Backend.forOwner_keeps _ (.nothing _) fun i own => ?_
    dsimp only
    rw [own.fe_update]
    split
    · exact .saveKey own named given
    · exact .saveKey own named given
  · exact .nothing _

theorem handle_effect (lib : WebLib) (b : Backend) (user : Bytes) (results : Results) (form : WebForm) :
    b.Effect user results form (lib.handle b user results form).1 := by
  cases form with
  | addServer addButton name address port => exact webAddServer_effect ..
  | delServer uuid => exact webDelServer_effect ..
  | changeUUID uuid => exact changeUUIDHandler_effect ..
  | editServer uuid name address enabled teleport invite protect => exact webEditServer_effect ..
  | serverKeys action uuid name keydata => exact serverKeysHandler_effect ..

/-! ## Consistency -/

/-- What ties a frontend to its row. -/
def WebFrontend.key (f : WebFrontend) : Int × Bytes × Bytes := (f.id, f.uuid, f.owner)

def FrontendRow.key (row : FrontendRow) : Int × Bytes × Bytes := (row.id, row.uuid, row.owner)

theorem FrontendRow.edited_key (f : WebFrontend) (row : FrontendRow) : (row.edited f).key = row.key := rfl

theorem Edit.apply_key (edit : Edit) (f : WebFrontend) : (edit.apply f).key = f.key := by
  unfold Edit.apply
  split
  · rfl
  · rfl

theorem Edit.apply_id (edit : Edit) (f : WebFrontend) : (edit.apply f).id = f.id :=
  congrArg Prod.fst (edit.apply_key f)

theorem Edit.apply_owner (edit : Edit) (f : WebFrontend) : (edit.apply f).owner = f.owner :=
  congrArg (fun key => key.2.2) (edit.apply_key f)

theorem Backend.Consistent.shrink (consistent : b.Consistent)
    (memory : (b'.frontends.map WebFrontend.key).Sublist (b.frontends.map WebFrontend.key))
    (rows : b'.table.map FrontendRow.key ⊆ b.table.map FrontendRow.key) : b'.Consistent := by
  have known {f' : WebFrontend} (member : f' ∈ b'.frontends) :
      ∃ f ∈ b.frontends, f.id = f'.id ∧ f.uuid = f'.uuid ∧ f.owner = f'.owner := by
    obtain ⟨f, before, same⟩ := List.mem_map.mp (memory.subset (List.mem_map_of_mem member))
    simp only [WebFrontend.key, Prod.mk.injEq] at same
    exact ⟨f, before, same⟩
  have stored {row' : FrontendRow} (member : row' ∈ b'.table) :
      ∃ row ∈ b.table, row.id = row'.id ∧ row.uuid = row'.uuid ∧ row.owner = row'.owner := by
    obtain ⟨row, before, same⟩ := List.mem_map.mp (rows (List.mem_map_of_mem member))
    simp only [FrontendRow.key, Prod.mk.injEq] at same
    exact ⟨row, before, same⟩
  refine ⟨?_, ?_, ?_⟩
  · have fewer := memory.map fun key => key.2.1
    rw [List.map_map, List.map_map] at fewer
    exact consistent.uuids.sublist fewer
  · intro f' member row' member'
    obtain ⟨f, before, id, uuid, -⟩ := known member
    obtain ⟨row, before', id', uuid', -⟩ := stored member'
    rw [← id, ← uuid, ← id', ← uuid']
    exact consistent.paired f before row before'
  · intro f' member row' member' same
    obtain ⟨f, before, id, -, owner⟩ := known member
    obtain ⟨row, before', id', -, owner'⟩ := stored member'
    rw [← owner, ← owner']
    exact consistent.owned f before row before' (by rw [id, id', same])

theorem Backend.Consistent.congr (consistent : b.Consistent)
    (memory : b'.frontends.map WebFrontend.key = b.frontends.map WebFrontend.key)
    (rows : b'.table.map FrontendRow.key = b.table.map FrontendRow.key) : b'.Consistent :=
  consistent.shrink (memory ▸ List.Sublist.refl _) (rows ▸ List.Subset.refl _)

theorem map_map_ite {α β : Type} {chosen : α → Prop} [DecidablePred chosen] {f : α → α} (g : α → β)
    (kept : ∀ x, g (f x) = g x) (xs : List α) :
    (xs.map fun x => if chosen x then f x else x).map g = xs.map g := by
  rw [List.map_map]
  apply List.map_congr_left
  intro x _
  rw [Function.comp_apply, apply_ite g, kept, ite_self]

theorem Backend.Consistent.map_update {α : Type} (consistent : b.Consistent) (own : b.Owns user uuid i)
    {f : WebFrontend → WebFrontend} (g : WebFrontend → α) (kept : ∀ fe, g (f fe) = g fe) :
    (b.update i f).frontends.map g = b.frontends.map g := by
  rw [Backend.update_eq_map consistent.uuids own]
  exact map_map_ite g kept b.frontends

theorem Backend.uuids_create (uuids : (b.frontends.map fun f => f.uuid).Nodup) {new : WebFrontend}
    (fresh : ∀ f ∈ b.frontends, f.uuid ≠ new.uuid) : ((b.frontends ++ [new]).map fun f => f.uuid).Nodup := by
  rw [List.map_append, List.map_singleton, List.nodup_append]
  refine ⟨uuids, List.nodup_singleton _, ?_⟩
  intro old member added same
  obtain ⟨g, before, rfl⟩ := List.mem_map.mp member
  rw [List.mem_singleton.mp same]
  exact fresh g before

theorem Backend.Consistent.create (consistent : b.Consistent) (fresh : b.Fresh results) {f : WebFrontend}
    (named : f.uuid = results.uuid) : Backend.Consistent { b with
      table := b.table ++ [f.row results.rowID]
      frontends := b.frontends ++ [{ f with id := results.rowID }] } := by
  obtain ⟨freshMemory, freshRows⟩ := fresh
  refine ⟨?_, ?_, ?_⟩
  · exact Backend.uuids_create consistent.uuids fun g before => named ▸ (freshMemory g before).1
  · intro g member row member'
    rcases List.mem_append.mp member with before | added <;> rcases List.mem_append.mp member' with before' | added'
    · exact consistent.paired g before row before'
    · rw [List.mem_singleton.mp added']
      exact iff_of_false (fun same => (freshMemory g before).1 (same.symm.trans named))
        (fun same => (freshMemory g before).2 same.symm)
    · rw [List.mem_singleton.mp added]
      exact iff_of_false (fun same => (freshRows row before').1 (same.trans named)) (freshRows row before').2
    · rw [List.mem_singleton.mp added, List.mem_singleton.mp added']
      exact iff_of_true rfl rfl
  · intro g member row member' same
    rcases List.mem_append.mp member with before | added <;> rcases List.mem_append.mp member' with before' | added'
    · exact consistent.owned g before row before' same
    · rw [List.mem_singleton.mp added'] at same
      exact absurd same.symm (freshMemory g before).2
    · rw [List.mem_singleton.mp added] at same
      exact absurd same (freshRows row before').2
    · rw [List.mem_singleton.mp added, List.mem_singleton.mp added']
      rfl

theorem Backend.reidentify_frontends (uuids : (b.frontends.map fun f => f.uuid).Nodup) (own : b.Owns user uuid i)
    (new : Bytes) : (b.reidentify uuid new i).frontends =
      b.frontends.map fun f => if f.uuid = uuid then { f with uuid := new } else f :=
  Backend.update_eq_map uuids own _

theorem Backend.uuids_reidentify (uuids : (b.frontends.map fun f => f.uuid).Nodup) (own : b.Owns user uuid i)
    {new : Bytes} (fresh : ∀ f ∈ b.frontends, f.uuid ≠ new) :
    ((b.reidentify uuid new i).frontends.map fun f => f.uuid).Nodup := by
  have renamed : ((b.reidentify uuid new i).frontends.map fun f => f.uuid) =
      (b.frontends.map fun f => f.uuid).map fun old => if old = uuid then new else old := by
    rw [Backend.reidentify_frontends uuids own, List.map_map, List.map_map]
    apply List.map_congr_left
    intro f _
    exact apply_ite (fun g : WebFrontend => g.uuid) ..
  rw [renamed]
  refine uuids.map_on ?_
  intro old member old' member' same
  obtain ⟨f, before, rfl⟩ := List.mem_map.mp member
  obtain ⟨f', before', rfl⟩ := List.mem_map.mp member'
  have unused := fresh f before
  have unused' := fresh f' before'
  grind

theorem Backend.Consistent.reidentify (consistent : b.Consistent) (fresh : b.Fresh results)
    (own : b.Owns user uuid i) : (b.reidentify uuid results.uuid i).Consistent := by
  obtain ⟨freshMemory, freshRows⟩ := fresh
  have memory := Backend.reidentify_frontends consistent.uuids own results.uuid
  refine ⟨?_, ?_, ?_⟩
  · exact Backend.uuids_reidentify consistent.uuids own fun f before => (freshMemory f before).1
  · intro f' member row' member'
    rw [memory] at member
    obtain ⟨f, before, rfl⟩ := List.mem_map.mp member
    obtain ⟨row, before', rfl⟩ := List.mem_map.mp member'
    have pair := consistent.paired f before row before'
    have new := (freshMemory f before).1
    have new' := (freshRows row before').1
    grind
  · intro f' member row' member' same
    rw [memory] at member
    obtain ⟨f, before, rfl⟩ := List.mem_map.mp member
    obtain ⟨row, before', rfl⟩ := List.mem_map.mp member'
    have owner := consistent.owned f before row before'
    grind

theorem Backend.deleteFrontend_some {name : Bytes} (deleted : b.deleteFrontend name results = some b') :
    ∃ j, b.findFrontendByName name = some j ∧ results.exec = none ∧ b' = { b with
      table := b.table.filter fun row => row.id ≠ (b.fe j).id
      frontends := b.frontends.filter fun f => f.name ≠ name } := by
  unfold Backend.deleteFrontend at deleted
  obtain ⟨j, found, removed⟩ := Option.bind_eq_some_iff.mp deleted
  split at removed
  · simp at removed
  · rename_i works
    exact ⟨j, found, by simpa using works, (Option.some.inj removed).symm⟩

theorem Backend.Effect.consistent {form : WebForm} (effect : b.Effect user results form b')
    (consistent : b.Consistent) (fresh : b.Fresh results) : b'.Consistent := by
  cases effect with
  | nothing => exact consistent
  | insert own named =>
    refine (consistent.create fresh named).shrink ?_ (List.Subset.refl _)
    exact (List.sublist_append_left ..).map _
  | create own named => exact consistent.create fresh named
  | delete own deleted =>
    obtain ⟨j, -, -, rfl⟩ := Backend.deleteFrontend_some deleted
    exact consistent.shrink (List.filter_sublist.map _) (List.filter_sublist.map _).subset
  | reidentify own => exact consistent.reidentify fresh own
  | materialize own f data =>
    have moved := consistent.reidentify fresh own
    exact ⟨moved.uuids, moved.paired, moved.owned⟩
  | edit own edit => exact consistent.congr (consistent.map_update own _ edit.apply_key) rfl
  | editRow own edit =>
    exact consistent.congr (consistent.map_update own _ edit.apply_key)
      (map_map_ite FrontendRow.key (FrontendRow.edited_key _) b.table)
  | saveKey own named given => exact consistent.congr (consistent.map_update own _ fun f => rfl) rfl

end Q2Admin
