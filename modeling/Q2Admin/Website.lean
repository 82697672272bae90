import Mathlib.Logic.Function.Basic
import Q2Admin.Path
import Q2Admin.Frontend

/-! `backend/website.go`: the requests by which users add, edit, delete and rename the
servers they own and save their keys, with what they call of `backend/backend.go`. A
`*Frontend` is an index into `be.frontends` here too. -/

namespace Q2Admin
open Go

/-- `type Frontend` with the fields only the website uses. -/
structure WebFrontend extends Frontend where
  deleteProtect : Bool := false
  description : Bytes := []
  path : Bytes := []
  verified : Bool := false
  deriving DecidableEq

instance : Inhabited WebFrontend := ⟨{}⟩

/-- A row of the table `frontend`. `CreateFrontend` does not insert the last three columns, and
what a new row has there is in the schema of the database, which is assumed to start them at
nothing. -/
structure FrontendRow where
  id : Int
  uuid : Bytes
  name : Bytes
  owner : Bytes
  enabled : Bool
  description : Bytes
  allowTeleport : Bool
  allowInvite : Bool
  ipAddress : Bytes
  port : Int
  publicKeyData : Bytes
  verified : Bool
  inviteTokens : Int := 0
  inviteFreq : Int := 0
  deleteProtection : Bool := false
  deriving DecidableEq

/-- What `ToProto` fills of `pb.Frontend`. -/
structure FrontendProto where
  address : Bytes
  name : Bytes
  uuid : Bytes
  description : Bytes
  owner : Bytes
  verified : Bool
  allowTeleport : Bool
  allowInvite : Bool
  deriving DecidableEq

/-- The libraries the website is linked with. -/
structure WebLib where
  /-- `strings.ToLower`. -/
  toLower : Bytes → Bytes
  /-- `%q`. -/
  quote : Bytes → Bytes
  /-- `prototext.Marshal` of a `pb.Frontends` with one frontend. -/
  marshal : FrontendProto → Option Bytes

/-- Libraries for runs on concrete bytes. -/
def WebLib.plain : WebLib where
  toLower s := s.map fun b => if 65 ≤ b ∧ b ≤ 90 then b + 32 else b
  quote s := charByte '"' :: s ++ [charByte '"']
  marshal f := some f.uuid

structure Backend where
  /-- `be.config.ClientDirectory` -/
  clientDirectory : Bytes
  /-- `be.frontends` -/
  frontends : List WebFrontend
  /-- The table `frontend`. -/
  table : List FrontendRow
  /-- What is in the files, by their paths. -/
  files : Bytes → Option Bytes

/-- How a call of `os.WriteFile` ends. -/
inductive WriteResult where
  | done
  /-- An error, and what it leaves in the file. -/
  | failed (left : Option Bytes)
  deriving DecidableEq

def WriteResult.left (data : Bytes) : WriteResult → Option Bytes
  | done => some data
  | failed left => left

/-- What a request gets from the packages it calls. -/
structure Results where
  /-- `uuid.NewString()`. -/
  uuid : Bytes
  /-- The error of `db.Handle.Exec`. -/
  exec : Option Bytes := none
  /-- The id of the row `db.Handle.Exec` inserts. -/
  rowID : Int
  /-- The error of `res.LastInsertId()`. -/
  lastInsertId : Option Bytes := none
  write : WriteResult := .done

inductive Reply where
  /-- A page made from templates. -/
  | page
  | text (body : Bytes)
  | redirect (status : Nat) (target : Bytes)
  /-- The handler has panicked, and the web server has closed the connection. -/
  | aborted
  deriving DecidableEq

namespace WebFrontend

def toProto (f : WebFrontend) : FrontendProto where
  address := f.ipAddress ++ ascii ":" ++ decimal f.port
  name := f.name
  uuid := f.uuid
  description := f.description
  owner := f.owner
  verified := f.verified
  allowTeleport := f.allowTeleport
  allowInvite := f.allowInvite

/-- The row that `CreateFrontend` inserts. -/
def row (f : WebFrontend) (id : Int) : FrontendRow where
  id := id
  uuid := f.uuid
  name := f.name
  owner := f.owner
  enabled := f.enabled
  description := f.description
  allowTeleport := f.allowTeleport
  allowInvite := f.allowInvite
  ipAddress := f.ipAddress
  port := f.port
  publicKeyData := f.publicKeyData
  verified := f.verified

end WebFrontend

/-- What `LoadFrontends` makes of a row. -/
def FrontendRow.frontend (row : FrontendRow) : WebFrontend where
  id := row.id
  uuid := row.uuid
  name := row.name
  owner := row.owner
  enabled := row.enabled
  description := row.description
  allowTeleport := row.allowTeleport
  allowInvite := row.allowInvite
  ipAddress := row.ipAddress
  port := row.port
  publicKeyData := row.publicKeyData
  verified := row.verified
  invites := { tokens := row.inviteTokens, freq := row.inviteFreq }
  deleteProtect := row.deleteProtection

namespace Backend

/-- The backend as it starts. -/
def load (clientDirectory : Bytes) (table : List FrontendRow) (files : Bytes → Option Bytes) : Backend where
  clientDirectory := clientDirectory
  frontends := table.map FrontendRow.frontend
  table := table
  files := files

def fe (b : Backend) (i : Nat) : WebFrontend := b.frontends.getD i default

def update (b : Backend) (i : Nat) (f : WebFrontend → WebFrontend) : Backend :=
  { b with frontends := b.frontends.modify i f }

/-- `UPDATE frontend SET ... WHERE ...`. -/
def updateRows (b : Backend) (chosen : FrontendRow → Prop) [DecidablePred chosen] (f : FrontendRow → FrontendRow) :
    Backend :=
  { b with table := b.table.map fun row => if chosen row then f row else row }

def writeFile (b : Backend) (path data : Bytes) (result : WriteResult) : Backend :=
  { b with files := Function.update b.files path (result.left data) }

/-- `FindFrontend`. -/
def findFrontend (b : Backend) (lookup : Bytes) : Option Nat :=
  if lookup = [] then none else b.frontends.findIdx? fun f => f.uuid = lookup

/-- `FindFrontendByName`. -/
def findFrontendByName (b : Backend) (name : Bytes) : Option Nat :=
  if name = [] then none else b.frontends.findIdx? fun f => f.name = name

/-- `CreateFrontend`, with its error. -/
def createFrontend (b : Backend) (f : WebFrontend) (results : Results) : Backend × Option Bytes :=
  match results.exec with
  | some failure => (b, some failure)
  | none =>
    let inserted := { b with table := b.table ++ [f.row results.rowID] }
    match results.lastInsertId with
    | some failure => (inserted, some failure)
    | none => ({ inserted with frontends := b.frontends ++ [{ f with id := results.rowID }] }, none)

/-- `DeleteFrontend`; its errors are only logged. -/
def deleteFrontend (b : Backend) (name : Bytes) (results : Results) : Option Backend := do
  let i ← b.findFrontendByName name
  if results.exec.isSome then none
  else some { b with
    table := b.table.filter fun row => row.id ≠ (b.fe i).id
    frontends := b.frontends.filter fun f => f.name ≠ name }

/-- The lookup of a frontend and the check of its owner, as all requests for one frontend
begin, with their replies where one of them fails. -/
def forOwner (b : Backend) (user lookup : Bytes) (unknown denied : Reply) (proceed : Nat → Backend × Reply) :
    Backend × Reply :=
  match b.findFrontend lookup with
  | none => (b, unknown)
  | some i => if (b.fe i).owner ≠ user then (b, denied) else proceed i

end Backend

namespace WebLib

/-- `Materialize`. -/
def materialize (lib : WebLib) (b : Backend) (f : WebFrontend) (write : WriteResult) : Backend × Bool :=
  match lib.marshal f.toProto with
  | none => (b, false)
  | some data =>
    let header := ascii "# proto-file: proto/frontend.proto\n# proto-message: Frontends\n\n"
    (b.writeFile (pathJoin [f.path, ascii "settings.pb"]) (header ++ data) write, write = .done)

/-- `WebAddServer`. -/
def webAddServer (lib : WebLib) (b : Backend) (user addButton name address port : Bytes) (results : Results) :
    Backend × Reply :=
  if addButton = [] then (b, .page)
  else if name = [] ∨ address = [] then (b, .text (ascii "error - form fields are empty"))
  else
    let port := if port = [] then ascii "27910" else port
    match atoi port with
    | none => (b, .text (ascii "error - invalid port " ++ lib.quote port))
    | some iPort =>
      let name := replaceAll (lib.toLower (trim name (ascii " \n\r\t"))) ' ' '-'
      let f : WebFrontend := {
        ipAddress := address
        name := name
        owner := user
        path := pathJoin [b.clientDirectory, name]
        port := iPort
        uuid := results.uuid }
      match b.createFrontend f results with
      | (b', some failure) => (b', .text (ascii "error creating frontend: " ++ failure))
      | (b', none) => (b', .redirect 302 (ascii "/"))

/-- `WebDelServer`. -/
def webDelServer (lib : WebLib) (b : Backend) (user uuid : Bytes) (results : Results) : Backend × Reply :=
  b.forOwner user uuid (.text (ascii "500 - unable to locate frontend " ++ lib.quote uuid))
    (.text (ascii "403 - not owner")) fun i =>
  match b.deleteFrontend (b.fe i).name results with
  | none => (b, .text (ascii "500 - error deleting frontend"))
  | some b' => (b', .redirect 303 (ascii "/my-servers"))

/-- `ChangeUUIDHandler`. -/
def changeUUIDHandler (lib : WebLib) (b : Backend) (user currentUUID : Bytes) (results : Results) :
    Backend × Reply :=
  b.forOwner user currentUUID (.text (ascii "error 500 - error finding frontend\n"))
    (.text (ascii "403 - unauthorized\n")) fun i =>
  -- behind an error `res` is nil, and so is what `RowsAffected` is called on
  if results.exec.isSome then (b, .aborted)
  else
    let b := b.updateRows (fun row => row.uuid = currentUUID) fun row => { row with uuid := results.uuid }
    let b := b.update i fun f => { f with uuid := results.uuid }
    match lib.materialize b (b.fe i) results.write with
    | (b', false) => (b', .text (ascii "error 500 - error saving frontend\n"))
    | (b', true) => (b', .redirect 303 (pathJoin [ascii "/sv", (b.fe i).uuid, (b.fe i).name]))

end WebLib

/-- What a submitted form sets of a frontend. -/
structure Edit where
  name : Bytes
  address : Bytes
  enabled : Bool
  teleport : Bool
  invite : Bool
  protect : Bool

def Edit.apply (edit : Edit) (f : WebFrontend) : WebFrontend :=
  let f := match split edit.address ':' with
    | [ip, port] => { f with ipAddress := ip, port := (atoi port).getD 27910 }
    | _ => f
  { f with
    enabled := edit.enabled
    allowTeleport := edit.teleport
    allowInvite := edit.invite
    name := edit.name
    deleteProtect := edit.protect }

/-- The columns that `WebEditServer` updates. -/
def FrontendRow.edited (f : WebFrontend) (row : FrontendRow) : FrontendRow := { row with
  name := f.name
  ipAddress := f.ipAddress
  port := f.port
  enabled := f.enabled
  allowTeleport := f.allowTeleport
  allowInvite := f.allowInvite
  deleteProtection := f.deleteProtect }

namespace Backend

/-- `WebEditServer`. -/
def webEditServer (b : Backend) (user uuid name address enabled teleport invite protect : Bytes)
    (results : Results) : Backend × Reply :=
  if uuid = [] ∨ name = [] then (b, .text (ascii "error 500 - bad form submission\n"))
  else
    let name := trim (replaceAll name ' ' '-') (ascii " \n\r\t")
    if address = [] then (b, .text (ascii "500 - empty frontend address\n"))
    else
      let edit : Edit := {
        name := name
        address := address
        enabled := enabled = ascii "on"
        teleport := teleport = ascii "on"
        invite := invite = ascii "on"
        protect := protect = ascii "on" }
      b.forOwner user uuid (.text (ascii "error 500 - bad frontend lookup\n"))
        (.text (ascii "403 - permission denied\n")) fun i =>
      let b := b.update i edit.apply
      let f := b.fe i
      if results.exec.isSome then (b, .text (ascii "500 - error updating frontend in database"))
      else (b.updateRows (fun row => row.id = f.id) (FrontendRow.edited f),
        .redirect 303 (pathJoin [ascii "/sv", uuid, name]))

/-- The file `LoadSettings` reads the key of a frontend from, and `ServerKeysHandler`
writes it to. -/
def keyFile (b : Backend) (name : Bytes) : Bytes := pathJoin [b.clientDirectory, name, ascii "key"]

/-- `ServerKeysHandler`. -/
def serverKeysHandler (b : Backend) (user action uuid name keydata : Bytes) (results : Results) :
    Backend × Reply :=
  if action = ascii "SaveKey" then
    if uuid = [] ∨ name = [] ∨ keydata = [] then (b, .text (ascii "error 500 - bad form submission\n"))
    else
      b.forOwner user uuid (.text (ascii "error 500 - bad frontend lookup\n"))
        (.text (ascii "403 - permission denied\n")) fun i =>
      let b := b.update i fun f => { f with publicKeyData := trim keydata (ascii " \r\n\t") }
      let written := b.writeFile (b.keyFile name) (b.fe i).publicKeyData results.write
      if results.write = .done then (written, .redirect 303 (pathJoin [ascii "/sv", uuid, name]))
      else (written, .text (ascii "error 500 - unable to write key file"))
  else (b, .page)

end Backend

/-- What a request asks for, with the values of its form or path. -/
inductive WebForm where
  | addServer (addButton name address port : Bytes)
  | delServer (uuid : Bytes)
  | changeUUID (uuid : Bytes)
  | editServer (uuid name address enabled teleport invite protect : Bytes)
  | serverKeys (action uuid name keydata : Bytes)
  deriving DecidableEq

structure WebRequest where
  /-- The email of the session's user, if `GetSessionUser` finds one. -/
  session : Option Bytes
  form : WebForm
  results : Results

def WebLib.handle (lib : WebLib) (b : Backend) (user : Bytes) (results : Results) : WebForm → Backend × Reply
  | .addServer addButton name address port => lib.webAddServer b user addButton name address port results
  | .delServer uuid => lib.webDelServer b user uuid results
  | .changeUUID uuid => lib.changeUUIDHandler b user uuid results
  | .editServer uuid name address enabled teleport invite protect =>
    b.webEditServer user uuid name address enabled teleport invite protect results
  | .serverKeys action uuid name keydata => b.serverKeysHandler user action uuid name keydata results

/-- The handlers begin alike: without a session there is nothing but `RedirectToSignon`. -/
def WebLib.serve (lib : WebLib) (b : Backend) (request : WebRequest) : Backend × Reply :=
  match request.session with
  | none => (b, .redirect 303 (ascii "/sign-in"))
  | some user => lib.handle b user request.results request.form

end Q2Admin
