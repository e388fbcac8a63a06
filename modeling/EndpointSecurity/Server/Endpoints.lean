import EndpointSecurity.Server.Format
import EndpointSecurity.Server.Users

/-! The endpoints: the table `endpoints`, and `create_endpoint`.

A new endpoint gets the next id and a random key, and the answer carries the text of
its agent's configuration file (`configContent`). -/
namespace EndpointSecurity.Server
open Library Transaction

structure EndpointRow where
  endpointId : Int
  authkey : List Char
  hostname : List Char
  ipAddress : List Char
  name : Option (List Char)
deriving DecidableEq

/-- The row of an `INSERT INTO endpoints (endpoint_id, authkey, hostname, ip_address, Name)`. -/
def EndpointRow.fresh (newId : Int) (authKey : List Char) (name : Option (List Char)) : EndpointRow where
  endpointId := newId
  authkey := authKey
  hostname := "localhost".toList
  ipAddress := "127.0.0.1".toList
  name := name

/-- The table, with its primary key. -/
structure Endpoints where
  rows : List EndpointRow
  unique : rows.Pairwise fun a b => a.endpointId ≠ b.endpointId

/-- The largest value of an `INT` column. -/
abbrev SQL_INT_MAX : Int := 2147483647

namespace Endpoints

def empty : Endpoints := ⟨[], .nil⟩

/-- `SELECT COALESCE(MAX(endpoint_id), 0) + 1`. -/
def nextId (t : Endpoints) : Int := ((t.rows.map EndpointRow.endpointId).max?).getD 0 + 1

/-- The `INSERT`: the id has to fit its column and to be new. -/
def insert (t : Endpoints) (r : EndpointRow) : Except SqlError Endpoints :=
  if SQL_INT_MAX < r.endpointId then .error .outOfRange
  else if h : ∀ x ∈ t.rows, x.endpointId ≠ r.endpointId then
    .ok ⟨t.rows ++ [r], List.pairwise_append.mpr ⟨t.unique, List.pairwise_singleton _ _,
      fun x hx _ hy => List.mem_singleton.mp hy ▸ h x hx⟩⟩
  else .error .duplicateEntry

end Endpoints

/-- The characters of base64 for URLs. -/
def isUrlSafe (c : Char) : Bool := c.isAlphanum || c == '-' || c == '_'

/-- What `secrets.token_urlsafe(32)` gives: 32 bytes in 43 characters. -/
structure AuthKey where
  chars : List Char
  length : chars.length = 43
  urlSafe : ∀ c ∈ chars, isUrlSafe c = true

/-- The text of the configuration file. -/
def configContent (authKey name : List CodePoint) (newId : Int) : List CodePoint :=
  py "# Endpoint Configuration File\napi=http://localhost:5001/submit_logs\nkey=" ++ authKey ++
    py "\nname=" ++ name ++ py "\nid=" ++ py (toString newId) ++
    py "\nbuffer_size=65\nbatch_size=25\n"

section View
variable (db : Mysql) (reprStr : List CodePoint → List CodePoint)

def created (authKey : AuthKey) (name : Json) (newId : Int) : Response :=
  jsonify [
    ("success", .bool true),
    ("endpoint_id", .int newId),
    ("auth_key", .str (points authKey.chars)),
    ("config_content", .str (configContent (points authKey.chars) (pyFormat reprStr name) newId))] 201

def createEndpointWork (authKey : AuthKey) (name : Json) :
    Transaction Endpoints (List CodePoint) Response := do
  touch
  -- Generate a unique endpoint ID
  let selected ← query fun t => .ok t.nextId
  let newId ← query fun _ => .ok selected
  -- Insert new endpoint with all required fields
  execute fun t => db.statement1 name fun n =>
    (columnText db 64 n).bind fun stored => t.insert (.fresh newId authKey.chars stored)
  commit
  return created reprStr authKey name newId

def createEndpoint (authKey : AuthKey) (request : Request) (faults : Nat → Option (List CodePoint))
    (t : Endpoints) : Served Endpoints :=
  withData request t fun data =>
    match dataGet data "name" with
    | none => .untouched serverError t
    | some name =>
      if !truthy name then .untouched (errorResponse (py "Endpoint name is required") 400) t
      else tryWork 500 (createEndpointWork db reprStr authKey name) faults t

end View

/-- A name `create_endpoint` accepts: text without NULs that its column takes. -/
structure EndpointName where
  chars : List Char
  nonempty : chars ≠ []
  noNul : Char.ofNat 0 ∉ chars
  fits : ∃ stored, varchar 64 chars = .ok stored

/-- An id `create_endpoint` hands out. -/
structure EndpointId where
  val : Nat
  pos : 0 < val
  fits : (val : Int) ≤ SQL_INT_MAX

theorem Endpoints.nextId_fresh (t : Endpoints) : ∀ x ∈ t.rows, x.endpointId < t.nextId := by
  intro x hx
  have hmem : x.endpointId ∈ t.rows.map EndpointRow.endpointId := List.mem_map_of_mem hx
  obtain ⟨m, hm⟩ := Option.isSome_iff_exists.mp (List.isSome_max?_of_mem hmem)
  have hle := List.max?_le_iff hm |>.mp (Int.le_refl m) _ hmem
  rw [nextId, hm, Option.getD_some]
  omega

theorem Endpoints.insert_next (t : Endpoints) (authKey : List Char) (name : Option (List Char))
    (hroom : t.nextId ≤ SQL_INT_MAX) : ∃ t', t.insert (.fresh t.nextId authKey name) = .ok t' := by
  have hfresh : ∀ x ∈ t.rows, x.endpointId ≠ (EndpointRow.fresh t.nextId authKey name).endpointId := fun x hx =>
    Int.ne_of_lt (t.nextId_fresh x hx)
  have hfits : ¬ SQL_INT_MAX < (EndpointRow.fresh t.nextId authKey name).endpointId :=
    Int.not_lt.mpr hroom
  rw [insert, if_neg hfits, dif_pos hfresh]
  exact ⟨_, rfl⟩

/-- Where an id is left, an accepted name gets its file. -/
theorem createEndpoint_created (db : Mysql) (reprStr : List CodePoint → List CodePoint)
    (authKey : AuthKey) (name : EndpointName) (t : Endpoints) (hroom : t.nextId ≤ SQL_INT_MAX)
    (authorization : Option (List CodePoint)) :
    (createEndpoint db reprStr authKey ⟨authorization, .ok (.obj [(py "name", .str (points name.chars))])⟩
      answering t).response = created reprStr authKey (.str (points name.chars)) t.nextId := by
  obtain ⟨stored, hstored⟩ := name.fits
  have hname : dataGet (.obj [(py "name", .str (points name.chars))]) "name" =
      some (.str (points name.chars)) := by
    simp +decide [dataGet, Json.member, lastAssigned]
  have htruthy : truthy (.str (points name.chars)) = true := by
    have hne : points name.chars ≠ [] := by simpa [points] using name.nonempty
    simp [truthy, hne]
  obtain ⟨t', ht'⟩ := t.insert_next authKey.chars (some stored) hroom
  have hinsert : (db.statement1 (.str (points name.chars)) fun n =>
      (columnText db 64 n).bind fun stored => t.insert (.fresh t.nextId authKey.chars stored)) = .ok t' := by
    refine Mysql.statement1_eq_ok.mpr ⟨_, operand_str _, ?_⟩
    rw [columnText, hstored]
    exact ht'
  simp only [createEndpoint, withData, hname, htruthy, Bool.not_true, Bool.false_eq_true, if_false]
  unfold tryWork run createEndpointWork
  simp only [bind_apply, touch_apply (rfl : answering _ = none), query_apply _ (rfl : answering _ = none),
    execute_apply _ (rfl : answering _ = none), commit_apply (rfl : answering _ = none)]
  have hworking : (Session.start t).tick.working = t := rfl
  have hworking' : (Session.start t).tick.tick.tick.working = t := rfl
  simp only [hworking, hworking', hinsert]
  rfl

/-- The file an agent is configured with, if its text can be encoded. -/
def configFile (authKey : AuthKey) (name : List Char) (newId : Nat) : Option (List UInt8) :=
  encodeUtf8 (configContent (points authKey.chars) (points name) newId)

end EndpointSecurity.Server
