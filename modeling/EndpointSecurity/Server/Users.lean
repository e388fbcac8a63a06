import EndpointSecurity.Server.Mysql
import EndpointSecurity.Library.Machine

/-! The accounts: the table `users`, and the views that read and write it.

`register`, `login` and `change_credentials` each use one connection. An exception
anywhere in it is answered with its text and no status of its own. -/
namespace EndpointSecurity.Server
open Library Transaction

structure UserRow where
  username : List Char
  passwordhash : Option (List Char)
deriving DecidableEq

/-- The table, with its `UNIQUE` usernames. -/
structure Users (db : Mysql) where
  rows : List UserRow
  unique : rows.Pairwise fun a b => ¬ db.Same a.username b.username

namespace Users
variable {db : Mysql}

def empty : Users db := ⟨[], .nil⟩

/-- `SELECT * FROM users WHERE username = %s`. -/
def named (t : Users db) (u : SqlValue) : List UserRow :=
  t.rows.filter fun r => db.equals r.username u

/-- `SELECT * FROM users WHERE username = %s AND passwordhash = %s`. -/
def withCredentials (t : Users db) (u p : SqlValue) : List UserRow :=
  t.rows.filter fun r => db.equals r.username u && r.passwordhash.any fun h => db.equals h p

/-- The row of an `INSERT INTO users (username, passwordhash) VALUES (%s, %s)`. -/
def row (db : Mysql) (u p : SqlValue) : Except SqlError UserRow := do
  let username ← columnText db 255 u
  let passwordhash ← columnText db 255 p
  match username with
  | none => throw .columnNull
  | some username => return ⟨username, passwordhash⟩

/-- `INSERT`, unless the username is taken. -/
def add (t : Users db) (r : UserRow) : Except SqlError (Users db) :=
  if h : ∀ x ∈ t.rows, ¬ db.Same x.username r.username then
    .ok ⟨t.rows ++ [r], List.pairwise_append.mpr ⟨t.unique, List.pairwise_singleton _ _,
      fun x hx _ hy => List.mem_singleton.mp hy ▸ h x hx⟩⟩
  else .error .duplicateEntry

def insert (t : Users db) (u p : SqlValue) : Except SqlError (Users db) := (row db u p).bind t.add

end Users

/-! ### The views -/

section Views
variable (db : Mysql)

/-- Work on the table `users`. -/
abbrev UsersWork (α : Type) : Type := Transaction (Users db) (List CodePoint) α

variable {db}

/-- What the views do on a connection, one step at a time. -/
def fetch {α : Type} (a : α) : UsersWork db α := query fun _ => .ok a

def connect : UsersWork db Unit := touch

def selectNamed (username : Json) : UsersWork db (List UserRow) :=
  query fun t => db.statement1 username fun u => .ok (t.named u)

def selectCredentials (username password : Json) : UsersWork db (List UserRow) :=
  query fun t => db.statement2 username password fun u p => .ok (t.withCredentials u p)

def insertUser (username password : Json) : UsersWork db Unit :=
  execute fun t => db.statement2 username password t.insert

def deleteUsers : UsersWork db Unit := execute fun _ => .ok .empty

variable (db)

def registered : Response :=
  jsonify [("message", .str (py "User registered successfully"))] 201

def registerWork (username password : Json) : UsersWork db Response := do
  connect
  -- Check if user exists
  let found ← selectNamed username
  let user ← fetch found.head?
  if user.isSome then
    return errorResponse (py "Username already exists") 400
  else
    -- Insert new user
    insertUser username password
    commit
    return registered

def register : Request → (Nat → Option (List CodePoint)) → Users db → Served (Users db) :=
  twoFieldView "username" "password" "Username and password are required" (registerWork db)

def loggedIn (requiresCredentialChange : Bool) : Response :=
  jsonify [
    ("success", .bool true),
    ("message", .str (py "Login successful")),
    ("requiresCredentialChange", .bool requiresCredentialChange)] 200

def loginWork (username password : Json) : UsersWork db Response := do
  connect
  -- Check if this is the first login (no users in database)
  let counted ← query fun t => .ok t.rows.length
  let count ← fetch counted
  if count = 0 then
    if isText (py "Admin") username && isText (py "Admin") password then
      return loggedIn true
    else
      return errorResponse (py "Invalid username or password") 401
  else
    -- Normal login flow
    let found ← selectCredentials username password
    let user ← fetch found.head?
    if user.isNone then
      return errorResponse (py "Invalid username or password") 401
    else
      return loggedIn false

def login : Request → (Nat → Option (List CodePoint)) → Users db → Served (Users db) :=
  twoFieldView "username" "password" "Username and password are required" (loginWork db)

def credentialsChanged : Response :=
  jsonify [("message", .str (py "Credentials changed successfully"))] 200

def changeCredentialsWork (newUsername newPassword : Json) : UsersWork db Response := do
  connect
  -- Check if username already exists
  let found ← selectNamed newUsername
  let user ← fetch found.head?
  if user.isSome then
    return errorResponse (py "Username already exists") 400
  else
    -- Delete any existing users
    deleteUsers
    -- Insert new admin user
    insertUser newUsername newPassword
    commit
    return credentialsChanged

def changeCredentials : Request → (Nat → Option (List CodePoint)) → Users db → Served (Users db) :=
  twoFieldView "newUsername" "newPassword" "New username and password are required"
    (changeCredentialsWork db)

/-! ### Runs -/

inductive UserCall where
  | register
  | login
  | changeCredentials
deriving DecidableEq

/-- A request to one of the views, and the steps at which the database fails it. -/
structure UserRequest where
  call : UserCall
  request : Request
  faults : Nat → Option (List CodePoint)

def UserCall.view : UserCall → Request → (Nat → Option (List CodePoint)) → Users db → Served (Users db)
  | .register => Server.register db
  | .login => Server.login db
  | .changeCredentials => Server.changeCredentials db

/-- The success return of a view. -/
def UserCall.succeeded (call : UserCall) (response : Response) : Prop :=
  match call with
  | .register => response = registered
  | .login => ∃ b, response = loggedIn b
  | .changeCredentials => response = credentialsChanged

/-- The server, one request to the accounts after the other. -/
def userServer : Machine UserRequest (Served (Users db)) (Users db) where
  step t r :=
    let served := r.call.view db r.request r.faults t
    (served, served.store)

end Views

end EndpointSecurity.Server
