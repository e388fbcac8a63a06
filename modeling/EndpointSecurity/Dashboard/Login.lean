import EndpointSecurity.Server.LoginExact

/-! The dashboard's login: the page, and the handler behind `/api/login`.

The handler passes the credentials to the backend and looks at the status of the
answer only; the page looks at the status of the handler's. The backend's `except`
clause answers without a status of its own, which is a 200. So what reaches
`success: true` without credentials is exactly what raises inside the backend's `try`
(`login_failsClosed_iff`). -/
namespace EndpointSecurity.Dashboard
open Library Transaction Server

/-! ### JavaScript values -/

/-- `x || ...` keeps these. -/
def jsTruthy : Json → Bool
  | .null => false
  | .bool b => b
  | .int n => n != 0
  | .float repr => repr != py "0.0" && repr != py "-0.0"
  | .str s => !s.isEmpty
  | .arr _ => true
  | .obj _ => true

/-- `x.name || fallback`, where `x` is not `null`. -/
def propertyOr (x : Json) (name : String) (fallback : Json) : Json :=
  match x.member (py name) with
  | some v => if jsTruthy v then v else fallback
  | none => fallback

/-- The members of an object literal that `JSON.stringify` keeps. -/
def stringified (members : List (String × Option Json)) : Json :=
  .obj (members.filterMap fun m => m.2.map fun v => (py m.1, v))

/-! ### `/api/login` -/

/-- The catch clause of the handler. -/
def loginError : Response := errorResponse (py "An error occurred during login") 500

def loginSucceeds (data : Json) : Response :=
  jsonify [
    ("success", .bool true),
    ("requiresCredentialChange", propertyOr data "requiresCredentialChange" (.bool false))] 200

/-- The request the handler sends. `resend` is what becomes of a value that is parsed
and stringified again. -/
def backendRequest (resend : Json → Json) (body : Json) : Request :=
  ⟨none, .ok (stringified [
    ("username", (body.member (py "username")).map resend),
    ("password", (body.member (py "password")).map resend)])⟩

/-- JSON whose properties can be read: there is some, and it is not `null`. -/
def readable : Option Json → Option Json
  | none | some .null => none
  | some x => some x

/-- What is left of a `fetch` after `await response.json()`. -/
def fetched (response : Option Response) : Option (Response × Json) :=
  response.bind fun r => (readable r.body).map (r, ·)

/-- What the handler gets from the backend for the body of a request. -/
def exchanged (resend : Json → Json) (fetchBackend : Request → Option Response) (body : Option Json) :
    Option (Response × Json) :=
  (readable body).bind fun b => fetched (fetchBackend (backendRequest resend b))

/-- `POST`, with what `fetch` gives for a request to the backend; whatever throws is
caught. -/
def post (resend : Json → Json) (fetchBackend : Request → Option Response) (body : Option Json) :
    Response :=
  match exchanged resend fetchBackend body with
  | none => loginError
  | some (response, data) =>
    if isOk response then loginSucceeds data
    else jsonify [("error", propertyOr data "error" (.str (py "Login failed")))] response.status

/-! ### The page -/

/-- Where `handleLogin` leaves the page. -/
inductive Page where
  | error (message : Json)
  | changeForm
  | dashboard

def handleLogin (username password : List CodePoint) (fetchApi : Json → Option Response) : Page :=
  if username.isEmpty || password.isEmpty then
    .error (.str (py "Please enter both username and password."))
  else
    match fetched (fetchApi (.obj [(py "username", .str username), (py "password", .str password)])) with
    | none => .error (.str (py "An error occurred during login"))
    | some (response, data) =>
      if !isOk response then
        .error (propertyOr data "error" (.str (py "Invalid username or password")))
      -- Check if the user needs to change their credentials
      else if (data.member (py "requiresCredentialChange")).any jsTruthy then .changeForm
      else .dashboard

/-! ### What the backend's login gives -/

section Backend
variable {db : Mysql}

/-- No step of `login` raises for these values: the first three are always taken, the
last two on a table with rows, where both values have to become operands. -/
structure NothingRaises (faults : Nat → Option (List CodePoint)) (t : Users db) (u p : Json) : Prop where
  connect : faults 0 = none
  count : faults 1 = none
  fetchCount : faults 2 = none
  select : t.rows ≠ [] → faults 3 = none ∧ ∃ a b, operand u = .ok a ∧ operand p = .ok b
  fetchUser : t.rows ≠ [] → faults 4 = none

theorem loginWork_returns_iff (faults : Nat → Option (List CodePoint)) (t : Users db) (u p : Json) :
    (loginWork db u p).Returns faults (.start t) ↔ NothingRaises faults t u p := by
  have hselect : (∃ found, (db.statement2 u p fun a b => .ok (t.withCredentials a b)) = .ok found) ↔
      ∃ a b, operand u = .ok a ∧ operand p = .ok b := by
    simp only [Mysql.statement2_eq_ok, Except.ok.injEq]
    exact ⟨fun ⟨_, a, b, ha, hb, _⟩ => ⟨a, b, ha, hb⟩, fun ⟨a, b, ha, hb⟩ => ⟨_, a, b, ha, hb, rfl⟩⟩
  unfold loginWork Server.connect Server.fetch selectCredentials
  simp only [returns_touch, returns_query, returns_ite, returns_pure, Except.ok.injEq,
    exists_eq_left', exists_eq', exists_and_right, and_true, implies_true, true_and, Session.tick,
    Session.start, hselect, List.length_eq_zero_iff, Nat.zero_add, Nat.reduceAdd]
  exact ⟨fun ⟨h0, h1, h2, h⟩ => ⟨h0, h1, h2, fun ht => ⟨(h ht).1, (h ht).2.1⟩, fun ht => (h ht).2.2⟩,
    fun h => ⟨h.connect, h.count, h.fetchCount, fun ht => ⟨(h.select ht).1, (h.select ht).2, h.fetchUser ht⟩⟩⟩

/-- Work that returns either succeeds or is a 401. -/
theorem loginWork_result (faults : Nat → Option (List CodePoint)) (t : Users db) (u p : Json)
    {r : Response} (h : ((loginWork db u p).run faults t).result = .ok r) :
    UserCall.login.succeeded r ∨ ∃ e, r = errorResponse e 401 := by
  have hwork : (loginWork db u p).Ensures faults (.start t)
      fun result _ => ∀ r, result = .ok r → UserCall.login.succeeded r ∨ ∃ e, r = errorResponse e 401 := by
    have hraise : ∀ e : List CodePoint, ∀ r : Response,
        Except.error e = .ok r → UserCall.login.succeeded r ∨ ∃ e, r = errorResponse e 401 := by simp
    have hok : ∀ b r, Except.ok (loggedIn b) = (.ok r : Except (List CodePoint) Response) →
        UserCall.login.succeeded r ∨ ∃ e, r = errorResponse e 401 :=
      fun b r h => .inl ⟨b, (Except.ok.inj h).symm⟩
    have hrefuse : ∀ e r, Except.ok (errorResponse e 401) = (.ok r : Except (List CodePoint) Response) →
        UserCall.login.succeeded r ∨ ∃ e, r = errorResponse e 401 :=
      fun e r h => .inr ⟨e, (Except.ok.inj h).symm⟩
    refine ensures_touch hraise ?_
    refine ensures_query hraise fun counted _ => ?_
    refine ensures_query hraise fun count _ => ?_
    refine ensures_ite (fun _ => ensures_ite (fun _ => hok true) (fun _ => hrefuse _)) (fun _ => ?_)
    refine ensures_query hraise fun found _ => ?_
    refine ensures_query hraise fun user _ => ?_
    exact ensures_ite (fun _ => hrefuse _) (fun _ => hok false)
  exact hwork r h

section Answers
variable {request : Request} {data u p : Json} (hdata : request.json = .ok data)
  (hu : dataGet data "username" = some u) (hp : dataGet data "password" = some p)
  (faults : Nat → Option (List CodePoint)) (t : Users db)
include hdata hu hp

/-- **A 2xx answer of the backend is a success exactly if nothing raised**, or the
values were not even tried. -/
theorem login_ok_iff :
    (isOk (login db request faults t).response = true →
      UserCall.login.succeeded (login db request faults t).response) ↔
    (truthy u = true → truthy p = true → NothingRaises faults t u p) := by
  rw [← loginWork_returns_iff]
  refine twoFieldView_ok_iff hdata hu hp faults t
    (fun e status => UserCall.login.not_succeeded (errorResponse_isError e status)) fun r hr => ?_
  rcases loginWork_result faults t u p hr with hs | ⟨e, rfl⟩
  · exact .inl hs
  · exact .inr rfl

/-- The answer has a JSON object in it. -/
theorem login_body :
    ∃ members, (login db request faults t).response.body = some (.obj members) := by
  refine twoFieldView_body hdata hu hp faults t fun r hr => ?_
  rcases loginWork_result faults t u p hr with ⟨b, rfl⟩ | ⟨e, rfl⟩
  · exact ⟨_, rfl⟩
  · exact ⟨_, rfl⟩

end Answers

end Backend

/-! ### Through the dashboard -/

/-- The answer says `success: true`. -/
def SaysSuccess (r : Response) : Prop :=
  ∃ data, r.body = some data ∧ data.member (py "success") = some (.bool true)

/-- The page shows what is behind the login. -/
def Page.letsIn : Page → Prop
  | .error _ => False
  | .changeForm => True
  | .dashboard => True

/-- The value the backend gets under a name. -/
def sent (resend : Json → Json) (body : Json) (name : String) : Json :=
  ((body.member (py name)).map resend).getD .null

theorem sent_pair (resend : Json → Json) {first second : String} (h : py second ≠ py first) (x y : Json) :
    sent resend (.obj [(py first, x), (py second, y)]) first = resend x ∧
      sent resend (.obj [(py first, x), (py second, y)]) second = resend y := by
  obtain ⟨hx, hy⟩ := member_pair h x y
  simp only [sent, hx, hy, Option.map_some, Option.getD_some, and_self]

theorem dataGet_stringified {first second : String} (h : py second ≠ py first) (x y : Option Json) :
    dataGet (stringified [(first, x), (second, y)]) first = some (x.getD .null) ∧
      dataGet (stringified [(first, x), (second, y)]) second = some (y.getD .null) := by
  cases x <;> cases y <;> simp [stringified, dataGet, Json.member, lastAssigned, h, h.symm]

theorem dataGet_backendRequest (resend : Json → Json) (body : Json) :
    ∃ data, (backendRequest resend body).json = .ok data ∧
      dataGet data "username" = some (sent resend body "username") ∧
      dataGet data "password" = some (sent resend body "password") :=
  ⟨_, rfl, dataGet_stringified usernamePassword _ _⟩

theorem not_saysSuccess_error (e : Json) (status : Nat) : ¬ SaysSuccess (jsonify [("error", e)] status) :=
  fun ⟨_, hdata, h⟩ => by
    obtain rfl := Option.some.inj hdata
    simp +decide [Json.member, lastAssigned] at h

section Dashboard
variable {db : Mysql} (resend : Json → Json) (faults : Nat → Option (List CodePoint)) (t : Users db)

theorem saysSuccess_loginSucceeds (data : Json) : SaysSuccess (loginSucceeds data) :=
  ⟨_, rfl, by simp +decide [Json.member, lastAssigned]⟩

/-- The handler says success exactly to a 2xx answer it can read. -/
theorem post_success_iff (fetchBackend : Request → Option Response) (body : Option Json) :
    SaysSuccess (post resend fetchBackend body) ↔
      ∃ x, exchanged resend fetchBackend body = some x ∧ isOk x.1 = true := by
  unfold post
  cases exchanged resend fetchBackend body with
  | none => exact iff_of_false (not_saysSuccess_error _ _) (by simp)
  | some x =>
    obtain ⟨r, data⟩ := x
    cases hok : isOk r with
    | true => simp [hok, saysSuccess_loginSucceeds]
    | false => simp [hok, not_saysSuccess_error]

/-- A 2xx answer of the handler is a success. -/
theorem post_ok_iff (fetchBackend : Request → Option Response) (body : Option Json) :
    isOk (post resend fetchBackend body) = true ↔ SaysSuccess (post resend fetchBackend body) := by
  rw [post_success_iff]
  unfold post
  cases exchanged resend fetchBackend body with
  | none => exact iff_of_false (by decide) (by simp)
  | some x =>
    obtain ⟨r, data⟩ := x
    cases hok : isOk r with
    | true =>
      have hsuccess : isOk (loginSucceeds data) = true := rfl
      simp only [hok, if_true, hsuccess, Option.some.injEq, exists_eq_left']
    | false =>
      have hstatus : isOk (jsonify [("error", propertyOr data "error" (.str (py "Login failed")))] r.status) =
          isOk r := rfl
      simp only [hok, hstatus, Bool.false_eq_true, if_false, Option.some.injEq, exists_eq_left']

/-- The page lets in exactly to a success of the handler. -/
theorem handleLogin_letsIn_iff (fetchBackend : Request → Option Response)
    (username password : List CodePoint) :
    (handleLogin username password fun data => some (post resend fetchBackend (some data))).letsIn ↔
      username ≠ [] ∧ password ≠ [] ∧ SaysSuccess (post resend fetchBackend
        (some (.obj [(py "username", .str username), (py "password", .str password)]))) := by
  unfold handleLogin
  by_cases hempty : (username.isEmpty || password.isEmpty) = true
  · rw [if_pos hempty]
    refine iff_of_false id fun ⟨hu, hp, _⟩ => ?_
    simp [hu, hp] at hempty
  rw [if_neg hempty]
  have hgiven : username ≠ [] ∧ password ≠ [] := by simpa using hempty
  simp only [hgiven.1, hgiven.2, ne_eq, not_false_eq_true, true_and]
  rw [← post_ok_iff]
  generalize hpost : post resend fetchBackend _ = r
  have hbody : ∃ members, r.body = some (.obj members) := by
    rw [← hpost]
    unfold post
    split
    · exact ⟨_, rfl⟩
    · split <;> exact ⟨_, rfl⟩
  obtain ⟨members, hmembers⟩ := hbody
  have hfetched : fetched (some r) = some (r, .obj members) := by
    simp [fetched, hmembers, readable]
  rw [hfetched]
  simp only
  cases isOk r with
  | true =>
    simp only [Bool.not_true, Bool.false_eq_true, if_false, iff_true]
    split <;> exact trivial
  | false => exact iff_of_false id (by simp)

/-! ### Failing closed -/

/-- The backend behind the handler. -/
def backend (request : Request) : Response := (login db request faults t).response

/-- Before the backend the handler says success to any 2xx answer. -/
theorem post_backend_iff {body : Option Json} {b : Json} (hb : readable body = some b) :
    SaysSuccess (post resend (fun r => some (backend faults t r)) body) ↔
      isOk (backend faults t (backendRequest resend b)) = true := by
  rw [post_success_iff, exchanged, hb, Option.bind_some]
  refine ⟨fun ⟨x, hx, hok⟩ => ?_, fun hok => ?_⟩
  · simp only [fetched, Option.bind_some, Option.map_eq_some_iff] at hx
    obtain ⟨_, _, rfl⟩ := hx
    exact hok
  · obtain ⟨data, hdata, hu, hp⟩ := dataGet_backendRequest resend b
    obtain ⟨members, hmembers⟩ := login_body hdata hu hp faults t
    refine ⟨(backend faults t (backendRequest resend b), .obj members), ?_, hok⟩
    have hbody : (backend faults t (backendRequest resend b)).body = some (.obj members) := hmembers
    simp only [fetched, Option.bind_some, hbody, readable, Option.map_some]

theorem post_failsClosed_iff (body : Option Json) :
    (SaysSuccess (post resend (fun r => some (backend faults t r)) body) →
      ∃ b, readable body = some b ∧
        UserCall.login.succeeded (backend faults t (backendRequest resend b))) ↔
    ∀ b, readable body = some b → truthy (sent resend b "username") = true →
      truthy (sent resend b "password") = true →
      NothingRaises faults t (sent resend b "username") (sent resend b "password") := by
  cases hb : readable body with
  | none =>
    have hnot : ¬ SaysSuccess (post resend (fun r => some (backend faults t r)) body) := by
      rw [post_success_iff, exchanged, hb]
      simp
    simp [hnot]
  | some b =>
    obtain ⟨data, hdata, hu, hp⟩ := dataGet_backendRequest resend b
    rw [post_backend_iff resend faults t hb]
    simp only [Option.some.injEq, exists_eq_left', forall_eq']
    exact login_ok_iff hdata hu hp faults t

theorem handleLogin_failsClosed_iff (username password : List CodePoint) :
    ((handleLogin username password fun data =>
        some (post resend (fun r => some (backend faults t r)) (some data))).letsIn →
      UserCall.login.succeeded (backend faults t (backendRequest resend
        (.obj [(py "username", .str username), (py "password", .str password)])))) ↔
    (username ≠ [] → password ≠ [] → truthy (resend (.str username)) = true →
      truthy (resend (.str password)) = true →
      NothingRaises faults t (resend (.str username)) (resend (.str password))) := by
  have hreadable : readable (some (.obj [(py "username", .str username), (py "password", .str password)])) =
      some (.obj [(py "username", .str username), (py "password", .str password)]) := rfl
  obtain ⟨husername, hpassword⟩ := sent_pair resend usernamePassword (.str username) (.str password)
  obtain ⟨data, hdata, hu, hp⟩ := dataGet_backendRequest resend
    (.obj [(py "username", .str username), (py "password", .str password)])
  have hlogin := login_ok_iff hdata hu hp faults t
  rw [husername, hpassword] at hlogin
  rw [handleLogin_letsIn_iff, post_backend_iff resend faults t hreadable, ← hlogin]
  exact ⟨fun h hu hp hok => h ⟨hu, hp, hok⟩, fun h hall => h hall.1 hall.2.1 hall.2.2⟩

/-- **The handler, and through it the page, let in only who the backend let in, exactly
where nothing raises in the backend's `try`.** -/
theorem login_failsClosed_iff :
    (∀ body : Option Json,
      (SaysSuccess (post resend (fun r => some (backend faults t r)) body) →
        ∃ b, readable body = some b ∧
          UserCall.login.succeeded (backend faults t (backendRequest resend b))) ↔
      ∀ b, readable body = some b → truthy (sent resend b "username") = true →
        truthy (sent resend b "password") = true →
        NothingRaises faults t (sent resend b "username") (sent resend b "password")) ∧
    ∀ username password : List CodePoint,
      ((handleLogin username password fun data =>
          some (post resend (fun r => some (backend faults t r)) (some data))).letsIn →
        UserCall.login.succeeded (backend faults t (backendRequest resend
          (.obj [(py "username", .str username), (py "password", .str password)])))) ↔
      (username ≠ [] → password ≠ [] → truthy (resend (.str username)) = true →
        truthy (resend (.str password)) = true →
        NothingRaises faults t (resend (.str username)) (resend (.str password))) :=
  ⟨post_failsClosed_iff resend faults t, handleLogin_failsClosed_iff resend faults t⟩

end Dashboard

/-- A database that cannot be reached. -/
def databaseDown : Nat → Option (List CodePoint) := fun _ => some (py "connection refused")

/-- Then any credentials open the dashboard. -/
theorem databaseDown_letsIn :
    ¬ ((handleLogin (py "x") (py "y") fun data =>
        some (post id (fun r => some (backend databaseDown (.empty : Users asciiMysql) r)) (some data))).letsIn →
      UserCall.login.succeeded (backend databaseDown (.empty : Users asciiMysql)
        (backendRequest id (.obj [(py "username", .str (py "x")), (py "password", .str (py "y"))])))) := by
  rw [handleLogin_failsClosed_iff]
  intro h
  cases (h (by decide) (by decide) (by decide) (by decide)).connect

end EndpointSecurity.Dashboard
