import EndpointSecurity.Dashboard.Login
import EndpointSecurity.Server.Reports

/-! The handler behind `/api/change-credentials`, and what it says of the backend.

It repeats the backend's status: any 2xx answer becomes `success: true`, without a look
at what the answer says. So it is as truthful as the backend's status is
(`changePost_reports_iff`). -/
namespace EndpointSecurity.Dashboard
open Library Transaction Server

/-- The catch clause of the handler. -/
def changeError : Response := errorResponse (py "Internal Server Error") 500

def changeSucceeds : Response :=
  jsonify [
    ("success", .bool true),
    ("message", .str (py "Credentials changed successfully"))] 200

/-- The request the handler sends. -/
def credentialsRequest (resend : Json → Json) (body : Json) : Request :=
  ⟨none, .ok (stringified [
    ("newUsername", (body.member (py "newUsername")).map resend),
    ("newPassword", (body.member (py "newPassword")).map resend)])⟩

/-- What the handler gets from the backend: an answer, and the JSON in it. -/
def changeExchanged (resend : Json → Json) (fetchBackend : Request → Option Response)
    (body : Option Json) : Option (Response × Json) :=
  (readable body).bind fun b =>
    (fetchBackend (credentialsRequest resend b)).bind fun r => r.body.map (r, ·)

/-- `POST`; the JSON of a refusal is read, and there has to be some to read. -/
def changePost (resend : Json → Json) (fetchBackend : Request → Option Response) (body : Option Json) :
    Response :=
  match changeExchanged resend fetchBackend body with
  | none => changeError
  | some (response, data) =>
    if !isOk response then
      match readable (some data) with
      | none => changeError
      | some data => jsonify
          [("error", propertyOr data "error" (.str (py "Failed to change credentials")))] response.status
    else changeSucceeds

theorem saysSuccess_changeSucceeds : SaysSuccess changeSucceeds :=
  ⟨_, rfl, by simp +decide [Json.member, lastAssigned]⟩

/-- The handler says success exactly to a 2xx answer with JSON in it. -/
theorem changePost_success_iff (resend : Json → Json) (fetchBackend : Request → Option Response)
    (body : Option Json) :
    SaysSuccess (changePost resend fetchBackend body) ↔
      ∃ x, changeExchanged resend fetchBackend body = some x ∧ isOk x.1 = true := by
  unfold changePost
  cases changeExchanged resend fetchBackend body with
  | none => exact iff_of_false (not_saysSuccess_error _ _) (by simp)
  | some x =>
    obtain ⟨r, data⟩ := x
    cases hok : isOk r with
    | true => simp [hok, saysSuccess_changeSucceeds]
    | false =>
      have hrefused : ¬ SaysSuccess (match readable (some data) with
          | none => changeError
          | some data => jsonify
              [("error", propertyOr data "error" (.str (py "Failed to change credentials")))] r.status) := by
        cases readable (some data) with
        | none => exact not_saysSuccess_error _ _
        | some data => exact not_saysSuccess_error _ _
      simp [hok, hrefused]

theorem dataGet_credentialsRequest (resend : Json → Json) (body : Json) :
    ∃ data, (credentialsRequest resend body).json = .ok data ∧
      dataGet data "newUsername" = some (sent resend body "newUsername") ∧
      dataGet data "newPassword" = some (sent resend body "newPassword") :=
  ⟨_, rfl, dataGet_stringified (by decide) _ _⟩

section Backend
variable {db : Mysql} (resend : Json → Json) (faults : Nat → Option (List CodePoint)) (t : Users db)

/-- The backend behind the handler. -/
def credentialsBackend (request : Request) : Response := (changeCredentials db request faults t).response

/-- Before the backend the handler says success to any 2xx answer. -/
theorem changePost_backend_iff {body : Option Json} {b : Json} (hb : readable body = some b) :
    SaysSuccess (changePost resend (fun r => some (credentialsBackend faults t r)) body) ↔
      isOk (credentialsBackend faults t (credentialsRequest resend b)) = true := by
  rw [changePost_success_iff, changeExchanged, hb, Option.bind_some, Option.bind_some]
  refine ⟨fun ⟨x, hx, hok⟩ => ?_, fun hok => ?_⟩
  · obtain ⟨_, _, rfl⟩ := Option.map_eq_some_iff.mp hx
    exact hok
  · obtain ⟨data, hdata, hu, hp⟩ := dataGet_credentialsRequest resend b
    obtain ⟨members, hmembers⟩ := changeCredentials_body hdata faults t hu hp
    refine ⟨(credentialsBackend faults t (credentialsRequest resend b), .obj members), ?_, hok⟩
    exact Option.map_eq_some_iff.mpr ⟨.obj members, hmembers, rfl⟩

/-- The credentials of the request were committed. -/
def ChangeStored (body : Option Json) : Prop :=
  ∃ b, readable body = some b ∧
    Stored (sent resend b "newUsername") (sent resend b "newPassword") .empty
      (changeCredentials db (credentialsRequest resend b) faults t)

theorem changePost_reports_iff (body : Option Json) :
    (SaysSuccess (changePost resend (fun r => some (credentialsBackend faults t r)) body) ↔
      ChangeStored resend faults t body) ↔
    ∀ b, readable body = some b → truthy (sent resend b "newUsername") = true →
      truthy (sent resend b "newPassword") = true →
      ChangeReturns faults t (sent resend b "newUsername") (sent resend b "newPassword") := by
  unfold ChangeStored
  cases hb : readable body with
  | none =>
    have hnot : ¬ SaysSuccess (changePost resend (fun r => some (credentialsBackend faults t r)) body) := by
      rw [changePost_success_iff, changeExchanged, hb]
      simp
    simp [hnot]
  | some b =>
    obtain ⟨data, hdata, hu, hp⟩ := dataGet_credentialsRequest resend b
    rw [changePost_backend_iff resend faults t hb]
    simp only [Option.some.injEq, exists_eq_left', forall_eq']
    exact changeCredentials_reports_iff hdata faults t hu hp

/-- **`register`, `change_credentials` and the dashboard's handler report a new
credential exactly if it was committed, exactly where no step raises.** -/
theorem credentials_reported_iff :
    (∀ request data u p, request.json = .ok data → dataGet data "username" = some u →
      dataGet data "password" = some p →
      ((isOk (register db request faults t).response = true ↔
        Stored u p t (register db request faults t)) ↔
      (truthy u = true → truthy p = true → RegisterReturns faults t u p))) ∧
    (∀ request data u p, request.json = .ok data → dataGet data "newUsername" = some u →
      dataGet data "newPassword" = some p →
      ((isOk (changeCredentials db request faults t).response = true ↔
        Stored u p .empty (changeCredentials db request faults t)) ↔
      (truthy u = true → truthy p = true → ChangeReturns faults t u p))) ∧
    ∀ body, (SaysSuccess (changePost resend (fun r => some (credentialsBackend faults t r)) body) ↔
        ChangeStored resend faults t body) ↔
      ∀ b, readable body = some b → truthy (sent resend b "newUsername") = true →
        truthy (sent resend b "newPassword") = true →
        ChangeReturns faults t (sent resend b "newUsername") (sent resend b "newPassword") :=
  ⟨fun _ _ _ _ hdata hu hp => register_reports_iff hdata faults t hu hp,
    fun _ _ _ _ hdata hu hp => changeCredentials_reports_iff hdata faults t hu hp,
    changePost_reports_iff resend faults t⟩

end Backend

/-- The first account, on a database that answers. -/
theorem credentials_reported_first :
    isOk (register asciiMysql (loginRequest (.str (py "alice")) (.str (py "secret"))) answering .empty).response =
        true ↔
      Stored (.str (py "alice")) (.str (py "secret")) .empty
        (register asciiMysql (loginRequest (.str (py "alice")) (.str (py "secret"))) answering .empty) := by
  have hinsert : Inserted (.str (py "alice")) (.str (py "secret")) (.empty : Users asciiMysql)
      ⟨[⟨"alice".toList, some "secret".toList⟩], List.pairwise_singleton _ _⟩ :=
    ⟨_, _, operand_str _, operand_str _, rfl⟩
  have hdata := dataGet_pair usernamePassword (.str (py "alice")) (.str (py "secret"))
  exact ((credentials_reported_iff id answering .empty).1 _ _ _ _ rfl hdata.1 hdata.2).mpr fun _ _ =>
    ⟨⟨rfl, ⟨rfl, _, operand_str _⟩, rfl⟩, fun _ => ⟨rfl, _, hinsert⟩, fun _ => rfl⟩

/-- A password of 256 letters. -/
def longPassword : List Char := List.replicate 256 'a'

theorem longPassword_refused : varchar 255 longPassword = .error .dataTooLong := by
  unfold varchar longPassword
  rw [if_neg (by rw [List.length_replicate]; decide), List.drop_replicate, if_neg (by decide)]

/-- A row whose password does not fit is not inserted. -/
theorem refused_notInserted {db : Mysql} {password : List Char} {e : SqlError}
    (h : varchar 255 password = .error e) (u : Json) (t' : Users db) :
    ¬ Inserted u (.str (points password)) .empty t' := by
  intro ⟨a, b, _, hb, hinsert⟩
  obtain rfl := Except.ok.inj ((operand_str password).symm.trans hb)
  obtain ⟨r, hrow, -⟩ := Users.insert_eq_ok hinsert
  have hcolumn : columnText db 255 (.text password) = .error e := by
    rw [columnText, h]
    rfl
  unfold Users.row at hrow
  rw [hcolumn] at hrow
  cases hu : columnText db 255 a <;> simp only [hu, bind, Except.bind, reduceCtorEq] at hrow

/-- The body of a request to the handler. -/
def changeBody (u p : Json) : Json := .obj [(py "newUsername", u), (py "newPassword", p)]

theorem sent_changeBody (u p : Json) :
    sent id (changeBody u p) "newUsername" = u ∧ sent id (changeBody u p) "newPassword" = p :=
  sent_pair id (by decide) u p

/-- MySQL refuses it after the old accounts are gone from the transaction; the handler
says success. -/
theorem longPassword_reported :
    ¬ (SaysSuccess (changePost id (fun r => some (credentialsBackend answering aliceOnly r))
        (some (changeBody (.str (py "bob")) (.str (points longPassword))))) ↔
      ChangeStored id answering aliceOnly
        (some (changeBody (.str (py "bob")) (.str (points longPassword))))) := by
  rw [changePost_reports_iff]
  intro h
  obtain ⟨hu, hp⟩ := sent_changeBody (.str (py "bob")) (.str (points longPassword))
  have hreturns := h _ rfl
  rw [hu, hp] at hreturns
  have hname : Unnamed aliceOnly (.str (py "bob")) := fun a ha => by
    obtain rfl := Except.ok.inj ((operand_str _).symm.trans ha)
    rw [Users.named, aliceOnly_rows]
    decide
  obtain ⟨-, t', hinsert⟩ := (hreturns (by decide) (by decide +kernel)).insert hname
  exact refused_notInserted longPassword_refused _ t' hinsert

end EndpointSecurity.Dashboard
