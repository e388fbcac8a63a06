import EndpointSecurity.Dashboard.CreateEndpoint
import EndpointSecurity.Deployment.NameText
import EndpointSecurity.Server.EndpointIds

/-! Enrolment: from the dashboard's form to the agent that loads the file.

Any number of people fill in the form at once; their requests interleave at the database
in any order of turns, and every exchange, between page and handler or handler and
backend, may be cut. A page that saves a file has saved the file of its own row, which is
committed, and no two pages save files with one id (`enrolment`). An agent started from
such a file has the row's key and id (`enrolled_agents`). -/
namespace EndpointSecurity.Deployment
open Library Agent Server Dashboard

/-! ### The server behind the pages -/

section Answers
variable {db : Mysql} {n : Nat} {requests : Fin n → NewEndpoint} {w : World n} {i j : Fin n} {response : Response}

/-- An answer that a request gets from before its work, or a 500. -/
def Refusal (requests : Fin n → NewEndpoint) (i : Fin n) (response : Response) : Prop :=
  requestedName (requests i).request = .error response ∨ ∃ e, response = errorResponse e 500

theorem refusal_of_move {p : Phase} (hp : ∀ r, p = .refused r → Refusal requests j r)
    (h : (w.move j p).phase i = .refused response) : w.phase i = .refused response ∨ Refusal requests i response := by
  by_cases hi : i = j
  · obtain rfl := hi
    rw [World.move_self] at h
    exact .inr (hp _ h)
  · rw [World.move_other w hi] at h
    exact .inl h

theorem refusal_of_open {p : Phase} (h : (w.move j p).phase i = .refused response) (hp : ∀ r, p ≠ .refused r) :
    w.phase i = .refused response ∨ Refusal requests i response :=
  refusal_of_move (fun r hr => absurd hr (hp r)) h

theorem refusal_of_raise {e : List CodePoint} (h : (w.move j (.refused (errorResponse e 500))).phase i = .refused response) :
    w.phase i = .refused response ∨ Refusal requests i response :=
  refusal_of_move (fun _ hr => .inr ⟨e, (Phase.refused.inj hr).symm⟩) h

theorem refusal_of_name {refusal : Response} (hname : requestedName (requests j).request = .error refusal)
    (h : (w.move j (.refused refusal)).phase i = .refused response) :
    w.phase i = .refused response ∨ Refusal requests i response :=
  refusal_of_move (fun _ hr => .inl (Phase.refused.inj hr ▸ hname)) h

theorem proceed_refused (h : (proceed db requests w j).phase i = .refused response) :
    w.phase i = .refused response ∨ Refusal requests i response := by
  unfold proceed at h
  cases hj : w.phase j with
  | started =>
    rw [hj] at h
    cases hname : requestedName (requests j).request with
    | error refusal =>
      simp only [hname] at h
      exact refusal_of_name hname h
    | ok name =>
      simp only [hname] at h
      exact refusal_of_open h fun _ => nofun
  | connected name | selected name newId =>
    rw [hj] at h
    exact refusal_of_open h fun _ => nofun
  | fetched name newId =>
    simp only [hj] at h
    by_cases hwaits : w.Waits j newId
    · rw [if_pos hwaits] at h
      exact .inl h
    rw [if_neg hwaits] at h
    cases hrow : insertRow db (requests j).authKey name newId w.table with
    | error e =>
      rw [hrow] at h
      exact refusal_of_raise h
    | ok row =>
      rw [hrow] at h
      exact refusal_of_open h fun _ => nofun
  | inserted name row =>
    simp only [hj] at h
    cases ht : w.table.insert row with
    | error e =>
      rw [ht] at h
      exact refusal_of_raise h
    | ok t =>
      rw [ht] at h
      -- a commit changes the phases as a move does
      exact refusal_of_open (w := w) (p := .created name row.endpointId) h fun _ => nofun
  | created name newId | refused refusal =>
    rw [hj] at h
    exact .inl h

theorem raise_refused {e : List CodePoint} (h : (raise requests w j e).phase i = .refused response) :
    w.phase i = .refused response ∨ Refusal requests i response := by
  unfold raise at h
  cases hj : w.phase j with
  | started =>
    rw [hj] at h
    cases hname : requestedName (requests j).request with
    | error refusal =>
      simp only [hname] at h
      exact refusal_of_name hname h
    | ok name =>
      simp only [hname] at h
      exact refusal_of_raise h
  | connected name | selected name newId | fetched name newId | inserted name row =>
    rw [hj] at h
    exact refusal_of_raise h
  | created name newId | refused refusal =>
    rw [hj] at h
    exact .inl h

/-- What a refused request was answered with. -/
theorem run_refused (turns : List (Turn n))
    (h : ((creations db requests).run (.initial n) turns).phase i = .refused response) : Refusal requests i response := by
  have hstep : ∀ (v : World n) turn, (∀ r, v.phase i = .refused r → Refusal requests i r) →
      ∀ r, ((creations db requests).step v turn).2.phase i = .refused r → Refusal requests i r := by
    intro v turn hv r hr
    have hcases : v.phase i = .refused r ∨ Refusal requests i r := by
      change (takeTurn db requests v turn).phase i = .refused r at hr
      unfold takeTurn at hr
      cases hfault : turn.fault with
      | none =>
        rw [hfault] at hr
        exact proceed_refused hr
      | some e =>
        rw [hfault] at hr
        exact raise_refused hr
    exact hcases.elim (hv r) id
  have hinitial : ∀ r, (World.initial n).phase i = .refused r → Refusal requests i r := fun r hr => by cases hr
  exact Machine.run_invariant hstep hinitial turns response h

/-- Every id of the table fits its column. -/
theorem run_fits (turns : List (Turn n)) :
    ∀ row ∈ ((creations db requests).run (.initial n) turns).table.rows, row.endpointId ≤ SQL_INT_MAX := by
  have hstep : ∀ (v : World n) turn, IdsInv db requests v ∧ (∀ row ∈ v.table.rows, row.endpointId ≤ SQL_INT_MAX) →
      IdsInv db requests ((creations db requests).step v turn).2 ∧
        ∀ row ∈ ((creations db requests).step v turn).2.table.rows, row.endpointId ≤ SQL_INT_MAX := by
    rintro v turn ⟨hv, hrows⟩
    refine ⟨takeTurn_inv hv turn, ?_⟩
    show ∀ row ∈ (takeTurn db requests v turn).table.rows, row.endpointId ≤ SQL_INT_MAX
    have hturned := takeTurn_turned hv turn
    generalize takeTurn db requests v turn = v' at hturned
    cases hturned with
    | same => exact hrows
    | moved p hbefore hafter hp hfree => exact hrows
    | committed name row t hphase ht =>
      obtain ⟨hfits, -, hadded⟩ := insert_eq_ok.mp ht
      intro x hx
      change x ∈ t.rows at hx
      rw [hadded] at hx
      rcases List.mem_append.mp hx with hx | hx
      · exact hrows x hx
      · rw [List.mem_singleton.mp hx]
        exact hfits
  exact (Machine.run_invariant hstep ⟨initial_inv n requests, List.forall_mem_nil _⟩ turns).2

end Answers

/-! ### The forms -/

/-- A form that is sent off: the name in it, and the key the server will generate. -/
structure Form where
  authKey : AuthKey
  endpointName : List Char

/-- Which answers arrive, and the message of what is thrown where one does not. -/
structure Exchange where
  backend : Bool
  handler : Bool
  thrown : List CodePoint

/-- The body a page sends. -/
def formBody (name : List Char) : Json := .obj [(py "name", .str (points name))]

section Enrolment
variable (reprStr : List CodePoint → List CodePoint) (resend : Resent) (others : Json → List CodePoint) {n : Nat}
  (forms : Fin n → Form)

/-- The requests the handlers send. -/
def asked (i : Fin n) : NewEndpoint :=
  ⟨(forms i).authKey, nameRequest resend (formBody (forms i).endpointName)⟩

/-- The page of a form; the answer its handler gets is the one to the request it sent. -/
def shown (w : World n) (i : Fin n) (x : Exchange) : EndpointsPage :=
  handleSubmit others x.thrown (points (forms i).endpointName) fun body =>
    if x.handler then
      some (creationPost resend
        (fun _ => if x.backend then w.response reprStr (asked resend forms) i else none) (some body))
    else none

/-- The file is the one of the form's own row, under this id. -/
structure HandedOut (w : World n) (i : Fin n) (file : Download) (newId : EndpointId) : Prop where
  committed : i ∈ w.commits
  answered : w.response reprStr (asked resend forms) i =
    some (created reprStr (forms i).authKey (.str (points (forms i).endpointName)) newId.val)
  row : .fresh newId.val (forms i).authKey.chars (some ((forms i).endpointName.take 64)) ∈ w.table.rows
  bytes : configFile (forms i).authKey (forms i).endpointName newId.val = some file.bytes
  fileName : ∀ p ∈ file.fileName, isJsSpace p = false

variable {resend forms}

theorem requestedName_asked (i : Fin n) : requestedName (asked resend forms i).request =
    if (forms i).endpointName = [] then .error (errorResponse (py "Endpoint name is required") 400)
    else .ok (.str (points (forms i).endpointName)) := by
  have hmember : (formBody (forms i).endpointName).member (py "name") =
      some (.str (points (forms i).endpointName)) := by
    simp [formBody, Json.member, lastAssigned]
  have hdata : dataGet (stringified [("name", some (.str (points (forms i).endpointName)))]) "name" =
      some (.str (points (forms i).endpointName)) := by
    simp [stringified, dataGet, Json.member, lastAssigned]
  rw [asked, nameRequest, hmember, Option.map_some, resend.text]
  unfold requestedName
  simp only [hdata]
  cases (forms i).endpointName with
  | nil => rfl
  | cons c rest => rfl

/-- What a refused form was answered with is no 2xx answer. -/
theorem Refusal.not_isOk {i : Fin n} {response : Response} (h : Refusal (asked resend forms) i response) :
    isOk response = false := by
  rcases h with h | ⟨e, rfl⟩
  · rw [requestedName_asked] at h
    by_cases hempty : (forms i).endpointName = []
    · rw [if_pos hempty] at h
      rw [← Except.error.inj h]
      rfl
    · rw [if_neg hempty] at h
      cases h
  · rfl

/-- The file of an answer is the agent's configuration file. -/
theorem created_content (authKey : AuthKey) (name : List Char) (newId : Nat) :
    ∃ data text, (created reprStr authKey (.str (points name)) newId).body = some data ∧
      data.member (py "config_content") = some (.str (points text)) ∧
      configFile authKey name newId = some (utf8 text) := by
  obtain ⟨text, hcontent⟩ : ∃ text, configContent (points authKey.chars) (points name) newId = points text := by
    refine ⟨"# Endpoint Configuration File\napi=http://localhost:5001/submit_logs\nkey=".toList ++
      authKey.chars ++ "\nname=".toList ++ name ++ "\nid=".toList ++ (toString (newId : Int)).toList ++
      "\nbuffer_size=65\nbatch_size=25\n".toList, ?_⟩
    simp only [configContent, py, points_append]
  refine ⟨_, text, rfl, ?_, ?_⟩
  · rw [← hcontent]
    simp +decide [Json.member, lastAssigned, pyFormat]
  · rw [configFile, hcontent, encodeUtf8_points]

variable {reprStr others} {w : World n} {i : Fin n}

/-- The page of a form whose row is committed saves the row's file, if the answers arrive. -/
theorem shown_created (others : Json → List CodePoint) {newId : EndpointId} {x : Exchange}
    (hbackend : x.backend = true) (hhandler : x.handler = true)
    (h : w.response reprStr (asked resend forms) i =
      some (created reprStr (forms i).authKey (.str (points (forms i).endpointName)) newId.val)) :
    ∃ file, shown reprStr resend others forms w i x = .success file ∧
      configFile (forms i).authKey (forms i).endpointName newId.val = some file.bytes ∧
      ∀ p ∈ file.fileName, isJsSpace p = false := by
  obtain ⟨data, text, hbody, hcontent, hfile⟩ :=
    created_content reprStr (forms i).authKey (forms i).endpointName newId.val
  have hok : isOk (created reprStr (forms i).authKey (.str (points (forms i).endpointName)) newId.val) = true := rfl
  have harrives : (if x.backend then w.response reprStr (asked resend forms) i else none) =
      some (created reprStr (forms i).authKey (.str (points (forms i).endpointName)) newId.val) := by
    rw [if_pos hbackend, h]
  have hpasses : ∃ data', creationPost resend
      (fun _ => if x.backend then w.response reprStr (asked resend forms) i else none)
      (some (formBody (forms i).endpointName)) = ⟨200, some data'⟩ ∧
        data'.member (py "config_content") = some (.str (points text)) :=
    creationPost_passes rfl harrives hok hbody hcontent
  obtain ⟨data', hpost, hcontent'⟩ := hpasses
  have hfetch : (if x.handler then some (creationPost resend
      (fun _ => if x.backend then w.response reprStr (asked resend forms) i else none)
      (some (formBody (forms i).endpointName))) else none) = some ⟨200, some data'⟩ := by
    rw [if_pos hhandler, hpost]
  have hsuffix : ∀ p ∈ py "_Endpoint.conf", isJsSpace p = false := by
    have hall : (py "_Endpoint.conf").all (fun p => isJsSpace p == false) = true := by decide
    exact fun p hp => beq_iff_eq.mp (List.all_eq_true.mp hall p hp)
  exact ⟨_, handleSubmit_saves hfetch rfl rfl hcontent', hfile,
    List.forall_mem_append.mpr ⟨underscored_noSpace _ _, hsuffix⟩⟩

/-- A form whose request is answered with a 2xx is committed under an id. -/
theorem answered_created {db : Mysql} (hw : IdsInv db (asked resend forms) w)
    (hfits : ∀ row ∈ w.table.rows, row.endpointId ≤ SQL_INT_MAX)
    (hrefused : ∀ response, w.phase i = .refused response → Refusal (asked resend forms) i response) {r : Response}
    (h : w.response reprStr (asked resend forms) i = some r) (hok : isOk r = true) :
    i ∈ w.commits ∧ ∃ newId : EndpointId,
      r = created reprStr (forms i).authKey (.str (points (forms i).endpointName)) newId.val ∧
      .fresh newId.val (forms i).authKey.chars (some ((forms i).endpointName.take 64)) ∈ w.table.rows := by
  have hphase := hw.phases i
  unfold World.response at h
  cases hi : w.phase i with
  | created name newId =>
    rw [hi] at h hphase
    obtain rfl := Option.some.inj h
    obtain ⟨hname, row, hmem, hid, stored, hstored, hrow⟩ := hphase
    have hnamed : name = .str (points (forms i).endpointName) := by
      rw [requestedName_asked] at hname
      by_cases hempty : (forms i).endpointName = []
      · rw [if_pos hempty] at hname
        cases hname
      · rw [if_neg hempty] at hname
        exact (Except.ok.inj hname).symm
    subst hnamed
    obtain ⟨hcut, -⟩ := storedAs_text hstored
    have hlow : 1 ≤ newId := ((hw.contiguous.mem_iff newId).mp ⟨row, hmem, hid⟩).1
    have hhigh : newId ≤ SQL_INT_MAX := hid ▸ hfits row hmem
    have hval : (newId.toNat : Int) = newId := Int.toNat_of_nonneg (by omega)
    refine ⟨(hw.committed i).mpr (by rw [hi]; rfl), ⟨newId.toNat, by omega, by rw [hval]; exact hhigh⟩, ?_, ?_⟩
    · rw [hval]
      rfl
    · rw [hval, ← hid, ← hcut]
      exact hrow ▸ hmem
  | refused response =>
    rw [hi] at h
    obtain rfl := Option.some.inj h
    rw [(hrefused response hi).not_isOk] at hok
    cases hok
  | started | connected name | selected name newId | fetched name newId | inserted name row =>
    rw [hi] at h
    cases h

/-- A page that saves a file has had the answer of the backend. -/
theorem shown_success {x : Exchange} {file : Download} (h : shown reprStr resend others forms w i x = .success file) :
    x.backend = true ∧ x.handler = true ∧ ∃ r, w.response reprStr (asked resend forms) i = some r ∧ isOk r = true := by
  obtain ⟨r, hhandler, hok⟩ := handleSubmit_isOk h
  by_cases harrived : x.handler = true
  · rw [if_pos harrived] at hhandler
    obtain rfl := Option.some.inj hhandler
    obtain ⟨b, r, -, hbackend, hok⟩ := creationPost_isOk hok
    by_cases hanswered : x.backend = true
    · rw [if_pos hanswered] at hbackend
      exact ⟨hanswered, harrived, r, hbackend, hok⟩
    · rw [if_neg hanswered] at hbackend
      cases hbackend
  · rw [if_neg harrived] at hhandler
    cases hhandler

end Enrolment

section Runs
variable (db : Mysql) (reprStr : List CodePoint → List CodePoint) (resend : Resent) (others : Json → List CodePoint)
  {n : Nat}

variable {resend} {forms : Fin n → Form} {turns : List (Turn n)}

theorem run_answered {i : Fin n} {r : Response}
    (h : ((creations db (asked resend forms)).run (.initial n) turns).response reprStr (asked resend forms) i = some r)
    (hok : isOk r = true) :
    i ∈ ((creations db (asked resend forms)).run (.initial n) turns).commits ∧ ∃ newId : EndpointId,
      r = created reprStr (forms i).authKey (.str (points (forms i).endpointName)) newId.val ∧
      .fresh newId.val (forms i).authKey.chars (some ((forms i).endpointName.take 64)) ∈
        ((creations db (asked resend forms)).run (.initial n) turns).table.rows :=
  answered_created (run_inv (initial_inv n _) turns) (run_fits turns) (fun _ h => run_refused turns h) h hok

/-- Whatever a page saves was handed out to its form. -/
theorem handedOut_of_success {i : Fin n} {x : Exchange} {file : Download}
    (h : shown reprStr resend others forms ((creations db (asked resend forms)).run (.initial n) turns) i x = .success file) :
    ∃ newId, HandedOut reprStr resend forms ((creations db (asked resend forms)).run (.initial n) turns) i file newId := by
  obtain ⟨hbackend, hhandler, r, hr, hok⟩ := shown_success h
  obtain ⟨hcommit, newId, rfl, hrow⟩ := run_answered db reprStr hr hok
  obtain ⟨saved, hshown, hbytes, hname⟩ := shown_created others hbackend hhandler hr
  obtain rfl := EndpointsPage.success.inj (h.symm.trans hshown)
  exact ⟨newId, hcommit, hr, hrow, hbytes, hname⟩

/-- An id is handed out once. -/
theorem handedOut_once {i j : Fin n} {file file' : Download} {newId : EndpointId}
    (hi : HandedOut reprStr resend forms ((creations db (asked resend forms)).run (.initial n) turns) i file newId)
    (hj : HandedOut reprStr resend forms ((creations db (asked resend forms)).run (.initial n) turns) j file' newId) :
    i = j := by
  have hw : IdsInv db (asked resend forms) ((creations db (asked resend forms)).run (.initial n) turns) :=
    run_inv (initial_inv n _) turns
  obtain ⟨_, hi'⟩ := created_of_response hw hi.answered
  obtain ⟨_, hj'⟩ := created_of_response hw hj.answered
  exact hw.created i j newId.val (by rw [hi']; rfl) (by rw [hj']; rfl)

variable (resend) in
/-- **A page saves a file exactly of its own committed row**, if the answers arrive, and
never another one; no two pages save files with one id. -/
theorem enrolment (forms : Fin n → Form) (turns : List (Turn n)) :
    let w := (creations db (asked resend forms)).run (.initial n) turns
    (∀ i x file, shown reprStr resend others forms w i x = .success file →
      ∃ newId, HandedOut reprStr resend forms w i file newId) ∧
    (∀ i thrown, (∃ file, shown reprStr resend others forms w i ⟨true, true, thrown⟩ = .success file) ↔ i ∈ w.commits) ∧
    ∀ i j file file' newId, HandedOut reprStr resend forms w i file newId →
      HandedOut reprStr resend forms w j file' newId → i = j := by
  intro w
  have hhanded : ∀ i x file, shown reprStr resend others forms w i x = .success file →
      ∃ newId, HandedOut reprStr resend forms w i file newId := fun _ _ _ h => handedOut_of_success db reprStr others h
  refine ⟨hhanded, fun i thrown => ⟨fun ⟨file, h⟩ => ?_, fun hcommit => ?_⟩,
    fun _ _ _ _ _ hi hj => handedOut_once db reprStr hi hj⟩
  · obtain ⟨_, hout⟩ := hhanded i _ file h
    exact hout.committed
  · have hw : IdsInv db (asked resend forms) w := run_inv (initial_inv n _) turns
    have hcreated := (hw.committed i).mp hcommit
    cases hi : w.phase i with
    | created name newId =>
      obtain ⟨-, newId, hanswer, -⟩ := run_answered db reprStr (response_created hi) rfl
      obtain ⟨file, hshown, -⟩ := shown_created (x := ⟨true, true, thrown⟩) others rfl rfl
        ((response_created hi).trans (congrArg some hanswer))
      exact ⟨file, hshown⟩
    | _ =>
      rw [hi] at hcreated
      cases hcreated

/-- A form that nobody gets in the way of saves its file. -/
example : ∃ file, shown id default (fun _ => []) (fun _ : Fin 1 => ⟨sampleKey, ['x']⟩)
    ((creations asciiMysql (asked default fun _ => ⟨sampleKey, ['x']⟩)).run (.initial 1)
      (turnsOf 0 [none, none, none, none, none])) 0 ⟨true, true, []⟩ = .success file := ⟨_, rfl⟩

end Runs

/-! ### The agents -/

/-- The agent runs with the key and the id of a row. -/
structure RunsAs (c : Config) (row : EndpointRow) : Prop where
  key : c.key.string = utf8 row.authkey
  id : c.id.string = utf8 (toString row.endpointId).toList
  header : authHeader c = lit "Authorization: Bearer " ++ utf8 row.authkey

/-- Ids with one decimal are one id. -/
theorem id_of_decimal {a b : EndpointId} (h : lit (toString a.val) = lit (toString b.val)) : a = b := by
  obtain ⟨m, hm, hm'⟩ := a
  obtain ⟨k, hk, hk'⟩ := b
  have hchars : (toString m).toList = (toString k).toList := utf8_inj.mp h
  have hdigits : Nat.toDigits 10 m = Nat.toDigits 10 k := by
    rw [← Nat.toList_repr, ← Nat.toList_repr]
    exact hchars
  have hval : m = k := by
    rw [← Nat.ofDigitChars_ten_toDigits (n := m), hdigits, Nat.ofDigitChars_ten_toDigits]
  subst hval
  rfl

section Agents
variable {reprStr : List CodePoint → List CodePoint} {resend : Resent} {n : Nat} {forms : Fin n → Form} {w : World n}

/-- An agent whose file was handed out for a plain name runs as the row behind it. -/
theorem HandedOut.loads {i : Fin n} {file : Download} {newId : EndpointId}
    (h : HandedOut reprStr resend forms w i file newId) (name : PlainName) (hname : (forms i).endpointName = name.chars) :
    ∃ c, loadConfig (some file.bytes) = some ⟨0, none, c⟩ ∧ c.id.string = lit (toString newId.val) ∧
      RunsAs c (.fresh newId.val (forms i).authKey.chars (some ((forms i).endpointName.take 64))) := by
  obtain ⟨c, hload, -, hkey, -, hid, -, -⟩ := loadConfig_plain (forms i).authKey name newId
  rw [← hname, h.bytes] at hload
  have hheader : authHeader c = lit "Authorization: Bearer " ++ utf8 (forms i).authKey.chars := by
    have hlength := length_utf8_key (forms i).authKey
    have hbearer : (lit "Authorization: Bearer ").length = 22 := by decide
    rw [authHeader, hkey, List.take_of_length_le]
    rw [List.length_append, hlength, hbearer]
    decide
  exact ⟨c, hload, hid, hkey, hid, hheader⟩

/-- **Agents of different forms never run with one id**, and each runs with the key and
the id of a row that is committed. -/
theorem enrolled_agents (db : Mysql) (reprStr : List CodePoint → List CodePoint) (resend : Resent)
    (others : Json → List CodePoint) (keys : Fin n → AuthKey) (names : Fin n → PlainName) (turns : List (Turn n)) :
    let forms := fun i => Form.mk (keys i) (names i).chars
    let w := (creations db (asked resend forms)).run (.initial n) turns
    (∀ i x file, shown reprStr resend others forms w i x = .success file →
      ∃ c, loadConfig (some file.bytes) = some ⟨0, none, c⟩ ∧ ∃ row ∈ w.table.rows, RunsAs c row) ∧
    ∀ i j x y file file' r r', shown reprStr resend others forms w i x = .success file →
      shown reprStr resend others forms w j y = .success file' → loadConfig (some file.bytes) = some r →
      loadConfig (some file'.bytes) = some r' → r.config.id.string = r'.config.id.string → i = j := by
  intro forms w
  constructor
  · intro i x file h
    obtain ⟨newId, hout⟩ := handedOut_of_success db reprStr others h
    obtain ⟨c, hload, -, hruns⟩ := hout.loads (names i) rfl
    exact ⟨c, hload, _, hout.row, hruns⟩
  · intro i j x y file file' r r' hi hj hload hload' hsame
    obtain ⟨newId, hout⟩ := handedOut_of_success db reprStr others hi
    obtain ⟨newId', hout'⟩ := handedOut_of_success db reprStr others hj
    obtain ⟨c, hc, hid, -⟩ := hout.loads (names i) rfl
    obtain ⟨c', hc', hid', -⟩ := hout'.loads (names j) rfl
    obtain rfl := Option.some.inj (hc.symm.trans hload)
    obtain rfl := Option.some.inj (hc'.symm.trans hload')
    obtain rfl := id_of_decimal (hid.symm.trans (hsame.trans hid'))
    exact handedOut_once db reprStr hout hout'

end Agents

end EndpointSecurity.Deployment
