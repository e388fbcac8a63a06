import EndpointSecurity.Dashboard.Login

/-! The dashboard's form for a new endpoint, and the handler behind `/api/create-endpoint`.

The handler passes the name on and hands back what the backend answers, with status 200;
the page has the browser save the text under `config_content` as a file. So a page that
saves a file has behind it a 2xx answer of the backend (`handleSubmit_isOk`,
`creationPost_isOk`), and a text that arrives under `config_content` is saved as it is
(`creationPost_passes`, `handleSubmit_saves`). -/
namespace EndpointSecurity.Dashboard
open Library Server

/-! ### `/api/create-endpoint` -/

/-- What becomes of a value that JavaScript parses and stringifies again: Unicode text
stays as it is, and an object keeps its members. -/
structure Resent where
  value : Json → Json
  text : ∀ s : List Char, value (.str (points s)) = .str (points s)
  member : ∀ (x : Json) (name : String), (value x).member (py name) = (x.member (py name)).map value

instance : Inhabited Resent := ⟨id, fun _ => rfl, fun _ _ => (congrFun Option.map_id _).symm⟩

/-- The catch clause of the handler. -/
def creationError : Response := errorResponse (py "Internal Server Error") 500

/-- The request the handler sends. -/
def nameRequest (resend : Resent) (body : Json) : Request :=
  ⟨none, .ok (stringified [("name", (body.member (py "name")).map resend.value)])⟩

/-- What the handler gets from the backend: an answer, and the JSON in it. -/
def creationExchanged (resend : Resent) (fetchBackend : Request → Option Response) (body : Option Json) :
    Option (Response × Json) :=
  (readable body).bind fun b =>
    (fetchBackend (nameRequest resend b)).bind fun r => r.body.map (r, ·)

/-- `POST`; only a refusal is looked into. -/
def creationPost (resend : Resent) (fetchBackend : Request → Option Response) (body : Option Json) : Response :=
  match creationExchanged resend fetchBackend body with
  | none => creationError
  | some (response, data) =>
    if !isOk response then
      match readable (some data) with
      | none => creationError
      | some data => jsonify
          [("error", resend.value (propertyOr data "error" (.str (py "Failed to create endpoint"))))] response.status
    else ⟨200, some (resend.value data)⟩

/-! ### The page -/

/-- `String(x)`, with `others` for numbers, arrays and objects. -/
def jsText (others : Json → List CodePoint) : Json → List CodePoint
  | .str s => s
  | .null => py "null"
  | .bool b => py (if b then "true" else "false")
  | x => others x

/-- What `\s` matches. -/
def isJsSpace (p : CodePoint) : Bool :=
  (9 ≤ p.val && p.val ≤ 13) || (0x2000 ≤ p.val && p.val ≤ 0x200A) ||
    [0x20, 0xA0, 0x1680, 0x2028, 0x2029, 0x202F, 0x205F, 0x3000, 0xFEFF].contains p.val

/-- `s.replace(/\s+/g, '_')`, behind a character that is white space or is not. -/
def underscored (space : Bool) : List CodePoint → List CodePoint
  | [] => []
  | p :: rest =>
    if isJsSpace p then (if space then [] else [codePoint '_']) ++ underscored true rest
    else p :: underscored false rest

/-- The bytes of a `Blob` made of a string; it has no lone surrogates in it. -/
def blobBytes (s : List CodePoint) : List UInt8 :=
  utf8 (s.map fun p => (scalar p).getD (Char.ofNat 0xFFFD))

/-- A file the browser saves. -/
structure Download where
  fileName : List CodePoint
  bytes : List UInt8

/-- Where `handleSubmit` leaves the page. -/
inductive EndpointsPage where
  | error (message : List CodePoint)
  | success (file : Download)

/-- The catch clause of `handleSubmit`. -/
def submitError (message : List CodePoint) : EndpointsPage :=
  .error (if message.isEmpty then py "Failed to create endpoint. Please try again." else message)

/-- `handleSubmit`, with the message of what `fetch` or a value without properties throws. -/
def handleSubmit (others : Json → List CodePoint) (thrown endpointName : List CodePoint)
    (fetchApi : Json → Option Response) : EndpointsPage :=
  match fetched (fetchApi (.obj [(py "name", .str endpointName)])) with
  | none => submitError thrown
  | some (response, data) =>
    if !isOk response then
      submitError (jsText others (propertyOr data "error" (.str (py "Failed to create endpoint"))))
    else
      -- Use the endpoint name for the filename, replacing spaces with underscores
      .success ⟨underscored false endpointName ++ py "_Endpoint.conf",
        blobBytes (((data.member (py "config_content")).map (jsText others)).getD (py "undefined"))⟩

/-! ### What the browser saves -/

theorem blobBytes_points (s : List Char) : blobBytes (points s) = utf8 s := by
  have hchars : (points s).map (fun p => (scalar p).getD (Char.ofNat 0xFFFD)) = s := by
    rw [points, List.map_map]
    conv_rhs => rw [← List.map_id s]
    apply List.map_congr_left
    intro c _
    rw [Function.comp_apply, scalar_codePoint]
    rfl
  rw [blobBytes, hchars]

/-- No file name has white space in it. -/
theorem underscored_noSpace (space : Bool) (s : List CodePoint) : ∀ p ∈ underscored space s, isJsSpace p = false := by
  induction s generalizing space with
  | nil => exact List.forall_mem_nil _
  | cons p rest ih =>
    unfold underscored
    by_cases hp : isJsSpace p = true
    · rw [if_pos hp]
      intro q hq
      rcases List.mem_append.mp hq with hq | hq
      · cases space with
        | true => cases hq
        | false =>
          rw [List.mem_singleton.mp hq]
          decide
      · exact ih true q hq
    · rw [if_neg hp]
      exact List.forall_mem_cons.mpr ⟨Bool.eq_false_iff.mpr hp, ih false⟩

section Handler
variable {resend : Resent} {fetchBackend : Request → Option Response}

/-- The handler gives a 2xx answer only for one of the backend. -/
theorem creationPost_isOk {body : Option Json} (h : isOk (creationPost resend fetchBackend body) = true) :
    ∃ b r, readable body = some b ∧ fetchBackend (nameRequest resend b) = some r ∧ isOk r = true := by
  unfold creationPost at h
  cases hexchanged : creationExchanged resend fetchBackend body with
  | none =>
    rw [hexchanged] at h
    cases h
  | some x =>
    obtain ⟨r, data⟩ := x
    obtain ⟨b, hb, hfetched⟩ := Option.bind_eq_some_iff.mp hexchanged
    obtain ⟨r', hr', hbody⟩ := Option.bind_eq_some_iff.mp hfetched
    obtain ⟨answered, _, hsame⟩ := Option.map_eq_some_iff.mp hbody
    obtain ⟨rfl, rfl⟩ := Prod.mk.inj hsame
    refine ⟨b, r', hb, hr', ?_⟩
    by_contra hrefused
    have hno : (!isOk r') = true := by
      rw [Bool.eq_false_iff.mpr hrefused]
      rfl
    rw [hexchanged] at h
    dsimp only at h
    rw [if_pos hno] at h
    cases hdata : readable (some answered) with
    | none =>
      rw [hdata] at h
      cases h
    | some data =>
      rw [hdata] at h
      exact hrefused h

end Handler

section Submit
variable {others : Json → List CodePoint} {thrown name : List CodePoint} {fetchApi : Json → Option Response}

theorem handleSubmit_isOk {file : Download} (h : handleSubmit others thrown name fetchApi = .success file) :
    ∃ r, fetchApi (.obj [(py "name", .str name)]) = some r ∧ isOk r = true := by
  unfold handleSubmit at h
  cases hfetched : fetched (fetchApi (.obj [(py "name", .str name)])) with
  | none =>
    rw [hfetched] at h
    cases h
  | some x =>
    obtain ⟨r, data⟩ := x
    obtain ⟨r', hr', hbody⟩ := Option.bind_eq_some_iff.mp hfetched
    obtain ⟨_, _, hsame⟩ := Option.map_eq_some_iff.mp hbody
    obtain ⟨rfl, rfl⟩ := Prod.mk.inj hsame
    refine ⟨r', hr', ?_⟩
    by_contra hrefused
    have hno : (!isOk r') = true := by
      rw [Bool.eq_false_iff.mpr hrefused]
      rfl
    rw [hfetched] at h
    dsimp only at h
    rw [if_pos hno] at h
    cases h

/-- A text under `config_content` is saved as it is. -/
theorem handleSubmit_saves {r : Response} {data : Json} {content : List Char}
    (hfetch : fetchApi (.obj [(py "name", .str name)]) = some r) (hok : isOk r = true) (hbody : r.body = some data)
    (hcontent : data.member (py "config_content") = some (.str (points content))) :
    handleSubmit others thrown name fetchApi =
      .success ⟨underscored false name ++ py "_Endpoint.conf", utf8 content⟩ := by
  have hreadable : readable (some data) = some data := by
    cases data with
    | null => cases hcontent
    | _ => rfl
  have hfetched : fetched (fetchApi (.obj [(py "name", .str name)])) = some (r, data) := by
    rw [hfetch, fetched, Option.bind_some, hbody, hreadable]
    rfl
  unfold handleSubmit
  rw [hfetched]
  dsimp only
  rw [hok, hcontent, ← blobBytes_points content]
  rfl

end Submit

/-- A 2xx answer with a text under `config_content` comes out of the handler with it. -/
theorem creationPost_passes {resend : Resent} {fetchBackend : Request → Option Response} {body data : Json} {r : Response}
    {content : List Char} (hbody : readable (some body) = some body)
    (hfetch : fetchBackend (nameRequest resend body) = some r) (hok : isOk r = true) (hdata : r.body = some data)
    (hcontent : data.member (py "config_content") = some (.str (points content))) :
    ∃ data', creationPost resend fetchBackend (some body) = ⟨200, some data'⟩ ∧
      data'.member (py "config_content") = some (.str (points content)) := by
  have hexchanged : creationExchanged resend fetchBackend (some body) = some (r, data) := by
    rw [creationExchanged, hbody, Option.bind_some, hfetch, Option.bind_some, hdata]
    rfl
  refine ⟨resend.value data, ?_, ?_⟩
  · unfold creationPost
    rw [hexchanged]
    dsimp only
    rw [hok]
    rfl
  · rw [resend.member, hcontent, Option.map_some, resend.text]

end EndpointSecurity.Dashboard
