import EndpointSecurity.Library.JsonText
import EndpointSecurity.Library.Transaction

/-! What every view of `api.py` shares.

A view gets decoded JSON and gives a response. Most of them check the fields they
need, open a connection, and answer any exception of the database work with its
text; whatever a view raises outside its `try` becomes the page of a server error. -/
namespace EndpointSecurity.Server
open Library

/-- A string literal of the server's source. -/
def py (s : String) : List CodePoint := points s.toList

theorem py_append (s t : String) : py (s ++ t) = py s ++ py t := by
  simp only [py, String.toList_append, points_append]

/-! ### Python values -/

/-- `bool(x)`, what `not x` negates. -/
def truthy : Json → Bool
  | .null => false
  | .bool b => b
  | .int n => n != 0
  | .float repr => repr != py "0.0" && repr != py "-0.0"
  | .str s => !s.isEmpty
  | .arr items => !items.isEmpty
  | .obj members => !members.isEmpty

/-- `x == "..."`. -/
def isText (s : List CodePoint) : Json → Bool
  | .str t => t == s
  | _ => false

theorem isText_iff {s : List CodePoint} {x : Json} : isText s x = true ↔ x = .str s := by
  cases x <;> simp [isText]

/-- `data.get(name)`; only objects have a `get`. -/
def dataGet (data : Json) (name : String) : Option Json :=
  match data with
  | .obj _ => some ((data.member (py name)).getD .null)
  | _ => none

/-- The two members of an object under different names. -/
theorem member_pair {first second : String} (h : py second ≠ py first) (x y : Json) :
    (Json.obj [(py first, x), (py second, y)]).member (py first) = some x ∧
      (Json.obj [(py first, x), (py second, y)]).member (py second) = some y := by
  simp [Json.member, lastAssigned, h, h.symm]

theorem dataGet_pair {first second : String} (h : py second ≠ py first) (x y : Json) :
    dataGet (.obj [(py first, x), (py second, y)]) first = some x ∧
      dataGet (.obj [(py first, x), (py second, y)]) second = some y := by
  obtain ⟨hx, hy⟩ := member_pair h x y
  simp only [dataGet, hx, hy, Option.getD_some, and_self]

/-! ### Requests and responses -/

/-- A request as a view sees it: the `Authorization` header, and what `get_json`
gives, or the status it aborts with. -/
structure Request where
  authorization : Option (List CodePoint)
  json : Except Nat Json

/-- `request.get_json()` of a body sent as JSON, where a body that is not UTF-8 is a 400,
as one that is not JSON is. -/
def getJson (pyFloat : List Char → List CodePoint) (body : List UInt8) : Except Nat Json :=
  match (decodeUtf8 body).bind (Json.loads pyFloat) with
  | some data => .ok data
  | none => .error 400

/-- A response: a status, and a JSON body unless it is one of Flask's own pages. -/
structure Response where
  status : Nat
  body : Option Json

/-- `jsonify({...}), status`. -/
def jsonify (members : List (String × Json)) (status : Nat) : Response :=
  ⟨status, some (.obj (members.map fun m => (py m.1, m.2)))⟩

/-- `jsonify({"error": ...}), status`. -/
def errorResponse (message : List CodePoint) (status : Nat) : Response :=
  jsonify [("error", .str message)] status

/-- One of Flask's error pages. -/
def page (status : Nat) : Response := ⟨status, none⟩

/-- The status of a view that returns only a body. -/
abbrev defaultStatus : Nat := 200

/-- A view that raised, or returned nothing. -/
def serverError : Response := page 500

/-- A 2xx response: what `fetch` calls `ok`. -/
def isOk (r : Response) : Bool := 200 ≤ r.status && r.status ≤ 299

/-- What a request leaves behind: its response, the committed store, and the number
of times it committed. -/
structure Served (σ : Type) where
  response : Response
  store : σ
  commits : Nat

section Views
variable {σ : Type}

/-- A view that does not come to use the database. -/
def Served.untouched (response : Response) (s : σ) : Served σ := ⟨response, s, 0⟩

/-- The response to work that returned, or to the text of its exception. -/
def answer (exceptStatus : Nat) : Except (List CodePoint) Response → Response
  | .ok response => response
  | .error e => errorResponse e exceptStatus

/-- `try` the work, `except Exception as e` answer its text, `finally` close the
connection. -/
def tryWork (exceptStatus : Nat) (work : Transaction σ (List CodePoint) Response)
    (faults : Nat → Option (List CodePoint)) (s : σ) : Served σ :=
  let outcome := work.run faults s
  ⟨answer exceptStatus outcome.result, outcome.store, outcome.commits⟩

/-- A view behind `data = request.get_json()`. -/
def withData (request : Request) (s : σ) (view : Json → Served σ) : Served σ :=
  match request.json with
  | .error status => .untouched (page status) s
  | .ok data => view data

/-- A view that needs two fields and a connection. -/
def twoFieldView (first second required : String)
    (work : Json → Json → Transaction σ (List CodePoint) Response) (request : Request)
    (faults : Nat → Option (List CodePoint)) (s : σ) : Served σ :=
  withData request s fun data =>
    match dataGet data first, dataGet data second with
    | some x, some y =>
      if !truthy x || !truthy y then .untouched (errorResponse (py required) 400) s
      else tryWork defaultStatus (work x y) faults s
    | _, _ => .untouched serverError s

/-! ### Rules -/

/-- A response that reports a failure: one of Flask's pages, or an `error`. -/
def Response.IsError (r : Response) : Prop := r.body = none ∨ ∃ e status, r = errorResponse e status

theorem tryWork_ensures {exceptStatus : Nat} {work : Transaction σ (List CodePoint) Response}
    {faults : Nat → Option (List CodePoint)} {s : σ} {P : Served σ → Prop}
    (h : work.Ensures faults (.start s) fun r t => P ⟨answer exceptStatus r, t.committed, t.commits⟩) :
    P (tryWork exceptStatus work faults s) := h

theorem withData_rule {request : Request} {s : σ} {view : Json → Served σ} {P : Served σ → Prop}
    (hearly : ∀ r : Response, r.IsError → P (.untouched r s))
    (hview : ∀ data, request.json = .ok data → P (view data)) : P (withData request s view) := by
  unfold withData
  cases h : request.json with
  | error status => exact hearly _ (.inl rfl)
  | ok data => exact hview data h

/-- A view of two fields either fails early or does its work on both. -/
theorem twoFieldView_rule {first second required : String}
    {work : Json → Json → Transaction σ (List CodePoint) Response} {request : Request}
    {faults : Nat → Option (List CodePoint)} {s : σ} {P : Served σ → Prop}
    (hearly : ∀ r : Response, r.IsError → P (.untouched r s))
    (hwork : ∀ data x y, request.json = .ok data → dataGet data first = some x →
      dataGet data second = some y → P (tryWork defaultStatus (work x y) faults s)) :
    P (twoFieldView first second required work request faults s) := by
  refine withData_rule hearly fun data hdata => ?_
  split
  · rename_i x y hx hy
    split
    · exact hearly _ (.inr ⟨_, _, rfl⟩)
    · exact hwork data x y hdata hx hy
  · exact hearly _ (.inl rfl)

section Answers
variable {first second required : String}
  {work : Json → Json → Transaction σ (List CodePoint) Response} {request : Request} {data x y : Json}
  (hdata : request.json = .ok data) (hx : dataGet data first = some x) (hy : dataGet data second = some y)
  (faults : Nat → Option (List CodePoint)) (s : σ)
include hdata hx hy

/-- A view of two fields that are there. -/
theorem twoFieldView_eq : twoFieldView first second required work request faults s =
    if !truthy x || !truthy y then .untouched (errorResponse (py required) 400) s
    else tryWork defaultStatus (work x y) faults s := by
  simp only [twoFieldView, withData, hdata, hx, hy]

/-- **A 2xx answer is a success exactly if the work returned**, or the values were not
even tried: an exception is answered with its text, and with status 200. -/
theorem twoFieldView_ok_iff {success : Response → Prop} (herror : ∀ e status, ¬ success (errorResponse e status))
    (hwork : ∀ r, ((work x y).run faults s).result = .ok r → success r ∨ isOk r = false) :
    (isOk (twoFieldView first second required work request faults s).response = true →
      success (twoFieldView first second required work request faults s).response) ↔
    (truthy x = true → truthy y = true → (work x y).Returns faults (.start s)) := by
  rw [twoFieldView_eq hdata hx hy]
  by_cases hmissing : (!truthy x || !truthy y) = true
  · rw [if_pos hmissing]
    refine iff_of_true (fun hok => by cases hok) fun htx hty => ?_
    simp [htx, hty] at hmissing
  rw [if_neg hmissing]
  have hgiven : truthy x = true ∧ truthy y = true := by simpa using hmissing
  simp only [hgiven.1, hgiven.2, true_implies]
  have hresponse : (tryWork defaultStatus (work x y) faults s).response =
      answer defaultStatus ((work x y).run faults s).result := rfl
  have hreturns : (work x y).Returns faults (.start s) ↔
      ∃ r, ((work x y).run faults s).result = .ok r := Iff.rfl
  rw [hresponse, hreturns]
  cases hresult : ((work x y).run faults s).result with
  | error e => exact iff_of_false (fun h => herror e _ (h rfl)) (by simp)
  | ok r =>
    refine iff_of_true (fun hok => ?_) ⟨r, rfl⟩
    rcases hwork r hresult with hs | hrefused
    · exact hs
    · have hok : isOk r = true := hok
      rw [hrefused] at hok
      cases hok

/-- The answer has a JSON object in it if the work's has. -/
theorem twoFieldView_body
    (hwork : ∀ r, ((work x y).run faults s).result = .ok r → ∃ members, r.body = some (.obj members)) :
    ∃ members, (twoFieldView first second required work request faults s).response.body =
      some (.obj members) := by
  rw [twoFieldView_eq hdata hx hy]
  split
  · exact ⟨_, rfl⟩
  · have hresponse : (tryWork defaultStatus (work x y) faults s).response =
        answer defaultStatus ((work x y).run faults s).result := rfl
    rw [hresponse]
    cases hresult : ((work x y).run faults s).result with
    | error e => exact ⟨_, rfl⟩
    | ok r => exact hwork r hresult

end Answers

end Views

end EndpointSecurity.Server
