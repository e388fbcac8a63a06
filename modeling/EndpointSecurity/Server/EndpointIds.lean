import EndpointSecurity.Server.ConcurrentEndpoints
import EndpointSecurity.Server.Attribution

/-! The ids of endpoints that are created at once.

Every id is chosen from a snapshot and inserted later. The ids that are committed run
from 1 without a gap, so an insertion only gets through with the next one, and the
primary key lets one request at a time hold that: `IdsInv` says so, one lemma for each
kind of turn keeps it, and what a run ends with is read off it. -/
namespace EndpointSecurity.Server
open Library Transaction

variable {db : Mysql} {reprStr : List CodePoint → List CodePoint} {n : Nat}
  {requests : Fin n → NewEndpoint}

/-! ### Contiguous ids -/

/-- The ids are 1, 2, ... in the order of the rows. -/
def Contiguous (t : Endpoints) : Prop :=
  t.rows.map EndpointRow.endpointId = (List.range t.rows.length).map fun k : Nat => (k : Int) + 1

theorem Contiguous.mem_iff {t : Endpoints} (h : Contiguous t) (i : Int) :
    (∃ r ∈ t.rows, r.endpointId = i) ↔ 1 ≤ i ∧ i ≤ t.rows.length := by
  rw [← List.mem_map, h, List.mem_map]
  simp only [List.mem_range]
  refine ⟨fun ⟨k, hk, hi⟩ => by omega, fun ⟨hlow, hhigh⟩ => ⟨(i - 1).toNat, by omega, by omega⟩⟩

/-- The next id is one more than there are rows. -/
theorem Contiguous.nextId {t : Endpoints} (h : Contiguous t) : t.nextId = t.rows.length + 1 := by
  unfold Endpoints.nextId
  cases hmax : (t.rows.map EndpointRow.endpointId).max? with
  | none =>
    have hempty : t.rows = [] := List.map_eq_nil_iff.mp (List.max?_eq_none_iff.mp hmax)
    simp [hempty]
  | some m =>
    obtain ⟨hmem, hle⟩ := (List.max?_eq_some_iff).mp hmax
    obtain ⟨hlow, hhigh⟩ := (h.mem_iff m).mp (List.mem_map.mp hmem)
    have hlast : (t.rows.length : Int) ∈ t.rows.map EndpointRow.endpointId :=
      List.mem_map.mpr ((h.mem_iff _).mpr ⟨by omega, Int.le_refl _⟩)
    have hge := hle _ hlast
    rw [Option.getD_some]
    omega

theorem insert_eq_ok {t t' : Endpoints} {r : EndpointRow} :
    t.insert r = .ok t' ↔ r.endpointId ≤ SQL_INT_MAX ∧ (∀ x ∈ t.rows, x.endpointId ≠ r.endpointId) ∧
      t'.rows = t.rows ++ [r] := by
  unfold Endpoints.insert
  by_cases hrange : SQL_INT_MAX < r.endpointId
  · rw [if_pos hrange]
    simp [Int.not_le.mpr hrange]
  rw [if_neg hrange]
  have hle := Int.not_lt.mp hrange
  by_cases hnew : ∀ x ∈ t.rows, x.endpointId ≠ r.endpointId
  · rw [dif_pos hnew]
    refine ⟨fun h => ?_, fun ⟨_, _, hrows⟩ => ?_⟩
    · obtain rfl := Except.ok.inj h
      exact ⟨hle, hnew, rfl⟩
    · obtain ⟨rows, unique⟩ := t'
      obtain rfl : rows = t.rows ++ [r] := hrows
      rfl
  · rw [dif_neg hnew]
    simp [hnew]

/-- The next row keeps the ids contiguous. -/
theorem Contiguous.insert {t t' : Endpoints} (h : Contiguous t) {r : EndpointRow}
    (hr : r.endpointId = t.nextId) (ht : t.insert r = .ok t') : Contiguous t' := by
  obtain ⟨-, -, hrows⟩ := insert_eq_ok.mp ht
  unfold Contiguous at h ⊢
  rw [hrows, List.map_append, List.length_append, List.length_singleton, List.range_succ,
    List.map_append, h, List.map_singleton, hr, List.map_singleton, Contiguous.nextId h]

/-- An id that was next once and is new still is next. -/
theorem Contiguous.eq_nextId {t : Endpoints} (h : Contiguous t) {i : Int} (hlow : 1 ≤ i)
    (hhigh : i ≤ t.nextId) (hnew : ∀ x ∈ t.rows, x.endpointId ≠ i) : i = t.nextId := by
  have hnot : ¬ ∃ r ∈ t.rows, r.endpointId = i := fun ⟨r, hr, hi⟩ => hnew r hr hi
  rw [h.mem_iff] at hnot
  rw [h.nextId] at hhigh ⊢
  omega

/-! ### The invariant -/

section Invariant
variable (db : Mysql) (requests : Fin n → NewEndpoint)

/-- The row is the one a request inserts for its name. -/
def RowOf (i : Fin n) (name : Json) (row : EndpointRow) : Prop :=
  ∃ stored, StoredAs db name stored ∧ row = .fresh row.endpointId (requests i).authKey.chars stored

/-- What the phase of a request says of it and of the table. -/
def PhaseOk (t : Endpoints) (i : Fin n) : Phase → Prop
  | .started => True
  | .connected name => requestedName (requests i).request = .ok name
  | .selected name newId | .fetched name newId =>
    requestedName (requests i).request = .ok name ∧ 1 ≤ newId ∧ newId ≤ t.nextId
  | .inserted name row =>
    requestedName (requests i).request = .ok name ∧ row.endpointId = t.nextId ∧ RowOf db requests i name row
  | .created name newId =>
    requestedName (requests i).request = .ok name ∧
      ∃ row ∈ t.rows, row.endpointId = newId ∧ RowOf db requests i name row
  | .refused response => response.IsError

def Phase.isCreated : Phase → Bool
  | .created .. => true
  | _ => false

/-- The id of a row that is not committed yet. -/
def Phase.heldId : Phase → Option Int
  | .inserted _ row => some row.endpointId
  | _ => none

def Phase.createdId : Phase → Option Int
  | .created _ newId => some newId
  | _ => none

/-- No two requests have one id. -/
def Distinct (id : Phase → Option Int) (phase : Fin n → Phase) : Prop :=
  ∀ i j newId, id (phase i) = some newId → id (phase j) = some newId → i = j

structure IdsInv (w : World n) : Prop where
  contiguous : Contiguous w.table
  phases : ∀ i, PhaseOk db requests w.table i (w.phase i)
  held : Distinct Phase.heldId w.phase
  created : Distinct Phase.createdId w.phase
  committed : ∀ i, i ∈ w.commits ↔ (w.phase i).isCreated = true
  once : w.commits.Nodup
  rows : w.commits.length = w.table.rows.length

/-- What a turn of a request makes of the world. -/
inductive Turned (w : World n) (i : Fin n) : World n → Prop where
  | same : Turned w i w
  | moved (p : Phase) (hbefore : (w.phase i).isCreated = false) (hafter : p.isCreated = false)
      (hp : PhaseOk db requests w.table i p)
      (hfree : ∀ name row, p = .inserted name row → ¬ w.Waits i row.endpointId) : Turned w i (w.move i p)
  | committed (name : Json) (row : EndpointRow) (t : Endpoints) (hphase : w.phase i = .inserted name row)
      (ht : w.table.insert row = .ok t) :
      Turned w i (w.commit i (.created name row.endpointId) t)

end Invariant

theorem requestedName_isError {request : Request} {response : Response}
    (h : requestedName request = .error response) : response.IsError := by
  unfold requestedName at h
  split at h
  · exact .inl (Except.error.inj h ▸ rfl)
  · split at h
    · exact .inl (Except.error.inj h ▸ rfl)
    · split at h
      · exact .inr ⟨_, _, (Except.error.inj h).symm⟩
      · cases h

theorem Turned.refused {w : World n} {i : Fin n} (hbefore : (w.phase i).isCreated = false)
    {response : Response} (h : response.IsError) : Turned db requests w i (w.move i (.refused response)) :=
  .moved _ hbefore rfl h fun _ _ hp => by cases hp

theorem proceed_turned {w : World n} (hw : IdsInv db requests w) (i : Fin n) :
    Turned db requests w i (proceed db requests w i) := by
  have hphase := hw.phases i
  unfold proceed
  cases hi : w.phase i with
  | started =>
    have hopen : (w.phase i).isCreated = false := by rw [hi]; rfl
    cases hname : requestedName (requests i).request with
    | error response => exact .refused hopen (requestedName_isError hname)
    | ok name => exact .moved _ hopen rfl hname fun _ _ hp => by cases hp
  | connected name =>
    rw [hi] at hphase
    have hopen : (w.phase i).isCreated = false := by rw [hi]; rfl
    have hlow : 1 ≤ w.table.nextId := by rw [hw.contiguous.nextId]; omega
    exact .moved _ hopen rfl ⟨hphase, hlow, Int.le_refl _⟩ fun _ _ hp => by cases hp
  | selected name newId =>
    rw [hi] at hphase
    have hopen : (w.phase i).isCreated = false := by rw [hi]; rfl
    exact .moved _ hopen rfl hphase fun _ _ hp => by cases hp
  | fetched name newId =>
    rw [hi] at hphase
    obtain ⟨hname, hlow, hhigh⟩ := hphase
    have hopen : (w.phase i).isCreated = false := by rw [hi]; rfl
    dsimp only
    by_cases hwaits : w.Waits i newId
    · rw [if_pos hwaits]
      exact .same
    rw [if_neg hwaits]
    rcases insertRow_cases db (requests i).authKey name newId w.table with
      ⟨e, hrow, -⟩ | ⟨stored, t', hstored, hrow, ht', -⟩
    · rw [hrow]
      exact .refused hopen (errorResponse_isError e 500)
    · rw [hrow]
      obtain ⟨-, hnew, -⟩ := insert_eq_ok.mp ht'
      -- nothing was committed in between, or its id is taken
      have hnext : newId = w.table.nextId := hw.contiguous.eq_nextId hlow hhigh hnew
      refine .moved _ hopen rfl ⟨hname, hnext, stored, hstored, rfl⟩ fun name' row' hp => ?_
      obtain ⟨-, rfl⟩ := Phase.inserted.inj hp
      exact hwaits
  | inserted name row =>
    have hopen : (w.phase i).isCreated = false := by rw [hi]; rfl
    dsimp only
    cases ht : w.table.insert row with
    | error e => exact .refused hopen (errorResponse_isError _ 500)
    | ok t => exact .committed name row t hi ht
  | created name newId => exact .same
  | refused response => exact .same

theorem raise_turned (w : World n) (i : Fin n) (e : List CodePoint) :
    Turned db requests w i (raise requests w i e) := by
  unfold raise
  cases hi : w.phase i with
  | started =>
    have hopen : (w.phase i).isCreated = false := by rw [hi]; rfl
    cases hname : requestedName (requests i).request with
    | error response => exact .refused hopen (requestedName_isError hname)
    | ok name => exact .refused hopen (errorResponse_isError e 500)
  | connected name | selected name newId | fetched name newId | inserted name row =>
    exact .refused (by rw [hi]; rfl) (errorResponse_isError e 500)
  | created name newId | refused response => exact .same

theorem takeTurn_turned {w : World n} (hw : IdsInv db requests w) (turn : Turn n) :
    Turned db requests w turn.who (takeTurn db requests w turn) := by
  unfold takeTurn
  cases turn.fault with
  | none => exact proceed_turned hw turn.who
  | some e => exact raise_turned w turn.who e

/-! ### It is kept -/

theorem initial_inv (n : Nat) (requests : Fin n → NewEndpoint) : IdsInv db requests (.initial n) where
  contiguous := rfl
  phases _ := trivial
  held _ _ _ h := by cases h
  created _ _ _ h := by cases h
  committed i := by simp [World.initial, Phase.isCreated]
  once := .nil
  rows := rfl

/-- A request may take an id that no other has. -/
theorem Distinct.update {id : Phase → Option Int} {phase : Fin n → Phase} (h : Distinct id phase) {i : Fin n}
    {p : Phase} (hnew : ∀ newId, id p = some newId → ∀ j, j ≠ i → id (phase j) ≠ some newId) :
    Distinct id (Function.update phase i p) := by
  intro j k newId hj hk
  by_cases hji : j = i <;> by_cases hki : k = i
  · rw [hji, hki]
  · rw [hji, Function.update_self] at hj
    rw [Function.update_of_ne hki] at hk
    exact absurd hk (hnew newId hj k hki)
  · rw [hki, Function.update_self] at hk
    rw [Function.update_of_ne hji] at hj
    exact absurd hj (hnew newId hk j hji)
  · rw [Function.update_of_ne hji] at hj
    rw [Function.update_of_ne hki] at hk
    exact h j k newId hj hk

theorem heldId_eq {p : Phase} {newId : Int} (h : p.heldId = some newId) :
    ∃ name row, p = .inserted name row ∧ row.endpointId = newId := by
  cases p with
  | inserted name row => exact ⟨name, row, rfl, Option.some.inj h⟩
  | _ => cases h

theorem createdId_eq {p : Phase} {newId : Int} (h : p.createdId = some newId) : ∃ name, p = .created name newId := by
  cases p with
  | created name _ => exact ⟨name, by rw [Option.some.inj h]⟩
  | _ => cases h

theorem IdsInv.moved {w : World n} (hw : IdsInv db requests w) {i : Fin n} {p : Phase}
    (hbefore : (w.phase i).isCreated = false) (hafter : p.isCreated = false)
    (hp : PhaseOk db requests w.table i p)
    (hfree : ∀ name row, p = .inserted name row → ¬ w.Waits i row.endpointId) :
    IdsInv db requests (w.move i p) where
  contiguous := hw.contiguous
  phases j := by
    by_cases hj : j = i
    · subst hj
      rw [World.move_self]
      exact hp
    · rw [World.move_other w hj]
      exact hw.phases j
  held := by
    -- whoever holds the row of this id would be waited for
    refine hw.held.update fun newId hmine j hj htheirs => ?_
    obtain ⟨name, row, rfl, rfl⟩ := heldId_eq hmine
    obtain ⟨name', row', hphase, hid⟩ := heldId_eq htheirs
    refine hfree name row rfl ⟨j, hj, ?_⟩
    rw [hphase]
    exact decide_eq_true hid
  created := by
    refine hw.created.update fun newId hmine => ?_
    obtain ⟨name, rfl⟩ := createdId_eq hmine
    cases hafter
  committed j := by
    by_cases hj : j = i
    · subst hj
      rw [World.move_self, hafter]
      exact (hw.committed j).trans (by rw [hbefore])
    · rw [World.move_other w hj]
      exact hw.committed j
  once := hw.once
  rows := hw.rows

/-- What holds of a request that holds no row still does when another's row is
committed. -/
theorem PhaseOk.grow {t t' : Endpoints} (hgap : Contiguous t) {row : EndpointRow}
    (hnext : row.endpointId = t.nextId) (ht : t.insert row = .ok t') {i : Fin n} {p : Phase}
    (hp : PhaseOk db requests t i p) (hnone : ∀ name row', p ≠ .inserted name row') :
    PhaseOk db requests t' i p := by
  have hgap' := hgap.insert hnext ht
  obtain ⟨-, -, hrows⟩ := insert_eq_ok.mp ht
  have hgrow : t.nextId ≤ t'.nextId := by
    rw [hgap.nextId, hgap'.nextId, hrows, List.length_append]
    omega
  cases p with
  | started => trivial
  | connected name => exact hp
  | selected name newId | fetched name newId => exact ⟨hp.1, hp.2.1, Int.le_trans hp.2.2 hgrow⟩
  | inserted name row' => exact absurd rfl (hnone name row')
  | created name newId =>
    obtain ⟨hname, r, hr, hid, hrow⟩ := hp
    exact ⟨hname, r, hrows ▸ List.mem_append_left _ hr, hid, hrow⟩
  | refused response => exact hp

theorem IdsInv.commit {w : World n} (hw : IdsInv db requests w) {i : Fin n} {name : Json}
    {row : EndpointRow} {t : Endpoints} (hphase : w.phase i = .inserted name row)
    (ht : w.table.insert row = .ok t) :
    IdsInv db requests (w.commit i (.created name row.endpointId) t) := by
  have hi : PhaseOk db requests w.table i (.inserted name row) := hphase ▸ hw.phases i
  obtain ⟨hname, hnext, hrow⟩ := hi
  obtain ⟨-, hnew, hrows⟩ := insert_eq_ok.mp ht
  -- who holds a row holds the next id
  have hnone : ∀ j, j ≠ i → ∀ name' row', w.phase j ≠ .inserted name' row' := by
    intro j hj name' row' h
    have htheirs : PhaseOk db requests w.table j (.inserted name' row') := h ▸ hw.phases j
    refine hj (hw.held j i w.table.nextId ?_ ?_)
    · rw [h, ← htheirs.2.1]
      rfl
    · rw [hphase, ← hnext]
      rfl
  have hopen : i ∉ w.commits := by
    rw [hw.committed, hphase]
    exact Bool.false_ne_true
  refine ⟨hw.contiguous.insert hnext ht, fun j => ?_, hw.held.update fun newId hmine => ?_,
    hw.created.update fun newId hmine j _ htheirs => ?_, fun j => ?_, ?_, ?_⟩
  · by_cases hj : j = i
    · subst hj
      rw [World.commit_self]
      exact ⟨hname, row, hrows ▸ List.mem_append_right _ (List.mem_singleton_self _), rfl, hrow⟩
    · rw [World.commit_other w hj]
      exact (hw.phases j).grow hw.contiguous hnext ht (hnone j hj)
  · cases hmine
  -- a created id stands in the table already, the new one does not
  · obtain rfl := Option.some.inj hmine
    obtain ⟨name', h⟩ := createdId_eq htheirs
    have hj : PhaseOk db requests w.table j (.created name' row.endpointId) := h ▸ hw.phases j
    obtain ⟨-, r, hr, hid, -⟩ := hj
    exact hnew r hr hid
  · show j ∈ w.commits ++ [i] ↔ _
    rw [List.mem_append, List.mem_singleton]
    by_cases hj : j = i
    · subst hj
      exact iff_of_true (.inr rfl) (by rw [World.commit_self]; rfl)
    · rw [World.commit_other w hj, ← hw.committed]
      simp [hj]
  · refine List.nodup_append.mpr ⟨hw.once, List.pairwise_singleton _ _, fun a ha b hb hab => hopen ?_⟩
    obtain rfl := List.mem_singleton.mp hb
    exact hab ▸ ha
  · show (w.commits ++ [i]).length = t.rows.length
    rw [hrows, List.length_append, List.length_append, hw.rows]
    rfl

theorem takeTurn_inv {w : World n} (hw : IdsInv db requests w) (turn : Turn n) :
    IdsInv db requests (takeTurn db requests w turn) := by
  generalize hw' : takeTurn db requests w turn = w'
  have h : Turned db requests w turn.who w' := hw' ▸ takeTurn_turned hw turn
  cases h with
  | same => exact hw
  | moved p hbefore hafter hp hfree => exact hw.moved hbefore hafter hp hfree
  | committed name row t hphase ht => exact hw.commit hphase ht

theorem run_inv {w : World n} (hw : IdsInv db requests w) (turns : List (Turn n)) :
    IdsInv db requests ((creations db requests).run w turns) := by
  have hstep : ∀ (v : World n) turn, IdsInv db requests v →
      IdsInv db requests ((creations db requests).step v turn).2 := fun _ turn hv => takeTurn_inv hv turn
  exact Machine.run_invariant hstep hw turns

/-! ### What a run leaves -/

section Runs
variable (db : Mysql) (reprStr : List CodePoint → List CodePoint) (requests : Fin n → NewEndpoint)

/-- Ids, answers and rows agree at the end of a run, where `named` is what the row of an
answer holds of the answer's name. -/
structure Agree (named : Json → Option (List Char) → Prop) (turns : List (Turn n)) (w : World n) : Prop where
  ids : w.table.rows.map EndpointRow.endpointId = (List.range w.commits.length).map fun k : Nat => (k : Int) + 1
  counted : (getEndpointsCount answering w.table).response = counted w.commits.length
  once : w.commits.Nodup
  committed : ∀ i, i ∈ w.commits ↔ ∃ name newId,
    w.response reprStr requests i = some (created reprStr (requests i).authKey name newId)
  /-- An answer that is no error is a 201 with the request's own row behind it. -/
  answered : ∀ i response, w.response reprStr requests i = some response → response.IsError ∨
    ∃ name newId, response = created reprStr (requests i).authKey name newId ∧
      requestedName (requests i).request = .ok name ∧
      ∃ row ∈ w.table.rows, row.endpointId = newId ∧ row.authkey = (requests i).authKey.chars ∧ named name row.name
  distinct : ∀ i j name name' newId,
    w.response reprStr requests i = some (created reprStr (requests i).authKey name newId) →
    w.response reprStr requests j = some (created reprStr (requests j).authKey name' newId) → i = j
  /-- No turn of a request that gets an error changes the table. -/
  unchanged : ∀ t ∈ (creations db requests).steps (.initial n) turns, ∀ response,
    w.response reprStr requests t.input.who = some response → response.IsError → t.after.table = t.before.table

/-- The row holds the text the answer has. -/
def SameName (name : Json) (stored : Option (List Char)) : Prop :=
  ∃ s, stored = some s ∧ points s = pyFormat reprStr name

/-- The row holds what the column makes of the name: of a text its first 64 characters,
behind which it has nothing but spaces. -/
def ColumnName (name : Json) (stored : Option (List Char)) : Prop :=
  StoredAs db name stored ∧
    ∀ s, name = .str (points s) → stored = some (s.take 64) ∧ (s.drop 64).all (· == ' ') = true

end Runs

theorem storedAs_text {s : List Char} {stored : Option (List Char)} (h : StoredAs db (.str (points s)) stored) :
    stored = some (s.take 64) ∧ (s.drop 64).all (· == ' ') = true := by
  obtain ⟨value, hvalue, hstored⟩ := h
  obtain rfl := Except.ok.inj ((operand_str s).symm.trans hvalue)
  rw [columnText, varchar] at hstored
  by_cases hfits : s.length ≤ 64
  · rw [if_pos hfits] at hstored
    obtain rfl := Except.ok.inj hstored
    rw [List.take_of_length_le hfits, List.drop_of_length_le hfits]
    exact ⟨rfl, rfl⟩
  rw [if_neg hfits] at hstored
  by_cases hspaces : (s.drop 64).all (· == ' ') = true
  · rw [if_pos hspaces] at hstored
    obtain rfl := Except.ok.inj hstored
    exact ⟨rfl, hspaces⟩
  · rw [if_neg hspaces] at hstored
    cases hstored

theorem created_not_isError {authKey : AuthKey} {name : Json} {newId : Int} :
    ¬ (created reprStr authKey name newId).IsError := by
  intro h
  rcases h with h | ⟨e, status, h⟩
  · cases h
  · have hbody := congrArg Response.body h
    simp [created, errorResponse, jsonify] at hbody

theorem created_newId {key key' : AuthKey} {name name' : Json} {newId newId' : Int}
    (h : created reprStr key name newId = created reprStr key' name' newId') : newId = newId' := by
  have hbody := congrArg Response.body h
  simp only [created, jsonify, List.map_cons, List.map_nil, Option.some.injEq, Json.obj.injEq,
    List.cons.injEq, Prod.mk.injEq, Json.int.injEq, true_and] at hbody
  exact hbody.1

theorem getEndpointsCount_answering (t : Endpoints) :
    (getEndpointsCount answering t).response = counted t.rows.length := rfl

section Reading
variable {w : World n} {i : Fin n}

theorem response_created {name : Json} {newId : Int} (h : w.phase i = .created name newId) :
    w.response reprStr requests i = some (created reprStr (requests i).authKey name newId) := by
  unfold World.response
  rw [h]

/-- A request that was answered was refused or created its endpoint. -/
theorem answered_cases (hw : IdsInv db requests w) {response : Response}
    (h : w.response reprStr requests i = some response) :
    response.IsError ∨ ∃ name newId, w.phase i = .created name newId ∧
      response = created reprStr (requests i).authKey name newId := by
  have hphase := hw.phases i
  unfold World.response at h
  cases hi : w.phase i with
  | created name newId =>
    rw [hi] at h
    exact .inr ⟨name, newId, rfl, (Option.some.inj h).symm⟩
  | refused r =>
    rw [hi] at h hphase
    obtain rfl := Option.some.inj h
    exact .inl hphase
  | started | connected name | selected name newId | fetched name newId | inserted name row =>
    rw [hi] at h
    cases h

theorem created_of_response (hw : IdsInv db requests w) {name : Json} {newId : Int}
    (h : w.response reprStr requests i = some (created reprStr (requests i).authKey name newId)) :
    ∃ name', w.phase i = .created name' newId := by
  rcases answered_cases hw h with herror | ⟨name', newId', hphase, hresponse⟩
  · exact absurd herror created_not_isError
  · obtain rfl := created_newId hresponse
    exact ⟨name', hphase⟩

theorem Turned.created_stays {w' : World n} {j : Fin n} (h : Turned db requests w j w') {name : Json}
    {newId : Int} (hi : w.phase i = .created name newId) : w'.phase i = .created name newId := by
  cases h with
  | same => exact hi
  | moved p hbefore hafter hp hfree =>
    have hne : i ≠ j := fun h => by rw [← h, hi] at hbefore; cases hbefore
    rwa [World.move_other w hne]
  | committed name' row t hphase ht =>
    have hne : i ≠ j := fun h => by rw [← h, hi] at hphase; cases hphase
    rwa [World.commit_other w hne]

theorem run_created_stays (hw : IdsInv db requests w) {name : Json} {newId : Int}
    (hi : w.phase i = .created name newId) (turns : List (Turn n)) :
    ((creations db requests).run w turns).phase i = .created name newId := by
  have hstep : ∀ (v : World n) turn, IdsInv db requests v ∧ v.phase i = .created name newId →
      IdsInv db requests ((creations db requests).step v turn).2 ∧
        ((creations db requests).step v turn).2.phase i = .created name newId :=
    fun v turn ⟨hv, hphase⟩ => ⟨takeTurn_inv hv turn, (takeTurn_turned hv turn).created_stays hphase⟩
  exact (Machine.run_invariant hstep ⟨hw, hi⟩ turns).2

end Reading

variable (db reprStr requests) in
/-- A turn that changes the table is a commit of a request that stays created. -/
theorem table_unchanged (turns : List (Turn n)) :
    ∀ t ∈ (creations db requests).steps (.initial n) turns, ∀ response,
      ((creations db requests).run (.initial n) turns).response reprStr requests t.input.who = some response →
      response.IsError → t.after.table = t.before.table := by
  intro t ht response hresponse herror
  obtain ⟨done, turn, rest, rfl, rfl⟩ := Machine.mem_steps _ ht
  have hw : IdsInv db requests ((creations db requests).run (.initial n) done) := run_inv (initial_inv n requests) done
  rw [Machine.run_append, Machine.run_cons] at hresponse
  generalize (creations db requests).run (.initial n) done = w at hw hresponse ⊢
  change ((creations db requests).run (takeTurn db requests w turn) rest).response reprStr requests turn.who = _
    at hresponse
  show (takeTurn db requests w turn).table = w.table
  have hturned := takeTurn_turned hw turn
  have hafter := takeTurn_inv hw turn
  generalize takeTurn db requests w turn = w' at hturned hafter hresponse
  cases hturned with
  | same => rfl
  | moved p hbefore hopen hp hfree => rfl
  | committed name row t hphase hinsert =>
    have hcreated := run_created_stays hafter (World.commit_self w _ _ t) rest
    rw [response_created hcreated] at hresponse
    obtain rfl := Option.some.inj hresponse
    exact absurd herror created_not_isError

/-- **Ids stay unique and contiguous, however the requests are interleaved.** -/
theorem creations_agree (db : Mysql) (reprStr : List CodePoint → List CodePoint) (requests : Fin n → NewEndpoint)
    (turns : List (Turn n)) :
    Agree db reprStr requests (ColumnName db) turns ((creations db requests).run (.initial n) turns) := by
  have hw : IdsInv db requests ((creations db requests).run (.initial n) turns) := run_inv (initial_inv n requests) turns
  have hunchanged := table_unchanged db reprStr requests turns
  generalize (creations db requests).run (.initial n) turns = w at hw hunchanged ⊢
  refine ⟨?_, ?_, hw.once, fun i => ?_, fun i response h => ?_, fun i j name name' newId hi hj => ?_,
    hunchanged⟩
  · rw [hw.rows]
    exact hw.contiguous
  · rw [getEndpointsCount_answering, hw.rows]
  · refine (hw.committed i).trans ⟨fun h => ?_, fun ⟨name, newId, h⟩ => ?_⟩
    · cases hi : w.phase i with
      | created name newId => exact ⟨name, newId, response_created hi⟩
      | _ => rw [hi] at h; cases h
    · obtain ⟨name', hi⟩ := created_of_response hw h
      rw [hi]
      rfl
  · rcases answered_cases hw h with herror | ⟨name, newId, hi, rfl⟩
    · exact .inl herror
    have hphase : PhaseOk db requests w.table i (.created name newId) := hi ▸ hw.phases i
    obtain ⟨hname, row, hmem, hid, stored, hstored, hrow⟩ := hphase
    refine .inr ⟨name, newId, rfl, hname, row, hmem, hid, by rw [hrow]; rfl, ?_⟩
    rw [hrow]
    exact ⟨hstored, fun s hs => storedAs_text (hs ▸ hstored)⟩
  · obtain ⟨_, hi'⟩ := created_of_response hw hi
    obtain ⟨_, hj'⟩ := created_of_response hw hj
    exact hw.created i j newId (by rw [hi']; rfl) (by rw [hj']; rfl)

/-! ### A name that is cut -/

/-- A name as long as its column, and a space. -/
def spacedName : List Char := List.replicate 64 'a' ++ [' ']

def spacedRequest : Fin 1 → NewEndpoint := fun _ =>
  ⟨issuedKey, none, .ok (.obj [(py "name", .str (points spacedName))])⟩

theorem spacedRequest_run :
    ((creations asciiMysql spacedRequest).run (.initial 1) (turnsOf 0 (List.replicate 5 none))).phase 0 =
        .created (.str (points spacedName)) 1 ∧
      ((creations asciiMysql spacedRequest).run (.initial 1) (turnsOf 0 (List.replicate 5 none))).table.rows =
        [.fresh 1 issuedKey.chars (some (List.replicate 64 'a'))] := ⟨rfl, rfl⟩

/-- Its row is without the space that its answer has. -/
theorem spacedName_differs :
    ¬ Agree asciiMysql sampleHost.reprStr spacedRequest (SameName sampleHost.reprStr)
      (turnsOf 0 (List.replicate 5 none))
      ((creations asciiMysql spacedRequest).run (.initial 1) (turnsOf 0 (List.replicate 5 none))) := by
  intro h
  obtain ⟨hphase, hrows⟩ := spacedRequest_run
  rcases h.answered 0 _ (response_created hphase) with herror | ⟨name, newId, -, hname, row, hrow, -, -, s, hs, htext⟩
  · exact created_not_isError herror
  have hgiven : requestedName (spacedRequest 0).request = .ok (.str (points spacedName)) := rfl
  obtain rfl := Except.ok.inj (hgiven.symm.trans hname)
  rw [hrows] at hrow
  obtain rfl := List.mem_singleton.mp hrow
  obtain rfl := Option.some.inj hs
  exact absurd (congrArg List.length htext) (by decide)

end EndpointSecurity.Server
