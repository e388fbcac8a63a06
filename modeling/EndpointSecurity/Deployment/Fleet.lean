import EndpointSecurity.Agent.Batches
import EndpointSecurity.Deployment.BatchText
import EndpointSecurity.Deployment.NameText
import EndpointSecurity.Library.Composition

/-! The whole pipeline: agents side by side in front of one server.

Every agent loads the file `create_endpoint` made for it, buffers the records its ring
buffer hands over, and posts them; `submit_logs` gets what reaches it. Over any
interleaving of any number of agents, the statements the server executes for batches of
text are, one for one and in order, `INSERT`s of the first record of each that arrives
(`fleet_inserts`). What the server makes of a body that is not UTF-8 is left open, but
whatever it is, it executes no more than one statement for a batch: of an agent's
records at most one in 25 gets that far, and none twice or out of order
(`agent_insertions`). -/
namespace EndpointSecurity.Deployment
open Library Agent Server Machine

/-! ### The system -/

/-- An agent as it is set up: what its file was made of. -/
structure Enrolled where
  authKey : AuthKey
  name : PlainName
  newId : EndpointId

/-- The configuration it loads. -/
def Enrolled.config (a : Enrolled) : Config :=
  ((loadConfig (configFile a.authKey a.name.chars a.newId.val)).map Loaded.config).getD .zero

/-- A record the ring buffer hands to an agent, and what the world does meanwhile:
libcurl and the clock, whether a transfer reaches the server, the standard input that
libcurl posts where there is no body, and how the server's connections fail. -/
structure Tick where
  event : Event
  safe : event.Safe
  curl : CurlRun
  clock : Nat → Timespec
  arrives : Bool
  stdin : List UInt8
  faults : Nat → Nat → Option (List CodePoint)

def Tick.arrival (t : Tick) : Arrival := ⟨t.event, t.curl⟩

/-- A header's value, as WSGI decodes it. -/
def headerValue (name header : List UInt8) : Option (List CodePoint) :=
  if name.isPrefixOf header then
    some ((header.drop name.length).map fun b => ⟨b.toNat, Nat.lt_trans b.toNat_lt (by decide)⟩)
  else none

/-- How the server reads bodies. `json.loads` knows more encodings than UTF-8 and lets
encoded surrogates through, so only what it makes of an object in UTF-8 is said here. -/
structure BodyReader where
  pyFloat : List Char → List CodePoint
  read : List UInt8 → Except Nat Json
  object : ∀ text, read (utf8 ('{' :: '"' :: text)) = getJson pyFloat (utf8 ('{' :: '"' :: text))

/-- The strict one. -/
def BodyReader.strict (pyFloat : List Char → List CodePoint) : BodyReader := ⟨pyFloat, getJson pyFloat, fun _ => rfl⟩

section System
variable (host : LogsHost) (reader : BodyReader)

/-- The request `submit_logs` gets out of a POST. -/
def postRequest (stdin : List UInt8) (post : Post) : Request where
  authorization := post.headers.findSome? (headerValue (lit "Authorization: "))
  json := reader.read (post.body.getD stdin)

/-- The request a call of `handle_event` makes of the server, if one reaches it. -/
def request (a : Enrolled) (t : Tick) (effects : Effects) : Option Request := do
  let batch ← effects.submitted
  let submission ← submitEvents a.config t.clock t.curl batch.events
  let post ← submission.post
  if t.arrives && post.url == url then some (postRequest reader t.stdin post) else none

def reporter (a : Enrolled) : Machine Tick Effects AgentState := (agent a.config).comap Tick.arrival

variable {κ : Type} (fleet : κ → Enrolled)

/-- The server, behind the calls of all agents. -/
def collector : Machine ((κ × Tick) × Effects) (Option Ingestion) (List EventRow) where
  step s i :=
    match request reader (fleet i.1.1) i.1.2 i.2 with
    | none => (none, s)
    | some request =>
      let ingestion := submitLogs host request i.1.2.faults s
      (some ingestion, ingestion.store)

def system [DecidableEq κ] :
    Machine (κ × Tick) (Effects × Option Ingestion) ((κ → AgentState) × List EventRow) :=
  (family fun k => reporter (fleet k)).into (collector host reader fleet)

end System

/-! ### What is reported -/

/-- A record that gets as far as a statement: whose it is, and when it is read. -/
structure Report where
  endpointId : Nat
  event : Event
  now : Timespec

instance (e : Event) : Decidable (IsText e) := inferInstanceAs (Decidable (_ ∧ _))

/-- Every string of the batch a call hands over is UTF-8. -/
def TextCall (effects : Effects) : Prop := ∀ b ∈ effects.submitted, ∀ e ∈ b.events, IsText e

instance (effects : Effects) : Decidable (TextCall effects) := inferInstanceAs (Decidable (∀ b ∈ _, _))

/-- What a call submits arrives: it is transferred, and the server's connection is there. -/
def Reaches (t : Tick) : Prop := submitReturn t.curl = 0 ∧ t.arrives = true ∧ t.faults 0 0 = none

instance (t : Tick) : Decidable (Reaches t) := inferInstanceAs (Decidable (_ ∧ _ ∧ _))

/-- The first record of a batch that arrives. -/
def reported (a : Enrolled) (t : Tick) (effects : Effects) : Option Report := do
  let batch ← effects.submitted
  let first ← batch.events.head?
  if Reaches t then some ⟨a.newId.val, first, t.clock 0⟩ else none

/-- The statement is one `INSERT` of one row: the endpoint's id, and the time, call and
pid of the record. -/
def Inserts (r : Report) (statement : List CodePoint) : Prop :=
  KeepsShape statement (.str (py (toString r.endpointId)))
    (.int (convertNsToUnix r.now r.event.timestamp).toNat) (.int r.event.call.toInt) (.int r.event.pid.toNat)

/-! ### One call -/

theorem Enrolled.config_spec (a : Enrolled) : a.config.api.string = url ∧
    a.config.id.string = utf8 (toString a.newId.val).toList ∧ a.config.bufferSize = 65 ∧
    a.config.batchSize = 25 := by
  obtain ⟨c, hload, hapi, _, _, hid, hbuffer, hbatch⟩ := loadConfig_plain a.authKey a.name a.newId
  have hconfig : a.config = c := by rw [Enrolled.config, hload]; rfl
  rw [hconfig]
  exact ⟨hapi, hid, hbuffer, hbatch⟩

theorem eventTree_fields (now : Timespec) (r : Reading) (filename : List Char) (argv : List (List Char)) :
    EventFields (eventTree now r filename argv).json (.int (convertNsToUnix now r.timestamp).toNat)
      (.int r.call.toInt) (.int r.pid.toNat) := by
  rw [eventTree_json]
  constructor <;> simp +decide [subscriptName, subscript, lastAssigned]

/-- Of a batch of text the server gets what `get_json` gives for it. -/
theorem BodyReader.read_batch (reader : BodyReader) (id : List Char) (clock : Nat → Timespec) {events : List Event}
    (hsafe : ∀ e ∈ events, e.Safe) (htext : ∀ e ∈ events, IsText e) : ∃ items,
      reader.read (render (batchObject (utf8 id) clock (events.map Event.reading))) =
        .ok (.obj [(py "id", .str (points id)), (py "events", .arr items)]) ∧ ShowsBatch clock events items := by
  obtain ⟨items, hjson, hshow⟩ := (getJson_batch reader.pyFloat clock id hsafe).1 htext
  obtain ⟨ts, htree, -⟩ := batchObject_tree clock id hsafe htext
  have hopens : ∃ text, Tree.text (.obj [("id".toList, .str id), ("events".toList, .arr ts)]) = '{' :: '"' :: text := by
    rw [Tree.text, Tree.membersText, Json.quoted]
    exact ⟨_, rfl⟩
  obtain ⟨text, hopens⟩ := hopens
  refine ⟨items, ?_, hshow⟩
  rw [render_tree htree, hopens] at hjson ⊢
  rw [reader.object, hjson]

section Call
variable {host : LogsHost} {reader : BodyReader} {a : Enrolled} {t : Tick} {b : Batch}

/-- What the server gets from a batch that is handed over. -/
theorem request_batch (reader : BodyReader) (hb : HandedOver a.config Event.Safe b) (hcurl : submitReturn t.curl = 0)
    (harrives : t.arrives = true) (stored : Option Int) : ∃ authorization,
      request reader a t ⟨stored, some b⟩ = some ⟨authorization, reader.read (render (batchObject
        (utf8 (toString a.newId.val).toList) t.clock (b.events.map Event.reading)))⟩ := by
  obtain ⟨hapi, hid, hbuffer, _⟩ := a.config_spec
  obtain ⟨res, hres⟩ : ∃ res, t.curl = .performs res := by
    cases hc : t.curl with
    | initFails =>
      rw [hc] at hcurl
      cases hcurl
    | performs res => exact ⟨res, rfl⟩
  have hshort : a.config.id.string.length < 64 := by
    have hlength := length_decimal a.newId
    rw [hid]
    exact Nat.lt_of_le_of_lt hlength (by decide)
  have hmost := hb.most
  have hfits := batchSize_fits t.clock hshort hb.all (by omega)
  have hbody : printUnformatted (batchObject a.config.id.string t.clock (b.events.map Event.reading)) =
      some (render (batchObject a.config.id.string t.clock (b.events.map Event.reading))) := by
    rw [printUnformatted_eq, length_render_batch, if_pos hfits]
  have hsubmit := submitEvents_safe a.config t.clock hb.all res
  rw [hbody, hid, hapi] at hsubmit
  refine ⟨[lit "Content-Type: application/json", authHeader a.config].findSome?
    (headerValue (lit "Authorization: ")), ?_⟩
  rw [request, hres]
  simp only [Option.bind_eq_bind, Option.bind_some, hsubmit, harrives, beq_self_eq_true, Bool.and_self,
    if_true, postRequest, Option.getD_some]

/-- Without a transfer there is no request, and none that gets lost arrives. -/
theorem request_lost {effects : Effects} (h : submitReturn t.curl ≠ 0 ∨ t.arrives = false) :
    request reader a t effects = none := by
  unfold request
  cases effects.submitted with
  | none => rfl
  | some b =>
    rcases h with hcurl | harrives
    · cases hc : t.curl with
      | initFails => rfl
      | performs res => exact absurd (by rw [hc]; rfl) hcurl
    · simp only [harrives, Bool.false_and, Bool.false_eq_true, if_false, Option.bind_eq_bind, Option.bind_some]
      cases submitEvents a.config t.clock t.curl b.events with
      | none => rfl
      | some submission =>
        rw [Option.bind_some]
        exact Option.bind_fun_none submission.post

/-- What is executed for a payload of decoded records. -/
theorem submitLogs_decoded (hconsole : Utf8Console host) (id : List Char) {now : Timespec} {r : Reading}
    {filename : List Char} {argv : List (List Char)} {rest : List Json}
    (authorization : Option (List CodePoint)) (faults : Nat → Nat → Option (List CodePoint))
    (rows : List EventRow) :
    (submitLogs host ⟨authorization, .ok (.obj [(py "id", .str (points id)),
        (py "events", .arr ((eventTree now r filename argv).json :: rest))])⟩ faults rows).executed =
      if faults 0 0 = none then [statementText host.reprStr (.str (points id))
        (.int (convertNsToUnix now r.timestamp).toNat) (.int r.call.toInt) (.int r.pid.toNat)] else [] := by
  have hnames : py "events" ≠ py "id" := by decide
  obtain ⟨hid, hevents⟩ := member_pair hnames (.str (points id))
    (.arr ((eventTree now r filename argv).json :: rest))
  have hprint : printOk host [.str (py "Endpoint: "), .str (points id)] = true :=
    hconsole.printOk (List.forall_mem_cons.mpr ⟨scalars_points _,
      List.forall_mem_singleton.mpr (scalars_points id)⟩)
  have hevent := hconsole.printEvent now r filename argv
  have hstatement : insertStatement host (.str (points id)) (eventTree now r filename argv).json = .ok _ :=
    insertStatement_eq_ok.mpr ⟨_, _, _, eventTree_fields now r filename argv, rfl⟩
  simp only [submitLogs, subscript, Json.member] at hid hevents ⊢
  simp only [hid, hevents, Option.bind_some, elements, hprint, Bool.not_true, Bool.false_eq_true, if_false,
    submitEvent, hevent, hstatement]
  cases faults 0 0 <;> simp [Ingestion.untouched]

/-- A call whose batch does not arrive makes no request, or one that is turned away
before anything is executed; of one of text that arrives the first record is inserted. -/
theorem collect_reported (reader : BodyReader) (hconsole : Utf8Console host) {effects : Effects}
    (hb : ∀ b ∈ effects.submitted, HandedOver a.config Event.Safe b) (htext : TextCall effects)
    (rows : List EventRow) :
    List.Forall₂ Inserts (reported a t effects).toList
      (match request reader a t effects with
        | none => []
        | some r => (submitLogs host r t.faults rows).executed) := by
  obtain ⟨stored, submitted⟩ := effects
  cases submitted with
  | none => exact .nil
  | some b =>
    have hb := hb b rfl
    have htext := htext b rfl
    obtain ⟨_, _, _, hbatch⟩ := a.config_spec
    have hleast := hb.least
    obtain ⟨first, rest, hevents⟩ := List.exists_cons_of_length_pos (l := b.events) (by omega)
    have hreported : reported a t ⟨stored, some b⟩ =
        if Reaches t then some ⟨a.newId.val, first, t.clock 0⟩ else none := by
      simp only [reported, hevents, Option.bind_eq_bind, Option.bind_some, List.head?_cons]
    rw [hreported]
    by_cases hcurl : submitReturn t.curl = 0
    · by_cases harrives : t.arrives = true
      · obtain ⟨authorization, hrequest⟩ := request_batch reader hb hcurl harrives stored
        obtain ⟨items, hjson, hcount, hshow⟩ :=
          reader.read_batch (toString a.newId.val).toList t.clock hb.all htext
        rw [hrequest]
        have hfirst : 0 < b.events.length := by rw [hevents]; exact Nat.zero_lt_succ _
        obtain ⟨filename, argv, hitem⟩ := hshow 0 hfirst
        obtain ⟨item, items, rfl⟩ := List.exists_cons_of_length_pos (hcount ▸ hfirst)
        obtain rfl := Option.some.inj hitem
        simp only [hevents, List.getElem_cons_zero] at hjson
        rw [hevents]
        rw [hjson]
        dsimp only
        rw [submitLogs_decoded hconsole]
        have hid : points (toString a.newId.val).toList = py (toString a.newId.val) := rfl
        by_cases hconnected : t.faults 0 0 = none
        · rw [if_pos hconnected, if_pos ⟨hcurl, harrives, hconnected⟩]
          refine .cons (keepsShape_iff.mpr ⟨⟨a.newId.val, rfl⟩, trivial, trivial, trivial⟩) .nil
        · rw [if_neg hconnected, if_neg fun h => hconnected h.2.2]
          exact .nil
      · rw [request_lost (.inr (Bool.eq_false_iff.mpr harrives)), if_neg fun h => harrives h.2.1]
        exact .nil
    · rw [request_lost (.inl hcurl), if_neg fun h => hcurl h.1]
      exact .nil

end Call

/-! ### Every run -/

section Runs
variable {κ : Type} [DecidableEq κ] (fleet : κ → Enrolled)

/-- A call in a run of the system. -/
abbrev FleetStep (κ : Type) : Type :=
  Step (κ × Tick) (Effects × Option Ingestion) ((κ → AgentState) × List EventRow)

/-- All agents when they start to poll, and the server's table. -/
def started (memory : κ → Int → Event) (rows : List EventRow) : (κ → AgentState) × List EventRow :=
  (fun k => .initial (memory k), rows)

def reports (ts : List (FleetStep κ)) : List Report :=
  ts.flatMap fun t => (reported (fleet t.input.1) t.input.2 t.output.1).toList

/-- The statements the server executes. -/
def executed (ts : List (FleetStep κ)) : List (List CodePoint) :=
  ts.flatMap fun t => (t.output.2.map Ingestion.executed).getD []

/-- The calls that submit text, or nothing. -/
def textCalls (ts : List (FleetStep κ)) : List (FleetStep κ) := ts.filter fun t => decide (TextCall t.output.1)

variable {host : LogsHost} (reader : BodyReader)

def FleetHolds (s : (κ → AgentState) × List EventRow) : Prop :=
  ∀ k, BufferHolds (fleet k).config Event.Safe (s.1 k)

theorem Enrolled.handleEvent_holds (a : Enrolled) {s : AgentState} (hs : BufferHolds a.config Event.Safe s) (t : Tick) :
    BufferHolds a.config Event.Safe (handleEvent a.config s t.arrival).2 ∧
      ∀ b ∈ (handleEvent a.config s t.arrival).1.submitted, HandedOver a.config Event.Safe b := by
  obtain ⟨_, _, hbuffer, _⟩ := a.config_spec
  exact Agent.handleEvent_holds (by rw [hbuffer]; decide) hs t.arrival t.safe

omit [DecidableEq κ] in
theorem started_holds (memory : κ → Int → Event) (rows : List EventRow) :
    FleetHolds fleet (started memory rows) := by
  intro k
  obtain ⟨_, _, hbuffer, _⟩ := (fleet k).config_spec
  exact initial_holds (by rw [hbuffer]; decide) (memory k)

theorem system_holds {s : (κ → AgentState) × List EventRow} (hs : FleetHolds fleet s) (i : κ × Tick) :
    FleetHolds fleet ((system host reader fleet).step s i).2 := by
  intro k
  show BufferHolds _ _ (((family fun k => reporter (fleet k)).step s.1 i).2 k)
  by_cases hk : i.1 = k
  · obtain rfl := hk
    rw [family_step_self]
    exact ((fleet i.1).handleEvent_holds (hs i.1) i.2).1
  · rw [family_step_other _ hk]
    exact hs k

/-- The server's table is what it was before the call. -/
theorem system_rows (s : (κ → AgentState) × List EventRow) (i : κ × Tick) :
    ((system host reader fleet).step s i).2.2 = s.2 := by
  show ((collector host reader fleet).step s.2 _).2 = s.2
  unfold collector
  dsimp only
  split
  · rfl
  · exact submitLogs_store _ _ _

omit [DecidableEq κ] in
theorem executed_collector (s : List EventRow) (i : (κ × Tick) × Effects) :
    (((collector host reader fleet).step s i).1.map Ingestion.executed).getD [] =
      match request reader (fleet i.1.1) i.1.2 i.2 with
      | none => []
      | some r => (submitLogs host r i.1.2.faults s).executed := by
  cases hr : request reader (fleet i.1.1) i.1.2 i.2 with
  | none => simp only [collector, hr, Option.map_none, Option.getD_none]
  | some r => simp only [collector, hr, Option.map_some, Option.getD_some]

/-- **In any interleaving of any agents' calls, what the server executes for batches of
text is, one for one and in order, the `INSERT` of the first record of each that
arrives**, and its table stays as it was. -/
theorem fleet_inserts (hconsole : Utf8Console host) (memory : κ → Int → Event) (rows : List EventRow)
    (ticks : List (κ × Tick)) :
    let ts := textCalls ((system host reader fleet).steps (started memory rows) ticks)
    List.Forall₂ Inserts (reports fleet ts) (executed ts) ∧
      ((system host reader fleet).run (started memory rows) ticks).2 = rows := by
  have hholds : ∀ s i, FleetHolds fleet s → FleetHolds fleet ((system host reader fleet).step s i).2 :=
    fun _ i hs => system_holds fleet reader hs i
  have hrows : ∀ s i, s.2 = rows → ((system host reader fleet).step s i).2.2 = rows :=
    fun s i hs => (system_rows fleet reader s i).trans hs
  refine ⟨Machine.steps_forall₂ hholds (fun s i hs htext => ?_) (started_holds fleet memory rows) ticks, ?_⟩
  · have hcollect := collect_reported reader hconsole (t := i.2)
      ((fleet i.1).handleEvent_holds (hs i.1) i.2).2 (of_decide_eq_true htext) s.2
    exact executed_collector fleet reader s.2 (i, _) ▸ hcollect
  · have hstart : (started memory rows).2 = rows := rfl
    exact Machine.run_invariant hrows hstart ticks

/-- A record that gets as far as a statement, and the statement: the first record of the
batch a call submits, where the server executes one for it. -/
def insertion (t : FleetStep κ) : Option (Event × List CodePoint) := do
  let batch ← t.output.1.submitted
  let first ← batch.events.head?
  let ingestion ← t.output.2
  let statement ← ingestion.executed.head?
  return (first, statement)

/-- Those of one agent. -/
def insertionsOf (k : κ) (ts : List (FleetStep κ)) : List (Event × List CodePoint) :=
  ts.filterMap fun t => if t.input.1 = k then insertion t else none

/-- The statements the server executes for one agent. -/
def executedFor (k : κ) (ts : List (FleetStep κ)) : List (List CodePoint) :=
  ts.flatMap fun t => if t.input.1 = k then (t.output.2.map Ingestion.executed).getD [] else []

/-- What an agent delivers in a call of the system. -/
def deliveredOf (k : κ) (t : FleetStep κ) : List Event :=
  ((stepOf k t.first).map fun t => delivered (t.mapInput Tick.arrival)).getD []

/-- It is what it delivers alone. -/
theorem deliveredOf_system (host : LogsHost) (memory : κ → Int → Event) (rows : List EventRow)
    (ticks : List (κ × Tick)) (k : κ) :
    ((system host reader fleet).steps (started memory rows) ticks).flatMap (deliveredOf k) =
      ((reporter (fleet k)).steps (.initial (memory k)) (inputsOf k ticks)).flatMap
        fun t => delivered (t.mapInput Tick.arrival) := by
  have hagents := (into_steps (family fun k => reporter (fleet k)) (collector host reader fleet)
    (fun k => AgentState.initial (memory k)) rows ticks).1
  have hmine := family_steps (fun k => reporter (fleet k)) k (fun k => AgentState.initial (memory k)) ticks
  have hfirst : ((system host reader fleet).steps (started memory rows) ticks).map Step.first =
      (family fun k => reporter (fleet k)).steps (fun k => .initial (memory k)) ticks := hagents
  rw [← hmine, ← hfirst, List.filterMap_map]
  induction (system host reader fleet).steps (started memory rows) ticks with
  | nil => rfl
  | cons t rest ih =>
    rw [List.flatMap_cons, ih, List.filterMap_cons, deliveredOf]
    cases h : stepOf k t.first <;> simp [h]

end Runs

/-! ### One agent -/

/-- The first items of long enough lists, among all of their items. -/
theorem heads_sublist {γ α : Type} {f : γ → Option α} {g : γ → List α} {n : Nat} {ts : List γ}
    (h : ∀ t ∈ ts, ∀ x ∈ f t, n ≤ (g t).length ∧ (g t).head? = some x) :
    (ts.filterMap f).Sublist (ts.flatMap g) ∧ n * (ts.filterMap f).length ≤ (ts.flatMap g).length := by
  induction ts with
  | nil => exact ⟨.slnil, Nat.le_refl _⟩
  | cons t ts ih =>
    obtain ⟨ht, hts⟩ := List.forall_mem_cons.mp h
    obtain ⟨hsub, hcount⟩ := ih hts
    rw [List.flatMap_cons, List.length_append]
    cases hf : f t with
    | none =>
      rw [List.filterMap_cons_none hf]
      exact ⟨hsub.trans (List.sublist_append_right _ _), Nat.le_trans hcount (Nat.le_add_left _ _)⟩
    | some x =>
      obtain ⟨hlong, hhead⟩ := ht x hf
      rw [List.filterMap_cons_some hf, List.length_cons, Nat.mul_succ]
      refine ⟨?_, by omega⟩
      obtain ⟨rest, hrest⟩ := List.head?_eq_some_iff.mp hhead
      rw [hrest]
      exact (hsub.trans (List.sublist_append_right _ _)).cons_cons x

theorem kept_sublist (c : Config) (ts : List Call) :
    (ts.flatMap (kept c)).Sublist (ts.map (·.input.event)) := by
  rw [flatMap_kept]
  exact (List.filter_sublist ..).map _

/-- Below `INT_MAX` slots, whatever is delivered was received, in that order. -/
theorem delivered_sublist {c : Config} (hc : c.bufferSize < INT_MAX) (memory : Int → Event)
    (arrivals : List Arrival) :
    (((agent c).steps (.initial memory) arrivals).flatMap delivered).Sublist (arrivals.map Arrival.event) := by
  have hfits : ∀ s, ¬ Overflows c s := fun s h => by have := h.1; omega
  have hstep : ∀ s a, Counting s → Counting ((agent c).step s a).2 := fun s a hs =>
    (step_conserves hs (Int.lt_trans hc (by decide)) (hfits s) a).1
  have hconserves := Machine.steps_forall hstep
    (fun s a hs => (step_conserves hs (Int.lt_trans hc (by decide)) (hfits s) a).2)
    (initial_counting memory) arrivals
  have hledger := (ledger_iff c memory arrivals).mpr hconserves arrivals (List.prefix_refl _)
  have hkept := kept_sublist c ((agent c).steps (.initial memory) arrivals)
  rw [← hledger] at hkept
  have hinputs : ((agent c).steps (.initial memory) arrivals).map (·.input.event) =
      arrivals.map Arrival.event := by
    rw [← Machine.steps_input (agent c) (.initial memory) arrivals, List.map_map, Machine.steps_input]
    rfl
  rw [hinputs] at hkept
  exact (List.sublist_append_left _ _).trans hkept

/-- What an agent alone delivers of the records it receives. -/
theorem reporter_delivered (a : Enrolled) (memory : Int → Event) (inputs : List Tick) :
    (((reporter a).steps (.initial memory) inputs).flatMap
      fun t => delivered (t.mapInput Tick.arrival)).Sublist (inputs.map Tick.event) := by
  obtain ⟨_, _, hbuffer, _⟩ := a.config_spec
  have hbuffer : a.config.bufferSize < INT_MAX := by rw [hbuffer]; decide
  have hsteps := comap_steps (agent a.config) Tick.arrival (.initial memory) inputs
  have hmap : ((reporter a).steps (.initial memory) inputs).flatMap (fun t => delivered (t.mapInput Tick.arrival)) =
      ((agent a.config).steps (.initial memory) (inputs.map Tick.arrival)).flatMap delivered := by
    rw [← hsteps, List.flatMap_map]
    rfl
  have hevents : (inputs.map Tick.arrival).map Arrival.event = inputs.map Tick.event := by
    rw [List.map_map]
    rfl
  rw [hmap, ← hevents]
  exact delivered_sublist hbuffer memory (inputs.map Tick.arrival)

section Insertions
variable {κ : Type} [DecidableEq κ] (fleet : κ → Enrolled) {host : LogsHost} (reader : BodyReader)
  {s : (κ → AgentState) × List EventRow}

/-- A request is made for a batch, and delivers it. -/
theorem request_submitted {a : Enrolled} {t : Tick} {effects : Effects} {r : Request}
    (h : request reader a t effects = some r) : ∃ b, effects.submitted = some b ∧ submitReturn t.curl = 0 := by
  have hcurl : submitReturn t.curl = 0 := by
    by_contra hne
    rw [request_lost (.inl hne)] at h
    cases h
  unfold request at h
  cases hb : effects.submitted with
  | none => rw [hb] at h; cases h
  | some b => exact ⟨b, rfl, hcurl⟩

/-- Where something is executed in a call, it is one statement, for the first of 25
records the call delivers. -/
theorem insertion_spec (hs : FleetHolds fleet s) (i : κ × Tick) :
    (((system host reader fleet).stepAt s i).output.2.map Ingestion.executed).getD [] =
        ((insertion ((system host reader fleet).stepAt s i)).map Prod.snd).toList ∧
      ∀ x ∈ insertion ((system host reader fleet).stepAt s i),
        25 ≤ (deliveredOf i.1 ((system host reader fleet).stepAt s i)).length ∧
          (deliveredOf i.1 ((system host reader fleet).stepAt s i)).head? = some x.1 := by
  obtain ⟨_, _, _, hbatch⟩ := (fleet i.1).config_spec
  obtain ⟨-, hover⟩ := (fleet i.1).handleEvent_holds (hs i.1) i.2
  generalize ht : (system host reader fleet).stepAt s i = t
  have heffects : t.output.1 = (handleEvent (fleet i.1).config (s.1 i.1) i.2.arrival).1 := by rw [← ht]; rfl
  have hserver : t.output.2 = ((collector host reader fleet).step s.2 (i, t.output.1)).1 := by rw [heffects, ← ht]; rfl
  have hinput : t.input = i := by rw [← ht]; rfl
  rw [← heffects] at hover
  cases hr : request reader (fleet i.1) i.2 t.output.1 with
  | none =>
    have hnone : t.output.2 = none := by rw [hserver, collector]; simp only [hr]
    have hinsertion : insertion t = none := by
      rw [insertion, hnone]
      cases t.output.1.submitted with
      | none => rfl
      | some b => exact Option.bind_fun_none _
    rw [hnone, hinsertion]
    exact ⟨rfl, fun x hx => absurd hx (Option.not_mem_none x)⟩
  | some r =>
    obtain ⟨b, hb, hcurl⟩ := request_submitted reader hr
    have hsome : t.output.2 = some (submitLogs host r i.2.faults s.2) := by rw [hserver, collector]; simp only [hr]
    have hleast := (hover b hb).least
    obtain ⟨first, rest, hevents⟩ := List.exists_cons_of_length_pos (l := b.events) (by omega)
    have hinsertion : insertion t =
        (submitLogs host r i.2.faults s.2).executed.head?.map fun statement => (first, statement) := by
      rw [insertion, hb, hsome]
      simp only [Option.bind_eq_bind, Option.bind_some, hevents, List.head?_cons]
      cases (submitLogs host r i.2.faults s.2).executed.head? <;> rfl
    have hdelivered : deliveredOf i.1 t = b.events := by
      rw [deliveredOf, stepOf, if_pos (show t.first.input.1 = i.1 by rw [← hinput]; rfl)]
      show delivered _ = _
      unfold delivered
      simp only [show (Step.mapInput Tick.arrival ⟨t.first.before i.1, t.first.input.2, t.first.output,
        t.first.after i.1⟩).output.submitted = some b from hb]
      exact if_pos (show submitReturn t.input.2.curl = 0 by rw [hinput]; exact hcurl)
    rw [hsome, hinsertion, hdelivered]
    refine ⟨?_, fun x hx => ?_⟩
    · have hone : (submitLogs host r i.2.faults s.2).executed.length ≤ 1 := submitLogs_executed_one r i.2.faults s.2
      show (submitLogs host r i.2.faults s.2).executed = _
      cases hexecuted : (submitLogs host r i.2.faults s.2).executed with
      | nil => rfl
      | cons statement more =>
        rw [hexecuted, List.length_cons] at hone
        obtain rfl : more = [] := List.length_eq_zero_iff.mp (by omega)
        rfl
    · obtain ⟨statement, -, rfl⟩ := Option.map_eq_some_iff.mp hx
      exact ⟨by omega, by rw [hevents]; rfl⟩

/-- **The statements the server executes for an agent are for records the agent
receives, in their order, none twice, and at most one in 25**, whatever the other
agents do. -/
theorem agent_insertions (host : LogsHost) (memory : κ → Int → Event) (rows : List EventRow)
    (ticks : List (κ × Tick)) (k : κ) :
    let ts := (system host reader fleet).steps (started memory rows) ticks
    (insertionsOf k ts).map Prod.snd = executedFor k ts ∧
      ((insertionsOf k ts).map Prod.fst).Sublist ((inputsOf k ticks).map Tick.event) ∧
      25 * (insertionsOf k ts).length ≤ (inputsOf k ticks).length := by
  intro ts
  have hholds : ∀ s i, FleetHolds fleet s → FleetHolds fleet ((system host reader fleet).step s i).2 :=
    fun _ i hs => system_holds fleet reader hs i
  have hspec := Machine.steps_forall hholds (P := fun t =>
    (t.output.2.map Ingestion.executed).getD [] = ((insertion t).map Prod.snd).toList ∧
      ∀ x ∈ insertion t, 25 ≤ (deliveredOf t.input.1 t).length ∧ (deliveredOf t.input.1 t).head? = some x.1)
    (fun s i hs => insertion_spec fleet reader hs i) (started_holds fleet memory rows) ticks
  have hexecuted : (insertionsOf k ts).map Prod.snd = executedFor k ts := by
    unfold insertionsOf executedFor
    rw [List.map_filterMap, List.filterMap_eq_flatMap_toList]
    refine List.flatMap_congr fun t ht => ?_
    split
    · exact (hspec t ht).1.symm
    · rfl
  have hheads : ∀ t ∈ ts, ∀ e ∈ (if t.input.1 = k then insertion t else none).map Prod.fst,
      25 ≤ (deliveredOf k t).length ∧ (deliveredOf k t).head? = some e := by
    intro t ht e he
    obtain ⟨x, hx, rfl⟩ := Option.map_eq_some_iff.mp he
    split_ifs at hx with hk
    exact hk ▸ (hspec t ht).2 x hx
  obtain ⟨hsub, hcount⟩ := heads_sublist hheads
  have hall := reporter_delivered (fleet k) (memory k) (inputsOf k ticks)
  rw [← deliveredOf_system fleet reader host memory rows ticks k] at hall
  have hlength := hall.length_le
  rw [List.length_map] at hlength
  rw [← List.map_filterMap] at hsub hcount
  rw [List.length_map] at hcount
  exact ⟨hexecuted, hsub.trans hall, Nat.le_trans hcount hlength⟩

end Insertions

end EndpointSecurity.Deployment
