import EndpointSecurity.Agent.Buffer
import EndpointSecurity.Agent.PrintedText
import EndpointSecurity.Agent.RecordSafety
import EndpointSecurity.Library.JsonRoundTrip
import EndpointSecurity.Server.Flask

/-! From captured records to the JSON `submit_logs` gets.

cJSON copies the bytes of a string, and the server decodes the body as UTF-8 before
it looks at any event. So a batch arrives exactly when every string in it is UTF-8
and the body can be printed at all (`batch_arrives_iff`), and it is one string that
decides for the whole batch. The kernel cuts arguments between bytes, not
characters, so text that was UTF-8 need not be after it (`cutArgument_refused`). -/
namespace EndpointSecurity.Deployment
open Library Agent Server

/-- A record as `handle_execve` submits it, safe to read. -/
structure Capture where
  event : Event
  safe : event.Safe
  source : ∃ filename argv k slot, (handleExecve filename argv k (some slot)).submitted = some event

/-! ### What the server gets -/

/-- The decoded event `x` shows the record `e`, its time converted at `now`. -/
structure EventArrives (now : Timespec) (e : Event) (x : Json) : Prop where
  timestamp : x.member (py "timestamp") = some (.int (convertNsToUnix now e.timestamp).toNat)
  type : x.member (py "type") = some (.int e.call.toInt)
  pid : x.member (py "pid") = some (.int e.pid.toNat)
  ppid : x.member (py "ppid") = some (.int e.ppid.toNat)
  filename : ∃ s, x.member (py "filename") = some (.str s) ∧ encodeUtf8 s = some e.filename.string
  argc : x.member (py "argc") = some (.int e.argc.toNat)
  argv : ∃ items, x.member (py "argv") = some (.arr items) ∧ items.length = e.argc.toNat ∧
    ∀ j : Fin MAX_ARGS, j.val < e.argc.toNat →
      ∃ s, items[j.val]? = some (.str s) ∧ encodeUtf8 s = some (e.argv j).string

/-- The posted body is accepted, and the `k`-th event in it shows the `k`-th record. -/
def BatchArrives (pyFloat : List Char → List CodePoint) (c : Config) (clock : Nat → Timespec)
    (res : Nat) (batch : List Capture) : Prop :=
  ∃ post body data items,
    submitEvents c clock (.performs res) (batch.map Capture.event) = some ⟨0, some post⟩ ∧
    post.body = some body ∧ getJson pyFloat body = .ok data ∧
    data.member (py "events") = some (.arr items) ∧ items.length = batch.length ∧
    ∀ k (hk : k < batch.length), ∃ x, items[k]? = some x ∧ EventArrives (clock k) batch[k].event x

/-! ### What a batch takes -/

/-- Every string that is read of a record is UTF-8. -/
def IsText (e : Event) : Prop := isUtf8 e.filename.string = true ∧
  ∀ j : Fin MAX_ARGS, j.val < e.argc.toNat → isUtf8 (e.argv j).string = true

section Call
variable (filename : Option UserString) (argv : Nat → ArgPtr) (k : Kernel) (task : Task) (slot : Event)

theorem execveArgc_fresh (hslot : slot.argc = 0) : execveArgc argv slot = captured argv := by
  have hle : captured argv ≤ 25 := captured_le argv
  rw [execveArgc, hslot, UInt32.zero_add, UInt32.toNat_ofNat', Nat.mod_eq_of_lt]
  omega

/-- The record of a call whose slot starts out with no arguments. -/
def capture (hk : k.currentTask = some task) (hslot : slot.argc = 0) : Capture where
  event := execveRecord filename argv k task slot
  safe := by
    have hsafe := (handleExecve_safe filename argv k task hk slot).mpr ⟨?_, fun j hj hw => ?_⟩
    · exact hsafe _ (handleExecve_submitted filename argv k task hk slot)
    · rw [execveArgc_fresh argv slot hslot]
      exact captured_le argv
    · rw [execveArgc_fresh argv slot hslot] at hj
      simp [writes, hj] at hw
  source := ⟨filename, argv, k, slot, handleExecve_submitted filename argv k task hk slot⟩

/-- **A call's record is text exactly when its strings are, cut as the kernel cuts them.** -/
theorem capture_isText (hk : k.currentTask = some task) (hslot : slot.argc = 0) :
    IsText (capture filename argv k task slot hk hslot).event ↔
      isUtf8 (copied PATH_LEN filename) = true ∧
        ∀ j : Fin MAX_ARGS, j.val < captured argv → isUtf8 (copied ARG_LEN (argv j).string) = true := by
  have hfile : (capture filename argv k task slot hk hslot).event.filename.string =
      copied PATH_LEN filename := (probeReadUserStr_string (by decide) _ _).1
  have hargc : (capture filename argv k task slot hk hslot).event.argc.toNat = captured argv :=
    execveArgc_fresh argv slot hslot
  have hargs : ∀ j : Fin MAX_ARGS, j.val < captured argv →
      ((capture filename argv k task slot hk hslot).event.argv j).string =
        copied ARG_LEN (argv j).string := fun j hj =>
    (writeArgs_written slot (by simp [writes, hj])).1
  rw [IsText, hfile, hargc]
  refine and_congr_right fun _ => forall₂_congr fun j hj => ?_
  rw [hargs j hj]

end Call

def stringSize (s : List UInt8) : Nat := s.length + escapeCharacters s + 2

def numberSize (n : Int) : Nat := (toString n).length

/-- The length of a record's text: names and punctuation, numbers, and strings with
what escaping adds to them. -/
def eventSize (now : Timespec) (r : Reading) : Nat :=
  67 + numberSize (convertNsToUnix now r.timestamp).toNat + numberSize r.call.toInt +
    numberSize r.pid.toNat + numberSize r.ppid.toNat + numberSize r.argc.toNat +
    stringSize r.filename + separated (r.argv.map stringSize)

/-- The length of a batch's text. -/
def batchSize (id : List UInt8) (clock : Nat → Timespec) (batch : List Reading) : Nat :=
  19 + stringSize id + separated (batch.mapIdx fun k r => eventSize (clock k) r)

theorem toString_ascii (n : Int) : ∀ c ∈ (toString n).toList, c.toNat < 128 := by
  have hdigits : ∀ m, ∀ c ∈ Nat.toDigits 10 m, c.toNat < 128 := fun m c hc => by
    have hdigit := Nat.isDigit_of_mem_toDigits (by decide) (by decide) hc
    have hle : c.toNat ≤ 57 := by
      simp only [Char.isDigit, Bool.and_eq_true, decide_eq_true_eq] at hdigit
      exact hdigit.2
    omega
  cases n with
  | ofNat n =>
    rw [Json.toString_ofNat]
    exact hdigits n
  | negSucc n =>
    rw [Json.toString_negSucc]
    exact List.forall_mem_cons.mpr ⟨by decide, hdigits _⟩

theorem length_numberText (d : Whole) : (numberText d).length = numberSize d.val :=
  (length_utf8_ascii (toString_ascii d.val)).trans String.length_toList

theorem length_render_string (s : List UInt8) : (render (.string s)).length = stringSize s := by
  rw [render, length_stringText, stringSize]

theorem length_render_event (now : Timespec) (r : Reading) :
    (render (eventObject now r)).length = eventSize now r := by
  have hnames : (stringText (lit "timestamp")).length = 11 ∧ (stringText (lit "type")).length = 6 ∧
      (stringText (lit "pid")).length = 5 ∧ (stringText (lit "ppid")).length = 6 ∧
      (stringText (lit "filename")).length = 10 ∧ (stringText (lit "argc")).length = 6 ∧
      (stringText (lit "argv")).length = 6 := by decide
  obtain ⟨h1, h2, h3, h4, h5, h6, h7⟩ := hnames
  have hargs : (r.argv.map CJson.string).map (fun item => (render item).length) =
      r.argv.map stringSize := by
    rw [List.map_map]
    exact List.map_congr_left fun s _ => length_render_string s
  simp only [eventObject, render, renderMembers, List.length_append, List.isEmpty_cons,
    List.isEmpty_nil, Bool.false_eq_true, if_true, if_false, List.length_singleton, List.length_nil,
    h1, h2, h3, h4, h5, h6, h7, length_numberText, length_renderItems, hargs]
  simp only [length_stringText, eventSize, stringSize, wholeOfUInt64, wholeOfUInt32, wholeOfInt32]
  omega

theorem length_render_batch (id : List UInt8) (clock : Nat → Timespec) (batch : List Reading) :
    (render (batchObject id clock batch)).length = batchSize id clock batch := by
  have hnames : (stringText (lit "id")).length = 4 ∧ (stringText (lit "events")).length = 8 := by
    decide
  have hevents : (batch.mapIdx fun k r => eventObject (clock k) r).map
      (fun item => (render item).length) = batch.mapIdx fun k r => eventSize (clock k) r := by
    apply List.ext_getElem
    · simp
    · intro k _ _
      simp [length_render_event]
  simp only [batchObject, render, renderMembers, List.length_append, List.isEmpty_cons,
    List.isEmpty_nil, Bool.false_eq_true, if_true, if_false, List.length_singleton, List.length_nil,
    hnames.1, hnames.2, length_renderItems, hevents]
  simp only [length_stringText, batchSize, stringSize]
  omega

/-! ### A batch of text -/

/-- The time of a record, as the number that is sent. -/
def unixTime (now : Timespec) (ns : UInt64) : Whole := wholeOfUInt64 (convertNsToUnix now ns) (convertNsToUnix_small now ns)

/-- The tree a record becomes, its strings decoded. -/
def eventTree (now : Timespec) (r : Reading) (filename : List Char) (argv : List (List Char)) : Tree :=
  .obj [
    ("timestamp".toList, (unixTime now r.timestamp).tree),
    ("type".toList, (wholeOfInt32 r.call).tree),
    ("pid".toList, (wholeOfUInt32 r.pid).tree),
    ("ppid".toList, (wholeOfUInt32 r.ppid).tree),
    ("filename".toList, .str filename),
    ("argc".toList, (wholeOfUInt32 r.argc).tree),
    ("argv".toList, .arr (argv.map .str))]

theorem decodeUtf8_lit (s : String) : decodeUtf8 (lit s) = some s.toList := decodeUtf8_utf8 _

theorem eventObject_tree (now : Timespec) {r : Reading} {filename : List Char} {argv : List (List Char)}
    (hfile : r.filename = utf8 filename) (hargs : r.argv = argv.map utf8) :
    (eventObject now r).tree = some (eventTree now r filename argv) := by
  simp only [eventObject, CJson.tree, membersTree, decodeUtf8_lit, hfile, hargs, decodeUtf8_utf8,
    itemsTree_strings, Option.bind_eq_bind, Option.bind_some]
  rfl

theorem eventTree_json (now : Timespec) (r : Reading) (filename : List Char) (argv : List (List Char)) :
    (eventTree now r filename argv).json = .obj [
      (py "timestamp", .int (convertNsToUnix now r.timestamp).toNat),
      (py "type", .int r.call.toInt),
      (py "pid", .int r.pid.toNat),
      (py "ppid", .int r.ppid.toNat),
      (py "filename", .str (points filename)),
      (py "argc", .int r.argc.toNat),
      (py "argv", .arr (argv.map fun s => .str (points s)))] := by
  simp only [eventTree, Whole.tree, Tree.json, Tree.membersJson, Tree.itemsJson_eq, List.map_map]
  rfl

theorem eventTree_arrives (now : Timespec) {e : Event} {filename : List Char} {argv : List (List Char)}
    (hfile : e.filename.string = utf8 filename)
    (hargs : (List.range e.argc.toNat).map e.arg = argv.map utf8) :
    EventArrives now e (eventTree now e.reading filename argv).json := by
  have hlength : argv.length = e.argc.toNat := by
    have hlen := congrArg List.length hargs
    simpa using hlen.symm
  have harg : ∀ j : Fin MAX_ARGS, j.val < e.argc.toNat → ∃ s, argv[j.val]? = some s ∧
      (e.argv j).string = utf8 s := fun j hj => by
    have hget := congrArg (·[j.val]?) hargs
    simp only [List.getElem?_map, List.getElem?_range hj, Option.map_some, e.arg_fin] at hget
    obtain ⟨s, hs, heq⟩ := Option.map_eq_some_iff.mp hget.symm
    exact ⟨s, hs, heq.symm⟩
  rw [eventTree_json]
  exact {
    timestamp := by simp +decide [Json.member, lastAssigned, Event.reading]
    type := by simp +decide [Json.member, lastAssigned, Event.reading]
    pid := by simp +decide [Json.member, lastAssigned, Event.reading]
    ppid := by simp +decide [Json.member, lastAssigned, Event.reading]
    filename := ⟨points filename, by simp +decide [Json.member, lastAssigned],
      by rw [encodeUtf8_points, hfile]⟩
    argc := by simp +decide [Json.member, lastAssigned, Event.reading]
    argv := ⟨argv.map fun s => .str (points s), by simp +decide [Json.member, lastAssigned],
      by rw [List.length_map, hlength], fun j hj => by
        obtain ⟨s, hs, heq⟩ := harg j hj
        exact ⟨points s, by rw [List.getElem?_map, hs]; rfl, by rw [encodeUtf8_points, heq]⟩⟩ }

theorem args_isUtf8 {e : Event} (hsafe : e.Safe) (htext : IsText e) :
    ∀ s ∈ (List.range e.argc.toNat).map e.arg, isUtf8 s = true := by
  intro s hs
  obtain ⟨j, hj, rfl⟩ := List.mem_map.mp hs
  have hlt := List.mem_range.mp hj
  have harg := htext.2 ⟨j, Nat.lt_of_lt_of_le hlt hsafe.argc⟩ hlt
  rwa [← e.arg_fin] at harg

/-- A record of text becomes a tree that shows it. -/
theorem capture_tree (now : Timespec) {e : Event} (hsafe : e.Safe) (htext : IsText e) :
    ∃ t, (eventObject now e.reading).tree = some t ∧ EventArrives now e t.json := by
  obtain ⟨filename, hfile⟩ := isUtf8_iff.mp htext.1
  obtain ⟨argv, hargs⟩ := forall_isUtf8 (args_isUtf8 hsafe htext)
  exact ⟨_, eventObject_tree now hfile hargs, eventTree_arrives now hfile hargs⟩

/-! ### What is posted -/

/-- What is read of a batch. -/
def readings (batch : List Capture) : List Reading := batch.map fun e => e.event.reading

theorem readBatch_eq (batch : List Capture) :
    (batch.map Capture.event).mapM readEvent = some (readings batch) := by
  rw [List.mapM_map]
  exact (mapM_congr fun e _ => readEvent_safe e.safe).trans List.mapM_pure

theorem submitEvents_batch (c : Config) (clock : Nat → Timespec) (res : Nat) (batch : List Capture) :
    ∃ post, submitEvents c clock (.performs res) (batch.map Capture.event) = some ⟨0, some post⟩ ∧
      post.body = printUnformatted (batchObject c.id.string clock (readings batch)) := by
  unfold submitEvents
  rw [readBatch_eq]
  exact ⟨_, rfl, rfl⟩

/-- A batch of text becomes a tree that shows it. -/
theorem batch_tree (clock : Nat → Timespec) (id : List Char) {batch : List Capture}
    (htext : ∀ e ∈ batch, IsText e.event) : ∃ items : List Tree,
      (batchObject (utf8 id) clock (readings batch)).tree =
        some (.obj [("id".toList, .str id), ("events".toList, .arr items)]) ∧
      items.length = batch.length ∧
      ∀ k (hk : k < batch.length), ∃ t, items[k]? = some t ∧
        EventArrives (clock k) batch[k].event t.json := by
  have hlength : ((readings batch).mapIdx fun k r => eventObject (clock k) r).length = batch.length := by
    simp [readings]
  have hplaces : ∀ k (hk : k < ((readings batch).mapIdx fun k r => eventObject (clock k) r).length),
      ∃ t, (((readings batch).mapIdx fun k r => eventObject (clock k) r)[k]).tree = some t ∧
        ∀ hk : k < batch.length, EventArrives (clock k) batch[k].event t.json := by
    intro k hk
    have hbatch : k < batch.length := hlength ▸ hk
    obtain ⟨t, ht, harrives⟩ :=
      capture_tree (clock k) batch[k].safe (htext _ (List.getElem_mem hbatch))
    exact ⟨t, by simpa [readings] using ht, fun _ => harrives⟩
  obtain ⟨items, hitems, hcount, harrive⟩ := mapM_places hplaces
  rw [hlength] at hcount harrive
  refine ⟨items, ?_, hcount, fun k hk => ?_⟩
  · simp only [batchObject, CJson.tree, membersTree, itemsTree_eq, decodeUtf8_lit, decodeUtf8_utf8,
      hitems, Option.bind_eq_bind, Option.bind_some]
    rfl
  · obtain ⟨t, ht, h⟩ := harrive k hk
    exact ⟨t, ht, h hk⟩

section Server
variable (pyFloat : List Char → List CodePoint)

/-- The server reads back the text of a tree. -/
theorem getJson_render {c : CJson} {t : Tree} (h : c.tree = some t) :
    getJson pyFloat (render c) = .ok t.json := by
  rw [getJson, render_tree h, decodeUtf8_utf8, Option.bind_some, Tree.loads_text]

/-- Only a body in UTF-8 is accepted. -/
theorem getJson_isUtf8 {body : List UInt8} {data : Json} (h : getJson pyFloat body = .ok data) :
    isUtf8 body = true := by
  unfold getJson at h
  rw [isUtf8]
  cases hdecode : decodeUtf8 body with
  | none => simp [hdecode] at h
  | some s => rfl

/-- The endpoint's id is in every body, whatever the batch. -/
theorem id_isUtf8 {id : List UInt8} {clock : Nat → Timespec} {batch : List Reading}
    (h : isUtf8 (render (batchObject id clock batch)) = true) : isUtf8 id = true := by
  have hopen : ∀ b ∈ [123] ++ stringText (lit "id") ++ [58, 34], b.toNat < 128 := by decide +kernel
  have hsplit : ∃ rest, render (batchObject id clock batch) =
      [123] ++ stringText (lit "id") ++ [58, 34] ++ (escaped id ++ 34 :: rest) := by
    refine ⟨[44] ++ renderMembers [(lit "events",
      .array (batch.mapIdx fun k r => eventObject (clock k) r))] ++ [125], ?_⟩
    rw [batchObject, render, renderMembers, render, stringText.eq_def id]
    simp
  obtain ⟨rest, hrest⟩ := hsplit
  rw [hrest] at h
  obtain ⟨hid, _⟩ := isUtf8_split (by decide) (isUtf8_ascii hopen h)
  rw [← List.nil_append (escaped id)] at hid
  exact isUtf8_of_escaped hid

variable {pyFloat} in
/-- A batch that arrives is a batch of text. -/
theorem BatchArrives.isText {c : Config} {clock : Nat → Timespec} {res : Nat} {batch : List Capture}
    (h : BatchArrives pyFloat c clock res batch) : ∀ e ∈ batch, IsText e.event := by
  obtain ⟨_, _, _, items, _, _, _, _, _, hevents⟩ := h
  intro e he
  obtain ⟨k, hk, rfl⟩ := List.mem_iff_getElem.mp he
  obtain ⟨x, _, harrives⟩ := hevents k hk
  obtain ⟨s, _, hs⟩ := harrives.filename
  refine ⟨encodeUtf8_isUtf8 hs, fun j hj => ?_⟩
  obtain ⟨args, _, _, hargs⟩ := harrives.argv
  obtain ⟨s, _, hs⟩ := hargs j hj
  exact encodeUtf8_isUtf8 hs

/-- **A batch arrives exactly when the id and every string in it are UTF-8 and the
body can be printed**: one string that is not keeps the server from every event. -/
theorem batch_arrives_iff (c : Config) (clock : Nat → Timespec) (res : Nat) (batch : List Capture) :
    BatchArrives pyFloat c clock res batch ↔
      isUtf8 c.id.string = true ∧ (∀ e ∈ batch, IsText e.event) ∧
        batchSize c.id.string clock (readings batch) + 2 ≤ INT_MAX := by
  obtain ⟨post, hpost, hbody⟩ := submitEvents_batch c clock res batch
  rw [printUnformatted_eq, length_render_batch] at hbody
  refine ⟨fun h => ?_, fun ⟨hid, htext, hsize⟩ => ?_⟩
  · obtain ⟨post', body, data, _, hpost', hbody', hdata, _⟩ := id h
    rw [hpost] at hpost'
    obtain rfl : post = post' := Option.some.inj (congrArg (Option.bind · Submission.post) hpost')
    rw [hbody] at hbody'
    obtain ⟨hsize, hrender⟩ := Option.ite_none_right_eq_some.mp hbody'
    obtain rfl := Option.some.inj hrender
    exact ⟨id_isUtf8 (getJson_isUtf8 pyFloat hdata), h.isText, hsize⟩
  · obtain ⟨id, hid⟩ := isUtf8_iff.mp hid
    obtain ⟨items, htree, hcount, harrive⟩ := batch_tree clock id htext
    rw [← hid] at htree
    rw [if_pos hsize] at hbody
    refine ⟨post, _, _, items.map Tree.json, hpost, hbody, getJson_render pyFloat htree, ?_, ?_, ?_⟩
    · simp +decide [Tree.json, Tree.membersJson, Tree.itemsJson_eq, Json.member, lastAssigned, points]
    · rw [List.length_map, hcount]
    · intro k hk
      obtain ⟨t, ht, h⟩ := harrive k hk
      exact ⟨t.json, by rw [List.getElem?_map, ht]; rfl, h⟩

end Server

/-- An argument of 128 bytes, the last two of them one character. -/
def longArgument : UserString := ⟨utf8 (List.replicate 126 'a' ++ ['é']), by decide⟩

def sampleCapture (argv : Nat → ArgPtr) : Capture :=
  capture (some ⟨lit "/bin/ls", by decide⟩) argv ⟨1, 0, some ⟨none⟩⟩ ⟨none⟩ .zero rfl rfl

/-- The kernel cuts that character in two, and the record in front of it does not
arrive either. -/
theorem cutArgument_refused :
    ¬ BatchArrives points sampleConfig (fun _ => ⟨1700000000, 0⟩) 0
      [sampleCapture fun _ => .null,
        sampleCapture fun j => if j = 0 then .ptr (some longArgument) else .null] := by
  intro h
  have htext := h.isText _ (List.mem_cons_of_mem _ (List.mem_cons_self ..))
  have hcut : isUtf8 (copied ARG_LEN (some longArgument)) = true :=
    ((capture_isText _ _ _ _ _ _ _).mp htext).2 0 (by decide)
  exact absurd hcut (by decide +kernel)

end EndpointSecurity.Deployment
