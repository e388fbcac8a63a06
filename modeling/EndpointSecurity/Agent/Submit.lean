import EndpointSecurity.Agent.CJson
import EndpointSecurity.Agent.Record
import EndpointSecurity.Library.PartialRead

/-! `submit_events`: a batch of records becomes one POST.

The nested loop reads `argv[j]` for every `j` below the record's own count and
copies C strings out of fixed arrays. Outside `argv`, or past an array without a
NUL, C leaves the read undefined, and so does the model (`none`). `readEvent` is
what the loop body reads of one record; it is defined exactly on safe records
(`readEvent_isSome_iff`). -/
namespace EndpointSecurity.Agent
open Library

/-! ### Time -/

/-- What `clock_gettime(CLOCK_REALTIME)` fills in, as `uint64_t`. -/
structure Timespec where
  tvSec : UInt64
  tvNsec : UInt64

def convertNsToUnix (now : Timespec) (nanosecondsSinceBoot : UInt64) : UInt64 :=
  let currentUnixNanoseconds := now.tvSec * 1000000000 + now.tvNsec
  let unixNanoseconds := currentUnixNanoseconds - nanosecondsSinceBoot
  unixNanoseconds / 1000000000

theorem convertNsToUnix_small (now : Timespec) (ns : UInt64) :
    (convertNsToUnix now ns).toNat < 10 ^ 15 := by
  unfold convertNsToUnix
  rw [UInt64.toNat_div]
  have h := (now.tvSec * 1000000000 + now.tvNsec - ns).toNat_lt
  show _ / 1000000000 < _
  omega

/-! ### Reading a record -/

/-- A C string out of an array, if it ends there. -/
def readString {n : Nat} (a : CArray n) : Option (List UInt8) :=
  if a.Terminated then some a.string else none

/-- `events[i].argv[j]`. -/
def readArg (e : Event) (j : Nat) : Option (List UInt8) :=
  if h : j < MAX_ARGS then readString (e.argv ⟨j, h⟩) else none

/-- What the body of the loop reads of a record. -/
structure Reading where
  timestamp : UInt64
  call : Int32
  pid : UInt32
  ppid : UInt32
  filename : List UInt8
  argc : UInt32
  argv : List (List UInt8)

def readEvent (e : Event) : Option Reading := do
  let filename ← readString e.filename
  let argv ← (List.range e.argc.toNat).mapM (readArg e)
  return ⟨e.timestamp, e.call, e.pid, e.ppid, filename, e.argc, argv⟩

theorem readString_isSome {n : Nat} (a : CArray n) : (readString a).isSome = true ↔ a.Terminated := by
  unfold readString
  split <;> simp [*]

theorem readString_eq_some {n : Nat} {a : CArray n} {s : List UInt8} :
    readString a = some s ↔ a.Terminated ∧ a.string = s := by
  unfold readString
  split <;> simp [*]

/-- **The loop stays inside a record exactly when the record is safe.** -/
theorem readEvent_isSome_iff (e : Event) : (readEvent e).isSome = true ↔ e.Safe := by
  have hread : (readEvent e).isSome = true ↔
      (readString e.filename).isSome = true ∧ ((List.range e.argc.toNat).mapM (readArg e)).isSome = true := by
    unfold readEvent
    cases readString e.filename with
    | none => simp
    | some filename => cases (List.range e.argc.toNat).mapM (readArg e) <;> simp
  rw [hread, readString_isSome, mapM_isSome_iff, e.safe_iff]
  refine ⟨fun ⟨hfile, hargs⟩ => ⟨?_, hfile, fun j hj => ?_⟩, fun ⟨hargc, hfile, hargs⟩ => ⟨hfile, fun j hj => ?_⟩⟩
  · -- the argument just outside `argv` cannot be one of those read
    by_contra hgt
    have h := hargs MAX_ARGS (List.mem_range.mpr (Nat.lt_of_not_le hgt))
    simp [readArg] at h
  · have h := hargs j (List.mem_range.mpr hj)
    rw [readArg, dif_pos j.isLt, readString_isSome] at h
    exact h
  · have hlt : j < MAX_ARGS := Nat.lt_of_lt_of_le (List.mem_range.mp hj) hargc
    rw [readArg, dif_pos hlt, readString_isSome]
    exact hargs ⟨j, hlt⟩ (List.mem_range.mp hj)

theorem readEvent_eq_some {e : Event} {r : Reading} :
    readEvent e = some r ↔ ∃ filename argv, readString e.filename = some filename ∧
      (List.range e.argc.toNat).mapM (readArg e) = some argv ∧
      r = ⟨e.timestamp, e.call, e.pid, e.ppid, filename, e.argc, argv⟩ := by
  simp only [readEvent, Option.bind_eq_bind, Option.bind_eq_some_iff, Option.pure_def,
    Option.some.injEq]
  exact ⟨fun ⟨filename, hf, argv, ha, h⟩ => ⟨filename, argv, hf, ha, h.symm⟩,
    fun ⟨filename, argv, hf, ha, h⟩ => ⟨filename, hf, argv, ha, h.symm⟩⟩

/-- The `j`-th argument a safe record holds. -/
def Event.arg (e : Event) (j : Nat) : List UInt8 :=
  if h : j < MAX_ARGS then (e.argv ⟨j, h⟩).string else []

theorem Event.arg_fin (e : Event) (j : Fin MAX_ARGS) : e.arg j.val = (e.argv j).string :=
  dif_pos j.isLt

/-- What is read of a safe record. -/
def Event.reading (e : Event) : Reading :=
  ⟨e.timestamp, e.call, e.pid, e.ppid, e.filename.string, e.argc, (List.range e.argc.toNat).map e.arg⟩

theorem readEvent_safe {e : Event} (h : e.Safe) : readEvent e = some e.reading := by
  have hargs : (List.range e.argc.toNat).mapM (readArg e) =
      some ((List.range e.argc.toNat).map e.arg) := by
    refine (mapM_congr fun j hj => ?_).trans List.mapM_pure
    have hlt : j < MAX_ARGS := Nat.lt_of_lt_of_le (List.mem_range.mp hj) h.argc
    rw [readArg, dif_pos hlt]
    exact readString_eq_some.mpr ⟨h.argv ⟨j, hlt⟩ (List.mem_range.mp hj), (e.arg_fin ⟨j, hlt⟩).symm⟩
  exact readEvent_eq_some.mpr ⟨_, _, readString_eq_some.mpr ⟨h.filename, rfl⟩, hargs, rfl⟩

/-! ### The JSON tree -/

def wholeOfUInt64 (x : UInt64) (h : x.toNat < 10 ^ 15) : Whole := ⟨x.toNat, h⟩

def wholeOfUInt32 (x : UInt32) : Whole :=
  ⟨x.toNat, by have := x.toNat_lt; simp only [Int.natAbs_natCast]; omega⟩

def wholeOfInt32 (x : Int32) : Whole :=
  ⟨x.toInt, by have := x.toInt_lt; have := x.le_toInt; omega⟩

/-- The object built for one record. -/
def eventObject (now : Timespec) (r : Reading) : CJson :=
  .object [
    (lit "timestamp", .number (wholeOfUInt64 (convertNsToUnix now r.timestamp)
      (convertNsToUnix_small now r.timestamp))),
    (lit "type", .number (wholeOfInt32 r.call)),
    (lit "pid", .number (wholeOfUInt32 r.pid)),
    (lit "ppid", .number (wholeOfUInt32 r.ppid)),
    (lit "filename", .string r.filename),
    (lit "argc", .number (wholeOfUInt32 r.argc)),
    (lit "argv", .array (r.argv.map .string))]

/-- The object shows what was read, up to the precision of the time. -/
theorem eventObject_inj {now : Timespec} {r s : Reading} (h : eventObject now r = eventObject now s) :
    r.filename = s.filename ∧ r.argc = s.argc ∧ r.argv = s.argv := by
  simp only [eventObject, CJson.object.injEq, List.cons.injEq, Prod.mk.injEq, CJson.number.injEq,
    CJson.string.injEq, CJson.array.injEq, true_and, and_true, wholeOfUInt32, Whole.mk.injEq,
    Int.natCast_inj, UInt32.toNat_inj] at h
  obtain ⟨_, _, _, _, hfile, hargc, hargs⟩ := h
  have hinj : Function.Injective CJson.string := fun _ _ h => CJson.string.inj h
  exact ⟨hfile, hargc, hinj.list_map hargs⟩

/-- The root object. The clock is read anew for every record. -/
def batchObject (id : List UInt8) (clock : Nat → Timespec) (batch : List Reading) : CJson :=
  .object [
    (lit "id", .string id),
    (lit "events", .array (batch.mapIdx fun i r => eventObject (clock i) r))]

/-! ### The request -/

/-- `snprintf` into the 256 bytes of `auth_header`. -/
def authHeader (c : Config) : List UInt8 :=
  (lit "Authorization: Bearer " ++ c.key.string).take 255

/-- What libcurl does in a call: `curl_easy_init` fails, or one transfer ends with
a code. -/
inductive CurlRun where
  | initFails
  | performs (res : Nat)

/-- What `submit_events` returns: -1 only if there was no transfer. -/
def submitReturn : CurlRun → Int
  | .initFails => -1
  | .performs _ => 0

/-- The POST handed to libcurl; `body` is what `CURLOPT_POSTFIELDS` points to. -/
structure Post where
  url : List UInt8
  headers : List (List UInt8)
  body : Option (List UInt8)

structure Submission where
  ret : Int
  post : Option Post

/-- `submit_events` on the first `count` records of its argument. -/
def submitEvents (c : Config) (clock : Nat → Timespec) (curl : CurlRun) (events : List Event) :
    Option Submission :=
  match curl with
  | .initFails => some ⟨submitReturn curl, none⟩
  | .performs _ => do
    let batch ← events.mapM readEvent
    return ⟨submitReturn curl, some {
      url := c.api.string
      headers := [lit "Content-Type: application/json", authHeader c]
      body := printUnformatted (batchObject c.id.string clock batch) }⟩

end EndpointSecurity.Agent
