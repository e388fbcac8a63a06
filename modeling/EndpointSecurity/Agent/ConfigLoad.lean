import EndpointSecurity.Agent.Config

/-! What `load_config` leaves in `config`.

The loop keeps the last byte of `key`, `name` and `id` NUL (`Config.Closed`): that
is what lets two branches close `key` instead of the array they wrote. Under it
each assignment overwrites its own option and nothing else (`setOption_eq`), the
loop over a file of readable lines is a fold of assignments (`load_lines`), and
every option ends up as its last assignment leaves it. -/
namespace EndpointSecurity.Agent
open Library

/-- The arrays whose last byte the loop may not write are closed already. -/
structure Config.Closed (c : Config) : Prop where
  key : c.key.Closed
  name : c.name.Closed
  id : c.id.Closed

theorem Config.zero_closed : Config.zero.Closed :=
  ⟨CArray.zero_closed (by decide), CArray.zero_closed (by decide), CArray.zero_closed (by decide)⟩

/-- The size an assignment to `buffer_size` sets. -/
def bufferSizeOf (value : List UInt8) : Int := if atoi value < 32 then 32 else atoi value

/-- The size an assignment to `batch_size` sets. -/
def batchSizeOf (value : List UInt8) : Int := if atoi value < 1 then 1 else atoi value

/-- An assignment overwrites its own option and leaves the others as they were. -/
theorem setOption_eq {c : Config} (hc : c.Closed) (a : List UInt8 × List UInt8) :
    setOption c a =
      { api := if a.1 = lit "api" then .holding 256 a.2 else c.api
        key := if a.1 = lit "key" then .holding 128 a.2 else c.key
        name := if a.1 = lit "name" then .holding 64 a.2 else c.name
        id := if a.1 = lit "id" then .holding 64 a.2 else c.id
        bufferSize := if a.1 = lit "buffer_size" then bufferSizeOf a.2 else c.bufferSize
        batchSize := if a.1 = lit "batch_size" then batchSizeOf a.2 else c.batchSize } := by
  obtain ⟨key, value⟩ := a
  have hapi := CArray.strncpy_store c.api value (by decide)
  have hkey := CArray.strncpy_store c.key value (by decide)
  have hname := CArray.strncpy_closed hc.name value (by decide)
  have hid := CArray.strncpy_closed hc.id value (by decide)
  have hkeep := CArray.store_closed hc.key (by decide)
  unfold setOption
  by_cases h : key = lit "api"
  · simp +decide only [h, if_true, if_false, hapi]
  by_cases h : key = lit "key"
  · simp +decide only [h, if_true, if_false, hkey]
  by_cases h : key = lit "name"
  · simp +decide only [h, if_true, if_false, hname, hkeep]
  by_cases h : key = lit "id"
  · simp +decide only [h, if_true, if_false, hid, hkeep]
  by_cases h : key = lit "buffer_size"
  · simp +decide only [h, if_true, if_false, bufferSizeOf]
  by_cases h : key = lit "batch_size"
  · simp +decide only [h, if_true, if_false, batchSizeOf]
  simp only [*, if_false]

theorem setOption_closed (c : Config) (a : List UInt8 × List UInt8) (hc : c.Closed) :
    (setOption c a).Closed := by
  rw [setOption_eq hc]
  refine ⟨?_, ?_, ?_⟩
  · show CArray.Closed (if _ then _ else _)
    split
    · exact CArray.holding_closed (by decide) _
    · exact hc.key
  · show CArray.Closed (if _ then _ else _)
    split
    · exact CArray.holding_closed (by decide) _
    · exact hc.name
  · show CArray.Closed (if _ then _ else _)
    split
    · exact CArray.holding_closed (by decide) _
    · exact hc.id

/-! ### The loop -/

/-- What a line assigns, if `trim` gives it back and it is not skipped. -/
def lineAssignment (line : List UInt8) : Option (List UInt8 × List UInt8) :=
  (trim line).bind assignment

def assignments (ls : List (List UInt8)) : List (List UInt8 × List UInt8) :=
  ls.filterMap lineAssignment

/-- No line is blank, so `trim` stays inside every one of them. -/
def Readable (ls : List (List UInt8)) : Prop := ∀ l ∈ ls, (trim l).isSome = true

instance (ls : List (List UInt8)) : Decidable (Readable ls) :=
  inferInstanceAs (Decidable (∀ l ∈ ls, _))

/-- A line that can be read leaves it to the others. -/
theorem readable_cons {l : List UInt8} (h : (trim l).isSome = true) (ls : List (List UInt8)) :
    Readable (l :: ls) ↔ Readable ls := by
  simp only [Readable, List.forall_mem_cons, h, true_and]

theorem loadLine_of_trim {line t : List UInt8} (h : trim line = some t) (c : Config) :
    loadLine c line = some ((assignments [line]).foldl setOption c) := by
  have hline : lineAssignment line = assignment t := by rw [lineAssignment, h, Option.bind_some]
  simp only [loadLine, h, Option.map_some, assignments, List.filterMap_cons, hline]
  cases assignment t <;> rfl

/-- **The loop is the fold of the assignments**, on files it can read. -/
theorem load_lines (ls : List (List UInt8)) (c : Config) :
    ls.foldlM loadLine c =
      if Readable ls then some ((assignments ls).foldl setOption c) else none := by
  induction ls generalizing c with
  | nil => rfl
  | cons l ls ih =>
    rw [List.foldlM_cons]
    cases ht : trim l with
    | none =>
      have hr : ¬ Readable (l :: ls) := fun h => by
        have := h l (List.mem_cons_self ..)
        simp [ht] at this
      rw [if_neg hr, loadLine, ht]
      rfl
    | some t =>
      have hr := readable_cons (Option.isSome_of_eq_some ht) ls
      have hsplit : assignments (l :: ls) = assignments [l] ++ assignments ls := by
        rw [← List.singleton_append, assignments, List.filterMap_append]
        rfl
      rw [loadLine_of_trim ht c, hsplit, List.foldl_append]
      show List.foldlM loadLine _ ls = _
      rw [ih]
      simp only [hr]

theorem assignments_append (a b : List (List UInt8)) :
    assignments (a ++ b) = assignments a ++ assignments b := List.filterMap_append

theorem readable_append (a b : List (List UInt8)) :
    Readable (a ++ b) ↔ Readable a ∧ Readable b := List.forall_mem_append

theorem readable_of_lineAssignment {l : List UInt8} {a : List UInt8 × List UInt8}
    (h : lineAssignment l = some a) : (trim l).isSome = true := by
  obtain ⟨t, ht, _⟩ := Option.bind_eq_some_iff.mp h
  rw [ht]
  rfl

/-- The value of an assignment is part of a C string. -/
theorem assignments_noNul {ls : List (List UInt8)} {a : List UInt8 × List UInt8}
    (h : a ∈ assignments ls) : 0 ∉ a.2 := by
  obtain ⟨l, _, hl⟩ := List.mem_filterMap.mp h
  obtain ⟨t, ht, ha⟩ := Option.bind_eq_some_iff.mp hl
  have hsub : t <+: cString l := by
    obtain ⟨-, rfl⟩ := trim_eq_some.mp ht
    exact List.rdropWhile_prefix _ _
  have hvalue : a.2 ⊆ t := by
    unfold assignment at ha
    split at ha
    · cases ha
    · split at ha
      · cases ha
      · rename_i b value hdrop
        obtain rfl := Option.some.inj ha
        intro x hx
        exact (List.dropWhile_sublist _).subset (hdrop ▸ List.mem_cons_of_mem _ hx)
  exact fun h0 => cString_noNul l (hsub.subset (hvalue h0))

/-! ### The options after the loop -/

section Options
variable {c : Config} (hc : c.Closed) (as : List (List UInt8 × List UInt8))
include hc

theorem foldl_api : (as.foldl setOption c).api =
    ((lastAssigned (lit "api") as).map (.holding 256)).getD c.api :=
  foldl_lastAssigned setOption_closed (fun s a hs => by rw [setOption_eq hs]) as hc

theorem foldl_key : (as.foldl setOption c).key =
    ((lastAssigned (lit "key") as).map (.holding 128)).getD c.key :=
  foldl_lastAssigned setOption_closed (fun s a hs => by rw [setOption_eq hs]) as hc

theorem foldl_name : (as.foldl setOption c).name =
    ((lastAssigned (lit "name") as).map (.holding 64)).getD c.name :=
  foldl_lastAssigned setOption_closed (fun s a hs => by rw [setOption_eq hs]) as hc

theorem foldl_id : (as.foldl setOption c).id =
    ((lastAssigned (lit "id") as).map (.holding 64)).getD c.id :=
  foldl_lastAssigned setOption_closed (fun s a hs => by rw [setOption_eq hs]) as hc

theorem foldl_bufferSize : (as.foldl setOption c).bufferSize =
    ((lastAssigned (lit "buffer_size") as).map bufferSizeOf).getD c.bufferSize :=
  foldl_lastAssigned setOption_closed (fun s a hs => by rw [setOption_eq hs]) as hc

theorem foldl_batchSize : (as.foldl setOption c).batchSize =
    ((lastAssigned (lit "batch_size") as).map batchSizeOf).getD c.batchSize :=
  foldl_lastAssigned setOption_closed (fun s a hs => by rw [setOption_eq hs]) as hc

end Options

/-! ### Accepted configurations -/

theorem int32_range (x : Int) : -2 ^ 31 ≤ int32 x ∧ int32 x < 2 ^ 31 := by
  unfold int32
  have hlow := Int.le_bmod (x := x) (m := 2 ^ 32) (by decide)
  have hhigh := Int.bmod_lt (x := x) (m := 2 ^ 32) (by decide)
  omega

/-- Doubling in `int` is doubling below 2^30. -/
theorem int32_double {x : Int} (hlow : 0 ≤ x) (hhigh : x < 2 ^ 30) : int32 (x * 2) = x * 2 := by
  unfold int32
  apply Int.bmod_eq_of_le <;> omega

/-- From 2^30 on the double of an `int` wraps to a negative number. -/
theorem int32_double_wraps {x : Int} (hlow : 2 ^ 30 ≤ x) (hhigh : x < 2 ^ 31) : int32 (x * 2) < 0 := by
  have hwrap : int32 (x * 2) = x * 2 - (2 ^ 32 : Nat) := by
    rw [int32, ← Int.sub_bmod_right]
    apply Int.bmod_eq_of_le <;> omega
  omega

theorem bufferSizeOf_lt (value : List UInt8) : bufferSizeOf value < 2 ^ 31 := by
  have h := (int32_range (strtol value)).2
  unfold bufferSizeOf atoi
  split
  · decide
  · exact h

theorem ensureBuffer_lt {c : Config} (h : c.bufferSize < 2 ^ 31) :
    (ensureBuffer c).bufferSize < 2 ^ 31 := by
  unfold ensureBuffer
  split
  · exact (int32_range _).2
  · exact h

/-- What `validate_config` lets through. -/
structure Config.Valid (c : Config) : Prop where
  api : c.api.string ≠ []
  key : c.key.string ≠ []
  name : c.name.string ≠ []
  id : c.id.string ≠ []
  bufferSize : 16 < c.bufferSize
  batchSize : 1 < c.batchSize

theorem validateConfig_eq_none (c : Config) : validateConfig c = none ↔ c.Valid := by
  simp only [validateConfig, List.length_eq_zero_iff]
  refine ⟨fun h => ?_, fun h => ?_⟩
  · split_ifs at h with h1 h2 h3 h4 h5 h6
    exact ⟨h1, h2, h3, h4, by omega, by omega⟩
  · have hbuffer := h.bufferSize
    have hbatch := h.batchSize
    rw [if_neg h.api, if_neg h.key, if_neg h.name, if_neg h.id, if_neg (by omega), if_neg (by omega)]

theorem finishLoad_accepts {c d : Config} {stderr : Option String}
    (h : finishLoad c = ⟨0, stderr, d⟩) : d = ensureBuffer c ∧ d.Valid := by
  unfold finishLoad at h
  split at h
  · cases h
  · rename_i hnone
    obtain ⟨-, -, rfl⟩ := Loaded.mk.inj h
    exact ⟨rfl, (validateConfig_eq_none _).mp hnone⟩

/-- A configuration `load_config` accepts from some file. -/
structure Accepts (file : Option (List UInt8)) (c : Config) : Prop where
  loaded : ∃ stderr, loadConfig file = some ⟨0, stderr, c⟩

/-- What an accepted file leaves, in terms of its assignments. -/
theorem accepts_iff (bytes : List UInt8) (c : Config) :
    Accepts (some bytes) c ↔ Readable (lines bytes) ∧
      c = ensureBuffer ((assignments (lines bytes)).foldl setOption .zero) ∧ c.Valid := by
  have hload : loadConfig (some bytes) =
      if Readable (lines bytes) then
        some (finishLoad ((assignments (lines bytes)).foldl setOption .zero))
      else none := by
    show ((lines bytes).foldlM loadLine Config.zero).map finishLoad = _
    rw [load_lines]
    split <;> rfl
  refine ⟨fun ⟨stderr, h⟩ => ?_, fun ⟨hr, hc, hv⟩ => ⟨none, ?_⟩⟩
  · rw [hload] at h
    split at h
    · rename_i hr
      obtain ⟨rfl, hv⟩ := finishLoad_accepts (Option.some.inj h)
      exact ⟨hr, rfl, hv⟩
    · cases h
  · rw [hload, if_pos hr, finishLoad, ← hc, (validateConfig_eq_none c).mpr hv]

theorem Accepts.valid {file : Option (List UInt8)} {c : Config} (h : Accepts file c) : c.Valid := by
  cases file with
  | none =>
    obtain ⟨stderr, hload⟩ := h.loaded
    simp [loadConfig] at hload
  | some bytes => exact ((accepts_iff bytes c).mp h).2.2

theorem Accepts.bufferSize_lt {file : Option (List UInt8)} {c : Config} (h : Accepts file c) :
    c.bufferSize < 2 ^ 31 := by
  cases file with
  | none =>
    obtain ⟨stderr, hload⟩ := h.loaded
    simp [loadConfig] at hload
  | some bytes =>
    obtain ⟨_, rfl, _⟩ := (accepts_iff bytes c).mp h
    apply ensureBuffer_lt
    rw [foldl_bufferSize Config.zero_closed]
    cases lastAssigned (lit "buffer_size") (assignments (lines bytes)) with
    | none => decide
    | some value => exact bufferSizeOf_lt value

end EndpointSecurity.Agent
