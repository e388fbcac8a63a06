import EndpointSecurity.Agent.LastLine

/-! Which configuration files `load_config` accepts.

The documented rule asks for all six options, and for a text in four of them. The
code departs from it at both numbers. `batch_size` is raised to 1, which
`validate_config` still refuses, so that a small value fails the load. And the
buffer is enlarged before it is validated, so that a missing `buffer_size` goes
unnoticed when two batches exceed the 16 events the validator asks for. Elsewhere
the rule holds (`loadsAsDocumented_iff`). -/
namespace EndpointSecurity.Agent
open Library

/-- The options that are texts. -/
def textOptions : List (List UInt8) := [lit "api", lit "key", lit "name", lit "id"]

/-- "There are 6 required configuration options that must be defined." -/
structure Documented (ls : List (List UInt8)) : Prop where
  defined : ∀ option ∈ optionNames, (lastValue option ls).isSome = true
  texts : ∀ option ∈ textOptions, lastValue option ls ≠ some []

/-- A load follows the rule: it succeeds by it, and raises the numbers it finds to
numbers the validator accepts. -/
structure LoadsAsDocumented (file : List UInt8) : Prop where
  accepted : (∃ r, loadConfig (some file) = some r ∧ r.ret = 0) ↔ Documented (lines file)
  raised : ∀ r, loadConfig (some file) = some r →
    ((lastValue (lit "buffer_size") (lines file)).isSome = true → 16 < r.config.bufferSize) ∧
    ((lastValue (lit "batch_size") (lines file)).isSome = true → 1 < r.config.batchSize)

/-! ### The end of the load -/

/-- Every text is set, to something. -/
def TextsSet (ls : List (List UInt8)) : Prop :=
  ∀ option ∈ textOptions, ∃ value ∈ lastValue option ls, value ≠ []

theorem holding_ne_nil {n : Nat} (hn : 1 < n) {value : Option (List UInt8)}
    (hnul : ∀ v ∈ value, 0 ∉ v) :
    (CArray.holding n (value.getD [])).string ≠ [] ↔ ∃ v ∈ value, v ≠ [] := by
  have hpos : 0 < n := by omega
  have hlast : n - 1 ≠ 0 := by omega
  cases value with
  | none => simp [CArray.holding_string hpos]
  | some v =>
    rw [Option.getD_some, CArray.holding_string hpos (hnul v rfl), Ne, List.take_eq_nil_iff]
    simp [hlast]

/-- What the validator asks of the values of the last lines. -/
theorem valid_lastValues {ls : List (List UInt8)} (h : TextLines ls) :
    (ensureBuffer (lastValues ls)).Valid ↔ TextsSet ls ∧
      16 < (ensureBuffer (lastValues ls)).bufferSize ∧ 1 < (lastValues ls).batchSize := by
  have hnul : ∀ option, ∀ v ∈ lastValue option ls, 0 ∉ v := fun _ _ hv => lastValue_noNul h hv
  have hkeep : (ensureBuffer (lastValues ls)).api = (lastValues ls).api ∧
      (ensureBuffer (lastValues ls)).key = (lastValues ls).key ∧
      (ensureBuffer (lastValues ls)).name = (lastValues ls).name ∧
      (ensureBuffer (lastValues ls)).id = (lastValues ls).id ∧
      (ensureBuffer (lastValues ls)).batchSize = (lastValues ls).batchSize := by
    unfold ensureBuffer
    split <;> exact ⟨rfl, rfl, rfl, rfl, rfl⟩
  obtain ⟨hapi, hkey, hname, hid, hbatch⟩ := hkeep
  have htexts : TextsSet ls ↔ (lastValues ls).api.string ≠ [] ∧ (lastValues ls).key.string ≠ [] ∧
      (lastValues ls).name.string ≠ [] ∧ (lastValues ls).id.string ≠ [] := by
    simp only [lastValues]
    rw [holding_ne_nil (by decide) (hnul _), holding_ne_nil (by decide) (hnul _),
      holding_ne_nil (by decide) (hnul _), holding_ne_nil (by decide) (hnul _)]
    simp only [TextsSet, textOptions, List.forall_mem_cons, List.not_mem_nil, false_implies,
      implies_true, and_true]
  rw [htexts]
  refine ⟨fun hv => ?_, fun h => ?_⟩
  · exact ⟨⟨hapi ▸ hv.api, hkey ▸ hv.key, hname ▸ hv.name, hid ▸ hv.id⟩, hv.bufferSize,
      hbatch ▸ hv.batchSize⟩
  · obtain ⟨⟨h1, h2, h3, h4⟩, h5, h6⟩ := h
    exact ⟨hapi ▸ h1, hkey ▸ h2, hname ▸ h3, hid ▸ h4, h5, hbatch ▸ h6⟩

/-- What `load_config` returns for a file of text lines. -/
theorem loadConfig_textLines {file : List UInt8} (h : TextLines (lines file)) :
    loadConfig (some file) = some (finishLoad (lastValues (lines file))) := by
  show ((lines file).foldlM loadLine Config.zero).map finishLoad = _
  rw [load_lastValues h, Option.map_some]

theorem finishLoad_config (c : Config) : (finishLoad c).config = ensureBuffer c := by
  unfold finishLoad
  split <;> rfl

theorem finishLoad_ret (c : Config) : (finishLoad c).ret = 0 ↔ (ensureBuffer c).Valid := by
  rw [← validateConfig_eq_none, finishLoad]
  cases validateConfig (ensureBuffer c) <;> simp

/-! ### The two numbers -/

theorem lastBatch_lt (ls : List (List UInt8)) :
    0 ≤ (lastValues ls).batchSize ∧ (lastValues ls).batchSize < 2 ^ 31 := by
  show 0 ≤ Option.getD _ _ ∧ Option.getD _ _ < _
  cases lastValue (lit "batch_size") ls with
  | none => decide
  | some v =>
    have hrange := (int32_range (strtol v)).2
    simp only [Option.map_some, Option.getD_some]
    unfold batchSizeOf atoi
    split <;> omega

/-- The buffer a file with a `buffer_size` ends up with. -/
theorem buffer_defined {ls : List (List UInt8)} {v : List UInt8}
    (h : lastValue (lit "buffer_size") ls = some v) :
    16 < (ensureBuffer (lastValues ls)).bufferSize := by
  have hloop : 32 ≤ (lastValues ls).bufferSize := by
    simp only [lastValues, h, Option.map_some, Option.getD_some]
    unfold bufferSizeOf
    split <;> omega
  unfold ensureBuffer
  split
  · show 16 < int32 _
    omega
  · omega

/-- Without one, the buffer is two batches, if that is a number. -/
theorem buffer_missing {ls : List (List UInt8)} (h : lastValue (lit "buffer_size") ls = none) :
    16 < (ensureBuffer (lastValues ls)).bufferSize ↔
      9 ≤ (lastValues ls).batchSize ∧ (lastValues ls).batchSize < 2 ^ 30 := by
  obtain ⟨hlow, hhigh⟩ := lastBatch_lt ls
  have hloop : (lastValues ls).bufferSize = 0 := by
    simp only [lastValues, h, Option.map_none, Option.getD_none]
  have hbuffer : (ensureBuffer (lastValues ls)).bufferSize =
      if 0 < int32 ((lastValues ls).batchSize * 2) then int32 ((lastValues ls).batchSize * 2) else 0 := by
    unfold ensureBuffer
    rw [hloop]
    split
    · rfl
    · exact hloop
  rw [hbuffer]
  by_cases hsmall : (lastValues ls).batchSize < 2 ^ 30
  · rw [int32_double hlow hsmall]
    split <;> omega
  · have hwraps := int32_double_wraps (by omega) hhigh
    split <;> omega

/-- A batch size that passes, in terms of the value the last line gives. -/
theorem batch_defined {ls : List (List UInt8)} {v : List UInt8}
    (h : lastValue (lit "batch_size") ls = some v) :
    (1 < (lastValues ls).batchSize ↔ 2 ≤ atoi v) ∧
      (9 ≤ (lastValues ls).batchSize ∧ (lastValues ls).batchSize < 2 ^ 30 ↔
        9 ≤ atoi v ∧ atoi v < 2 ^ 30) := by
  simp only [lastValues, h, Option.map_some, Option.getD_some]
  unfold batchSizeOf
  split <;> omega

theorem batch_missing {ls : List (List UInt8)} (h : lastValue (lit "batch_size") ls = none) :
    (lastValues ls).batchSize = 0 := by
  simp only [lastValues, h, Option.map_none, Option.getD_none]

/-! ### The exact condition -/

theorem documented_iff (ls : List (List UInt8)) : Documented ls ↔ TextsSet ls ∧
    (lastValue (lit "buffer_size") ls).isSome = true ∧
      (lastValue (lit "batch_size") ls).isSome = true := by
  have hset : ∀ option, (∃ v ∈ lastValue option ls, v ≠ []) ↔
      (lastValue option ls).isSome = true ∧ lastValue option ls ≠ some [] := by
    intro option
    cases lastValue option ls <;> simp
  refine ⟨fun h => ⟨fun option ho => ?_, h.defined _ (by decide), h.defined _ (by decide)⟩,
    fun ⟨htexts, hbuffer, hbatch⟩ => ⟨fun option ho => ?_, fun option ho => ?_⟩⟩
  · have hname : ∀ o ∈ textOptions, o ∈ optionNames := by decide
    exact (hset option).mpr ⟨h.defined option (hname option ho), h.texts option ho⟩
  · have hcases : ∀ o ∈ optionNames, o ∈ textOptions ∨ o = lit "buffer_size" ∨ o = lit "batch_size" := by
      decide
    rcases hcases option ho with htext | rfl | rfl
    · exact ((hset option).mp (htexts option htext)).1
    · exact hbuffer
    · exact hbatch
  · exact ((hset option).mp (htexts option ho)).2

theorem accepted_textLines {file : List UInt8} (h : TextLines (lines file)) :
    (∃ r, loadConfig (some file) = some r ∧ r.ret = 0) ↔ TextsSet (lines file) ∧
      16 < (ensureBuffer (lastValues (lines file))).bufferSize ∧ 1 < (lastValues (lines file)).batchSize := by
  rw [loadConfig_textLines h, ← valid_lastValues h, ← finishLoad_ret]
  simp

theorem raised_textLines {file : List UInt8} (h : TextLines (lines file)) :
    (∀ r, loadConfig (some file) = some r →
      ((lastValue (lit "buffer_size") (lines file)).isSome = true → 16 < r.config.bufferSize) ∧
      ((lastValue (lit "batch_size") (lines file)).isSome = true → 1 < r.config.batchSize)) ↔
    ∀ v ∈ lastValue (lit "batch_size") (lines file), 2 ≤ atoi v := by
  have hbatch : (ensureBuffer (lastValues (lines file))).batchSize = (lastValues (lines file)).batchSize := by
    unfold ensureBuffer
    split <;> rfl
  rw [loadConfig_textLines h]
  simp only [Option.some.injEq, forall_eq', finishLoad_config, hbatch]
  refine ⟨fun hraised v hv => ?_, fun hv => ⟨fun hsome => ?_, fun hsome => ?_⟩⟩
  · exact (batch_defined hv).1.mp (hraised.2 (Option.isSome_of_eq_some hv))
  · obtain ⟨v, hbuffer⟩ := Option.isSome_iff_exists.mp hsome
    exact buffer_defined hbuffer
  · obtain ⟨v, hsize⟩ := Option.isSome_iff_exists.mp hsome
    exact (batch_defined hsize).1.mpr (hv v hsize)

/-- **A file of text lines is loaded by the documented rule exactly when its last
`batch_size`, if any, is at least 2, and it does not leave out `buffer_size` while all
texts are set and two batches make a buffer.** -/
theorem loadsAsDocumented_iff {file : List UInt8} (h : TextLines (lines file)) :
    LoadsAsDocumented file ↔
      (∀ v ∈ lastValue (lit "batch_size") (lines file), 2 ≤ atoi v) ∧
      ¬ (TextsSet (lines file) ∧ lastValue (lit "buffer_size") (lines file) = none ∧
        ∃ v ∈ lastValue (lit "batch_size") (lines file), 9 ≤ atoi v ∧ atoi v < 2 ^ 30) := by
  have hload : LoadsAsDocumented file ↔
      ((∃ r, loadConfig (some file) = some r ∧ r.ret = 0) ↔ Documented (lines file)) ∧
      ∀ v ∈ lastValue (lit "batch_size") (lines file), 2 ≤ atoi v := by
    rw [← raised_textLines h]
    exact ⟨fun hl => ⟨hl.accepted, hl.raised⟩, fun hl => ⟨hl.1, hl.2⟩⟩
  rw [hload, accepted_textLines h, documented_iff, and_comm]
  refine and_congr_right fun hsizes => ?_
  cases hbuffer : lastValue (lit "buffer_size") (lines file) with
  | some b =>
    -- the buffer passes, and so does every batch size there is
    have hlarge := buffer_defined hbuffer
    cases hbatch : lastValue (lit "batch_size") (lines file) with
    | some v =>
      have hpasses := (batch_defined hbatch).1.mpr (hsizes v hbatch)
      simp [hlarge, hpasses]
    | none => simp [batch_missing hbatch]
  | none =>
    rw [buffer_missing hbuffer]
    cases hbatch : lastValue (lit "batch_size") (lines file) with
    | some v =>
      obtain ⟨hpasses, hmedium⟩ := batch_defined hbatch
      rw [hmedium, hpasses]
      have hsize := hsizes v hbatch
      simp [hsize]
    | none => simp [batch_missing hbatch]

/-- A configuration file with its texts set, and some more lines. -/
def fileWith (sizes : String) : List UInt8 :=
  lit "api=http://localhost:5001/submit_logs\nkey=k\nname=n\nid=1\n" ++ lit sizes

instance (ls : List (List UInt8)) : Decidable (TextLines ls) :=
  inferInstanceAs (Decidable (∀ l ∈ ls, TextLine l))

theorem fileWith_loadsAsDocumented :
    LoadsAsDocumented (fileWith "buffer_size=100\nbatch_size=25\n") :=
  (loadsAsDocumented_iff (by decide +kernel)).mpr
    ⟨by decide +kernel, fun h => absurd h.2.1 (by decide +kernel)⟩

theorem Documented.not_refused {file : List UInt8} (h : Documented (lines file))
    (hret : (loadConfig (some file)).map (·.ret) = some (-1)) : ¬ LoadsAsDocumented file := by
  intro hload
  obtain ⟨r, hr, hzero⟩ := hload.accepted.mpr h
  rw [hr, Option.map_some, hzero] at hret
  cases hret

theorem not_documented_loaded {file : List UInt8}
    (h : lastValue (lit "buffer_size") (lines file) = none)
    (hret : (loadConfig (some file)).map (·.ret) = some 0) : ¬ LoadsAsDocumented file := by
  intro hload
  obtain ⟨r, hr, hzero⟩ := Option.map_eq_some_iff.mp hret
  have hdefined := (hload.accepted.mp ⟨r, hr, hzero⟩).defined (lit "buffer_size") (by decide)
  rw [h] at hdefined
  cases hdefined

/-- All six options, of which `batch_size=1` is refused; and five, which load. -/
theorem fileWith_contradicts :
    (TextLines (lines (fileWith "buffer_size=100\nbatch_size=1\n")) ∧
      ¬ LoadsAsDocumented (fileWith "buffer_size=100\nbatch_size=1\n")) ∧
    TextLines (lines (fileWith "batch_size=25\n")) ∧ ¬ LoadsAsDocumented (fileWith "batch_size=25\n") :=
  ⟨⟨by decide +kernel, Documented.not_refused ⟨by decide +kernel, by decide +kernel⟩ (by decide +kernel)⟩,
    by decide +kernel, not_documented_loaded (by decide +kernel) (by decide +kernel)⟩

end EndpointSecurity.Agent
