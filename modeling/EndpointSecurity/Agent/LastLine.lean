import EndpointSecurity.Agent.ConfigLoad

/-! The options as the lines of a file give them.

A line gives a value to the option whose name stands before its first `=`, and the
last line of an option decides (`lastValue`). This is said of the lines alone; the
loop of `load_config` trims, skips and copies into fixed arrays, and ends with just
these values in them (`load_lastValues`). So whatever keeps the lines of each option
in their order keeps the configuration. -/
namespace EndpointSecurity.Agent
open Library

/-- A line with no NUL in it and at least one byte `trim` does not take for whitespace. -/
structure TextLine (line : List UInt8) : Prop where
  noNul : 0 ∉ line
  text : ∃ b ∈ line, isBlank b = false

instance (line : List UInt8) : Decidable (TextLine line) :=
  decidable_of_iff (0 ∉ line ∧ ∃ b ∈ line, isBlank b = false)
    ⟨fun h => ⟨h.1, h.2⟩, fun h => ⟨h.noNul, h.text⟩⟩

/-- A text without the whitespace at its end. -/
def rightTrimmed (text : List UInt8) : List UInt8 := text.rdropWhile isBlank

/-- What a line gives to an option: the right-trimmed text after its first `=`, if
the text before is exactly the option's name. Such a line begins with a letter. -/
def lineValue (option line : List UInt8) : Option (List UInt8) :=
  if 61 ∈ line ∧ line.takeWhile (· != 61) = option then
    some (rightTrimmed (line.dropWhile (· != 61)).tail)
  else none

/-- The value the last line of an option gives it. -/
def lastValue (option : List UInt8) (ls : List (List UInt8)) : Option (List UInt8) :=
  (ls.filterMap (lineValue option)).getLast?

/-- The names `load_config` knows. -/
def optionNames : List (List UInt8) :=
  [lit "api", lit "key", lit "name", lit "id", lit "buffer_size", lit "batch_size"]

/-- The name of an option: not empty, not a comment, not indented, one word. -/
structure OptionName (key : List UInt8) : Prop where
  written : skipped key = false
  noEquals : 61 ∉ key
  noNul : 0 ∉ key

instance (key : List UInt8) : Decidable (OptionName key) :=
  decidable_of_iff (skipped key = false ∧ 61 ∉ key ∧ 0 ∉ key)
    ⟨fun h => ⟨h.1, h.2.1, h.2.2⟩, fun h => ⟨h.written, h.noEquals, h.noNul⟩⟩

theorem optionName {option : List UInt8} (h : option ∈ optionNames) : OptionName option := by
  have hall : ∀ o ∈ optionNames, OptionName o := by decide
  exact hall option h

/-! ### One line -/

/-- Trimming stops at a byte that is not blank. -/
theorem rightTrimmed_append {b : UInt8} (hb : isBlank b = false) (a c : List UInt8) :
    rightTrimmed (a ++ b :: c) = a ++ b :: rightTrimmed c := by
  unfold rightTrimmed
  induction c using List.reverseRecOn with
  | nil =>
    rw [List.rdropWhile_concat_neg _ _ _ (by simp [hb])]
    rfl
  | append_singleton c x ih =>
    have hsplit : a ++ b :: (c ++ [x]) = (a ++ b :: c) ++ [x] := by simp
    rw [hsplit, List.rdropWhile_concat, List.rdropWhile_concat]
    split
    · exact ih
    · simp

theorem trim_textLine {line : List UInt8} (h : TextLine line) :
    trim line = some (rightTrimmed line) := by
  rw [trim_eq_some, cString_of_noNul h.noNul]
  exact ⟨h.text, rfl⟩

/-- The first `=` of a text splits it. -/
theorem split_equals {text : List UInt8} (h : 61 ∈ text) :
    ∃ key value, text = key ++ 61 :: value ∧ 61 ∉ key := by
  induction text with
  | nil => simp at h
  | cons b text ih =>
    by_cases hb : b = 61
    · exact ⟨[], text, by rw [hb]; rfl, List.not_mem_nil⟩
    · obtain ⟨key, value, rfl, hkey⟩ := ih ((List.mem_cons.mp h).resolve_left (Ne.symm hb))
      exact ⟨b :: key, value, rfl, List.not_mem_cons_of_ne_of_not_mem (Ne.symm hb) hkey⟩

theorem takeWhile_equals {key : List UInt8} (h : 61 ∉ key) (value : List UInt8) :
    (key ++ 61 :: value).takeWhile (· != 61) = key ∧
      (key ++ 61 :: value).dropWhile (· != 61) = 61 :: value := by
  have hkeep : ∀ b ∈ key, (b != 61) = true := fun b hb => by
    simpa using fun h' : b = 61 => h (h' ▸ hb)
  rw [List.takeWhile_append_of_pos hkeep, List.dropWhile_append_of_pos hkeep]
  simp

/-- The split at the first `=`, of a line that is not skipped. -/
theorem assignment_equals {key : List UInt8} (h : 61 ∉ key) (value : List UInt8) :
    assignment (key ++ 61 :: value) =
      if skipped (key ++ 61 :: value) then none else some (key, value) := by
  obtain ⟨htake, hdrop⟩ := takeWhile_equals h value
  rw [assignment, htake, hdrop]

theorem skipped_append {key : List UInt8} (h : skipped key = false) (rest : List UInt8) :
    skipped (key ++ rest) = false := by
  cases key with
  | nil => simp [skipped] at h
  | cons b key => exact h

/-- A line that assigns an option. -/
theorem lineAssignment_option {key value : List UInt8} (hkey : OptionName key) (hvalue : 0 ∉ value) :
    lineAssignment (key ++ 61 :: value) = some (key, value.rdropWhile isBlank) := by
  have hline : TextLine (key ++ 61 :: value) := by
    refine ⟨?_, 61, List.mem_append_right _ (List.mem_cons_self ..), by decide⟩
    simp only [List.mem_append, List.mem_cons, not_or]
    exact ⟨hkey.noNul, by decide, hvalue⟩
  rw [lineAssignment, trim_textLine hline, Option.bind_some, rightTrimmed_append (by decide),
    assignment_equals hkey.noEquals, skipped_append hkey.written]
  rfl

theorem lineValue_equals (option : List UInt8) {key : List UInt8} (h : 61 ∉ key) (value : List UInt8) :
    lineValue option (key ++ 61 :: value) =
      if key = option then some (rightTrimmed value) else none := by
  obtain ⟨htake, hdrop⟩ := takeWhile_equals h value
  have hmem : 61 ∈ key ++ 61 :: value := List.mem_append_right _ (List.mem_cons_self ..)
  simp only [lineValue, hmem, true_and, htake, hdrop, List.tail_cons]

/-- **What the loop takes from a line for an option is what the line gives it.** -/
theorem lineAssignment_value {line option : List UInt8} (h : TextLine line) (ho : OptionName option) :
    ((lineAssignment line).bind fun a => if a.1 = option then some a.2 else none) =
      lineValue option line := by
  rw [lineAssignment, trim_textLine h, Option.bind_some]
  by_cases heq : 61 ∈ line
  · obtain ⟨key, value, rfl, hkey⟩ := split_equals heq
    rw [rightTrimmed_append (by decide), assignment_equals hkey, lineValue_equals option hkey]
    by_cases hname : key = option
    · rw [skipped_append (hname ▸ ho.written)]
      simp [hname]
    · split <;> simp [hname]
  · have hnone : 61 ∉ rightTrimmed line := fun hmem =>
      heq ((List.rdropWhile_prefix _ _).subset hmem)
    have hdrop : (rightTrimmed line).dropWhile (· != 61) = [] := by
      apply List.dropWhile_eq_nil_iff.mpr
      intro b hb
      simpa using fun h' : b = 61 => hnone (h' ▸ hb)
    have hassign : assignment (rightTrimmed line) = none := by
      rw [assignment, hdrop]
      split <;> rfl
    simp [hassign, lineValue, heq]

/-! ### The loop -/

/-- Lines `load_config` can read and that hide nothing behind a NUL. -/
def TextLines (ls : List (List UInt8)) : Prop := ∀ l ∈ ls, TextLine l

theorem TextLines.readable {ls : List (List UInt8)} (h : TextLines ls) : Readable ls :=
  fun l hl => by rw [trim_textLine (h l hl)]; rfl

/-- **The last assignment to an option is the value of its last line.** -/
theorem lastAssigned_assignments {ls : List (List UInt8)} (h : TextLines ls) {option : List UInt8}
    (ho : OptionName option) : lastAssigned option (assignments ls) = lastValue option ls := by
  induction ls with
  | nil => rfl
  | cons l ls ih =>
    have hl := lineAssignment_value (h l (List.mem_cons_self ..)) ho
    have hrest := ih fun l' hl' => h l' (List.mem_cons_of_mem _ hl')
    unfold lastValue at hrest ⊢
    rw [assignments, List.filterMap_cons, List.filterMap_cons, ← hl]
    cases lineAssignment l with
    | none => exact hrest
    | some a =>
      show lastAssigned option (a :: assignments ls) = _
      rw [lastAssigned_cons, hrest, Option.bind_some]
      by_cases ha : a.1 = option
      · simp only [ha, if_true, List.getLast?_cons]
        cases (ls.filterMap (lineValue option)).getLast? <;> rfl
      · simp [ha]

/-- The configuration with the values of the last lines. -/
def lastValues (ls : List (List UInt8)) : Config where
  api := .holding 256 ((lastValue (lit "api") ls).getD [])
  key := .holding 128 ((lastValue (lit "key") ls).getD [])
  name := .holding 64 ((lastValue (lit "name") ls).getD [])
  id := .holding 64 ((lastValue (lit "id") ls).getD [])
  bufferSize := ((lastValue (lit "buffer_size") ls).map bufferSizeOf).getD 0
  batchSize := ((lastValue (lit "batch_size") ls).map batchSizeOf).getD 0

theorem holdingLast (n : Nat) (v : Option (List UInt8)) :
    (v.map (CArray.holding n)).getD (.zero n) = .holding n (v.getD []) := by
  cases v with
  | none => exact (CArray.holding_nil n).symm
  | some v => rfl

/-- **The loop leaves the values of the last lines.** -/
theorem load_lastValues {ls : List (List UInt8)} (h : TextLines ls) :
    ls.foldlM loadLine Config.zero = some (lastValues ls) := by
  have hlast : ∀ o ∈ optionNames, lastAssigned o (assignments ls) = lastValue o ls :=
    fun o ho => lastAssigned_assignments h (optionName ho)
  have hapi := foldl_api Config.zero_closed (assignments ls)
  have hkey := foldl_key Config.zero_closed (assignments ls)
  have hname := foldl_name Config.zero_closed (assignments ls)
  have hid := foldl_id Config.zero_closed (assignments ls)
  have hbuffer := foldl_bufferSize Config.zero_closed (assignments ls)
  have hbatch := foldl_batchSize Config.zero_closed (assignments ls)
  rw [hlast _ (by decide)] at hapi hkey hname hid hbuffer hbatch
  rw [load_lines, if_pos h.readable]
  generalize (assignments ls).foldl setOption Config.zero = c at hapi hkey hname hid hbuffer hbatch ⊢
  simp only [Config.zero, holdingLast] at hapi hkey hname hid hbuffer hbatch
  obtain ⟨api, key, name, id, bufferSize, batchSize⟩ := c
  simp only [lastValues, Option.some.injEq, Config.mk.injEq]
  exact ⟨hapi, hkey, hname, hid, hbuffer, hbatch⟩

theorem lastValue_noNul {ls : List (List UInt8)} (h : TextLines ls) {option value : List UInt8}
    (hvalue : lastValue option ls = some value) : 0 ∉ value := by
  have hmem := List.mem_of_getLast? hvalue
  obtain ⟨l, hl, hline⟩ := List.mem_filterMap.mp hmem
  unfold lineValue at hline
  split at hline
  · obtain rfl := Option.some.inj hline
    intro h0
    have htail := (List.rdropWhile_prefix isBlank _).subset h0
    exact (h l hl).noNul ((List.dropWhile_sublist _).subset (List.mem_of_mem_tail htail))
  · cases hline

/-! ### The options depend on their own lines only -/

/-- The array holds the value as far as it fits, a NUL in its last byte, and no
remnant of anything else. -/
structure Holds {n : Nat} (a : CArray n) (value : Option (List UInt8)) : Prop where
  string : a.string = (value.getD []).take (n - 1)
  closed : a.Closed
  rest : ∀ b ∈ a.bytes.drop a.string.length, b = 0

theorem holds_holding {n : Nat} (hn : 0 < n) {value : Option (List UInt8)} (h : ∀ v ∈ value, 0 ∉ v) :
    Holds (.holding n (value.getD [])) value := by
  have hnul : 0 ∉ value.getD [] := by
    cases value with
    | none => exact List.not_mem_nil
    | some v => exact h v rfl
  exact ⟨CArray.holding_string hn hnul, CArray.holding_closed hn _, CArray.holding_rest hn hnul⟩

/-- A line that defines none of the options: a comment, a line without `=`, or a line
of an unknown option. -/
def OtherLine (line : List UInt8) : Prop :=
  line.head? = some 35 ∨ 61 ∉ line ∨ line.takeWhile (· != 61) ∉ optionNames

/-- What the loop makes of some lines, and of others that define the same. -/
structure LastLineWins (ls : List (List UInt8)) (c : Config) : Prop where
  api : Holds c.api (lastValue (lit "api") ls)
  key : Holds c.key (lastValue (lit "key") ls)
  name : Holds c.name (lastValue (lit "name") ls)
  id : Holds c.id (lastValue (lit "id") ls)
  bufferSize : c.bufferSize = ((lastValue (lit "buffer_size") ls).map bufferSizeOf).getD 0
  batchSize : c.batchSize = ((lastValue (lit "batch_size") ls).map batchSizeOf).getD 0
  /-- Lines that are, option by option, the same lines in the same order give the same. -/
  reorder : ∀ other, TextLines other →
    (∀ option ∈ optionNames, other.filter (fun l => (lineValue option l).isSome) =
      ls.filter (fun l => (lineValue option l).isSome)) →
    other.foldlM loadLine Config.zero = some c
  /-- So does a line more that defines no option, anywhere. -/
  insert : ∀ before after line, ls = before ++ after → TextLine line → OtherLine line →
    (before ++ line :: after).foldlM loadLine Config.zero = some c
  /-- A next line of another option leaves the key, `name` and `id` included. -/
  keyKept : ∀ line d, TextLine line → lineValue (lit "key") line = none →
    loadLine c line = some d → d.key = c.key

theorem lastValue_filter (option : List UInt8) (ls : List (List UInt8)) :
    lastValue option (ls.filter fun l => (lineValue option l).isSome) = lastValue option ls := by
  unfold lastValue
  rw [List.filterMap_filter]
  congr 2
  funext l
  cases lineValue option l <;> rfl

theorem lastValues_congr {ls other : List (List UInt8)}
    (h : ∀ option ∈ optionNames, lastValue option other = lastValue option ls) :
    lastValues other = lastValues ls := by
  unfold lastValues
  rw [h _ (by decide : lit "api" ∈ optionNames), h _ (by decide : lit "key" ∈ optionNames),
    h _ (by decide : lit "name" ∈ optionNames), h _ (by decide : lit "id" ∈ optionNames),
    h _ (by decide : lit "buffer_size" ∈ optionNames),
    h _ (by decide : lit "batch_size" ∈ optionNames)]

theorem OtherLine.lineValue {line option : List UInt8} (h : OtherLine line)
    (ho : option ∈ optionNames) : lineValue option line = none := by
  refine if_neg fun ⟨heq, hname⟩ => ?_
  rcases h with hcomment | hnone | hunknown
  · have hfirst : ∀ o ∈ optionNames, o.head? ≠ some 35 ∧ o ≠ [] := by decide
    obtain ⟨hhead, hnil⟩ := hfirst option ho
    cases line with
    | nil => cases hcomment
    | cons b line =>
      obtain rfl : b = 35 := Option.some.inj hcomment
      rw [← hname] at hhead
      exact hhead rfl
  · exact hnone heq
  · exact hunknown (hname ▸ ho)

/-- **After the loop every option is what its last line says, cut to its array, and
nothing but the lines of an option can change it.** -/
theorem lastLine_wins {ls : List (List UInt8)} (h : TextLines ls) :
    ∃ c, ls.foldlM loadLine Config.zero = some c ∧ LastLineWins ls c := by
  have hnul : ∀ option, ∀ v ∈ lastValue option ls, 0 ∉ v := fun _ _ hv => lastValue_noNul h hv
  refine ⟨lastValues ls, load_lastValues h, ?_, ?_, ?_, ?_, rfl, rfl, ?_, ?_, ?_⟩
  · exact holds_holding (by decide) (hnul _)
  · exact holds_holding (by decide) (hnul _)
  · exact holds_holding (by decide) (hnul _)
  · exact holds_holding (by decide) (hnul _)
  · intro other hother hsame
    rw [load_lastValues hother]
    refine congrArg some (lastValues_congr fun option ho => ?_)
    rw [← lastValue_filter, hsame option ho, lastValue_filter]
  · intro before after line hls hline hother
    have hmore : TextLines (before ++ line :: after) := by
      intro l hl
      rw [List.mem_append, List.mem_cons] at hl
      rcases hl with hl | rfl | hl
      · exact h l (hls ▸ List.mem_append_left _ hl)
      · exact hline
      · exact h l (hls ▸ List.mem_append_right _ hl)
    rw [load_lastValues hmore]
    refine congrArg some (lastValues_congr fun option ho => ?_)
    rw [hls, lastValue, lastValue, List.filterMap_append, List.filterMap_append,
      List.filterMap_cons, hother.lineValue ho]
  · intro line d hline hkey hload
    have hmore : TextLines (ls ++ [line]) := by
      intro l hl
      rcases List.mem_append.mp hl with hl | hl
      · exact h l hl
      · exact List.mem_singleton.mp hl ▸ hline
    have hrun := load_lastValues hmore
    rw [List.foldlM_append, load_lastValues h] at hrun
    have hstep : loadLine (lastValues ls) line = some (lastValues (ls ++ [line])) := by
      simpa using hrun
    obtain rfl := Option.some.inj (hload.symm.trans hstep)
    have hsame : lastValue (lit "key") (ls ++ [line]) = lastValue (lit "key") ls := by
      rw [lastValue, lastValue, List.filterMap_append, List.filterMap_cons, hkey, List.filterMap_nil,
        List.append_nil]
    simp only [lastValues, hsame]

/-- Longer values before shorter ones, with another option and a comment in between. -/
def repeatedLines : List (List UInt8) :=
  [lit "name=desktop\n", lit "buffer_size=1000\n", lit "id=7\n", lit "# key=\n", lit "buffer_size=40\n",
    lit "name=pc\n"]

theorem lastLine_wins_names :
    ∃ c, repeatedLines.foldlM loadLine Config.zero = some c ∧ LastLineWins repeatedLines c :=
  lastLine_wins (by unfold TextLines; decide)

end EndpointSecurity.Agent
