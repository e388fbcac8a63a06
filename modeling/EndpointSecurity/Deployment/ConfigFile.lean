import EndpointSecurity.Agent.LastLine
import EndpointSecurity.Agent.Submit
import EndpointSecurity.Server.Endpoints

/-! The generated configuration file, written by the server and read by the agent.

Read line by line, the file is the template's assignments with whatever the name adds
after its first line break in between (`configFile_assignments`). -/
namespace EndpointSecurity.Deployment
open Library Agent Server

/-! ### Pieces of the file -/

/-- The lines a name has after its first one. -/
def continuation (name : List Char) : List (List UInt8) := (lines (utf8 name ++ [newline])).tail

def firstLine (name : List Char) : List UInt8 := (lines (utf8 name ++ [newline])).headD []

theorem lines_name (name : List Char) :
    lines (utf8 name ++ [newline]) = firstLine name :: continuation name := by
  obtain ⟨l, ls, h⟩ := List.exists_cons_of_ne_nil (lines_ne_nil (utf8 name))
  rw [firstLine, continuation, h]
  rfl

theorem configFile_eq (authKey : AuthKey) (name : List Char) (newId : Nat) :
    configFile authKey name newId = some (
      lit "# Endpoint Configuration File" ++ newline :: (
      lit "api=http://localhost:5001/submit_logs" ++ newline :: (
      (lit "key=" ++ utf8 authKey.chars) ++ newline :: (
      (lit "name=" ++ utf8 name) ++ newline :: (
      (lit "id=" ++ lit (toString newId)) ++ newline :: (
      lit "buffer_size=65" ++ newline :: (
      lit "batch_size=25" ++ newline :: []))))))) := by
  have hcontent : configContent (points authKey.chars) (points name) newId = points (
      "# Endpoint Configuration File\napi=http://localhost:5001/submit_logs\nkey=".toList ++
      authKey.chars ++ "\nname=".toList ++ name ++ "\nid=".toList ++ (toString (newId : Int)).toList ++
      "\nbuffer_size=65\nbatch_size=25\n".toList) := by
    simp only [configContent, py, points_append]
  have hid : toString (newId : Int) = toString newId := rfl
  have hhead : utf8 "# Endpoint Configuration File\napi=http://localhost:5001/submit_logs\nkey=".toList =
      lit "# Endpoint Configuration File" ++ newline :: (lit "api=http://localhost:5001/submit_logs" ++
        newline :: lit "key=") := by decide
  have hname : utf8 "\nname=".toList = newline :: lit "name=" := by decide
  have hidt : utf8 "\nid=".toList = newline :: lit "id=" := by decide
  have htail : utf8 "\nbuffer_size=65\nbatch_size=25\n".toList =
      newline :: (lit "buffer_size=65" ++ newline :: (lit "batch_size=25" ++ newline :: [])) := by
    decide
  rw [configFile, hcontent, encodeUtf8_points, hid]
  simp only [utf8_append, hhead, hname, hidt, htail, List.append_assoc, List.cons_append]
  rfl

/-- A value none of whose bytes ends a string or a line, or is blank. -/
structure PlainValue (value : List UInt8) : Prop where
  noNul : 0 ∉ value
  noBlank : ∀ b ∈ value, isBlank b = false

theorem PlainValue.noNewline {value : List UInt8} (h : PlainValue value) : newline ∉ value := fun hmem =>
  absurd (h.noBlank _ hmem) (by decide)

theorem urlSafe_plain {chars : List Char} (h : ∀ c ∈ chars, isUrlSafe c = true) :
    PlainValue (utf8 chars) := by
  have hnot : ∀ b ∈ [0, 32, 10, 9, 13], b ∉ utf8 chars := by
    intro b hb hmem
    have hcases : ∀ b ∈ ([0, 32, 10, 9, 13] : List UInt8),
        b.toNat < 128 ∧ isUrlSafe (Char.ofNat b.toNat) = false := by decide +kernel
    obtain ⟨hascii, hunsafe⟩ := hcases b hb
    rw [h _ ((mem_utf8 hascii).mp hmem)] at hunsafe
    cases hunsafe
  refine ⟨hnot 0 (List.mem_cons_self ..), fun b hb => ?_⟩
  by_contra hblank
  simp only [isBlank, Bool.not_eq_false, Bool.or_eq_true, beq_iff_eq, or_assoc] at hblank
  exact hnot b (by simpa using .inr hblank) hb

theorem authKey_plain (authKey : AuthKey) : PlainValue (utf8 authKey.chars) :=
  urlSafe_plain authKey.urlSafe

theorem decimal_urlSafe (n : Nat) : ∀ c ∈ (toString n).toList, isUrlSafe c = true := by
  intro c hc
  have hdigits : (toString n).toList = Nat.toDigits 10 n := Nat.toList_repr
  rw [hdigits] at hc
  have hdigit := Nat.isDigit_of_mem_toDigits (by decide) (by decide) hc
  simp [isUrlSafe, Char.isAlphanum, hdigit]

theorem decimal_plain (n : Nat) : PlainValue (lit (toString n)) := urlSafe_plain (decimal_urlSafe n)

theorem rdropWhile_line {v : List UInt8} (h : ∀ b ∈ v.getLast?, isBlank b = false) :
    (v ++ [newline]).rdropWhile isBlank = v := by
  rw [List.rdropWhile_concat_pos _ _ _ (by decide)]
  apply List.rdropWhile_eq_self_iff.mpr
  intro hv
  simpa using h (v.getLast hv) (List.getLast_mem_getLast? hv)

/-! ### The file line by line -/

section File
variable (authKey : AuthKey) (name : List Char) (newId : Nat)

/-- The bytes of the file. -/
def configBytes : List UInt8 := (configFile authKey name newId).getD []

theorem configFile_some : configFile authKey name newId = some (configBytes authKey name newId) := by
  rw [configBytes, configFile_eq]
  rfl

theorem configBytes_lines : lines (configBytes authKey name newId) =
    [lit "# Endpoint Configuration File" ++ [newline],
      lit "api=http://localhost:5001/submit_logs" ++ [newline],
      lit "key=" ++ utf8 authKey.chars ++ [newline]] ++
    ((lit "name=" ++ firstLine name) :: continuation name) ++
    [lit "id=" ++ lit (toString newId) ++ [newline],
      lit "buffer_size=65" ++ [newline],
      lit "batch_size=25" ++ [newline]] := by
  have hkey : newline ∉ lit "key=" ++ utf8 authKey.chars :=
    List.not_mem_append (by decide) (authKey_plain authKey).noNewline
  have hid : newline ∉ lit "id=" ++ lit (toString newId) :=
    List.not_mem_append (by decide) (decimal_plain newId).noNewline
  have hname : lines ((lit "name=" ++ utf8 name) ++ [newline]) =
      (lit "name=" ++ firstLine name) :: continuation name := by
    rw [List.append_assoc]
    exact lines_prefix (by decide) (lines_name name)
  rw [configBytes, configFile_eq, Option.getD_some, lines_append_newline (by decide),
    lines_append_newline (by decide), lines_append_newline hkey, lines_append, hname,
    lines_append_newline hid, lines_append_newline (by decide),
    lines_append_newline (by decide), lines]
  simp only [List.append_assoc, List.cons_append, List.nil_append]

end File

theorem firstLine_noNul (name : EndpointName) : 0 ∉ firstLine name.chars := by
  intro h
  have hflatten := lines_flatten (utf8 name.chars ++ [newline])
  rw [lines_name, List.flatten_cons] at hflatten
  have hmem : (0 : UInt8) ∈ utf8 name.chars ++ [newline] :=
    hflatten ▸ List.mem_append_left _ h
  rcases List.mem_append.mp hmem with hname | hline
  · exact name.noNul ((mem_utf8 (by decide)).mp hname)
  · exact absurd hline (by decide)

/-- A line with a plain value. -/
theorem plainLine {key value : List UInt8} (hkey : OptionName key) (hvalue : PlainValue value) :
    lineAssignment (key ++ 61 :: (value ++ [newline])) = some (key, value) := by
  have hlast : ∀ b ∈ value.getLast?, isBlank b = false := fun b hb =>
    hvalue.noBlank b (List.mem_of_mem_getLast? hb)
  rw [lineAssignment_option hkey (List.not_mem_append hvalue.noNul (by decide)), rdropWhile_line hlast]

theorem lit_key : lit "key=" = lit "key" ++ [61] := by decide

theorem lit_name : lit "name=" = lit "name" ++ [61] := by decide

theorem lit_id : lit "id=" = lit "id" ++ [61] := by decide

theorem keyLine (authKey : AuthKey) : lineAssignment (lit "key=" ++ utf8 authKey.chars ++ [newline]) =
    some (lit "key", utf8 authKey.chars) := by
  have hline := plainLine (show OptionName (lit "key") by decide) (authKey_plain authKey)
  simpa only [lit_key, List.append_assoc, List.cons_append, List.nil_append] using hline

theorem idLine (newId : Nat) : lineAssignment (lit "id=" ++ lit (toString newId) ++ [newline]) =
    some (lit "id", lit (toString newId)) := by
  have hline := plainLine (show OptionName (lit "id") by decide) (decimal_plain newId)
  simpa only [lit_id, List.append_assoc, List.cons_append, List.nil_append] using hline

theorem nameLine (name : EndpointName) : lineAssignment (lit "name=" ++ firstLine name.chars) =
    some (lit "name", (firstLine name.chars).rdropWhile isBlank) := by
  have hline := lineAssignment_option (show OptionName (lit "name") by decide)
    (firstLine_noNul name)
  simpa only [lit_name, List.append_assoc, List.singleton_append] using hline

/-! ### What the agent reads -/

def url : List UInt8 := lit "http://localhost:5001/submit_logs"

theorem commentLine : (trim (lit "# Endpoint Configuration File" ++ [newline])).isSome = true := by
  decide

theorem apiLine : lineAssignment (lit "api=http://localhost:5001/submit_logs" ++ [newline]) =
    some (lit "api", url) := by
  decide

theorem bufferLine : lineAssignment (lit "buffer_size=65" ++ [newline]) =
    some (lit "buffer_size", lit "65") := by
  decide

theorem batchLine : lineAssignment (lit "batch_size=25" ++ [newline]) =
    some (lit "batch_size", lit "25") := by
  decide

section Reading
variable (authKey : AuthKey) (name : EndpointName) (newId : Nat)

/-- What the lines of a name assign. -/
def nameAssignments : List (List UInt8 × List UInt8) :=
  (lit "name", (firstLine name.chars).rdropWhile isBlank) :: assignments (continuation name.chars)

/-- **The template's assignments, with those of the name in between.** -/
theorem configFile_assignments : assignments (lines (configBytes authKey name.chars newId)) =
    [(lit "api", url), (lit "key", utf8 authKey.chars)] ++ nameAssignments name ++
      [(lit "id", lit (toString newId)), (lit "buffer_size", lit "65"), (lit "batch_size", lit "25")] := by
  have hcomment : lineAssignment (lit "# Endpoint Configuration File" ++ [newline]) = none := by
    decide
  rw [configBytes_lines, assignments_append, assignments_append]
  simp only [assignments, List.filterMap_cons, List.filterMap_nil, hcomment, apiLine, keyLine, nameLine,
    idLine, bufferLine, batchLine, nameAssignments]

/-- The file can be read where the lines the name adds can. -/
theorem configFile_readable :
    Readable (lines (configBytes authKey name.chars newId)) ↔ Readable (continuation name.chars) := by
  rw [configBytes_lines, readable_append, readable_append, readable_cons commentLine,
    readable_cons (readable_of_lineAssignment apiLine),
    readable_cons (readable_of_lineAssignment (keyLine authKey)),
    readable_cons (readable_of_lineAssignment (nameLine name)),
    readable_cons (readable_of_lineAssignment (idLine newId)),
    readable_cons (readable_of_lineAssignment bufferLine),
    readable_cons (readable_of_lineAssignment batchLine)]
  have hnil : Readable [] := fun l hl => absurd hl List.not_mem_nil
  simp only [hnil, true_and, and_true]

/-- The value the file gives to an option of the template above the name. -/
def overridden (key : String) (value : List UInt8) : List UInt8 :=
  (lastAssigned (lit key) (assignments (continuation name.chars))).getD value

/-- The configuration after the loop. -/
def loadedConfig : Config :=
  (assignments (lines (configBytes authKey name.chars newId))).foldl setOption .zero

/-- Of the template's options the name can override the first two, and only them. -/
theorem loadedConfig_eq :
    (loadedConfig authKey name newId).api = .holding 256 (overridden name "api" url) ∧
    (loadedConfig authKey name newId).key = .holding 128 (overridden name "key" (utf8 authKey.chars)) ∧
    (loadedConfig authKey name newId).name = .holding 64
      (overridden name "name" ((firstLine name.chars).rdropWhile isBlank)) ∧
    (loadedConfig authKey name newId).id = .holding 64 (lit (toString newId)) ∧
    (loadedConfig authKey name newId).bufferSize = 65 ∧
    (loadedConfig authKey name newId).batchSize = 25 := by
  have hbuffer : bufferSizeOf (lit "65") = 65 := by decide
  have hbatch : batchSizeOf (lit "25") = 25 := by decide
  unfold loadedConfig overridden
  rw [configFile_assignments, foldl_api Config.zero_closed, foldl_key Config.zero_closed,
    foldl_name Config.zero_closed, foldl_id Config.zero_closed, foldl_bufferSize Config.zero_closed,
    foldl_batchSize Config.zero_closed]
  simp +decide only [lastAssigned_append, nameAssignments, lastAssigned_cons, lastAssigned_nil,
    if_true, if_false, Option.none_or, Option.or_none, Option.some_or, Option.map_some, Option.getD_some,
    hbuffer, hbatch]
  have hor : ∀ {β : Type} (o : Option (List UInt8)) (v : List UInt8) (g : List UInt8 → β) (d : β),
      ((o.or (some v)).map g).getD d = g (o.getD v) := fun o v g d => by cases o <;> rfl
  simp only [hor, true_and]

theorem loadConfig_configFile : loadConfig (configFile authKey name.chars newId) =
    if Readable (continuation name.chars) then some (finishLoad (loadedConfig authKey name newId))
    else none := by
  rw [configFile_some]
  show ((lines _).foldlM loadLine Config.zero).map finishLoad = _
  rw [load_lines]
  simp only [configFile_readable]
  split <;> rfl

end Reading

end EndpointSecurity.Deployment
