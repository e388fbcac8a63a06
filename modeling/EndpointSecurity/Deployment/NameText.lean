import EndpointSecurity.Deployment.ConfigFile

/-! What the name of an endpoint does to its agent's configuration.

The template puts the name where it stands, line breaks and all, below `api` and `key`
and above the other options. So its further lines can override `api` and `key`, and a
blank one among them leaves `trim` without a bound; `sameSettings_iff` is the exact
condition for two names to make no difference. The name itself is kept whole exactly
up to 63 bytes, while the database counts 64 characters (`faithful_iff`). -/
namespace EndpointSecurity.Deployment
open Library Agent Server

/-! ### Two names -/

/-- Both files load, and to the same settings except for the name. -/
def SameSettings (a b : Option Loaded) : Prop :=
  ∃ r s, a = some r ∧ b = some s ∧ r.config.api.string = s.config.api.string ∧
    r.config.key.string = s.config.key.string ∧ r.config.id.string = s.config.id.string ∧
    r.config.bufferSize = s.config.bufferSize ∧ r.config.batchSize = s.config.batchSize

/-- The lines two names add leave the template's options alike: none of them is blank,
and what they assign to `api` and `key` is the same as far as the arrays take it. -/
structure AddAlike (authKey : AuthKey) (s t : EndpointName) : Prop where
  readable : Readable (continuation s.chars) ∧ Readable (continuation t.chars)
  api : (overridden s "api" url).take 255 = (overridden t "api" url).take 255
  key : (overridden s "key" (utf8 authKey.chars)).take 127 = (overridden t "key" (utf8 authKey.chars)).take 127

theorem overridden_noNul (name : EndpointName) (key : String) {value : List UInt8} (h : 0 ∉ value) :
    0 ∉ overridden name key value := by
  unfold overridden
  cases hlast : lastAssigned (lit key) (assignments (continuation name.chars)) with
  | none => exact h
  | some v => exact assignments_noNul (lastAssigned_mem hlast)

/-- The template's sizes leave the buffer as it is. -/
theorem ensureBuffer_template {c : Config} (hb : c.bufferSize = 65) (ht : c.batchSize = 25) :
    ensureBuffer c = c := by
  unfold ensureBuffer
  rw [hb, ht, if_neg (by decide)]

theorem finishLoad_config {c : Config} (hb : c.bufferSize = 65) (ht : c.batchSize = 25) :
    (finishLoad c).config = c := by
  unfold finishLoad
  rw [ensureBuffer_template hb ht]
  split <;> rfl

theorem finishLoad_valid {c : Config} (hb : c.bufferSize = 65) (ht : c.batchSize = 25)
    (hc : c.Valid) : finishLoad c = ⟨0, none, c⟩ := by
  unfold finishLoad
  rw [ensureBuffer_template hb ht, (validateConfig_eq_none c).mpr hc]

/-- **The names make no difference to the other settings exactly where the lines they
add leave the template's options alike.** -/
theorem sameSettings_iff (authKey : AuthKey) (newId : EndpointId) (s t : EndpointName) :
    SameSettings (loadConfig (configFile authKey s.chars newId.val))
      (loadConfig (configFile authKey t.chars newId.val)) ↔ AddAlike authKey s t := by
  have hurl : 0 ∉ url := by decide
  have hkey : 0 ∉ utf8 authKey.chars := (authKey_plain authKey).noNul
  obtain ⟨hsapi, hskey, _, hsid, hsbuffer, hsbatch⟩ := loadedConfig_eq authKey s newId.val
  obtain ⟨htapi, htkey, _, htid, htbuffer, htbatch⟩ := loadedConfig_eq authKey t newId.val
  have hsconfig := finishLoad_config hsbuffer hsbatch
  have htconfig := finishLoad_config htbuffer htbatch
  rw [loadConfig_configFile, loadConfig_configFile]
  by_cases hs : Readable (continuation s.chars)
  · by_cases ht : Readable (continuation t.chars)
    · have hsame : SameSettings (some (finishLoad (loadedConfig authKey s newId.val)))
          (some (finishLoad (loadedConfig authKey t newId.val))) ↔
          (overridden s "api" url).take 255 = (overridden t "api" url).take 255 ∧
            (overridden s "key" (utf8 authKey.chars)).take 127 =
              (overridden t "key" (utf8 authKey.chars)).take 127 := by
        simp only [SameSettings, Option.some.injEq, exists_eq_left', exists_and_left, hsconfig,
          htconfig, hsapi, hskey, hsid, hsbuffer, hsbatch, htapi, htkey, htid, htbuffer, htbatch,
          CArray.holding_string (show 0 < 256 by decide) (overridden_noNul _ _ hurl),
          CArray.holding_string (show 0 < 128 by decide) (overridden_noNul _ _ hkey)]
        simp
      rw [if_pos hs, if_pos ht, hsame]
      exact ⟨fun ⟨ha, hk⟩ => ⟨⟨hs, ht⟩, ha, hk⟩, fun h => ⟨h.api, h.key⟩⟩
    · rw [if_neg ht]
      exact iff_of_false (fun ⟨_, _, _, h, _⟩ => by cases h) fun h => ht h.readable.2
  · rw [if_neg hs]
    exact iff_of_false (fun ⟨_, _, h, _⟩ => by cases h) fun h => hs h.readable.1

def sampleKey : AuthKey where
  chars := List.replicate 43 'A'
  length := List.length_replicate
  urlSafe c hc := by
    rw [List.eq_of_mem_replicate hc]
    decide

def plainName : EndpointName := ⟨['x'], by decide, by decide, ['x'], rfl⟩

/-- A name with a second line. -/
def twoLineName : EndpointName :=
  ⟨"x\napi=http://evil".toList, by decide, by decide, "x\napi=http://evil".toList, by decide⟩

/-- The agent of the second reports to another server. -/
theorem twoLineName_redirects :
    ¬ SameSettings (loadConfig (configFile sampleKey plainName.chars 1))
      (loadConfig (configFile sampleKey twoLineName.chars 1)) := by
  intro ⟨r, s, hr, hs, hapi, _⟩
  have hplain : (loadConfig (configFile sampleKey plainName.chars 1)).map (·.config.api.string) =
      some url := by decide +kernel
  have htwo : (loadConfig (configFile sampleKey twoLineName.chars 1)).map (·.config.api.string) =
      some (lit "http://evil") := by decide +kernel
  rw [hr, Option.map_some, Option.some.injEq] at hplain
  rw [hs, Option.map_some, Option.some.injEq] at htwo
  rw [hplain, htwo] at hapi
  exact absurd hapi (by decide)

/-! ### One name -/

/-- A name of one line, as short as the database asks for, with no blank at its end. -/
structure PlainName where
  chars : List Char
  nonempty : chars ≠ []
  noNul : Char.ofNat 0 ∉ chars
  oneLine : '\n' ∉ chars
  solidEnd : ∀ c ∈ chars.getLast?, c ≠ ' ' ∧ c ≠ '\t' ∧ c ≠ '\r'
  short : chars.length ≤ 64

def PlainName.toEndpointName (name : PlainName) : EndpointName :=
  ⟨name.chars, name.nonempty, name.noNul, name.chars, varchar_fits name.short⟩

/-- The file loads, to what was written into it, and its key is the one that is sent. -/
structure ReadBack (authKey : AuthKey) (name : List Char) (newId : Nat) (r : Loaded) : Prop where
  ret : r.ret = 0
  api : r.config.api.string = url
  key : r.config.key.string = utf8 authKey.chars
  name : r.config.name.string = utf8 name
  id : r.config.id.string = lit (toString newId)
  bufferSize : r.config.bufferSize = 65
  batchSize : r.config.batchSize = 25
  header : authHeader r.config = lit "Authorization: Bearer " ++ utf8 authKey.chars

/-- Every byte of a character that is not blank is not blank. -/
theorem isBlank_utf8EncodeChar {c : Char} (hs : c ≠ ' ') (hn : c ≠ '\n') (ht : c ≠ '\t') (hr : c ≠ '\r')
    {b : UInt8} (hb : b ∈ String.utf8EncodeChar c) : isBlank b = false := by
  by_contra hblank
  simp only [isBlank, Bool.not_eq_false, Bool.or_eq_true, beq_iff_eq, or_assoc] at hblank
  rcases hblank with rfl | rfl | rfl | rfl
  · exact hs ((mem_utf8EncodeChar (by decide)).mp hb)
  · exact hn ((mem_utf8EncodeChar (by decide)).mp hb)
  · exact ht ((mem_utf8EncodeChar (by decide)).mp hb)
  · exact hr ((mem_utf8EncodeChar (by decide)).mp hb)

theorem PlainName.getLast_solid (name : PlainName) :
    ∀ b ∈ (utf8 name.chars).getLast?, isBlank b = false := by
  intro b hb
  obtain ⟨s, c, hc⟩ := List.eq_nil_or_concat name.chars |>.resolve_left name.nonempty
  rw [List.concat_eq_append] at hc
  rw [hc, utf8_append, utf8_cons, utf8_nil, List.append_nil] at hb
  have hne : String.utf8EncodeChar c ≠ [] := by simp [String.utf8EncodeChar_ne_nil]
  rw [List.getLast?_append_of_ne_nil _ hne] at hb
  have hsolid := name.solidEnd c (by rw [hc]; simp)
  have hline : c ≠ '\n' := fun h => name.oneLine (by rw [hc, h]; simp)
  exact isBlank_utf8EncodeChar hsolid.1 hline hsolid.2.1 hsolid.2.2 (List.mem_of_mem_getLast? hb)

/-- A name of one line adds no lines. -/
theorem PlainName.lines (name : PlainName) :
    firstLine name.chars = utf8 name.chars ++ [newline] ∧ continuation name.chars = [] := by
  have hline : newline ∉ utf8 name.chars := fun h => name.oneLine ((mem_utf8 (by decide)).mp h)
  have hlines := lines_append_newline hline []
  rw [firstLine, continuation, hlines]
  exact ⟨rfl, rfl⟩

theorem isUrlSafe_ascii {c : Char} (h : isUrlSafe c = true) : c.toNat < 128 := by
  have hcases : (((decide (65 ≤ c.val ∧ c.val ≤ 90) || (decide (97 ≤ c.val) && decide (c.val ≤ 122))) ||
      (decide (48 ≤ c.val) && decide (c.val ≤ 57))) || c == '-' || c == '_') = true := h
  simp only [Bool.or_eq_true, Bool.and_eq_true, decide_eq_true_eq, beq_iff_eq,
    UInt32.le_iff_toNat_le] at hcases
  show c.val.toNat < 128
  rcases hcases with (((h | h) | h) | rfl) | rfl
  · exact Nat.lt_of_le_of_lt h.2 (by decide)
  · exact Nat.lt_of_le_of_lt h.2 (by decide)
  · exact Nat.lt_of_le_of_lt h.2 (by decide)
  · decide
  · decide

theorem length_utf8_key (authKey : AuthKey) : (utf8 authKey.chars).length = 43 := by
  rw [length_utf8_ascii, authKey.length]
  exact fun c hc => isUrlSafe_ascii (authKey.urlSafe c hc)

/-- The decimal of an id has at most ten digits. -/
theorem length_decimal (newId : EndpointId) : (lit (toString newId.val)).length ≤ 10 := by
  have hlt : newId.val < 10 ^ 10 := by
    have hfits : (newId.val : Int) ≤ 2147483647 := newId.fits
    omega
  have hdigits : (toString newId.val).toList = Nat.toDigits 10 newId.val := Nat.toList_repr
  rw [lit, hdigits, length_utf8_ascii]
  · exact (Nat.length_toDigits_le_iff (by decide) (by decide)).mpr hlt
  · intro c hc
    rw [← hdigits] at hc
    exact isUrlSafe_ascii (decimal_urlSafe newId.val c hc)

/-- What the agent makes of a name of one line. -/
theorem loadConfig_plain (authKey : AuthKey) (name : PlainName) (newId : EndpointId) :
    ∃ c : Config, loadConfig (configFile authKey name.chars newId.val) = some ⟨0, none, c⟩ ∧
      c.api.string = url ∧ c.key.string = utf8 authKey.chars ∧
      c.name.string = (utf8 name.chars).take 63 ∧ c.id.string = lit (toString newId.val) ∧
      c.bufferSize = 65 ∧ c.batchSize = 25 := by
  obtain ⟨hfirst, hmore⟩ := name.lines
  obtain ⟨hapi, hkey, hname, hid, hbuffer, hbatch⟩ := loadedConfig_eq authKey name.toEndpointName newId.val
  have hover : ∀ key value, overridden name.toEndpointName key value = value := by
    intro key value
    show (lastAssigned (lit key) (assignments (continuation name.chars))).getD value = value
    rw [hmore]
    rfl
  have hvalue : (firstLine name.toEndpointName.chars).rdropWhile isBlank = utf8 name.chars := by
    show (firstLine name.chars).rdropWhile isBlank = _
    rw [hfirst, rdropWhile_line name.getLast_solid]
  have hnul : 0 ∉ utf8 name.chars := fun h => name.noNul ((mem_utf8 (by decide)).mp h)
  rw [hover] at hapi hkey hname
  rw [hvalue] at hname
  have hapis : (loadedConfig authKey name.toEndpointName newId.val).api.string = url := by
    rw [hapi]
    decide
  have hkeys : (loadedConfig authKey name.toEndpointName newId.val).key.string = utf8 authKey.chars := by
    rw [hkey, CArray.holding_string (by decide) (authKey_plain authKey).noNul,
      List.take_of_length_le (by rw [length_utf8_key]; decide)]
  have hnames : (loadedConfig authKey name.toEndpointName newId.val).name.string =
      (utf8 name.chars).take 63 := by
    rw [hname, CArray.holding_string (by decide) hnul]
  have hids : (loadedConfig authKey name.toEndpointName newId.val).id.string = lit (toString newId.val) := by
    rw [hid, CArray.holding_string (by decide) (decimal_plain newId.val).noNul,
      List.take_of_length_le (by have := length_decimal newId; omega)]
  have hvalid : (loadedConfig authKey name.toEndpointName newId.val).Valid := by
    refine ⟨?_, ?_, ?_, ?_, by rw [hbuffer]; decide, by rw [hbatch]; decide⟩
    · rw [hapis]
      decide
    · rw [hkeys]
      intro h
      have hlength := length_utf8_key authKey
      rw [h] at hlength
      cases hlength
    · rw [hnames]
      intro h
      have hempty : utf8 name.chars = utf8 [] := (List.take_eq_nil_iff.mp h).resolve_left (by decide)
      exact name.nonempty (utf8_inj.mp hempty)
    · rw [hids]
      intro h
      have hempty : utf8 (toString newId.val).toList = utf8 [] := h
      exact Nat.toDigits_ne_nil (by rw [← Nat.toList_repr]; exact utf8_inj.mp hempty)
  refine ⟨_, ?_, hapis, hkeys, hnames, hids, hbuffer, hbatch⟩
  have hreadable : Readable (continuation name.toEndpointName.chars) := by
    show Readable (continuation name.chars)
    rw [hmore]
    decide
  have hload := loadConfig_configFile authKey name.toEndpointName newId.val
  rw [if_pos hreadable, finishLoad_valid hbuffer hbatch hvalid] at hload
  exact hload

/-- **The file is read back faithfully exactly where the encoded name fits 63 bytes.** -/
theorem faithful_iff (authKey : AuthKey) (name : PlainName) (newId : EndpointId) :
    (∃ r, loadConfig (configFile authKey name.chars newId.val) = some r ∧
      ReadBack authKey name.chars newId.val r) ↔ (utf8 name.chars).length ≤ 63 := by
  obtain ⟨c, hload, hapi, hkey, hname, hid, hbuffer, hbatch⟩ := loadConfig_plain authKey name newId
  have hheader : authHeader c = lit "Authorization: Bearer " ++ utf8 authKey.chars := by
    have hlength := length_utf8_key authKey
    have hbearer : (lit "Authorization: Bearer ").length = 22 := by decide
    rw [authHeader, hkey, List.take_of_length_le]
    rw [List.length_append, hlength, hbearer]
    decide
  refine ⟨fun ⟨r, hr, hread⟩ => ?_, fun hshort => ⟨_, hload, rfl, hapi, hkey, ?_, hid, hbuffer, hbatch, hheader⟩⟩
  · obtain rfl := Option.some.inj (hload.symm.trans hr)
    have hwhole : (utf8 name.chars).take 63 = utf8 name.chars := hname.symm.trans hread.name
    have hlength := congrArg List.length hwhole
    rw [List.length_take] at hlength
    omega
  · rw [hname, List.take_of_length_le hshort]

/-- A name of 64 letters: the column takes it, the agent drops the last one. -/
def longName : PlainName where
  chars := List.replicate 64 'a'
  nonempty := by simp
  noNul h := absurd (List.eq_of_mem_replicate h) (by decide)
  oneLine h := absurd (List.eq_of_mem_replicate h) (by decide)
  solidEnd c hc := by
    rw [List.eq_of_mem_replicate (List.mem_of_mem_getLast? hc)]
    decide
  short := Nat.le_of_eq List.length_replicate

theorem longName_cut : ¬ ∃ r, loadConfig (configFile sampleKey longName.chars 1) = some r ∧
    ReadBack sampleKey longName.chars 1 r := by
  intro ⟨r, hr, hread⟩
  obtain ⟨c, hload, _, _, hname, _⟩ := loadConfig_plain sampleKey longName ⟨1, by decide, by decide⟩
  obtain rfl := Option.some.inj (hload.symm.trans hr)
  have hwhole : (utf8 longName.chars).take 63 = utf8 longName.chars := hname.symm.trans hread.name
  exact absurd hwhole (by decide)

end EndpointSecurity.Deployment
