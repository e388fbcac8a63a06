import EndpointSecurity.Agent.Batches
import EndpointSecurity.Deployment.Delivery
import EndpointSecurity.Server.StatementShape
import Mathlib.Algebra.Order.BigOperators.Group.List

/-! What the server makes of any batch, and how long its text can get.

A tree whose text is UTF-8 is a tree of text (`render_isUtf8`), so `get_json` either
gives the decoded tree or a 400 (`getJson_render_eq`). A record takes at most `EVENT_SIZE`
bytes of the body, so no batch of a moderate buffer is too long to be printed. And the
debug output over decoded text always gets through a console that takes UTF-8. -/
namespace EndpointSecurity.Deployment
open Library Agent Server

/-! ### A text that decodes -/

theorem ascii_singleton {b : UInt8} (h : b.toNat < 128) : ∀ c ∈ [b], c.toNat < 128 := List.forall_mem_singleton.mpr h

theorem isUtf8_quoted {s rest : List UInt8} (h : isUtf8 (stringText s ++ rest) = true) :
    isUtf8 s = true ∧ isUtf8 rest = true := by
  rw [stringText, List.append_assoc, List.append_assoc] at h
  have hopened := isUtf8_ascii (ascii_singleton (b := 34) (by decide)) h
  obtain ⟨hs, hrest⟩ := isUtf8_split (b := 34) (by decide) hopened
  have hescaped : isUtf8 ([] ++ escaped s) = true := hs
  exact ⟨isUtf8_of_escaped hescaped, hrest⟩

theorem comma_ascii (p : Prop) [Decidable p] : ∀ b ∈ (if p then [] else [44] : List UInt8), b.toNat < 128 := by
  split
  · exact List.forall_mem_nil _
  · exact ascii_singleton (by decide)

theorem numberText_ascii (d : Whole) : ∀ b ∈ numberText d, b.toNat < 128 := by
  intro b hb
  rw [numberText, lit] at hb
  obtain ⟨c, hc, hmem⟩ := List.mem_flatMap.mp hb
  have hascii := toString_ascii d.val c hc
  rw [utf8EncodeChar_ascii hascii, List.mem_singleton] at hmem
  rw [hmem, UInt8.toNat_ofNat']
  omega

/-! ### Trees of text -/

theorem string_isSome {s : List UInt8} : (CJson.string s).tree.isSome = true ↔ isUtf8 s = true := by
  rw [CJson.tree, isUtf8]
  cases decodeUtf8 s <;> simp

theorem array_isSome {items : List CJson} :
    (CJson.array items).tree.isSome = true ↔ ∀ item ∈ items, item.tree.isSome = true := by
  rw [← mapM_isSome_iff, ← itemsTree_eq, CJson.tree]
  cases itemsTree items <;> simp

theorem membersTree_isSome {members : List (List UInt8 × CJson)} : (membersTree members).isSome = true ↔
    ∀ m ∈ members, isUtf8 m.1 = true ∧ m.2.tree.isSome = true := by
  induction members with
  | nil => simp [membersTree]
  | cons m members ih =>
    rw [membersTree, List.forall_mem_cons, ← ih, isUtf8]
    cases decodeUtf8 m.1 <;> cases m.2.tree <;> cases membersTree members <;> simp

theorem object_isSome {members : List (List UInt8 × CJson)} : (CJson.object members).tree.isSome = true ↔
    ∀ m ∈ members, isUtf8 m.1 = true ∧ m.2.tree.isSome = true := by
  rw [← membersTree_isSome, CJson.tree]
  cases membersTree members <;> simp

mutual
/-- What is printed in UTF-8 was a tree of text. -/
theorem render_isUtf8 : ∀ (c : CJson) {rest : List UInt8}, isUtf8 (render c ++ rest) = true →
    c.tree.isSome = true ∧ isUtf8 rest = true
  | .number d, rest, h => ⟨rfl, isUtf8_ascii (numberText_ascii d) h⟩
  | .string s, rest, h => by
    obtain ⟨hs, hrest⟩ := isUtf8_quoted h
    obtain ⟨t, ht⟩ := Option.isSome_iff_exists.mp hs
    rw [CJson.tree, ht]
    exact ⟨rfl, hrest⟩
  | .array items, rest, h => by
    rw [render, List.append_assoc, List.append_assoc] at h
    obtain ⟨hitems, hclosed⟩ := renderItems_isUtf8 items (isUtf8_ascii (ascii_singleton (b := 91) (by decide)) h)
    obtain ⟨ts, hts⟩ := Option.isSome_iff_exists.mp hitems
    rw [CJson.tree, hts]
    exact ⟨rfl, isUtf8_ascii (ascii_singleton (b := 93) (by decide)) hclosed⟩
  | .object members, rest, h => by
    rw [render, List.append_assoc, List.append_assoc] at h
    obtain ⟨hmembers, hclosed⟩ := renderMembers_isUtf8 members (isUtf8_ascii (ascii_singleton (b := 123) (by decide)) h)
    obtain ⟨ts, hts⟩ := Option.isSome_iff_exists.mp hmembers
    rw [CJson.tree, hts]
    exact ⟨rfl, isUtf8_ascii (ascii_singleton (b := 125) (by decide)) hclosed⟩

theorem renderItems_isUtf8 : ∀ (items : List CJson) {rest : List UInt8},
    isUtf8 (renderItems items ++ rest) = true → (itemsTree items).isSome = true ∧ isUtf8 rest = true
  | [], rest, h => ⟨rfl, h⟩
  | item :: items, rest, h => by
    rw [renderItems, List.append_assoc, List.append_assoc] at h
    obtain ⟨hitem, hmore⟩ := render_isUtf8 item h
    obtain ⟨hitems, hrest⟩ := renderItems_isUtf8 items (isUtf8_ascii (comma_ascii _) hmore)
    obtain ⟨t, ht⟩ := Option.isSome_iff_exists.mp hitem
    obtain ⟨ts, hts⟩ := Option.isSome_iff_exists.mp hitems
    rw [itemsTree, ht, hts]
    exact ⟨rfl, hrest⟩

theorem renderMembers_isUtf8 : ∀ (members : List (List UInt8 × CJson)) {rest : List UInt8},
    isUtf8 (renderMembers members ++ rest) = true →
    (membersTree members).isSome = true ∧ isUtf8 rest = true
  | [], rest, h => ⟨rfl, h⟩
  | (name, item) :: members, rest, h => by
    rw [renderMembers, List.append_assoc, List.append_assoc, List.append_assoc, List.append_assoc] at h
    obtain ⟨hname, hvalue⟩ := isUtf8_quoted h
    obtain ⟨hitem, hmore⟩ := render_isUtf8 item (isUtf8_ascii (ascii_singleton (b := 58) (by decide)) hvalue)
    obtain ⟨hmembers, hrest⟩ := renderMembers_isUtf8 members (isUtf8_ascii (comma_ascii _) hmore)
    obtain ⟨s, hs⟩ := Option.isSome_iff_exists.mp hname
    obtain ⟨t, ht⟩ := Option.isSome_iff_exists.mp hitem
    obtain ⟨ts, hts⟩ := Option.isSome_iff_exists.mp hmembers
    rw [membersTree, hs, ht, hts]
    exact ⟨rfl, hrest⟩
end

/-- **The server gets the decoded tree, or answers 400.** -/
theorem getJson_render_eq (pyFloat : List Char → List CodePoint) (c : CJson) :
    getJson pyFloat (render c) = match c.tree with
      | some t => .ok t.json
      | none => .error 400 := by
  cases htree : c.tree with
  | some t => exact getJson_render pyFloat htree
  | none =>
    have hnot : decodeUtf8 (render c) = none := by
      cases hdecode : decodeUtf8 (render c) with
      | none => rfl
      | some s =>
        have hutf8 : isUtf8 (render c ++ []) = true := by rw [List.append_nil, isUtf8, hdecode]; rfl
        have hsome := (render_isUtf8 c hutf8).1
        rw [htree] at hsome
        cases hsome
    rw [getJson, hnot]
    rfl

/-! ### A batch of records -/

section Batch
variable {c : Config} {clock : Nat → Timespec} {events : List Event}

/-- The events of a batch, decoded: each shows the record at its place. -/
def ShowsBatch (clock : Nat → Timespec) (events : List Event) (items : List Json) : Prop :=
  items.length = events.length ∧ ∀ k (hk : k < events.length), ∃ filename argv,
    items[k]? = some (eventTree (clock k) events[k].reading filename argv).json

theorem batchObject_tree (clock : Nat → Timespec) (id : List Char) (hsafe : ∀ e ∈ events, e.Safe)
    (htext : ∀ e ∈ events, IsText e) :
    ∃ ts : List Tree, (batchObject (utf8 id) clock (events.map Event.reading)).tree =
        some (.obj [("id".toList, .str id), ("events".toList, .arr ts)]) ∧
      ShowsBatch clock events (ts.map Tree.json) := by
  have hlength : ((events.map Event.reading).mapIdx fun k r => eventObject (clock k) r).length =
      events.length := by simp
  have hplaces : ∀ k (hk : k < ((events.map Event.reading).mapIdx fun k r => eventObject (clock k) r).length),
      ∃ t, (((events.map Event.reading).mapIdx fun k r => eventObject (clock k) r)[k]).tree = some t ∧
        ∀ hk : k < events.length, ∃ filename argv,
          t = eventTree (clock k) events[k].reading filename argv := by
    intro k hk
    have hk' : k < events.length := hlength ▸ hk
    have he := List.getElem_mem hk'
    obtain ⟨filename, hfile⟩ := isUtf8_iff.mp (htext _ he).1
    obtain ⟨argv, hargs⟩ := forall_isUtf8 (args_isUtf8 (hsafe _ he) (htext _ he))
    refine ⟨eventTree (clock k) events[k].reading filename argv, ?_, fun _ => ⟨filename, argv, rfl⟩⟩
    simpa using eventObject_tree (clock k) (r := events[k].reading) hfile hargs
  obtain ⟨ts, hts, hcount, hshow⟩ := mapM_places hplaces
  rw [hlength] at hcount hshow
  refine ⟨ts, ?_, by rw [List.length_map, hcount], fun k hk => ?_⟩
  · simp only [batchObject, CJson.tree, membersTree, itemsTree_eq, decodeUtf8_lit, decodeUtf8_utf8, hts,
      Option.bind_eq_bind, Option.bind_some]
    rfl
  · obtain ⟨t, ht, htree⟩ := hshow k hk
    obtain ⟨filename, argv, rfl⟩ := htree hk
    exact ⟨filename, argv, by rw [List.getElem?_map, ht]; rfl⟩

theorem eventObject_isText (now : Timespec) {e : Event}
    (h : (eventObject now e.reading).tree.isSome = true) : IsText e := by
  rw [eventObject, object_isSome] at h
  have hfile := (h (lit "filename", .string e.filename.string) (by simp [Event.reading])).2
  have hargv := (h (lit "argv", .array (((List.range e.argc.toNat).map e.arg).map .string))
    (by simp [Event.reading])).2
  rw [array_isSome] at hargv
  refine ⟨string_isSome.mp hfile, fun j hj => ?_⟩
  have harg := hargv (.string (e.arg j.val)) (List.mem_map_of_mem
    (List.mem_map_of_mem (List.mem_range.mpr hj)))
  rw [string_isSome, e.arg_fin] at harg
  exact harg

/-- One string that is not text, and the batch is none. -/
theorem batchObject_isText {id : List UInt8}
    (h : (batchObject id clock (events.map Event.reading)).tree.isSome = true) :
    ∀ e ∈ events, IsText e := by
  intro e he
  obtain ⟨k, hk, rfl⟩ := List.mem_iff_getElem.mp he
  rw [batchObject, object_isSome] at h
  have hevents := (h (lit "events", .array
    ((events.map Event.reading).mapIdx fun k r => eventObject (clock k) r)) (by simp)).2
  rw [array_isSome] at hevents
  refine eventObject_isText (clock k) (hevents _ ?_)
  rw [List.mem_mapIdx]
  exact ⟨k, by simpa using hk, by simp⟩

/-- **What `get_json` gives for the text of a batch.** -/
theorem getJson_batch (pyFloat : List Char → List CodePoint) (clock : Nat → Timespec) (id : List Char)
    (hsafe : ∀ e ∈ events, e.Safe) :
    ((∀ e ∈ events, IsText e) → ∃ items,
        getJson pyFloat (render (batchObject (utf8 id) clock (events.map Event.reading))) =
          .ok (.obj [(py "id", .str (points id)), (py "events", .arr items)]) ∧
        ShowsBatch clock events items) ∧
      ((¬ ∀ e ∈ events, IsText e) →
        getJson pyFloat (render (batchObject (utf8 id) clock (events.map Event.reading))) = .error 400) := by
  rw [getJson_render_eq]
  refine ⟨fun htext => ?_, fun hnot => ?_⟩
  · obtain ⟨ts, htree, hshow⟩ := batchObject_tree clock id hsafe htext
    refine ⟨ts.map Tree.json, ?_, hshow⟩
    rw [htree]
    simp only [Tree.json, Tree.membersJson, Tree.itemsJson_eq]
    rfl
  · cases htree : (batchObject (utf8 id) clock (events.map Event.reading)).tree with
    | none => rfl
    | some t => exact absurd (batchObject_isText (Option.isSome_iff_exists.mpr ⟨t, htree⟩)) hnot

end Batch

/-! ### How long a batch gets -/

theorem escapeCharacters_le (s : List UInt8) : escapeCharacters s ≤ 5 * s.length := by
  induction s with
  | nil => exact Nat.le_refl 0
  | cons b s ih =>
    simp only [escapeCharacters, List.map_cons, List.sum_cons, List.length_cons] at ih ⊢
    split_ifs <;> omega

theorem stringSize_le {s : List UInt8} {n : Nat} (h : s.length < n) : stringSize s + 4 ≤ 6 * n := by
  have hescape := escapeCharacters_le s
  rw [stringSize]
  omega

/-- A whole number cJSON prints takes sixteen bytes. -/
theorem numberSize_le {n : Int} (h : n.natAbs < 10 ^ 15) : numberSize n ≤ 16 := by
  have hdigits : ∀ m, m < 10 ^ 15 → (Nat.toDigits 10 m).length ≤ 15 := fun m hm =>
    (Nat.length_toDigits_le_iff (by decide) (by decide)).mpr hm
  rw [numberSize, ← String.length_toList]
  cases n with
  | ofNat n =>
    rw [Json.toString_ofNat]
    have hn := hdigits n h
    omega
  | negSucc n =>
    rw [Json.toString_negSucc, List.length_cons]
    have hn := hdigits (n + 1) h
    omega

theorem separated_le {lengths : List Nat} {bound : Nat} (h : ∀ n ∈ lengths, n ≤ bound) :
    separated lengths ≤ lengths.length * (bound + 1) := by
  have hsum : lengths.sum ≤ lengths.length * bound := List.sum_le_card_nsmul lengths bound h
  rw [separated, Nat.mul_succ]
  omega

/-- The most bytes a record adds to the text. -/
abbrev EVENT_SIZE : Nat := 20886

theorem eventSize_le (now : Timespec) {e : Event} (hsafe : e.Safe) :
    eventSize now e.reading ≤ EVENT_SIZE := by
  have hfile : e.filename.string.length < PATH_LEN := by
    have hlt := length_cString_lt hsafe.filename
    rwa [e.filename.size] at hlt
  have hargs : ∀ n ∈ e.reading.argv.map stringSize, n ≤ 764 := by
    intro n hn
    obtain ⟨s, hs, rfl⟩ := List.mem_map.mp hn
    obtain ⟨j, hj, rfl⟩ := List.mem_map.mp hs
    have hlt := Nat.lt_of_lt_of_le (List.mem_range.mp hj) hsafe.argc
    have hterm := length_cString_lt (hsafe.argv ⟨j, hlt⟩ (List.mem_range.mp hj))
    rw [(e.argv ⟨j, hlt⟩).size] at hterm
    have harg : (e.arg j).length < ARG_LEN := by rw [Event.arg, dif_pos hlt]; exact hterm
    have hsize : stringSize (e.arg j) + 4 ≤ 6 * 128 := stringSize_le harg
    omega
  have hargv := separated_le hargs
  have hcount : (e.reading.argv.map stringSize).length = e.argc.toNat := by simp [Event.reading]
  rw [hcount] at hargv
  have hargc : e.argc.toNat ≤ 25 := hsafe.argc
  have hfilename : stringSize e.reading.filename + 4 ≤ 6 * 256 := stringSize_le hfile
  have htime := numberSize_le (wholeOfUInt64 _ (convertNsToUnix_small now e.reading.timestamp)).small
  have hcall := numberSize_le (wholeOfInt32 e.reading.call).small
  have hpid := numberSize_le (wholeOfUInt32 e.reading.pid).small
  have hppid := numberSize_le (wholeOfUInt32 e.reading.ppid).small
  have hn := numberSize_le (wholeOfUInt32 e.reading.argc).small
  simp only [wholeOfUInt64, wholeOfInt32, wholeOfUInt32] at htime hcall hpid hppid hn
  show eventSize now e.reading ≤ 20886
  rw [eventSize]
  omega

/-- **No batch of up to 100000 records is too long to be printed.** -/
theorem batchSize_fits {id : List UInt8} (clock : Nat → Timespec) {events : List Event}
    (hid : id.length < 64) (hsafe : ∀ e ∈ events, e.Safe) (hcount : events.length ≤ 100000) :
    batchSize id clock (events.map Event.reading) + 2 ≤ INT_MAX := by
  have hids := stringSize_le hid
  have hsizes : ∀ n ∈ (events.map Event.reading).mapIdx fun k r => eventSize (clock k) r, n ≤ EVENT_SIZE := by
    intro n hn
    obtain ⟨k, hk, rfl⟩ := List.mem_mapIdx.mp hn
    rw [List.length_map] at hk
    rw [List.getElem_map]
    exact eventSize_le (clock k) (hsafe _ (List.getElem_mem hk))
  have hevents := separated_le hsizes
  rw [List.length_mapIdx, List.length_map] at hevents
  have hmost : events.length * (EVENT_SIZE + 1) ≤ 100000 * 20887 := Nat.mul_le_mul_right _ hcount
  have hmax : INT_MAX = 2147483647 := rfl
  rw [batchSize]
  omega

/-! ### The debug output -/

/-- A string without surrogates. -/
def Scalars (s : List CodePoint) : Prop := ∀ p ∈ s, (scalar p).isSome = true

theorem scalars_append {s t : List CodePoint} (hs : Scalars s) (ht : Scalars t) : Scalars (s ++ t) :=
  List.forall_mem_append.mpr ⟨hs, ht⟩

theorem scalars_points (s : List Char) : Scalars (points s) := by
  intro p hp
  obtain ⟨c, -, rfl⟩ := List.mem_map.mp hp
  rw [scalar_codePoint]
  rfl

theorem scalars_commaJoin {texts : List (List CodePoint)} (h : ∀ s ∈ texts, Scalars s) :
    Scalars (commaJoin texts) := by
  induction texts with
  | nil => exact fun p hp => absurd hp List.not_mem_nil
  | cons s texts ih =>
    obtain ⟨hs, htexts⟩ := List.forall_mem_cons.mp h
    cases texts with
    | nil => exact fun p hp => hs p (by simpa [commaJoin] using hp)
    | cons t texts =>
      have hsplit : commaJoin (s :: t :: texts) = s ++ (py ", " ++ commaJoin (t :: texts)) := by
        simp [commaJoin]
      rw [hsplit]
      exact scalars_append hs (scalars_append (scalars_points _) (ih htexts))

/-- A server whose console takes UTF-8: a `print` fails on surrogates only, and `repr`
makes none. -/
structure Utf8Console (host : LogsHost) : Prop where
  prints : ∀ texts, (∀ s ∈ texts, Scalars s) → host.prints texts = true
  repr : ∀ s, Scalars s → Scalars (host.reprStr s)

section Console
variable {host : LogsHost}

theorem Utf8Console.printOk (hconsole : Utf8Console host) {values : List Json}
    (h : ∀ x ∈ values, Scalars (pyFormat host.reprStr x)) : printOk host values = true := by
  refine hconsole.prints _ fun s hs => ?_
  obtain ⟨x, hx, rfl⟩ := List.mem_map.mp hs
  exact h x hx

theorem Utf8Console.strings (hconsole : Utf8Console host) (texts : List (List Char)) :
    Scalars (pyFormat host.reprStr (.arr (texts.map fun s => .str (points s)))) := by
  have hitems : ∀ l : List (List Char), pyReprItems host.reprStr (l.map fun s => .str (points s)) =
      l.map fun s => host.reprStr (points s) := by
    intro l
    induction l with
    | nil => rfl
    | cons s l ih => rw [List.map_cons, pyReprItems, ih, pyRepr, List.map_cons]
  rw [pyFormat, pyRepr, hitems]
  · refine scalars_append (scalars_append (scalars_points _) (scalars_commaJoin fun s hs => ?_)) (scalars_points _)
    obtain ⟨t, -, rfl⟩ := List.mem_map.mp hs
    exact hconsole.repr _ (scalars_points t)
  · intro s h
    cases h

theorem printEvent_obj {members : List (List CodePoint × Json)}
    (h : ∀ m ∈ members, printOk host [.str m.1, m.2] = true) : printEvent host (.obj members) = some () := by
  refine forM_eq_some fun x hx => ?_
  obtain ⟨k, hk, rfl⟩ := List.mem_map.mp hx
  obtain ⟨v, hv⟩ := lastAssigned_isSome (List.mem_eraseDups.mp hk)
  show (lastAssigned k members).bind (fun value => if printOk host [.str k, value] then some () else none) = _
  rw [hv, Option.bind_some, if_pos (h _ (lastAssigned_mem hv))]

/-- Whatever the record, its decoded event can be printed. -/
theorem Utf8Console.printEvent (hconsole : Utf8Console host) (now : Timespec) (r : Reading)
    (filename : List Char) (argv : List (List Char)) :
    printEvent host (eventTree now r filename argv).json = some () := by
  have hname : ∀ s : String, Scalars (pyFormat host.reprStr (.str (py s))) := fun s => scalars_points _
  have hint : ∀ n : Int, Scalars (pyFormat host.reprStr (.int n)) := fun n => scalars_points _
  have hpair : ∀ {k : String} {x : Json}, Scalars (pyFormat host.reprStr x) →
      Server.printOk host [.str (py k), x] = true := fun hx =>
    hconsole.printOk (List.forall_mem_cons.mpr ⟨hname _, List.forall_mem_singleton.mpr hx⟩)
  rw [eventTree_json]
  apply printEvent_obj
  simp only [List.forall_mem_cons]
  exact ⟨hpair (hint _), hpair (hint _), hpair (hint _), hpair (hint _), hpair (scalars_points filename),
    hpair (hint _), hpair (hconsole.strings argv), fun m hm => absurd hm List.not_mem_nil⟩

end Console

end EndpointSecurity.Deployment
