import EndpointSecurity.Agent.CJson
import EndpointSecurity.Library.JsonRoundTrip
import EndpointSecurity.Library.Program

/-! cJSON's printer, byte by byte.

`printUnformatted` is about the text; here is the memory it is printed into. `ensure`
makes room and may move the block, every function stores behind `offset` and leaves a
NUL there, and `update_offset` looks for that NUL. The items are those the agent makes:
whole numbers, strings, arrays and objects. Whatever the allocator does, no store or
scan leaves the block (`printValue_meets`), the text is the one of the tree
(`print_text`), and a call that gives up leaves no block behind, and has been refused a
request of its own or is about a text too long for an `int`. -/
namespace EndpointSecurity.Agent
open Library Program

/-- `internal_hooks`. The `n`-th request for so many bytes may fail; what it gives
holds whatever was there. -/
structure Hooks where
  reallocates : Bool
  allocate : Nat → Nat → Option (Nat → UInt8)

/-- A `printbuffer`, with the sizes requested of the allocator so far and the number of
blocks that are allocated and not freed. -/
structure PrintBuffer where
  buffer : Option (List UInt8)
  length : Nat
  offset : Nat
  depth : Nat
  noalloc : Bool
  format : Bool
  requests : List Nat
  live : Nat

abbrev Print : Type → Type := Program PrintBuffer

namespace PrintBuffer

/-! ### Memory -/

/-- The bytes of a new block from a place on. -/
def filled (memory : Nat → UInt8) (start size : Nat) : List UInt8 :=
  (List.range (size - start)).map fun i => memory (start + i)

/-- `free`, of a block that is there. -/
def deallocate : Print Unit := do
  let p ← read
  if p.live = 0 then wrong else modify fun p => {p with live := p.live - 1}

def store (i : Nat) (bytes : List UInt8) : Print Unit := do
  let p ← read
  match p.buffer.bind (poke · i bytes) with
  | none => wrong
  | some block => modify fun p => {p with buffer := some block}

/-- A store at `output_pointer`. -/
def put (bytes : List UInt8) : Print Unit := do
  let p ← read
  store p.offset bytes

def advance (n : Nat) : Print Unit := modify fun p => {p with offset := p.offset + n}

def deepen : Print Unit := modify fun p => {p with depth := p.depth + 1}

def rise : Print Unit := modify fun p => {p with depth := p.depth - 1}

/-! ### `ensure` and `update_offset` -/

/-- The end of `ensure`: a block of `newsize` bytes with the old contents, by `realloc`
or by hand. -/
def grow (hooks : Hooks) (block : List UInt8) (newsize : Nat) : Print Unit := do
  let p ← read
  match hooks.allocate p.requests.length newsize with
  | none =>
    deallocate
    modify fun p => {p with buffer := none, length := 0, requests := p.requests ++ [newsize]}
    fail
  | some memory =>
    if hooks.reallocates then
      modify fun p => {p with
        buffer := some (block.take newsize ++ filled memory block.length newsize)
        length := newsize
        requests := p.requests ++ [newsize]}
    else if p.offset + 1 ≤ block.length then
      modify fun p => {p with
        buffer := some (block.take (p.offset + 1) ++ filled memory (p.offset + 1) newsize)
        length := newsize
        requests := p.requests ++ [newsize]}
    else wrong

def ensure (hooks : Hooks) (needed : Nat) : Print Unit := do
  let p ← read
  match p.buffer with
  | none => fail
  | some block =>
    -- make sure that offset is valid
    if 0 < p.length ∧ p.length ≤ p.offset then fail
    else if INT_MAX < needed then fail
    else
      let needed := needed + (p.offset + 1)
      if needed ≤ p.length then pure ()
      else if p.noalloc then fail
      else if INT_MAX / 2 < needed then
        if needed ≤ INT_MAX then grow hooks block INT_MAX else fail
      else grow hooks block (needed * 2)

def updateOffset : Print Unit := do
  let p ← read
  match p.buffer with
  | none => pure ()
  | some block =>
    match strlenAt block p.offset with
    | none => wrong
    | some n => advance n

/-! ### Printing -/

/-- How a piece of text is printed: room for it is made, it is stored with what ends it,
and the offset moves behind it. -/
def emit (hooks : Hooks) (needed : Nat) (text ending : List UInt8) : Print Unit := do
  ensure hooks needed
  put (text ++ ending)
  advance text.length

def printNumber (hooks : Hooks) (d : Whole) : Print Unit :=
  emit hooks ((numberText d).length + 1) (numberText d) [0]

/-- The letter behind the backslash of a short escape. -/
def shortEscape (b : UInt8) : Option UInt8 :=
  if b = 92 then some 92
  else if b = 34 then some 34
  else if b = 8 then some 98
  else if b = 12 then some 102
  else if b = 10 then some 110
  else if b = 13 then some 114
  else if b = 9 then some 116
  else none

/-- The copying loop of `print_string_ptr`, from `output_pointer` on. -/
def putEscaped : List UInt8 → Nat → Print Unit
  | [], _ => pure ()
  | b :: s, pointer => do
    if 31 < b ∧ b ≠ 34 ∧ b ≠ 92 then
      store pointer [b]
      putEscaped s (pointer + 1)
    else
      store pointer [92]
      match shortEscape b with
      | some letter =>
        store (pointer + 1) [letter]
        putEscaped s (pointer + 2)
      | none =>
        -- `sprintf` ends what it writes with a NUL of its own
        store (pointer + 1) [117, 48, 48, hexDigit (b.toNat / 16), hexDigit (b.toNat % 16), 0]
        putEscaped s (pointer + 6)

def printStringPtr (hooks : Hooks) (s : List UInt8) : Print Unit := do
  let outputLength := s.length + escapeCharacters s
  ensure hooks (outputLength + 3)
  let p ← read
  store p.offset [34]
  -- no characters have to be escaped
  if escapeCharacters s = 0 then
    store (p.offset + 1) s
  else
    putEscaped s (p.offset + 1)
  store (p.offset + (outputLength + 1)) [34, 0]

/-- What a formatted print has in addition: a blank behind a comma, a tab behind a
colon, line breaks, and tabs in front of members. -/
def comma (format : Bool) : List UInt8 := 44 :: if format then [32] else []

def colon (format : Bool) : List UInt8 := 58 :: if format then [9] else []

def lineBreak (format : Bool) : List UInt8 := if format then [10] else []

def tabs (format : Bool) (depth : Nat) : List UInt8 := if format then List.replicate depth 9 else []

def memberEnd (format last : Bool) : List UInt8 := (if last then [] else [44]) ++ lineBreak format

/-- Indentation, if any. -/
def indent (hooks : Hooks) : Print Unit := do
  let p ← read
  if p.format then emit hooks p.depth (List.replicate p.depth 9) [] else pure ()

mutual
def printValue (hooks : Hooks) : CJson → Print Unit
  | .number d => printNumber hooks d
  | .string s => printStringPtr hooks s
  | .array items => do
    emit hooks 1 [91] []
    deepen
    printItems hooks items
    ensure hooks 2
    put [93, 0]
    rise
  | .object members => do
    let p ← read
    emit hooks ((123 :: lineBreak p.format).length + 1) (123 :: lineBreak p.format) []
    deepen
    printMembers hooks members
    let p ← read
    ensure hooks (if p.format then p.depth + 1 else 2)
    put (tabs p.format (p.depth - 1) ++ [125, 0])
    rise

/-- The loop of `print_array`. -/
def printItems (hooks : Hooks) : List CJson → Print Unit
  | [] => pure ()
  | item :: rest => do
    printValue hooks item
    updateOffset
    if rest.isEmpty then printItems hooks rest
    else do
      let p ← read
      emit hooks ((comma p.format).length + 1) (comma p.format) [0]
      printItems hooks rest

/-- The loop of `print_object`. -/
def printMembers (hooks : Hooks) : List (List UInt8 × CJson) → Print Unit
  | [] => pure ()
  | (name, item) :: rest => do
    indent hooks
    printStringPtr hooks name
    updateOffset
    let p ← read
    emit hooks (colon p.format).length (colon p.format) []
    printValue hooks item
    updateOffset
    emit hooks ((memberEnd p.format rest.isEmpty).length + 1) (memberEnd p.format rest.isEmpty) [0]
    printMembers hooks rest
end

/-! ### Where a print stands -/

/-- One of the requests from the `start`-th on was refused. -/
def Refused (hooks : Hooks) (start : Nat) (requests : List Nat) : Prop :=
  ∃ n size, start ≤ n ∧ requests[n]? = some size ∧ hooks.allocate n size = none

theorem refused_last {hooks : Hooks} {start size : Nat} {requests : List Nat} (hstart : start ≤ requests.length)
    (h : hooks.allocate requests.length size = none) : Refused hooks start (requests ++ [size]) :=
  ⟨requests.length, size, hstart, List.getElem?_concat_length, h⟩

theorem granted_last {hooks : Hooks} {start size : Nat} {requests : List Nat} {memory : Nat → UInt8}
    (hgranted : ¬ Refused hooks start requests) (h : hooks.allocate requests.length size = some memory) :
    ¬ Refused hooks start (requests ++ [size]) := by
  rintro ⟨n, size', hstart, hn, hnone⟩
  rcases Nat.lt_or_ge n requests.length with hlt | hge
  · rw [List.getElem?_append_left hlt] at hn
    exact hgranted ⟨n, size', hstart, hn, hnone⟩
  · rw [List.getElem?_append_right hge, List.getElem?_singleton] at hn
    split_ifs at hn with hzero
    obtain rfl := Option.some.inj hn
    obtain rfl : n = requests.length := by omega
    rw [h] at hnone
    cases hnone

/-- There are no requests yet. -/
theorem granted_start (hooks : Hooks) (requests : List Nat) : ¬ Refused hooks requests.length requests := by
  rintro ⟨n, size, hstart, hn, -⟩
  rw [List.getElem?_eq_none hstart] at hn
  cases hn

/-- What stays the same throughout a print: whether the block may move, the format, how
long the block may get, and the requests and blocks of others. -/
structure Setting where
  noalloc : Bool
  format : Bool
  capacity : Nat
  asked : List Nat
  base : Nat
  small : capacity ≤ INT_MAX
  limit : noalloc = false → capacity = INT_MAX

/-- The buffer holds `out`, then the free bytes, and the offset stands between them. -/
structure Holds (S : Setting) (hooks : Hooks) (depth : Nat) (out free : List UInt8) (p : PrintBuffer) : Prop where
  buffer : p.buffer = some (out ++ free)
  offset : p.offset = out.length
  length : p.length = out.length + free.length
  depth : p.depth = depth
  noalloc : p.noalloc = S.noalloc
  format : p.format = S.format
  capacity : p.length ≤ S.capacity
  fixed : S.noalloc = true → p.length = S.capacity
  owned : p.live = S.base + if S.noalloc then 0 else 1
  asked : S.asked <+: p.requests
  granted : ¬ Refused hooks S.asked.length p.requests
  silent : S.noalloc = true → p.requests = S.asked
  /-- A block of no bytes at all is only let be or moved by `realloc`. -/
  room : 0 < free.length ∨ (p.length = 0 ∧ (S.noalloc = true ∨ hooks.reallocates = true))

/-- The print stopped short of `needed` bytes: they were too many, or the allocator
refused it some, and then the block is freed. -/
structure GaveUp (S : Setting) (hooks : Hooks) (needed : Nat) (p : PrintBuffer) : Prop where
  reason : S.capacity < needed ∨ (S.noalloc = false ∧ Refused hooks S.asked.length p.requests)
  owned : p.live = S.base + if S.noalloc = false ∧ p.buffer.isSome = true then 1 else 0
  silent : S.noalloc = true → p.requests = S.asked

variable {S : Setting} {hooks : Hooks} {depth : Nat} {out free : List UInt8} {p : PrintBuffer}

theorem GaveUp.mono {n m : Nat} (h : GaveUp S hooks n p) (hle : n ≤ m) : GaveUp S hooks m p where
  reason := h.reason.imp_left fun hlt => Nat.lt_of_lt_of_le hlt hle
  owned := h.owned
  silent := h.silent

theorem Holds.gaveUp {n : Nat} (h : Holds S hooks depth out free p) (hlt : S.capacity < n) : GaveUp S hooks n p where
  reason := .inl hlt
  owned := by
    have howned := h.owned
    rw [h.buffer]
    cases hs : S.noalloc <;> simp [hs] at howned ⊢ <;> exact howned
  silent := h.silent

theorem length_filled (memory : Nat → UInt8) (start size : Nat) :
    (filled memory start size).length = size - start := by
  rw [filled, List.length_map, List.length_range]

/-! ### Statements -/

theorem store_meets (middle : List UInt8) {bytes : List UInt8} {F : PrintBuffer → Prop}
    (h : Holds S hooks depth out (middle ++ free) p) {i : Nat} (hi : i = out.length + middle.length)
    (hfits : bytes.length ≤ free.length) :
    Meets (store i bytes) p
      (fun _ q => Holds S hooks depth out (middle ++ bytes ++ free.drop bytes.length) q) F := by
  have hsplit : out ++ (middle ++ free) = (out ++ middle) ++ free := (List.append_assoc ..).symm
  have hpoke : p.buffer.bind (poke · i bytes) =
      some (out ++ (middle ++ bytes ++ free.drop bytes.length)) := by
    rw [h.buffer, Option.bind_some, hsplit, hi, ← List.length_append, poke_append _ hfits]
    simp only [List.append_assoc]
  have hlength : (middle ++ bytes ++ free.drop bytes.length).length = (middle ++ free).length := by
    simp only [List.length_append, List.length_drop]
    omega
  refine meets_bind.mpr (meets_read.mpr ?_)
  rw [hpoke]
  refine meets_modify.mpr {h with buffer := rfl, length := ?_, room := ?_}
  · rw [hlength]
    exact h.length
  · rw [hlength]
    exact h.room

theorem put_meets {F : PrintBuffer → Prop} (h : Holds S hooks depth out free p) (bytes : List UInt8)
    (hfits : bytes.length ≤ free.length) :
    Meets (put bytes) p (fun _ q => Holds S hooks depth out (bytes ++ free.drop bytes.length) q) F :=
  meets_bind.mpr (meets_read.mpr (store_meets [] h (by rw [h.offset]; rfl) hfits))

/-- What is stored becomes part of the text. -/
theorem advance_meets {front rest : List UInt8} {F : PrintBuffer → Prop}
    (h : Holds S hooks depth out (front ++ rest) p) (hrest : 0 < rest.length) {n : Nat}
    (hn : n = front.length) :
    Meets (advance n) p (fun _ q => Holds S hooks depth (out ++ front) rest q) F := by
  have hlength := h.length
  rw [List.length_append] at hlength
  refine meets_modify.mpr {h with buffer := ?_, offset := ?_, length := ?_, room := .inl hrest}
  · rw [List.append_assoc]
    exact h.buffer
  · show p.offset + n = _
    rw [h.offset, List.length_append, hn]
  · show p.length = _
    rw [List.length_append]
    omega

theorem deepen_meets {F : PrintBuffer → Prop} (h : Holds S hooks depth out free p) :
    Meets deepen p (fun _ q => Holds S hooks (depth + 1) out free q) F :=
  meets_modify.mpr {h with depth := congrArg (· + 1) h.depth}

theorem rise_meets {F : PrintBuffer → Prop} (h : Holds S hooks (depth + 1) out free p) :
    Meets rise p (fun _ q => Holds S hooks depth out free q) F :=
  meets_modify.mpr {h with depth := congrArg (· - 1) h.depth}

/-- `update_offset` finds the end of what was printed. -/
theorem updateOffset_meets {text rest : List UInt8} {F : PrintBuffer → Prop}
    (h : Holds S hooks depth out (text ++ 0 :: rest) p) (htext : 0 ∉ text) :
    Meets updateOffset p (fun _ q => Holds S hooks depth (out ++ text) (0 :: rest) q) F := by
  refine meets_bind.mpr (meets_read.mpr ?_)
  rw [h.buffer]
  dsimp only
  rw [h.offset, strlenAt_text htext]
  exact advance_meets h (Nat.zero_lt_succ _) rfl

/-- A block that moves keeps what it holds and gets longer. -/
theorem grow_meets (h : Holds S hooks depth out free p) (hnoalloc : S.noalloc = false) {newsize needed : Nat}
    (hbig : out.length + needed < newsize) (hsmall : newsize ≤ INT_MAX) (hmore : p.length ≤ newsize)
    (extra : Nat) :
    Meets (grow hooks (out ++ free) newsize) p
      (fun _ q => ∃ free', needed < free'.length ∧ Holds S hooks depth out free' q) (GaveUp S hooks extra) := by
  have hcapacity := S.limit hnoalloc
  have hlength := h.length
  have howned := h.owned
  simp only [hnoalloc, Bool.false_eq_true, if_false] at howned
  -- the block after the move, by either way
  have hmoved : ∀ {memory : Nat → UInt8}, hooks.allocate p.requests.length newsize = some memory →
      ∀ kept rest : List UInt8, kept.length + rest.length = newsize - out.length →
      Holds S hooks depth out (kept ++ rest) {p with
        buffer := some (out ++ (kept ++ rest)), length := newsize, requests := p.requests ++ [newsize]} := by
    intro memory hrequest kept rest hsum
    refine ⟨rfl, h.offset, ?_, h.depth, h.noalloc, h.format, ?_, fun hs => ?_, h.owned,
      h.asked.trans (List.prefix_append _ _), granted_last h.granted hrequest, fun hs => ?_, ?_⟩
    · show newsize = _
      rw [List.length_append]
      omega
    · show newsize ≤ _
      omega
    · rw [hnoalloc] at hs
      cases hs
    · rw [hnoalloc] at hs
      cases hs
    · rw [List.length_append]
      omega
  refine meets_bind.mpr (meets_read.mpr ?_)
  cases hrequest : hooks.allocate p.requests.length newsize with
  | none =>
    have hlive : ¬ p.live = 0 := by omega
    refine meets_bind.mpr (meets_bind.mpr (meets_read.mpr ?_))
    rw [if_neg hlive]
    refine meets_modify.mpr (meets_bind.mpr (meets_modify.mpr (meets_fail.mpr ⟨?_, ?_, fun hs => ?_⟩)))
    · exact .inr ⟨hnoalloc, refused_last h.asked.length_le hrequest⟩
    · show p.live - 1 = _
      simp only [Option.isSome_none, Bool.false_eq_true, and_false, if_false]
      omega
    · rw [hnoalloc] at hs
      cases hs
  | some memory =>
    have htotal : (out ++ free).length = p.length := by rw [List.length_append, hlength]
    dsimp only
    by_cases hre : hooks.reallocates = true
    · rw [if_pos hre]
      refine meets_modify.mpr ⟨free ++ filled memory p.length newsize, ?_, ?_⟩
      · rw [List.length_append, length_filled]
        omega
      · have hkeep : (out ++ free).take newsize ++ filled memory (out ++ free).length newsize =
            out ++ (free ++ filled memory p.length newsize) := by
          rw [List.take_of_length_le (by omega), htotal, List.append_assoc]
        rw [hkeep]
        exact hmoved hrequest free _ (by rw [length_filled]; omega)
    · have hroom : 0 < free.length := by
        rcases h.room with hroom | ⟨-, hs | hr⟩
        · exact hroom
        · rw [hnoalloc] at hs
          cases hs
        · exact absurd hr hre
      have hcopy : p.offset + 1 ≤ (out ++ free).length := by
        rw [h.offset, List.length_append]
        omega
      rw [if_neg hre, if_pos hcopy]
      refine meets_modify.mpr ⟨free.take 1 ++ filled memory (out.length + 1) newsize, ?_, ?_⟩
      · rw [List.length_append, length_filled, List.length_take]
        omega
      · have hkeep : (out ++ free).take (p.offset + 1) ++ filled memory (p.offset + 1) newsize =
            out ++ (free.take 1 ++ filled memory (out.length + 1) newsize) := by
          rw [h.offset, ← List.append_assoc, List.take_length_add_append]
        rw [hkeep]
        exact hmoved hrequest (free.take 1) _ (by rw [length_filled, List.length_take]; omega)

/-- **`ensure` makes the room it is asked for, or there is none.** -/
theorem ensure_meets (h : Holds S hooks depth out free p) (needed : Nat) :
    Meets (ensure hooks needed) p
      (fun _ q => out.length + needed + 1 ≤ S.capacity ∧
        ∃ free', needed < free'.length ∧ Holds S hooks depth out free' q)
      (GaveUp S hooks (out.length + needed + 1)) := by
  have hoffset := h.offset
  have hlength := h.length
  have hcapacity := h.capacity
  have hsmall := S.small
  refine meets_bind.mpr (meets_read.mpr ?_)
  rw [h.buffer]
  dsimp only
  have hvalid : ¬ (0 < p.length ∧ p.length ≤ p.offset) := by
    rcases h.room with hroom | ⟨hzero, -⟩ <;> omega
  rw [if_neg hvalid]
  by_cases hhuge : INT_MAX < needed
  · rw [if_pos hhuge]
    exact h.gaveUp (by omega)
  rw [if_neg hhuge]
  by_cases hfits : needed + (p.offset + 1) ≤ p.length
  · rw [if_pos hfits]
    exact ⟨by omega, free, by omega, h⟩
  rw [if_neg hfits, h.noalloc]
  cases hnoalloc : S.noalloc with
  | true =>
    have hfixed := h.fixed hnoalloc
    exact h.gaveUp (by omega)
  | false =>
    have hlimit := S.limit hnoalloc
    have hmax : INT_MAX = 2147483647 := rfl
    simp only [Bool.false_eq_true, if_false]
    have hdone : ∀ {newsize : Nat}, needed + (p.offset + 1) ≤ newsize → newsize ≤ INT_MAX →
        Meets (grow hooks (out ++ free) newsize) p
          (fun _ q => out.length + needed + 1 ≤ S.capacity ∧
            ∃ free', needed < free'.length ∧ Holds S hooks depth out free' q)
          (GaveUp S hooks (out.length + needed + 1)) := fun hnew hmost =>
      (grow_meets h hnoalloc (by omega) hmost (by omega) _).imp
        (fun _ q hq => ⟨by omega, hq⟩) fun _ hq => hq
    by_cases hhalf : INT_MAX / 2 < needed + (p.offset + 1)
    · rw [if_pos hhalf]
      by_cases hmost : needed + (p.offset + 1) ≤ INT_MAX
      · rw [if_pos hmost]
        exact hdone hmost (Nat.le_refl _)
      · rw [if_neg hmost]
        exact h.gaveUp (by omega)
    · rw [if_neg hhalf]
      exact hdone (by omega) (by omega)

/-! ### Pieces of text -/

/-- The text stands behind `out`, with a NUL after it; the offset is somewhere in it. -/
def Wrote (S : Setting) (hooks : Hooks) (depth : Nat) (out text : List UInt8) (p : PrintBuffer) : Prop :=
  ∃ front behind rest, text = front ++ behind ∧
    Holds S hooks depth (out ++ front) (behind ++ 0 :: rest) p

theorem numberText_noNul (d : Whole) : 0 ∉ numberText d := by
  have hdigits : ∀ n, ('\x00' : Char) ∉ Nat.toDigits 10 n := fun n h =>
    absurd (Nat.isDigit_of_mem_toDigits (by decide) (by decide) h) (by decide)
  intro h
  have hmem : ('\x00' : Char) ∈ (toString d.val).toList := (mem_utf8 (by decide)).mp h
  cases hval : d.val with
  | ofNat n =>
    rw [hval, Json.toString_ofNat] at hmem
    exact hdigits n hmem
  | negSucc n =>
    rw [hval, Json.toString_negSucc] at hmem
    exact hdigits (n + 1) ((List.mem_cons.mp hmem).resolve_left (by decide))

theorem emit_meets (h : Holds S hooks depth out free p) {needed : Nat} (text ending : List UInt8)
    (hneeded : text.length + ending.length ≤ needed) :
    Meets (emit hooks needed text ending) p
      (fun _ q => out.length + needed + 1 ≤ S.capacity ∧
        ∃ free', Holds S hooks depth (out ++ text) (ending ++ free') q)
      (GaveUp S hooks (out.length + needed + 1)) := by
  refine (ensure_meets h needed).bind fun _ q ⟨hfits, free', hroom, hq⟩ => ?_
  have hlength : (text ++ ending).length = text.length + ending.length := List.length_append
  refine (put_meets hq (text ++ ending) (by omega)).bind fun _ r hr => ?_
  rw [List.append_assoc] at hr
  refine (advance_meets hr ?_ rfl).imp (fun _ t ht => ⟨hfits, _, ht⟩) fun _ ht => ht
  rw [List.length_append, List.length_drop]
  omega

theorem printNumber_meets (h : Holds S hooks depth out free p) (d : Whole) :
    Meets (printNumber hooks d) p
      (fun _ q => (out ++ numberText d).length + 2 ≤ S.capacity ∧ Wrote S hooks depth out (numberText d) q)
      (GaveUp S hooks ((out ++ numberText d).length + 2)) := by
  rw [List.length_append]
  exact (emit_meets h (numberText d) [0] (Nat.le_refl _)).imp
    (fun _ q ⟨hfits, rest, hq⟩ => ⟨hfits, numberText d, [], rest, (List.append_nil _).symm, hq⟩) fun _ hq => hq

theorem escapeByte_eq (b : UInt8) : escapeByte b =
    if 31 < b ∧ b ≠ 34 ∧ b ≠ 92 then [b]
    else 92 :: match shortEscape b with
      | some letter => [letter]
      | none => [117, 48, 48, hexDigit (b.toNat / 16), hexDigit (b.toNat % 16)] := by
  revert b
  apply forall_byte
  decide +kernel

/-- The loop writes the escaped string and stays in front of the last two bytes. -/
theorem putEscaped_meets {F : PrintBuffer → Prop} (s : List UInt8) {middle free : List UInt8} {p : PrintBuffer}
    (h : Holds S hooks depth out (middle ++ free) p) (hfits : (escaped s).length < free.length) :
    Meets (putEscaped s (out.length + middle.length)) p
      (fun _ q => ∃ free', free'.length + (escaped s).length = free.length ∧
        Holds S hooks depth out (middle ++ escaped s ++ free') q) F := by
  induction s generalizing middle free p with
  | nil => exact ⟨free, rfl, by simpa [escaped] using h⟩
  | cons b s ih =>
    have hsplit : escaped (b :: s) = escapeByte b ++ escaped s := rfl
    have hbyte := escapeByte_eq b
    rw [hsplit, List.length_append] at hfits ⊢
    generalize escapeByte b = w at hbyte hfits ⊢
    -- the rest of the loop, behind what the byte becomes
    have hrest : ∀ (left : List UInt8) {q : PrintBuffer} {pointer : Nat},
        left.length + w.length = free.length → pointer = out.length + (middle ++ w).length →
        Holds S hooks depth out (middle ++ w ++ left) q →
        Meets (putEscaped s pointer) q (fun _ q => ∃ free', free'.length + (w.length + (escaped s).length) =
          free.length ∧ Holds S hooks depth out (middle ++ (w ++ escaped s) ++ free') q) F := by
      intro left q pointer hleft hpointer hq
      subst hpointer
      refine (ih hq (by omega)).imp (fun _ t ⟨free', hcount, ht⟩ => ⟨free', by omega, ?_⟩) fun _ ht => ht
      rwa [List.append_assoc middle] at ht
    unfold putEscaped
    by_cases hplain : 31 < b ∧ b ≠ 34 ∧ b ≠ 92
    · rw [if_pos hplain] at hbyte ⊢
      subst hbyte
      have hone : [b].length = 1 := rfl
      refine (store_meets _ h rfl (by omega)).bind fun _ q hq => hrest _ ?_ ?_ hq
      · rw [List.length_drop]
        omega
      · rw [List.length_append]
        rfl
    · rw [if_neg hplain] at hbyte ⊢
      have hback : [(92 : UInt8)].length = 1 := rfl
      have hpos : 1 < free.length := by
        rw [hbyte, List.length_cons] at hfits
        omega
      refine (store_meets _ h rfl (by omega)).bind fun _ q hq => ?_
      cases hshort : shortEscape b with
      | some letter =>
        obtain rfl : w = [92, letter] := by rw [hbyte, hshort]
        have htwo : [92, letter].length = 2 := rfl
        have hone : [letter].length = 1 := rfl
        refine (store_meets _ hq ?_ ?_).bind fun _ r hr => hrest ((free.drop 1).drop 1) ?_ ?_ ?_
        · rw [List.length_append]
          rfl
        · rw [List.length_drop]
          omega
        · rw [List.length_drop, List.length_drop]
          omega
        · rw [List.length_append]
          rfl
        · rw [List.append_assoc middle] at hr
          exact hr
      | none =>
        obtain rfl : w = [92, 117, 48, 48, hexDigit (b.toNat / 16), hexDigit (b.toNat % 16)] := by
          rw [hbyte, hshort]
        have hsix : [92, 117, 48, 48, hexDigit (b.toNat / 16), hexDigit (b.toNat % 16)].length = 6 := rfl
        have hseven : [117, 48, 48, hexDigit (b.toNat / 16), hexDigit (b.toNat % 16), (0 : UInt8)].length = 6 := rfl
        refine (store_meets _ hq ?_ ?_).bind fun _ r hr => hrest (0 :: (free.drop 1).drop 6) ?_ ?_ ?_
        · rw [List.length_append]
          rfl
        · rw [List.length_drop]
          omega
        · rw [List.length_cons, List.length_drop, List.length_drop]
          omega
        · rw [List.length_append]
          rfl
        · simpa only [List.append_assoc, List.cons_append, List.nil_append, hseven, hback] using hr

theorem length_stringText_eq (s : List UInt8) : (stringText s).length = s.length + escapeCharacters s + 2 := by
  simp only [stringText, List.length_append, length_escaped, List.length_singleton]
  omega

/-- A string without escapes is copied as it is. -/
theorem escaped_plain {s : List UInt8} (h : escapeCharacters s = 0) : escaped s = s := by
  induction s with
  | nil => rfl
  | cons b s ih =>
    simp only [escapeCharacters, List.map_cons, List.sum_cons, Nat.add_eq_zero_iff] at h ih
    have hbyte : escapeByte b = [b] := by
      have hcases : ∀ b : UInt8, (if b = 34 ∨ b = 92 ∨ b = 8 ∨ b = 12 ∨ b = 10 ∨ b = 13 ∨ b = 9 then 1
          else if b < 32 then 5 else 0) = 0 → escapeByte b = [b] := by
        intro b
        revert b
        apply forall_byte
        decide +kernel
      exact hcases b h.1
    have hsplit : escaped (b :: s) = escapeByte b ++ escaped s := rfl
    rw [hsplit, hbyte, ih h.2]
    rfl

theorem printStringPtr_meets (h : Holds S hooks depth out free p) (s : List UInt8) :
    Meets (printStringPtr hooks s) p
      (fun _ q => (out ++ stringText s).length + 2 ≤ S.capacity ∧ Wrote S hooks depth out (stringText s) q)
      (GaveUp S hooks ((out ++ stringText s).length + 2)) := by
  have htext := length_stringText_eq s
  have hescaped := length_escaped s
  rw [List.length_append]
  have hensure := ensure_meets h (s.length + escapeCharacters s + 3)
  have hneed : out.length + (s.length + escapeCharacters s + 3) + 1 = out.length + (stringText s).length + 2 := by
    omega
  rw [hneed] at hensure
  refine hensure.bind fun _ q ⟨hfits, free', hroom, hq⟩ => meets_bind.mpr (meets_read.mpr ?_)
  have hquote : [(34 : UInt8)].length = 1 := rfl
  refine (store_meets [] hq (by rw [hq.offset]; rfl) (by omega)).bind fun _ r hr => ?_
  -- the string by either way, and then the closing quote
  have hcopied : Meets (if escapeCharacters s = 0 then store (q.offset + 1) s else putEscaped s (q.offset + 1)) r
      (fun _ t => ∃ left, left.length + (escaped s).length + 1 = free'.length ∧
        Holds S hooks depth out ([34] ++ escaped s ++ left) t)
      (GaveUp S hooks (out.length + (stringText s).length + 2)) := by
    have hplace : q.offset + 1 = out.length + [(34 : UInt8)].length := by rw [hq.offset]; rfl
    have hdrop : (free'.drop [(34 : UInt8)].length).length = free'.length - 1 := List.length_drop
    rw [hplace]
    split
    · rename_i hplain
      rw [escaped_plain hplain] at hescaped ⊢
      refine (store_meets _ hr rfl (by omega)).imp (fun _ t ht => ⟨_, ?_, ht⟩) fun _ ht => ht
      rw [List.length_drop]
      omega
    · refine (putEscaped_meets s hr (by omega)).imp (fun _ t ⟨left, hleft, ht⟩ => ⟨left, by omega, ht⟩) fun _ ht => ht
  have hclose : ∀ t, (∃ left, left.length + (escaped s).length + 1 = free'.length ∧
      Holds S hooks depth out ([34] ++ escaped s ++ left) t) →
      Meets (store (q.offset + (s.length + escapeCharacters s + 1)) [34, 0]) t
        (fun _ t => out.length + (stringText s).length + 2 ≤ S.capacity ∧ Wrote S hooks depth out (stringText s) t)
        (GaveUp S hooks (out.length + (stringText s).length + 2)) := by
    intro t ⟨left, hleft, ht⟩
    have htwo : [(34 : UInt8), 0].length = 2 := rfl
    refine (store_meets _ ht ?_ (by omega)).imp (fun _ u hu => ⟨hfits, ?_⟩) fun _ hu => hu
    · rw [hq.offset, List.length_append]
      omega
    · refine ⟨[], stringText s, left.drop 2, rfl, ?_⟩
      rw [List.append_nil]
      simpa only [stringText, List.append_assoc, List.cons_append, List.nil_append, htwo] using hu
  dsimp only
  by_cases hplain : escapeCharacters s = 0
  · rw [if_pos hplain] at hcopied ⊢
    exact hcopied.bind fun _ t ht => hclose t ht
  · rw [if_neg hplain] at hcopied ⊢
    exact hcopied.bind fun _ t ht => hclose t ht

/-! ### The text of a tree -/

mutual
/-- The text of a tree in either format, at a depth. -/
def layout (format : Bool) (depth : Nat) : CJson → List UInt8
  | .number d => numberText d
  | .string s => stringText s
  | .array items => [91] ++ layoutItems format (depth + 1) items ++ [93]
  | .object members =>
    123 :: lineBreak format ++ layoutMembers format (depth + 1) members ++ tabs format depth ++ [125]

def layoutItems (format : Bool) (depth : Nat) : List CJson → List UInt8
  | [] => []
  | item :: rest =>
    layout format depth item ++ (if rest.isEmpty then [] else comma format) ++ layoutItems format depth rest

def layoutMembers (format : Bool) (depth : Nat) : List (List UInt8 × CJson) → List UInt8
  | [] => []
  | (name, item) :: rest =>
    tabs format depth ++ stringText name ++ colon format ++ layout format depth item ++
      memberEnd format rest.isEmpty ++ layoutMembers format depth rest
end

mutual
/-- Without format it is the text of the tree. -/
theorem layout_false (depth : Nat) : ∀ item : CJson, layout false depth item = render item
  | .number d => by rw [layout, render]
  | .string s => by rw [layout, render]
  | .array items => by rw [layout, render, layoutItems_false]
  | .object members => by
    rw [layout, render, layoutMembers_false]
    simp [lineBreak, tabs]

theorem layoutItems_false (depth : Nat) : ∀ items : List CJson, layoutItems false depth items = renderItems items
  | [] => by rw [layoutItems, renderItems]
  | item :: rest => by
    rw [layoutItems, renderItems, layout_false depth item, layoutItems_false depth rest]
    simp [comma]

theorem layoutMembers_false (depth : Nat) :
    ∀ members : List (List UInt8 × CJson), layoutMembers false depth members = renderMembers members
  | [] => by rw [layoutMembers, renderMembers]
  | (name, item) :: rest => by
    rw [layoutMembers, renderMembers, layout_false depth item, layoutMembers_false depth rest]
    simp [tabs, colon, memberEnd, lineBreak]
end

theorem stringText_noNul (s : List UInt8) : 0 ∉ stringText s := by
  have hbyte : ∀ b : UInt8, (escapeByte b).all (· != 0) = true := by
    intro b
    revert b
    apply forall_byte
    decide +kernel
  intro h
  rw [stringText, List.mem_append, List.mem_append] at h
  rcases h with (h | h) | h
  · exact absurd h (by decide)
  · obtain ⟨b, -, hb⟩ := List.mem_flatMap.mp h
    simpa using List.all_eq_true.mp (hbyte b) 0 hb
  · exact absurd h (by decide)

theorem marks_noNul (format last : Bool) (depth : Nat) :
    0 ∉ comma format ∧ 0 ∉ colon format ∧ 0 ∉ memberEnd format last ∧ 0 ∉ tabs format depth := by
  have htabs : (0 : UInt8) ∉ tabs format depth := by
    unfold tabs
    split
    · exact fun h => absurd (List.eq_of_mem_replicate h) (by decide)
    · exact List.not_mem_nil
  refine ⟨?_, ?_, ?_, htabs⟩
  · cases format <;> decide
  · cases format <;> decide
  · cases format <;> cases last <;> decide

mutual
theorem layout_noNul (format : Bool) (depth : Nat) : ∀ item : CJson, 0 ∉ layout format depth item
  | .number d => by
    rw [layout]
    exact numberText_noNul d
  | .string s => by
    rw [layout]
    exact stringText_noNul s
  | .array items => by
    rw [layout]
    have hitems := layoutItems_noNul format (depth + 1) items
    simp [hitems]
  | .object members => by
    rw [layout]
    have hmembers := layoutMembers_noNul format (depth + 1) members
    have htabs := (marks_noNul format true depth).2.2.2
    have hbreak : (0 : UInt8) ∉ lineBreak format := by cases format <;> decide
    simp [hmembers, htabs, hbreak]

theorem layoutItems_noNul (format : Bool) (depth : Nat) : ∀ items : List CJson, 0 ∉ layoutItems format depth items
  | [] => by
    rw [layoutItems]
    exact List.not_mem_nil
  | item :: rest => by
    rw [layoutItems]
    have hitem := layout_noNul format depth item
    have hrest := layoutItems_noNul format depth rest
    have hcomma := (marks_noNul format true depth).1
    split <;> simp [hitem, hrest, hcomma]

theorem layoutMembers_noNul (format : Bool) (depth : Nat) :
    ∀ members : List (List UInt8 × CJson), 0 ∉ layoutMembers format depth members
  | [] => by
    rw [layoutMembers]
    exact List.not_mem_nil
  | (name, item) :: rest => by
    rw [layoutMembers]
    have hname := stringText_noNul name
    have hitem := layout_noNul format depth item
    have hrest := layoutMembers_noNul format depth rest
    obtain ⟨-, hcolon, hend, htabs⟩ := marks_noNul format rest.isEmpty depth
    simp [hname, hitem, hrest, hcolon, hend, htabs]
end

/-! ### Printing a tree -/

theorem Wrote.updateOffset {text : List UInt8} {F : PrintBuffer → Prop} (h : Wrote S hooks depth out text p)
    (htext : 0 ∉ text) :
    Meets updateOffset p (fun _ q => ∃ free', Holds S hooks depth (out ++ text) free' q) F := by
  obtain ⟨front, behind, rest, rfl, hp⟩ := h
  have hbehind : 0 ∉ behind := fun hmem => htext (List.mem_append_right _ hmem)
  refine (updateOffset_meets hp hbehind).imp (fun _ q hq => ⟨0 :: rest, ?_⟩) fun _ hq => hq
  rwa [List.append_assoc] at hq

theorem indent_meets (h : Holds S hooks depth out free p) :
    Meets (indent hooks) p (fun _ q => ∃ free', Holds S hooks depth (out ++ tabs S.format depth) free' q)
      (GaveUp S hooks ((out ++ tabs S.format depth).length + 1)) := by
  refine meets_bind.mpr (meets_read.mpr ?_)
  rw [h.format, h.depth]
  cases hformat : S.format with
  | false =>
    refine meets_pure.mpr ⟨free, ?_⟩
    have htabs : out ++ tabs false depth = out := List.append_nil out
    rwa [htabs]
  | true =>
    have htabs : tabs true depth = List.replicate depth 9 := rfl
    have hlength : (List.replicate depth (9 : UInt8)).length = depth := List.length_replicate
    rw [htabs, List.length_append, hlength]
    exact (emit_meets h (List.replicate depth 9) [] (Nat.le_of_eq hlength)).imp
      (fun _ q ⟨_, free', hq⟩ => ⟨free', hq⟩) fun _ hq => hq

/-- The end of an array or an object: its last bytes, and the depth it was opened at. -/
theorem close_meets (h : Holds S hooks (depth + 1) out free p) (text : List UInt8) {needed : Nat}
    (hneeded : needed = text.length + 1) :
    Meets (ensure hooks needed >>= fun _ => put (text ++ [0]) >>= fun _ => rise) p
      (fun _ q => (out ++ text).length + 2 ≤ S.capacity ∧
        ∃ rest, Holds S hooks depth out (text ++ 0 :: rest) q)
      (GaveUp S hooks ((out ++ text).length + 2)) := by
  subst hneeded
  rw [List.length_append]
  refine (ensure_meets h _).bind fun _ q ⟨hfits, free', hroom, hq⟩ => ?_
  have hlength : (text ++ [0]).length = text.length + 1 := List.length_append
  refine (put_meets hq (text ++ [0]) (by omega)).bind fun _ r hr => ?_
  rw [List.append_assoc] at hr
  exact (rise_meets hr).imp (fun _ t ht => ⟨hfits, _, ht⟩) fun _ ht => ht

mutual
/-- **A value is printed, or there is no room for it and two bytes more**: nothing is
stored or read outside the block. -/
theorem printValue_meets : ∀ (item : CJson) {depth : Nat} {out free : List UInt8} {p : PrintBuffer},
    Holds S hooks depth out free p →
    Meets (printValue hooks item) p
      (fun _ q => (out ++ layout S.format depth item).length + 2 ≤ S.capacity ∧
        Wrote S hooks depth out (layout S.format depth item) q)
      (GaveUp S hooks ((out ++ layout S.format depth item).length + 2))
  | .number d, depth, out, free, p, h => by
    rw [printValue, layout]
    exact printNumber_meets h d
  | .string s, depth, out, free, p, h => by
    rw [printValue, layout]
    exact printStringPtr_meets h s
  | .array items, depth, out, free, p, h => by
    rw [printValue, layout]
    refine ((emit_meets h [91] [] (Nat.le_refl _)).imp (fun _ q hq => hq) fun _ hq => hq.mono ?_).bind
      fun _ q ⟨_, free', hq⟩ => (deepen_meets hq).bind fun _ r hr => ?_
    · simp only [List.length_append, List.length_cons, List.length_nil]
      omega
    refine ((printItems_meets items hr).imp (fun _ t ht => ht) fun _ ht => ht.mono ?_).bind
      fun _ t ⟨free'', ht⟩ => ?_
    · simp only [List.length_append]
      omega
    refine ((close_meets ht [93] rfl).imp (fun _ u ⟨hfits, rest, hu⟩ => ⟨?_, ?_⟩) fun _ hu => ?_)
    · simpa only [List.append_assoc] using hfits
    · exact ⟨[91] ++ layoutItems S.format (depth + 1) items, [93], rest, rfl, by
        simpa only [List.append_assoc] using hu⟩
    · simpa only [List.append_assoc] using hu
  | .object members, depth, out, free, p, h => by
    rw [printValue, layout]
    refine meets_bind.mpr (meets_read.mpr ?_)
    rw [h.format]
    refine ((emit_meets h (123 :: lineBreak S.format) [] (Nat.le_succ _)).imp
      (fun _ q hq => hq) fun _ hq => hq.mono ?_).bind
      fun _ q ⟨_, free', hq⟩ => (deepen_meets hq).bind fun _ r hr => ?_
    · simp only [List.length_append, List.length_cons]
      omega
    refine ((printMembers_meets members hr).imp (fun _ t ht => ht) fun _ ht => ht.mono ?_).bind
      fun _ t ⟨free'', ht⟩ => meets_bind.mpr (meets_read.mpr ?_)
    · simp only [List.length_append, List.length_cons]
      omega
    rw [ht.format, ht.depth, Nat.add_sub_cancel]
    have hclosing : (if S.format = true then depth + 1 + 1 else 2) = (tabs S.format depth ++ [125]).length + 1 := by
      cases S.format <;> simp [tabs]
    have hzero : tabs S.format depth ++ [125, 0] = tabs S.format depth ++ [125] ++ [0] := by simp
    rw [hzero]
    refine ((close_meets ht (tabs S.format depth ++ [125]) hclosing).imp
      (fun _ u ⟨hfits, rest, hu⟩ => ⟨?_, ?_⟩) fun _ hu => ?_)
    · simpa only [List.append_assoc] using hfits
    · exact ⟨123 :: lineBreak S.format ++ layoutMembers S.format (depth + 1) members,
        tabs S.format depth ++ [125], rest, by simp only [List.append_assoc], by
        simpa only [List.append_assoc] using hu⟩
    · simpa only [List.append_assoc] using hu

theorem printItems_meets : ∀ (items : List CJson) {depth : Nat} {out free : List UInt8} {p : PrintBuffer},
    Holds S hooks depth out free p →
    Meets (printItems hooks items) p
      (fun _ q => ∃ free', Holds S hooks depth (out ++ layoutItems S.format depth items) free' q)
      (GaveUp S hooks ((out ++ layoutItems S.format depth items).length + 2))
  | [], depth, out, free, p, h => by
    rw [printItems, layoutItems, List.append_nil]
    exact meets_pure.mpr ⟨free, h⟩
  | item :: rest, depth, out, free, p, h => by
    rw [printItems, layoutItems]
    refine ((printValue_meets item h).imp (fun _ q hq => hq) fun _ hq => hq.mono ?_).bind
      fun _ q ⟨_, hq⟩ => (hq.updateOffset (layout_noNul S.format depth item)).bind fun _ r ⟨free', hr⟩ => ?_
    · simp only [List.length_append]
      omega
    cases hempty : rest.isEmpty with
    | true =>
      have hrest := printItems_meets rest hr
      simp only [if_true, List.append_nil]
      rwa [List.append_assoc] at hrest
    | false =>
      simp only [Bool.false_eq_true, if_false]
      refine meets_bind.mpr (meets_read.mpr ?_)
      rw [hr.format]
      refine ((emit_meets hr (comma S.format) [0] (Nat.le_refl _)).imp
        (fun _ t ht => ht) fun _ ht => ht.mono ?_).bind fun _ t ⟨_, free'', ht⟩ => ?_
      · simp only [List.length_append, List.length_singleton]
        omega
      have hrest := printItems_meets rest ht
      simpa only [List.append_assoc] using hrest

theorem printMembers_meets : ∀ (members : List (List UInt8 × CJson)) {depth : Nat} {out free : List UInt8}
    {p : PrintBuffer}, Holds S hooks depth out free p →
    Meets (printMembers hooks members) p
      (fun _ q => ∃ free', Holds S hooks depth (out ++ layoutMembers S.format depth members) free' q)
      (GaveUp S hooks ((out ++ layoutMembers S.format depth members).length + 2))
  | [], depth, out, free, p, h => by
    rw [printMembers, layoutMembers, List.append_nil]
    exact meets_pure.mpr ⟨free, h⟩
  | (name, item) :: rest, depth, out, free, p, h => by
    rw [printMembers, layoutMembers]
    -- indentation and name
    refine ((indent_meets h).imp (fun _ q hq => hq) fun _ hq => hq.mono ?_).bind fun _ q ⟨_, hq⟩ => ?_
    · simp only [List.length_append]
      omega
    refine ((printStringPtr_meets hq name).imp (fun _ r hr => hr) fun _ hr => hr.mono ?_).bind
      fun _ r ⟨_, hr⟩ => (hr.updateOffset (stringText_noNul name)).bind
        fun _ t ⟨_, ht⟩ => meets_bind.mpr (meets_read.mpr ?_)
    · simp only [List.length_append]
      omega
    rw [ht.format]
    refine ((emit_meets ht (colon S.format) [] (Nat.le_refl _)).imp
      (fun _ u hu => hu) fun _ hu => hu.mono ?_).bind fun _ u ⟨_, _, hu⟩ => ?_
    · simp only [List.length_append, List.length_nil]
      omega
    -- value and what ends a member
    refine ((printValue_meets item hu).imp (fun _ v hv => hv) fun _ hv => hv.mono ?_).bind
      fun _ v ⟨_, hv⟩ => (hv.updateOffset (layout_noNul S.format depth item)).bind fun _ w ⟨_, hw⟩ => ?_
    · simp only [List.length_append]
      omega
    refine ((emit_meets hw (memberEnd S.format rest.isEmpty) [0] (Nat.le_refl _)).imp
      (fun _ x hx => hx) fun _ hx => hx.mono ?_).bind fun _ x ⟨_, _, hx⟩ => ?_
    · simp only [List.length_append, List.length_singleton]
      omega
    have hrest := printMembers_meets rest hx
    simpa only [List.append_assoc] using hrest
end

/-! ### `cJSON_Print` and `cJSON_PrintUnformatted` -/

/-- The `fail` label of `print`. -/
def discard : Print Unit := do
  let p ← read
  if p.buffer.isSome then
    deallocate
    modify fun p => {p with buffer := none}
  else pure ()

/-- The last part of `print`: a block that is just as long as the text. -/
def shrink (hooks : Hooks) : Print (Option (List UInt8)) := do
  let p ← read
  let block := p.buffer.getD []
  match hooks.allocate p.requests.length (p.offset + 1) with
  | none =>
    modify fun p => {p with requests := p.requests ++ [p.offset + 1]}
    discard
    return none
  | some memory =>
    if hooks.reallocates then
      modify fun p => {p with buffer := none, requests := p.requests ++ [p.offset + 1]}
      return some (block.take (p.offset + 1) ++ filled memory block.length (p.offset + 1))
    else if min p.length (p.offset + 1) ≤ block.length then
      let n := min p.length (p.offset + 1)
      match poke (block.take n ++ filled memory n (p.offset + 1)) p.offset [0] with
      | none => wrong
      | some printed =>
        modify fun p => {p with requests := p.requests ++ [p.offset + 1], live := p.live + 1}
        discard
        return some printed
    else wrong

/-- `print`: the block with the text, or NULL. -/
def print (hooks : Hooks) (format : Bool) (item : CJson) : Print (Option (List UInt8)) := do
  let p ← read
  match hooks.allocate p.requests.length 256 with
  | none =>
    modify fun p => {p with requests := p.requests ++ [256]}
    return none
  | some memory =>
    modify fun p => ⟨some (filled memory 0 256), 256, 0, 0, false, format, p.requests ++ [256], p.live + 1⟩
    if ← succeeds (printValue hooks item) then
      updateOffset
      shrink hooks
    else
      discard
      return none

/-- The setting of a print into a block of its own. -/
def growing (format : Bool) (asked : List Nat) (base : Nat) : Setting :=
  ⟨false, format, INT_MAX, asked, base, Nat.le_refl _, fun _ => rfl⟩

/-- What `print` returns: the text and its NUL in a new block, or nothing and no block,
where a request of this call was refused or the text is too long. -/
def Printed (hooks : Hooks) (format : Bool) (item : CJson) (p : PrintBuffer) (r : Option (List UInt8))
    (q : PrintBuffer) : Prop :=
  match r with
  | some block => block = layout format 0 item ++ [0] ∧ (layout format 0 item).length + 2 ≤ INT_MAX ∧
      q.live = p.live + 1 ∧ ¬ Refused hooks p.requests.length q.requests
  | none => q.live = p.live ∧ (INT_MAX < (layout format 0 item).length + 2 ∨
      Refused hooks p.requests.length q.requests)

theorem discard_meets {F : PrintBuffer → Prop} {base : Nat}
    (h : p.live = base + if p.buffer.isSome = true then 1 else 0) :
    Meets discard p (fun _ q => q.live = base ∧ q.requests = p.requests) F := by
  refine meets_bind.mpr (meets_read.mpr ?_)
  split
  · rename_i hsome
    rw [if_pos hsome] at h
    refine meets_bind.mpr (meets_bind.mpr (meets_read.mpr ?_))
    rw [if_neg (by omega)]
    refine meets_modify.mpr (meets_modify.mpr ⟨?_, rfl⟩)
    show p.live - 1 = base
    omega
  · rename_i hnone
    rw [if_neg hnone] at h
    exact meets_pure.mpr ⟨h, rfl⟩

/-- What is done where a print into a block of its own stops. -/
theorem giveUp_meets {F : PrintBuffer → Prop} {format : Bool} {asked : List Nat} {base needed : Nat}
    (h : GaveUp (growing format asked base) hooks needed p) :
    Meets (do discard; return none) p (fun (r : Option (List UInt8)) q => r = none ∧ q.live = base ∧
      (INT_MAX < needed ∨ Refused hooks asked.length q.requests)) F := by
  have howned := h.owned
  simp only [growing, true_and] at howned
  refine (discard_meets howned).bind fun _ r ⟨hlive, hrequests⟩ => meets_pure.mpr ⟨rfl, hlive, ?_⟩
  rw [hrequests]
  exact h.reason.imp (fun hlt => hlt) fun h => h.2

/-- The block is given back with the text and its NUL in it, whichever way it is shrunk. -/
theorem shrink_meets {format : Bool} {asked : List Nat} {base : Nat} {text rest : List UInt8}
    (h : Holds (growing format asked base) hooks 0 text (0 :: rest) p) :
    Meets (shrink hooks) p
      (fun r q => match r with
        | some block => block = text ++ [0] ∧ q.live = base + 1 ∧ ¬ Refused hooks asked.length q.requests
        | none => q.live = base ∧ Refused hooks asked.length q.requests) fun _ => False := by
  have howned : p.live = base + 1 := h.owned
  have hblock : p.buffer.getD [] = text ++ 0 :: rest := by rw [h.buffer, Option.getD_some]
  have hlength : (text ++ 0 :: rest).length = p.length := by rw [List.length_append, h.length]
  have hlong : p.offset + 1 ≤ p.length := by
    rw [h.offset, h.length, List.length_cons]
    omega
  have htake : (text ++ 0 :: rest).take (p.offset + 1) = text ++ [0] := by
    rw [h.offset, List.take_length_add_append]
    rfl
  have hsome : p.buffer.isSome = true := by rw [h.buffer]; rfl
  refine meets_bind.mpr (meets_read.mpr ?_)
  cases hrequest : hooks.allocate p.requests.length (p.offset + 1) with
  | none =>
    refine meets_bind.mpr (meets_modify.mpr ?_)
    have hdiscard : p.live = base + if p.buffer.isSome = true then 1 else 0 := by
      rw [if_pos hsome]
      exact howned
    have hasked : asked <+: p.requests := h.asked
    refine (discard_meets (p := {p with requests := p.requests ++ [p.offset + 1]}) hdiscard).bind
      fun _ q ⟨hlive, hrequests⟩ => meets_pure.mpr ⟨hlive, ?_⟩
    rw [hrequests]
    exact refused_last hasked.length_le hrequest
  | some memory =>
    dsimp only
    rw [hblock]
    have hnone : ∀ n, p.offset + 1 ≤ n → filled memory n (p.offset + 1) = [] := by
      intro n hn
      rw [filled, Nat.sub_eq_zero_of_le hn]
      rfl
    by_cases hre : hooks.reallocates = true
    · rw [if_pos hre]
      refine meets_bind.mpr (meets_modify.mpr (meets_pure.mpr ⟨?_, howned, granted_last h.granted hrequest⟩))
      rw [htake, hlength, hnone _ hlong, List.append_nil]
    · have hmin : min p.length (p.offset + 1) = p.offset + 1 := Nat.min_eq_right hlong
      rw [if_neg hre, hmin, if_pos (by omega), htake, hnone _ (Nat.le_refl _), List.append_nil, h.offset,
        poke_append text (by decide)]
      dsimp only
      refine meets_bind.mpr (meets_modify.mpr ?_)
      have hdiscard : p.live + 1 = base + 1 + if p.buffer.isSome = true then 1 else 0 := by
        rw [if_pos hsome]
        omega
      refine (discard_meets (p := {p with requests := p.requests ++ [p.offset + 1], live := p.live + 1}) hdiscard).bind
        fun _ q ⟨hlive, hrequests⟩ => meets_pure.mpr ⟨?_, hlive, ?_⟩
      · simp
      · rw [hrequests]
        exact granted_last h.granted hrequest

theorem print_meets (hooks : Hooks) (format : Bool) (item : CJson) (p : PrintBuffer) :
    Meets (print hooks format item) p (Printed hooks format item p) fun _ => False := by
  refine meets_bind.mpr (meets_read.mpr ?_)
  cases hrequest : hooks.allocate p.requests.length 256 with
  | none =>
    exact meets_bind.mpr (meets_modify.mpr (meets_pure.mpr ⟨rfl, .inr (refused_last (Nat.le_refl _) hrequest)⟩))
  | some memory =>
    refine meets_bind.mpr (meets_modify.mpr ?_)
    have hstart : Holds (growing format p.requests p.live) hooks 0 [] (filled memory 0 256)
        ⟨some (filled memory 0 256), 256, 0, 0, false, format, p.requests ++ [256], p.live + 1⟩ :=
      ⟨rfl, rfl, by rw [length_filled]; rfl, rfl, rfl, rfl, show 256 ≤ INT_MAX by decide, fun hs => (by cases hs), rfl,
        List.prefix_append _ _, granted_last (granted_start hooks p.requests) hrequest, fun hs => (by cases hs),
        .inl (by rw [length_filled]; decide)⟩
    refine meets_bind.mpr (meets_succeeds.mpr ((printValue_meets item hstart).imp ?_ ?_))
    · intro _ q ⟨hfits, hq⟩
      rw [if_pos rfl]
      obtain ⟨front, behind, rest, htext, hholds⟩ := hq
      have hbehind : 0 ∉ behind := fun hmem =>
        layout_noNul format 0 item (htext ▸ List.mem_append_right _ hmem)
      refine (updateOffset_meets hholds hbehind).bind fun _ r hr => (shrink_meets hr).imp ?_ fun _ h => h
      have hwhole : [] ++ front ++ behind = layout format 0 item := htext.symm
      rw [hwhole]
      rintro (_ | block) t ht
      · exact ⟨ht.1, .inr ht.2⟩
      · exact ⟨ht.1, hfits, ht.2.1, ht.2.2⟩
    · intro q hq
      rw [if_neg (by decide)]
      refine (giveUp_meets hq).imp ?_ fun _ h => h
      rintro _ r ⟨rfl, hr⟩
      exact hr

/-- **`cJSON_Print` and `cJSON_PrintUnformatted` under any allocator**: they return, having
used no memory outside of their block, with the text and its NUL in a block of its own, or
with nothing and no block, and that exactly if the text is too long or one of their
requests was refused. -/
theorem print_text (hooks : Hooks) (format : Bool) (item : CJson) (p : PrintBuffer) :
    ∃ r q, print hooks format item p = .done r q ∧ Printed hooks format item p r q :=
  (print_meets hooks format item p).done

/-- **Down to its bytes `cJSON_PrintUnformatted` is `printUnformatted`**, unless one of its
requests is refused; then it returns nothing. -/
theorem print_refines (hooks : Hooks) (item : CJson) (p : PrintBuffer) :
    ∃ r q, print hooks false item p = .done r q ∧
      (¬ Refused hooks p.requests.length q.requests → r = (printUnformatted item).map (· ++ [0])) ∧
      (Refused hooks p.requests.length q.requests → r = none) := by
  obtain ⟨r, q, hdone, hprinted⟩ := (print_meets hooks false item p).done
  refine ⟨r, q, hdone, ?_⟩
  rw [printUnformatted_eq]
  unfold Printed at hprinted
  rw [layout_false] at hprinted
  cases r with
  | some block =>
    obtain ⟨hblock, hfits, -, hgranted⟩ := hprinted
    rw [if_pos hfits, Option.map_some, hblock]
    exact ⟨fun _ => rfl, fun hrefused => absurd hrefused hgranted⟩
  | none =>
    refine ⟨fun hgranted => ?_, fun _ => rfl⟩
    rw [if_neg (Nat.not_le_of_lt (hprinted.2.resolve_right hgranted)), Option.map_none]

/-! ### Buffers of the caller -/

/-- `cJSON_PrintPreallocated` into a block of the caller's. -/
def printPreallocated (hooks : Hooks) (block : List UInt8) (format : Bool) (item : CJson) : Print Bool := do
  modify fun p => ⟨some block, block.length, 0, 0, true, format, p.requests, p.live⟩
  succeeds (printValue hooks item)

/-- `cJSON_PrintBuffered`: the block it starts with is as long as the caller asks for. -/
def printBuffered (hooks : Hooks) (prebuffer : Nat) (format : Bool) (item : CJson) :
    Print (Option (List UInt8)) := do
  let p ← read
  match hooks.allocate p.requests.length prebuffer with
  | none =>
    modify fun p => {p with requests := p.requests ++ [prebuffer]}
    return none
  | some memory =>
    modify fun p => ⟨some (filled memory 0 prebuffer), prebuffer, 0, 0, false, format, p.requests ++ [prebuffer],
      p.live + 1⟩
    if ← succeeds (printValue hooks item) then
      let p ← read
      return p.buffer
    else
      discard
      return none

/-- **A block of the caller's takes the text exactly if it is two bytes longer**, one more
than text and NUL need; nothing outside of it is touched, and nothing is requested of the
allocator. -/
theorem printPreallocated_iff (hooks : Hooks) {block : List UInt8} (hsmall : block.length ≤ INT_MAX)
    (format : Bool) (item : CJson) (p : PrintBuffer) :
    ∃ printed q, printPreallocated hooks block format item p = .done printed q ∧
      (printed = true ↔ (layout format 0 item).length + 2 ≤ block.length) ∧
      (printed = true → ∃ after, q.buffer = some after ∧ after.length = block.length ∧
        layout format 0 item ++ [0] <+: after) ∧ q.live = p.live ∧ q.requests = p.requests := by
  let S : Setting := ⟨true, format, block.length, p.requests, p.live, hsmall, fun h => by cases h⟩
  have hstart : Holds S hooks 0 [] block ⟨some block, block.length, 0, 0, true, format, p.requests, p.live⟩ :=
    ⟨rfl, rfl, (Nat.zero_add _).symm, rfl, rfl, rfl, Nat.le_refl _, fun _ => rfl, rfl, List.prefix_refl _,
      granted_start hooks p.requests, fun _ => rfl, by
        rcases Nat.eq_zero_or_pos block.length with hzero | hpos
        · exact .inr ⟨hzero, .inl rfl⟩
        · exact .inl hpos⟩
  have hmeets : Meets (printPreallocated hooks block format item) p
      (fun printed q => (printed = true ↔ (layout format 0 item).length + 2 ≤ block.length) ∧
        (printed = true → ∃ after, q.buffer = some after ∧ after.length = block.length ∧
          layout format 0 item ++ [0] <+: after) ∧ q.live = p.live ∧ q.requests = p.requests) fun _ => False := by
    refine meets_bind.mpr (meets_modify.mpr (meets_succeeds.mpr ((printValue_meets item hstart).imp ?_ ?_)))
    · intro _ q ⟨hfits, front, behind, rest, htext, hq⟩
      have htext : layout format 0 item = front ++ behind := htext
      have hlength := hq.length
      have hfixed : q.length = block.length := hq.fixed rfl
      refine ⟨iff_of_true rfl hfits, fun _ => ⟨_, hq.buffer, ?_, ?_⟩, hq.owned, hq.silent rfl⟩
      · rw [List.length_append, ← hlength, hfixed]
      · rw [htext]
        exact ⟨rest, by simp⟩
    · intro q hq
      have howned : q.live = p.live + 0 := hq.owned
      refine ⟨iff_of_false (by decide) fun hfits => ?_, fun h => (by cases h), howned, hq.silent rfl⟩
      rcases hq.reason with hlong | ⟨hno, -⟩
      · exact absurd hfits (Nat.not_le_of_lt hlong)
      · cases hno
  exact hmeets.done

/-- An object with members of every kind. -/
def sampleItem : CJson :=
  .object [(lit "id", .string (lit "7\n")), (lit "pid", .number ⟨1000, by decide⟩),
    (lit "argv", .array [.string (lit "ls"), .string (lit "-l")])]

/-- It is printed into 64 bytes without any allocator. -/
theorem sampleItem_printed : ∃ q, printPreallocated ⟨true, fun _ _ => none⟩ (List.replicate 64 1) true sampleItem
    ⟨none, 0, 0, 0, false, false, [], 0⟩ = .done true q ∧ q.requests = [] := by
  obtain ⟨printed, q, hdone, hiff, -, -, hrequests⟩ :=
    printPreallocated_iff ⟨true, fun _ _ => none⟩ (show (List.replicate 64 (1 : UInt8)).length ≤ INT_MAX by decide) true
      sampleItem ⟨none, 0, 0, 0, false, false, [], 0⟩
  obtain rfl : printed = true := hiff.mpr (by decide)
  exact ⟨q, hdone, hrequests⟩

/-- **`cJSON_PrintBuffered` is as `cJSON_Print`**, with a block that is not shrunk. A start of
no bytes takes `realloc`: by hand one byte too many is copied. -/
theorem printBuffered_text (hooks : Hooks) {prebuffer : Nat} (hsmall : prebuffer ≤ INT_MAX)
    (hstart : 0 < prebuffer ∨ hooks.reallocates = true) (format : Bool) (item : CJson) (p : PrintBuffer) :
    ∃ r q, printBuffered hooks prebuffer format item p = .done r q ∧
      match r with
      | some block => layout format 0 item ++ [0] <+: block ∧ q.live = p.live + 1 ∧
          ¬ Refused hooks p.requests.length q.requests
      | none => q.live = p.live ∧ (INT_MAX < (layout format 0 item).length + 2 ∨
          Refused hooks p.requests.length q.requests) := by
  have hmeets : Meets (printBuffered hooks prebuffer format item) p
      (fun r q => match r with
        | some block => layout format 0 item ++ [0] <+: block ∧ q.live = p.live + 1 ∧
            ¬ Refused hooks p.requests.length q.requests
        | none => q.live = p.live ∧ (INT_MAX < (layout format 0 item).length + 2 ∨
            Refused hooks p.requests.length q.requests)) fun _ => False := by
    refine meets_bind.mpr (meets_read.mpr ?_)
    cases hrequest : hooks.allocate p.requests.length prebuffer with
    | none =>
      exact meets_bind.mpr (meets_modify.mpr (meets_pure.mpr ⟨rfl, .inr (refused_last (Nat.le_refl _) hrequest)⟩))
    | some memory =>
      refine meets_bind.mpr (meets_modify.mpr ?_)
      have hlength : (filled memory 0 prebuffer).length = prebuffer := length_filled _ _ _
      have hholds : Holds (growing format p.requests p.live) hooks 0 [] (filled memory 0 prebuffer)
          ⟨some (filled memory 0 prebuffer), prebuffer, 0, 0, false, format, p.requests ++ [prebuffer], p.live + 1⟩ := by
        refine ⟨rfl, rfl, by rw [hlength]; exact (Nat.zero_add _).symm, rfl, rfl, rfl, hsmall,
          fun hs => (by cases hs), rfl, List.prefix_append _ _, granted_last (granted_start hooks p.requests) hrequest,
          fun hs => (by cases hs), ?_⟩
        rw [hlength]
        rcases Nat.eq_zero_or_pos prebuffer with hzero | hpos
        · exact .inr ⟨hzero, .inr (hstart.resolve_left (by omega))⟩
        · exact .inl hpos
      refine meets_bind.mpr (meets_succeeds.mpr ((printValue_meets item hholds).imp ?_ ?_))
      · intro _ q ⟨_, front, behind, rest, htext, hq⟩
        have htext : layout format 0 item = front ++ behind := htext
        rw [if_pos rfl]
        refine meets_bind.mpr (meets_read.mpr (meets_pure.mpr ?_))
        rw [hq.buffer]
        refine ⟨⟨rest, ?_⟩, hq.owned, hq.granted⟩
        rw [htext]
        simp
      · intro q hq
        rw [if_neg (by decide)]
        refine (giveUp_meets hq).imp ?_ fun _ h => h
        rintro _ r ⟨rfl, hr⟩
        exact hr
  exact hmeets.done

end PrintBuffer

end EndpointSecurity.Agent
