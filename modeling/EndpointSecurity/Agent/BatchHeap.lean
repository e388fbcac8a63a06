import EndpointSecurity.Agent.Batches
import EndpointSecurity.Agent.CJsonWalk
import Mathlib

/-! `submit_events` on the heap: what it builds, and what it leaves there.

None of the calls that build the tree is checked, so a request that the allocator
refuses only leaves something out: `Pruned` says what may be missing, and without a
refusal it is equality. But the text is printed to the terminal before it is sent, and
without a root or without memory for the text that is a null pointer. Nothing that is
built is ever freed. -/
namespace EndpointSecurity.Agent
open Library HeapProgram Assertion

/-! ### Building -/

/-- The inner loop, over the arguments with these numbers. -/
def buildArgv (A : Allocator Block) (argvArray : Option Addr) (e : Event) : List Nat → OnHeap Unit
  | [] => pure ()
  | j :: rest => do
    let arg ← createString A (readArg e j)
    let _ ← addItemToArray argvArray arg
    buildArgv A argvArray e rest

/-- The body of the loop: the object for one record. -/
def buildEvent (A : Allocator Block) (now : Timespec) (e : Event) : OnHeap (Option Addr) := do
  let event ← createObject A
  let _ ← addNumberToObject A event (lit "timestamp")
    (wholeOfUInt64 (convertNsToUnix now e.timestamp) (convertNsToUnix_small now e.timestamp))
  let _ ← addNumberToObject A event (lit "type") (wholeOfInt32 e.call)
  let _ ← addNumberToObject A event (lit "pid") (wholeOfUInt32 e.pid)
  let _ ← addNumberToObject A event (lit "ppid") (wholeOfUInt32 e.ppid)
  let _ ← addStringToObject A event (lit "filename") (readString e.filename)
  let _ ← addNumberToObject A event (lit "argc") (wholeOfUInt32 e.argc)
  let argvArray ← createArray A
  buildArgv A argvArray e (List.range e.argc.toNat)
  let _ ← addItemToObject A event (lit "argv") argvArray
  return event

/-- The loop over the records, from the `i`-th one on. -/
def buildEvents (A : Allocator Block) (clock : Nat → Timespec) (eventsArray : Option Addr) :
    Nat → List Event → OnHeap Unit
  | _, [] => pure ()
  | i, e :: rest => do
    let event ← buildEvent A (clock i) e
    let _ ← addItemToArray eventsArray event
    buildEvents A clock eventsArray (i + 1) rest

def buildRoot (A : Allocator Block) (id : List UInt8) (clock : Nat → Timespec) (events : List Event) :
    OnHeap (Option Addr) := do
  let root ← createObject A
  let eventsArray ← createArray A
  buildEvents A clock eventsArray 0 events
  let _ ← addStringToObject A root (lit "id") (some id)
  let _ ← addItemToObject A root (lit "events") eventsArray
  return root

/-- `cJSON_PrintUnformatted`: the text goes into a block of its own. -/
def printRoot (A : Allocator Block) : Option Addr → OnHeap (Option (List UInt8))
  | none => pure none
  | some root => do
    let t ← view root
    match printUnformatted t with
    | none => return none
    | some text => do
      match ← allocate A (.text text) with
      | none => return none
      | some _ => return some text

/-- `printf("%s\n", post_data)`: a null pointer is no string. -/
def printLine : Option (List UInt8) → OnHeap (List UInt8)
  | none => wrong
  | some text => pure text

/-- `submit_events`, with the memory it takes. -/
def postEvents (A : Allocator Block) (c : Config) (clock : Nat → Timespec) (curl : CurlRun) (events : List Event) :
    OnHeap Submission :=
  match curl with
  | .initFails => pure ⟨submitReturn curl, none⟩
  | .performs _ => do
    let root ← buildRoot A c.id.string clock events
    let postData ← printRoot A root
    let text ← printLine postData
    return ⟨submitReturn curl, some {
      url := c.api.string
      headers := [lit "Content-Type: application/json", authHeader c]
      body := some text }⟩

/-! ### What may be missing -/

/-- A list that lacks some elements of another one, if anything may be missing, and has the
others in their order. -/
inductive Thinned {α : Type} (missing : Prop) (R : α → α → Prop) : List α → List α → Prop
  | nil : Thinned missing R [] []
  | keep {x y : α} {xs ys : List α} : R x y → Thinned missing R xs ys → Thinned missing R (x :: xs) (y :: ys)
  | drop {y : α} {xs ys : List α} : missing → Thinned missing R xs ys → Thinned missing R xs (y :: ys)

/-- The same key with values that are related. -/
inductive SameKey {κ α : Type} (R : α → α → Prop) : κ × α → κ × α → Prop
  | intro (key : κ) {x y : α} : R x y → SameKey R (key, x) (key, y)

/-- A tree that lacks some parts of another one, if anything may be missing. -/
inductive Pruned (missing : Prop) : CJson → CJson → Prop
  | number (d : Whole) : Pruned missing (.number d) (.number d)
  | string (s : List UInt8) : Pruned missing (.string s) (.string s)
  | array {us ts : List CJson} : Thinned missing (Pruned missing) us ts → Pruned missing (.array us) (.array ts)
  | object {us ts : List (List UInt8 × CJson)} :
    Thinned missing (SameKey (Pruned missing)) us ts → Pruned missing (.object us) (.object ts)

section
variable {α : Type} {missing : Prop} {R : α → α → Prop} {x y : α} {xs ys : List α}

theorem Thinned.concat_keep (h : Thinned missing R xs ys) (hxy : R x y) :
    Thinned missing R (xs ++ [x]) (ys ++ [y]) := by
  induction h with
  | nil => exact .keep hxy .nil
  | keep hR _ ih => exact .keep hR ih
  | drop hm _ ih => exact .drop hm ih

theorem Thinned.concat_drop (h : Thinned missing R xs ys) (hm : missing) : Thinned missing R xs (ys ++ [y]) := by
  induction h with
  | nil => exact .drop hm .nil
  | keep hR _ ih => exact .keep hR ih
  | drop hm' _ ih => exact .drop hm' ih

theorem Thinned.eq (h : Thinned missing R xs ys) (hm : ¬ missing) (hR : ∀ y ∈ ys, ∀ x, R x y → x = y) : xs = ys := by
  induction h with
  | nil => rfl
  | keep hxy _ ih =>
    rw [hR _ List.mem_cons_self _ hxy, ih fun y hy => hR y (List.mem_cons_of_mem _ hy)]
  | drop hmissing => exact absurd hmissing hm

end

mutual
/-- Where nothing may be missing, nothing is. -/
theorem Pruned.eq {missing : Prop} (hm : ¬ missing) : ∀ (t u : CJson), Pruned missing u t → u = t
  | .number _, _, .number _ => rfl
  | .string _, _, .string _ => rfl
  | .array ts, _, .array h => congrArg CJson.array (h.eq hm (Pruned.eq_items hm ts))
  | .object ms, _, .object h => congrArg CJson.object (h.eq hm (Pruned.eq_members hm ms))

theorem Pruned.eq_items {missing : Prop} (hm : ¬ missing) :
    ∀ (ts : List CJson), ∀ t ∈ ts, ∀ u, Pruned missing u t → u = t
  | [], _, h => by cases h
  | t :: rest, s, h => by
    have hhead := Pruned.eq hm t
    have hrest := Pruned.eq_items hm rest s
    rcases List.mem_cons.mp h with rfl | h
    · exact hhead
    · exact hrest h

theorem Pruned.eq_members {missing : Prop} (hm : ¬ missing) : ∀ (ms : List (List UInt8 × CJson)), ∀ q ∈ ms,
    ∀ p, SameKey (Pruned missing) p q → p = q
  | [], _, h => by cases h
  | (name, t) :: rest, q, h => by
    have hhead := Pruned.eq hm t
    have hrest := Pruned.eq_members hm rest q
    rcases List.mem_cons.mp h with rfl | h
    · rintro _ ⟨_, ht⟩
      rw [hhead _ ht]
    · exact hrest h
end

/-! ### What is built -/

/-- What may be left behind: nothing, unless a request was refused. -/
def lost (denied : Prop) : Assertion Block := {h | denied ∨ h = ∅}

/-- What there is of a tree; without its item there is nothing. -/
def Partly (denied : Prop) (t : CJson) : Option Addr → Assertion Block
  | none => fact denied
  | some a => ⨆ u : CJson, fact (Pruned denied u t) * tree u a

variable {denied : Prop}

theorem one_le_lost : 1 ≤ lost denied := fun _ hh => .inr hh

theorem le_lost {P : Assertion Block} (h : denied) : P ≤ lost denied := fun _ _ => .inl h

theorem lost_mul_lost : lost denied * lost denied ≤ lost denied := by
  rintro _ ⟨h₁, h₂, -, rfl, hl₁, hl₂⟩
  rcases hl₁ with hdenied | rfl
  · exact .inl hdenied
  · rw [Finmap.empty_union]
    exact hl₂

theorem lost_eq_one (h : ¬ denied) : lost denied = 1 := ext fun _ => or_iff_right h

theorem le_partly {t u : CJson} {a : Addr} (h : Pruned denied u t) : tree u a ≤ Partly denied t (some a) :=
  le_iSup_of_le u (le_fact_mul h)

theorem partly_le {t : CJson} (h : ¬ denied) (r : Option Addr) :
    Partly denied t r ≤ ⨆ a : Addr, fact (r = some a) * tree t a := by
  cases r with
  | none => exact fun k hk => absurd hk.1 h
  | some a =>
    refine iSup_le fun u k hk => ?_
    obtain ⟨hu, hk⟩ := mem_fact_mul.mp hk
    rw [hu.eq h t] at hk
    exact mem_iSup.mpr ⟨a, mem_fact_mul.mpr ⟨rfl, hk⟩⟩

/-- A tree that is made without children. -/
theorem made_le_partly {t : CJson} (h : Pruned denied t t) (r : Option Addr) : Made denied t r ≤ Partly denied t r := by
  cases r with
  | none => exact le_rfl
  | some a => exact le_partly h

theorem memberCells_append (us vs : List (List UInt8 × CJson)) :
    memberCells (us ++ vs) = memberCells us ++ memberCells vs := by
  induction us with
  | nil => rfl
  | cons p us ih => exact congrArg (_ :: ·) ih

theorem itemCells_append (us vs : List CJson) : itemCells (us ++ vs) = itemCells us ++ itemCells vs := by
  induction us with
  | nil => rfl
  | cons p us ih => exact congrArg (_ :: ·) ih

theorem isNode_memberCells (us : List (List UInt8 × CJson)) : ∀ c ∈ memberCells us, IsNode c := by
  induction us with
  | nil => exact fun c h => by cases h
  | cons p us ih =>
    intro c h
    rcases List.mem_cons.mp h with rfl | h
    · exact ⟨_, _, _, rfl⟩
    · exact ih c h

theorem isNode_itemCells (us : List CJson) : ∀ c ∈ itemCells us, IsNode c := by
  induction us with
  | nil => exact fun c h => by cases h
  | cons p us ih =>
    intro c h
    rcases List.mem_cons.mp h with rfl | h
    · exact ⟨_, _, _, rfl⟩
    · exact ih c h

/-- An object with one member more. -/
theorem node_object_concat (us : List (List UInt8 × CJson)) (key : List UInt8) (u : CJson) (a : Addr) :
    node none (.object us) (memberCells us ++ [node (some key) u (childCells u)]) a none none =
      tree (.object (us ++ [(key, u)])) a := by
  rw [tree, childCells, memberCells_append]
  rfl

theorem node_array_concat (us : List CJson) (u : CJson) (a : Addr) :
    node none (.array us) (itemCells us ++ [node none u (childCells u)]) a none none = tree (.array (us ++ [u])) a := by
  rw [tree, childCells, itemCells_append]
  rfl

theorem addToObject_partly (A : Allocator Block) {create : OnHeap (Option Addr)} {u : CJson}
    (hcreate : Triple denied 1 create (Made denied u))
    (hu : Pruned denied u u) (ms : List (List UInt8 × CJson)) (key : List UInt8) (r : Option Addr) :
    Triple denied (Partly denied (.object ms) r) (addToObject A r key create) fun _ =>
      Partly denied (.object (ms ++ [(key, u)])) r := by
  cases r with
  | none => exact (addToObject_null A hcreate key).focus (one_mul _).symm fun _ => (one_mul _).le
  | some a =>
    refine Triple.iSup fun t => Triple.fact_mul fun ht => ?_
    obtain ⟨us, rfl, hus⟩ : ∃ us, t = .object us ∧ Thinned denied (SameKey (Pruned denied)) us ms := by
      cases ht with
      | object h => exact ⟨_, rfl, h⟩
    refine (addToObject_triple A hcreate (isNode_memberCells us) key).conseq le_rfl fun _ => sup_le ?_ ?_
    · rw [node_object_concat]
      exact le_partly (.object (hus.concat_keep ⟨key, hu⟩))
    · intro h hh
      obtain ⟨hdenied, hh⟩ := mem_fact_mul.mp hh
      exact le_partly (.object (hus.concat_drop hdenied)) hh

/-- An item goes into an object, or stays out and is lost. -/
theorem addItemToObject_partly (A : Allocator Block) (ms : List (List UInt8 × CJson)) (t : CJson) (key : List UInt8)
    (r v : Option Addr) :
    Triple denied (Partly denied (.object ms) r * Partly denied t v) (addItemToObject A r key v) fun _ =>
      Partly denied (.object (ms ++ [(key, t)])) r * lost denied := by
  cases r with
  | none =>
    refine Triple.fact_mul fun hdenied => Triple.pure ?_
    exact (le_lost hdenied).trans (le_fact_mul hdenied)
  | some a =>
    refine Triple.iSup_mul fun s => ?_
    rw [mul_assoc]
    refine Triple.fact_mul fun hs => ?_
    obtain ⟨us, rfl, hus⟩ : ∃ us, s = .object us ∧ Thinned denied (SameKey (Pruned denied)) us ms := by
      cases hs with
      | object h => exact ⟨_, rfl, h⟩
    have hdrop : ∀ (P : Assertion Block), denied → tree (.object us) a * P ≤
        Partly denied (.object (ms ++ [(key, t)])) (some a) * lost denied := fun P hdenied =>
      mul_le_mul' (le_partly (.object (hus.concat_drop hdenied))) (le_lost hdenied)
    cases v with
    | none =>
      rw [mul_comm]
      refine Triple.fact_mul fun hdenied => Triple.pure ?_
      exact (mul_one _).ge.trans (hdrop 1 hdenied)
    | some b =>
      rw [mul_comm]
      refine Triple.iSup_mul fun u => ?_
      rw [mul_assoc]
      refine Triple.fact_mul fun hu => ?_
      rw [mul_comm]
      refine (addItemToObject_node A (isNode_memberCells us)).conseq le_rfl fun r => ?_
      cases r with
      | true =>
        dsimp only
        rw [node_object_concat]
        exact (mul_one _).ge.trans (mul_le_mul' (le_partly (.object (hus.concat_keep ⟨key, hu⟩))) one_le_lost)
      | false =>
        intro h hh
        obtain ⟨hdenied, hh⟩ := mem_fact_mul.mp hh
        exact hdrop _ hdenied hh

/-- An item goes into an array, or is lost with the array. -/
theorem addItemToArray_partly (ts : List CJson) (t : CJson) (r v : Option Addr) :
    Triple denied (Partly denied (.array ts) r * Partly denied t v) (addItemToArray r v) fun _ =>
      Partly denied (.array (ts ++ [t])) r * lost denied := by
  cases r with
  | none =>
    refine Triple.fact_mul fun hdenied => Triple.pure ?_
    exact (le_lost hdenied).trans (le_fact_mul hdenied)
  | some a =>
    refine Triple.iSup_mul fun s => ?_
    rw [mul_assoc]
    refine Triple.fact_mul fun hs => ?_
    obtain ⟨us, rfl, hus⟩ : ∃ us, s = .array us ∧ Thinned denied (Pruned denied) us ts := by
      cases hs with
      | array h => exact ⟨_, rfl, h⟩
    cases v with
    | none =>
      rw [mul_comm]
      refine Triple.fact_mul fun hdenied => Triple.pure ?_
      exact (mul_one _).ge.trans (mul_le_mul' (le_partly (.array (hus.concat_drop hdenied))) one_le_lost)
    | some b =>
      rw [mul_comm]
      refine Triple.iSup_mul fun u => ?_
      rw [mul_assoc]
      refine Triple.fact_mul fun hu => ?_
      rw [mul_comm]
      refine (addItemToArray_node (isNode_itemCells us) ⟨none, u, childCells u, rfl⟩).conseq le_rfl fun r => ?_
      rw [node_array_concat]
      refine fun h hh => ?_
      exact (mul_one (Partly _ _ _)).ge.trans (mul_le_mul' le_rfl one_le_lost)
        (le_partly (.array (hus.concat_keep hu)) (mem_fact_mul.mp hh).2)

/-! ### `submit_events` -/

theorem readArg_safe {e : Event} (he : e.Safe) {j : Nat} (hj : j < e.argc.toNat) : readArg e j = some (e.arg j) := by
  have hlt : j < MAX_ARGS := Nat.lt_of_lt_of_le hj he.argc
  rw [readArg, dif_pos hlt]
  exact readString_eq_some.mpr ⟨he.argv ⟨j, hlt⟩ hj, (e.arg_fin ⟨j, hlt⟩).symm⟩

theorem absorb_lost (P : Assertion Block) : P * lost denied * lost denied ≤ P * lost denied := by
  rw [mul_assoc]
  exact mul_le_mul' le_rfl lost_mul_lost

theorem le_mul_lost (P : Assertion Block) : P ≤ P * lost denied :=
  (mul_one _).ge.trans (mul_le_mul' le_rfl one_le_lost)

theorem buildArgv_triple (A : Allocator Block) {e : Event} (he : e.Safe) (argvArray : Option Addr) :
    ∀ (js : List Nat) (ts : List CJson),
    (∀ j ∈ js, j < e.argc.toNat) →
    Triple denied (Partly denied (.array ts) argvArray) (buildArgv A argvArray e js) fun _ =>
      Partly denied (.array (ts ++ js.map fun j => .string (e.arg j))) argvArray * lost denied
  | [], ts, _ => by
    rw [List.map_nil, List.append_nil]
    exact Triple.pure (le_mul_lost _)
  | j :: js, ts, hjs => by
    unfold buildArgv
    rw [readArg_safe he (hjs j List.mem_cons_self)]
    have hcreate : Triple denied 1 (createString A (some (e.arg j))) (Partly denied (.string (e.arg j))) :=
      (createString_triple A (e.arg j)).conseq le_rfl (made_le_partly (.string _))
    refine hcreate.bind (one_mul _).symm fun r => ?_
    rw [mul_comm]
    refine (addItemToArray_partly ts _ argvArray r).seq fun _ => ?_
    have hrest := buildArgv_triple A he argvArray js (ts ++ [.string (e.arg j)]) fun k hk =>
      hjs k (List.mem_cons_of_mem j hk)
    rw [List.append_assoc] at hrest
    exact hrest.focus rfl fun _ => absorb_lost _

theorem buildEvent_triple (A : Allocator Block) {e : Event} (he : e.Safe) (now : Timespec) :
    Triple denied 1 (buildEvent A now e) fun r => Partly denied (eventObject now e.reading) r * lost denied := by
  have hnumber : ∀ ms key d r, Triple denied (Partly denied (.object ms) r) (addNumberToObject A r key d) fun _ =>
      Partly denied (.object (ms ++ [(key, .number d)])) r := fun ms key d r =>
    addToObject_partly A (createNumber_triple A d) (.number d) ms key r
  have hobject : Triple denied 1 (createObject A) (Partly denied (.object [])) :=
    (createObject_triple A).conseq le_rfl (made_le_partly (.object .nil))
  have harray : Triple denied 1 (createArray A) (Partly denied (.array [])) :=
    (createArray_triple A).conseq le_rfl (made_le_partly (.array .nil))
  refine hobject.seq fun event => ?_
  refine (hnumber [] _ _ event).seq fun _ => ?_
  refine (hnumber _ _ _ event).seq fun _ => ?_
  refine (hnumber _ _ _ event).seq fun _ => ?_
  refine (hnumber _ _ _ event).seq fun _ => ?_
  have hfilename : readString e.filename = some e.filename.string := readString_eq_some.mpr ⟨he.filename, rfl⟩
  rw [hfilename]
  refine (addToObject_partly A (createString_triple A e.filename.string) (.string _) _ _ event).seq fun _ => ?_
  refine (hnumber _ _ _ event).seq fun _ => ?_
  refine harray.bind (one_mul _).symm fun argvArray => ?_
  have hrange : ∀ j ∈ List.range e.argc.toNat, j < e.argc.toNat := fun j hj => List.mem_range.mp hj
  refine (buildArgv_triple A he argvArray (List.range e.argc.toNat) [] hrange).bind rfl fun _ => ?_
  refine (addItemToObject_partly A _ _ _ event argvArray).bind (F := lost denied) (by ac_rfl) fun _ => ?_
  have hargv : (List.range e.argc.toNat).map (fun j => CJson.string (e.arg j)) =
      e.reading.argv.map CJson.string := (List.map_map ..).symm
  rw [hargv]
  exact Triple.pure (absorb_lost _)

theorem buildEvents_triple (A : Allocator Block) (clock : Nat → Timespec) (eventsArray : Option Addr) :
    ∀ (events : List Event) (i : Nat) (ts : List CJson), (∀ e ∈ events, e.Safe) →
    Triple denied (Partly denied (.array ts) eventsArray) (buildEvents A clock eventsArray i events) fun _ =>
      Partly denied (.array (ts ++ events.mapIdx fun j e => eventObject (clock (i + j)) e.reading)) eventsArray *
        lost denied
  | [], _, ts, _ => by
    rw [List.mapIdx_nil, List.append_nil]
    exact Triple.pure (le_mul_lost _)
  | e :: events, i, ts, hsafe => by
    refine (buildEvent_triple A (hsafe e List.mem_cons_self) (clock i)).bind (one_mul _).symm fun event => ?_
    refine (addItemToArray_partly ts (eventObject (clock i) e.reading) eventsArray event).bind (F := lost denied)
      (by ac_rfl) fun _ => ?_
    have hrest := buildEvents_triple A clock eventsArray events (i + 1) (ts ++ [eventObject (clock i) e.reading])
      fun d hd => hsafe d (List.mem_cons_of_mem e hd)
    have hindex : (ts ++ [eventObject (clock i) e.reading]) ++
        events.mapIdx (fun j e => eventObject (clock (i + 1 + j)) e.reading) =
        ts ++ (e :: events).mapIdx fun j e => eventObject (clock (i + j)) e.reading := by
      rw [List.mapIdx_cons, List.append_assoc]
      simp only [Nat.add_zero, List.singleton_append, Nat.add_assoc, Nat.add_comm 1]
    rw [hindex] at hrest
    refine hrest.focus (mul_assoc _ _ _) fun _ => ?_
    rw [← mul_assoc]
    exact (absorb_lost _).trans (absorb_lost _)

/-- Whatever the allocator refuses, what hangs off the root is part of the batch; what is
built and does not hang off it is lost. -/
theorem buildRoot_triple (A : Allocator Block) {events : List Event} (hsafe : ∀ e ∈ events, e.Safe) (id : List UInt8)
    (clock : Nat → Timespec) :
    Triple denied 1 (buildRoot A id clock events) fun r =>
      Partly denied (batchObject id clock (events.map Event.reading)) r * lost denied := by
  have hobject : Triple denied 1 (createObject A) (Partly denied (.object [])) :=
    (createObject_triple A).conseq le_rfl (made_le_partly (.object .nil))
  have harray : Triple denied 1 (createArray A) (Partly denied (.array [])) :=
    (createArray_triple A).conseq le_rfl (made_le_partly (.array .nil))
  refine hobject.seq fun root => ?_
  refine harray.bind (one_mul _).symm fun eventsArray => ?_
  refine (buildEvents_triple A clock eventsArray events 0 [] hsafe).bind rfl fun _ => ?_
  refine (addToObject_partly A (createString_triple A id) (.string id) [] (lit "id") root).bind (mul_comm _ _) fun _ => ?_
  refine (addItemToObject_partly A _ _ (lit "events") root eventsArray).bind (mul_assoc _ _ _).symm fun _ => ?_
  have hbatch : events.mapIdx (fun j e => eventObject (clock (0 + j)) e.reading) =
      (events.map Event.reading).mapIdx fun i r => eventObject (clock i) r := by
    apply List.ext_getElem?
    intro j
    simp [List.getElem?_mapIdx, Function.comp_def]
  rw [List.nil_append, hbatch]
  exact Triple.pure (absorb_lost _)

/-- The text of a tree goes into a block of its own, if there is one for it. -/
theorem printRoot_triple (A : Allocator Block) (u : CJson) (a : Addr) :
    Triple denied (tree u a) (printRoot A (some a)) fun body =>
    fact (body = printUnformatted u ∨ denied ∧ body = none) * (tree u a * ⨆ v : Option Addr, textAt v body) := by
  refine (view_tree u a).bind_eq (mul_one _).symm ?_
  rw [mul_one]
  have hnothing : (1 : Assertion Block) ≤ ⨆ v : Option Addr, textAt v none := le_iSup_of_le none le_rfl
  cases hprint : printUnformatted u with
  | none =>
    refine Triple.pure ?_
    refine le_trans ?_ (le_fact_mul (.inl rfl))
    exact (mul_one _).ge.trans (mul_le_mul' le_rfl hnothing)
  | some text =>
    refine (Triple.allocate A (.text text)).bind (one_mul _).symm fun r => ?_
    cases r with
    | none =>
      refine Triple.fact_mul fun hdenied => Triple.pure ?_
      refine le_trans ?_ (le_fact_mul (.inr ⟨hdenied, rfl⟩))
      exact (mul_one _).ge.trans (mul_le_mul' le_rfl hnothing)
    | some v =>
      refine Triple.pure ?_
      refine le_trans ?_ (le_fact_mul (.inl rfl))
      rw [mul_comm]
      exact mul_le_mul' le_rfl (le_iSup_of_le (some v) le_rfl)

/-- What a call that makes a request leaves on the heap: the tree of the batch, and its text. -/
def leftover (id : List UInt8) (clock : Nat → Timespec) (batch : List Reading) : Assertion Block :=
  ⨆ a : Addr, tree (batchObject id clock batch) a *
    ⨆ v : Option Addr, textAt v (printUnformatted (batchObject id clock batch))

/-! ### Runs -/

/-- The first request is for the root. -/
theorem buildRoot_none {A : Allocator Block} {id : List UInt8} {clock : Nat → Timespec} {events : List Event}
    {m t : HeapState Block} {root : Option Addr} (h : buildRoot A id clock events m = .done root t) :
    root = none ↔ A.place m.requests m.blocks (.item .zero) = none := by
  obtain ⟨r, t₁, hcreate, hrest⟩ := bind_eq_done.mp h
  obtain ⟨_, t₂, _, hrest⟩ := bind_eq_done.mp hrest
  obtain ⟨_, t₃, _, hrest⟩ := bind_eq_done.mp hrest
  obtain ⟨_, t₄, _, hrest⟩ := bind_eq_done.mp hrest
  obtain ⟨_, t₅, _, hrest⟩ := bind_eq_done.mp hrest
  obtain ⟨rfl, -⟩ := Outcome.done.inj hrest
  obtain ⟨item, u, hnew, hupdate⟩ := bind_eq_done.mp hcreate
  unfold newItem allocate at hnew
  cases hplace : A.place m.requests m.blocks (.item .zero) with
  | none =>
    simp only [hplace, Outcome.done.injEq] at hnew
    obtain ⟨rfl, -⟩ := hnew
    obtain ⟨rfl, -⟩ := Outcome.done.inj hupdate
    exact iff_of_true rfl rfl
  | some a =>
    simp only [hplace, Outcome.done.injEq] at hnew
    obtain ⟨rfl, -⟩ := hnew
    obtain ⟨_, _, _, hreturn⟩ := bind_eq_done.mp hupdate
    obtain ⟨rfl, -⟩ := Outcome.done.inj hreturn
    simp

/-- What a call has built and printed: `root` and `body` are what it holds then, `new` are the
blocks it has taken. -/
structure Written (batch : CJson) (m t u : HeapState Block) (new : Heap Block) (root : Option Addr)
    (body : Option (List UInt8)) : Prop where
  apart : Finmap.Disjoint new m.blocks
  blocks : u.blocks = new ∪ m.blocks
  content : match root with
    | none => m.refusals < t.refusals ∧ body = none
    | some a => ∃ part, view a t = .done part t ∧ Pruned (m.refusals < t.refusals) part batch ∧
      (body = printUnformatted part ∨ t.refusals < u.refusals ∧ body = none) ∧
      new ∈ (tree part a * ⨆ v : Option Addr, textAt v body) * lost (m.refusals < t.refusals)

theorem write_run (A : Allocator Block) {events : List Event} (hsafe : ∀ e ∈ events, e.Safe) (id : List UInt8)
    (clock : Nat → Timespec) (m : HeapState Block) :
    ∃ root t body u new, buildRoot A id clock events m = .done root t ∧ printRoot A root t = .done body u ∧
      Written (batchObject id clock (events.map Event.reading)) m t u new root body := by
  obtain ⟨root, t, k, hbuild, hk, hd, ht⟩ := Triple.run (fun _ => buildRoot_triple A hsafe id clock)
    (m := m) rfl (Finmap.disjoint_empty _) Finmap.empty_union.symm
  obtain ⟨k₁, k₂, hd₁₂, rfl, hk₁, hk₂⟩ := mem_mul.mp hk
  cases root with
  | none => exact ⟨none, t, none, t, k₁ ∪ k₂, hbuild, rfl, hd, ht, hk₁.1, rfl⟩
  | some a =>
    obtain ⟨part, hpart⟩ := mem_iSup.mp hk₁
    obtain ⟨hpruned, htree⟩ := mem_fact_mul.mp hpart
    obtain ⟨hd₁, hd₂⟩ := (Finmap.disjoint_union_left _ _ _).mp hd
    have hrest : Finmap.Disjoint k₁ (k₂ ∪ m.blocks) := (Finmap.disjoint_union_right _ _ _).mpr ⟨hd₁₂, hd₁⟩
    obtain ⟨_, _, _, hview, hshown, -, -⟩ := Triple.run (fun _ => view_tree part a) htree hrest
      (ht.trans Finmap.union_assoc)
    rw [quiet_view a t _ _ hview, (mem_fact_mul.mp hshown).1] at hview
    obtain ⟨body, u, k', hprint, hk', hd', hu⟩ := Triple.run (fun _ => printRoot_triple A part a) htree hrest
      (ht.trans Finmap.union_assoc)
    obtain ⟨hbody, hk'⟩ := mem_fact_mul.mp hk'
    obtain ⟨hd'₂, hd'₁⟩ := (Finmap.disjoint_union_right _ _ _).mp hd'
    exact ⟨some a, t, body, u, k' ∪ k₂, hbuild, hprint, (Finmap.disjoint_union_left _ _ _).mpr ⟨hd'₁, hd₂⟩,
      hu.trans Finmap.union_assoc.symm, _, hview, hpruned, hbody,
      mem_mul.mpr ⟨k', k₂, hd'₂, rfl, hk', hk₂⟩⟩

/-- What is done with the text. -/
theorem postEvents_eq {A : Allocator Block} (c : Config) {clock : Nat → Timespec} (res : Nat) {events : List Event}
    {m t u : HeapState Block} {root : Option Addr} {body : Option (List UInt8)}
    (hbuild : buildRoot A c.id.string clock events m = .done root t) (hprint : printRoot A root t = .done body u) :
    postEvents A c clock (.performs res) events m = body.elim .wrong fun text =>
      .done ⟨submitReturn (.performs res), some {
        url := c.api.string
        headers := [lit "Content-Type: application/json", authHeader c]
        body := some text }⟩ u := by
  show (buildRoot A c.id.string clock events >>= fun root => printRoot A root >>= fun postData =>
    printLine postData >>= fun text => pure _ : OnHeap Submission) m = _
  rw [bind_of_done hbuild, bind_of_done hprint]
  cases body <;> rfl

/-- How a call with a transfer goes: what is built, what of it is printed and sent, and where
it goes wrong. -/
structure Posted (A : Allocator Block) (c : Config) (clock : Nat → Timespec) (res : Nat) (events : List Event)
    (m t u : HeapState Block) (root : Option Addr) (part : CJson) (body : Option (List UInt8)) : Prop where
  built : buildRoot A c.id.string clock events m = .done root t
  printed : printRoot A root t = .done body u
  kept : ∀ a b, m.blocks.lookup a = some b → u.blocks.lookup a = some b
  rootless : root = none ↔ A.place m.requests m.blocks (.item .zero) = none
  /-- From the root the printer meets a part of the batch, all of it if nothing was refused. -/
  shows : ∀ a ∈ root, view a t = .done part t ∧
    Pruned (m.refusals < t.refusals) part (batchObject c.id.string clock (events.map Event.reading))
  noText : body = none ↔ root = none ∨ t.refusals < u.refusals ∨ printUnformatted part = none
  goesWrong : postEvents A c clock (.performs res) events m = .wrong ↔ body = none
  sent : ∀ text, body = some text → printUnformatted part = some text ∧
    postEvents A c clock (.performs res) events m = .done ⟨submitReturn (.performs res), some {
      url := c.api.string
      headers := [lit "Content-Type: application/json", authHeader c]
      body := some text }⟩ u

/-- There is no text where it does not fit, or where the request for it is refused. -/
theorem printRoot_cases {A : Allocator Block} {a : Addr} {part : CJson} {body : Option (List UInt8)}
    {t u : HeapState Block} (hview : view a t = .done part t) (hprint : printRoot A (some a) t = .done body u) :
    (body = none ↔ t.refusals < u.refusals ∨ printUnformatted part = none) ∧
      ∀ text, body = some text → printUnformatted part = some text := by
  have hrun := hprint
  unfold printRoot at hrun
  rw [bind_of_done hview] at hrun
  cases htext : printUnformatted part with
  | none =>
    simp only [htext] at hrun
    obtain ⟨rfl, rfl⟩ := Outcome.done.inj hrun
    simp
  | some text =>
    simp only [htext] at hrun
    obtain ⟨r, u', hallocate, hreturn⟩ := bind_eq_done.mp hrun
    unfold allocate at hallocate
    cases hplace : A.place t.requests t.blocks (.text text) with
    | none =>
      simp only [hplace, Outcome.done.injEq] at hallocate
      obtain ⟨rfl, rfl⟩ := hallocate
      obtain ⟨rfl, rfl⟩ := Outcome.done.inj hreturn
      simp
    | some v =>
      simp only [hplace, Outcome.done.injEq] at hallocate
      obtain ⟨rfl, rfl⟩ := hallocate
      obtain ⟨rfl, rfl⟩ := Outcome.done.inj hreturn
      simp

/-- **`submit_events` under any allocator**: the request is made with the text of a part of the
batch, all of it if nothing was refused while it was built, and nothing that was allocated
before is touched; where there is no text, the `printf` before the request goes wrong. -/
theorem postEvents_pruned (A : Allocator Block) (c : Config) (clock : Nat → Timespec) (res : Nat)
    {events : List Event} (hsafe : ∀ e ∈ events, e.Safe) (m : HeapState Block) :
    ∃ t u root part body, Posted A c clock res events m t u root part body := by
  obtain ⟨root, t, body, u, new, hbuild, hprint, hwritten⟩ := write_run A hsafe c.id.string clock m
  have hpost := postEvents_eq c res hbuild hprint
  have hkept : ∀ a b, m.blocks.lookup a = some b → u.blocks.lookup a = some b := by
    intro a b hab
    have hmem : a ∈ m.blocks := Finmap.mem_of_lookup_eq_some hab
    rw [hwritten.blocks, Finmap.lookup_union_right fun hin => hwritten.apart a hin hmem, hab]
  have hwrong : postEvents A c clock (.performs res) events m = .wrong ↔ body = none := by
    rw [hpost]
    cases body <;> simp
  have hcontent := hwritten.content
  cases root with
  | none =>
    obtain ⟨-, rfl⟩ := hcontent
    exact ⟨t, u, none, .array [], none, hbuild, hprint, hkept, buildRoot_none hbuild, fun _ ha => (by cases ha),
      iff_of_true rfl (.inl rfl), hwrong, fun _ htext => (by cases htext)⟩
  | some a =>
    obtain ⟨part, hview, hpruned, -, -⟩ := hcontent
    obtain ⟨hnone, htext⟩ := printRoot_cases hview hprint
    refine ⟨t, u, some a, part, body, hbuild, hprint, hkept, buildRoot_none hbuild, ?_, ?_, hwrong, ?_⟩
    · rintro _ ⟨⟩
      exact ⟨hview, hpruned⟩
    · rw [hnone]
      simp
    · rintro text rfl
      exact ⟨htext text rfl, hpost⟩

/-- An allocator that refuses some requests, and puts blocks behind all that is allocated. -/
def refusing (refused : Nat → Bool) : Allocator Block where
  place n h _ := if refused n then none else some (h.keys.sup id + 1)
  fresh := by
    intro n h b a ha hmem
    split at ha
    · cases ha
    · obtain rfl := Option.some.inj ha
      exact absurd (Finset.le_sup (f := id) (Finmap.mem_keys.mpr hmem)) (Nat.not_succ_le_self _)

/-- `ls` with an argument. -/
def listing : Event :=
  {Event.zero with
    timestamp := 5000000000
    pid := 42
    filename := .holding PATH_LEN (lit "/bin/ls")
    argc := 2
    argv := fun j => .holding ARG_LEN (if j.val = 0 then lit "ls" else lit "-l")}

/-- Without memory for the second argument of the first record, on a heap in use. -/
theorem listings_pruned : ∃ t u root part body, Posted (refusing (· == 29)) sampleConfig
    (fun _ => ⟨1700000000, 0⟩) 0 [listing, listing] ⟨sampleHeap, 10, 0⟩ t u root part body :=
  postEvents_pruned _ _ _ _ (by decide) _

end EndpointSecurity.Agent
