import EndpointSecurity.Agent.CJsonHeap

/-! The walk of cJSON's printer over the items of a tree.

`print_value` looks at what an item holds; for arrays and objects it goes to the first
child and from there along `next`. `view` is the tree it meets on that walk, without the
text it makes of it, among items of the four kinds that the agent makes. Where `tree` puts
a tree on the heap, that one is met, whatever else is on the heap, and nothing is changed
(`view_tree`). -/
namespace EndpointSecurity.Agent
open Library HeapProgram Assertion

/-- A string that is printed: `print_string_ptr` takes a null pointer for an empty one. -/
def viewText : Option Addr → OnHeap (List UInt8)
  | none => pure []
  | some v => do
    match ← deref v with
    | .text s => return s
    | .item _ => wrong

/-- The key of an item; only `print_object` prints it. -/
def viewKey (named : Bool) (v : Option Addr) : OnHeap (List UInt8) := if named then viewText v else pure []

/-- `print_value`, given how children are walked. An item that was only cleared is not printed. -/
def viewValue (children : Bool → Option Addr → OnHeap (List (List UInt8 × CJson))) (x : Item) : OnHeap CJson :=
  match x.type.kind with
  | .number => pure (.number x.valuedouble)
  | .string => do
    let s ← viewText x.valuestring
    return .string s
  | .array => do
    let items ← children false x.child
    return .array (items.map Prod.snd)
  | .object => do
    let members ← children true x.child
    return .object members
  | .invalid => fail

/-- The loops of `print_array` and of `print_object`, which prints the keys too. -/
def viewChildren : Nat → Bool → Option Addr → OnHeap (List (List UInt8 × CJson))
  | _, _, none => pure []
  | 0, _, some _ => wrong
  | n + 1, named, some a => do
    let x ← readItem a
    let name ← viewKey named x.string
    let t ← viewValue (viewChildren n) x
    let rest ← viewChildren n named x.next
    return (name, t) :: rest

/-- The tree that is printed for an item. -/
def view (a : Addr) : OnHeap CJson := do
  let m ← read
  let x ← readItem a
  viewValue (viewChildren m.blocks.keys.card) x

/-! ### Walking a list -/

section
variable {denied : Prop}

theorem viewText_triple {v : Option Addr} {s : List UInt8} :
    Triple denied (textAt v (some s)) (viewText v) fun r => fact (r = s) * textAt v (some s) := by
  cases v with
  | none => exact Triple.of_bot
  | some v =>
    refine Triple.deref.bind_eq (mul_one _).symm ?_
    rw [mul_one]
    exact Triple.pure (le_fact_mul rfl)

/-- With enough rounds the walk meets a list. -/
def Views (denied : Prop) (named : Bool) (cells : List (Cell Block)) (rounds : Nat)
    (members : List (List UInt8 × CJson)) : Prop :=
  ∀ n, rounds ≤ n → ∀ prev as, Triple denied (links none prev as cells) (viewChildren n named as.head?) fun r =>
    fact (r = members) * links none prev as cells

/-- With enough rounds for its children an item is printed as a tree. -/
def ViewsAs (denied : Prop) (t : CJson) : Prop :=
  ∀ n, blocksBelow t ≤ n → ∀ (x : Item) (as : List Addr), x.Shows t → x.child = as.head? →
    Triple denied (textAt x.valuestring t.valuestring * ring as (childCells t)) (viewValue (viewChildren n) x) fun r =>
      fact (r = t) * (textAt x.valuestring t.valuestring * ring as (childCells t))

theorem views_nil (named : Bool) (rounds : Nat) : Views denied named [] rounds [] := by
  intro n _ prev as
  cases as with
  | nil =>
    have hnone : viewChildren n named none = pure [] := by cases n <;> rfl
    show Triple denied 1 (viewChildren n named none) _
    rw [hnone]
    exact Triple.pure (le_fact_mul rfl)
  | cons a as => exact Triple.of_bot

theorem Views.mono {named : Bool} {cells : List (Cell Block)} {k l : Nat} {members : List (List UInt8 × CJson)}
    (h : Views denied named cells k members) (hkl : k ≤ l) : Views denied named cells l members :=
  fun n hn => h n (hkl.trans hn)

/-- The key of an item, where keys are printed. -/
def shownKey (named : Bool) (name : Option (List UInt8)) : List UInt8 := if named then name.getD [] else []

theorem viewKey_triple {named : Bool} {v : Option Addr} {name : Option (List UInt8)}
    (hname : named = true → name.isSome = true) :
    Triple denied (textAt v name) (viewKey named v) fun r => fact (r = shownKey named name) * textAt v name := by
  cases named with
  | false => exact Triple.pure (le_fact_mul rfl)
  | true =>
    obtain ⟨s, rfl⟩ := Option.isSome_iff_exists.mp (hname rfl)
    exact viewText_triple

theorem views_cons {named : Bool} {name : Option (List UInt8)} (hname : named = true → name.isSome = true) {t : CJson}
    (ht : ViewsAs denied t) {rest : List (Cell Block)} {l : Nat} {members : List (List UInt8 × CJson)}
    (hrest : Views denied named rest l members) :
    Views denied named (node name t (childCells t) :: rest) (blocksBelow t + l + 1) ((shownKey named name, t) :: members) := by
  intro n hn prev as
  cases as with
  | nil => exact Triple.of_bot
  | cons a as =>
    obtain ⟨m, rfl⟩ : ∃ m, n = m + 1 := ⟨n - 1, by omega⟩
    refine node_triple fun x bs hx hchild => ?_
    refine readItem_bind (x := x) (mul_assoc _ _ _) ?_
    refine (viewKey_triple hname).bind_eq (F := textAt x.valuestring t.valuestring * ring bs (childCells t) *
      (pointsTo a (.item x) * links none (some a) as rest)) (by ac_rfl) ?_
    refine (ht m (by omega) x bs hx.2.2 hchild).bind_eq (F := textAt x.string name *
      (pointsTo a (.item x) * links none (some a) as rest)) (by ac_rfl) ?_
    rw [hx.1, Option.or_none]
    refine (hrest m (by omega) (some a) as).bind_eq (F := pointsTo a (.item x) * (textAt x.string name *
      textAt x.valuestring t.valuestring) * ring bs (childCells t)) (by ac_rfl) ?_
    have hclosed := mul_le_mul_left (le_node a name (childCells t) hx hchild) (links none (some a) as rest)
    refine Triple.pure ((le_of_eq (mul_comm _ _)).trans (hclosed.trans ?_))
    refine le_trans (le_of_eq ?_) (le_fact_mul rfl)
    rw [links, Option.or_none]

mutual
theorem viewsAs : ∀ t : CJson, ViewsAs denied t
  | .number d => fun n _ x as hx hchild => by
    have hvalue : viewValue (viewChildren n) x = pure (.number x.valuedouble) := by rw [viewValue, hx.1]; rfl
    rw [hvalue, hx.2 d rfl]
    exact Triple.pure (le_fact_mul rfl)
  | .string s => fun n _ x as hx hchild => by
    unfold viewValue
    rw [hx.1]
    refine viewText_triple.bind_eq rfl ?_
    exact Triple.pure (le_fact_mul rfl)
  | .array items => fun n hn x as hx hchild => by
    unfold viewValue
    rw [hx.1, hchild]
    refine (views_items items n hn _ as).bind_eq (mul_comm _ _) ?_
    refine Triple.pure ((le_of_eq (mul_comm _ _)).trans (le_fact_mul ?_))
    rw [List.map_map]
    exact congrArg CJson.array (List.map_id' _)
  | .object members => fun n hn x as hx hchild => by
    unfold viewValue
    rw [hx.1, hchild]
    refine (views_members members n hn _ as).bind_eq (mul_comm _ _) ?_
    exact Triple.pure ((le_of_eq (mul_comm _ _)).trans (le_fact_mul rfl))

theorem views_items :
    ∀ items : List CJson, Views denied false (itemCells items) (itemBlocks items) (items.map fun t => ([], t))
  | [] => views_nil false 0
  | t :: rest => (views_cons (fun h => by cases h) (viewsAs t) (views_items rest)).mono (by rw [itemBlocks]; omega)

theorem views_members : ∀ members : List (List UInt8 × CJson),
    Views denied true (memberCells members) (memberBlocks members) members
  | [] => views_nil true 0
  | (_, t) :: rest => (views_cons (fun _ => rfl) (viewsAs t) (views_members rest)).mono (by rw [memberBlocks]; omega)
end

/-- The printer meets the tree that was built, wherever its items are. -/
theorem view_tree (t : CJson) (a : Addr) : Triple denied (tree t a) (view a) fun r => fact (r = t) * tree t a := by
  refine Triple.of_counts (counts_tree t a)
    (k := fun size => readItem a >>= fun x => viewValue (viewChildren size) x) fun size hsize => ?_
  have hsize : blocksBelow t ≤ size := by
    rw [blocks] at hsize
    omega
  rw [tree, ← mul_one (node _ _ _ _ _ _)]
  refine node_triple fun x as hx hchild => ?_
  refine readItem_bind (x := x) (mul_assoc _ _ _) ?_
  refine (viewsAs t size hsize x as hx.2.2 hchild).focus (F := pointsTo a (.item x) * textAt x.string none)
    (by rw [mul_one]; ac_rfl) fun r => ?_
  rw [mul_assoc, mul_one]
  refine mul_le_mul_right ?_ _
  refine le_trans (le_of_eq ?_) (le_node a none _ hx hchild)
  ac_rfl

end

/-! ### The walk only reads -/

open Program (Quiet quiet_pure quiet_wrong quiet_fail quiet_read)

theorem quiet_readItem (a : Addr) : Quiet (readItem a).run := by
  refine (quiet_deref a).bind fun b => ?_
  cases b with
  | item x => exact quiet_pure x
  | text s => exact quiet_wrong

theorem quiet_viewText (v : Option Addr) : Quiet (viewText v).run := by
  cases v with
  | none => exact quiet_pure []
  | some v =>
    refine (quiet_deref v).bind fun b => ?_
    cases b with
    | item x => exact quiet_wrong
    | text s => exact quiet_pure s

theorem quiet_viewKey (named : Bool) (v : Option Addr) : Quiet (viewKey named v).run := by
  cases named with
  | false => exact quiet_pure []
  | true => exact quiet_viewText v

theorem quiet_viewValue {children : Bool → Option Addr → OnHeap (List (List UInt8 × CJson))}
    (h : ∀ named first, Quiet (children named first).run) (x : Item) : Quiet (viewValue children x).run := by
  unfold viewValue
  split
  · exact quiet_pure _
  · exact (quiet_viewText _).bind fun _ => quiet_pure _
  · exact (h _ _).bind fun _ => quiet_pure _
  · exact (h _ _).bind fun _ => quiet_pure _
  · exact quiet_fail

theorem quiet_viewChildren (n : Nat) : ∀ named first, Quiet (viewChildren n named first).run := by
  induction n with
  | zero =>
    intro named first
    cases first with
    | none => exact quiet_pure []
    | some a => exact quiet_wrong
  | succ n ih =>
    intro named first
    cases first with
    | none => exact quiet_pure []
    | some a =>
      exact (quiet_readItem a).bind fun x => (quiet_viewKey named x.string).bind fun _ =>
        (quiet_viewValue ih x).bind fun _ => (ih named x.next).bind fun _ => quiet_pure _

theorem quiet_view (a : Addr) : Quiet (view a).run :=
  quiet_read.bind fun _ => (quiet_readItem a).bind fun x => quiet_viewValue (quiet_viewChildren _) x

/-- **The printer meets the tree that was built**, wherever its items are and whatever else
is on the heap, and the heap is afterwards as it was. -/
theorem view_reads (t : CJson) (a : Addr) {m : HeapState Block} {k rest : Heap Block} (hk : k ∈ tree t a)
    (hrest : Finmap.Disjoint k rest) (hm : m.blocks = k ∪ rest) : view a m = .done t m := by
  obtain ⟨r, m', _, hdone, hr, -, -⟩ := Triple.run (fun _ => view_tree t a) hk hrest hm
  rw [quiet_view a m r m' hdone, (mem_fact_mul.mp hr).1] at hdone
  exact hdone

theorem sampleTree_viewed : view 1 ⟨sampleHeap, 10, 0⟩ = .done sampleTree ⟨sampleHeap, 10, 0⟩ := by
  obtain ⟨_, _, hd, hm, hk, -⟩ := mem_mul.mp sampleHeap_tree
  exact view_reads sampleTree 1 hk hd hm

end EndpointSecurity.Agent
