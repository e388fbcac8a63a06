import EndpointSecurity.Agent.CJson
import EndpointSecurity.Library.LinkedList

/-! cJSON items on the heap.

An item points to its first child, to its string and to its key; the children of an
item are a ring of items. `tree` says that a tree is at an address, of items that own
what they point to: none is a reference and no key is a constant, as all the agent
builds. What the functions of cJSON do to items is stated about it: `add_item_to_array` adds at the end
(`addItemToArray_node`), `cJSON_Delete` frees the tree, all of it and nothing else, each
block once (`delete_tree`). -/
namespace EndpointSecurity.Agent
open Library HeapProgram Assertion

/-- What an item holds. -/
inductive ItemKind where
  | invalid
  | number
  | string
  | array
  | object

/-- The `type` of an item: what it holds, and the flags `cJSON_IsReference` and
`cJSON_StringIsConst`. -/
structure ItemType where
  kind : ItemKind
  isReference : Bool
  stringIsConst : Bool

/-- A kind without flags. -/
def ItemKind.type (kind : ItemKind) : ItemType := ⟨kind, false, false⟩

/-- `struct cJSON`. -/
structure Item where
  next : Option Addr
  prev : Option Addr
  child : Option Addr
  type : ItemType
  valuestring : Option Addr
  valuedouble : Whole
  string : Option Addr

/-- What `memset` leaves. -/
def Item.zero : Item := ⟨none, none, none, ItemKind.type .invalid, none, ⟨0, by decide⟩, none⟩

/-- A block of the heap: an item, or a string and its NUL. -/
inductive Block where
  | item (x : Item)
  | text (s : List UInt8)

abbrev OnHeap : Type → Type := HeapProgram Block

/-! ### Items -/

def readItem (a : Addr) : OnHeap Item := do
  match ← deref a with
  | .item x => return x
  | .text _ => wrong

def updateItem (a : Addr) (f : Item → Item) : OnHeap Unit := do
  let x ← readItem a
  assign a (.item (f x))

/-- `cJSON_New_Item`. -/
def newItem (A : Allocator Block) : OnHeap (Option Addr) := allocate A (.item .zero)

/-- `cJSON_strdup`; a source without a NUL is read past its end. -/
def strdup (A : Allocator Block) (source : Option (List UInt8)) : OnHeap (Option Addr) :=
  match source with
  | none => wrong
  | some s => allocate A (.text s)

/-! ### `cJSON_Delete` -/

/-- What is not done to an item with a flag. -/
def unlessFlag (flag : Bool) (p : OnHeap Unit) : OnHeap Unit := if flag then pure () else p

/-- `deallocate`, of a string that is there. -/
def freeText : Option Addr → OnHeap Unit
  | none => pure ()
  | some v => free v

def freeValuestring (a : Addr) : OnHeap Unit := do
  let x ← readItem a
  if !x.type.isReference && x.valuestring.isSome then
    freeText x.valuestring
    updateItem a ({· with valuestring := none})
  else pure ()

def freeString (a : Addr) : OnHeap Unit := do
  let x ← readItem a
  if !x.type.stringIsConst && x.string.isSome then
    freeText x.string
    updateItem a ({· with string := none})
  else pure ()

/-- The loop of `cJSON_Delete`, and the call for the children in it. -/
def deleteLoop : Nat → Option Addr → OnHeap Unit
  | _, none => pure ()
  | 0, some _ => wrong
  | n + 1, some a => do
    let x ← readItem a
    unlessFlag x.type.isReference (deleteLoop n x.child)
    freeValuestring a
    freeString a
    free a
    deleteLoop n x.next

/-- `cJSON_Delete`. No item is met twice, so as many rounds as there are blocks do. -/
def delete (item : Option Addr) : OnHeap Unit := do
  let m ← read
  deleteLoop m.blocks.keys.card item

/-! ### Building trees -/

/-- An item of a type. -/
def createItem (A : Allocator Block) (kind : ItemKind) : OnHeap (Option Addr) := do
  match ← newItem A with
  | none => return none
  | some item => do
    updateItem item ({· with type := kind.type})
    return some item

/-- `cJSON_CreateArray`. -/
def createArray (A : Allocator Block) : OnHeap (Option Addr) := createItem A .array

/-- `cJSON_CreateObject`. -/
def createObject (A : Allocator Block) : OnHeap (Option Addr) := createItem A .object

/-- `cJSON_CreateNumber`. -/
def createNumber (A : Allocator Block) (num : Whole) : OnHeap (Option Addr) := do
  match ← newItem A with
  | none => return none
  | some item => do
    updateItem item ({· with type := ItemKind.type .number, valuedouble := num})
    return some item

/-- `cJSON_CreateString`. -/
def createString (A : Allocator Block) (string : Option (List UInt8)) : OnHeap (Option Addr) := do
  match ← newItem A with
  | none => return none
  | some item => do
    updateItem item ({· with type := ItemKind.type .string})
    match ← strdup A string with
    | none => do
      delete (some item)
      return none
    | some v => do
      updateItem item ({· with valuestring := some v})
      return some item

def suffixObject (prev item : Addr) : OnHeap Unit := do
  updateItem prev ({· with next := some item})
  updateItem item ({· with prev := some prev})

/-- `array->child->prev = item`. -/
def setChildPrev (array item : Addr) : OnHeap Unit := do
  let x ← readItem array
  match x.child with
  | none => wrong
  | some child => updateItem child ({· with prev := some item})

/-- What `add_item_to_array` does with two items. -/
def appendChild (array item : Addr) : OnHeap Unit := do
  let x ← readItem array
  match x.child with
  | none => do
    -- list is empty, start new one
    updateItem array ({· with child := some item})
    updateItem item ({· with prev := some item, next := none})
  | some child => do
    -- append to the end
    let first ← readItem child
    match first.prev with
    | none => pure ()
    | some last => do
      suffixObject last item
      setChildPrev array item

def addItemToArray (array item : Option Addr) : OnHeap Bool :=
  match array, item with
  | some array, some item =>
    if array = item then return false
    else do
      appendChild array item
      return true
  | _, _ => return false

/-- `add_item_to_object`, with a key that is copied. -/
def addItemToObject (A : Allocator Block) (object : Option Addr) (string : List UInt8)
    (item : Option Addr) : OnHeap Bool :=
  match object, item with
  | some object, some item =>
    if object = item then return false
    else do
      match ← strdup A (some string) with
      | none => return false
      | some newKey => do
        let x ← readItem item
        unlessFlag x.type.stringIsConst (freeText x.string)
        updateItem item ({· with string := some newKey, type := {x.type with stringIsConst := false}})
        addItemToArray (some object) (some item)
  | _, _ => return false

/-- What `cJSON_AddNumberToObject` and `cJSON_AddStringToObject` do with a new item. -/
def addToObject (A : Allocator Block) (object : Option Addr) (name : List UInt8)
    (create : OnHeap (Option Addr)) : OnHeap (Option Addr) := do
  let item ← create
  if ← addItemToObject A object name item then return item
  else do
    delete item
    return none

/-- `cJSON_AddNumberToObject`. -/
def addNumberToObject (A : Allocator Block) (object : Option Addr) (name : List UInt8) (number : Whole) :
    OnHeap (Option Addr) :=
  addToObject A object name (createNumber A number)

/-- `cJSON_AddStringToObject`. -/
def addStringToObject (A : Allocator Block) (object : Option Addr) (name : List UInt8)
    (string : Option (List UInt8)) : OnHeap (Option Addr) :=
  addToObject A object name (createString A string)

/-! ### Trees on the heap -/

/-- The string that a pointer points to. -/
def textAt : Option Addr → Option (List UInt8) → Assertion Block
  | none, none => 1
  | some v, some s => pointsTo v (.text s)
  | _, _ => ⊥

def CJson.kind : CJson → ItemKind
  | .number _ => .number
  | .string _ => .string
  | .array _ => .array
  | .object _ => .object

def CJson.valuedouble : CJson → Option Whole
  | .number d => some d
  | _ => none

/-- An item that owns what hangs off it, with the kind and the number of a tree. -/
def Item.Shows (x : Item) (t : CJson) : Prop := x.type = t.kind.type ∧ ∀ d ∈ t.valuedouble, x.valuedouble = d

/-- What `valuestring` points to. -/
def CJson.valuestring : CJson → Option (List UInt8)
  | .string s => some s
  | _ => none

/-- What belongs to an item: its key, its string and its children. -/
def owned (x : Item) (name value : Option (List UInt8)) (cells : List (Cell Block)) : Assertion Block :=
  textAt x.string name * (textAt x.valuestring value * ⨆ as : List Addr, fact (x.child = as.head?) * ring as cells)

/-- An item with all that belongs to it. -/
def node (name : Option (List UInt8)) (t : CJson) (cells : List (Cell Block)) : Cell Block := fun a next prev =>
  ⨆ x : Item, fact (x.next = next ∧ x.prev = prev ∧ x.Shows t) *
    (pointsTo a (.item x) * owned x name t.valuestring cells)

mutual
/-- The children of a tree. -/
def childCells : CJson → List (Cell Block)
  | .number _ => []
  | .string _ => []
  | .array items => itemCells items
  | .object members => memberCells members

def itemCells : List CJson → List (Cell Block)
  | [] => []
  | t :: rest => node none t (childCells t) :: itemCells rest

def memberCells : List (List UInt8 × CJson) → List (Cell Block)
  | [] => []
  | (name, t) :: rest => node (some name) t (childCells t) :: memberCells rest
end

/-- A tree that is in no list. -/
def tree (t : CJson) (a : Addr) : Assertion Block := node none t (childCells t) a none none

/-! ### Statements -/

section
variable {α : Type} {denied : Prop} {a : Addr} {x : Item} {F R : Assertion Block} {k : Item → OnHeap α}
  {S : α → Assertion Block}

theorem readItem_triple :
    Triple denied (pointsTo a (.item x)) (readItem a) fun r => fact (r = x) * pointsTo a (.item x) := by
  refine Triple.deref.bind_eq (mul_one _).symm ?_
  rw [mul_one]
  exact Triple.pure (le_fact_mul rfl)

/-- An item is read, and what it says is known from there on. -/
theorem readItem_bind (hR : R = pointsTo a (.item x) * F) (hk : Triple denied R (k x) S) :
    Triple denied R (readItem a >>= k) S :=
  readItem_triple.bind_eq hR (hR ▸ hk)

theorem updateItem_triple (f : Item → Item) :
    Triple denied (pointsTo a (.item x)) (updateItem a f) fun _ => pointsTo a (.item (f x)) :=
  readItem_bind (mul_one _).symm Triple.assign

theorem freeText_triple (v : Option Addr) (s : Option (List UInt8)) :
    Triple denied (textAt v s) (freeText v) fun _ => 1 := by
  cases v with
  | none =>
    cases s with
    | none => exact Triple.pure le_rfl
    | some s => exact Triple.of_bot
  | some v =>
    cases s with
    | none => exact Triple.of_bot
    | some s => exact Triple.free

/-- A pointer is freed and cleared, if there is one and no flag keeps it. -/
theorem freeField_triple {kept : Bool} (hkept : kept = false) {v : Option Addr} (s : Option (List UInt8))
    {f : Item → Item} (hf : v = none → f x = x) :
    Triple denied (pointsTo a (.item x) * textAt v s)
      (if !kept && v.isSome then (do
        freeText v
        updateItem a f) else pure ()) fun _ => pointsTo a (.item (f x)) := by
  subst hkept
  cases v with
  | none =>
    rw [hf rfl]
    cases s with
    | none => exact Triple.pure (mul_one _).le
    | some s =>
      show Triple denied (_ * ⊥) _ _
      rw [Quantale.mul_bot]
      exact Triple.of_bot
  | some v =>
    refine (freeText_triple _ s).bind (mul_comm _ _) fun _ => ?_
    rw [one_mul]
    exact updateItem_triple f

theorem freeValuestring_triple (hx : x.type.isReference = false) (s : Option (List UInt8)) :
    Triple denied (pointsTo a (.item x) * textAt x.valuestring s) (freeValuestring a) fun _ =>
      pointsTo a (.item {x with valuestring := none}) :=
  readItem_bind rfl (freeField_triple hx s fun h => by cases x; simp_all)

theorem freeString_triple (hx : x.type.stringIsConst = false) (s : Option (List UInt8)) :
    Triple denied (pointsTo a (.item x) * textAt x.string s) (freeString a) fun _ =>
      pointsTo a (.item {x with string := none}) :=
  readItem_bind rfl (freeField_triple hx s fun h => by cases x; simp_all)

end

/-! ### Deleting -/

mutual
/-- The blocks of the children of a tree. -/
def blocksBelow : CJson → Nat
  | .number _ => 0
  | .string _ => 0
  | .array items => itemBlocks items
  | .object members => memberBlocks members

def itemBlocks : List CJson → Nat
  | [] => 0
  | t :: rest => (1 + t.valuestring.toList.length + blocksBelow t) + itemBlocks rest

def memberBlocks : List (List UInt8 × CJson) → Nat
  | [] => 0
  | (_, t) :: rest => (2 + t.valuestring.toList.length + blocksBelow t) + memberBlocks rest
end

/-- How many blocks a tree is made of. -/
def blocks (t : CJson) : Nat := 1 + t.valuestring.toList.length + blocksBelow t

/-- With enough rounds the loop of `cJSON_Delete` frees the list, and that is all it does. -/
def Deletes (denied : Prop) (cells : List (Cell Block)) (rounds : Nat) : Prop :=
  ∀ n, rounds ≤ n → ∀ prev as, Triple denied (links none prev as cells) (deleteLoop n as.head?) fun _ => 1

theorem deleteLoop_none (n : Nat) : deleteLoop n none = pure () := by cases n <;> rfl

section
variable {denied : Prop}

theorem deletes_nil (rounds : Nat) : Deletes denied [] rounds := by
  intro n _ prev as
  cases as with
  | nil =>
    show Triple denied 1 (deleteLoop n none) _
    rw [deleteLoop_none]
    exact Triple.pure le_rfl
  | cons a as => exact Triple.of_bot

/-- An item with children, whatever it shows, and what comes behind it. -/
theorem deleteItem_triple (name value : Option (List UInt8)) {cells : List (Cell Block)} {n : Nat} {a : Addr}
    {x : Item} {F : Assertion Block} (hreference : x.type.isReference = false) (hconst : x.type.stringIsConst = false)
    (hchildren : ∀ prev as, Triple denied (links none prev as cells) (deleteLoop n as.head?) fun _ => 1)
    (hnext : Triple denied F (deleteLoop n x.next) fun _ => 1) :
    Triple denied (pointsTo a (.item x) * owned x name value cells * F) (deleteLoop (n + 1) (some a)) fun _ => 1 := by
  unfold owned
  have hfocus : pointsTo a (.item x) * (textAt x.string name * (textAt x.valuestring value *
      ⨆ as : List Addr, fact (x.child = as.head?) * ring as cells)) * F =
      (⨆ as : List Addr, fact (x.child = as.head?) * ring as cells) *
        (pointsTo a (.item x) * textAt x.valuestring value * (textAt x.string name * F)) := by ac_rfl
  rw [hfocus]
  refine readItem_bind (x := x) (F := (⨆ as : List Addr, fact (x.child = as.head?) * ring as cells) *
    (textAt x.valuestring value * (textAt x.string name * F))) (by ac_rfl) ?_
  have hchild : Triple denied (⨆ as : List Addr, fact (x.child = as.head?) * ring as cells) (deleteLoop n x.child)
      fun _ => 1 := by
    refine Triple.iSup fun as => Triple.fact_mul fun hhead => ?_
    rw [hhead]
    exact hchildren _ as
  rw [hreference]
  refine hchild.bind rfl fun _ => ?_
  rw [one_mul]
  refine (freeValuestring_triple hreference value).bind rfl fun _ => ?_
  rw [← mul_assoc]
  refine (freeString_triple (x := {x with valuestring := none}) hconst name).bind rfl fun _ => ?_
  refine Triple.free.bind rfl fun _ => ?_
  rw [one_mul]
  exact hnext

theorem deletes_cons (name : Option (List UInt8)) (t : CJson) {children rest : List (Cell Block)} {k l : Nat}
    (hchildren : Deletes denied children k) (hrest : Deletes denied rest l) :
    Deletes denied (node name t children :: rest) (k + l + 1) := by
  intro n hn prev as
  cases as with
  | nil => exact Triple.of_bot
  | cons a as =>
    obtain ⟨m, rfl⟩ : ∃ m, n = m + 1 := ⟨n - 1, by omega⟩
    refine Triple.iSup_mul fun x => ?_
    rw [mul_assoc]
    refine Triple.fact_mul fun ⟨hnext, _, htype, _⟩ => ?_
    refine deleteItem_triple name t.valuestring (by rw [htype]; rfl) (by rw [htype]; rfl) (hchildren m (by omega)) ?_
    rw [hnext, Option.or_none]
    exact hrest m (by omega) (some a) as

theorem Deletes.mono {cells : List (Cell Block)} {k l : Nat} (h : Deletes denied cells k) (hkl : k ≤ l) :
    Deletes denied cells l :=
  fun n hn => h n (hkl.trans hn)

mutual
theorem deletes_childCells : ∀ t : CJson, Deletes denied (childCells t) (blocksBelow t)
  | .number _ => deletes_nil 0
  | .string _ => deletes_nil 0
  | .array items => deletes_itemCells items
  | .object members => deletes_memberCells members

theorem deletes_itemCells : ∀ items : List CJson, Deletes denied (itemCells items) (itemBlocks items)
  | [] => deletes_nil 0
  | t :: rest => (deletes_cons none t (deletes_childCells t) (deletes_itemCells rest)).mono (by rw [itemBlocks]; omega)

theorem deletes_memberCells : ∀ members : List (List UInt8 × CJson),
    Deletes denied (memberCells members) (memberBlocks members)
  | [] => deletes_nil 0
  | (name, t) :: rest => (deletes_cons (some name) t (deletes_childCells t) (deletes_memberCells rest)).mono (by
      rw [memberBlocks]
      omega)
end

end

/-! ### Counting -/

theorem counts_textAt (v : Option Addr) (s : Option (List UInt8)) : Counts (textAt v s) s.toList.length := by
  cases v <;> cases s
  · exact counts_one
  · exact fun _ h => h.elim
  · exact fun _ h => h.elim
  · exact counts_pointsTo _ _

theorem counts_node (name : Option (List UInt8)) {t : CJson} {children : List (Cell Block)} {n : Nat}
    (h : ∀ as, Counts (ring as children) n) (a : Addr) (next prev : Option Addr) :
    Counts (node name t children a next prev) (name.toList.length + (1 + t.valuestring.toList.length + n)) := by
  refine Counts.iSup fun x => Counts.fact_mul fun _ => ?_
  have hchildren : Counts (⨆ as : List Addr, fact (x.child = as.head?) * ring as children) n :=
    Counts.iSup fun as => Counts.fact_mul fun _ => h as
  have hall := (counts_pointsTo a (.item x)).mul ((counts_textAt x.string name).mul
    ((counts_textAt x.valuestring t.valuestring).mul hchildren))
  have hsum : name.toList.length + (1 + t.valuestring.toList.length + n) =
      1 + (name.toList.length + (t.valuestring.toList.length + n)) := by omega
  rw [hsum]
  exact hall

mutual
theorem counts_childCells : ∀ (t : CJson) (as : List Addr), Counts (ring as (childCells t)) (blocksBelow t)
  | .number _, _ => counts_links_nil
  | .string _, _ => counts_links_nil
  | .array items, as => counts_itemCells items as.getLast? as
  | .object members, as => counts_memberCells members as.getLast? as

theorem counts_itemCells : ∀ (items : List CJson) (prev : Option Addr) (as : List Addr),
    Counts (links none prev as (itemCells items)) (itemBlocks items)
  | [], _, _ => counts_links_nil
  | t :: rest, _, _ => counts_links_cons (fun a next prev => by
      have hnode := counts_node none (t := t) (counts_childCells t) a next prev
      rwa [Option.toList_none, List.length_nil, Nat.zero_add] at hnode) (counts_itemCells rest)

theorem counts_memberCells : ∀ (members : List (List UInt8 × CJson)) (prev : Option Addr) (as : List Addr),
    Counts (links none prev as (memberCells members)) (memberBlocks members)
  | [], _, _ => counts_links_nil
  | (name, t) :: rest, _, _ => counts_links_cons (fun a next prev => by
      have hnode := counts_node (some name) (t := t) (counts_childCells t) a next prev
      have hsum : (some name).toList.length + (1 + t.valuestring.toList.length + blocksBelow t) =
          2 + t.valuestring.toList.length + blocksBelow t := by
        rw [Option.toList_some, List.length_singleton]
        omega
      rwa [hsum] at hnode) (counts_memberCells rest)
end

theorem counts_tree (t : CJson) (a : Addr) : Counts (tree t a) (blocks t) := by
  have hnode := counts_node none (t := t) (counts_childCells t) a none none
  rw [Option.toList_none, List.length_nil, Nat.zero_add] at hnode
  exact hnode

/-- `cJSON_Delete` frees a tree: all of it, each block once, and nothing else. -/
theorem delete_tree {denied : Prop} (t : CJson) (a : Addr) : Triple denied (tree t a) (delete (some a)) fun _ => 1 := by
  refine Triple.of_counts (counts_tree t a) (k := fun size => deleteLoop size (some a)) fun size hsize => ?_
  have hdeletes : Deletes denied [node none t (childCells t)] _ :=
    deletes_cons none t (deletes_childCells t) (deletes_nil 0)
  have hlist := hdeletes size (by rw [blocks] at hsize; omega) none [a]
  refine hlist.conseq ?_ fun _ => le_rfl
  exact (mul_one _).ge

/-! ### Adding at the end -/

/-- An item in a list, whatever hangs off it. -/
def IsNode (c : Cell Block) : Prop := ∃ name t children, c = node name t children

section
variable {denied : Prop} {a b : Addr} {c : Cell Block} {next prev next' prev' q : Option Addr}
  {cells : List (Cell Block)}

theorem IsNode.mem (hc : IsNode c) {h : Heap Block} (hm : h ∈ c a next prev) : a ∈ h := by
  obtain ⟨name, t, children, rfl⟩ := hc
  obtain ⟨x, hx⟩ := mem_iSup.mp hm
  exact mem_of_pointsTo_mul (mem_fact_mul.mp hx).2

/-- A store to the links of an item. -/
theorem updateItem_links (hc : IsNode c) {f : Item → Item}
    (hf : ∀ x : Item, x.next = next → x.prev = prev → f x = {x with next := next', prev := prev'}) :
    Triple denied (c a next prev) (updateItem a f) fun _ => c a next' prev' := by
  obtain ⟨name, t, children, rfl⟩ := hc
  refine Triple.iSup fun x => Triple.fact_mul fun ⟨hnext, hprev, hshows⟩ => ?_
  refine ((updateItem_triple f).frame _).conseq le_rfl fun _ => ?_
  rw [hf x hnext hprev]
  refine le_iSup_of_le {x with next := next', prev := prev'} (le_fact_mul ⟨rfl, rfl, hshows⟩)

/-- What is read of the links of an item. -/
theorem readItem_prev (hc : IsNode c) :
    Triple denied (c a next prev) (readItem a) fun r => fact (r.prev = prev) * c a next prev := by
  obtain ⟨name, t, children, rfl⟩ := hc
  refine Triple.iSup fun x => Triple.fact_mul fun hx => ?_
  refine (readItem_triple.frame _).conseq le_rfl fun r h hh => ?_
  rw [mul_assoc] at hh
  obtain ⟨rfl, hrest⟩ := mem_fact_mul.mp hh
  exact mem_fact_mul.mpr ⟨hx.2.1, mem_iSup.mpr ⟨r, mem_fact_mul.mpr ⟨hx, hrest⟩⟩⟩

/-- An item opened up: its block, and its children at some addresses. -/
theorem node_triple {α : Type} {name : Option (List UInt8)} {t : CJson} {F : Assertion Block} {p : OnHeap α}
    {Q : α → Assertion Block}
    (h : ∀ (x : Item) (as : List Addr), x.next = next ∧ x.prev = prev ∧ x.Shows t → x.child = as.head? →
      Triple denied (pointsTo a (.item x) * (textAt x.string name * textAt x.valuestring t.valuestring) *
        (ring as cells * F)) p Q) :
    Triple denied (node name t cells a next prev * F) p Q := by
  refine Triple.iSup_mul fun x => ?_
  rw [mul_assoc]
  refine Triple.fact_mul fun hx => ?_
  have hfocus : pointsTo a (.item x) * owned x name t.valuestring cells * F =
      (⨆ as : List Addr, fact (x.child = as.head?) * ring as cells) *
        (pointsTo a (.item x) * (textAt x.string name * textAt x.valuestring t.valuestring) * F) := by
    unfold owned
    ac_rfl
  rw [hfocus]
  refine Triple.iSup_mul fun as => ?_
  rw [mul_assoc]
  refine Triple.fact_mul fun hchild => ?_
  have horder := h x as hx hchild
  rwa [mul_left_comm] at horder

/-- An item closed again. -/
theorem le_node (a : Addr) (name : Option (List UInt8)) {t : CJson} {x : Item} {as : List Addr}
    (cells : List (Cell Block)) (hx : x.next = next ∧ x.prev = prev ∧ x.Shows t) (hchild : x.child = as.head?) :
    pointsTo a (.item x) * (textAt x.string name * textAt x.valuestring t.valuestring) * ring as cells ≤
      node name t cells a next prev := by
  refine le_iSup_of_le x (le_trans ?_ (le_fact_mul hx))
  unfold owned
  rw [mul_assoc, mul_assoc]
  gcongr
  exact le_iSup_of_le as (le_fact_mul hchild)

theorem appendChild_triple {name : Option (List UInt8)} {t : CJson} (hcells : ∀ c ∈ cells, IsNode c) (hc : IsNode c) :
    Triple denied (node name t cells a next prev * c b none q) (appendChild a b) fun _ =>
      node name t (cells ++ [c]) a next prev := by
  refine node_triple fun x as hx hchild => ?_
  refine readItem_bind (x := x) (mul_assoc _ _ _) ?_
  cases as with
  | nil =>
    -- the new item is the first one, and the last one too
    rw [List.head?_nil] at hchild
    rw [hchild]
    cases cells with
    | cons d cells =>
      show Triple denied (_ * (⊥ * _)) _ _
      rw [Quantale.bot_mul, Quantale.mul_bot]
      exact Triple.of_bot
    | nil =>
      refine (updateItem_triple _).bind (mul_assoc _ _ _) fun _ => ?_
      have hempty : ring [] ([] : List (Cell Block)) = 1 := rfl
      rw [hempty, one_mul]
      have hitem : Triple denied (c b none q) (updateItem b ({· with prev := some b, next := none})) fun _ =>
          c b none (some b) :=
        updateItem_links hc fun _ _ _ => rfl
      refine hitem.focus (F := pointsTo a (.item {x with child := some b}) *
        (textAt x.string name * textAt x.valuestring t.valuestring)) (by ac_rfl) fun _ => ?_
      rw [mul_comm, ← ring_singleton b c]
      exact le_node a name [c] (x := {x with child := some b}) hx rfl
  | cons child rest =>
    rw [List.head?_cons] at hchild
    rw [hchild]
    obtain ⟨last, hlast⟩ : ∃ last, (child :: rest).getLast? = some last :=
      Option.isSome_iff_exists.mp (by simp)
    -- the first item knows the last one
    have hread : Triple denied (ring (child :: rest) cells) (readItem child) fun r =>
        fact (r.prev = some last) * ring (child :: rest) cells := by
      rw [← hlast]
      exact Triple.first_result rfl fun d hd n => readItem_prev (hcells d hd)
    refine hread.bind (mul_left_comm _ _ _) fun r => ?_
    rw [mul_assoc]
    refine Triple.fact_mul fun hprev => ?_
    rw [hprev, ring, hlast]
    have hnext : Triple denied (links none (some last) (child :: rest) cells) (updateItem last ({· with next := some b})) fun _ =>
        links (some b) (some last) (child :: rest) cells :=
      Triple.last hlast fun d hd n => updateItem_links (hcells d hd) fun y _ hy => by rw [← hy]
    have hback : Triple denied (c b none q) (updateItem b ({· with prev := some last})) fun _ => c b none (some last) :=
      updateItem_links hc fun y hy _ => by rw [← hy]
    have hfirst : Triple denied (links (some b) (some last) (child :: rest) cells) (updateItem child ({· with prev := some b}))
        fun _ => links (some b) (some b) (child :: rest) cells :=
      Triple.first rfl fun d hd n => updateItem_links (hcells d hd) fun y hy _ => by rw [← hy]
    have hsuffix : Triple denied (links none (some last) (child :: rest) cells * c b none q) (suffixObject last b) fun _ =>
        links (some b) (some last) (child :: rest) cells * c b none (some last) :=
      hnext.bind rfl fun _ => hback.focus (mul_comm _ _) fun _ => (mul_comm _ _).le
    refine hsuffix.bind (F := pointsTo a (.item x) * (textAt x.string name *
      textAt x.valuestring t.valuestring)) (by ac_rfl) fun _ => ?_
    unfold setChildPrev
    refine readItem_bind (x := x) (F := textAt x.string name * textAt x.valuestring t.valuestring *
      (links (some b) (some last) (child :: rest) cells * c b none (some last))) (by ac_rfl) ?_
    rw [hchild]
    refine hfirst.focus (F := c b none (some last) * (pointsTo a (.item x) *
      (textAt x.string name * textAt x.valuestring t.valuestring))) (by ac_rfl) fun _ => ?_
    rw [← mul_assoc, ← ring_concat hlast, mul_comm]
    exact le_node a name _ hx hchild

theorem addItemToArray_node {name : Option (List UInt8)} {t : CJson} (hcells : ∀ c ∈ cells, IsNode c) (hc : IsNode c) :
    Triple denied (node name t cells a next prev * c b none q) (addItemToArray (some a) (some b)) fun r =>
      fact (r = true) * node name t (cells ++ [c]) a next prev := by
  refine Triple.of_ne (fun h hm => IsNode.mem ⟨name, t, cells, rfl⟩ hm) (fun h hm => hc.mem hm) fun hne => ?_
  simp only [addItemToArray, if_neg hne]
  refine (appendChild_triple hcells hc).bind (mul_one _).symm fun _ => ?_
  rw [mul_one]
  exact Triple.pure (le_fact_mul rfl)

end

/-- The new key replaces the one the item had; without memory for it the item stays out. -/
theorem addItemToObject_node {denied : Prop} (A : Allocator Block) {name n : Option (List UInt8)} {t u : CJson}
    {key : List UInt8}
    {cells children : List (Cell Block)} (hcells : ∀ c ∈ cells, IsNode c) {a b : Addr} {next prev q : Option Addr} :
    Triple denied (node name t cells a next prev * node n u children b none q) (addItemToObject A (some a) key (some b))
      fun r => match r with
        | true => node name t (cells ++ [node (some key) u children]) a next prev
        | false => fact denied * (node name t cells a next prev * node n u children b none q) := by
  refine Triple.of_ne (fun h hm => IsNode.mem ⟨name, t, cells, rfl⟩ hm) (fun h hm => IsNode.mem ⟨n, u, children, rfl⟩ hm)
    fun hne => ?_
  simp only [addItemToObject, if_neg hne]
  refine (Triple.allocate A (.text key)).bind (one_mul _).symm fun r => ?_
  cases r with
  | none => exact Triple.pure le_rfl
  | some v =>
    dsimp only
    rw [← mul_assoc, mul_comm]
    refine node_triple fun x as hx hchild => ?_
    refine readItem_bind (x := x) (mul_assoc _ _ _) ?_
    have hconst : x.type.stringIsConst = false := by rw [hx.2.2.1]; rfl
    rw [hconst]
    refine (freeText_triple x.string n).bind (F := pointsTo b (.item x) * (textAt x.valuestring u.valuestring *
      (ring as children * (pointsTo v (.text key) * node name t cells a next prev)))) (by ac_rfl) fun _ => ?_
    rw [one_mul]
    refine (updateItem_triple _).bind rfl fun _ => ?_
    have hsame : ({x with string := some v, type := {x.type with stringIsConst := false}} : Item) =
        {x with string := some v} := by
      rw [← hconst]
    rw [hsame]
    have hclosed : pointsTo b (.item {x with string := some v}) * (textAt x.valuestring u.valuestring *
        (ring as children * (pointsTo v (.text key) * node name t cells a next prev))) ≤
        node name t cells a next prev * node (some key) u children b none q := by
      have hnode := le_node b (some key) children (x := {x with string := some v}) hx hchild
      rw [mul_comm (node name t cells a next prev)]
      refine le_trans (le_of_eq ?_) (mul_le_mul_left hnode _)
      show _ = pointsTo b (.item {x with string := some v}) * (pointsTo v (.text key) *
        textAt x.valuestring u.valuestring) * ring as children * node name t cells a next prev
      ac_rfl
    refine (addItemToArray_node hcells ⟨some key, u, children, rfl⟩).conseq hclosed fun r h hh => ?_
    obtain ⟨rfl, hrest⟩ := mem_fact_mul.mp hh
    exact hrest

/-! ### New items -/

/-- What is there of an item just made: nothing, or a tree. -/
def Made (denied : Prop) (t : CJson) : Option Addr → Assertion Block
  | none => fact denied
  | some a => tree t a

section
variable {denied : Prop}

theorem le_tree {t : CJson} {x : Item} {a : Addr} (hleaf : childCells t = []) (hx : x.Shows t) (hnext : x.next = none)
    (hprev : x.prev = none) (hchild : x.child = none) (hstring : x.string = none) :
    pointsTo a (.item x) * textAt x.valuestring t.valuestring ≤ tree t a := by
  have hnode := le_node a none [] ⟨hnext, hprev, hx⟩ (hchild.trans List.head?_nil.symm)
  rw [tree, hleaf]
  refine le_trans (le_of_eq ?_) hnode
  rw [hstring]
  show _ = _ * (1 * _) * 1
  rw [one_mul, mul_one]

theorem createItem_triple (A : Allocator Block) {kind : ItemKind} {t : CJson} (ht : t.kind = kind)
    (hdouble : t.valuedouble = none) (hstring : t.valuestring = none) (hleaf : childCells t = []) :
    Triple denied 1 (createItem A kind) (Made denied t) := by
  refine (Triple.allocate A (.item .zero)).bind (one_mul 1).symm fun r => ?_
  cases r with
  | none => exact Triple.pure (mul_one _).le
  | some a =>
    refine (updateItem_triple _).bind rfl fun _ => ?_
    refine Triple.pure ?_
    have hshape : ({Item.zero with type := kind.type} : Item).Shows t :=
      ⟨congrArg ItemKind.type ht.symm, by simp [hdouble]⟩
    have htree := le_tree (a := a) (t := t) (x := {Item.zero with type := kind.type}) hleaf hshape rfl rfl rfl rfl
    rw [hstring] at htree
    exact htree

theorem createArray_triple (A : Allocator Block) : Triple denied 1 (createArray A) (Made denied (.array [])) :=
  createItem_triple A rfl rfl rfl rfl

theorem createObject_triple (A : Allocator Block) : Triple denied 1 (createObject A) (Made denied (.object [])) :=
  createItem_triple A rfl rfl rfl rfl

/-- The item of a number, and nothing else, is a tree. -/
theorem le_number (d : Whole) (a : Addr) :
    pointsTo a (.item {Item.zero with type := ItemKind.type .number, valuedouble := d}) ≤ tree (.number d) a :=
  (mul_one _).ge.trans (le_tree (t := .number d) (x := {Item.zero with type := ItemKind.type .number, valuedouble := d}) rfl
    ⟨rfl, by simp [CJson.valuedouble]⟩ rfl rfl rfl rfl)

theorem createNumber_triple (A : Allocator Block) (d : Whole) :
    Triple denied 1 (createNumber A d) (Made denied (.number d)) := by
  refine (Triple.allocate A (.item .zero)).bind (one_mul 1).symm fun r => ?_
  cases r with
  | none => exact Triple.pure (mul_one _).le
  | some a =>
    refine (updateItem_triple _).bind rfl fun _ => ?_
    exact Triple.pure ((mul_one _).le.trans (le_number d a))

/-- An item that nothing hangs off yet. -/
theorem delete_bare {a : Addr} {x : Item} (htype : x.type.isReference = false ∧ x.type.stringIsConst = false)
    (hnext : x.next = none) (hchild : x.child = none) (hvalue : x.valuestring = none) (hstring : x.string = none) :
    Triple denied (pointsTo a (.item x)) (delete (some a)) fun _ => 1 := by
  refine Triple.of_counts (counts_pointsTo a (.item x)) (k := fun size => deleteLoop size (some a)) fun size hsize => ?_
  obtain ⟨n, rfl⟩ : ∃ n, size = n + 1 := ⟨size - 1, by omega⟩
  have hrest : Triple denied (1 : Assertion Block) (deleteLoop n x.next) fun _ => 1 := by
    rw [hnext]
    exact deletes_nil 0 n (Nat.zero_le n) none []
  refine (deleteItem_triple none none htype.1 htype.2
    (fun prev as => deletes_nil 0 n (Nat.zero_le n) prev as) hrest).conseq ?_ fun _ => le_rfl
  have hchildren : (1 : Assertion Block) ≤ ⨆ as : List Addr, fact (x.child = as.head?) * ring as [] := by
    refine le_iSup_of_le [] ?_
    have hempty : ring [] ([] : List (Cell Block)) = 1 := rfl
    rw [hempty]
    exact le_fact_mul hchild
  rw [owned, hvalue, hstring]
  show _ ≤ (pointsTo a (Block.item x) : Assertion Block) * (1 * (1 * _)) * 1
  rw [one_mul, one_mul, mul_one]
  exact (mul_one _).ge.trans (mul_le_mul_right hchildren _)

theorem createString_triple (A : Allocator Block) (s : List UInt8) :
    Triple denied 1 (createString A (some s)) (Made denied (.string s)) := by
  refine (Triple.allocate A (.item .zero)).bind (one_mul 1).symm fun r => ?_
  cases r with
  | none => exact Triple.pure (mul_one _).le
  | some a =>
    refine (updateItem_triple _).bind rfl fun _ => ?_
    rw [mul_one]
    refine (Triple.allocate A (.text s)).bind (one_mul _).symm fun r => ?_
    cases r with
    | none =>
      refine Triple.fact_mul fun hdenied => ?_
      have hbare : Triple denied (pointsTo a (.item {Item.zero with type := ItemKind.type .string})) (delete (some a))
          fun _ => 1 := delete_bare ⟨rfl, rfl⟩ rfl rfl rfl rfl
      refine hbare.bind (mul_one _).symm fun _ => ?_
      exact Triple.pure ((mul_one _).le.trans (fact_true hdenied).ge)
    | some v =>
      refine (updateItem_triple _).bind (mul_comm _ _) fun _ => ?_
      refine Triple.pure ?_
      exact le_tree (a := a) (t := .string s) (x := {Item.zero with type := ItemKind.type .string, valuestring := some v}) rfl
        ⟨rfl, by simp [CJson.valuedouble]⟩ rfl rfl rfl rfl

theorem delete_none {P : Assertion Block} : Triple denied P (delete none) fun _ => P := by
  refine Triple.of_done fun F m hm => ⟨(), m, ?_, hm⟩
  show deleteLoop m.blocks.keys.card none m = _
  rw [deleteLoop_none]
  rfl

/-- **`cJSON_Delete` on any heap that holds a tree** comes to an end without touching a block
twice, and what is left is the rest of the heap. -/
theorem delete_frees (t : CJson) (a : Addr) {m : HeapState Block} {k rest : Heap Block} (hk : k ∈ tree t a)
    (hrest : Finmap.Disjoint k rest) (hm : m.blocks = k ∪ rest) :
    ∃ m', delete (some a) m = .done () m' ∧ m'.blocks = rest := by
  obtain ⟨_, m', _, hdone, rfl, -, hblocks⟩ := Triple.run (fun _ => delete_tree t a) hk hrest hm
  exact ⟨m', hdone, hblocks.trans Finmap.empty_union⟩

/-! ### A tree on a given heap -/

section
variable {h : Heap Block} {F : Assertion Block}

theorem mem_node_mul {name : Option (List UInt8)} {t : CJson} {cells : List (Cell Block)} {a : Addr}
    {next prev : Option Addr} {x : Item} (as : List Addr) (hlookup : h.lookup a = some (.item x))
    (hx : x.next = next ∧ x.prev = prev ∧ x.Shows t) (hchild : x.child = as.head?)
    (hrest : h.erase a ∈ textAt x.string name * (textAt x.valuestring t.valuestring * (ring as cells * F))) :
    h ∈ node name t cells a next prev * F := by
  refine mul_le_mul_left (le_node a name cells hx hchild) F ?_
  simp only [mul_assoc]
  exact mem_pointsTo_mul.mpr ⟨hlookup, hrest⟩

theorem mem_textAt_mul {v : Addr} {s : List UInt8} (hlookup : h.lookup v = some (.text s)) (hrest : h.erase v ∈ F) :
    h ∈ textAt (some v) (some s) * F := mem_pointsTo_mul.mpr ⟨hlookup, hrest⟩

theorem mem_one_mul (hF : h ∈ F) : h ∈ 1 * F := by rwa [one_mul]

theorem mem_links_mul {c : Cell Block} {cs : List (Cell Block)} {prev : Option Addr} {a : Addr} {as : List Addr}
    (hrest : h ∈ c a (as.head?.or none) prev * (links none (some a) as cs * F)) :
    h ∈ links none prev (a :: as) (c :: cs) * F := by
  rwa [links, mul_assoc]

end

def sampleTree : CJson :=
  .object [(lit "id", .string (lit "7")), (lit "pid", .number ⟨42, by decide⟩),
    (lit "argv", .array [.string (lit "ls")])]

/-- What else is on the heap. -/
def sampleRest : Heap Block :=
  [⟨20, .text (lit "pid")⟩, ⟨21, .item {Item.zero with child := some 2, string := some 20}⟩].toFinmap

/-- The items of `sampleTree`, their keys and strings, and some other blocks. -/
def sampleHeap : Heap Block :=
  [⟨1, .item {Item.zero with child := some 2, type := ItemKind.type .object}⟩,
    ⟨2, .item {Item.zero with
      next := some 5, prev := some 7, type := ItemKind.type .string, valuestring := some 4, string := some 3}⟩,
    ⟨3, .text (lit "id")⟩,
    ⟨4, .text (lit "7")⟩,
    ⟨5, .item {Item.zero with
      next := some 7, prev := some 2, type := ItemKind.type .number, valuedouble := ⟨42, by decide⟩, string := some 6}⟩,
    ⟨6, .text (lit "pid")⟩,
    ⟨7, .item {Item.zero with prev := some 5, child := some 9, type := ItemKind.type .array, string := some 8}⟩,
    ⟨8, .text (lit "argv")⟩,
    ⟨9, .item {Item.zero with prev := some 9, type := ItemKind.type .string, valuestring := some 10}⟩,
    ⟨10, .text (lit "ls")⟩,
    ⟨20, .text (lit "pid")⟩,
    ⟨21, .item {Item.zero with child := some 2, string := some 20}⟩].toFinmap

theorem sampleHeap_tree : sampleHeap ∈ tree sampleTree 1 * exactly sampleRest := by
  refine mem_node_mul [2, 5, 7] rfl ⟨rfl, rfl, rfl, by rintro _ ⟨⟩⟩ rfl ?_
  refine mem_one_mul (mem_one_mul (mem_links_mul ?_))
  refine mem_node_mul [] rfl ⟨rfl, rfl, rfl, by rintro _ ⟨⟩⟩ rfl ?_
  refine mem_textAt_mul rfl (mem_textAt_mul rfl (mem_one_mul (mem_links_mul ?_)))
  refine mem_node_mul [] rfl ⟨rfl, rfl, rfl, by rintro _ ⟨⟩; rfl⟩ rfl ?_
  refine mem_textAt_mul rfl (mem_one_mul (mem_one_mul (mem_links_mul ?_)))
  refine mem_node_mul [9] rfl ⟨rfl, rfl, rfl, by rintro _ ⟨⟩⟩ rfl ?_
  refine mem_textAt_mul rfl (mem_one_mul (mem_links_mul ?_))
  refine mem_node_mul [] rfl ⟨rfl, rfl, rfl, by rintro _ ⟨⟩⟩ rfl ?_
  refine mem_one_mul (mem_textAt_mul rfl (mem_one_mul (mem_one_mul (mem_one_mul ?_))))
  rfl

theorem sampleTree_freed :
    ∃ m', delete (some 1) ⟨sampleHeap, 10, 0⟩ = .done () m' ∧ m'.blocks = sampleRest := by
  obtain ⟨_, _, hd, hm, hk, rfl⟩ := mem_mul.mp sampleHeap_tree
  exact delete_frees sampleTree 1 hk hd hm

/-! ### Adding a new item -/

/-- A new item becomes the last member; without memory for it there is none, and nothing is
left of it. -/
theorem addToObject_triple (A : Allocator Block) {create : OnHeap (Option Addr)} {u : CJson}
    (hcreate : Triple denied 1 create (Made denied u)) {name : Option (List UInt8)} {t : CJson} {cells : List (Cell Block)}
    (hcells : ∀ c ∈ cells, IsNode c) {a : Addr} {next prev : Option Addr} (key : List UInt8) :
    Triple denied (node name t cells a next prev) (addToObject A (some a) key create) fun _ =>
      node name t (cells ++ [node (some key) u (childCells u)]) a next prev ⊔
        fact denied * node name t cells a next prev := by
  refine hcreate.bind (one_mul _).symm fun r => ?_
  cases r with
  | none =>
    show Triple denied _ (delete none >>= fun _ => pure none) _
    refine delete_none.bind (mul_one _).symm fun _ => ?_
    exact Triple.pure ((mul_one _).le.trans le_sup_right)
  | some b =>
    refine (addItemToObject_node A hcells).bind ((mul_comm _ _).trans (mul_one _).symm) fun r => ?_
    rw [mul_one]
    cases r with
    | true => exact Triple.pure le_sup_left
    | false =>
      refine Triple.fact_mul fun hdenied => ?_
      show Triple denied _ (delete (some b) >>= fun _ => pure none) _
      refine (delete_tree u b).bind (mul_comm _ _) fun _ => ?_
      rw [one_mul]
      exact Triple.pure ((le_fact_mul hdenied).trans le_sup_right)

theorem addToObject_null (A : Allocator Block) {create : OnHeap (Option Addr)} {u : CJson}
    (hcreate : Triple denied 1 create (Made denied u)) (key : List UInt8) :
    Triple denied 1 (addToObject A none key create) fun _ => 1 := by
  refine hcreate.bind (one_mul _).symm fun r => ?_
  rw [mul_one]
  cases r with
  | none =>
    show Triple denied _ (delete none >>= fun _ => pure none) _
    refine delete_none.bind (mul_one _).symm fun _ => ?_
    exact Triple.pure ((mul_one _).le.trans fact_le_one)
  | some b =>
    show Triple denied _ (delete (some b) >>= fun _ => pure none) _
    refine (delete_tree u b).bind (mul_one _).symm fun _ => ?_
    exact Triple.pure (mul_one _).le

end

end EndpointSecurity.Agent
