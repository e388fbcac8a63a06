import EndpointSecurity.Library.Machine
import Mathlib.Data.Fintype.Basic
import Mathlib.Logic.Function.Basic

/-! Transactions that run at the same time, on a table with a unique key.

A `Script` is what a request does on its connection: it reads, and then it writes,
commits and answers. Reads see the table as it was committed when the first of them
ran. Writes meet the table as it is committed when they run, and wait for changes that
others have not committed: an inserted row keeps out its key, and who deletes all rows
keeps out every insertion. These are the waits a table needs to stay keyed. A database
that makes requests wait for more gives them their turns later, and one that ends a wait
for ever rolls a request back: a step may fail, whenever it is taken. What a turn does to
the requests is said once (`takeTurn_turned`). -/
namespace EndpointSecurity.Library.Isolation
open Machine

/-! ### Scripts -/

/-- A statement that writes: an insertion with the error of a duplicate, the deletion of
all rows, or a statement the table has no say in. -/
inductive Write (ρ ε : Type) where
  | insert (row : ρ) (duplicate : ε)
  | deleteAll
  | refuse (e : ε)

/-- What a request does on its connection. -/
inductive Script (ρ ε α : Type) where
  | answer (result : Except ε α)
  | touch (next : Script ρ ε α)
  | query (next : List ρ → Script ρ ε α)
  /-- The writes, a commit, and the answer. -/
  | write (writes : List (Write ρ ε)) (a : α)

/-- What writes make of a table: whether they delete what it had, and what they add. -/
structure Change (ρ : Type) where
  swept : Bool
  inserted : List ρ

namespace Change
variable {ρ : Type}

def none : Change ρ := ⟨false, []⟩

def apply (c : Change ρ) (rows : List ρ) : List ρ := (if c.swept then [] else rows) ++ c.inserted

@[simp] theorem none_apply (rows : List ρ) : none.apply rows = rows := List.append_nil rows

end Change

namespace Write
variable {ρ ε : Type}

/-- The write on a table of which nobody else knows. -/
def apply (key : Setoid ρ) [DecidableRel key.r] : Write ρ ε → List ρ → Except ε (List ρ)
  | .insert row duplicate, rows => if ∃ x ∈ rows, key.r x row then .error duplicate else .ok (rows ++ [row])
  | .deleteAll, _ => .ok []
  | .refuse e, _ => .error e

def change (c : Change ρ) : Write ρ ε → Change ρ
  | .insert row _ => {c with inserted := c.inserted ++ [row]}
  | .deleteAll => ⟨true, []⟩
  | .refuse _ => c

theorem insert_eq_ok {key : Setoid ρ} [DecidableRel key.r] {row : ρ} {duplicate : ε} {rows after : List ρ} :
    (insert row duplicate).apply key rows = .ok after ↔ (∀ x ∈ rows, ¬ key.r x row) ∧ after = rows ++ [row] := by
  show (if ∃ x ∈ rows, key.r x row then Except.error duplicate else .ok (rows ++ [row])) = _ ↔ _
  by_cases h : ∃ x ∈ rows, key.r x row
  · rw [if_pos h]
    obtain ⟨x, hx, hkey⟩ := h
    constructor
    · intro h
      cases h
    · exact fun h => absurd hkey (h.1 x hx)
  · rw [if_neg h, Except.ok.injEq, eq_comm]
    exact (and_iff_right fun x hx hkey => h ⟨x, hx, hkey⟩).symm

/-- A write keeps the key. -/
theorem apply_keyed {key : Setoid ρ} [DecidableRel key.r] {x : Write ρ ε} {rows after : List ρ}
    (h : x.apply key rows = .ok after) (hrows : rows.Pairwise fun x y => ¬ key.r x y) :
    after.Pairwise fun x y => ¬ key.r x y := by
  cases x with
  | insert row duplicate =>
    obtain ⟨hnew, rfl⟩ := insert_eq_ok.mp h
    apply List.pairwise_append.mpr
    exact ⟨hrows, List.pairwise_singleton _ _, fun x hx _ hy => List.mem_singleton.mp hy ▸ hnew x hx⟩
  | deleteAll =>
    obtain rfl := Except.ok.inj h
    exact .nil
  | refuse e => cases h

/-- A write adds to a change what it does to the changed table. -/
theorem apply_change {key : Setoid ρ} [DecidableRel key.r] {x : Write ρ ε} {c : Change ρ} {rows after : List ρ}
    (h : x.apply key (c.apply rows) = .ok after) : after = (x.change c).apply rows := by
  cases x with
  | insert row duplicate =>
    rw [(insert_eq_ok.mp h).2]
    exact List.append_assoc ..
  | deleteAll => exact (Except.ok.inj h).symm
  | refuse e => cases h

end Write

/-- All writes are writes that a table can take. -/
def Made {ρ ε : Type} (writes : List (Write ρ ε)) : Prop := ∀ x ∈ writes, ∀ e, x ≠ .refuse e

/-- What writes make of a table, all together. -/
def changeOf {ρ ε : Type} (writes : List (Write ρ ε)) : Change ρ := writes.foldl Write.change .none

/-! ### Worlds -/

/-- Changes that are not committed: the rows that were there to delete, and the change. -/
structure Pending (ρ : Type) where
  deleted : List ρ
  change : Change ρ

namespace Pending
variable {ρ : Type}

def none : Pending ρ := ⟨[], .none⟩

/-- The table with the changes. -/
def view [DecidableEq ρ] (d : Pending ρ) (rows : List ρ) : List ρ :=
  rows.filter (· ∉ d.deleted) ++ d.change.inserted

/-- The changes with one write more, to a table. -/
def after {ε : Type} (d : Pending ρ) (rows : List ρ) (x : Write ρ ε) : Pending ρ :=
  ⟨match x with
    | .insert _ _ | .refuse _ => d.deleted
    | .deleteAll => rows, x.change d.change⟩

/-- A write has to wait for the end of these changes. Two deletions meet only on rows. -/
def Blocks {ε : Type} (key : Setoid ρ) (d : Pending ρ) : Write ρ ε → Prop
  | .insert row _ => d.change.swept = true ∨ ∃ x ∈ d.change.inserted, key.r x row
  | .deleteAll => d.deleted ≠ [] ∨ d.change.inserted ≠ []
  | .refuse _ => False

instance {ε : Type} [DecidableEq ρ] (key : Setoid ρ) [DecidableRel key.r] (d : Pending ρ) :
    (x : Write ρ ε) → Decidable (d.Blocks key x)
  | .insert row _ => inferInstanceAs (Decidable (d.change.swept = true ∨ ∃ x ∈ d.change.inserted, key.r x row))
  | .deleteAll => inferInstanceAs (Decidable (d.deleted ≠ [] ∨ d.change.inserted ≠ []))
  | .refuse _ => inferInstanceAs (Decidable False)

end Pending

theorem Pending.not_blocks_none {ρ ε : Type} {key : Setoid ρ} {x : Write ρ ε} : ¬ Pending.none.Blocks key x := by
  cases x <;> simp [Blocks, none, Change.none]

/-- How far a request has come. -/
inductive Phase (ρ ε α : Type) where
  | reading (snapshot : Option (List ρ)) (script : Script ρ ε α)
  | writing (pending : Pending ρ) (writes : List (Write ρ ε)) (a : α)
  | returned (result : Except ε α)

def Phase.pending {ρ ε α : Type} : Phase ρ ε α → Pending ρ
  | .writing d _ _ => d
  | .reading _ _ | .returned _ => .none

/-- What is committed, the phases of the requests, and the commits, in order. -/
structure World (ι ρ ε α : Type) where
  rows : List ρ
  phase : ι → Phase ρ ε α
  commits : List (ι × Change ρ)

namespace World
variable {ι ρ ε α : Type} [DecidableEq ι]

def initial (scripts : ι → Script ρ ε α) (rows : List ρ) : World ι ρ ε α :=
  ⟨rows, fun i => .reading none (scripts i), []⟩

def move (w : World ι ρ ε α) (i : ι) (p : Phase ρ ε α) : World ι ρ ε α :=
  {w with phase := Function.update w.phase i p}

def commit (w : World ι ρ ε α) (i : ι) (d : Pending ρ) (a : α) [DecidableEq ρ] : World ι ρ ε α :=
  ⟨d.view w.rows, Function.update w.phase i (.returned (.ok a)), w.commits ++ [(i, d.change)]⟩

@[simp] theorem move_rows (w : World ι ρ ε α) (i : ι) (p : Phase ρ ε α) : (w.move i p).rows = w.rows := rfl

@[simp] theorem move_self (w : World ι ρ ε α) (i : ι) (p : Phase ρ ε α) : (w.move i p).phase i = p :=
  Function.update_self ..

theorem move_other (w : World ι ρ ε α) {i j : ι} (h : j ≠ i) (p : Phase ρ ε α) :
    (w.move i p).phase j = w.phase j := Function.update_of_ne h ..

section Steps
variable [Fintype ι] [DecidableEq ρ] (key : Setoid ρ) [DecidableRel key.r]

/-- A write of the request has to wait for another request. -/
def Waits (w : World ι ρ ε α) (i : ι) (x : Write ρ ε) : Prop :=
  ∃ j, j ≠ i ∧ (w.phase j).pending.Blocks key x

instance (w : World ι ρ ε α) (i : ι) (x : Write ρ ε) : Decidable (w.Waits key i x) :=
  inferInstanceAs (Decidable (∃ j, j ≠ i ∧ (w.phase j).pending.Blocks key x))

/-- The next write of a request, or its commit. -/
def perform (w : World ι ρ ε α) (i : ι) (d : Pending ρ) (writes : List (Write ρ ε)) (a : α) : World ι ρ ε α :=
  match writes with
  | [] => w.commit i d a
  | x :: rest =>
    if w.Waits key i x then w
    else
      match x.apply key (d.view w.rows) with
      | .error e => w.move i (.returned (.error e))
      | .ok _ => w.move i (.writing (d.after w.rows x) rest a)

/-- The next step of a request. -/
def proceed (w : World ι ρ ε α) (i : ι) : World ι ρ ε α :=
  match w.phase i with
  | .returned _ => w
  | .reading _ (.answer result) => w.move i (.returned result)
  | .reading snapshot (.touch next) => w.move i (.reading snapshot next)
  -- the first read sets what all of them see
  | .reading snapshot (.query next) =>
    let seen := snapshot.getD w.rows
    w.move i (.reading (some seen) (next seen))
  | .reading _ (.write writes a) => w.perform key i .none writes a
  | .writing d writes a => w.perform key i d writes a

/-- The next step of a request raises; what it did is undone. To answer takes no step of
the database. -/
def raise (w : World ι ρ ε α) (i : ι) (e : ε) : World ι ρ ε α :=
  match w.phase i with
  | .returned _ => w
  | .reading _ (.answer result) => w.move i (.returned result)
  | .reading _ _ | .writing _ _ _ => w.move i (.returned (.error e))

end Steps

end World

/-- A turn: whose it is, and what its step raises, if it does. -/
structure Turn (ι ε : Type) where
  who : ι
  fault : Option ε

section Turns
variable {ι ρ ε α : Type} [DecidableEq ι] [Fintype ι] [DecidableEq ρ] (key : Setoid ρ) [DecidableRel key.r]

def takeTurn (w : World ι ρ ε α) (t : Turn ι ε) : World ι ρ ε α :=
  match t.fault with
  | none => w.proceed key t.who
  | some e => w.raise t.who e

/-- The requests, in any order of turns. -/
def requests : Machine (Turn ι ε) Unit (World ι ρ ε α) := ⟨fun w t => ((), takeTurn key w t)⟩

/-- The turns of one request, with what each of them raises. -/
def turnsOf (i : ι) (faults : List (Option ε)) : List (Turn ι ε) := faults.map fun fault => ⟨i, fault⟩

end Turns

/-! ### What a turn does -/

/-- The request is at its writes: these changes behind it, these writes before it. -/
inductive Phase.Writes {ρ ε α : Type} : Phase ρ ε α → Pending ρ → List (Write ρ ε) → α → Prop
  | reading (snapshot : Option (List ρ)) (writes : List (Write ρ ε)) (a : α) :
    Writes (.reading snapshot (.write writes a)) .none writes a
  | writing (d : Pending ρ) (writes : List (Write ρ ε)) (a : α) : Writes (.writing d writes a) d writes a

theorem Phase.Writes.pending_eq {ρ ε α : Type} {p : Phase ρ ε α} {d : Pending ρ} {writes : List (Write ρ ε)} {a : α}
    (h : p.Writes d writes a) : p.pending = d := by
  cases h <;> rfl

theorem Phase.Writes.not_returned {ρ ε α : Type} {p : Phase ρ ε α} {d : Pending ρ}
    {writes : List (Write ρ ε)} {a : α} (h : p.Writes d writes a) (result : Except ε α) : p ≠ .returned result := by
  cases h <;> intro heq <;> cases heq

section Cases
variable {ι ρ ε α : Type} [DecidableEq ι] [Fintype ι] [DecidableEq ρ] (key : Setoid ρ) [DecidableRel key.r]

/-- What becomes of a world in a turn of a request. -/
inductive Turned (w : World ι ρ ε α) (i : ι) : World ι ρ ε α → Prop
  | still : Turned w i w
  | failed (e : ε) (h : ∀ result, w.phase i ≠ .returned result) : Turned w i (w.move i (.returned (.error e)))
  | answered {snapshot : Option (List ρ)} {result : Except ε α} (h : w.phase i = .reading snapshot (.answer result)) :
    Turned w i (w.move i (.returned result))
  | touched {snapshot : Option (List ρ)} {next : Script ρ ε α} (h : w.phase i = .reading snapshot (.touch next)) :
    Turned w i (w.move i (.reading snapshot next))
  | queried {snapshot : Option (List ρ)} {next : List ρ → Script ρ ε α}
    (h : w.phase i = .reading snapshot (.query next)) :
    Turned w i (w.move i (.reading (some (snapshot.getD w.rows)) (next (snapshot.getD w.rows))))
  | wrote {d : Pending ρ} {x : Write ρ ε} {rest : List (Write ρ ε)} {a : α} {after : List ρ}
    (h : (w.phase i).Writes d (x :: rest) a) (hfree : ¬ w.Waits key i x)
    (happly : x.apply key (d.view w.rows) = .ok after) :
    Turned w i (w.move i (.writing (d.after w.rows x) rest a))
  | committed {d : Pending ρ} {a : α} (h : (w.phase i).Writes d [] a) : Turned w i (w.commit i d a)

variable {key}

theorem perform_turned {w : World ι ρ ε α} {i : ι} {d : Pending ρ} {writes : List (Write ρ ε)} {a : α}
    (h : (w.phase i).Writes d writes a) : Turned key w i (w.perform key i d writes a) := by
  cases writes with
  | nil => exact .committed h
  | cons x rest =>
    by_cases hwaits : w.Waits key i x
    · have hstill : w.perform key i d (x :: rest) a = w := if_pos hwaits
      rw [hstill]
      exact .still
    · cases happly : x.apply key (d.view w.rows) with
      | error e =>
        have hfailed : w.perform key i d (x :: rest) a = w.move i (.returned (.error e)) := by
          simp only [World.perform, if_neg hwaits, happly]
        rw [hfailed]
        exact .failed e h.not_returned
      | ok after =>
        have hwrote : w.perform key i d (x :: rest) a = w.move i (.writing (d.after w.rows x) rest a) := by
          simp only [World.perform, if_neg hwaits, happly]
        rw [hwrote]
        exact .wrote h hwaits happly

theorem proceed_turned (w : World ι ρ ε α) (i : ι) : Turned key w i (w.proceed key i) := by
  unfold World.proceed
  cases hphase : w.phase i with
  | returned result => exact .still
  | writing d writes a => exact perform_turned (hphase ▸ .writing d writes a)
  | reading snapshot script =>
    cases script with
    | answer result => exact .answered hphase
    | touch next => exact .touched hphase
    | query next => exact .queried hphase
    | write writes a => exact perform_turned (hphase ▸ .reading snapshot writes a)

theorem takeTurn_turned (w : World ι ρ ε α) (t : Turn ι ε) : Turned key w t.who (takeTurn key w t) := by
  unfold takeTurn
  cases t.fault with
  | none => exact proceed_turned w t.who
  | some e =>
    dsimp only
    unfold World.raise
    cases hphase : w.phase t.who with
    | returned result => exact .still
    | writing d writes a => exact .failed e fun _ h => by rw [hphase] at h; cases h
    | reading snapshot script =>
      cases script with
      | answer result => exact .answered hphase
      | touch next | query next | write writes a => exact .failed e fun _ h => by rw [hphase] at h; cases h

end Cases

end EndpointSecurity.Library.Isolation
