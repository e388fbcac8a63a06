import Mathlib.Data.List.Basic

/-! Programs over a memory, and what they may do to it.

A program is done with a result, gives up, or goes wrong: it uses memory in a way the
language leaves undefined. `Meets` says of a run that it does not go wrong, and what
holds where it is done and where it gave up; its rules take a program apart statement
by statement. A `poke` writes into a block of bytes, if it stays inside. -/
namespace EndpointSecurity.Library

inductive Outcome (σ α : Type) where
  | wrong
  | failed (s : σ)
  | done (a : α) (s : σ)

/-- A program over a state `σ`. -/
def Program (σ α : Type) : Type := σ → Outcome σ α

namespace Program
variable {σ α β : Type}

instance : Monad (Program σ) where
  pure a := fun s => .done a s
  bind p k := fun s =>
    match p s with
    | .wrong => .wrong
    | .failed t => .failed t
    | .done a t => k a t

/-- Undefined behaviour. -/
def wrong : Program σ α := fun _ => .wrong

/-- Giving up, with the state as it is. -/
def fail : Program σ α := fun s => .failed s

def read : Program σ σ := fun s => .done s s

def modify (f : σ → σ) : Program σ Unit := fun s => .done () (f s)

/-- Whether the program was done; the state is kept where it gave up. -/
def succeeds (p : Program σ α) : Program σ Bool := fun s =>
  match p s with
  | .wrong => .wrong
  | .failed t => .done false t
  | .done _ t => .done true t

/-! ### Rules -/

/-- The program does not go wrong, ends in `Q` where it is done and in `F` where it
gives up. -/
def Meets (p : Program σ α) (s : σ) (Q : α → σ → Prop) (F : σ → Prop) : Prop :=
  match p s with
  | .wrong => False
  | .failed t => F t
  | .done a t => Q a t

variable {p : Program σ α} {s : σ} {Q : α → σ → Prop} {F : σ → Prop}

theorem meets_pure {a : α} : Meets (pure a) s Q F ↔ Q a s := Iff.rfl

theorem meets_fail : Meets (fail : Program σ α) s Q F ↔ F s := Iff.rfl

theorem meets_read {Q : σ → σ → Prop} : Meets read s Q F ↔ Q s s := Iff.rfl

theorem meets_modify {f : σ → σ} {Q : Unit → σ → Prop} : Meets (modify f) s Q F ↔ Q () (f s) := Iff.rfl

theorem meets_bind {k : α → Program σ β} {Q : β → σ → Prop} :
    Meets (p >>= k) s Q F ↔ Meets p s (fun a t => Meets (k a) t Q F) F := by
  have hbind : (p >>= k) s = match p s with
    | .wrong => .wrong
    | .failed t => .failed t
    | .done a t => k a t := rfl
  unfold Meets
  rw [hbind]
  cases p s <;> rfl

theorem bind_of_done {k : α → Program σ β} {a : α} {t : σ} (h : p s = .done a t) : (p >>= k) s = k a t := by
  have hbind : (p >>= k) s = match p s with
    | .wrong => .wrong
    | .failed t => .failed t
    | .done a t => k a t := rfl
  rw [hbind, h]

theorem bind_eq_done {k : α → Program σ β} {b : β} {u : σ} :
    (p >>= k) s = .done b u ↔ ∃ a t, p s = .done a t ∧ k a t = .done b u := by
  have hbind : (p >>= k) s = match p s with
    | .wrong => .wrong
    | .failed t => .failed t
    | .done a t => k a t := rfl
  rw [hbind]
  cases p s <;> simp

/-- A run that meets something meets what follows from it. -/
theorem Meets.imp {Q' : α → σ → Prop} {F' : σ → Prop} (h : Meets p s Q F) (hQ : ∀ a t, Q a t → Q' a t)
    (hF : ∀ t, F t → F' t) : Meets p s Q' F' := by
  unfold Meets at h ⊢
  cases hp : p s with
  | wrong => simp only [hp] at h
  | failed t =>
    simp only [hp] at h
    exact hF t h
  | done a t =>
    simp only [hp] at h
    exact hQ a t h

/-- A statement, and what is left to do after it. -/
theorem Meets.bind {k : α → Program σ β} {R : β → σ → Prop} (h : Meets p s Q F)
    (hk : ∀ a t, Q a t → Meets (k a) t R F) : Meets (p >>= k) s R F :=
  meets_bind.mpr (h.imp hk fun _ hF => hF)

theorem meets_succeeds {R : Bool → σ → Prop} :
    Meets (succeeds p) s R F ↔ Meets p s (fun _ t => R true t) fun t => R false t := by
  unfold Meets succeeds
  cases p s <;> rfl

/-- A run of a program that meets something was done in it, or gave up in it. -/
theorem Meets.cases (h : Meets p s Q F) :
    (∃ a t, p s = .done a t ∧ Q a t) ∨ ∃ t, p s = .failed t ∧ F t := by
  unfold Meets at h
  cases hp : p s with
  | wrong => simp only [hp] at h
  | failed t =>
    simp only [hp] at h
    exact .inr ⟨t, rfl, h⟩
  | done a t =>
    simp only [hp] at h
    exact .inl ⟨a, t, rfl, h⟩

/-- A run that never gives up. -/
theorem Meets.done (h : Meets p s Q fun _ => False) : ∃ a t, p s = .done a t ∧ Q a t := by
  obtain hdone | ⟨_, _, hfalse⟩ := h.cases
  · exact hdone
  · exact hfalse.elim

/-! ### Programs that only read -/

/-- Where the program is done, the state is as it was. -/
def Quiet (p : Program σ α) : Prop := ∀ s a t, p s = .done a t → t = s

theorem quiet_pure (a : α) : Quiet (pure a : Program σ α) := by
  rintro s _ _ ⟨⟩
  rfl

theorem quiet_wrong : Quiet (wrong : Program σ α) := by
  rintro s _ _ ⟨⟩

theorem quiet_fail : Quiet (fail : Program σ α) := by
  rintro s _ _ ⟨⟩

theorem quiet_read : Quiet (read : Program σ σ) := by
  rintro s _ _ ⟨⟩
  rfl

theorem Quiet.bind {k : α → Program σ β} (hp : Quiet p) (hk : ∀ a, Quiet (k a)) : Quiet (p >>= k) := by
  intro s b t h
  obtain ⟨a, u, hps, hks⟩ := bind_eq_done.mp h
  rw [hk a u b t hks, hp s a u hps]

end Program

/-! ### Blocks of bytes -/

/-- Some bytes stored from a place on, if the block goes that far. -/
def poke (block : List UInt8) (i : Nat) (bytes : List UInt8) : Option (List UInt8) :=
  if i + bytes.length ≤ block.length then
    some (block.take i ++ bytes ++ block.drop (i + bytes.length))
  else none

/-- A store behind the part in use keeps that part. -/
theorem poke_append (front : List UInt8) {free bytes : List UInt8} (h : bytes.length ≤ free.length) :
    poke (front ++ free) front.length bytes = some (front ++ bytes ++ free.drop bytes.length) := by
  have hfits : front.length + bytes.length ≤ (front ++ free).length := by
    rw [List.length_append]
    omega
  rw [poke, if_pos hfits, List.take_left, ← List.drop_drop, List.drop_left]

/-- `strlen` of what starts at a place: the bytes up to a NUL, if there is one. -/
def strlenAt (block : List UInt8) (i : Nat) : Option Nat :=
  if 0 ∈ block.drop i then some ((block.drop i).takeWhile (· != 0)).length else none

theorem strlenAt_text {front text rest : List UInt8} (h : 0 ∉ text) :
    strlenAt (front ++ (text ++ 0 :: rest)) front.length = some text.length := by
  have htext : (text ++ 0 :: rest).takeWhile (· != 0) = text := by
    rw [List.takeWhile_append_of_pos fun b hb => by simpa using fun hz : b = 0 => h (hz ▸ hb)]
    simp
  rw [strlenAt, List.drop_left, if_pos (by simp), htext]

end EndpointSecurity.Library
