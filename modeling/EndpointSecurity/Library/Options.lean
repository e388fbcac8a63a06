import Mathlib.Data.List.Basic

/-! Files of `option=value` lines.

`lines` cuts bytes into lines, each with the line break that ends it. A list of
assignments is read from left to right; `lastAssigned` is the value the last one
gives to an option. `foldl_lastAssigned` is the rule a reader of such a file is
proved with: where every assignment overwrites what is observed of its own option
and leaves the others alone, only the last assignment of each option is seen. -/
namespace EndpointSecurity.Library

/-- The byte that ends a line. -/
def newline : UInt8 := 10

/-- The lines of some bytes, as `getline` returns them one by one: each with its
line break, the last one without if the bytes do not end in one. -/
def lines : List UInt8 → List (List UInt8)
  | [] => []
  | b :: rest =>
    if b = newline then [b] :: lines rest
    else match lines rest with
      | [] => [[b]]
      | l :: ls => (b :: l) :: ls

/-- Nothing is lost between lines. -/
theorem lines_flatten (a : List UInt8) : (lines a).flatten = a := by
  induction a with
  | nil => rfl
  | cons b a ih =>
    simp only [lines]
    split
    · rw [List.flatten_cons, ih]
      rfl
    · split
      · rename_i h
        rw [h] at ih
        rw [← ih]
        rfl
      · rename_i l ls h
        rw [h] at ih
        rw [← ih]
        rfl

theorem lines_append_newline {l : List UInt8} (h : newline ∉ l) (rest : List UInt8) :
    lines (l ++ newline :: rest) = (l ++ [newline]) :: lines rest := by
  induction l with
  | nil => simp [lines]
  | cons b l ih =>
    have hb : b ≠ newline := fun hb => h (hb ▸ List.mem_cons_self ..)
    have hl : newline ∉ l := fun hl => h (List.mem_cons_of_mem _ hl)
    simp only [List.cons_append, lines, if_neg hb, ih hl]

theorem lines_ne_nil (a : List UInt8) : lines (a ++ [newline]) ≠ [] := by
  cases a with
  | nil => simp [lines]
  | cons c a =>
    simp only [List.cons_append, lines]
    split
    · simp
    · split <;> simp

/-- Text before the first line break of what follows belongs to its first line. -/
theorem lines_prefix {a b : List UInt8} (ha : newline ∉ a) {l : List UInt8} {ls : List (List UInt8)}
    (hb : lines b = l :: ls) : lines (a ++ b) = (a ++ l) :: ls := by
  induction a with
  | nil => exact hb
  | cons x a ih =>
    have hx : x ≠ newline := fun hx => ha (hx ▸ List.mem_cons_self ..)
    have hrest := ih fun h => ha (List.mem_cons_of_mem _ h)
    simp only [List.cons_append, lines, if_neg hx, hrest]

/-- Lines that are all ended can be read separately from what follows them. -/
theorem lines_append (a : List UInt8) (rest : List UInt8) :
    lines (a ++ newline :: rest) = lines (a ++ [newline]) ++ lines rest := by
  induction a with
  | nil => simp [lines]
  | cons b a ih =>
    obtain ⟨l, ls, hls⟩ := List.exists_cons_of_ne_nil (lines_ne_nil a)
    simp only [List.cons_append, lines, ih, hls]
    split <;> rfl

section Assignments
variable {κ ν σ β : Type} [DecidableEq κ]

/-- The value the last assignment to `k` gives it. -/
def lastAssigned (k : κ) : List (κ × ν) → Option ν
  | [] => none
  | (k', v) :: rest => (lastAssigned k rest).or (if k' = k then some v else none)

@[simp] theorem lastAssigned_nil (k : κ) : lastAssigned k ([] : List (κ × ν)) = none := rfl

theorem lastAssigned_cons (k : κ) (a : κ × ν) (rest : List (κ × ν)) :
    lastAssigned k (a :: rest) = (lastAssigned k rest).or (if a.1 = k then some a.2 else none) := rfl

theorem lastAssigned_append (k : κ) (as bs : List (κ × ν)) :
    lastAssigned k (as ++ bs) = (lastAssigned k bs).or (lastAssigned k as) := by
  induction as with
  | nil => simp
  | cons a as ih => rw [List.cons_append, lastAssigned_cons, lastAssigned_cons, ih, Option.or_assoc]

theorem lastAssigned_mem {k : κ} {as : List (κ × ν)} {v : ν} (h : lastAssigned k as = some v) :
    (k, v) ∈ as := by
  induction as with
  | nil => simp at h
  | cons a as ih =>
    rw [lastAssigned_cons] at h
    cases hr : lastAssigned k as with
    | some w =>
      rw [hr, Option.some_or] at h
      exact List.mem_cons_of_mem _ (ih (hr.trans h))
    | none =>
      rw [hr, Option.none_or] at h
      split at h
      · rename_i hk
        obtain rfl := Option.some.inj h
        exact hk ▸ List.mem_cons_self ..
      · cases h

theorem lastAssigned_isSome {k : κ} {as : List (κ × ν)} (h : k ∈ as.map Prod.fst) :
    ∃ v, lastAssigned k as = some v := by
  induction as with
  | nil => cases h
  | cons a as ih =>
    rw [lastAssigned_cons]
    rcases List.mem_cons.mp h with rfl | h
    · cases lastAssigned a.1 as with
      | some w => exact ⟨w, rfl⟩
      | none => exact ⟨a.2, by simp⟩
    · obtain ⟨v, hv⟩ := ih h
      exact ⟨v, by rw [hv, Option.some_or]⟩

/-- **The last assignment wins.** `f` is what is observed of the option `k`: an
assignment to `k` makes it `g` of the assigned value, any other leaves it. -/
theorem foldl_lastAssigned {Inv : σ → Prop} {set : σ → κ × ν → σ} {f : σ → β} {g : ν → β} {k : κ}
    (hinv : ∀ s a, Inv s → Inv (set s a))
    (hset : ∀ s a, Inv s → f (set s a) = if a.1 = k then g a.2 else f s)
    (as : List (κ × ν)) {s : σ} (hs : Inv s) :
    f (as.foldl set s) = ((lastAssigned k as).map g).getD (f s) := by
  induction as generalizing s with
  | nil => rfl
  | cons a as ih =>
    rw [List.foldl_cons, ih (hinv s a hs), hset s a hs, lastAssigned_cons]
    cases lastAssigned k as with
    | some v => rfl
    | none => split <;> rfl

end Assignments

end EndpointSecurity.Library
