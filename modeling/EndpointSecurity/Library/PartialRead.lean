import Mathlib.Data.List.Forall2

/-! Reading a list with a function that may be undefined.

`List.mapM` in `Option` reads every element or gives nothing: it is defined
exactly where every element's read is, and then relates the elements to what was
read of them one by one. -/
namespace EndpointSecurity.Library
variable {α β : Type} {f g : α → Option β}

theorem mapM_eq_some_iff {l : List α} {r : List β} :
    l.mapM f = some r ↔ List.Forall₂ (fun a b => f a = some b) l r := by
  induction l generalizing r with
  | nil => simp [eq_comm]
  | cons a l ih =>
    rw [List.mapM_cons, List.forall₂_cons_left_iff]
    simp only [Option.bind_eq_bind, Option.bind_eq_some_iff, Option.pure_def, Option.some.injEq, ih]
    refine ⟨fun ⟨b, hb, bs, hbs, h⟩ => ⟨b, bs, hb, hbs, h.symm⟩,
      fun ⟨b, bs, hb, hbs, h⟩ => ⟨b, hb, bs, hbs, h.symm⟩⟩

theorem mapM_isSome_iff {l : List α} : (l.mapM f).isSome = true ↔ ∀ a ∈ l, (f a).isSome = true := by
  induction l with
  | nil => simp
  | cons a l ih =>
    rw [List.mapM_cons, List.forall_mem_cons, ← ih]
    cases f a with
    | none => simp
    | some b => cases l.mapM f <;> simp

/-- What is read at each place has what the place gives it. -/
theorem mapM_places {l : List α} {P : Nat → β → Prop}
    (h : ∀ k (hk : k < l.length), ∃ b, f l[k] = some b ∧ P k b) :
    ∃ r, l.mapM f = some r ∧ r.length = l.length ∧ ∀ k < l.length, ∃ b, r[k]? = some b ∧ P k b := by
  induction l generalizing P with
  | nil => exact ⟨[], rfl, rfl, fun k hk => absurd hk (Nat.not_lt_zero k)⟩
  | cons a l ih =>
    obtain ⟨b, hb, hP⟩ := h 0 (Nat.zero_lt_succ _)
    obtain ⟨r, hr, hlength, hplaces⟩ := ih fun k hk => h (k + 1) (Nat.succ_lt_succ hk)
    have hb : f a = some b := hb
    refine ⟨b :: r, by rw [List.mapM_cons, hb, hr]; rfl, congrArg (· + 1) hlength, fun k hk => ?_⟩
    cases k with
    | zero => exact ⟨b, rfl, hP⟩
    | succ k => exact hplaces k (Nat.lt_of_succ_lt_succ hk)

theorem mapM_congr {l : List α} (h : ∀ a ∈ l, f a = g a) : l.mapM f = l.mapM g := by
  induction l with
  | nil => rfl
  | cons a l ih =>
    rw [List.mapM_cons, List.mapM_cons, h a (List.mem_cons_self ..),
      ih fun b hb => h b (List.mem_cons_of_mem _ hb)]

/-- Two functions that read a list alike read every element alike. -/
theorem mapM_eq_mapM {l : List α} {r : List β} (hf : l.mapM f = some r) (hg : l.mapM g = some r) :
    ∀ a ∈ l, f a = g a := by
  rw [mapM_eq_some_iff] at hf hg
  induction hf with
  | nil => intro a ha; cases ha
  | cons hfa _ ih =>
    cases hg with
    | cons hga hgrest =>
      intro a ha
      rcases List.mem_cons.mp ha with rfl | ha
      · rw [hfa, hga]
      · exact ih hgrest a ha

theorem forM_eq_some {l : List α} {f : α → Option Unit} (h : ∀ a ∈ l, f a = some ()) :
    l.forM f = some () := by
  induction l with
  | nil => rfl
  | cons a l ih =>
    obtain ⟨ha, hl⟩ := List.forall_mem_cons.mp h
    show (f a).bind (fun _ => l.forM f) = some ()
    rw [ha, Option.bind_some, ih hl]

end EndpointSecurity.Library
