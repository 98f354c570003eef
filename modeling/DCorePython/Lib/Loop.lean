import Mathlib.Data.List.DropRight

/-!
# Loops that count down

`whileDown body n` runs `body (n - 1)`, ..., `body 0`. When the body at index
`n` only looks at the element a list has there, the loop is a walk over the
list from its back (`eachBack`), and a walk splits where the list splits, so
what a loop has done when it throws is what it did to the elements behind the
one that threw.
-/

namespace Loop

section
variable {m : Type → Type} [Monad m] {α : Type}

/-- `while(n--) body(n)`. -/
def whileDown (body : Nat → m Unit) : Nat → m Unit
  | 0 => pure ()
  | n + 1 => do
    body n
    whileDown body n

/-- Run `f` on the elements of a list and their indices, the last one first;
the first element has index `i`. -/
def eachBack (f : Nat → α → m Unit) (i : Nat) : List α → m Unit
  | [] => pure ()
  | a :: l => do
    eachBack f (i + 1) l
    f i a

variable [LawfulMonad m]

theorem whileDown_add (f : Nat → α → m Unit) (body : Nat → m Unit) :
    ∀ (l : List α) (i : Nat), (∀ j (hj : j < l.length), body (i + j) = f (i + j) l[j]) →
      whileDown body (i + l.length) = (do eachBack f i l; whileDown body i)
  | [], i, _ => by simp [eachBack]
  | a :: l, i, h => by
    have h0 : body i = f i a := h 0 (by simp)
    have hl : ∀ j (hj : j < l.length), body (i + 1 + j) = f (i + 1 + j) l[j] := by
      intro j hj
      have := h (j + 1) (by simpa using hj)
      simpa [Nat.add_assoc, Nat.add_comm 1 j] using this
    have ih := whileDown_add f body l (i + 1) hl
    rw [List.length_cons, Nat.add_comm l.length 1, ← Nat.add_assoc, ih]
    simp [eachBack, whileDown, h0]

theorem whileDown_eq_eachBack (f : Nat → α → m Unit) (body : Nat → m Unit) (l : List α)
    (h : ∀ j (hj : j < l.length), body j = f j l[j]) :
    whileDown body l.length = eachBack f 0 l := by
  have := whileDown_add f body l 0 (by simpa using h)
  simpa [whileDown] using this

theorem eachBack_append (f : Nat → α → m Unit) :
    ∀ (l₁ l₂ : List α) (i : Nat),
      eachBack f i (l₁ ++ l₂) = (do eachBack f (i + l₁.length) l₂; eachBack f i l₁)
  | [], l₂, i => by simp [eachBack]
  | a :: l₁, l₂, i => by
    have ih := eachBack_append f l₁ l₂ (i + 1)
    rw [List.cons_append, eachBack, ih]
    simp [eachBack, Nat.add_assoc, Nat.add_comm 1]

end

/-! ## Runs that keep their state when they throw -/

section
variable {ε σ α β : Type}

theorem run_bind_ok {x : EStateM ε σ α} {f : α → EStateM ε σ β} {s s' : σ} {a : α}
    (h : x.run s = .ok a s') : (x >>= f).run s = (f a).run s' := by
  simp [h]

theorem run_bind_error {x : EStateM ε σ α} {f : α → EStateM ε σ β} {s s' : σ} {e : ε}
    (h : x.run s = .error e s') : (x >>= f).run s = .error e s' := by
  simp [h]

/-- A `mapM` that succeeds ran its function on every element. -/
theorem mapM_run_ok {f : α → EStateM ε σ β} :
    ∀ {l : List α} {r : List β} {s s' : σ}, (l.mapM f).run s = .ok r s' →
      List.Forall₂ (fun a b => ∃ s₁ s₂, (f a).run s₁ = .ok b s₂) l r
  | [], r, s, s', h => by
    rw [List.mapM_nil] at h
    cases h
    exact .nil
  | a :: l, r, s, s', h => by
    rw [List.mapM_cons] at h
    cases ha : (f a).run s with
    | error e s₁ =>
      rw [run_bind_error ha] at h
      cases h
    | ok b s₁ =>
      rw [run_bind_ok ha] at h
      cases hl : (l.mapM f).run s₁ with
      | error e s₂ =>
        rw [run_bind_error hl] at h
        cases h
      | ok r' s₂ =>
        rw [run_bind_ok hl] at h
        cases h
        exact .cons ⟨s, s₁, ha⟩ (mapM_run_ok hl)

theorem getElem?_of_forall₂ {R : α → β → Prop} {l : List α} {r : List β}
    (h : List.Forall₂ R l r) : ∀ {j : Nat} {a : α}, l[j]? = some a → ∃ b, r[j]? = some b ∧ R a b := by
  induction h with
  | nil =>
    intro j a ha
    cases ha
  | @cons a b l r hab _ ih =>
    intro j a' ha
    cases j with
    | zero =>
      cases ha
      exact ⟨b, rfl, hab⟩
    | succ j => exact ih ha

/-- A loop runs to its end or stops at the first element whose step throws. -/
theorem exists_forM_run (f : α → EStateM ε σ Unit) :
    ∀ (l : List α) (s : σ), ∃ done rest s₁, l = done ++ rest ∧ (done.forM f).run s = .ok () s₁ ∧
      (rest = [] ∧ (l.forM f).run s = .ok () s₁ ∨
        ∃ a rest' e s₂, rest = a :: rest' ∧ (f a).run s₁ = .error e s₂ ∧
          (l.forM f).run s = .error e s₂)
  | [], s => ⟨[], [], s, rfl, rfl, .inl ⟨rfl, rfl⟩⟩
  | a :: l, s => by
    have hcons : (a :: l).forM f = (do f a; l.forM f) := rfl
    cases ha : (f a).run s with
    | error e s₂ =>
      refine ⟨[], a :: l, s, rfl, rfl, .inr ⟨a, l, e, s₂, rfl, ha, ?_⟩⟩
      rw [hcons, run_bind_error ha]
    | ok u s' =>
      obtain ⟨done, rest, s₁, hl, hdone, hrest⟩ := exists_forM_run f l s'
      refine ⟨a :: done, rest, s₁, by rw [hl, List.cons_append], ?_, ?_⟩
      · have hdone' : (a :: done).forM f = (do f a; done.forM f) := rfl
        rw [hdone', run_bind_ok ha, hdone]
      · rw [hcons, run_bind_ok ha]
        exact hrest

/-- A walk that throws at `a` leaves the state that the step of `a` left, after
the elements behind `a` were done. -/
theorem eachBack_run_error (f : Nat → α → EStateM ε σ Unit) {l₁ l₂ : List α} {a : α} {i : Nat}
    {s s₁ s₂ : σ} {e : ε}
    (h₁ : (eachBack f (i + l₁.length + 1) l₂).run s = .ok () s₁)
    (h₂ : (f (i + l₁.length) a).run s₁ = .error e s₂) :
    (eachBack f i (l₁ ++ a :: l₂)).run s = .error e s₂ := by
  rw [eachBack_append]
  apply run_bind_error
  unfold eachBack
  rw [run_bind_ok h₁, h₂]

end

/-! ## The last element that fails -/

section
variable {α : Type} (p : α → Bool)

/-- The last element of a list that fails `p`. What stands behind it is
`List.rtakeWhile p`. -/
def lastFailing (l : List α) : Option α := (l.rdropWhile p).getLast?

theorem exists_lastFailing {l : List α} (h : ∃ a ∈ l, p a = false) :
    ∃ l₁ a, lastFailing p l = some a ∧ p a = false ∧ l = l₁ ++ a :: l.rtakeWhile p := by
  have hne : l.rdropWhile p ≠ [] := by
    intro hnil
    obtain ⟨a, ha, hpa⟩ := h
    rw [List.rdropWhile_eq_nil_iff.mp hnil a ha] at hpa
    cases hpa
  refine ⟨(l.rdropWhile p).dropLast, _, List.getLast?_eq_some_getLast hne, ?_, ?_⟩
  · simpa using List.rdropWhile_last_not p l hne
  · rw [← List.singleton_append, ← List.append_assoc, List.dropLast_append_getLast hne]
    exact List.rdropWhile_append_rtakeWhile.symm

end

end Loop
