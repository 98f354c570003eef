import Mathlib.Data.List.Basic

/-!
# Machines

A machine takes inputs one by one; a step gives the next state and an output.
What one step keeps, a run keeps, and what one step adds to a log, a run adds.
Machines whose related states give the same outputs give the same outputs on all
runs, and inputs that leave the state as it is can be left out of a run.
-/

structure Machine (σ ι ω : Type*) where
  step : σ → ι → σ × ω

namespace Machine

variable {σ τ κ ι ω : Type*} (M : Machine σ ι ω)

def after : σ → List ι → σ
  | s, [] => s
  | s, i :: l => after (M.step s i).1 l

def outputs : σ → List ι → List ω
  | _, [] => []
  | s, i :: l => (M.step s i).2 :: outputs (M.step s i).1 l

theorem after_cons (s : σ) (i : ι) (l : List ι) :
    M.after s (i :: l) = M.after (M.step s i).1 l := rfl

theorem outputs_cons (s : σ) (i : ι) (l : List ι) :
    M.outputs s (i :: l) = (M.step s i).2 :: M.outputs (M.step s i).1 l := rfl

theorem after_append : ∀ (l l' : List ι) (s : σ), M.after s (l ++ l') = M.after (M.after s l) l'
  | [], _, _ => rfl
  | _ :: l, l', _ => after_append l l' _

theorem outputs_append :
    ∀ (l l' : List ι) (s : σ), M.outputs s (l ++ l') = M.outputs s l ++ M.outputs (M.after s l) l'
  | [], _, _ => rfl
  | i :: l, l', s => congrArg ((M.step s i).2 :: ·) (outputs_append l l' _)

/-- `ok` holds of every input of a run and what `next` makes of the inputs
before it. -/
def Admits (next : κ → ι → κ) (ok : κ → ι → Prop) : κ → List ι → Prop
  | _, [] => True
  | k, i :: l => ok k i ∧ Admits next ok (next k i) l

theorem admits_of_forall {next : κ → ι → κ} {ok : κ → ι → Prop} :
    ∀ {l : List ι} {k : κ}, (∀ i ∈ l, ∀ k, ok k i) → Admits next ok k l
  | [], _, _ => trivial
  | i :: _, k, h => ⟨h i List.mem_cons_self k, admits_of_forall fun j hj => h j (.tail _ hj)⟩

theorem Admits.and {next : κ → ι → κ} {ok ok' : κ → ι → Prop} :
    ∀ {l : List ι} {k : κ}, Admits next ok k l → Admits next ok' k l →
      Admits next (fun k i => ok k i ∧ ok' k i) k l
  | [], _, _, _ => trivial
  | _ :: _, _, h, h' => ⟨⟨h.1, h'.1⟩, h.2.and h'.2⟩

theorem inv_after {next : κ → ι → κ} {ok : κ → ι → Prop} {Inv : κ → σ → Prop}
    (hstep : ∀ k s i, Inv k s → ok k i → Inv (next k i) (M.step s i).1) :
    ∀ (l : List ι) (k : κ) (s : σ), Inv k s → Admits next ok k l →
      Inv (l.foldl next k) (M.after s l)
  | [], _, _, h, _ => h
  | i :: l, k, s, h, hok => inv_after hstep l _ _ (hstep k s i h hok.1) hok.2

/-- Related states give equal outputs and related states. -/
def Simulates (N : Machine τ ι ω) (R : σ → τ → Prop) : Prop :=
  ∀ s t i, R s t → (M.step s i).2 = (N.step t i).2 ∧ R (M.step s i).1 (N.step t i).1

/-- Inputs with the same effect and the same output. -/
theorem run_congr : ∀ {l l' : List ι}, List.Forall₂ (fun i j => ∀ s, M.step s i = M.step s j) l l' →
    ∀ s : σ, M.after s l = M.after s l' ∧ M.outputs s l = M.outputs s l'
  | _, _, .nil, _ => ⟨rfl, rfl⟩
  | _, _, .cons h hl, s => by
    rw [after_cons, after_cons, outputs_cons, outputs_cons, h s]
    obtain ⟨hafter, hout⟩ := run_congr hl _
    rw [hafter, hout]
    exact ⟨rfl, rfl⟩

/-- What a run adds to a log when an input adds `emit` of the state it meets. -/
def emitted (next : κ → ι → κ) (emit : κ → ι → List ω) : κ → List ι → List ω
  | _, [] => []
  | k, i :: l => emit k i ++ emitted next emit (next k i) l

theorem emitted_append (next : κ → ι → κ) (emit : κ → ι → List ω) :
    ∀ (l l' : List ι) (k : κ),
      emitted next emit k (l ++ l') = emitted next emit k l ++ emitted next emit (l.foldl next k) l'
  | [], _, _ => rfl
  | i :: l, l', k => by
    rw [List.cons_append, emitted, emitted_append next emit l l', emitted, List.append_assoc,
      List.foldl_cons]

theorem foldl_of_kept {next : κ → ι → κ} {k : κ} :
    ∀ {l : List ι}, (∀ i ∈ l, next k i = k) → l.foldl next k = k
  | [], _ => rfl
  | i :: l, h => by
    rw [List.foldl_cons, h i List.mem_cons_self]
    exact foldl_of_kept fun j hj => h j (.tail _ hj)

theorem emitted_of_kept {next : κ → ι → κ} {emit : κ → ι → List ω} {k : κ} :
    ∀ {l : List ι}, (∀ i ∈ l, next k i = k) → emitted next emit k l = l.flatMap (emit k)
  | [], _ => rfl
  | i :: l, h => by
    rw [emitted, h i List.mem_cons_self, emitted_of_kept fun j hj => h j (.tail _ hj),
      List.flatMap_cons]

theorem emitted_eq_of_related {next : κ → ι → κ} {next' : τ → ι → τ} {emit : κ → ι → List ω}
    {emit' : τ → ι → List ω} {R : κ → τ → Prop}
    (h : ∀ k t i, R k t → emit k i = emit' t i ∧ R (next k i) (next' t i)) :
    ∀ (l : List ι) {k : κ} {t : τ}, R k t → emitted next emit k l = emitted next' emit' t l
  | [], _, _, _ => rfl
  | i :: l, k, t, hR => by
    obtain ⟨hemit, hR'⟩ := h k t i hR
    rw [emitted, emitted, hemit, emitted_eq_of_related h l hR']

theorem after_of_emits {α : Type*} {view : σ → κ} {log : σ → List α} {next : κ → ι → κ}
    {emit : κ → ι → List α} {ok : ι → Prop}
    (hstep : ∀ s i, ok i → view (M.step s i).1 = next (view s) i ∧
      log (M.step s i).1 = log s ++ emit (view s) i) :
    ∀ {l : List ι} {s : σ}, (∀ i ∈ l, ok i) →
      view (M.after s l) = l.foldl next (view s) ∧
        log (M.after s l) = log s ++ emitted next emit (view s) l
  | [], s, _ => ⟨rfl, (List.append_nil _).symm⟩
  | i :: l, s, h => by
    obtain ⟨hview, hlog⟩ := hstep s i (h i List.mem_cons_self)
    obtain ⟨ihview, ihlog⟩ := after_of_emits hstep (l := l) (s := (M.step s i).1)
      fun j hj => h j (.tail _ hj)
    rw [after_cons, ihview, ihlog, hview, hlog, emitted, List.append_assoc]
    exact ⟨rfl, rfl⟩

variable {M}

theorem Simulates.after {N : Machine τ ι ω} {R : σ → τ → Prop} (h : M.Simulates N R) :
    ∀ (l : List ι) {s : σ} {t : τ}, R s t → R (M.after s l) (N.after t l)
  | [], _, _, hR => hR
  | i :: l, _, _, hR => h.after l (h _ _ i hR).2

theorem Simulates.outputs {N : Machine τ ι ω} {R : σ → τ → Prop} (h : M.Simulates N R) :
    ∀ (l : List ι) {s : σ} {t : τ}, R s t → M.outputs s l = N.outputs t l
  | [], _, _, _ => rfl
  | i :: l, s, t, hR => by
    obtain ⟨hout, hR'⟩ := h s t i hR
    rw [outputs_cons, outputs_cons, hout, h.outputs l hR']

/-- The outputs of the inputs that `idle` does not hold of. -/
def kept (idle : ι → Bool) : List ι → List ω → List ω
  | i :: l, o :: out => if idle i then kept idle l out else o :: kept idle l out
  | _, _ => []

theorem outputs_filter {idle : ι → Bool} (h : ∀ s i, idle i = true → (M.step s i).1 = s) :
    ∀ (l : List ι) (s : σ),
      M.outputs s (l.filter fun i => !idle i) = kept idle l (M.outputs s l)
  | [], _ => rfl
  | i :: l, s => by
    rw [outputs_cons, kept]
    cases hi : idle i with
    | true =>
      rw [List.filter_cons_of_neg (by simp [hi]), if_pos rfl, h s i hi]
      exact outputs_filter h l s
    | false =>
      rw [List.filter_cons_of_pos (by simp [hi]), if_neg (by simp), ← outputs_filter h l]
      rfl

end Machine
