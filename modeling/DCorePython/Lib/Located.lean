import DCorePython.Lib.Heap

/-!
# Heaps inside heaps

The cells of a heap `A` stand at places of a heap `H`: each cell of `A` at a
member of a cell of `H`, no two of them in one cell. `H` can have other cells,
and adding to them or writing to them does not concern `A`.
-/

section
variable {Ty : Type} {El : Ty → Type} {s t : Ty}

/-- The places of the cells of a heap, in order. -/
abbrev Places (El : Ty → Type) := List (Sigma (Ref El))

/-- `r'` is the place of what `r` refers to. -/
def Places.Stands (P : Places El) (r r' : Ref El t) : Prop :=
  ∃ q, P[r.addr]? = some ⟨r.root, q⟩ ∧ r' = q.through r.member

namespace Heap

variable [DecidableEq Ty]

theorem length_store (h : Heap El) (r : Ref El t) (x : El t) : (h.store r x).length = h.length := by
  unfold store
  cases h.cell? r.root r.addr <;> simp

theorem addr_lt_of_load {h : Heap El} {r : Ref El t} {x : El t} (hx : h.load r = some x) :
    r.addr < h.length := by
  obtain ⟨c, hc, -⟩ := load_eq_some_iff.mp hx
  exact (List.getElem?_eq_some_iff.mp hc).1

theorem getElem?_store_of_ne {h : Heap El} {r : Ref El t} {a : Nat} (hne : r.addr ≠ a) (x : El t) :
    (h.store r x)[a]? = h[a]? := by
  unfold store
  cases h.cell? r.root r.addr with
  | none => rfl
  | some c => exact List.getElem?_set_ne hne

theorem load_store_of_ne {h : Heap El} {r : Ref El s} {q : Ref El t} (hne : r.addr ≠ q.addr)
    (x : El s) : (h.store r x).load q = h.load q := by
  unfold load cell?
  rw [getElem?_store_of_ne hne]

theorem getElem?_store {h : Heap El} {r : Ref El t} {c : El r.root}
    (hc : h[r.addr]? = some ⟨r.root, c⟩) (x : El t) :
    (h.store r x)[r.addr]? = some ⟨r.root, r.member.set c x⟩ := by
  have hlt : r.addr < h.length := (List.getElem?_eq_some_iff.mp hc).1
  unfold store
  rw [cell?_eq_some_iff.mpr hc]
  simp [hlt]

theorem exists_load_store {h : Heap El} {q : Ref El t} {y : El t} (hq : h.load q = some y)
    (r : Ref El s) (x : El s) : ∃ z, (h.store r x).load q = some z := by
  obtain ⟨c, hc, -⟩ := load_eq_some_iff.mp hq
  by_cases hne : r.addr = q.addr
  · unfold store
    cases hr : h.cell? r.root r.addr with
    | none => exact ⟨y, hq⟩
    | some d =>
      rw [cell?_eq_some_iff, hne, hc] at hr
      obtain ⟨hroot, hd⟩ := Sigma.mk.inj (Option.some.inj hr)
      have hlt : q.addr < h.length := (List.getElem?_eq_some_iff.mp hc).1
      obtain ⟨root, addr, m⟩ := q
      obtain ⟨root', addr', m'⟩ := r
      cases hroot
      cases hne
      refine ⟨m.get (m'.set d x), load_eq_some_iff.mpr ⟨_, ?_, rfl⟩⟩
      simp only [List.getElem?_set_self hlt]
  · exact ⟨y, by rw [load_store_of_ne hne, hq]⟩

theorem store_append_left {h : Heap El} {r : Ref El t} {x : El t} (hx : h.load r = some x)
    (cells : Heap El) (y : El t) : (h ++ cells).store r y = h.store r y ++ cells := by
  obtain ⟨c, hc, -⟩ := load_eq_some_iff.mp hx
  have hlt : r.addr < h.length := (List.getElem?_eq_some_iff.mp hc).1
  have hc' : (h ++ cells)[r.addr]? = some ⟨r.root, c⟩ := by
    rw [List.getElem?_append_left hlt, hc]
  unfold store
  rw [cell?_eq_some_iff.mpr hc, cell?_eq_some_iff.mpr hc']
  exact List.set_append_left _ _ hlt

theorem store_next (h : Heap El) (c x : El t) :
    (h.alloc c).store (Ref.next h t) x = h.alloc x := by
  have hc : (h.alloc c)[h.length]? = some ⟨t, c⟩ := by simp [alloc]
  unfold store Ref.next
  simp only [cell?_eq_some_iff.mpr hc]
  simp [alloc, Member.self]

structure Located (P : Places El) (A H : Heap El) : Prop where
  length_eq : P.length = A.length
  value : ∀ {a : Nat} {t : Ty} {x : El t}, A[a]? = some ⟨t, x⟩ →
    ∃ q, P[a]? = some ⟨t, q⟩ ∧ H.load q = some x
  apart : P.Pairwise fun p q => p.2.addr ≠ q.2.addr

namespace Located

variable {P : Places El} {A H : Heap El} {r r' : Ref El t} {x c : El t}

theorem load (h : Located P A H) (hr : P.Stands r r') (hx : A.load r = some x) :
    H.load r' = some x := by
  obtain ⟨q, hq, rfl⟩ := hr
  obtain ⟨c, hc, rfl⟩ := load_eq_some_iff.mp hx
  obtain ⟨q', hq', hload⟩ := h.value hc
  rw [hq] at hq'
  cases hq'
  rw [load_through, hload]
  rfl

theorem addr_lt (h : Located P A H) {p : Sigma (Ref El)} (hp : p ∈ P) : p.2.addr < H.length := by
  obtain ⟨a, ha⟩ := List.mem_iff_getElem?.mp hp
  have hlt : a < A.length := by
    rw [← h.length_eq]
    exact (List.getElem?_eq_some_iff.mp ha).1
  have hcell : A[a]? = some ⟨A[a].1, A[a].2⟩ := List.getElem?_eq_getElem hlt
  obtain ⟨q, hq, hload⟩ := h.value hcell
  rw [ha] at hq
  cases hq
  exact addr_lt_of_load hload

theorem append (h : Located P A H) (cells : Heap El) : Located P A (H ++ cells) where
  length_eq := h.length_eq
  value hx := by
    obtain ⟨q, hq, hload⟩ := h.value hx
    exact ⟨q, hq, load_append hload cells⟩
  apart := h.apart

theorem store_of_ne (h : Located P A H) {q : Ref El t} (hq : ∀ p ∈ P, p.2.addr ≠ q.addr)
    (y : El t) : Located P A (H.store q y) where
  length_eq := h.length_eq
  value hx := by
    obtain ⟨q', hq', hload⟩ := h.value hx
    have hne := hq _ (List.mem_of_getElem? hq')
    exact ⟨q', hq', by rw [load_store_of_ne hne.symm, hload]⟩
  apart := h.apart

/-- A cell behind the places becomes the place of a new cell. -/
theorem alloc (h : Located P A H) {q : Ref El t} (hq : H.load q = some x)
    (hnew : ∀ p ∈ P, p.2.addr ≠ q.addr) : Located (P ++ [⟨t, q⟩]) (A.alloc x) H where
  length_eq := by simp [Heap.alloc, h.length_eq]
  value := by
    intro a s y hy
    unfold Heap.alloc at hy
    rcases Nat.lt_or_ge a A.length with hlt | hge
    · rw [List.getElem?_append_left hlt] at hy
      obtain ⟨q', hq', hload⟩ := h.value hy
      exact ⟨q', by rw [List.getElem?_append_left (by rw [h.length_eq]; exact hlt), hq'], hload⟩
    · rw [List.getElem?_append_right hge] at hy
      have ha : a - A.length = 0 := by
        by_contra hne
        rw [List.getElem?_eq_none (by simp; omega)] at hy
        cases hy
      rw [ha] at hy
      cases hy
      refine ⟨q, ?_, hq⟩
      rw [List.getElem?_append_right (by rw [h.length_eq]; exact hge), h.length_eq, ha]
      rfl
  apart := by
    rw [List.pairwise_append]
    refine ⟨h.apart, List.pairwise_singleton .., ?_⟩
    intro p hp p' hp'
    rw [List.mem_singleton.mp hp']
    exact hnew p hp

theorem ne_of_places (h : Located P A H) {a b : Nat} {p q : Sigma (Ref El)} (hp : P[a]? = some p)
    (hq : P[b]? = some q) (hne : a ≠ b) : p.2.addr ≠ q.2.addr := by
  have hpw := List.pairwise_iff_getElem.mp h.apart
  obtain ⟨ha, rfl⟩ := List.getElem?_eq_some_iff.mp hp
  obtain ⟨hb, rfl⟩ := List.getElem?_eq_some_iff.mp hq
  rcases Nat.lt_or_gt_of_ne hne with hlt | hlt
  · exact hpw a b ha hb hlt
  · exact (hpw b a hb ha hlt).symm

/-- Writing to a cell of `A` and to its place. -/
theorem store (h : Located P A H) (hr : P.Stands r r') (hc : A.load r = some c) (x : El t) :
    Located P (A.store r x) (H.store r' x) where
  length_eq := by rw [length_store, h.length_eq]
  value := by
    intro a s y hy
    obtain ⟨q, hq, rfl⟩ := hr
    obtain ⟨d, hd, -⟩ := load_eq_some_iff.mp hc
    by_cases ha : r.addr = a
    · subst ha
      rw [getElem?_store hd] at hy
      cases hy
      obtain ⟨q', hq', hload⟩ := h.value hd
      rw [hq] at hq'
      cases hq'
      refine ⟨q, hq, ?_⟩
      rw [store_through hload, load_store hload]
    · rw [getElem?_store_of_ne ha] at hy
      obtain ⟨q', hq', hload⟩ := h.value hy
      have hne : (q.through r.member).addr ≠ q'.addr := h.ne_of_places hq hq' ha
      exact ⟨q', hq', by rw [load_store_of_ne hne, hload]⟩
  apart := h.apart

end Located

end Heap

end
