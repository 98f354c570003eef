import DCorePython.Lib.Member
import Mathlib.Data.List.Basic

/-!
# Heaps of typed objects

A heap is a list of cells, each with a value of a type that the family `El`
gives. A reference points to a member of a cell. New cells are added behind the
others, so what a reference reads is not touched by allocation, and writing
behind a heap leaves the heap as it was.
-/

abbrev Heap {Ty : Type} (El : Ty → Type) := List (Sigma El)

structure Ref {Ty : Type} (El : Ty → Type) (t : Ty) where
  root : Ty
  addr : Nat
  member : Member (El root) (El t)

section
variable {Ty : Type} {El : Ty → Type} {s t : Ty}

namespace Ref

def through (r : Ref El s) (m : Member (El s) (El t)) : Ref El t :=
  ⟨r.root, r.addr, r.member.comp m⟩

/-- The reference to the cell that is allocated next. -/
def next (h : Heap El) (t : Ty) : Ref El t := ⟨t, h.length, Member.self⟩

end Ref

namespace Heap

variable [DecidableEq Ty]

def cell? (h : Heap El) (t : Ty) (a : Nat) : Option (El t) :=
  match h[a]? with
  | some c => if e : c.1 = t then some (e ▸ c.2) else none
  | none => none

def load (h : Heap El) (r : Ref El t) : Option (El t) := (h.cell? r.root r.addr).map r.member.get

def store (h : Heap El) (r : Ref El t) (x : El t) : Heap El :=
  match h.cell? r.root r.addr with
  | some c => h.set r.addr ⟨r.root, r.member.set c x⟩
  | none => h

def alloc (h : Heap El) (x : El t) : Heap El := h ++ [⟨t, x⟩]

theorem cell?_eq_some_iff {h : Heap El} {a : Nat} {x : El t} :
    h.cell? t a = some x ↔ h[a]? = some ⟨t, x⟩ := by
  unfold cell?
  cases ha : h[a]? with
  | none => simp
  | some c =>
    obtain ⟨t', y⟩ := c
    by_cases e : t' = t
    · subst e
      simp
    · simp [e]

theorem load_eq_some_iff {h : Heap El} {r : Ref El t} {x : El t} :
    h.load r = some x ↔ ∃ c, h[r.addr]? = some ⟨r.root, c⟩ ∧ r.member.get c = x := by
  unfold load
  rw [Option.map_eq_some_iff]
  simp only [cell?_eq_some_iff]

theorem load_through (h : Heap El) (r : Ref El s) (m : Member (El s) (El t)) :
    h.load (r.through m) = (h.load r).map m.get := by
  unfold load
  rw [Option.map_map]
  rfl

theorem load_append {h : Heap El} {r : Ref El t} {x : El t} (hx : h.load r = some x)
    (cells : Heap El) : (h ++ cells).load r = some x := by
  rw [load_eq_some_iff] at hx ⊢
  obtain ⟨c, hc, hget⟩ := hx
  have hlt : r.addr < h.length := (List.getElem?_eq_some_iff.mp hc).1
  exact ⟨c, by rw [List.getElem?_append_left hlt, hc], hget⟩

theorem load_next (h : Heap El) (x : El t) : (h.alloc x).load (Ref.next h t) = some x := by
  rw [load_eq_some_iff]
  exact ⟨x, by simp [alloc, Ref.next], rfl⟩

theorem store_through {h : Heap El} {r : Ref El s} {c : El s} (hc : h.load r = some c)
    (m : Member (El s) (El t)) (x : El t) : h.store (r.through m) x = h.store r (m.set c x) := by
  obtain ⟨y, hy, hget⟩ := load_eq_some_iff.mp hc
  have hcell := cell?_eq_some_iff.mpr hy
  unfold store Ref.through
  simp only [hcell, Member.comp, hget]

theorem load_store {h : Heap El} {r : Ref El t} {c : El t} (hc : h.load r = some c) (x : El t) :
    (h.store r x).load r = some x := by
  obtain ⟨y, hy, -⟩ := load_eq_some_iff.mp hc
  have hlt : r.addr < h.length := (List.getElem?_eq_some_iff.mp hy).1
  rw [load_eq_some_iff]
  refine ⟨r.member.set y x, ?_, Member.get_set ..⟩
  unfold store
  rw [cell?_eq_some_iff.mpr hy]
  simp [hlt]

/-- A write behind `h` leaves the cells of `h`. -/
theorem store_append {h : Heap El} {r : Ref El t} (hr : h.length ≤ r.addr) (cells : Heap El)
    (x : El t) : ∃ cells', (h ++ cells).store r x = h ++ cells' := by
  unfold store
  cases cell? (h ++ cells) r.root r.addr with
  | none => exact ⟨cells, rfl⟩
  | some c => exact ⟨_, List.set_append_right _ _ hr⟩

end Heap

end
