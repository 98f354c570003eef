import Mathlib.Data.List.Basic

/-!
# Dotted decimal numbers

`dotted` writes numbers in decimal with a dot between each two, and `numbers?`
reads them back. Digits hold no dot, so the text splits where it was joined.
-/

namespace Dotted

def dotted (ns : List Nat) : List Char := ['.'].intercalate (ns.map (Nat.toDigits 10))

def number? (cs : List Char) : Option Nat :=
  if cs ≠ [] ∧ cs.all Char.isDigit then some (Nat.ofDigitChars 10 cs 0) else none

def numbers? (cs : List Char) : Option (List Nat) := (cs.splitOn '.').mapM number?

theorem isDigit_of_mem {n : Nat} {c : Char} (h : c ∈ Nat.toDigits 10 n) : c.isDigit :=
  Nat.isDigit_of_mem_toDigits (by decide) (by decide) h

theorem number?_toDigits (n : Nat) : number? (Nat.toDigits 10 n) = some n := by
  unfold number?
  rw [if_pos ⟨Nat.toDigits_ne_nil, List.all_eq_true.mpr fun c hc => isDigit_of_mem hc⟩,
    Nat.ofDigitChars_ten_toDigits]

theorem splitOn_dotted {ns : List Nat} (h : ns ≠ []) :
    (dotted ns).splitOn '.' = ns.map (Nat.toDigits 10) := by
  apply List.splitOn_intercalate
  · intro l hl hdot
    obtain ⟨n, -, rfl⟩ := List.mem_map.mp hl
    exact absurd (isDigit_of_mem hdot) (by decide)
  · simpa using h

theorem numbers?_dotted {ns : List Nat} (h : ns ≠ []) : numbers? (dotted ns) = some ns := by
  unfold numbers?
  rw [splitOn_dotted h]
  clear h
  induction ns with
  | nil => rfl
  | cons n ns ih => simp [List.mapM_cons, number?_toDigits, ih]

end Dotted
