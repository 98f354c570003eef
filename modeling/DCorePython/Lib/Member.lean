/-!
# Members of an object

A pointer to member `C T::*` reads and writes one part of an object of type
`T`. The laws are fields, so every member in a development is lawful.
-/

structure Member (T C : Type) where
  get : T → C
  set : T → C → T
  get_set : ∀ t c, get (set t c) = c
  set_get : ∀ t, set t (get t) = t
  set_set : ∀ t c c', set (set t c) c' = set t c'

namespace Member

variable {T C D : Type}

attribute [simp] get_set set_get set_set

def self : Member C C where
  get := id
  set _ c := c
  get_set _ _ := rfl
  set_get _ := rfl
  set_set _ _ _ := rfl

def comp (m : Member T C) (m' : Member C D) : Member T D where
  get t := m'.get (m.get t)
  set t d := m.set t (m'.set (m.get t) d)
  get_set t d := by simp
  set_get t := by simp
  set_set t d d' := by simp

theorem set_eq_self_iff (m : Member T C) (t : T) (c : C) : m.set t c = t ↔ c = m.get t := by
  refine ⟨?_, ?_⟩
  · intro h
    have := congrArg m.get h
    rwa [get_set] at this
  · rintro rfl; simp

def Apart (m : Member T C) (m' : Member T D) : Prop :=
  (∀ t c, m'.get (m.set t c) = m'.get t) ∧ ∀ t d, m.get (m'.set t d) = m.get t

theorem Apart.symm {m : Member T C} {m' : Member T D} (h : m.Apart m') : m'.Apart m :=
  ⟨h.2, h.1⟩

end Member
