import Mathlib.Data.Option.Basic

/-!
# Partial maps and overlays

A partial map is a function into `Option`. `f.overlay g` reads `f` where `f` is
defined and `g` elsewhere. A container that is written entry by entry on top of
what it holds ends as an overlay of old and new; it ends as the new content
alone exactly when the overlay loses the old, and these conditions are stated
here for one overlay and for a run of them.
-/

def PartialMap (κ α : Type*) := κ → Option α

namespace PartialMap

variable {κ α : Type*}

def overlay (f g : PartialMap κ α) : PartialMap κ α := fun k => (f k).or (g k)

def nowhere : PartialMap κ α := fun _ => none

def DomLE (f g : PartialMap κ α) : Prop := ∀ k, (f k).isSome → (g k).isSome

def Extends (g f : PartialMap κ α) : Prop := ∀ k a, f k = some a → g k = some a

def Agree (f g : PartialMap κ α) : Prop := ∀ k a b, f k = some a → g k = some b → a = b

theorem overlay_apply (f g : PartialMap κ α) (k : κ) : f.overlay g k = (f k).or (g k) := rfl

@[simp] theorem overlay_nowhere (f : PartialMap κ α) : f.overlay nowhere = f := by
  funext k; simp [overlay, nowhere]

theorem overlay_eq_left_iff (f g : PartialMap κ α) : f.overlay g = f ↔ g.DomLE f := by
  refine ⟨?_, ?_⟩
  · intro h k hk
    have := congrFun h k
    cases hf : f k with
    | some _ => rfl
    | none => rw [overlay_apply, hf, Option.none_or] at this; rw [this] at hk; cases hk
  · intro h
    funext k
    cases hf : f k with
    | some _ => simp [overlay, hf]
    | none =>
      cases hg : g k with
      | none => simp [overlay, hf, hg]
      | some _ => have := h k (by simp [hg]); simp [hf] at this

theorem overlay_eq_right_iff (f g : PartialMap κ α) : f.overlay g = g ↔ g.Extends f := by
  refine ⟨?_, ?_⟩
  · intro h k a hf
    have := congrFun h k
    rw [overlay_apply, hf, Option.some_or] at this
    exact this.symm
  · intro h
    funext k
    cases hf : f k with
    | some a => rw [overlay_apply, hf, h k a hf]; rfl
    | none => simp [overlay, hf]

theorem overlay_extends_right_iff (f g : PartialMap κ α) : (f.overlay g).Extends g ↔ f.Agree g := by
  refine ⟨?_, ?_⟩
  · intro h k a b hf hg
    have := h k b hg
    rw [overlay_apply, hf, Option.some_or] at this
    exact Option.some.inj this
  · intro h k b hg
    cases hf : f k with
    | some a => rw [overlay_apply, hf, Option.some_or, h k a b hf hg]
    | none => rw [overlay_apply, hf, Option.none_or, hg]

theorem domLE_overlay_iff (f g h : PartialMap κ α) :
    (f.overlay g).DomLE h ↔ f.DomLE h ∧ g.DomLE h := by
  refine ⟨?_, ?_⟩
  · intro H
    exact ⟨fun k hk => H k (by simp [overlay, hk]), fun k hk => H k (by simp [overlay, hk])⟩
  · intro h k hk
    obtain ⟨hf, hg⟩ := h
    simp only [overlay, Option.isSome_or, Bool.or_eq_true] at hk
    exact hk.elim (hf k) (hg k)

/-! ## Runs of overlays -/

def writeAll (base : PartialMap κ α) (fs : List (PartialMap κ α)) : PartialMap κ α :=
  fs.foldl (fun acc f => f.overlay acc) base

def fillAll (base : PartialMap κ α) (fs : List (PartialMap κ α)) : PartialMap κ α :=
  fs.foldl (fun acc f => acc.overlay f) base

theorem writeAll_concat (base : PartialMap κ α) (fs : List (PartialMap κ α)) (f : PartialMap κ α) :
    base.writeAll (fs ++ [f]) = f.overlay (base.writeAll fs) := by
  simp [writeAll]

theorem fillAll_concat (base : PartialMap κ α) (fs : List (PartialMap κ α)) (f : PartialMap κ α) :
    base.fillAll (fs ++ [f]) = (base.fillAll fs).overlay f := by
  simp [fillAll]

theorem writeAll_domLE_iff (h : PartialMap κ α) :
    ∀ (fs : List (PartialMap κ α)) (base : PartialMap κ α),
      (base.writeAll fs).DomLE h ↔ ∀ f ∈ base :: fs, f.DomLE h
  | [], base => by simp [writeAll]
  | f :: fs, base => by
    have ih := writeAll_domLE_iff h fs (f.overlay base)
    have hw : base.writeAll (f :: fs) = (f.overlay base).writeAll fs := rfl
    rw [hw, ih]
    simp only [List.forall_mem_cons, domLE_overlay_iff]
    rw [and_assoc, and_left_comm]

theorem fillAll_apply :
    ∀ (fs : List (PartialMap κ α)) (base : PartialMap κ α) (k : κ),
      base.fillAll fs k = (base :: fs).findSome? (fun f => f k)
  | [], base, k => by cases h : base k <;> simp [fillAll, h]
  | f :: fs, base, k => by
    have ih := fillAll_apply fs (base.overlay f) k
    have hw : base.fillAll (f :: fs) = (base.overlay f).fillAll fs := rfl
    rw [hw, ih]
    simp only [List.findSome?_cons, overlay_apply]
    cases base k <;> rfl

end PartialMap
