import DCorePython.Lib.Registry
import DCorePython.Codecs

/-!
# Bound variants

A variant's Python class has a constructor for each payload class and a
read-only attribute for each of them, registered by name. An object made from a
payload is read back under one attribute alone exactly when one name stands for
the payload's class.
-/

namespace DCore

inductive VariantObj (P V : Type)
  | none
  | payload (p : P)
  | variant (v : V)
  | other

instance {P V : Type} : PyNone (VariantObj P V) where
  none := .none
  isNone
    | .none => true
    | _ => false
  isNone_iff o := by cases o <;> simp

/-- A `static_variant` over payload classes `C`, and the constructors and
attributes that its Python class registers, in order. -/
structure VariantClass (C P V : Type) where
  inits : List C
  attributes : List (String × C)
  tag : C → Nat
  cls : P → C
  pack : Nat → P → V
  which : V → Nat
  value : V → P
  which_pack : ∀ t p, which (pack t p) = t
  value_pack : ∀ t p, value (pack t p) = p

namespace VariantClass

variable {C P V : Type} [DecidableEq C] (K : VariantClass C P V)

def wrap (p : P) : V := K.pack (K.tag (K.cls p)) p

def make : VariantObj P V → Except PyErr V
  | .payload p => if K.cls p ∈ K.inits then .ok (K.wrap p) else .error .typeError
  | _ => .error .typeError

def get (c : C) (v : V) : Option P :=
  if K.cls (K.value v) = c then some (K.value v) else none

def readAttribute (name : String) : VariantObj P V → Except PyErr (VariantObj P V)
  | .variant v =>
    match Registry.find? K.attributes name with
    | some c => decodeStaticVariant K.which (K.tag c) (K.get c) .payload v
    | none => .error .attributeError
  | _ => .error .attributeError

def ShowsUnder (name : String) (o : VariantObj P V) (p : P) : Prop :=
  K.readAttribute name o = .ok (.payload p) ∧
    ∀ name' ∈ Registry.names K.attributes, name' ≠ name → K.readAttribute name' o = .ok .none

def Shows (o : VariantObj P V) (p : P) : Prop :=
  ∃ name ∈ Registry.names K.attributes, K.ShowsUnder name o p

variable {K}

theorem make_payload {p : P} (h : K.cls p ∈ K.inits) : K.make (.payload p) = .ok (K.wrap p) :=
  if_pos h

theorem readAttribute_wrap (htag : K.tag.Injective) (p : P) {name : String} {c : C}
    (hc : Registry.find? K.attributes name = some c) :
    K.readAttribute name (.variant (K.wrap p)) =
      .ok (if c = K.cls p then .payload p else .none) := by
  unfold readAttribute
  rw [hc]
  simp only [decodeStaticVariant, wrap, K.which_pack]
  by_cases h : c = K.cls p
  · subst h
    simp [get, K.value_pack]
  · rw [if_neg fun e => h (htag e).symm, if_neg h]
    rfl

theorem showsUnder_wrap_iff (htag : K.tag.Injective) (p : P) {name : String}
    (hname : name ∈ Registry.names K.attributes) :
    K.ShowsUnder name (.variant (K.wrap p)) p ↔
      ∀ name', Registry.find? K.attributes name' = some (K.cls p) ↔ name' = name := by
  obtain ⟨c, hc⟩ := Registry.mem_names_iff.mp hname
  refine ⟨?_, ?_⟩
  · intro h name'
    obtain ⟨hp, hothers⟩ := h
    rw [readAttribute_wrap htag p hc] at hp
    have hcp : c = K.cls p := by
      by_contra h
      rw [if_neg h] at hp
      cases hp
    refine ⟨fun h' => ?_, by rintro rfl; rw [hc, hcp]⟩
    by_contra hne
    have := hothers name' (Registry.mem_names_iff.mpr ⟨_, h'⟩) hne
    rw [readAttribute_wrap htag p h', if_pos rfl] at this
    cases this
  · intro h
    refine ⟨by rw [readAttribute_wrap htag p ((h name).mpr rfl), if_pos rfl], fun name' h' hne => ?_⟩
    obtain ⟨c', hc'⟩ := Registry.mem_names_iff.mp h'
    rw [readAttribute_wrap htag p hc', if_neg]
    intro h
    subst h
    exact hne ((h name').mp hc')

theorem shows_wrap_iff (htag : K.tag.Injective) (p : P) :
    K.Shows (.variant (K.wrap p)) p ↔
      ∃! name, Registry.find? K.attributes name = some (K.cls p) := by
  refine ⟨?_, ?_⟩
  · intro h
    obtain ⟨name, hname, hshows⟩ := h
    have h := (showsUnder_wrap_iff htag p hname).mp hshows
    exact ⟨name, (h name).mpr rfl, fun name' => (h name').mp⟩
  · intro h
    obtain ⟨name, hfind, hunique⟩ := h
    have hname := Registry.mem_names_iff.mpr ⟨_, hfind⟩
    refine ⟨name, hname, (showsUnder_wrap_iff htag p hname).mpr fun name' => ⟨hunique name', ?_⟩⟩
    intro h
    subst h
    exact hfind

end VariantClass

/-! ## Lists of variants -/

section
variable {P V : Type}

def extractVariant : VariantObj P V → Conversion V
  | .variant v => .built v none
  | _ => .raised .typeError

theorem convertible_variants (vs : List V) :
    ∀ o ∈ vs.map VariantObj.variant, convertible (extractVariant (P := P)) o = true := by
  intro o ho
  obtain ⟨v, -, rfl⟩ := List.mem_map.mp ho
  rfl

theorem decodeList_variants_run {T : Type} [Inhabited V] (container : Member T (List V))
    (vs : List V) (b : Bound T) :
    ∃ b', (decodeList (extractVariant (P := P)) container (vs.map .variant)).run b = .ok () b' ∧
      encodeList (m := Id) (VariantObj.variant (P := P)) container b'.obj = vs.map .variant := by
  refine ⟨_, decodeList_run extractVariant container (convertible_variants vs) b, ?_⟩
  rw [encodeList_eq, mapM_id, Member.get_set, values_map_toPython (fun _ => rfl)]

end

end DCore
