import DCorePython.Attributes
import DCorePython.Variants

/-!
# Predicates of an assertion

`Predicate` has a constructor for each of its three payload classes, but its
registration uses the name `cdd` twice, so one class has no attribute left.
-/

namespace DCore

inductive PredicateClass
  | accountNameEqLitPredicate | assetSymbolEqLitPredicate | blockIdPredicate
  deriving DecidableEq, Repr

inductive PredicatePayload
  | accountNameEqLitPredicate (accountId : IdNumber) (name : List UInt8)
  | assetSymbolEqLitPredicate (assetId : IdNumber) (symbol : List UInt8)
  | blockIdPredicate (id : Fin (2 ^ 160))
  deriving DecidableEq

def PredicatePayload.cls : PredicatePayload → PredicateClass
  | accountNameEqLitPredicate _ _ => .accountNameEqLitPredicate
  | assetSymbolEqLitPredicate _ _ => .assetSymbolEqLitPredicate
  | blockIdPredicate _ => .blockIdPredicate

structure Predicate where
  which : Nat
  value : PredicatePayload
  deriving DecidableEq

def predicateInits : List PredicateClass :=
  [.accountNameEqLitPredicate, .assetSymbolEqLitPredicate, .blockIdPredicate]

def predicateAttributes : List (String × PredicateClass) :=
  [("linear", .accountNameEqLitPredicate),
    ("cdd", .assetSymbolEqLitPredicate),
    ("cdd", .blockIdPredicate)]

def predicateClass (tag : PredicateClass → Nat) :
    VariantClass PredicateClass PredicatePayload Predicate where
  inits := predicateInits
  attributes := predicateAttributes
  tag := tag
  cls := PredicatePayload.cls
  pack := Predicate.mk
  which := Predicate.which
  value := Predicate.value
  which_pack _ _ := rfl
  value_pack _ _ := rfl

abbrev PredicateObj := VariantObj PredicatePayload Predicate

/-! ## `Assert.predicates` -/

structure AssertOperation where
  fee : Asset
  feePayingAccount : IdNumber
  predicates : List Predicate
  requiredAuths : ValueSet IdNumber

namespace AssertOperation

def predicatesMember : Member AssertOperation (List Predicate) where
  get := predicates
  set t c := { t with predicates := c }
  get_set _ _ := rfl
  set_get _ := rfl
  set_set _ _ _ := rfl

def getPredicates (op : AssertOperation) : List PredicateObj :=
  encodeList (m := Id) VariantObj.variant predicatesMember op

def setPredicates [Inhabited Predicate] (l : List PredicateObj) : Call AssertOperation Unit :=
  decodeList extractVariant predicatesMember l

end AssertOperation

/-! ## Reading back -/

theorem mem_predicateInits (c : PredicateClass) : c ∈ predicateInits := by
  cases c <;> decide

theorem existsUnique_predicateAttribute_iff (c : PredicateClass) :
    (∃! name, Registry.find? predicateAttributes name = some c) ↔
      c ≠ .assetSymbolEqLitPredicate := by
  have hrow : ∀ {name c}, Registry.find? predicateAttributes name = some c →
      name ∈ ["linear", "cdd"] := by
    intro name c h
    have := Registry.mem_of_find? h
    simp [predicateAttributes] at this ⊢
    tauto
  have hlinear : Registry.find? predicateAttributes "linear" = some .accountNameEqLitPredicate := by
    decide
  have hcdd : Registry.find? predicateAttributes "cdd" = some .blockIdPredicate := by decide
  cases c with
  | accountNameEqLitPredicate =>
    refine iff_of_true ⟨"linear", hlinear, fun name h => ?_⟩ (by decide)
    rcases List.mem_pair.mp (hrow h) with rfl | rfl
    · rfl
    · rw [hcdd] at h; cases h
  | assetSymbolEqLitPredicate =>
    refine iff_of_false ?_ (by decide)
    intro h
    obtain ⟨name, h, -⟩ := h
    rcases List.mem_pair.mp (hrow h) with rfl | rfl
    · rw [hlinear] at h; cases h
    · rw [hcdd] at h; cases h
  | blockIdPredicate =>
    refine iff_of_true ⟨"cdd", hcdd, fun name h => ?_⟩ (by decide)
    rcases List.mem_pair.mp (hrow h) with rfl | rfl
    · rw [hlinear] at h; cases h
    · rfl

section
variable {tag : PredicateClass → Nat}

theorem make_predicate (p : PredicatePayload) :
    (predicateClass tag).make (.payload p) = .ok ((predicateClass tag).wrap p) :=
  VariantClass.make_payload (mem_predicateInits p.cls)

theorem shows_predicate_iff (htag : tag.Injective) (p : PredicatePayload) :
    (predicateClass tag).Shows (.variant ((predicateClass tag).wrap p)) p ↔
      p.cls ≠ .assetSymbolEqLitPredicate :=
  (VariantClass.shows_wrap_iff htag p).trans (existsUnique_predicateAttribute_iff p.cls)

theorem forall_shows_predicate_iff (htag : tag.Injective) (ps : List PredicatePayload) :
    List.Forall₂ (predicateClass tag).Shows
        (ps.map fun p => .variant ((predicateClass tag).wrap p)) ps ↔
      ∀ p ∈ ps, p.cls ≠ .assetSymbolEqLitPredicate := by
  rw [List.forall₂_map_left_iff, List.forall₂_same]
  simp only [shows_predicate_iff htag]

/-- Predicates that were assigned are read back exactly when none of them was
made from an `AssetNameEquals`. -/
theorem predicates_read_back_iff [Inhabited Predicate] (htag : tag.Injective)
    (ps : List PredicatePayload) (b : Bound AssertOperation) :
    ∃ vs b', (ps.mapM fun p => (predicateClass tag).make (.payload p)) = .ok vs ∧
      (AssertOperation.setPredicates (vs.map .variant)).run b = .ok () b' ∧
      (List.Forall₂ (predicateClass tag).Shows (AssertOperation.getPredicates b'.obj) ps ↔
        ∀ p ∈ ps, p.cls ≠ .assetSymbolEqLitPredicate) := by
  obtain ⟨b', hrun, hread⟩ := decodeList_variants_run AssertOperation.predicatesMember
    (ps.map (predicateClass tag).wrap) b
  refine ⟨_, b', ?_, hrun, ?_⟩
  · simp only [make_predicate]
    exact List.mapM_pure
  · unfold AssertOperation.getPredicates
    rw [hread, List.map_map]
    exact forall_shows_predicate_iff htag ps

end

def predicateIndex (c : PredicateClass) : Nat := predicateInits.idxOf c

theorem predicateIndex_injective : predicateIndex.Injective :=
  fun c _ h => (List.idxOf_inj (mem_predicateInits c)).mp h

instance : Inhabited Predicate := ⟨⟨0, .accountNameEqLitPredicate 0 []⟩⟩

def emptyAssertion : AssertOperation := ⟨⟨0, 0⟩, 0, [], OrderedSet.empty⟩

theorem predicates_read_back_iff_pair :
    ∃ vs b', ([.accountNameEqLitPredicate 5 [100], .blockIdPredicate 9].mapM fun p =>
        (predicateClass predicateIndex).make (.payload p)) = .ok vs ∧
      (AssertOperation.setPredicates (vs.map .variant)).run ⟨{}, emptyAssertion⟩ = .ok () b' ∧
      List.Forall₂ (predicateClass predicateIndex).Shows (AssertOperation.getPredicates b'.obj)
        [.accountNameEqLitPredicate 5 [100], .blockIdPredicate 9] := by
  obtain ⟨vs, b', hvs, hrun, h⟩ := predicates_read_back_iff predicateIndex_injective
    [.accountNameEqLitPredicate 5 [100], .blockIdPredicate 9] ⟨{}, emptyAssertion⟩
  exact ⟨vs, b', hvs, hrun, h.mpr (by decide)⟩

theorem asset_predicate_unreadable :
    ∃ v b', (predicateClass predicateIndex).make
        (.payload (.assetSymbolEqLitPredicate 0 [65])) = .ok v ∧
      (AssertOperation.setPredicates [.variant v]).run ⟨{}, emptyAssertion⟩ = .ok () b' ∧
      ∃ o, AssertOperation.getPredicates b'.obj = [o] ∧
        ∀ name ∈ Registry.names predicateAttributes,
          (predicateClass predicateIndex).readAttribute name o = .ok .none := by
  refine ⟨_, _, rfl, rfl, _, rfl, ?_⟩
  have hnames : Registry.names predicateAttributes = ["linear", "cdd"] := by decide
  rw [hnames]
  intro name hname
  rcases List.mem_pair.mp hname with rfl | rfl <;> rfl

end DCore
