import DCorePython.BoundClasses

/-!
# Assignments through paths

An assignment `obj.a1...an = v` goes to the object that the path `a1...a(n-1)`
ends at. When all its steps are references that object is a part of `obj`, and
the value is read back if the last attribute reads it back. Behind a copying
step the write goes to a copy that nobody else refers to, and `obj` stays as it
was.
-/

namespace DCore

open Loop Call

structure Attribute (Obj C : Type) where
  get : C → Except PyErr Obj
  set : Obj → Call C Unit

namespace Attribute

variable {Obj C V : Type}

/-- A `def_readwrite` member; what its getter gives stands for the value. -/
def readwrite (toPython : V → Obj) (extract : Obj → Conversion V) (member : Member C V) :
    Attribute Obj C where
  get c := .ok (toPython (member.get c))
  set o := convertThen (extract o) fun v c => member.set c v

/-- Assigned to an object of its own, the attribute then shows a value of `R`. -/
def ShowsAlone (a : Attribute Obj C) (v : Obj) (R : Obj → Prop) (b : Bound C) : Prop :=
  ∃ b' o, (a.set v).run b = .ok () b' ∧ a.get b'.obj = .ok o ∧ R o

theorem readwrite_showsAlone {toPython : V → Obj} {extract : Obj → Conversion V}
    {member : Member C V} {v : Obj} {x : V} (hx : (extract v).value? = some x) {R : Obj → Prop}
    (hR : R (toPython x)) (b : Bound C) : (readwrite toPython extract member).ShowsAlone v R b := by
  refine ⟨_, toPython x, convertThen_run hx _ b, ?_, hR⟩
  show Except.ok (toPython (member.get (member.set b.obj x))) = _
  rw [Member.get_set]

end Attribute

/-! ## Attributes of the bound classes -/

inductive AssetObj
  | asset (a : Asset)
  | other (o : PyObj)

def extractAssetObj : AssetObj → Conversion Asset
  | .asset a => .built a none
  | .other _ => .raised .typeError

/-- A `def_readwrite` member of an unsigned type of `w` bits. -/
def unsignedAttribute {C : Type} (w : Nat) (member : Member C (Fin (2 ^ w))) : Attribute PyObj C :=
  .readwrite (fun n => .int n.val) (PyObj.extractUnsigned w) member

def scaleAttribute {P : Type} : Attribute PyObj (FeeSchedule P) :=
  unsignedAttribute 32 FeeSchedule.scaleMember

def maintenanceIntervalAttribute {P : Type} : Attribute PyObj (ChainParameters P) :=
  unsignedAttribute 32 ChainParameters.maintenanceIntervalMember

def nonceAttribute : Attribute PyObj MemoData := unsignedAttribute 64 MemoData.nonceMember

def amountAttribute : Attribute AssetObj TransferOperation :=
  .readwrite .asset extractAssetObj TransferOperation.amountMember

theorem unsignedAttribute_showsAlone {C : Type} {w n : Nat} (member : Member C (Fin (2 ^ w)))
    (h : n < 2 ^ w) (b : Bound C) :
    (unsignedAttribute w member).ShowsAlone (.int n) (· = .int n) b := by
  have hvalue : (PyObj.extractUnsigned w (.int n)).value? = some ⟨n, h⟩ := by
    rw [PyObj.extractUnsigned_natCast h]
    rfl
  refine Attribute.readwrite_showsAlone hvalue ?_ b
  rfl

/-! ## Assignments and reads -/

section
variable {Ty : Type} {El : Ty → Type} {s t u : Ty} {Obj : Type}

theorem Path.byReference_cons_iff {step : Step El s t} {path : Path El t u} :
    (Path.cons step path).ByReference ↔ step.through?.isSome ∧ path.ByReference := by
  have hthrough : (Path.cons step path).through? =
      step.through?.bind fun m => path.through?.map m.comp := rfl
  unfold Path.ByReference
  rw [hthrough]
  cases step.through? <;> simp

theorem Path.view_of_through? :
    ∀ {s t : Ty} {p : Path El s t} {m : Member (El s) (El t)}, p.through? = some m →
      ∀ c, p.view c = some (m.get c)
  | _, _, .nil, m, h, c => by cases h; rfl
  | _, _, .cons step path, m, h, c => by
    obtain ⟨m₁, hm₁, h⟩ := Option.bind_eq_some_iff.mp h
    obtain ⟨m₂, hm₂, rfl⟩ := Option.map_eq_some_iff.mp h
    have hstep : step.view c = some (m₁.get c) := by
      cases step <;> cases hm₁
      rfl
    unfold Path.view
    rw [hstep, Option.bind_some, Path.view_of_through? hm₂]
    rfl

variable [DecidableEq Ty]

/-- Run a setter on the C++ object that `r` refers to. -/
def onRef (r : Ref El t) (c : Call (El t) Unit) : Call (Heap El) Unit := fun b =>
  match b.obj.load r with
  | none => .error .runtimeError b
  | some x =>
    match c.run ⟨b.interp, x⟩ with
    | .ok _ b' => .ok () ⟨b'.interp, b.obj.store r b'.obj⟩
    | .error e b' => .error e ⟨b'.interp, b.obj.store r b'.obj⟩

namespace Path

variable (p : Path El s t) (a : Attribute Obj (El t))

def assign (obj : Ref El s) (v : Obj) : Call (Heap El) Unit := do
  let r ← p.eval obj
  onRef r (a.set v)

def read (obj : Ref El s) : Call (Heap El) Obj := do
  let r ← p.eval obj
  let c ← load r
  build (.ofExcept (a.get c))

def Shows (obj : Ref El s) (R : Obj → Prop) (b : Bound (Heap El)) : Prop :=
  ∃ o b', (p.read a obj).run b = .ok o b' ∧ R o

/-- The assignment of `v` succeeds, and a later read gives `o`. -/
def ReadsAfter (obj : Ref El s) (v o : Obj) (b : Bound (Heap El)) : Prop :=
  ∃ b' b'', (p.assign a obj v).run b = .ok () b' ∧ (p.read a obj).run b' = .ok o b''

end Path

theorem onRef_run_ok {r : Ref El t} {c : Call (El t) Unit} {b b' : Bound (Heap El)} {x : El t}
    (hx : b.obj.load r = some x) (h : (onRef r c).run b = .ok () b') :
    ∃ b₁, c.run ⟨b.interp, x⟩ = .ok () b₁ ∧ b'.obj = b.obj.store r b₁.obj := by
  have hrun : (onRef r c).run b = onRef r c b := rfl
  rw [hrun, onRef, hx] at h
  simp only at h
  cases hc : c.run ⟨b.interp, x⟩ with
  | ok u b₁ =>
    rw [hc] at h
    cases h
    exact ⟨b₁, rfl, rfl⟩
  | error e b₁ =>
    rw [hc] at h
    cases h

namespace Path

variable {p : Path El s t} {a : Attribute Obj (El t)} {obj : Ref El s} {c : El s}

theorem read_run {b : Bound (Heap El)} {d : El t} (hc : b.obj.load obj = some c)
    (hd : p.view c = some d) :
    ∃ cells, (p.read a obj).run b =
      (build (.ofExcept (a.get d))).run ⟨b.interp, b.obj ++ cells⟩ := by
  obtain ⟨r, cells, hrun, hleads⟩ := p.eval_run hc hd b.interp
  refine ⟨cells, ?_⟩
  unfold read
  rw [run_bind_ok hrun, run_bind_ok (load_run hleads.value b.interp)]

/-- What a read shows depends on the value of the object alone. -/
theorem shows_iff {b : Bound (Heap El)} (hc : b.obj.load obj = some c) (R : Obj → Prop) :
    p.Shows a obj R b ↔ ∃ d o, p.view c = some d ∧ a.get d = .ok o ∧ R o := by
  cases hd : p.view c with
  | none =>
    obtain ⟨e, b', hrun⟩ := p.eval_run_error hc hd b.interp
    unfold Shows read
    rw [run_bind_error hrun]
    simp
  | some d =>
    obtain ⟨cells, hrun⟩ := read_run (a := a) hc hd
    unfold Shows
    rw [hrun, exists_build_ofExcept_iff]
    simp

/-- An assignment that succeeds writes to a member of the object, or behind the
heap. -/
theorem assign_run_ok {v : Obj} {b b' : Bound (Heap El)} (hc : b.obj.load obj = some c)
    (h : (p.assign a obj v).run b = .ok () b') :
    ∃ d b₁, p.view c = some d ∧ (a.set v).run ⟨b.interp, d⟩ = .ok () b₁ ∧
      (∀ m, p.through? = some m → b'.obj = b.obj.store obj (m.set c b₁.obj)) ∧
      (p.through? = none → ∃ cells, b'.obj = b.obj ++ cells) := by
  obtain ⟨i, heap⟩ := b
  unfold assign at h
  cases hd : p.view c with
  | none =>
    obtain ⟨e, b₁, hrun⟩ := p.eval_run_error hc hd i
    rw [run_bind_error hrun] at h
    cases h
  | some d =>
    obtain ⟨r, cells, hrun, hleads⟩ := p.eval_run hc hd i
    rw [run_bind_ok hrun] at h
    obtain ⟨b₁, hset, hb'⟩ := onRef_run_ok hleads.value h
    refine ⟨d, b₁, rfl, hset, ?_, ?_⟩
    · intro m hm
      obtain ⟨rfl, rfl⟩ := hleads.through m hm
      rw [hb', List.append_nil]
      exact Heap.store_through hc m b₁.obj
    · intro hnone
      rw [hb']
      exact Heap.store_append (hleads.copied hnone) cells b₁.obj

variable {v : Obj} {b b' : Bound (Heap El)}

/-- Through references the value is shown as by the attribute alone. -/
theorem shows_assigned_of_through {m : Member (El s) (El t)} (hm : p.through? = some m)
    (hc : b.obj.load obj = some c) (h : (p.assign a obj v).run b = .ok () b') (R : Obj → Prop) :
    p.Shows a obj R b' ↔ ∃ d, p.view c = some d ∧ a.ShowsAlone v R ⟨b.interp, d⟩ := by
  obtain ⟨d, b₁, hd, hset, hthrough, -⟩ := assign_run_ok hc h
  have hc' : b'.obj.load obj = some (m.set c b₁.obj) := by
    rw [hthrough m hm]
    exact Heap.load_store hc _
  rw [shows_iff hc', view_of_through? hm, Member.get_set]
  refine ⟨?_, ?_⟩
  · intro hs
    obtain ⟨d', o, hd', hget, hR⟩ := hs
    cases hd'
    exact ⟨d, hd, b₁, o, hset, hget, hR⟩
  · intro hs
    obtain ⟨d', hd', b₂, o, hset', hget, hR⟩ := hs
    rw [hd] at hd'
    cases hd'
    rw [hset] at hset'
    cases hset'
    exact ⟨_, o, rfl, hget, hR⟩

/-- Behind a copying step the object stays as it was. -/
theorem shows_assigned_of_copied (hm : p.through? = none) (hc : b.obj.load obj = some c)
    (h : (p.assign a obj v).run b = .ok () b') (R : Obj → Prop) :
    (p.Shows a obj R b' ↔ p.Shows a obj R b) ∧ b.obj <+: b'.obj := by
  obtain ⟨d, b₁, -, -, -, hcopied⟩ := assign_run_ok hc h
  obtain ⟨cells, hcells⟩ := hcopied hm
  have hc' : b'.obj.load obj = some c := by
    rw [hcells]
    exact Heap.load_append hc cells
  refine ⟨?_, cells, hcells.symm⟩
  rw [shows_iff hc', shows_iff hc]

end Path

/-- After an assignment through a path has succeeded, a read of the path shows a
value of `R` when no step copies and the last attribute shows one on its own, or
when a step copies and the path showed one before; and then the object itself is
as it was. -/
theorem path_shows_assigned_iff (p : Path El s t) (a : Attribute Obj (El t)) (obj : Ref El s)
    (v : Obj) (R : Obj → Prop) (b b' : Bound (Heap El)) (c : El s)
    (hc : b.obj.load obj = some c) (h : (p.assign a obj v).run b = .ok () b') :
    (p.Shows a obj R b' ↔
      (p.ByReference ∧ ∃ d, p.view c = some d ∧ a.ShowsAlone v R ⟨b.interp, d⟩) ∨
        (¬ p.ByReference ∧ p.Shows a obj R b)) ∧
      (¬ p.ByReference → b.obj <+: b'.obj) := by
  unfold Path.ByReference
  cases hm : p.through? with
  | some m =>
    have hshows := Path.shows_assigned_of_through hm hc h R
    simp [hshows]
  | none =>
    obtain ⟨hshows, hprefix⟩ := Path.shows_assigned_of_copied hm hc h R
    simp [hshows, hprefix]

end

/-! ### Writes to members and to copies -/

section

open BoundClass

abbrev SampleValue : BoundClass → Type := BoundClass.Value Nat fun _ => Unit

/-- The only object of its heap. -/
def soleObject (t : BoundClass) : Ref SampleValue t := Ref.next [] t

def soleHeap (t : BoundClass) (x : SampleValue t) : Bound (Heap SampleValue) := ⟨{}, [⟨t, x⟩]⟩

def parametersEvery (n : Fin (2 ^ 32)) : ChainParameters Nat := ⟨FeeSchedule.single 0 5, n⟩

def memoNumbered (n : Fin (2 ^ 64)) : MemoData := ⟨8, 9, n, []⟩

def transferWithMemo : TransferOperation := ⟨⟨0, 0⟩, 1, 2, ⟨3, 0⟩, some (memoNumbered 10)⟩

def transferTransaction : Transaction (OpFields fun _ => Unit) :=
  ⟨0, 0, 0, [⟨39, .plain .transferOperation OpClass.noConfusion transferWithMemo⟩]⟩

theorem path_shows_assigned_iff_reference :
    (Path.cons parameters .nil).Shows maintenanceIntervalAttribute (soleObject globalProperties)
        (· = .int 3600) (soleHeap globalProperties ⟨parametersEvery 3600, none⟩) ∧
      (soleHeap transfer transferWithMemo).obj <+:
        [⟨transfer, transferWithMemo⟩, ⟨memo, memoNumbered 7⟩] :=
  ⟨(path_shows_assigned_iff (Path.cons parameters .nil) maintenanceIntervalAttribute
      (soleObject globalProperties) (.int 3600) (· = .int 3600)
      (soleHeap globalProperties ⟨parametersEvery 86400, none⟩)
      (soleHeap globalProperties ⟨parametersEvery 3600, none⟩) ⟨parametersEvery 86400, none⟩
      rfl rfl).1.mpr
      (.inl ⟨rfl, _, rfl, unsignedAttribute_showsAlone _ (by decide : 3600 < 2 ^ 32) _⟩),
    (path_shows_assigned_iff (Path.cons memoOptional .nil) nonceAttribute (soleObject transfer)
      (.int 7) (· = .int 7) (soleHeap transfer transferWithMemo)
      ⟨{}, [⟨transfer, transferWithMemo⟩, ⟨memo, memoNumbered 7⟩]⟩ transferWithMemo rfl rfl).2
      nofun⟩

theorem write_to_copy_lost :
    (Path.cons currentFees .nil).ReadsAfter scaleAttribute (soleObject chainParameters) (.int 7)
        (.int 0) (soleHeap chainParameters (parametersEvery 86400)) ∧
      (Path.cons memoOptional .nil).ReadsAfter nonceAttribute (soleObject transfer) (.int 7)
        (.int 10) (soleHeap transfer transferWithMemo) ∧
      (Path.cons (operations 0) (.cons (transferAlternative fun _ => 39) .nil)).ReadsAfter
        amountAttribute (soleObject transaction) (.asset ⟨7, 0⟩) (.asset ⟨3, 0⟩)
        (soleHeap transaction transferTransaction) :=
  ⟨⟨_, _, rfl, rfl⟩, ⟨_, _, rfl, rfl⟩, ⟨_, _, rfl, rfl⟩⟩

end

end DCore
