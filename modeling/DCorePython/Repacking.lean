import DCorePython.Aliases
import DCorePython.Wrapping

/-!
# Parts taken out and put back

What a getter copies cannot be changed in place, so programs take the part out
under a name of its own, change it, and assign it back, through as many levels
as there are. Such a program does what one assignment to the outermost object
would do, and behind it the path shows the part as it was changed.
-/

namespace DCore

open Loop Call

section
variable {Ty : Type} {El : Ty → Type} {s t u : Ty}

namespace Path

def append : {s t u : Ty} → Path El s t → Path El t u → Path El s u
  | _, _, _, nil, q => q
  | _, _, _, cons step p, q => cons step (p.append q)

theorem look_append :
    ∀ {s t u : Ty} (p : Path El s t) (q : Path El t u) (c : El s),
      (p.append q).look c = (p.look c).bind q.look
  | _, _, _, nil, _, _ => rfl
  | _, _, _, cons step p, q, c => by
    unfold append look
    cases step.look c with
    | error e => rfl
    | ok d => exact p.look_append q d

theorem through?_append_of_copies :
    ∀ {s t u : Ty} (p : Path El s t) {q : Path El t u}, q.through? = none →
      (p.append q).through? = none
  | _, _, _, nil, _, h => h
  | _, _, _, cons step p, _, h => by
    unfold append through?
    rw [p.through?_append_of_copies h]
    cases step.through? <;> rfl

end Path

end

section
variable {Ty Var : Type} (El : Ty → Type) (cls : Var → Ty)

/-- A part of the object of `x` that a getter copies, under the name `y`: the
object's member with the setter, the way from there to the part, and the value
to assign so that the part is replaced. -/
structure Link (x y : Var) where
  {t : Ty}
  {α : Type}
  member : Path El (cls x) t
  part : Path El t (cls y)
  rebuild : El t → El (cls y) → Except PyErr α
  set : α → Call (El t) Unit
  reference : member.ByReference
  copies : part.through? = none
  back : ∀ u d d', part.look u = .ok d → ∃ a u', rebuild u d' = .ok a ∧
    (set a).run ⟨{}, u⟩ = .ok () ⟨{}, u'⟩ ∧ part.look u' = .ok d'

inductive Chain : Var → Var → Type 1
  | single {x y : Var} (link : Link El cls x y) : Chain x y
  | cons {x y z : Var} (link : Link El cls x y) (rest : Chain y z) : Chain x z

end

section
variable {Ty Var : Type} {El : Ty → Type} {cls : Var → Ty} {Out : Type} {x y z : Var}

namespace Link

variable (l : Link El cls x y)

def path : Path El (cls x) (cls y) := l.member.append l.part

theorem copies_path : l.path.through? = none := l.member.through?_append_of_copies l.copies

/-- `y = x.member.part` -/
def take : Statement El cls Out := .bind y x l.path

/-- `x.member = rebuilt(x.member, y)` -/
def putBack : Statement El cls Out :=
  .assign x l.member l.set
    (.apply (.apply (.value fun u => .ok (l.rebuild u)) (.object x l.member)) (.object y .nil))

def assign (a : l.α) : Statement El cls Out := .assign x l.member l.set (.value a)

end Link

namespace Chain

def names : {x z : Var} → Chain El cls x z → List Var
  | _, y, single _ => [y]
  | _, _, @cons _ _ _ _ _ y _ _ rest => y :: rest.names

def path : {x z : Var} → Chain El cls x z → Path El (cls x) (cls z)
  | _, _, single l => l.path
  | _, _, cons l rest => l.path.append rest.path

/-- From the outside in. -/
def unpack : {x z : Var} → Chain El cls x z → List (Statement El cls Out)
  | _, _, single l => [l.take]
  | _, _, cons l rest => l.take :: rest.unpack

/-- From the inside out. -/
def repack : {x z : Var} → Chain El cls x z → List (Statement El cls Out)
  | _, _, single l => [l.putBack]
  | _, _, cons l rest => rest.repack ++ [l.putBack]

def head : {x z : Var} → Chain El cls x z → (y : Var) × Link El cls x y
  | _, y, single l => ⟨y, l⟩
  | _, _, @cons _ _ _ _ _ y _ l _ => ⟨y, l⟩

variable [DecidableEq Var]

/-- Unpacking takes `s`, where the object of `x` has the value `c`, to `t` and
gives `z` the value `e`. -/
def Unpacks : {x z : Var} → Chain El cls x z → Session El cls → El (cls x) → Session El cls →
    El (cls z) → Prop
  | _, _, single l, s, c, t, e => l.path.look c = .ok e ∧ t = s
  | _, _, @cons _ _ _ _ _ y _ l rest, s, c, t, e =>
    ∃ d, l.path.look c = .ok d ∧ rest.Unpacks (s.own y d) d t e

theorem Unpacks.look : ∀ {x z : Var} {ch : Chain El cls x z} {s t : Session El cls} {c : El (cls x)}
    {e : El (cls z)}, ch.Unpacks s c t e → ch.path.look c = .ok e
  | _, _, .single l, _, _, _, _, h => h.1
  | _, _, .cons l rest, s, t, c, e, h => by
    obtain ⟨d, hd, hrest⟩ := h
    unfold Chain.path
    rw [Path.look_append, hd]
    exact hrest.look

end Chain

/-- The statement prints, or writes through the name `z`. -/
def Statement.Edits (z : Var) : Statement El cls Out → Prop
  | print _ => True
  | assign x _ _ _ => x = z
  | call x _ _ _ => x = z
  | pass _ _ y _ _ _ => y = z
  | _ => False

end

/-! ## Objects of names -/

section
variable {Ty Var : Type} {El : Ty → Type} {cls : Var → Ty} {Out : Type} [DecidableEq Ty]

namespace Session

structure Has (s : Session El cls) (x : Var) (r : Ref El (cls x)) (c : El (cls x)) : Prop where
  name : s.names x = some r
  value : s.heap.load r = some c

variable {s : Session El cls} {x : Var} {r : Ref El (cls x)} {c : El (cls x)} {t u : Ty}

theorem Has.reach (h : s.Has x r c) (p : Path El (cls x) t) :
    s.reach x p = (toFault (p.look c)).map fun d => (r, d) := by
  unfold Session.reach
  simp only [h.name, h.value]

theorem Has.value_eq (h : s.Has x r c) {r' : Ref El (cls x)} {c' : El (cls x)}
    (h' : s.Has x r' c') : c = c' := by
  have hr := h.name
  rw [h'.name] at hr
  cases hr
  have hc := h.value
  rw [h'.value] at hc
  cases hc
  rfl

theorem exists_has_of_reach {p : Path El (cls x) t} {a : Ref El (cls x) × El t}
    (h : s.reach x p = .ok a) : ∃ r c, s.Has x r c := by
  have hname : s.names x = some a.1 := named_of_reach h
  unfold Session.reach at h
  simp only [hname] at h
  cases hc : s.heap.load a.1 with
  | none =>
    rw [hc] at h
    cases h
  | some c => exact ⟨a.1, c, hname, hc⟩

theorem put_of_through {r : Ref El t} {p : Path El t u} {m : Member (El t) (El u)}
    (hp : p.through? = some m) (d : El u) :
    s.put r p d = ⟨s.heap.store (r.through m) d, s.names⟩ := by
  unfold put
  rw [hp]

theorem Has.put (h : s.Has x r c) {p : Path El (cls x) t} {m : Member (El (cls x)) (El t)}
    (hp : p.through? = some m) (d : El t) : (s.put r p d).Has x r (m.set c d) := by
  rw [put_of_through hp]
  refine ⟨h.name, ?_⟩
  rw [Heap.store_through h.value]
  exact Heap.load_store h.value _

theorem write_of_run {r : Ref El t} {p : Path El t u} {d d' : El u} {w : Call (El u) Unit}
    (hw : w.run ⟨{}, d⟩ = .ok () ⟨{}, d'⟩) :
    (s.write r p d w : Session El cls × Except Fault (Option Out)) = (s.put r p d', .ok none) := by
  unfold Session.write
  rw [lift_run_ok hw]
  rfl

variable [DecidableEq Var] {y : Var}

theorem Has.own (h : s.Has x r c) (hxy : x ≠ y) (d : El (cls y)) : (s.own y d).Has x r c :=
  ⟨(Names.set_of_ne _ hxy _).trans h.name, Heap.load_append h.value _⟩

theorem has_own_self (s : Session El cls) (y : Var) (d : El (cls y)) :
    (s.own y d).Has y (Ref.next s.heap (cls y)) d :=
  ⟨Names.set_self .., Heap.load_next s.heap d⟩

theorem put_own_self (s : Session El cls) {y : Var} (d : El (cls y)) (p : Path El (cls y) t)
    {m : Member (El (cls y)) (El t)} (hp : p.through? = some m) (e : El t) :
    (s.own y d).put (Ref.next s.heap (cls y)) p e = s.own y (m.set d e) := by
  rw [put_of_through hp]
  unfold Session.own
  rw [Heap.store_through (Heap.load_next s.heap d), Heap.store_next]

theorem own_put {q : Ref El t} {b : El t} (hq : s.heap.load q = some b) (p : Path El t u) (e : El u)
    (y : Var) (d : El (cls y)) : (s.own y d).put q p e = (s.put q p e).own y d := by
  unfold Session.put
  cases p.through? with
  | none => rfl
  | some m =>
    have hload : s.heap.load (q.through m) = some (m.get b) := by
      rw [Heap.load_through, hq]
      rfl
    have hstore : (s.heap.alloc d).store (q.through m) e = (s.heap.store (q.through m) e).alloc d :=
      Heap.store_append_left hload _ e
    unfold Session.own
    simp only [hstore, Ref.next, Heap.length_store]

/-- Statements that write through a name with an object of its own change that
object only. -/
theorem own_edits (s : Session El cls) {st : Statement El cls Out} (hst : st.Edits y)
    (d : El (cls y)) : ∃ d', ((s.own y d).ownStep st).1 = s.own y d' := by
  have heffect := (s.own y d).ownership_effect st
  generalize ((s.own y d).ownStep st).1 = s' at heffect ⊢
  cases heffect with
  | none => exact ⟨d, rfl⟩
  | share hreach => exact hst.elim
  | own c => exact hst.elim
  | @put _ x t p r _ htarget hreach e =>
    have hx : x = y := by
      cases st <;> cases htarget
      · exact hst
      · exact hst
      · exact hst
    subst hx
    have hr : r = Ref.next s.heap (cls x) := by
      have hname := named_of_reach hreach
      rw [(has_own_self s x d).name] at hname
      cases hname
      rfl
    subst hr
    cases hp : p.through? with
    | none =>
      refine ⟨d, ?_⟩
      unfold Session.put
      rw [hp]
    | some m => exact ⟨m.set d e, put_own_self s d p hp e⟩

theorem after_edits (s : Session El cls) :
    ∀ (ws : List (Statement El cls Out)), (∀ st ∈ ws, st.Edits y) → ∀ d : El (cls y),
      ∃ d', (ownership El cls Out).after (s.own y d) ws = s.own y d'
  | [], _, d => ⟨d, rfl⟩
  | st :: ws, h, d => by
    obtain ⟨d₁, hd₁⟩ := own_edits s (h st List.mem_cons_self) d
    obtain ⟨d', hd'⟩ := after_edits s ws (fun st' h' => h st' (.tail _ h')) d₁
    refine ⟨d', ?_⟩
    rw [Machine.after_cons, ← hd']
    exact congrArg (fun s' => (ownership El cls Out).after s' ws) hd₁

end Session

/-! ## Chains -/

namespace Link

variable [DecidableEq Var] {x y : Var} {s : Session El cls} {r : Ref El (cls x)} {c : El (cls x)}

theorem ownStep_take (l : Link El cls x y) (hx : s.Has x r c) {d : El (cls y)}
    (hd : l.path.look c = .ok d) :
    s.ownStep (l.take : Statement El cls Out) = (s.own y d, .ok none) := by
  have hreach : s.reach x l.path = .ok (r, d) := by
    rw [hx.reach, hd]
    rfl
  unfold Link.take
  simp only [Session.ownStep, hreach, Session.orFault, Session.share, l.copies_path]

theorem exists_of_take (l : Link El cls x y)
    (h : (s.ownStep (l.take : Statement El cls Out)).2 = .ok none) :
    ∃ a, s.reach x l.path = .ok a := by
  unfold Link.take at h
  simp only [Session.ownStep] at h
  cases hreach : s.reach x l.path with
  | error f =>
    rw [hreach] at h
    cases h
  | ok a => exact ⟨a, rfl⟩

variable (Out) in
theorem exists_write (l : Link El cls x y) {d : El (cls y)} (hd : l.path.look c = .ok d)
    (d' : El (cls y)) :
    ∃ a u' c', l.path.look c' = .ok d' ∧
      (∀ (s : Session El cls) (r : Ref El (cls x)), s.Has x r c →
        (s.put r l.member u').Has x r c' ∧
        s.ownStep (l.assign a : Statement El cls Out) = (s.put r l.member u', .ok none) ∧
        ∀ r', s.Has y r' d' →
          s.ownStep (l.putBack : Statement El cls Out) = (s.put r l.member u', .ok none)) := by
  obtain ⟨m, hm⟩ := Option.isSome_iff_exists.mp l.reference
  have hmember : ∀ c, l.member.look c = .ok (m.get c) := Path.look_of_through? hm
  have hpart : l.part.look (m.get c) = .ok d := by
    unfold path at hd
    rw [Path.look_append, hmember] at hd
    exact hd
  obtain ⟨a, u', hrebuild, hrun, hback⟩ := l.back _ _ d' hpart
  refine ⟨a, u', m.set c u', ?_, ?_⟩
  · unfold path
    rw [Path.look_append, hmember, Member.get_set]
    exact hback
  · intro s r hx
    have hreach : s.reach x l.member = .ok (r, m.get c) := by
      rw [hx.reach, hmember]
      rfl
    have hwrite : (s.write r l.member (m.get c) (l.set a) : Session El cls × Except Fault (Option Out)) =
        (s.put r l.member u', .ok none) := Session.write_of_run hrun
    refine ⟨hx.put hm u', ?_, ?_⟩
    · unfold assign
      simp only [Session.ownStep, Session.look, Session.orFault, hreach]
      exact hwrite
    · intro r' hy
      have hy' : s.reach y .nil = .ok (r', d') := by
        rw [hy.reach]
        rfl
      have hlook : s.look (.apply (.apply (.value fun u => .ok (l.rebuild u)) (.object x l.member))
          (.object y .nil)) = .ok a := by
        simp only [Session.look, hreach, hy']
        show toFault (l.rebuild (m.get c) d') = _
        rw [hrebuild]
        rfl
      unfold putBack
      simp only [Session.ownStep, hlook, Session.orFault, hreach]
      exact hwrite

end Link

namespace Chain

variable [DecidableEq Var]

namespace Unpacks

theorem load : ∀ {x z : Var} {ch : Chain El cls x z} {s t : Session El cls} {c : El (cls x)}
    {e : El (cls z)}, ch.Unpacks s c t e → ∀ {u : Ty} {q : Ref El u} {b : El u},
      s.heap.load q = some b → t.heap.load q = some b
  | _, _, .single l, _, _, _, _, h, _, _, _, hq => by
    rw [h.2]
    exact hq
  | _, _, .cons l rest, _, _, _, _, h, _, _, _, hq => by
    obtain ⟨d, -, hrest⟩ := h
    exact hrest.load (Heap.load_append hq _)

theorem has : ∀ {x z : Var} {ch : Chain El cls x z} {s t : Session El cls} {c : El (cls x)}
    {e : El (cls z)}, ch.Unpacks s c t e → ∀ {w : Var}, w ∉ ch.names → ∀ {r : Ref El (cls w)}
      {b : El (cls w)}, s.Has w r b → ∀ e', (t.own z e').Has w r b
  | _, z, .single l, s, t, _, _, h, w, hw, r, b, hb, e' => by
    rw [h.2]
    exact hb.own (by simpa [names] using hw) e'
  | _, _, @cons _ _ _ _ _ y _ l rest, s, t, _, _, h, w, hw, r, b, hb, e' => by
    obtain ⟨d, -, hrest⟩ := h
    have hw' : w ≠ y ∧ w ∉ rest.names := by simpa [names] using hw
    exact hrest.has hw'.2 (hb.own hw'.1 d) e'

theorem put : ∀ {x z : Var} {ch : Chain El cls x z} {s t : Session El cls} {c : El (cls x)}
    {e : El (cls z)}, ch.Unpacks s c t e → ∀ {u v : Ty} {q : Ref El u} {b : El u},
      s.heap.load q = some b → ∀ (p : Path El u v) (i : El v),
        ch.Unpacks (s.put q p i) c (t.put q p i) e
  | _, _, .single l, _, _, _, _, h, _, _, _, _, _, p, i => ⟨h.1, by rw [h.2]⟩
  | _, _, @cons _ _ _ _ _ y _ l rest, s, t, _, _, h, _, _, _, _, hq, p, i => by
    obtain ⟨d, hd, hrest⟩ := h
    refine ⟨d, hd, ?_⟩
    rw [← Session.own_put hq p i y d]
    exact hrest.put (Heap.load_append hq _) p i

theorem after_unpack : ∀ {x z : Var} {ch : Chain El cls x z} {s t : Session El cls} {c : El (cls x)}
    {e : El (cls z)}, ch.Unpacks s c t e → ∀ {r : Ref El (cls x)}, s.Has x r c →
      (Session.ownership El cls Out).after s ch.unpack = t.own z e
  | _, _, .single l, s, _, _, _, h, r, hx => by
    rw [h.2]
    exact congrArg Prod.fst (l.ownStep_take hx h.1)
  | _, _, @cons _ _ _ _ _ y _ l rest, s, t, _, _, h, r, hx => by
    obtain ⟨d, hd, hrest⟩ := h
    have hstep : ((Session.ownership El cls Out).step s l.take).1 = s.own y d :=
      congrArg Prod.fst (l.ownStep_take hx hd)
    unfold unpack
    rw [Machine.after_cons, hstep]
    exact hrest.after_unpack (Session.has_own_self s y d)

end Unpacks

variable (Out) in
theorem exists_unpacks :
    ∀ {x z : Var} (ch : Chain El cls x z) {s : Session El cls} {r : Ref El (cls x)} {c : El (cls x)},
      s.Has x r c → (∀ o ∈ (Session.ownership El cls Out).outputs s ch.unpack, o = .ok none) →
        ∃ t e, ch.Unpacks s c t e
  | _, _, .single l, s, r, c, hx, h => by
    obtain ⟨a, hreach⟩ := l.exists_of_take (h _ List.mem_cons_self)
    rw [hx.reach] at hreach
    cases hd : l.path.look c with
    | error f =>
      rw [hd] at hreach
      cases hreach
    | ok d => exact ⟨s, d, hd, rfl⟩
  | _, _, @cons _ _ _ _ _ y _ l rest, s, r, c, hx, h => by
    obtain ⟨a, hreach⟩ := l.exists_of_take (h _ List.mem_cons_self)
    rw [hx.reach] at hreach
    cases hd : l.path.look c with
    | error f =>
      rw [hd] at hreach
      cases hreach
    | ok d =>
      have hstep : ((Session.ownership El cls Out).step s l.take).1 = s.own y d :=
        congrArg Prod.fst (l.ownStep_take hx hd)
      obtain ⟨t, e, hrest⟩ := rest.exists_unpacks (Session.has_own_self s y d) (by
        intro o ho
        refine h o (.tail _ ?_)
        rw [hstep]
        exact ho)
      exact ⟨t, e, d, hd, hrest⟩

variable (Out) in
/-- Whatever the innermost part has become, packing again leaves what one
assignment to the outermost object and unpacking leave. -/
theorem Unpacks.repack : ∀ {x z : Var} {ch : Chain El cls x z} {s t : Session El cls}
    {c : El (cls x)} {e : El (cls z)}, ch.Unpacks s c t e → (x :: ch.names).Nodup →
      ∀ {r : Ref El (cls x)}, s.Has x r c → ∀ e', ∃ a u' c' t',
        (Session.ownership El cls Out).after (t.own z e') ch.repack = t'.own z e' ∧
        (∀ o ∈ (Session.ownership El cls Out).outputs (t.own z e') ch.repack, o = .ok none) ∧
        s.ownStep (ch.head.2.assign a : Statement El cls Out) =
          (s.put r ch.head.2.member u', .ok none) ∧
        (s.put r ch.head.2.member u').Has x r c' ∧
        ch.Unpacks (s.put r ch.head.2.member u') c' t' e'
  | x, z, .single l, s, _, c, e, h, hn, r, hx, e' => by
    obtain ⟨hlook, ht⟩ := h
    have hxz : x ≠ z := by simpa [names] using hn
    obtain ⟨a, u', c', hc', hwrite⟩ := l.exists_write Out hlook e'
    obtain ⟨hput, hassign, -⟩ := hwrite s r hx
    obtain ⟨-, -, hback⟩ := hwrite _ r (hx.own hxz e')
    have hstep := hback _ (Session.has_own_self s z e')
    rw [Session.own_put hx.value] at hstep
    rw [ht]
    refine ⟨a, u', c', _, congrArg Prod.fst hstep, ?_, hassign, hput, hc', rfl⟩
    intro o ho
    rw [List.mem_singleton.mp ho]
    exact congrArg Prod.snd hstep
  | x, z, @cons _ _ _ _ _ y _ l rest, s, t, c, e, h, hn, r, hx, e' => by
    obtain ⟨d, hd, hrest⟩ := h
    have hn' : x ≠ y ∧ x ∉ rest.names ∧ (y :: rest.names).Nodup := by
      simpa [names, and_assoc] using hn
    obtain ⟨a₂, u₂, d', t₂, hafter, hout, -, hhas, hrest'⟩ :=
      hrest.repack hn'.2.2 (Session.has_own_self s y d) e'
    obtain ⟨m, hm⟩ := Option.isSome_iff_exists.mp rest.head.2.reference
    rw [Session.put_own_self s d rest.head.2.member hm u₂] at hhas hrest'
    have hd' : m.set d u₂ = d' := (Session.has_own_self s y _).value_eq hhas
    rw [hd'] at hrest'
    obtain ⟨a, u', c', hc', hwrite⟩ := l.exists_write Out hd d'
    obtain ⟨hput, hassign, -⟩ := hwrite s r hx
    have hy : y ∉ rest.names := (List.nodup_cons.mp hn'.2.2).1
    obtain ⟨-, -, hback⟩ := hwrite _ r (hrest'.has hn'.2.1 (hx.own hn'.1 d') e')
    have hstep := hback _ (hrest'.has hy (Session.has_own_self s y d') e')
    have hload : (s.own y d').heap.load r = some c := Heap.load_append hx.value _
    rw [Session.own_put (hrest'.load hload)] at hstep
    have hput' := hrest'.put hload l.member u'
    rw [Session.own_put hx.value] at hput'
    refine ⟨a, u', c', _, ?_, ?_, hassign, hput, d', hc', hput'⟩
    · unfold Chain.repack
      rw [Machine.after_append, hafter]
      exact congrArg Prod.fst hstep
    · unfold Chain.repack
      rw [Machine.outputs_append, hafter]
      intro o ho
      rcases List.mem_append.mp ho with ho | ho
      · exact hout o ho
      · rw [List.mem_singleton.mp ho]
        exact congrArg Prod.snd hstep

end Chain

variable [DecidableEq Var]

def Session.behind (prog : List (Statement El cls Out)) : Session El cls :=
  (machine El cls Out).after (empty El cls) prog

theorem outputs_behind (prog rest : List (Statement El cls Out)) :
    (Session.machine El cls Out).outputs (Session.behind prog) rest =
      (Session.ownership El cls Out).outputs
        ((Session.ownership El cls Out).after (Session.empty El cls) prog) rest :=
  (machine_simulates El cls Out).outputs rest (represents_after prog)

theorem step_behind (prog : List (Statement El cls Out)) (st : Statement El cls Out) :
    ((Session.machine El cls Out).step (Session.behind prog) st).2 =
      (((Session.ownership El cls Out).after (Session.empty El cls) prog).ownStep st).2 :=
  ((machine_simulates El cls Out) _ _ st (represents_after prog)).1

theorem Chain.exists_has (ch : Chain El cls x z) {s : Session El cls}
    (h : ∀ o ∈ (Session.ownership El cls Out).outputs s ch.unpack, o = .ok none) :
    ∃ r c, s.Has x r c := by
  have hhead : ∃ a, s.reach x ch.head.2.path = .ok a := by
    cases ch with
    | single l => exact l.exists_of_take (h _ List.mem_cons_self)
    | cons l rest => exact l.exists_of_take (h _ List.mem_cons_self)
  obtain ⟨a, hreach⟩ := hhead
  exact Session.exists_has_of_reach hreach

end

/-! ## Parts of the bound classes -/

/-- `l[i] = a` -/
def setItem {α : Type} (l : List α) (i : Int) (a : α) : Except PyErr (List α) :=
  if pyPosition l.length i < l.length then .ok (l.set (pyPosition l.length i) a)
  else .error .indexError

def encodeSmartRef {T V Obj : Type} (extract : Obj → Conversion V) (member : Member T V) (v : Obj) :
    Call T Unit :=
  convertThen (extract v) fun v obj => member.set obj v

section
variable {Ty Var : Type} {El : Ty → Type} {cls : Var → Ty} {x y : Var} {s t : Ty}

namespace Link

variable (q : Path El (cls x) t) (hq : q.ByReference)

def optional (member : Member (El t) (Option (El (cls y)))) : Link El cls x y where
  member := q
  part := .cons (.optional member) .nil
  rebuild _ d := .ok d
  set := encodeOptionalType (fun d => .built d none) member
  reference := hq
  copies := rfl
  back := by
    intro u d d' _
    refine ⟨d', member.set u (some d'), rfl, rfl, ?_⟩
    simp [Path.look, Step.look, bind, Except.bind]

def smartRef (member : Member (El t) (El (cls y))) : Link El cls x y where
  member := q
  part := .cons (.smartRef member) .nil
  rebuild _ d := .ok d
  set := encodeSmartRef (fun d => .built d none) member
  reference := hq
  copies := rfl
  back := by
    intro u d d' _
    refine ⟨d', member.set u d', rfl, rfl, ?_⟩
    simp [Path.look, Step.look, bind, Except.bind]

/-- An element of a list attribute, or what a path leads to in it. -/
def element {W Obj : Type} (container : Member (El t) (List W)) (value : W → El s) (i : Int)
    (inner : Path El s (cls y)) (toPython : W → Obj) (make : El (cls y) → Except PyErr Obj)
    (set : List Obj → Call (El t) Unit)
    (hmake : ∀ d, ∃ w, make d = .ok (toPython w) ∧ inner.look (value w) = .ok d)
    (hset : ∀ c u, (set (c.map toPython)).run ⟨{}, u⟩ = .ok () ⟨{}, container.set u c⟩) :
    Link El cls x y where
  member := q
  part := .cons (.element container value i) inner
  rebuild u d := do
    let o ← make d
    setItem ((container.get u).map toPython) i o
  set := set
  reference := hq
  copies := rfl
  back := by
    intro u d d' hlook
    obtain ⟨w, hw, hinner⟩ := hmake d'
    have hlt : pyPosition (container.get u).length i < (container.get u).length := by
      by_contra hge
      have hnone : pyIndex (container.get u) i = none :=
        List.getElem?_eq_none_iff.mpr (Nat.le_of_not_lt hge)
      unfold Path.look Step.look at hlook
      simp only [hnone] at hlook
      cases hlook
    have hindex : pyIndex ((container.get u).set (pyPosition (container.get u).length i) w) i =
        some w := by
      unfold pyIndex
      rw [List.length_set]
      exact List.getElem?_set_self hlt
    refine ⟨((container.get u).set (pyPosition (container.get u).length i) w).map toPython, _, ?_,
      hset _ u, ?_⟩
    · rw [hw]
      show setItem _ i _ = _
      unfold setItem
      rw [List.length_map, if_pos hlt, List.map_set]
    · unfold Path.look Step.look
      simp only [Member.get_set, hindex]
      exact hinner

end Link

end

namespace BoundClass

variable {P : Type} {F : OpClass → Type} (tag : OpClass → Nat)

def newOperation (p : Payload (OpFields F)) : Except PyErr (OpObj (OpFields F)) := do
  let op ← (operationClass (OpFields F) tag).make (.payload p)
  return .variant op

theorem exists_operation {c : BoundClass} {get : Operation (OpFields F) → Option (Value P F c)}
    {p : Payload (OpFields F)} {d : Value P F c}
    (hget : get ((operationClass (OpFields F) tag).wrap p) = some d) :
    ∃ op, newOperation tag p = .ok (.variant op) ∧
      (Path.cons (.alternative Operation.which (tag p.cls) get) .nil :
        Path (Value P F) operation c).look op = .ok d := by
  refine ⟨(operationClass (OpFields F) tag).wrap p, ?_, ?_⟩
  · unfold newOperation
    rw [make_operation]
    rfl
  · have hwhich : Operation.which ((operationClass (OpFields F) tag).wrap p) = tag p.cls := rfl
    unfold Path.look Step.look
    simp only [hwhich, if_pos, hget]
    rfl

def memoLink : Link (Value P F) (fun c => c) transfer memo :=
  .optional .nil rfl TransferOperation.memoMember

def currentFeesLink : Link (Value P F) (fun c => c) chainParameters feeSchedule :=
  .smartRef .nil rfl ChainParameters.currentFeesMember

variable [Inhabited (Operation (OpFields F))]

theorem decodeProposedOperations_map_run (c : List (OpWrapper (OpFields F)))
    (u : ProposalCreateOperation (OpFields F)) :
    (decodeProposedOperations (c.map fun w => .variant w.op)).run ⟨{}, u⟩ =
      .ok () ⟨{}, ProposalCreateOperation.proposedOpsMember.set u c⟩ := by
  rw [decodeProposedOperations_eq]
  refine decodeList_map_run extractOpWrapper ProposalCreateOperation.proposedOpsMember ?_ c _
  intro w
  cases w
  rfl

/-- `trx.operations[i].proposal_create` -/
def proposalLink (i : Int) : Link (Value P F) (fun c => c) transaction createProposal :=
  .element .nil rfl Transaction.operationsMember id i (.cons (proposalCreate tag) .nil) .variant
    (fun op => newOperation tag op.toPayload) Transaction.setOperations
    (fun _ => exists_operation tag rfl)
    fun c _ => decodeList_map_run extractOperation Transaction.operationsMember (fun _ => rfl) c _

/-- `op.proposed_operations[i].transfer` -/
def proposedTransferLink (i : Int) : Link (Value P F) (fun c => c) createProposal transfer :=
  .element .nil rfl ProposalCreateOperation.proposedOpsMember OpWrapper.op i
    (.cons (transferAlternative tag) .nil) (fun w => .variant w.op)
    (fun tr => newOperation tag (.plain .transferOperation OpClass.noConfusion tr))
    decodeProposedOperations
    (fun tr => by
      have hget : getTransfer ((operationClass (OpFields F) tag).wrap
          (.plain .transferOperation OpClass.noConfusion tr)) = some tr := rfl
      obtain ⟨op, hmake, hlook⟩ := exists_operation (P := P) (c := transfer) tag hget
      exact ⟨⟨op⟩, hmake, hlook⟩)
    decodeProposedOperations_map_run

end BoundClass

/-! ### A memo in a proposal in a transaction -/

section

open BoundClass

/-- `trx.operations[0].proposal_create.proposed_operations[0].transfer.memo` -/
def proposedMemo : Chain SampleValue (fun c : BoundClass => c) transaction memo :=
  .cons (proposalLink classIndex 0) (.cons (proposedTransferLink classIndex 0) (.single memoLink))

def proposedTransfer : Operation (OpFields fun _ => Unit) :=
  .mk (classIndex .transferOperation)
    (.plain .transferOperation OpClass.noConfusion transferWithMemo)

/-- `trx = Transaction()` with a proposal of a transfer. -/
def createProposing : SampleStatement :=
  .create transaction (.value ⟨0, 0, 0, [.mk (classIndex .proposalCreateOperation)
    (.proposalCreate ⟨⟨0, 0⟩, 1, 0, none⟩ [⟨proposedTransfer⟩])]⟩)

def changeNonce : SampleStatement := .assign memo .nil nonceAttribute.set (.value (.int 7))

def nonceOf (m : SampleValue memo) : Except PyErr Int := .ok (MemoData.nonce m).val

theorem proposedMemo_unpacked : ∀ o ∈ sampleMachine.outputs (Session.behind [createProposing])
    proposedMemo.unpack, o = .ok none := by
  have hout : sampleMachine.outputs (Session.behind [createProposing]) proposedMemo.unpack =
      [.ok none, .ok none, .ok none] := rfl
  rw [hout]
  simp

/-- `fees = params.current_fees; fees.scale = 7; params.current_fees = fees` -/
def rescaleFees : List SampleStatement :=
  (Chain.single currentFeesLink).unpack ++
    (.assign feeSchedule .nil scaleAttribute.set (.value (.int 7)) ::
      (Chain.single currentFeesLink).repack)

def scaleOf (s : SampleValue feeSchedule) : Except PyErr Int := .ok (FeeSchedule.scale s).val

example :
    (sampleMachine.step (Session.behind
        (.create chainParameters (.value (parametersEvery 86400)) :: rescaleFees))
      (.print (.apply (.value scaleOf) (.object chainParameters currentFeesLink.path)))).2 =
        .ok (some 7) := rfl

end

end DCore
