import DCorePython.Sessions

/-!
# Ownership

What a program does without the cells that getters leave behind: a name owns the
object it was bound to or shares a part of one, a copying getter gives the value
as it is, and a write behind a copying getter is not kept. A method that writes
an argument keeps its write if the argument is no copy, wherever its own object
stands. Programs cannot tell this machine from the one with the heap.
-/

namespace DCore

open Loop Call

section
variable {Ty Var : Type} {El : Ty → Type} {cls : Var → Ty} {Out α : Type} [DecidableEq Ty]

namespace Session

/-- The object of a name, and the value that a path leads to from there. -/
def reach (s : Session El cls) (x : Var) {t : Ty} (p : Path El (cls x) t) :
    Except Fault (Ref El (cls x) × El t) :=
  match s.names x with
  | none => .error .nameError
  | some r =>
    match s.heap.load r with
    | some c => (toFault (p.look c)).map fun d => (r, d)
    | none => .error (.raised .runtimeError)

def look (s : Session El cls) : {α : Type} → Expr El cls α → Except Fault α
  | _, .value a => .ok a
  | _, .object x path => (s.reach x path).map Prod.snd
  | _, .apply f e => do
    let g ← s.look f
    let a ← s.look e
    toFault (g a)

/-- Write `d` to what the path leads to, when that is a part of the object. -/
def put (s : Session El cls) {t u : Ty} (r : Ref El t) (p : Path El t u) (d : El u) :
    Session El cls :=
  match p.through? with
  | some m => { s with heap := s.heap.store (r.through m) d }
  | none => s

def orFault {β : Type} (s : Session El cls) (f : α → Session El cls × Except Fault β) :
    Except Fault α → Session El cls × Except Fault β
  | .ok a => f a
  | .error e => (s, .error e)

def write (s : Session El cls) {t u : Ty} (r : Ref El t) (p : Path El t u) (d : El u)
    (c : Call (El u) Unit) : Session El cls × Except Fault (Option Out) :=
  let out := settle ((lift c).run ⟨{}, d⟩)
  (s.put r p out.1, out.2.map fun _ => none)

variable [DecidableEq Var]

def own (s : Session El cls) (y : Var) (c : El (cls y)) : Session El cls :=
  ⟨s.heap.alloc c, Names.set s.names y (Ref.next s.heap (cls y))⟩

/-- The name `y` shares a part of an object, or owns `d`. -/
def share (s : Session El cls) (y : Var) {t : Ty} (r : Ref El t) (p : Path El t (cls y))
    (d : El (cls y)) : Session El cls :=
  match p.through? with
  | some m => { s with names := Names.set s.names y (r.through m) }
  | none => s.own y d

def ownStep (s : Session El cls) :
    Statement El cls Out → Session El cls × Except Fault (Option Out)
  | .print e => (s, (s.look e).map some)
  | .bind y x path => s.orFault (fun a => (s.share y a.1 path a.2, .ok none)) (s.reach x path)
  | .create y e => s.orFault (fun c => (s.own y c, .ok none)) (s.look e)
  | .assign x path set e =>
    s.orFault (fun v => s.orFault (fun a => s.write a.1 path a.2 (set v)) (s.reach x path))
      (s.look e)
  | .call x path method e =>
    s.orFault (fun a => s.orFault (fun v => s.write a.1 path a.2 (method v)) (s.look e))
      (s.reach x path)
  | .pass x path y arg method e =>
    s.orFault (fun c => s.orFault (fun a => s.orFault (fun v =>
      s.write a.1 arg a.2 (method c.2 v)) (s.look e)) (s.reach y arg)) (s.reach x path)

variable (El cls Out) in
def ownership : Machine (Session El cls) (Statement El cls Out) (Except Fault (Option Out)) where
  step := ownStep

inductive Effect (s : Session El cls) : Statement El cls Out → Session El cls → Prop
  | none {st : Statement El cls Out} : Effect s st s
  | share {y x : Var} {p : Path El (cls x) (cls y)} {r : Ref El (cls x)} {d : El (cls y)}
    (h : s.reach x p = .ok (r, d)) : Effect s (.bind y x p) (s.share y r p d)
  | own {y : Var} {e : Expr El cls (El (cls y))} (c : El (cls y)) :
    Effect s (.create y e) (s.own y c)
  | put {st : Statement El cls Out} {x : Var} {t : Ty} {p : Path El (cls x) t}
    {r : Ref El (cls x)} {d : El t} (hst : st.target? = some ⟨x, t, p⟩)
    (h : s.reach x p = .ok (r, d)) (d' : El t) : Effect s st (s.put r p d')

theorem ownership_effect (s : Session El cls) (st : Statement El cls Out) :
    s.Effect st (s.ownStep st).1 := by
  cases st with
  | print e => exact .none
  | bind y x p =>
    simp only [ownStep]
    cases hreach : s.reach x p with
    | error f => exact .none
    | ok a => exact .share hreach
  | create y e =>
    simp only [ownStep]
    cases s.look e with
    | error f => exact .none
    | ok c => exact .own c
  | assign x p set e =>
    simp only [ownStep]
    cases s.look e with
    | error f => exact .none
    | ok v =>
      cases hreach : s.reach x p with
      | error f => exact .none
      | ok a => exact .put rfl hreach _
  | call x p method e =>
    simp only [ownStep]
    cases hreach : s.reach x p with
    | error f => exact .none
    | ok a =>
      cases s.look e with
      | error f => exact .none
      | ok v => exact .put rfl hreach _
  | pass x p y q method e =>
    simp only [ownStep]
    cases s.reach x p with
    | error f => exact .none
    | ok c =>
      simp only [orFault]
      cases hreach : s.reach y q with
      | error f => exact .none
      | ok a =>
        cases s.look e with
        | error f => exact .none
        | ok v => exact .put rfl hreach _

end Session

end

section
variable {Ty : Type} {El : Ty → Type} {s t : Ty}

/-- `r'` is the place of the part of `r` that the path leads to, or a cell that
is nobody's place. -/
structure Target (P : Places El) (r : Ref El s) (p : Path El s t) (r' : Ref El t) : Prop where
  part : ∀ m, p.through? = some m → P.Stands (r.through m) r'
  copy : p.through? = none → ∀ q ∈ P, q.2.addr ≠ r'.addr

end

theorem Yields.lift {Ty : Type} {El : Ty → Type} {α : Type} {c : Call (Heap El) α}
    {b : Bound (Heap El)} {x : Except PyErr α} (h : Yields c b x) :
    Yields (DCore.lift c) b (toFault x) := by
  obtain ⟨cells, hrun⟩ := h
  refine ⟨cells, ?_⟩
  cases x with
  | ok a => exact lift_run_ok hrun
  | error e => exact lift_run_error hrun

theorem Yields.settle {Ty : Type} {El : Ty → Type} {α : Type}
    {c : EStateM Fault (Bound (Heap El)) α} {h : Heap El} {x : Except Fault α}
    (hc : Yields c ⟨{}, h⟩ x) : ∃ cells, DCore.settle (c.run ⟨{}, h⟩) = (h ++ cells, x) := by
  obtain ⟨cells, hrun⟩ := hc
  exact ⟨cells, by rw [hrun, settle_ended]⟩

section
variable {Ty Var : Type} {El : Ty → Type} {cls : Var → Ty} {Out : Type} [DecidableEq Ty]
  {P : Places El} {A S : Session El cls} {names : Names El cls} {H : Heap El}

/-- Names of the ownership machine and of the heap refer to the same objects. -/
structure SameObjects (P : Places El) (A : Session El cls) (names : Names El cls) : Prop where
  unnamed : ∀ {x}, A.names x = none → names x = none
  named : ∀ {x r}, A.names x = some r →
    ∃ r' c, names x = some r' ∧ P.Stands r r' ∧ A.heap.load r = some c

def Represents (P : Places El) (A S : Session El cls) : Prop :=
  Heap.Located P A.heap S.heap ∧ SameObjects P A S.names

theorem follow_of_reach {b : Bound (Heap El)} (hloc : Heap.Located P A.heap b.obj)
    (hn : SameObjects P A names) {x : Var} {t : Ty} {p : Path El (cls x) t}
    {r : Ref El (cls x)} {d : El t} (h : A.reach x p = .ok (r, d)) :
    ∃ r' cells, (names.follow x p).run b = .ok r' ⟨b.interp, b.obj ++ cells⟩ ∧
      (b.obj ++ cells).load r' = some d ∧ Target P r p r' ∧ ∃ c, A.heap.load r = some c := by
  unfold Session.reach at h
  cases hx : A.names x with
  | none =>
    rw [hx] at h
    cases h
  | some r₁ =>
    obtain ⟨r₀, c, hname, hstands, hc⟩ := hn.named hx
    simp only [hx, hc] at h
    cases hlook : p.look c with
    | error e =>
      rw [hlook] at h
      cases h
    | ok d₁ =>
      rw [hlook] at h
      cases h
      obtain ⟨r', cells, hrun, hleads⟩ :=
        p.eval_run (hloc.load hstands hc) (Path.view_of_look hlook) b.interp
      refine ⟨r', cells, ?_, hleads.value, ⟨?_, ?_⟩, c, hc⟩
      · unfold Names.follow Names.resolve
        simp only [hname]
        exact lift_run_ok hrun
      · intro m hm
        obtain ⟨q, hq, rfl⟩ := hstands
        rw [(hleads.through m hm).1]
        exact ⟨q, hq, rfl⟩
      · intro hnone q hq
        have hlt := hloc.addr_lt hq
        have hle := hleads.copied hnone
        omega

theorem follow_yields_error {b : Bound (Heap El)} (hloc : Heap.Located P A.heap b.obj)
    (hn : SameObjects P A names) {x : Var} {t : Ty} {p : Path El (cls x) t} {f : Fault}
    (h : A.reach x p = .error f) : Yields (names.follow x p) b (.error f) := by
  unfold Session.reach at h
  cases hx : A.names x with
  | none =>
    rw [hx] at h
    cases h
    refine .of_run ?_
    unfold Names.follow Names.resolve
    rw [hn.unnamed hx]
    rfl
  | some r₁ =>
    obtain ⟨r₀, c, hname, hstands, hc⟩ := hn.named hx
    simp only [hx, hc] at h
    cases hlook : p.look c with
    | ok d =>
      rw [hlook] at h
      cases h
    | error e =>
      rw [hlook] at h
      cases h
      have herr := (p.eval_error (hloc.load hstands hc) hlook).lift
      unfold Names.follow Names.resolve
      simp only [hname]
      exact herr

theorem eval_yields : ∀ {α : Type} (e : Expr El cls α) {b : Bound (Heap El)},
    Heap.Located P A.heap b.obj → SameObjects P A names → Yields (e.eval names) b (A.look e)
  | _, .value a, b, _, _ => .of_run rfl
  | _, .object x path, b, hloc, hn => by
    unfold Session.look Expr.eval
    cases hreach : A.reach x path with
    | error f =>
      obtain ⟨cells, hrun⟩ := follow_yields_error hloc hn hreach
      exact ⟨cells, run_bind_error hrun⟩
    | ok a =>
      obtain ⟨r', cells, hrun, hload, -, -⟩ := follow_of_reach hloc hn hreach
      refine ⟨cells, ?_⟩
      rw [run_bind_ok hrun]
      exact lift_run_ok (load_run hload b.interp)
  | _, .apply f e, b, hloc, hn => by
    unfold Session.look Expr.eval
    refine (eval_yields f hloc hn).bind ?_
    intro g cells hg
    refine (eval_yields e (hloc.append cells) hn).bind ?_
    intro a cells' ha
    refine Yields.lift (.of_run ?_)
    cases g a <;> rfl

theorem Represents.append (h : Represents P A S) (cells : Heap El) :
    Represents P A ⟨S.heap ++ cells, S.names⟩ := ⟨h.1.append cells, h.2⟩

theorem put_represents (hloc : Heap.Located P A.heap H) (hn : SameObjects P A names) {t u : Ty}
    {r : Ref El t} {p : Path El t u} {r' : Ref El u} {c : El t}
    (hc : A.heap.load r = some c) (ht : Target P r p r') (d' : El u) :
    Represents P (A.put r p d') ⟨H.store r' d', names⟩ := by
  unfold Session.put
  cases hm : p.through? with
  | none => exact ⟨hloc.store_of_ne (ht.copy hm) d', hn⟩
  | some m =>
    have hpart : A.heap.load (r.through m) = some (m.get c) := by
      rw [Heap.load_through, hc]
      rfl
    refine ⟨hloc.store (ht.part m hm) hpart d', hn.unnamed, ?_⟩
    intro x r₁ hx
    obtain ⟨r₂, c₁, hname, hstands, hload⟩ := hn.named hx
    obtain ⟨c₂, hload'⟩ := Heap.exists_load_store hload (r.through m) d'
    exact ⟨r₂, c₂, hname, hstands, hload'⟩

theorem represents_empty : Represents [] (Session.empty El cls) (Session.empty El cls) := by
  refine ⟨⟨rfl, ?_, .nil⟩, fun _ => rfl, ?_⟩
  · intro a t x h
    cases h
  · intro x r h
    cases h

variable [DecidableEq Var]

theorem SameObjects.set (hn : SameObjects P A names) {y : Var} {r r' : Ref El (cls y)}
    (hr : P.Stands r r') (hc : ∃ c, A.heap.load r = some c) :
    SameObjects P ⟨A.heap, Names.set A.names y r⟩ (names.set y r') := by
  refine ⟨?_, ?_⟩
  · intro x hx
    simp only at hx
    by_cases hxy : x = y
    · subst hxy
      rw [Names.set_self] at hx
      cases hx
    · rw [Names.set_of_ne _ hxy] at hx ⊢
      exact hn.unnamed hx
  · intro x r₁ hx
    simp only at hx
    by_cases hxy : x = y
    · subst hxy
      rw [Names.set_self] at hx ⊢
      cases hx
      obtain ⟨c, hc⟩ := hc
      exact ⟨r', c, rfl, hr, hc⟩
    · rw [Names.set_of_ne _ hxy] at hx ⊢
      exact hn.named hx

theorem own_represents (hloc : Heap.Located P A.heap H) (hn : SameObjects P A names) {y : Var}
    {r' : Ref El (cls y)} {d : El (cls y)} (hd : H.load r' = some d)
    (hnew : ∀ q ∈ P, q.2.addr ≠ r'.addr) :
    Represents (P ++ [⟨cls y, r'⟩]) (A.own y d) ⟨H, names.set y r'⟩ := by
  have hgrown : SameObjects (P ++ [⟨cls y, r'⟩]) ⟨A.heap.alloc d, A.names⟩ names := by
    refine ⟨hn.unnamed, ?_⟩
    intro x r hx
    obtain ⟨r₁, c, hname, ⟨q, hq, hr₁⟩, hload⟩ := hn.named hx
    have hlt : r.addr < P.length := (List.getElem?_eq_some_iff.mp hq).1
    exact ⟨r₁, c, hname, ⟨q, by rw [List.getElem?_append_left hlt, hq], hr₁⟩,
      Heap.load_append hload _⟩
  refine ⟨hloc.alloc hd hnew, hgrown.set ?_ ⟨d, Heap.load_next A.heap d⟩⟩
  refine ⟨r', ?_, rfl⟩
  show (P ++ _)[A.heap.length]? = _
  rw [← hloc.length_eq, List.getElem?_concat_length]
  rfl

theorem share_represents (hloc : Heap.Located P A.heap H) (hn : SameObjects P A names) {y : Var}
    {t : Ty} {r : Ref El t} {p : Path El t (cls y)} {r' : Ref El (cls y)} {c : El t}
    {d : El (cls y)} (hc : A.heap.load r = some c) (hd : H.load r' = some d)
    (ht : Target P r p r') : ∃ P', Represents P' (A.share y r p d) ⟨H, names.set y r'⟩ := by
  unfold Session.share
  cases hm : p.through? with
  | none => exact ⟨_, own_represents hloc hn hd (ht.copy hm)⟩
  | some m =>
    refine ⟨P, hloc, hn.set (ht.part m hm) ⟨m.get c, ?_⟩⟩
    rw [Heap.load_through, hc]
    rfl

/-! ### Steps -/

theorem onRef_settle {t : Ty} {r : Ref El t} {d : El t} (hd : H.load r = some d)
    (c : Call (El t) Unit) :
    settle ((lift (onRef r c)).run ⟨{}, H⟩) =
      (H.store r (settle ((lift c).run ⟨{}, d⟩)).1, (settle ((lift c).run ⟨{}, d⟩)).2) := by
  cases hc : c.run ⟨{}, d⟩ with
  | error e b =>
    have hrun : (onRef r c).run ⟨{}, H⟩ = .error e ⟨b.interp, H.store r b.obj⟩ := by
      show onRef r c ⟨{}, H⟩ = _
      unfold onRef
      simp only [hd, hc]
    rw [lift_run_error hrun, lift_run_error hc]
    rfl
  | ok u b =>
    have hrun : (onRef r c).run ⟨{}, H⟩ = .ok () ⟨b.interp, H.store r b.obj⟩ := by
      show onRef r c ⟨{}, H⟩ = _
      unfold onRef
      simp only [hd, hc]
    rw [lift_run_ok hrun, lift_run_ok hc]
    obtain ⟨⟨pending⟩, d'⟩ := b
    cases pending <;> rfl

def Agree (x y : Session El cls × Except Fault (Option Out)) : Prop :=
  x.2 = y.2 ∧ ∃ P, Represents P y.1 x.1

theorem agree_of_yields {st : Statement El cls Out} (h : Represents P A S) {f : Fault}
    (hst : Yields (st.exec S.names) ⟨{}, S.heap⟩ (.error f)) :
    Agree ((Session.machine El cls Out).step S st) (A, .error f) := by
  obtain ⟨cells, hsettle⟩ := hst.settle
  have hstep : (Session.machine El cls Out).step S st = (⟨S.heap ++ cells, S.names⟩, .error f) := by
    unfold Session.machine
    simp only [hsettle]
    rfl
  rw [hstep]
  exact ⟨rfl, P, h.append cells⟩

theorem step_of_run {st : Statement El cls Out} {o : Option Out} {names' : Names El cls}
    (hst : (st.exec S.names).run ⟨{}, S.heap⟩ = .ok (o, names') ⟨{}, H⟩) :
    (Session.machine El cls Out).step S st = (⟨H, names'⟩, .ok o) := by
  unfold Session.machine
  simp only [hst]
  rfl

theorem step_of_onRef {st : Statement El cls Out} {t : Ty} {r : Ref El t} {d : El t}
    (hd : H.load r = some d) (c : Call (El t) Unit)
    (hst : (st.exec S.names).run ⟨{}, S.heap⟩ =
      (do lift (onRef r c); pure (none, S.names) : EStateM Fault _ _).run ⟨{}, H⟩) :
    (Session.machine El cls Out).step S st =
      (⟨H.store r (settle ((lift c).run ⟨{}, d⟩)).1, S.names⟩,
        (settle ((lift c).run ⟨{}, d⟩)).2.map fun _ => none) := by
  unfold Session.machine
  simp only [hst, settle_bind_pure, onRef_settle hd]
  cases (settle ((lift c).run ⟨{}, d⟩)).2 <;> rfl

theorem agree_print (h : Represents P A S) (e : Expr El cls Out) :
    Agree ((Session.machine El cls Out).step S (.print e))
      ((Session.ownership El cls Out).step A (.print e)) := by
  obtain ⟨cells, hrun⟩ := eval_yields e h.1 h.2 (b := ⟨{}, S.heap⟩)
  have hown : (Session.ownership El cls Out).step A (.print e) = (A, (A.look e).map some) := rfl
  rw [hown]
  cases hlook : A.look e with
  | error f =>
    rw [hlook] at hrun
    exact agree_of_yields h ⟨cells, run_bind_error hrun⟩
  | ok o =>
    rw [hlook] at hrun
    have hstep : ((Statement.print e).exec S.names).run ⟨{}, S.heap⟩ =
        .ok (some o, S.names) ⟨{}, S.heap ++ cells⟩ := run_bind_ok hrun
    rw [step_of_run hstep]
    exact ⟨rfl, P, h.append cells⟩

theorem agree_bind (h : Represents P A S) (y x : Var) (p : Path El (cls x) (cls y)) :
    Agree ((Session.machine El cls Out).step S (.bind y x p))
      ((Session.ownership El cls Out).step A (.bind y x p)) := by
  cases hreach : A.reach x p with
  | error f =>
    have hown : (Session.ownership El cls Out).step A (.bind y x p) = (A, .error f) := by
      simp only [Session.ownership, Session.ownStep, hreach]
      rfl
    rw [hown]
    exact agree_of_yields h (.stop (follow_yields_error h.1 h.2 hreach))
  | ok a =>
    obtain ⟨r', cells, hrun, hload, ht, c, hc⟩ :=
      follow_of_reach h.1 h.2 hreach (b := ⟨{}, S.heap⟩)
    have hown : (Session.ownership El cls Out).step A (.bind y x p) =
        (A.share y a.1 p a.2, .ok none) := by
      simp only [Session.ownership, Session.ownStep, hreach]
      rfl
    have hstep : ((Statement.bind y x p : Statement El cls Out).exec S.names).run ⟨{}, S.heap⟩ =
        .ok (none, S.names.set y r') ⟨{}, S.heap ++ cells⟩ := run_bind_ok hrun
    rw [hown, step_of_run hstep]
    exact ⟨rfl, share_represents (h.1.append cells) h.2 hc hload ht⟩

theorem agree_create (h : Represents P A S) (y : Var) (e : Expr El cls (El (cls y))) :
    Agree ((Session.machine El cls Out).step S (.create y e))
      ((Session.ownership El cls Out).step A (.create y e)) := by
  obtain ⟨cells, hrun⟩ := eval_yields e h.1 h.2 (b := ⟨{}, S.heap⟩)
  cases hlook : A.look e with
  | error f =>
    rw [hlook] at hrun
    have hown : (Session.ownership El cls Out).step A (.create y e) = (A, .error f) := by
      simp only [Session.ownership, Session.ownStep, hlook]
      rfl
    rw [hown]
    exact agree_of_yields h ⟨cells, run_bind_error hrun⟩
  | ok d =>
    rw [hlook] at hrun
    have hown : (Session.ownership El cls Out).step A (.create y e) = (A.own y d, .ok none) := by
      simp only [Session.ownership, Session.ownStep, hlook]
      rfl
    have hstep : ((Statement.create y e : Statement El cls Out).exec S.names).run ⟨{}, S.heap⟩ =
        .ok (none, S.names.set y (Ref.next (S.heap ++ cells) (cls y)))
          ⟨{}, (S.heap ++ cells).alloc d⟩ := run_bind_ok hrun
    rw [hown, step_of_run hstep]
    refine ⟨rfl, _, own_represents ((h.1.append cells).append _) h.2 (Heap.load_next _ d) ?_⟩
    intro q hq
    exact Nat.ne_of_lt ((h.1.append cells).addr_lt hq)

theorem agree_assign (h : Represents P A S) (x : Var) {t : Ty} (p : Path El (cls x) t) {α : Type}
    (set : α → Call (El t) Unit) (e : Expr El cls α) :
    Agree ((Session.machine El cls Out).step S (.assign x p set e))
      ((Session.ownership El cls Out).step A (.assign x p set e)) := by
  obtain ⟨cells, hrun⟩ := eval_yields e h.1 h.2 (b := ⟨{}, S.heap⟩)
  cases hlook : A.look e with
  | error f =>
    rw [hlook] at hrun
    have hown : (Session.ownership El cls Out).step A (.assign x p set e) = (A, .error f) := by
      simp only [Session.ownership, Session.ownStep, hlook]
      rfl
    rw [hown]
    exact agree_of_yields h ⟨cells, run_bind_error hrun⟩
  | ok v =>
    rw [hlook] at hrun
    have hloc := h.1.append cells
    cases hreach : A.reach x p with
    | error f =>
      have hown : (Session.ownership El cls Out).step A (.assign x p set e) = (A, .error f) := by
        simp only [Session.ownership, Session.ownStep, hlook, hreach]
        rfl
      rw [hown]
      exact agree_of_yields h (.after hrun (.stop (follow_yields_error hloc h.2 hreach)))
    | ok a =>
      obtain ⟨r', cells', hrun', hload, ht, c, hc⟩ :=
        follow_of_reach hloc h.2 hreach (b := ⟨{}, S.heap ++ cells⟩)
      have hown : (Session.ownership El cls Out).step A (.assign x p set e) =
          A.write a.1 p a.2 (set v) := by
        simp only [Session.ownership, Session.ownStep, hlook, hreach]
        rfl
      rw [hown, step_of_onRef hload (set v)]
      · exact ⟨rfl, P, put_represents (hloc.append cells') h.2 hc ht _⟩
      · unfold Statement.exec
        rw [run_bind_ok hrun, run_bind_ok hrun']

theorem agree_call (h : Represents P A S) (x : Var) {t : Ty} (p : Path El (cls x) t) {α : Type}
    (method : α → Call (El t) Unit) (e : Expr El cls α) :
    Agree ((Session.machine El cls Out).step S (.call x p method e))
      ((Session.ownership El cls Out).step A (.call x p method e)) := by
  cases hreach : A.reach x p with
  | error f =>
    have hown : (Session.ownership El cls Out).step A (.call x p method e) = (A, .error f) := by
      simp only [Session.ownership, Session.ownStep, hreach]
      rfl
    rw [hown]
    exact agree_of_yields h (.stop (follow_yields_error h.1 h.2 hreach))
  | ok a =>
    obtain ⟨r', cells, hrun, hload, ht, c, hc⟩ :=
      follow_of_reach h.1 h.2 hreach (b := ⟨{}, S.heap⟩)
    have hloc := h.1.append cells
    obtain ⟨cells', hrun'⟩ := eval_yields e hloc h.2 (b := ⟨{}, S.heap ++ cells⟩)
    cases hlook : A.look e with
    | error f =>
      rw [hlook] at hrun'
      have hown : (Session.ownership El cls Out).step A (.call x p method e) = (A, .error f) := by
        simp only [Session.ownership, Session.ownStep, hreach, hlook]
        rfl
      rw [hown]
      exact agree_of_yields h (.after hrun (.stop ⟨cells', hrun'⟩))
    | ok v =>
      rw [hlook] at hrun'
      have hown : (Session.ownership El cls Out).step A (.call x p method e) =
          A.write a.1 p a.2 (method v) := by
        simp only [Session.ownership, Session.ownStep, hreach, hlook]
        rfl
      rw [hown, step_of_onRef (Heap.load_append hload cells') (method v)]
      · exact ⟨rfl, P, put_represents (hloc.append cells') h.2 hc ht _⟩
      · unfold Statement.exec
        rw [run_bind_ok hrun, run_bind_ok hrun']

theorem agree_pass (h : Represents P A S) (x : Var) {t : Ty} (p : Path El (cls x) t) (y : Var)
    {u : Ty} (q : Path El (cls y) u) {α : Type} (method : El t → α → Call (El u) Unit)
    (e : Expr El cls α) :
    Agree ((Session.machine El cls Out).step S (.pass x p y q method e))
      ((Session.ownership El cls Out).step A (.pass x p y q method e)) := by
  cases hreach : A.reach x p with
  | error f =>
    have hown : (Session.ownership El cls Out).step A (.pass x p y q method e) =
        (A, .error f) := by
      simp only [Session.ownership, Session.ownStep, hreach]
      rfl
    rw [hown]
    exact agree_of_yields h (.stop (follow_yields_error h.1 h.2 hreach))
  | ok c =>
    obtain ⟨r, cells, hrun, hc, -, -⟩ := follow_of_reach h.1 h.2 hreach (b := ⟨{}, S.heap⟩)
    have hloc := h.1.append cells
    cases hreach' : A.reach y q with
    | error f =>
      have hown : (Session.ownership El cls Out).step A (.pass x p y q method e) =
          (A, .error f) := by
        simp only [Session.ownership, Session.ownStep, hreach, hreach']
        rfl
      rw [hown]
      exact agree_of_yields h (.after hrun (.stop (follow_yields_error hloc h.2 hreach')))
    | ok a =>
      obtain ⟨r', cells', hrun', hload, ht, c', hc'⟩ :=
        follow_of_reach hloc h.2 hreach' (b := ⟨{}, S.heap ++ cells⟩)
      have hloc' := hloc.append cells'
      obtain ⟨cells'', hrun''⟩ :=
        eval_yields e hloc' h.2 (b := ⟨{}, S.heap ++ cells ++ cells'⟩)
      cases hlook : A.look e with
      | error f =>
        rw [hlook] at hrun''
        have hown : (Session.ownership El cls Out).step A (.pass x p y q method e) =
            (A, .error f) := by
          simp only [Session.ownership, Session.ownStep, hreach, hreach', hlook]
          rfl
        rw [hown]
        exact agree_of_yields h (.after hrun (.after hrun' (.stop ⟨cells'', hrun''⟩)))
      | ok v =>
        rw [hlook] at hrun''
        have hown : (Session.ownership El cls Out).step A (.pass x p y q method e) =
            A.write a.1 q a.2 (method c.2 v) := by
          simp only [Session.ownership, Session.ownStep, hreach, hreach', hlook]
          rfl
        -- the cells that the argument's path and `e` leave are behind the object
        have hobj := load_run (Heap.load_append (Heap.load_append hc cells') cells'') {}
        rw [hown, step_of_onRef (Heap.load_append hload cells'') (method c.2 v)]
        · exact ⟨rfl, P, put_represents (hloc'.append cells'') h.2 hc' ht _⟩
        · unfold Statement.exec
          rw [run_bind_ok hrun, run_bind_ok hrun', run_bind_ok hrun'',
            run_bind_ok (lift_run_ok hobj)]

variable (El cls Out) in
theorem machine_simulates :
    (Session.machine El cls Out).Simulates (Session.ownership El cls Out)
      fun S A => ∃ P, Represents P A S := by
  intro S A st h
  obtain ⟨P, h⟩ := h
  cases st with
  | print e => exact agree_print h e
  | bind y x p => exact agree_bind h y x p
  | create y e => exact agree_create h y e
  | assign x p set e => exact agree_assign h x p set e
  | call x p method e => exact agree_call h x p method e
  | pass x p y q method e => exact agree_pass h x p y q method e

theorem represents_after (prog : List (Statement El cls Out)) :
    ∃ P, Represents P ((Session.ownership El cls Out).after (Session.empty El cls) prog)
      ((Session.machine El cls Out).after (Session.empty El cls) prog) :=
  (machine_simulates El cls Out).after prog ⟨[], represents_empty⟩

/-- The statement writes behind a copying getter. -/
def Statement.lost (st : Statement El cls Out) : Bool :=
  match st.target? with
  | some w => w.2.2.through?.isNone
  | none => false

theorem ownership_lost (A : Session El cls) (st : Statement El cls Out) (h : st.lost = true) :
    ((Session.ownership El cls Out).step A st).1 = A := by
  have heffect := A.ownership_effect st
  show (A.ownStep st).1 = A
  generalize (A.ownStep st).1 = A' at heffect ⊢
  unfold Statement.lost at h
  cases heffect with
  | none => rfl
  | share hreach => cases h
  | own c => cases h
  | put hst hreach d' =>
    rw [hst] at h
    unfold Session.put
    rw [Option.isNone_iff_eq_none.mp h]

end

end DCore
