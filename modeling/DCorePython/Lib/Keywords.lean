import Mathlib.Data.List.Basic
import Mathlib.Logic.Relation

/-!
# Arguments by position, keyword and default

A call gives values by position and by keyword; parameters that it leaves out
take their defaults. A call that leaves out a parameter without a default, or
gives one twice, or gives a keyword that no parameter is left for, does not
match.
-/

structure Parameter (α : Type*) where
  name : String
  default? : Option α := none

namespace Parameter

variable {α : Type*}

/-- What a parameter that no position is given for takes. -/
def choose (keywords : List (String × α)) (p : Parameter α) : Option α :=
  (keywords.lookup p.name).or p.default?

def chooseAll (keywords : List (String × α)) : List (Parameter α) → Option (List α)
  | [] => some []
  | p :: ps => do
    let a ← p.choose keywords
    let l ← chooseAll keywords ps
    return a :: l

/-- The arguments, one for each parameter. -/
def bindArgs (params : List (Parameter α)) (positional : List α)
    (keywords : List (String × α)) : Option (List α) :=
  if positional.length ≤ params.length ∧ (params.drop positional.length).countP
      (fun p => (keywords.lookup p.name).isSome) = keywords.length then
    (chooseAll keywords (params.drop positional.length)).map (positional ++ ·)
  else none

variable {params : List (Parameter α)} {positional args : List α} {keywords : List (String × α)}

theorem getElem?_chooseAll :
    ∀ {ps : List (Parameter α)} {l : List α}, chooseAll keywords ps = some l →
      ∀ {j : Nat} {p : Parameter α}, ps[j]? = some p → l[j]? = p.choose keywords
  | [], _, _, j, p, hp => by cases hp
  | q :: ps, l, h, j, p, hp => by
    unfold chooseAll at h
    obtain ⟨a, ha, h⟩ := Option.bind_eq_some_iff.mp h
    obtain ⟨l', hl', h⟩ := Option.bind_eq_some_iff.mp h
    cases h
    cases j with
    | zero =>
      cases hp
      exact ha.symm
    | succ j => exact getElem?_chooseAll hl' hp

theorem length_chooseAll :
    ∀ {ps : List (Parameter α)} {l : List α}, chooseAll keywords ps = some l →
      l.length = ps.length
  | [], _, h => by cases h; rfl
  | q :: ps, l, h => by
    unfold chooseAll at h
    obtain ⟨a, ha, h⟩ := Option.bind_eq_some_iff.mp h
    obtain ⟨l', hl', h⟩ := Option.bind_eq_some_iff.mp h
    cases h
    rw [List.length_cons, List.length_cons, length_chooseAll hl']

theorem bindArgs_positional (h : args.length = params.length) :
    bindArgs params args [] = some args := by
  unfold bindArgs
  rw [h, List.drop_length, if_pos ⟨Nat.le_refl _, rfl⟩]
  exact congrArg some (List.append_nil args)

theorem bindArgs_eq_some (h : bindArgs params positional keywords = some args) :
    positional.length ≤ params.length ∧
      ∃ l, chooseAll keywords (params.drop positional.length) = some l ∧ args = positional ++ l := by
  unfold bindArgs at h
  split at h
  · obtain ⟨l, hl, rfl⟩ := Option.map_eq_some_iff.mp h
    rename_i hc
    exact ⟨hc.1, l, hl, rfl⟩
  · cases h

theorem length_bindArgs (h : bindArgs params positional keywords = some args) :
    args.length = params.length := by
  obtain ⟨hle, l, hl, rfl⟩ := bindArgs_eq_some h
  rw [List.length_append, length_chooseAll hl, List.length_drop]
  omega

/-- Position goes before keyword and keyword before default. -/
theorem getElem?_bindArgs (h : bindArgs params positional keywords = some args) {j : Nat}
    {p : Parameter α} (hp : params[j]? = some p) :
    args[j]? = positional[j]?.or (p.choose keywords) := by
  obtain ⟨hle, l, hl, rfl⟩ := bindArgs_eq_some h
  rcases Nat.lt_or_ge j positional.length with hlt | hge
  · rw [List.getElem?_append_left hlt, List.getElem?_eq_getElem hlt, Option.some_or]
  · have hrest : (params.drop positional.length)[j - positional.length]? = some p := by
      rw [List.getElem?_drop, Nat.add_sub_cancel' hge, hp]
    rw [List.getElem?_append_right hge, getElem?_chooseAll hl hrest, List.getElem?_eq_none hge,
      Option.none_or]

variable {keywords' : List (String × α)}

/-! ## Other spellings of a call -/

/-- The keywords in another order, an argument by keyword instead of by position,
or a default written out. -/
inductive Respells (params : List (Parameter α)) :
    List α × List (String × α) → List α × List (String × α) → Prop
  | permute {l : List α} {kw kw' : List (String × α)} (hperm : kw.Perm kw')
    (hkw : (kw.map Prod.fst).Nodup) : Respells params (l, kw) (l, kw')
  | byName {l : List α} {kw : List (String × α)} {p : Parameter α} (a : α)
    (hp : params[l.length]? = some p) (hkw : p.name ∉ kw.map Prod.fst) :
    Respells params (l ++ [a], kw) (l, (p.name, a) :: kw)
  | byDefault {l : List α} {kw : List (String × α)} {p : Parameter α} {d : α}
    (hp : params[l.length]? = some p) (hd : p.default? = some d) (hkw : p.name ∉ kw.map Prod.fst) :
    Respells params (l, kw) (l ++ [d], kw)

theorem lookup_eq_none {n : String} :
    keywords.lookup n = none ↔ n ∉ keywords.map Prod.fst := by
  rw [List.lookup_eq_none_iff]
  constructor
  · intro h hn
    obtain ⟨p, hp, rfl⟩ := List.mem_map.mp hn
    exact bne_iff_ne.mp (h p hp) rfl
  · intro h p hp
    rw [bne_iff_ne]
    rintro rfl
    exact h (List.mem_map_of_mem hp)

theorem lookup_eq_of_perm (h : keywords.Perm keywords') :
    (keywords.map Prod.fst).Nodup → ∀ n, keywords.lookup n = keywords'.lookup n := by
  induction h with
  | nil => exact fun _ _ => rfl
  | cons x h ih =>
    intro hn n
    rw [List.lookup_cons, List.lookup_cons, ih (List.nodup_cons.mp hn).2]
  | swap x y l =>
    intro hn n
    have hne : y.1 ≠ x.1 := fun e => (List.nodup_cons.mp hn).1 (List.mem_cons.mpr (.inl e))
    rw [List.lookup_cons, List.lookup_cons, List.lookup_cons, List.lookup_cons]
    cases hy : n == y.1 with
    | false => rfl
    | true =>
      have hx : (n == x.1) = false := by
        rw [beq_iff_eq] at hy
        exact beq_eq_false_iff_ne.mpr fun e => hne (hy.symm.trans e)
      rw [hx]
  | trans h h' ih ih' =>
    intro hn n
    rw [ih hn, ih' ((h.map Prod.fst).nodup_iff.mp hn)]

theorem chooseAll_congr :
    ∀ {ps : List (Parameter α)}, (∀ p ∈ ps, p.choose keywords = p.choose keywords') →
      chooseAll keywords ps = chooseAll keywords' ps
  | [], _ => rfl
  | p :: ps, h => by
    unfold chooseAll
    rw [h p List.mem_cons_self, chooseAll_congr fun q hq => h q (.tail _ hq)]

theorem drop_eq_cons {i : Nat} {p : Parameter α} (hp : params[i]? = some p) :
    params.drop i = p :: params.drop (i + 1) := by
  obtain ⟨hlt, rfl⟩ := List.getElem?_eq_some_iff.mp hp
  exact List.drop_eq_getElem_cons hlt

theorem name_ne_of_mem_drop (hn : (params.map name).Nodup) {i : Nat} {p q : Parameter α}
    (hp : params[i]? = some p) (hq : q ∈ params.drop (i + 1)) : q.name ≠ p.name := by
  have hdrop : ((params.drop i).map name).Nodup :=
    ((List.drop_sublist i params).map name).nodup hn
  rw [drop_eq_cons hp] at hdrop
  intro e
  exact (List.nodup_cons.mp hdrop).1 (e ▸ List.mem_map_of_mem hq)

theorem bindArgs_congr (hlen : keywords.length = keywords'.length)
    (h : ∀ p ∈ params.drop positional.length, keywords.lookup p.name = keywords'.lookup p.name) :
    bindArgs params positional keywords = bindArgs params positional keywords' := by
  have hcount : (params.drop positional.length).countP (fun p => (keywords.lookup p.name).isSome) =
      (params.drop positional.length).countP fun p => (keywords'.lookup p.name).isSome :=
    List.countP_congr fun p hp => by rw [h p hp]
  have hchoose : chooseAll keywords (params.drop positional.length) =
      chooseAll keywords' (params.drop positional.length) :=
    chooseAll_congr fun p hp => by rw [choose, choose, h p hp]
  unfold bindArgs
  rw [hcount, hchoose, hlen]

theorem chooseAll_cons {p : Parameter α} {ps : List (Parameter α)} {a : α}
    (h : p.choose keywords = some a) :
    chooseAll keywords (p :: ps) = (chooseAll keywords ps).map (a :: ·) := by
  rw [chooseAll, h]
  cases chooseAll keywords ps <;> rfl

/-- An argument that is given by position, or left to `keywords`. -/
theorem bindArgs_append {p : Parameter α} {a : α} (hp : params[positional.length]? = some p)
    (hlen : keywords'.length = keywords.length + if (keywords'.lookup p.name).isSome then 1 else 0)
    (hrest : ∀ q ∈ params.drop (positional.length + 1),
      keywords.lookup q.name = keywords'.lookup q.name)
    (ha : p.choose keywords' = some a) :
    bindArgs params (positional ++ [a]) keywords = bindArgs params positional keywords' := by
  have hlt := (List.getElem?_eq_some_iff.mp hp).1
  have hcount : (params.drop (positional.length + 1)).countP
        (fun p => (keywords.lookup p.name).isSome) =
      (params.drop (positional.length + 1)).countP fun p => (keywords'.lookup p.name).isSome :=
    List.countP_congr fun p hp => by rw [hrest p hp]
  have hchoose : chooseAll keywords (params.drop (positional.length + 1)) =
      chooseAll keywords' (params.drop (positional.length + 1)) :=
    chooseAll_congr fun p hp => by rw [choose, choose, hrest p hp]
  unfold bindArgs
  rw [List.length_append, List.length_singleton, hcount, hchoose, drop_eq_cons hp,
    chooseAll_cons ha, List.countP_cons, hlen, Option.map_map]
  simp only [Nat.add_right_cancel_iff, Nat.succ_le_iff, hlt, Nat.le_of_lt hlt, true_and, Function.comp_def,
    List.append_assoc, List.singleton_append]

theorem bindArgs_eq_of_respells (hn : (params.map name).Nodup)
    {s t : List α × List (String × α)} (h : Respells params s t) :
    bindArgs params s.1 s.2 = bindArgs params t.1 t.2 := by
  cases h with
  | permute hperm hkw =>
    exact bindArgs_congr hperm.length_eq fun p _ => lookup_eq_of_perm hperm hkw p.name
  | @byName l kw p a hp hkw =>
    refine bindArgs_append hp ?_ ?_ ?_
    · simp
    · intro q hq
      rw [List.lookup_cons, beq_eq_false_iff_ne.mpr (name_ne_of_mem_drop hn hp hq)]
    · unfold choose
      rw [List.lookup_cons_self, Option.some_or]
  | @byDefault l kw p d hp hd hkw =>
    have hnone := lookup_eq_none.mpr hkw
    refine (bindArgs_append hp ?_ (fun _ _ => rfl) ?_).symm
    · rw [hnone]
      rfl
    · unfold choose
      rw [hnone, hd, Option.none_or]

theorem bindArgs_eq_of_eqvGen (hn : (params.map name).Nodup)
    {s t : List α × List (String × α)} (h : Relation.EqvGen (Respells params) s t) :
    bindArgs params s.1 s.2 = bindArgs params t.1 t.2 := by
  induction h with
  | rel s t h => exact bindArgs_eq_of_respells hn h
  | refl s => rfl
  | symm s t _ ih => exact ih.symm
  | trans s t u _ _ ih ih' => exact ih.trans ih'

/-- A call that matches can be spelled with all arguments by position. -/
theorem eqvGen_of_bindArgs (hn : (params.map name).Nodup) :
    ∀ (n : Nat) {positional : List α} {keywords : List (String × α)},
      params.length - positional.length = n → (keywords.map Prod.fst).Nodup →
        bindArgs params positional keywords = some args →
          Relation.EqvGen (Respells params) (positional, keywords) (args, [])
  | 0, positional, keywords, hlen, _, h => by
    have hle : params.length ≤ positional.length := Nat.sub_eq_zero_iff_le.mp hlen
    unfold bindArgs at h
    rw [List.drop_eq_nil_of_le hle] at h
    split at h
    · rename_i hc
      cases List.length_eq_zero_iff.mp hc.2.symm
      cases h
      show Relation.EqvGen _ (positional, []) (positional ++ [], [])
      rw [List.append_nil]
      exact .refl _
    · cases h
  | n + 1, positional, keywords, hlen, hkw, h => by
    have hlt : positional.length < params.length := by omega
    have hp : params[positional.length]? = some params[positional.length] :=
      List.getElem?_eq_getElem hlt
    have hlen' : ∀ a, params.length - (positional ++ [a]).length = n := by
      intro a
      rw [List.length_append, List.length_singleton]
      omega
    cases hlookup : keywords.lookup params[positional.length].name with
    | some a =>
      obtain ⟨l₁, l₂, rfl, -⟩ := List.lookup_eq_some_iff.mp hlookup
      have hperm : (l₁ ++ (params[positional.length].name, a) :: l₂).Perm
          ((params[positional.length].name, a) :: (l₁ ++ l₂)) := List.perm_middle
      have hrest := List.nodup_cons.mp ((hperm.map Prod.fst).nodup_iff.mp hkw)
      have hpermute : Respells params _ _ := .permute (l := positional) hperm hkw
      have hname : Respells params _ _ := .byName a hp hrest.1
      rw [bindArgs_eq_of_respells hn hpermute, ← bindArgs_eq_of_respells hn hname] at h
      exact .trans _ _ _ (.rel _ _ hpermute) (.trans _ _ _ (.symm _ _ (.rel _ _ hname))
        (eqvGen_of_bindArgs hn n (hlen' a) hrest.2 h))
    | none =>
      have hmem := lookup_eq_none.mp hlookup
      cases hd : params[positional.length].default? with
      | some d =>
        have hdefault : Respells params _ _ := .byDefault hp hd hmem
        rw [bindArgs_eq_of_respells hn hdefault] at h
        exact .trans _ _ _ (.rel _ _ hdefault) (eqvGen_of_bindArgs hn n (hlen' d) hkw h)
      | none =>
        obtain ⟨-, l, hl, -⟩ := bindArgs_eq_some h
        rw [drop_eq_cons hp, chooseAll, choose, hlookup, hd] at hl
        cases hl

/-- The spellings of a call are the calls that give the same arguments. -/
theorem eqvGen_iff_bindArgs (hn : (params.map name).Nodup) {positional' : List α}
    (hkw : (keywords.map Prod.fst).Nodup) (hkw' : (keywords'.map Prod.fst).Nodup)
    (h : bindArgs params positional keywords = some args) :
    Relation.EqvGen (Respells params) (positional, keywords) (positional', keywords') ↔
      bindArgs params positional' keywords' = some args := by
  constructor
  · intro hspell
    exact (bindArgs_eq_of_eqvGen hn hspell).symm.trans h
  · intro h'
    exact .trans _ _ _ (eqvGen_of_bindArgs hn _ rfl hkw h)
      (.symm _ _ (eqvGen_of_bindArgs hn _ rfl hkw' h'))

end Parameter
