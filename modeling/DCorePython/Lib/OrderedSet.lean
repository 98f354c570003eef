import DCorePython.Lib.PartialMap
import Mathlib.Data.List.Dedup
import Mathlib.Data.List.Sort
import Mathlib.Order.Basic

/-!
# Sets ordered by a key

An ordered set keeps its elements in strictly ascending order of a key, so it
has at most one element per key. `insert` leaves an element with an equal key
in place; `modify` rewrites in place the element with a given key. A map is an
ordered set of pairs with the first component as key, and its subscript
operator inserts a default before it assigns.

`contents` reads a set as a partial map from keys, and loses nothing
(`contents_injective`). `insert` fills a gap of the contents; a subscript
assignment writes an entry on top of them.
-/

structure OrderedSet {α κ : Type*} [LinearOrder κ] (key : α → κ) where
  toList : List α
  ascending : toList.Pairwise fun a b => key a < key b

namespace OrderedSet

section
variable {α κ : Type*} [LinearOrder κ] {key : α → κ}

@[ext] theorem ext_toList {s t : OrderedSet key} (h : s.toList = t.toList) : s = t := by
  cases s; cases t; cases h; rfl

instance [DecidableEq α] : DecidableEq (OrderedSet key) := fun s t =>
  decidable_of_iff (s.toList = t.toList) ⟨ext_toList, fun h => h ▸ rfl⟩

def empty : OrderedSet key := ⟨[], .nil⟩

instance : Inhabited (OrderedSet key) := ⟨empty⟩

def find? (s : OrderedSet key) (k : κ) : Option α :=
  s.toList.find? fun a => key a = k

def contents (s : OrderedSet key) : PartialMap κ α := s.find?

theorem contents_apply (s : OrderedSet key) (k : κ) : s.contents k = s.find? k := rfl

@[simp] theorem contents_empty : (empty : OrderedSet key).contents = PartialMap.nowhere := rfl

/-- Put `a` before the first element with a larger key, unless an element with
the key of `a` is there. -/
def insertList (key : α → κ) (a : α) : List α → List α
  | [] => [a]
  | b :: l =>
    if key a < key b then a :: b :: l
    else if key b < key a then b :: insertList key a l
    else b :: l

theorem mem_insertList {a c : α} {l : List α} (h : c ∈ insertList key a l) : c = a ∨ c ∈ l := by
  induction l with
  | nil => simpa [insertList] using h
  | cons b l ih =>
    simp only [insertList] at h
    split_ifs at h
    · simpa using h
    · rcases List.mem_cons.mp h with rfl | h
      · simp
      · exact (ih h).imp_right (List.mem_cons_of_mem _)
    · exact .inr h

theorem ascending_insertList (a : α) :
    ∀ {l : List α}, l.Pairwise (fun a b => key a < key b) →
      (insertList key a l).Pairwise fun a b => key a < key b
  | [], _ => by simp [insertList]
  | b :: l, h => by
    have hb : ∀ {c}, c ∈ l → key b < key c := fun hc => List.rel_of_pairwise_cons h hc
    simp only [insertList]
    split_ifs with h₁ h₂
    · refine h.cons fun c hc => ?_
      rcases List.mem_cons.mp hc with rfl | hc
      · exact h₁
      · exact h₁.trans (hb hc)
    · refine (ascending_insertList a h.of_cons).cons fun c hc => ?_
      rcases mem_insertList hc with rfl | hc
      · exact h₂
      · exact hb hc
    · exact h

def insert (s : OrderedSet key) (a : α) : OrderedSet key :=
  ⟨insertList key a s.toList, ascending_insertList a s.ascending⟩

def modify (s : OrderedSet key) (k : κ) (f : α → α) (hf : ∀ a, key (f a) = key a) :
    OrderedSet key where
  toList := s.toList.map fun a => if key a = k then f a else a
  ascending := by
    have hk : ∀ a, key (if key a = k then f a else a) = key a := by
      intro a; split <;> simp [hf]
    exact List.Pairwise.map _ (fun a b h => by rw [hk, hk]; exact h) s.ascending

/-! ## Elements and contents -/

theorem key_of_find? {s : OrderedSet key} {k : κ} {a : α} (h : s.find? k = some a) : key a = k := by
  simpa using List.find?_some h

theorem mem_of_find? {s : OrderedSet key} {k : κ} {a : α} (h : s.find? k = some a) : a ∈ s.toList :=
  List.mem_of_find?_eq_some h

theorem find?_of_mem {s : OrderedSet key} {a : α} (h : a ∈ s.toList) : s.find? (key a) = some a := by
  obtain ⟨l, hl⟩ := s
  simp only [find?] at *
  induction l with
  | nil => cases h
  | cons b l ih =>
    rcases List.mem_cons.mp h with rfl | h
    · simp
    · have hlt : key b < key a := List.rel_of_pairwise_cons hl h
      simp [hlt.ne, ih hl.of_cons h]

theorem mem_iff_find? {s : OrderedSet key} {a : α} : a ∈ s.toList ↔ s.find? (key a) = some a :=
  ⟨find?_of_mem, mem_of_find?⟩

theorem nodup_toList (s : OrderedSet key) : s.toList.Nodup :=
  s.ascending.imp fun hab e => (e ▸ hab).false

theorem ext_mem {s t : OrderedSet key} (h : ∀ a, a ∈ s.toList ↔ a ∈ t.toList) : s = t := by
  have hperm : s.toList.Perm t.toList :=
    (List.perm_ext_iff_of_nodup s.nodup_toList t.nodup_toList).mpr h
  exact ext_toList (hperm.eq_of_pairwise (fun a b _ _ hab hba => absurd hab hba.asymm)
    s.ascending t.ascending)

theorem contents_injective {s t : OrderedSet key} (h : s.contents = t.contents) : s = t := by
  apply ext_mem
  intro a
  rw [mem_iff_find?, mem_iff_find?, ← contents_apply, h, contents_apply]

theorem contents_inj {s t : OrderedSet key} : s.contents = t.contents ↔ s = t :=
  ⟨contents_injective, fun h => h ▸ rfl⟩

private theorem find?_insertList (a : α) (k : κ) :
    ∀ {l : List α}, l.Pairwise (fun a b => key a < key b) →
      (insertList key a l).find? (fun b => key b = k) =
        (l.find? fun b => key b = k).or (if key a = k then some a else none)
  | [], _ => by by_cases h : key a = k <;> simp [insertList, h]
  | b :: l, hl => by
    have ih := find?_insertList a k hl.of_cons
    rcases lt_trichotomy (key a) (key b) with hlt | heq | hgt
    · unfold insertList
      rw [if_pos hlt]
      by_cases hk : key a = k
      · have hno : (b :: l).find? (fun c => key c = k) = none := by
          rw [List.find?_eq_none]
          intro c hc
          rcases List.mem_cons.mp hc with rfl | hc
          · simpa [← hk] using hlt.ne'
          · have := hlt.trans (List.rel_of_pairwise_cons hl hc)
            simpa [← hk] using this.ne'
        rw [hno]; simp [hk]
      · simp [hk]
    · unfold insertList
      rw [if_neg heq.not_lt, if_neg heq.symm.not_lt]
      by_cases hk : key a = k
      · simp [← heq, hk]
      · simp [hk]
    · unfold insertList
      rw [if_neg hgt.asymm, if_pos hgt]
      by_cases hb : key b = k
      · simp [hb]
      · simp [hb, ih]

theorem find?_insert (s : OrderedSet key) (a : α) (k : κ) :
    (s.insert a).find? k = (s.find? k).or (if key a = k then some a else none) :=
  find?_insertList a k s.ascending

theorem find?_modify (s : OrderedSet key) (k : κ) (f : α → α) (hf : ∀ a, key (f a) = key a)
    (k' : κ) : (s.modify k f hf).find? k' = if k' = k then (s.find? k).map f else s.find? k' := by
  have hkey : ∀ a, key (if key a = k then f a else a) = key a := by
    intro a; split <;> simp [hf]
  simp only [find?, modify, List.find?_map, Function.comp_def, hkey]
  split_ifs with h
  · subst h
    cases hfind : s.toList.find? (fun a => key a = k') with
    | none => rfl
    | some a =>
      have : key a = k' := by simpa using List.find?_some hfind
      simp [this]
  · cases hfind : s.toList.find? (fun a => key a = k') with
    | none => rfl
    | some a =>
      have : key a = k' := by simpa using List.find?_some hfind
      simp [this, h]

theorem insert_eq_self_iff (s : OrderedSet key) (a : α) :
    s.insert a = s ↔ (s.find? (key a)).isSome := by
  rw [← contents_inj]
  refine ⟨?_, ?_⟩
  · intro h
    have := congrFun h (key a)
    rw [contents_apply, contents_apply, find?_insert, if_pos rfl] at this
    rw [← this]
    cases s.find? (key a) <;> rfl
  · intro h
    funext k
    rw [contents_apply, contents_apply, find?_insert]
    by_cases hk : key a = k
    · obtain ⟨b, hb⟩ := Option.isSome_iff_exists.mp (hk ▸ h)
      rw [hb]; rfl
    · simp [hk]

theorem find?_isSome_iff (s : OrderedSet key) (k : κ) :
    (s.find? k).isSome ↔ ∃ a ∈ s.toList, key a = k := by
  simp [find?]

private theorem length_insertList (a : α) :
    ∀ {l : List α}, (∀ b ∈ l, key b ≠ key a) → (insertList key a l).length = l.length + 1
  | [], _ => rfl
  | b :: l, h => by
    obtain ⟨hb, hl⟩ := List.forall_mem_cons.mp h
    rcases lt_or_gt_of_ne hb with hlt | hgt
    · unfold insertList
      rw [if_neg hlt.asymm, if_pos hlt, List.length_cons, length_insertList a hl, List.length_cons]
    · unfold insertList
      rw [if_pos hgt]
      rfl

theorem length_insert {s : OrderedSet key} {a : α} (h : s.find? (key a) = none) :
    (s.insert a).toList.length = s.toList.length + 1 := by
  apply length_insertList
  intro b hb
  simpa using List.find?_eq_none.mp h b hb

@[simp] theorem length_modify (s : OrderedSet key) (k : κ) (f : α → α)
    (hf : ∀ a, key (f a) = key a) : (s.modify k f hf).toList.length = s.toList.length :=
  List.length_map _

/-! ## Inserting a list, from its back -/

def insertBack (s : OrderedSet key) (l : List α) : OrderedSet key :=
  l.foldr (fun a s => s.insert a) s

@[simp] theorem insertBack_nil (s : OrderedSet key) : s.insertBack [] = s := rfl

@[simp] theorem insertBack_cons (s : OrderedSet key) (a : α) (l : List α) :
    s.insertBack (a :: l) = (s.insertBack l).insert a := rfl

/-- The set that holds the elements of `l`: of those with equal keys, the last. -/
def ofBack (key : α → κ) (l : List α) : OrderedSet key := empty.insertBack l

theorem find?_ofBack (l : List α) (k : κ) :
    (ofBack key l).find? k = l.reverse.find? fun a => key a = k := by
  induction l with
  | nil => rfl
  | cons a l ih =>
    have hc : ofBack key (a :: l) = (ofBack key l).insert a := rfl
    rw [hc, find?_insert, ih, List.reverse_cons, List.find?_append]
    by_cases h : key a = k <;> simp [h]

theorem contents_insertBack (s : OrderedSet key) (l : List α) :
    (s.insertBack l).contents = s.contents.overlay (ofBack key l).contents := by
  induction l with
  | nil => simp [ofBack]
  | cons a l ih =>
    have hc : ofBack key (a :: l) = (ofBack key l).insert a := rfl
    funext k
    have ihk := congrFun ih k
    simp only [PartialMap.overlay_apply, contents_apply] at ihk ⊢
    rw [insertBack_cons, find?_insert, ihk, hc, find?_insert, Option.or_assoc]

theorem insertBack_eq_self_iff (s : OrderedSet key) (l : List α) :
    s.insertBack l = s ↔ ∀ a ∈ l, (s.find? (key a)).isSome := by
  rw [← contents_inj, contents_insertBack, PartialMap.overlay_eq_left_iff]
  have hdom : ∀ k, ((ofBack key l).find? k).isSome ↔ ∃ a ∈ l, key a = k := by
    intro k; rw [find?_ofBack]; simp
  refine ⟨?_, ?_⟩
  · intro h a ha
    exact h (key a) ((hdom _).mpr ⟨a, ha, rfl⟩)
  · intro h k hk
    obtain ⟨a, ha, rfl⟩ := (hdom k).mp hk
    exact h a ha

theorem ofBack_toList (s : OrderedSet key) : ofBack key s.toList = s := by
  apply contents_injective
  funext k
  rw [contents_apply, find?_ofBack, contents_apply]
  cases hs : s.find? k with
  | none =>
    rw [List.find?_eq_none]
    intro a ha
    have := List.find?_eq_none.mp hs a (List.mem_reverse.mp ha)
    exact this
  | some a =>
    cases hr : s.toList.reverse.find? (fun a => key a = k) with
    | none =>
      have := List.find?_eq_none.mp hr a (by simpa using mem_of_find? hs)
      exact absurd (key_of_find? hs) (by simpa using this)
    | some b =>
      have hb : b ∈ s.toList := by simpa using List.mem_of_find?_eq_some hr
      have hkb : key b = k := by simpa using List.find?_some hr
      rw [← hs, ← hkb, find?_of_mem hb]

end

end OrderedSet

abbrev ValueSet (κ : Type*) [LinearOrder κ] := OrderedSet (id : κ → κ)

namespace ValueSet

variable {κ : Type*} [LinearOrder κ]

theorem mem_ofBack {l : List κ} {k : κ} : k ∈ (OrderedSet.ofBack id l).toList ↔ k ∈ l := by
  rw [OrderedSet.mem_iff_find?, OrderedSet.find?_ofBack]
  refine ⟨?_, ?_⟩
  · intro h
    exact List.mem_reverse.mp (List.mem_of_find?_eq_some h)
  · intro h
    obtain ⟨k', hk'⟩ := Option.isSome_iff_exists.mp
      (List.find?_isSome.mpr ⟨k, List.mem_reverse.mpr h, decide_eq_true rfl⟩ :
        (l.reverse.find? fun a => id a = id k).isSome)
    have hk : k' = k := by simpa using List.find?_some hk'
    rw [hk', hk]

theorem ofBack_congr {l l' : List κ} (h : ∀ k, k ∈ l ↔ k ∈ l') :
    OrderedSet.ofBack id l = OrderedSet.ofBack id l' := by
  apply OrderedSet.ext_mem
  intro k
  rw [mem_ofBack, mem_ofBack, h]

end ValueSet

/-! ## Maps -/

abbrev OrderedMap (κ ν : Type*) [LinearOrder κ] := OrderedSet (Prod.fst : κ × ν → κ)

namespace OrderedMap

variable {κ ν : Type*} [LinearOrder κ]

/-- What `operator[](k)` does to the map: a missing key gets a default value. -/
def subscript [Inhabited ν] (m : OrderedMap κ ν) (k : κ) : OrderedMap κ ν :=
  m.insert (k, default)

def assign (m : OrderedMap κ ν) (k : κ) (v : ν) : OrderedMap κ ν :=
  m.modify k (fun e => (e.1, v)) fun _ => rfl

def put [Inhabited ν] (m : OrderedMap κ ν) (k : κ) (v : ν) : OrderedMap κ ν :=
  (m.subscript k).assign k v

def putBack [Inhabited ν] (m : OrderedMap κ ν) (es : List (κ × ν)) : OrderedMap κ ν :=
  es.foldr (fun e m => put m e.1 e.2) m

def firstEntry (es : List (κ × ν)) : PartialMap κ (κ × ν) := fun k => es.find? fun e => e.1 = k

theorem nodup_keys (m : OrderedMap κ ν) : (m.toList.map Prod.fst).Nodup :=
  List.pairwise_map.mpr (m.ascending.imp fun h => ne_of_lt h)

variable [Inhabited ν]

theorem find?_put (m : OrderedMap κ ν) (k : κ) (v : ν) (k' : κ) :
    (put m k v).find? k' = if k' = k then some (k, v) else m.find? k' := by
  unfold put assign
  rw [OrderedSet.find?_modify, subscript]
  split_ifs with h
  · rw [OrderedSet.find?_insert, if_pos rfl]
    cases hf : m.find? k with
    | none => rfl
    | some e => rw [Option.some_or, Option.map_some, OrderedSet.key_of_find? hf]
  · rw [OrderedSet.find?_insert, if_neg (Ne.symm h), Option.or_none]

theorem contents_putBack (m : OrderedMap κ ν) (es : List (κ × ν)) :
    (putBack m es).contents = (firstEntry es).overlay m.contents := by
  induction es with
  | nil => rfl
  | cons e es ih =>
    have hc : putBack m (e :: es) = put (putBack m es) e.1 e.2 := rfl
    funext k
    have ihk := congrFun ih k
    simp only [PartialMap.overlay_apply, OrderedSet.contents_apply, firstEntry] at ihk ⊢
    rw [hc, find?_put, ihk]
    by_cases h : k = e.1
    · simp [h]
    · simp [h, Ne.symm h]

theorem subscript_eq_self_iff (m : OrderedMap κ ν) (k : κ) :
    subscript m k = m ↔ (m.find? k).isSome :=
  OrderedSet.insert_eq_self_iff m (k, default)

theorem putBack_eq_self_iff (m : OrderedMap κ ν) (es : List (κ × ν)) :
    putBack m es = m ↔ m.contents.Extends (firstEntry es) := by
  rw [← OrderedSet.contents_inj, contents_putBack, PartialMap.overlay_eq_right_iff]

theorem mem_keys_putBack_empty (es : List (κ × ν)) (k : κ) :
    k ∈ (putBack OrderedSet.empty es).toList.map Prod.fst ↔ k ∈ es.map Prod.fst := by
  have hfind := congrFun (contents_putBack OrderedSet.empty es) k
  simp only [PartialMap.overlay_apply, OrderedSet.contents_apply, firstEntry] at hfind
  have hempty : (OrderedSet.empty : OrderedMap κ ν).find? k = none := rfl
  rw [hempty, Option.or_none] at hfind
  refine ⟨?_, ?_⟩
  · intro h
    obtain ⟨e, he, rfl⟩ := List.mem_map.mp h
    rw [OrderedSet.find?_of_mem he] at hfind
    exact List.mem_map_of_mem (List.mem_of_find?_eq_some hfind.symm)
  · intro h
    obtain ⟨e, he, rfl⟩ := List.mem_map.mp h
    have hs : (es.find? fun c => c.1 = e.1).isSome := List.find?_isSome.mpr ⟨e, he, by simp⟩
    rw [← hfind] at hs
    obtain ⟨c, hc⟩ := Option.isSome_iff_exists.mp hs
    exact List.mem_map.mpr ⟨c, OrderedSet.mem_of_find? hc, OrderedSet.key_of_find? hc⟩

theorem mem_putBack_empty {es : List (κ × ν)} (hn : (es.map Prod.fst).Nodup) {e : κ × ν} :
    e ∈ (putBack OrderedSet.empty es).toList ↔ e ∈ es := by
  have hfind := congrFun (contents_putBack OrderedSet.empty es) e.1
  simp only [PartialMap.overlay_apply, OrderedSet.contents_apply, firstEntry] at hfind
  have hempty : (OrderedSet.empty : OrderedMap κ ν).find? e.1 = none := rfl
  rw [OrderedSet.mem_iff_find?, hfind, hempty, Option.or_none]
  refine ⟨List.mem_of_find?_eq_some, ?_⟩
  intro h
  obtain ⟨c, hc⟩ := Option.isSome_iff_exists.mp
    (List.find?_isSome.mpr ⟨e, h, decide_eq_true rfl⟩ : (es.find? fun c => c.1 = e.1).isSome)
  have hkey : c.1 = e.1 := by simpa using List.find?_some hc
  rw [hc, List.inj_on_of_nodup_map hn (List.mem_of_find?_eq_some hc) h hkey]

theorem toList_putBack_empty_perm {es : List (κ × ν)} (hn : (es.map Prod.fst).Nodup) :
    (putBack OrderedSet.empty es).toList.Perm es := by
  rw [List.perm_ext_iff_of_nodup (OrderedSet.nodup_toList _) hn.of_map]
  intro e
  exact mem_putBack_empty hn

theorem putBack_empty_congr {es es' : List (κ × ν)} (hn : (es.map Prod.fst).Nodup)
    (h : es'.Perm es) :
    putBack OrderedSet.empty es' = putBack (OrderedSet.empty : OrderedMap κ ν) es := by
  have hn' : (es'.map Prod.fst).Nodup := (h.map Prod.fst).nodup_iff.mpr hn
  apply OrderedSet.ext_mem
  intro e
  rw [mem_putBack_empty hn, mem_putBack_empty hn', h.mem_iff]

theorem putBack_toList (m : OrderedMap κ ν) : putBack OrderedSet.empty m.toList = m := by
  apply OrderedSet.ext_mem
  intro e
  exact mem_putBack_empty (nodup_keys m)

theorem length_putBack_empty_iff (es : List (κ × ν)) :
    (putBack OrderedSet.empty es).toList.length = es.length ↔ (es.map Prod.fst).Nodup := by
  have hperm : ((putBack OrderedSet.empty es).toList.map Prod.fst).Perm (es.map Prod.fst).dedup := by
    rw [List.perm_ext_iff_of_nodup (nodup_keys _) (List.nodup_dedup _)]
    intro k
    rw [mem_keys_putBack_empty, List.mem_dedup]
  have hlen := hperm.length_eq
  rw [List.length_map] at hlen
  rw [hlen, ← List.dedup_eq_self]
  refine ⟨?_, ?_⟩
  · intro h
    exact (List.dedup_sublist _).eq_of_length (by rw [h, List.length_map])
  · intro h
    rw [h, List.length_map]

end OrderedMap
