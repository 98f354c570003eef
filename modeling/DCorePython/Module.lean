import DCorePython.Lib.OrderedSet
import DCorePython.Python

/-!
# The codecs of module.hpp

A bound attribute is a getter that builds a Python value from a member of the
C++ object (`encode...`) and a setter that takes a Python value and writes the
member (`decode...`); for optionals, variants and smart references the source
names them the other way round. The decoders walk their input backwards and
write as they go.

The codecs are templates; their converters are parameters here. A conversion to
Python makes a new object and may fail, which is what its monad stands for:
`Id` where neither matters, the state of an allocator, or `Except PyErr`.
-/

namespace DCore

open Loop Call

section
variable {Obj T α κ ν : Type} {m : Type → Type} [Monad m]

/-- A setter that converts its argument and writes it, as `def_readwrite`
makes. -/
def convertThen (c : Conversion α) (f : α → T → T) : Call T Unit := do
  let v ← build c
  onObj (f v)

/-! ## Lists -/

def encodeList (toPython : α → m Obj) (container : Member T (List α)) (obj : T) : m (List Obj) :=
  (container.get obj).foldlM (fun l v => do
    let o ← toPython v
    return l ++ [o]) []

/-- `std::vector::resize`: cut the tail, or pad with default elements. -/
def resize [Inhabited α] (c : List α) (len : Nat) : List α :=
  c.take len ++ List.replicate (len - c.length) default

def decodeList [Inhabited α] (extract : Obj → Conversion α) (container : Member T (List α))
    (l : List Obj) : Call T Unit := do
  onObj fun obj => container.set obj (resize (container.get obj) l.length)
  whileDown (fun len => do
    let o ← getItem l len
    let v ← build (extract o)
    onObj fun obj => container.set obj ((container.get obj).set len v)) l.length

/-! ## Dicts -/

def encodeDict [LinearOrder κ] [PyObject Obj] (keyToPython : κ → m Obj)
    (mappedToPython : ν → m Obj) (container : Member T (OrderedMap κ ν)) (obj : T) :
    m (PyDict Obj) :=
  (container.get obj).toList.foldlM (fun d v => do
    let key ← keyToPython v.1
    let mapped ← mappedToPython v.2
    return d.setdefault key mapped) PyDict.empty

/-- The orders in which C++14 may evaluate the three calls in
`container[extract(k)] = v()`. -/
inductive EvalOrder
  | keySubscriptMapped
  | keyMappedSubscript
  | mappedKeySubscript
  deriving DecidableEq, Repr

def assignItem [LinearOrder κ] [Inhabited ν] (order : EvalOrder)
    (container : Member T (OrderedMap κ ν)) (key : Conversion κ) (mapped : Conversion ν) :
    Call T Unit :=
  let subscript (k : κ) : Call T Unit :=
    onObj fun obj => container.set obj (OrderedMap.subscript (container.get obj) k)
  let assign (k : κ) (v : ν) : Call T Unit :=
    onObj fun obj => container.set obj (OrderedMap.assign (container.get obj) k v)
  match order with
  | .keySubscriptMapped => do
    let k ← build key
    subscript k
    let v ← build mapped
    assign k v
  | .keyMappedSubscript => do
    let k ← build key
    let v ← build mapped
    subscript k
    assign k v
  | .mappedKeySubscript => do
    let v ← build mapped
    let k ← build key
    subscript k
    assign k v

def decodeDict [LinearOrder κ] [Inhabited ν] [PyObject Obj] (order : EvalOrder)
    (extractKey : Obj → Conversion κ) (extractMapped : Obj → Conversion ν)
    (container : Member T (OrderedMap κ ν)) (d : PyDict Obj) : Call T Unit :=
  let l := d.keys
  whileDown (fun len => do
    let k ← getItem l len
    assignItem order container (extractKey k) (extractMapped (d.get k))) l.length

/-! ## Sets -/

def encodeSet [LinearOrder κ] {key : α → κ} (toPython : α → m Obj)
    (container : Member T (OrderedSet key)) (obj : T) : m (List Obj) :=
  (container.get obj).toList.foldlM (fun l v => do
    let o ← toPython v
    return l ++ [o]) []

def decodeSet [LinearOrder κ] {key : α → κ} (extract : Obj → Conversion α)
    (container : Member T (OrderedSet key)) (l : List Obj) : Call T Unit :=
  whileDown (fun len => do
    let o ← getItem l len
    let v ← build (extract o)
    onObj fun obj => container.set obj ((container.get obj).insert v)) l.length

/-! ## Optionals -/

def decodeOptionalValue [PyNone Obj] (extract : Obj → Conversion α) (obj : Obj) :
    Call T (Option α) :=
  if PyNone.isNone obj then pure none
  else do
    let v ← build (extract obj)
    return some v

def encodeOptionalValue [PyNone Obj] (toPython : α → m Obj) : Option α → m Obj
  | some v => toPython v
  | none => pure PyNone.none

def decodeOptionalType [PyNone Obj] (toPython : α → m Obj) (member : Member T (Option α))
    (obj : T) : m Obj :=
  encodeOptionalValue toPython (member.get obj)

/-- The setter of an optional attribute. Its parameter is a `const V&`, so the
argument is converted before the body runs. -/
def encodeOptionalType (extract : Obj → Conversion α) (member : Member T (Option α))
    (v : Obj) : Call T Unit := do
  let v ← build (extract v)
  onObj fun obj => member.set obj (some v)

/-! ## Variants -/

/-- `V` is the variant type, `get` its `get<T>()`, which throws on another
alternative. -/
def decodeStaticVariant {V : Type} [PyNone Obj] (which : V → Nat) (tag : Nat)
    (get : V → Option α) (toPython : α → Obj) (v : V) : Except PyErr Obj :=
  if which v = tag then
    match get v with
    | some x => .ok (toPython x)
    | none => .error .runtimeError
  else .ok PyNone.none

end

end DCore
