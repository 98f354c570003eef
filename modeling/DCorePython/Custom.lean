import DCorePython.Assignment

/-!
# The operation `Custom`

`data` and `message_payload` are two views of the bytes of a custom operation,
and `id` decides whether the second shows anything. After any run of
assignments the bytes are those of the last write through either view.
-/

namespace DCore

open Loop Call

/-- Encoding and decoding of `message_payload`, and the id that marks one. -/
structure MessagingFormat (P : Type) where
  subtype : Fin (2 ^ 16)
  encode : P → List UInt8
  decode : List UInt8 → Except PyErr P
  decode_encode : ∀ m, decode (encode m) = .ok m

inductive CustomObj (P : Type)
  | plain (o : PyObj)
  | bytearray (bs : List UInt8)
  | list (l : List PyObj)
  | asset (a : Asset)
  | payload (m : P)

structure CustomOperation where
  fee : Asset
  payer : IdNumber
  requiredAuths : ValueSet IdNumber
  id : Fin (2 ^ 16)
  data : List UInt8
  deriving DecidableEq

section
variable {P : Type}

/-! ## `memo_converter` -/

namespace MemoConverter

def convert (memo : List UInt8) : CustomObj P :=
  if memo ≠ [] then .bytearray memo else .plain .none

def extract : CustomObj P → Conversion (List UInt8)
  | .plain .none => .built [] none
  | .bytearray bs => .built bs none
  | _ => .raised .typeError

theorem convert_cons {memo : List UInt8} (h : memo ≠ []) :
    (convert memo : CustomObj P) = .bytearray memo := if_pos h

end MemoConverter

/-! ## Attributes -/

namespace CustomOperation

def requiredAuthsMember : Member CustomOperation (ValueSet IdNumber) where
  get := requiredAuths
  set t c := { t with requiredAuths := c }
  get_set _ _ := rfl
  set_get _ := rfl
  set_set _ _ _ := rfl

def getId (op : CustomOperation) : CustomObj P := .plain (.int op.id)

def getData (op : CustomOperation) : CustomObj P := MemoConverter.convert op.data

def getMessagingPayload (M : MessagingFormat P) (op : CustomOperation) :
    Except PyErr (CustomObj P) :=
  if op.id = M.subtype then (M.decode op.data).map .payload else .ok (.plain .none)

end CustomOperation

inductive CustomAttribute
  | fee | payer | requiredAuths | id | data | messagePayload
  deriving DecidableEq, Repr

def extractPlain {α : Type} (extract : PyObj → Conversion α) : CustomObj P → Conversion α
  | .plain o => extract o
  | _ => .raised .typeError

def extractAsset : CustomObj P → Conversion Asset
  | .asset a => .built a none
  | _ => .raised .typeError

def extractPyList : CustomObj P → Conversion (List PyObj)
  | .list l => .built l none
  | _ => .raised .typeError

def extractPayload : CustomObj P → Conversion P
  | .payload m => .built m none
  | _ => .raised .typeError

def assignCustom (M : MessagingFormat P) (o : CustomObj P) :
    CustomAttribute → Call CustomOperation Unit
  | .fee => convertThen (extractAsset o) fun v op => { op with fee := v }
  | .payer =>
    convertThen (extractPlain (PyObj.extractId .accountId) o) fun v op => { op with payer := v }
  | .requiredAuths => do
    let l ← build (extractPyList o)
    decodeSet (PyObj.extractId .accountId) CustomOperation.requiredAuthsMember l
  | .id => convertThen (extractPlain (PyObj.extractUnsigned 16) o) fun v op => { op with id := v }
  | .data => convertThen (MemoConverter.extract o) fun v op => { op with data := v }
  | .messagePayload =>
    convertThen (extractPayload o) fun m op => { op with data := M.encode m }

/-- What a call leaves, whether it raises or not. -/
def after {T : Type} (c : Call T Unit) (b : Bound T) : Bound T :=
  match c.run b with
  | .ok _ b' => b'
  | .error _ b' => b'

/-- Make assignments in turn, and go on when one raises. -/
def runCustom (M : MessagingFormat P) (ws : List (CustomAttribute × CustomObj P))
    (b : Bound CustomOperation) : Bound CustomOperation :=
  ws.foldl (fun b w => after (assignCustom M w.2 w.1) b) b

/-! ## What one assignment writes -/

inductive DataWrite (P : Type)
  | data (d : List UInt8)
  | payload (m : P)

def DataWrite.bytes (M : MessagingFormat P) : DataWrite P → List UInt8
  | data d => d
  | payload m => M.encode m

/-- Numbers of 16 bits can be assigned to `id`. -/
def idWritten? : CustomAttribute × CustomObj P → Option ℤ
  | (.id, .plain (.int n)) => if 0 ≤ n ∧ n < 2 ^ 16 then some n else none
  | (.id, .plain (.bool b)) => some (if b then 1 else 0)
  | _ => none

/-- `None` and byte arrays can be assigned to `data`, and payloads to
`message_payload`. -/
def dataWritten? : CustomAttribute × CustomObj P → Option (DataWrite P)
  | (.data, .plain .none) => some (.data [])
  | (.data, .bytearray bs) => some (.data bs)
  | (.messagePayload, .payload m) => some (.payload m)
  | _ => none

def lastId? (ws : List (CustomAttribute × CustomObj P)) : Option ℤ :=
  (ws.filterMap idWritten?).getLast?

def lastData? (ws : List (CustomAttribute × CustomObj P)) : Option (DataWrite P) :=
  (ws.filterMap dataWritten?).getLast?

theorem after_of_ok {T : Type} {c : Call T Unit} {b b' : Bound T} (h : c.run b = .ok () b') :
    after c b = b' := by
  unfold after
  rw [h]

theorem after_of_error {T : Type} {c : Call T Unit} {b b' : Bound T} {e : PyErr}
    (h : c.run b = .error e b') : after c b = b' := by
  unfold after
  rw [h]

theorem after_convertThen {T α : Type} (c : Conversion α) (f : α → T → T) (b : Bound T) :
    (after (convertThen c f) b).obj = (c.value?.map fun v => f v b.obj).getD b.obj := by
  cases h : c.value? with
  | some v =>
    rw [after_of_ok (convertThen_run h f b)]
    rfl
  | none =>
    obtain ⟨e, he⟩ := convertThen_run_error h f b
    rw [after_of_error he]
    rfl

/-- Whether it raises or not, an assignment to `required_auths` writes nothing
else. -/
theorem after_requiredAuths (M : MessagingFormat P) (o : CustomObj P)
    (b : Bound CustomOperation) :
    ∃ c, (after (assignCustom M o .requiredAuths) b).obj = { b.obj with requiredAuths := c } := by
  unfold assignCustom
  cases extractPyList o with
  | raised e =>
    rw [after_of_error (run_bind_error (build_raised e b))]
    exact ⟨b.obj.requiredAuths, rfl⟩
  | built l p =>
    by_cases hl : ∀ o ∈ l, convertible (PyObj.extractId .accountId) o = true
    · have hrun := decodeSet_run _ CustomOperation.requiredAuthsMember hl
        ⟨b.interp.leave p, b.obj⟩
      rw [after_of_ok ((run_bind_ok (build_built l p b)).trans hrun)]
      exact ⟨_, rfl⟩
    · push Not at hl
      obtain ⟨e, i, hrun⟩ := decodeSet_failed (PyObj.extractId .accountId)
        CustomOperation.requiredAuthsMember (by simpa using hl) ⟨b.interp.leave p, b.obj⟩
      rw [after_of_error ((run_bind_ok (build_built l p b)).trans hrun)]
      exact ⟨_, rfl⟩

theorem idWritten?_id (o : CustomObj P) :
    idWritten? (.id, o) =
      (extractPlain (PyObj.extractUnsigned 16) o).value?.map fun n => (n.val : ℤ) := by
  cases o with
  | plain o =>
    cases o with
    | int n =>
      by_cases hn : 0 ≤ n ∧ n < 2 ^ 16
      · have hval : ((n.toNat : ℕ) : ℤ) = n := Int.toNat_of_nonneg hn.1
        simp only [idWritten?, extractPlain, PyObj.extractUnsigned, PyObj.asInt?]
        rw [if_pos hn, dif_pos (by exact_mod_cast hn)]
        exact congrArg some hval.symm
      · simp only [idWritten?, extractPlain, PyObj.extractUnsigned, PyObj.asInt?]
        rw [if_neg hn, dif_neg (by exact_mod_cast hn)]
        rfl
    | bool b => cases b <;> rfl
    | _ => rfl
  | _ => rfl

theorem dataWritten?_data (o : CustomObj P) :
    dataWritten? (.data, o) = (MemoConverter.extract o).value?.map .data := by
  cases o with
  | plain o => cases o <;> rfl
  | _ => rfl

theorem dataWritten?_messagePayload (o : CustomObj P) :
    dataWritten? (.messagePayload, o) = (extractPayload o).value?.map .payload := by
  cases o <;> rfl

/-- One assignment: the id and the bytes are those written, if any. -/
theorem after_assignCustom (M : MessagingFormat P) (w : CustomAttribute × CustomObj P)
    (b : Bound CustomOperation) :
    ((after (assignCustom M w.2 w.1) b).obj.id.val : ℤ) = (idWritten? w).getD b.obj.id.val ∧
      (after (assignCustom M w.2 w.1) b).obj.data =
        ((dataWritten? w).map (DataWrite.bytes M)).getD b.obj.data := by
  obtain ⟨a, o⟩ := w
  cases a with
  | fee =>
    simp only [assignCustom, after_convertThen, idWritten?, dataWritten?]
    cases (extractAsset o).value? <;> exact ⟨rfl, rfl⟩
  | payer =>
    simp only [assignCustom, after_convertThen, idWritten?, dataWritten?]
    cases (extractPlain (PyObj.extractId .accountId) o).value? <;> exact ⟨rfl, rfl⟩
  | requiredAuths =>
    obtain ⟨c, hc⟩ := after_requiredAuths M o b
    rw [hc]
    exact ⟨rfl, rfl⟩
  | id =>
    simp only [assignCustom, after_convertThen, idWritten?_id, dataWritten?]
    cases (extractPlain (PyObj.extractUnsigned 16) o).value? <;> exact ⟨rfl, rfl⟩
  | data =>
    simp only [assignCustom, after_convertThen, idWritten?, dataWritten?_data]
    cases (MemoConverter.extract o).value? <;> exact ⟨rfl, rfl⟩
  | messagePayload =>
    simp only [assignCustom, after_convertThen, idWritten?, dataWritten?_messagePayload]
    cases (extractPayload o).value? <;> exact ⟨rfl, rfl⟩

theorem convertThen_succeeds_iff {T α : Type} (c : Conversion α) (f : α → T → T) (b : Bound T) :
    (∃ b', (convertThen c f).run b = .ok () b') ↔ c.value?.isSome := by
  cases h : c.value? with
  | some v => exact iff_of_true ⟨_, convertThen_run h f b⟩ rfl
  | none =>
    obtain ⟨e, he⟩ := convertThen_run_error h f b
    refine iff_of_false ?_ nofun
    intro hok
    obtain ⟨b', hb'⟩ := hok
    rw [he] at hb'
    cases hb'

/-- Whatever the operation is, just the objects that count as written to `id`,
`data` and `message_payload` can be assigned to them. -/
theorem assignCustom_succeeds_iff (M : MessagingFormat P) (w : CustomAttribute × CustomObj P)
    (hw : w.1 = .id ∨ w.1 = .data ∨ w.1 = .messagePayload) (b : Bound CustomOperation) :
    (∃ b', (assignCustom M w.2 w.1).run b = .ok () b') ↔
      (idWritten? w).isSome ∨ (dataWritten? w).isSome := by
  obtain ⟨a, o⟩ := w
  rcases hw with rfl | rfl | rfl
  · rw [idWritten?_id, Option.isSome_map]
    exact (convertThen_succeeds_iff (extractPlain (PyObj.extractUnsigned 16) o) _ b).trans
      (or_iff_left nofun).symm
  · rw [dataWritten?_data, Option.isSome_map]
    exact (convertThen_succeeds_iff (MemoConverter.extract o) _ b).trans (or_iff_right nofun).symm
  · rw [dataWritten?_messagePayload, Option.isSome_map]
    exact (convertThen_succeeds_iff (extractPayload o) _ b).trans (or_iff_right nofun).symm

/-! ## Runs -/

/-- `(l.filterMap f).getLast?` is what the last step that wrote something left. -/
theorem getLast?_filterMap_cons {α β : Type} (f : α → Option β) (a : α) (l : List α) :
    ((a :: l).filterMap f).getLast? = ((l.filterMap f).getLast?).or (f a) := by
  cases h : f a with
  | none => rw [List.filterMap_cons_none h, Option.or_none]
  | some v =>
    rw [List.filterMap_cons_some h, List.getLast?_cons]
    cases (l.filterMap f).getLast? <;> rfl

theorem runCustom_run (M : MessagingFormat P) :
    ∀ (ws : List (CustomAttribute × CustomObj P)) (b : Bound CustomOperation),
      ((runCustom M ws b).obj.id.val : ℤ) = (lastId? ws).getD b.obj.id.val ∧
        (runCustom M ws b).obj.data = ((lastData? ws).map (DataWrite.bytes M)).getD b.obj.data
  | [], _ => ⟨rfl, rfl⟩
  | w :: ws, b => by
    obtain ⟨hid, hdata⟩ := after_assignCustom M w b
    obtain ⟨ihid, ihdata⟩ := runCustom_run M ws (after (assignCustom M w.2 w.1) b)
    have hrun : runCustom M (w :: ws) b = runCustom M ws (after (assignCustom M w.2 w.1) b) := rfl
    rw [hrun, ihid, ihdata, hid, hdata]
    unfold lastId? lastData?
    rw [getLast?_filterMap_cons, getLast?_filterMap_cons]
    refine ⟨?_, ?_⟩
    · cases (ws.filterMap idWritten?).getLast? <;> rfl
    · cases (ws.filterMap dataWritten?).getLast? <;> rfl

/-- What the attributes of `op` show after the assignments `ws` to `op₀`. -/
structure ShowsLastWrite (M : MessagingFormat P) (op₀ op : CustomOperation)
    (ws : List (CustomAttribute × CustomObj P)) : Prop where
  id : (op.getId : CustomObj P) = .plain (.int ((lastId? ws).getD op₀.id.val))
  hidden : (lastId? ws).getD op₀.id.val ≠ M.subtype.val →
    op.getMessagingPayload M = .ok (.plain .none)
  payload : (lastId? ws).getD op₀.id.val = M.subtype.val →
    ∀ m, lastData? ws = some (.payload m) → op.getMessagingPayload M = .ok (.payload m)
  decoded : (lastId? ws).getD op₀.id.val = M.subtype.val →
    ∀ d, lastData? ws = some (.data d) →
      op.getMessagingPayload M = (M.decode d).map .payload
  initial : (lastId? ws).getD op₀.id.val = M.subtype.val → lastData? ws = none →
    op.getMessagingPayload M = (M.decode op₀.data).map .payload
  bytes : ((lastData? ws).map (DataWrite.bytes M)).getD op₀.data ≠ [] →
    (op.getData : CustomObj P) =
      .bytearray (((lastData? ws).map (DataWrite.bytes M)).getD op₀.data)
  noBytes : ((lastData? ws).map (DataWrite.bytes M)).getD op₀.data = [] →
    (op.getData : CustomObj P) = .plain .none

/-- In any run of assignments, in which an assignment to `id`, `data` or
`message_payload` succeeds just for the objects that count as written, the
attributes show the last of them. -/
theorem custom_shows_last_write (M : MessagingFormat P)
    (ws : List (CustomAttribute × CustomObj P)) (b : Bound CustomOperation) :
    ShowsLastWrite M b.obj (runCustom M ws b).obj ws ∧
      ∀ w : CustomAttribute × CustomObj P, w.1 = .id ∨ w.1 = .data ∨ w.1 = .messagePayload →
        ∀ b, (∃ b', (assignCustom M w.2 w.1).run b = .ok () b') ↔
          (idWritten? w).isSome ∨ (dataWritten? w).isSome := by
  refine ⟨?_, fun w hw b => assignCustom_succeeds_iff M w hw b⟩
  obtain ⟨hid, hdata⟩ := runCustom_run M ws b
  have hsubtype : (runCustom M ws b).obj.id = M.subtype ↔
      (lastId? ws).getD b.obj.id.val = M.subtype.val := by
    rw [← hid, Fin.ext_iff, Int.natCast_inj]
  have hshown : (lastId? ws).getD b.obj.id.val = M.subtype.val →
      (runCustom M ws b).obj.getMessagingPayload M =
        (M.decode (((lastData? ws).map (DataWrite.bytes M)).getD b.obj.data)).map .payload := by
    intro h
    unfold CustomOperation.getMessagingPayload
    rw [if_pos (hsubtype.mpr h), hdata]
  constructor
  case id =>
    unfold CustomOperation.getId
    rw [hid]
  case hidden =>
    intro h
    exact if_neg fun heq => h (hsubtype.mp heq)
  case payload =>
    intro h m hm
    rw [hshown h, hm]
    show (M.decode (M.encode m)).map _ = _
    rw [M.decode_encode]
    rfl
  case decoded =>
    intro h d hd
    rw [hshown h, hd]
    rfl
  case initial =>
    intro h hnone
    rw [hshown h, hnone]
    rfl
  case bytes =>
    intro hne
    unfold CustomOperation.getData
    rw [hdata]
    exact MemoConverter.convert_cons hne
  case noBytes =>
    intro hnil
    unfold CustomOperation.getData
    rw [hdata, hnil]
    rfl

end

/-- Payloads are texts, encoded behind one byte. -/
def textFormat : MessagingFormat (List UInt8) where
  subtype := 1
  encode m := 0 :: m
  decode
    | 0 :: m => .ok m
    | _ => .error .runtimeError
  decode_encode _ := rfl

/-- The payload is assigned in front of the id, and data before both. -/
theorem custom_shows_last_write_payload_first :
    (runCustom textFormat
        [(.data, .bytearray [0, 7]), (.messagePayload, .payload [104, 105]), (.data, .plain (.int 3)),
          (.payer, .plain (.id 0 .accountId 19)), (.id, .plain (.int 1))]
        ⟨{}, ⟨⟨0, 0⟩, 0, OrderedSet.empty, 5, []⟩⟩).obj.getMessagingPayload textFormat =
      .ok (.payload [104, 105]) :=
  (custom_shows_last_write textFormat _ _).1.payload rfl _ rfl

end DCore
