import Mathlib.Data.List.Basic
import Mathlib.Algebra.Order.Ring.Nat

/-!
# Cursors over byte buffers

Writers append to a buffer of fixed capacity, readers consume a buffer from
its front; both are state monads over a failure. A writer is described by the
bytes it emits and a reader by the bytes it reads a value from, and both
descriptions compose along the monad, so that the round trip of a whole
message follows from those of its fields.
-/

namespace Macrdp.ByteCodec

/-- `value` as `width` bytes, most significant first. -/
def bigEndian : ℕ → ℕ → List UInt8
  | 0, _ => []
  | width + 1, value => UInt8.ofNat (value / 256 ^ width) :: bigEndian width value

/-- The number that bytes spell, most significant first. -/
def ofBigEndian : List UInt8 → ℕ
  | [] => 0
  | byte :: rest => byte.toNat * 256 ^ rest.length + ofBigEndian rest

@[simp] theorem length_bigEndian (width value : ℕ) : (bigEndian width value).length = width := by
  induction width with
  | zero => rfl
  | succ width ih => simp only [bigEndian, List.length_cons, ih]

/-- Reading back a number gives its low bytes. -/
theorem ofBigEndian_bigEndian (width value : ℕ) :
    ofBigEndian (bigEndian width value) = value % 256 ^ width := by
  induction width with
  | zero => simp [bigEndian, ofBigEndian, Nat.mod_one]
  | succ width ih =>
    have hsplit := Nat.mod_pow_succ (x := value) (b := 256) (k := width)
    rw [bigEndian, ofBigEndian, ih, length_bigEndian, UInt8.toNat_ofNat', hsplit]
    rw [Nat.mul_comm, Nat.add_comm]

/-- Some bytes spell a number of their size. -/
theorem ofBigEndian_lt (bytes : List UInt8) : ofBigEndian bytes < 256 ^ bytes.length := by
  induction bytes with
  | nil => simp [ofBigEndian]
  | cons byte rest ih =>
    have hbyte : byte.toNat + 1 ≤ 256 := byte.toNat_lt
    have htop : (byte.toNat + 1) * 256 ^ rest.length ≤ 256 * 256 ^ rest.length :=
      Nat.mul_le_mul_right _ hbyte
    rw [ofBigEndian, List.length_cons, Nat.pow_succ']
    rw [Nat.add_mul, Nat.one_mul] at htop
    omega

/-- A block of exactly `size` bytes. -/
abbrev ByteBlock (size : ℕ) := { bytes : List UInt8 // bytes.length = size }

/-- Why writing a message failed. -/
inductive EncodeError where
  /-- A checked section found too little room. -/
  | notEnoughBytes (received expected : ℕ)
  /-- An unchecked write ran past the buffer, which panics. -/
  | outOfBounds
  deriving DecidableEq, Repr

/-- Why reading a message failed. -/
inductive DecodeError where
  /-- A checked section found too few bytes. -/
  | notEnoughBytes (received expected : ℕ)
  /-- A field holds no valid value. -/
  | invalidField (field reason : String)
  /-- An unchecked read ran past the buffer, which panics. -/
  | outOfBounds
  deriving DecidableEq, Repr

/-- A buffer of fixed capacity and what has been written to its front. -/
structure WriteCursor where
  /-- Bytes the buffer holds. -/
  capacity : ℕ
  /-- Bytes written so far. -/
  written : List UInt8

/-- Bytes of room left. -/
def WriteCursor.room (dst : WriteCursor) : ℕ := dst.capacity - dst.written.length

/-- The cursor after more bytes. -/
def WriteCursor.append (dst : WriteCursor) (bytes : List UInt8) : WriteCursor :=
  { dst with written := dst.written ++ bytes }

/-- A computation that writes to a cursor. -/
abbrev Writer := StateT WriteCursor (Except EncodeError)

/-- A computation that reads from the front of a buffer. -/
abbrev Reader := StateT (List UInt8) (Except DecodeError)

namespace Writer

/-- Check that a section of this many bytes fits. -/
def ensureSize (size : ℕ) : Writer Unit := fun dst =>
  if dst.room < size then .error (.notEnoughBytes dst.room size) else .ok ((), dst)

/-- Write bytes without a check. -/
def writeSlice (bytes : List UInt8) : Writer Unit := fun dst =>
  if dst.room < bytes.length then .error .outOfBounds else .ok ((), dst.append bytes)

/-- Write one byte. -/
def writeU8 (value : UInt8) : Writer Unit := writeSlice [value]

/-- Write a 16-bit number, most significant byte first. -/
def writeU16Be (value : UInt16) : Writer Unit := writeSlice (bigEndian 2 value.toNat)

/-- Write a 32-bit number, most significant byte first. -/
def writeU32Be (value : UInt32) : Writer Unit := writeSlice (bigEndian 4 value.toNat)

/-- Write a 16-bit number, least significant byte first. -/
def writeU16Le (value : UInt16) : Writer Unit := writeSlice (bigEndian 2 value.toNat).reverse

/-- Write a 32-bit number, least significant byte first. -/
def writeU32Le (value : UInt32) : Writer Unit := writeSlice (bigEndian 4 value.toNat).reverse

/-- The writer appends exactly these bytes whenever they fit, and fails when
they do not. -/
def Emits (w : Writer Unit) (bytes : List UInt8) : Prop :=
  ∀ dst, (bytes.length ≤ dst.room → w dst = .ok ((), dst.append bytes)) ∧
    (dst.room < bytes.length → ∃ e, w dst = .error e)

end Writer

namespace Reader

/-- Check that a section of this many bytes is there. -/
def ensureSize (size : ℕ) : Reader Unit := fun src =>
  if src.length < size then .error (.notEnoughBytes src.length size) else .ok ((), src)

/-- Read this many bytes without a check. -/
def readSlice (size : ℕ) : Reader (List UInt8) := fun src =>
  if src.length < size then .error .outOfBounds else .ok (src.take size, src.drop size)

/-- Read everything that is left. -/
def readRemaining : Reader (List UInt8) := fun src => .ok (src, [])

/-- Read one byte. -/
def readU8 : Reader UInt8 := do
  let bytes ← readSlice 1
  return UInt8.ofNat (ofBigEndian bytes)

/-- Read a 16-bit number, most significant byte first. -/
def readU16Be : Reader UInt16 := do
  let bytes ← readSlice 2
  return UInt16.ofNat (ofBigEndian bytes)

/-- Read a 32-bit number, most significant byte first. -/
def readU32Be : Reader UInt32 := do
  let bytes ← readSlice 4
  return UInt32.ofNat (ofBigEndian bytes)

/-- Read a 16-bit number, least significant byte first. -/
def readU16Le : Reader UInt16 := do
  let bytes ← readSlice 2
  return UInt16.ofNat (ofBigEndian bytes.reverse)

/-- Read a 32-bit number, least significant byte first. -/
def readU32Le : Reader UInt32 := do
  let bytes ← readSlice 4
  return UInt32.ofNat (ofBigEndian bytes.reverse)

/-- Read a block of fixed size without a check. -/
def readArray (size : ℕ) : Reader (ByteBlock size) := fun src =>
  if h : src.length < size then .error .outOfBounds
  else .ok (⟨src.take size, List.length_take_of_le (Nat.not_lt.mp h)⟩, src.drop size)

/-- Fail with an invalid field. -/
def invalidField {α : Type} (field reason : String) : Reader α := fun _ =>
  .error (.invalidField field reason)

/-- The reader gets this value from these bytes and leaves what follows. -/
def Gets {α : Type} (r : Reader α) (bytes : List UInt8) (value : α) : Prop :=
  ∀ rest, r (bytes ++ rest) = .ok (value, rest)

end Reader

namespace Writer

/-- The buffer a writer leaves in a cursor of the given capacity. -/
def toBytes (w : Writer Unit) (capacity : ℕ) : Except EncodeError (List UInt8) :=
  (w ⟨capacity, []⟩).map fun done => done.2.written

/-- Writing nothing emits nothing. -/
theorem emits_pure : Emits (pure ()) [] := by
  intro dst
  refine ⟨fun _ => ?_, fun h => absurd h (Nat.not_lt_zero _)⟩
  have happend : dst.append [] = dst := by simp [WriteCursor.append]
  rw [happend]
  rfl

/-- An unchecked write emits its bytes. -/
theorem emits_writeSlice (bytes : List UInt8) : Emits (writeSlice bytes) bytes := by
  intro dst
  refine ⟨fun h => ?_, fun h => ⟨.outOfBounds, ?_⟩⟩
  · simp only [writeSlice, if_neg (Nat.not_lt.mpr h)]
  · simp only [writeSlice, if_pos h]

theorem emits_writeU8 (value : UInt8) : Emits (writeU8 value) [value] := emits_writeSlice _

theorem emits_writeU16Be (value : UInt16) :
    Emits (writeU16Be value) (bigEndian 2 value.toNat) := emits_writeSlice _

theorem emits_writeU32Be (value : UInt32) :
    Emits (writeU32Be value) (bigEndian 4 value.toNat) := emits_writeSlice _

/-- One writer after another emits their bytes one after the other. -/
theorem emits_append {first second : Writer Unit} {front back : List UInt8}
    (hfirst : Emits first front) (hsecond : Emits second back) :
    Emits (do first; second) (front ++ back) := by
  intro dst
  have hroom : (dst.append front).room = dst.room - front.length := by
    simp only [WriteCursor.room, WriteCursor.append, List.length_append]
    omega
  have hbind : ∀ dst', first dst = .ok ((), dst') → (do first; second) dst = second dst' := by
    intro dst' h
    simp only [bind, StateT.bind, h, Except.bind]
  constructor
  · intro hfits
    rw [List.length_append] at hfits
    rw [hbind _ ((hfirst dst).1 (by omega)), (hsecond _).1 (by omega)]
    simp only [WriteCursor.append, List.append_assoc]
  · intro hfull
    rw [List.length_append] at hfull
    by_cases hfront : front.length ≤ dst.room
    · rw [hbind _ ((hfirst dst).1 hfront)]
      exact (hsecond _).2 (by omega)
    · obtain ⟨e, he⟩ := (hfirst dst).2 (by omega)
      exact ⟨e, by simp only [bind, StateT.bind, he, Except.bind]⟩

variable {w : Writer Unit} {bytes : List UInt8}

/-- A check for no more than what is written does not change what is emitted. -/
theorem emits_ensureSize {size : ℕ} (h : Emits w bytes) (hsize : size ≤ bytes.length) :
    Emits (do ensureSize size; w) bytes := by
  intro dst
  by_cases hroom : dst.room < size
  · refine ⟨fun hfits => ?_, fun _ => ⟨.notEnoughBytes dst.room size, ?_⟩⟩
    · omega
    · simp only [bind, StateT.bind, ensureSize, if_pos hroom, Except.bind]
  · have hpass : (do ensureSize size; w) dst = w dst := by
      simp only [bind, StateT.bind, ensureSize, if_neg hroom, Except.bind]
    rw [hpass]
    exact h dst

/-- Writing the items of a list emits their bytes in order. -/
theorem emits_forM {α : Type} {items : List α} {w : α → Writer Unit} {bytes : α → List UInt8}
    (h : ∀ item, Emits (w item) (bytes item)) : Emits (items.forM w) (items.flatMap bytes) := by
  induction items with
  | nil => exact emits_pure
  | cons item rest ih => exact emits_append (h item) ih

/-- Write an optional section. -/
def optional {α : Type} (part? : Option α) (w : α → Writer Unit) : Writer Unit :=
  match part? with
  | none => pure ()
  | some part => w part

/-- An optional section emits its bytes when it is there. -/
theorem emits_optional {α : Type} {w : α → Writer Unit} {bytes : α → List UInt8}
    (h : ∀ part, Emits (w part) (bytes part)) (part? : Option α) :
    Emits (optional part? w) (part?.elim [] bytes) := by
  cases part? with
  | none => exact emits_pure
  | some part => exact h part

/-- A writer that fits gives its bytes. -/
theorem toBytes_ok {capacity : ℕ} (h : Emits w bytes)
    (hfits : bytes.length ≤ capacity) : w.toBytes capacity = .ok bytes := by
  rw [toBytes, (h ⟨capacity, []⟩).1 (by simpa [WriteCursor.room] using hfits)]
  rfl

/-- Whatever buffer a writer gives holds its bytes, and they fitted. -/
theorem toBytes_eq {out : List UInt8} {capacity : ℕ} (h : Emits w bytes)
    (hout : w.toBytes capacity = .ok out) : out = bytes ∧ bytes.length ≤ capacity := by
  by_cases hfits : bytes.length ≤ capacity
  · rw [toBytes_ok h hfits] at hout
    cases hout
    exact ⟨rfl, hfits⟩
  · obtain ⟨e, he⟩ := (h ⟨capacity, []⟩).2 (by simp [WriteCursor.room]; omega)
    rw [toBytes, he] at hout
    cases hout

end Writer

namespace Reader

/-- The value a reader gets from the front of a buffer. -/
def fromBytes {α : Type} (r : Reader α) (src : List UInt8) : Except DecodeError α :=
  (r src).map Prod.fst

variable {α β : Type}

/-- Getting nothing reads nothing. -/
theorem gets_pure (value : α) : Gets (pure value) [] value := fun _ => rfl

variable {r : Reader α} {next : α → Reader β} {a value : α}

/-- One reader after another reads their bytes one after the other. -/
theorem gets_bind {front back : List UInt8}
    {b : β} (hr : Gets r front a) (hnext : Gets (next a) back b) :
    Gets (r >>= next) (front ++ back) b := by
  intro rest
  rw [List.append_assoc]
  simp only [bind, StateT.bind, hr (back ++ rest), Except.bind]
  exact hnext rest

variable {bytes src : List UInt8}

/-- A reader whose value is then computed with. -/
theorem gets_map {f : α → β}
    (hr : Gets r bytes a) : Gets (do let value ← r; return f value) bytes (f a) := by
  have h : Gets (do let value ← r; return f value) (bytes ++ []) (f a) :=
    gets_bind hr (gets_pure (f a))
  rwa [List.append_nil] at h

variable {size : ℕ}

/-- A check for no more than what is read passes. -/
theorem gets_ensureSize (h : Gets r bytes value) (hsize : size ≤ bytes.length) :
    Gets (do ensureSize size; r) bytes value := by
  intro rest
  have hlen : ¬ (bytes ++ rest).length < size := by
    rw [List.length_append]
    omega
  simp only [bind, StateT.bind, ensureSize, if_neg hlen, Except.bind]
  exact h rest

/-- Reading as many bytes as a part has gets that part. -/
theorem gets_readSlice (h : bytes.length = size) : Gets (readSlice size) bytes bytes := by
  subst h
  intro rest
  have hlen : ¬ (bytes ++ rest).length < bytes.length := by
    rw [List.length_append]
    omega
  simp only [readSlice, if_neg hlen, List.take_left, List.drop_left]

/-- Reading a block gets it. -/
theorem gets_readArray (block : ByteBlock size) : Gets (readArray size) block.1 block := by
  obtain ⟨bytes, rfl⟩ := block
  intro rest
  have hlen : ¬ (bytes ++ rest).length < bytes.length := by
    rw [List.length_append]
    omega
  simp only [readArray, dif_neg hlen, List.take_left, List.drop_left]

theorem gets_readU8 (value : UInt8) : Gets readU8 [value] value := by
  have hslice : Gets (readSlice 1) [value] [value] := gets_readSlice rfl
  have h : Gets readU8 [value] (UInt8.ofNat (ofBigEndian [value])) := gets_map hslice
  have hvalue : UInt8.ofNat (ofBigEndian [value]) = value := by
    simp [ofBigEndian]
  rwa [hvalue] at h

theorem gets_readU16Be (value : UInt16) :
    Gets readU16Be (bigEndian 2 value.toNat) value := by
  have h : Gets readU16Be (bigEndian 2 value.toNat)
      (UInt16.ofNat (ofBigEndian (bigEndian 2 value.toNat))) :=
    gets_map (gets_readSlice (length_bigEndian 2 value.toNat))
  have hvalue : UInt16.ofNat (ofBigEndian (bigEndian 2 value.toNat)) = value := by
    rw [ofBigEndian_bigEndian, Nat.mod_eq_of_lt (by simpa using value.toNat_lt), UInt16.ofNat_toNat]
  rwa [hvalue] at h

theorem gets_readU16Le (value : UInt16) :
    Gets readU16Le (bigEndian 2 value.toNat).reverse value := by
  have h : Gets readU16Le (bigEndian 2 value.toNat).reverse
      (UInt16.ofNat (ofBigEndian (bigEndian 2 value.toNat).reverse.reverse)) :=
    gets_map (gets_readSlice (by simp))
  have hvalue : UInt16.ofNat (ofBigEndian (bigEndian 2 value.toNat).reverse.reverse) = value := by
    rw [List.reverse_reverse, ofBigEndian_bigEndian,
      Nat.mod_eq_of_lt (by simpa using value.toNat_lt), UInt16.ofNat_toNat]
  rwa [hvalue] at h

theorem gets_readU32Be (value : UInt32) :
    Gets readU32Be (bigEndian 4 value.toNat) value := by
  have h : Gets readU32Be (bigEndian 4 value.toNat)
      (UInt32.ofNat (ofBigEndian (bigEndian 4 value.toNat))) :=
    gets_map (gets_readSlice (length_bigEndian 4 value.toNat))
  have hvalue : UInt32.ofNat (ofBigEndian (bigEndian 4 value.toNat)) = value := by
    rw [ofBigEndian_bigEndian, Nat.mod_eq_of_lt (by simpa using value.toNat_lt), UInt32.ofNat_toNat]
  rwa [hvalue] at h

/-- Reading an item a given number of times. -/
def replicateM {α : Type} (r : Reader α) : ℕ → Reader (List α)
  | 0 => pure []
  | n + 1 => do
    let item ← r
    let rest ← replicateM r n
    return item :: rest

/-- Items written one after the other are read back as a list. -/
theorem gets_replicateM {bytes : α → List UInt8} {items : List α}
    (h : ∀ item ∈ items, Gets r (bytes item) item) :
    Gets (replicateM r items.length) (items.flatMap bytes) items := by
  induction items with
  | nil => exact gets_pure []
  | cons item rest ih =>
    refine gets_bind (h item List.mem_cons_self) ?_
    exact gets_map (ih fun other hmem => h other (List.mem_cons_of_mem _ hmem))

/-- Read a section that is there when the flag says so. -/
def optional {α : Type} (there : Bool) (r : Reader α) : Reader (Option α) :=
  if there then do
    let part ← r
    return some part
  else
    pure none

/-- A section that is there is read. -/
theorem gets_optional_true {part : α}
    (h : Gets r bytes part) : Gets (optional true r) bytes (some part) := gets_map h

/-- A section that is not there is not read. -/
theorem gets_optional_false (r : Reader α) : Gets (optional false r) [] none :=
  gets_pure none

/-- The reader gets this value from exactly these bytes. -/
def GetsAll {α : Type} (r : Reader α) (bytes : List UInt8) (value : α) : Prop :=
  r bytes = .ok (value, [])

/-- Reading the remainder takes all of it. -/
theorem getsAll_readRemaining (bytes : List UInt8) : GetsAll readRemaining bytes bytes := rfl

/-- Readers in sequence that get a value both got one. -/
theorem bind_ok {result : β × List UInt8} (h : (r >>= next) src = .ok result) :
    ∃ a rest, r src = .ok (a, rest) ∧ next a rest = .ok result := by
  simp only [bind, StateT.bind, Except.bind] at h
  split at h
  · cases h
  · next got hgot => exact ⟨got.1, got.2, hgot, h⟩

/-- A check that passed found enough bytes. -/
theorem ensureSize_ok {result : Unit × List UInt8}
    (h : ensureSize size src = .ok result) : size ≤ src.length ∧ result.2 = src := by
  simp only [ensureSize] at h
  split at h
  · cases h
  · next hlen =>
    cases h
    exact ⟨Nat.not_lt.mp hlen, rfl⟩

theorem readSlice_ok {result : List UInt8 × List UInt8}
    (h : readSlice size src = .ok result) : result = (src.take size, src.drop size) := by
  simp only [readSlice] at h
  split at h <;> cases h
  rfl

theorem readU16Be_ok {result : UInt16 × List UInt8} (h : readU16Be src = .ok result) :
    result = (UInt16.ofNat (ofBigEndian (src.take 2)), src.drop 2) := by
  obtain ⟨bytes, rest, hslice, hpure⟩ := bind_ok h
  cases readSlice_ok hslice
  cases hpure
  rfl

theorem readU32Be_ok {result : UInt32 × List UInt8} (h : readU32Be src = .ok result) :
    result = (UInt32.ofNat (ofBigEndian (src.take 4)), src.drop 4) := by
  obtain ⟨bytes, rest, hslice, hpure⟩ := bind_ok h
  cases readSlice_ok hslice
  cases hpure
  rfl

/-- A reader of the front followed by one that takes the remainder. -/
theorem getsAll_bind {front back : List UInt8}
    {b : β} (hr : Gets r front a) (hnext : GetsAll (next a) back b) :
    GetsAll (r >>= next) (front ++ back) b := by
  simp only [GetsAll, bind, StateT.bind, hr back, Except.bind]
  exact hnext

/-- A reader of the remainder whose value is then computed with. -/
theorem getsAll_map {f : α → β}
    (hr : GetsAll r bytes a) : GetsAll (do let value ← r; return f value) bytes (f a) := by
  have hr' : r bytes = .ok (a, []) := hr
  simp only [GetsAll, bind, StateT.bind, hr', Except.bind]
  rfl

/-- A reader of the front gets all of it when nothing follows. -/
theorem Gets.all (h : Gets r bytes value) : GetsAll r bytes value := by
  have hrest := h []
  rwa [List.append_nil] at hrest

/-- A reader that takes all of a buffer gets its value from it. -/
theorem fromBytes_of_getsAll (h : GetsAll r bytes value) : r.fromBytes bytes = .ok value := by
  have h' : r bytes = .ok (value, []) := h
  rw [fromBytes, h']
  rfl

end Reader
end Macrdp.ByteCodec
