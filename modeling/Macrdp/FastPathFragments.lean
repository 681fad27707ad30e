import Macrdp.BitmapEncoding

/-!
# Fast-path updates in fragments

An update is cut into fragments of limited size, each is put into a buffer with its headers, and the
buffers are merged into larger writes. The layout of the headers is not part of the server. What is
expected is that a client that reads the stream and puts the fragments together has every update,
with its code and data and in order.
-/

namespace Macrdp.FastPathFragments

open BitmapEncoding (Fragmentation maxFastpathUpdateSize)

/-! ## The client -/

/-- What an update is about. -/
inductive UpdateCode where
  | orders
  | bitmap
  | palette
  | synchronize
  | surfaceCommands
  | hiddenPointer
  | defaultPointer
  | positionPointer
  | colorPointer
  | cachedPointer
  | newPointer
  | largePointer
  deriving DecidableEq

/-- The number of a code in the protocol. -/
def UpdateCode.number : UpdateCode → ℕ
  | .orders => 0
  | .bitmap => 1
  | .palette => 2
  | .synchronize => 3
  | .surfaceCommands => 4
  | .hiddenPointer => 5
  | .defaultPointer => 6
  | .positionPointer => 8
  | .colorPointer => 9
  | .cachedPointer => 10
  | .newPointer => 11
  | .largePointer => 12

/-- The code of a number. -/
def UpdateCode.ofNumber : ℕ → Option UpdateCode
  | 0 => some .orders
  | 1 => some .bitmap
  | 2 => some .palette
  | 3 => some .synchronize
  | 4 => some .surfaceCommands
  | 5 => some .hiddenPointer
  | 6 => some .defaultPointer
  | 8 => some .positionPointer
  | 9 => some .colorPointer
  | 10 => some .cachedPointer
  | 11 => some .newPointer
  | 12 => some .largePointer
  | _ => none

/-- The number of a fragmentation in the protocol. -/
def fragmentationNumber : Fragmentation → ℕ
  | .single => 0
  | .last => 1
  | .first => 2
  | .next => 3

/-- The fragmentation of a number. -/
def fragmentationOf : ℕ → Fragmentation
  | 0 => .single
  | 1 => .last
  | 2 => .first
  | _ => .next

/-- An update or a part of it. -/
structure Fragment where
  fragmentation : Fragmentation
  code : UpdateCode
  data : List UInt8
  deriving DecidableEq

/-- What a server sends: fast-path updates, or something else. -/
inductive Pdu where
  | fastPath (fragments : List Fragment)
  | slowPath
  deriving DecidableEq

/-- Take items from the front of bytes until none are left, at most so many. -/
def readMany {β : Type*} (read : List UInt8 → Option (β × List UInt8)) :
    ℕ → List UInt8 → Option (List β)
  | _, [] => some []
  | 0, _ :: _ => none
  | n + 1, b :: bytes =>
    (read (b :: bytes)).bind fun r => (readMany read n r.2).map fun items => r.1 :: items

/-- The length in a fast-path header, and what follows the header. -/
def readHeader : List UInt8 → Option (ℕ × List UInt8)
  | _ :: length1 :: rest =>
    if length1.toNat < 128 then some (length1.toNat, rest)
    else
      match rest with
      | length2 :: rest => some ((length1.toNat - 128) * 256 + length2.toNat, rest)
      | [] => none
  | _ => none

/-- Take an update that is not compressed from the front. -/
def readUpdate : List UInt8 → Option (Fragment × List UInt8)
  | header :: low :: high :: rest =>
    let size := low.toNat + 256 * high.toNat
    if 64 ≤ header.toNat ∨ rest.length < size then none
    else (UpdateCode.ofNumber (header.toNat % 16)).map fun code =>
      (⟨fragmentationOf (header.toNat / 16), code, rest.take size⟩, rest.drop size)
  | _ => none

/-- The length that the header of something sent has, and the length of the header. -/
def pduLength : List UInt8 → Option (ℕ × ℕ)
  | 0 :: rest => (readHeader (0 :: rest)).map fun r => (r.1, rest.length + 1 - r.2.length)
  | 3 :: _ :: high :: low :: _ => some (256 * high.toNat + low.toNat, 4)
  | _ => none

/-- Take what was sent at once from the front of the stream. -/
def readPdu (bytes : List UInt8) : Option (Pdu × List UInt8) :=
  (pduLength bytes).bind fun (length, headerLength) =>
    if bytes.length < length ∨ length < headerLength then none
    else if bytes.head? = some 0 then
      (readMany readUpdate length ((bytes.take length).drop headerLength)).map fun fragments =>
        (.fastPath fragments, bytes.drop length)
    else some (.slowPath, bytes.drop length)

/-- An update as a whole. -/
abbrev WholeUpdate := UpdateCode × List UInt8

/-- The updates that a client has, and the one it puts together. -/
structure Client where
  updates : List WholeUpdate
  assembling : Option WholeUpdate
  deriving DecidableEq

/-- A client that has nothing yet. -/
def Client.new : Client := ⟨[], none⟩

/-- The client gets a fragment, which must be the one that is due. -/
def Client.receive (c : Client) (f : Fragment) : Option Client :=
  match f.fragmentation, c.assembling with
  | .single, none => some { c with updates := c.updates ++ [(f.code, f.data)] }
  | .first, none => some { c with assembling := some (f.code, f.data) }
  | .next, some (code, data) =>
    if f.code = code then some { c with assembling := some (code, data ++ f.data) } else none
  | .last, some (code, data) =>
    if f.code = code then some ⟨c.updates ++ [(code, data ++ f.data)], none⟩ else none
  | _, _ => none

/-- The client gets what was sent at once. -/
def Client.take (c : Client) : Pdu → Option Client
  | .fastPath fragments => fragments.foldlM Client.receive c
  | .slowPath => some c

/-- What a client has of a stream. -/
def readStream (bytes : List UInt8) : Option Client :=
  (readMany readPdu bytes.length bytes).bind fun pdus => pdus.foldlM Client.take .new

/-! ## The server -/

/-- The size of an update with its header, and the encoding of a header and of an update into a
buffer with so much room. -/
structure Layout where
  updateSize : Fragment → ℕ
  header : ℕ → ℕ → Option (List UInt8)
  update : Fragment → ℕ → Option (List UInt8)

/-- Bytes for the headers of an update. -/
def fastpathHeaderSize : ℕ := 6

/-- An update that is cut into fragments: how many there were, and how much of the data they had. -/
structure UpdateFragmenter where
  code : UpdateCode
  index : ℕ
  data : List UInt8
  position : ℕ

namespace UpdateFragmenter

def new (code : UpdateCode) (data : List UInt8) : UpdateFragmenter := ⟨code, 0, data, 0⟩

variable (p : Layout) (f : UpdateFragmenter)

/-- A size that every fragment fits in. -/
def sizeHint : ℕ := fastpathHeaderSize + min f.data.length maxFastpathUpdateSize

/-- Put a fragment with its headers into a buffer. -/
def encodeFastpath (fragmentation : Fragmentation) (data : List UInt8) (room : ℕ) :
    Option (List UInt8) :=
  let update : Fragment := ⟨fragmentation, f.code, data⟩
  (p.header (p.updateSize update) room).bind fun header =>
    (p.update update (room - header.length)).map fun body => header ++ body

/-- The next fragment, and how much of the data it has. -/
def encodeNext (room : ℕ) : Option (ℕ × List UInt8) :=
  let remaining := f.data.length - f.position
  if remaining = 0 then none
  else if remaining ≤ maxFastpathUpdateSize then
    (f.encodeFastpath p (if 0 < f.index then .last else .single) (f.data.drop f.position) room).map
      fun written => (remaining, written)
  else
    (f.encodeFastpath p (if 0 < f.index then .next else .first)
      ((f.data.drop f.position).take maxFastpathUpdateSize) room).map
      fun written => (maxFastpathUpdateSize, written)

/-- The next fragment, and the fragmenter behind it. -/
def next (room : ℕ) : Option (UpdateFragmenter × List UInt8) :=
  (f.encodeNext p room).map fun (consumed, written) =>
    ({ f with position := f.position + consumed, index := f.index + 1 }, written)

/-- Every fragment has some of the data. -/
theorem next_decreases {p : Layout} {f f' : UpdateFragmenter} {room : ℕ} {written : List UInt8}
    (h : f.next p room = some (f', written)) :
    f'.data.length - f'.position < f.data.length - f.position := by
  obtain ⟨⟨consumed, bytes⟩, hnext, hmove⟩ := Option.map_eq_some_iff.mp h
  have hf' : f' = { f with position := f.position + consumed, index := f.index + 1 } :=
    (congrArg Prod.fst hmove).symm
  have hmax : 0 < maxFastpathUpdateSize := by decide
  unfold encodeNext at hnext
  dsimp only at hnext
  split at hnext
  next => cases hnext
  next hpos =>
    have hconsumed : 0 < consumed := by
      split at hnext
      next =>
        obtain ⟨_, -, heq⟩ := Option.map_eq_some_iff.mp hnext
        have := congrArg Prod.fst heq
        dsimp only at this
        omega
      next =>
        obtain ⟨_, -, heq⟩ := Option.map_eq_some_iff.mp hnext
        have := congrArg Prod.fst heq
        dsimp only at this
        omega
    rw [hf']
    dsimp only
    omega

end UpdateFragmenter

/-- Most bytes of a merged write. -/
def maxCoalescedDisplayBytes : ℕ := 64 * 1024

/-- What was written, and what is still to be written. -/
structure Output where
  writes : List (List UInt8)
  coalesced : List UInt8

/-- Write what was merged. -/
def Output.flush (o : Output) : Output :=
  if o.coalesced = [] then o else ⟨o.writes ++ [o.coalesced], []⟩

/-- Merge or write a fragment. -/
def Output.add (o : Output) (bytes : List UInt8) : Output :=
  if maxCoalescedDisplayBytes < bytes.length then
    { o.flush with writes := o.flush.writes ++ [bytes] }
  else if maxCoalescedDisplayBytes < o.coalesced.length + bytes.length then
    { o.flush with coalesced := o.flush.coalesced ++ bytes }
  else { o with coalesced := o.coalesced ++ bytes }

/-- Merge or write all fragments of an update. -/
def UpdateFragmenter.sendAll (p : Layout) (f : UpdateFragmenter) (room : ℕ) (o : Output) : Output :=
  match _h : f.next p room with
  | none => o
  | some (f', written) => f'.sendAll p room (o.add written)
termination_by f.data.length - f.position
decreasing_by exact next_decreases _h

/-- An update of the display: a change of its size, or what the encoder makes of it, which can end
with an error. -/
inductive DisplayUpdate where
  | resize
  | encoded (items : List WholeUpdate) (failed : Bool)

/-- The size of the buffer for fragments, what was written, and whether there was an error. -/
structure Connection where
  buffer : ℕ
  writes : List (List UInt8)
  failed : Bool

/-- Send an update as the encoder has made it, in a buffer that is made large enough. -/
def sendItem (p : Layout) (s : ℕ × Output) (item : WholeUpdate) : ℕ × Output :=
  let fragmenter := UpdateFragmenter.new item.1 item.2
  let buffer := if s.1 < fragmenter.sizeHint then fragmenter.sizeHint else s.1
  (buffer, fragmenter.sendAll p buffer s.2)

/-- The buffer that a connection starts with. -/
def initialBuffer : ℕ := 4096

/-- Send an update of the display. Behind an error nothing is sent. -/
def dispatchDisplayUpdate (p : Layout) (deactivateAll : List UInt8) (c : Connection)
    (u : DisplayUpdate) : Connection :=
  if c.failed then c
  else
    match u with
    | .resize => ⟨initialBuffer, c.writes ++ [deactivateAll], false⟩
    | .encoded items failed =>
      let sent := items.foldl (sendItem p) (c.buffer, ⟨[], []⟩)
      let output := if failed then sent.2 else sent.2.flush
      ⟨sent.1, c.writes ++ output.writes, failed⟩

/-- Send updates of the display. -/
def dispatchDisplay (p : Layout) (deactivateAll : List UInt8) (updates : List DisplayUpdate) :
    Connection :=
  updates.foldl (dispatchDisplayUpdate p deactivateAll) ⟨initialBuffer, [], false⟩

/-- What a connection has written. -/
def Connection.stream (c : Connection) : List UInt8 := c.writes.flatten

/-! ## What is expected -/

/-- The updates that the encoder has made, up to those of a display update that ends with an
error. -/
def wholeUpdates : List DisplayUpdate → List WholeUpdate
  | [] => []
  | .resize :: rest => wholeUpdates rest
  | .encoded items false :: rest => items ++ wholeUpdates rest
  | .encoded _ true :: _ => []

/-- Everything that was sent has its size in its header, and the client that reads the stream has
every update once and in order, and, where there was no error, nothing else. -/
def Kept (p : Layout) (deactivateAll : List UInt8) (updates : List DisplayUpdate) : Prop :=
  let c := dispatchDisplay p deactivateAll updates
  ∃ pdus : List (List UInt8), pdus.flatten = c.stream ∧
    (∀ pdu ∈ pdus, (pduLength pdu).map Prod.fst = some pdu.length) ∧
    ∃ client, readStream c.stream = some client ∧ wholeUpdates updates <+: client.updates ∧
      (c.failed = false → client = ⟨wholeUpdates updates, none⟩)

/-- No update is without data. -/
def Substantial (updates : List DisplayUpdate) : Prop := ∀ u ∈ wholeUpdates updates, u.2 ≠ []

/-- What is documented of the headers: their sizes, and that they are written where there is room
for them and have the length, the kind and the code. -/
structure Layout.Documented (p : Layout) : Prop where
  updateSize : ∀ f : Fragment, p.updateSize f = f.data.length + 3
  header : ∀ n room, n < 0x7FFD → 3 ≤ room → ∃ bytes, p.header n room = some bytes ∧
    bytes.length ≤ 3 ∧ bytes.head? = some 0 ∧
    ∀ rest, readHeader (bytes ++ rest) = some (n + bytes.length, rest)
  update : ∀ (f : Fragment) (room : ℕ), f.data.length ≤ 0xFFFF → f.data.length + 3 ≤ room →
    ∃ bytes, p.update f room = some bytes ∧ bytes.length = f.data.length + 3 ∧
      ∀ rest, readUpdate (bytes ++ rest) = some (f, rest)

/-- Bytes of a message that is no fast-path update, with its size in its header. -/
def SlowPath (bytes : List UInt8) : Prop :=
  ∃ reserved high low body, bytes = 3 :: reserved :: high :: low :: body ∧
    256 * high.toNat + low.toNat = bytes.length

/-! ## Reading what was sent -/

/-- Items that are written one after the other are read back. -/
theorem readMany_flatten {β : Type*} {read : List UInt8 → Option (β × List UInt8)}
    {items : List (List UInt8 × β)} (h : ∀ x ∈ items, x.1 ≠ [] ∧
      ∀ rest, read (x.1 ++ rest) = some (x.2, rest)) (n : ℕ)
    (hn : (items.map Prod.fst).flatten.length ≤ n) :
    readMany read n (items.map Prod.fst).flatten = some (items.map Prod.snd) := by
  induction items generalizing n with
  | nil => cases n <;> rfl
  | cons x items ih =>
    obtain ⟨hne, hread⟩ := h x List.mem_cons_self
    have hrest := ih fun y hy => h y (List.mem_cons_of_mem x hy)
    rw [List.map_cons, List.flatten_cons, List.length_append] at hn
    have hpos : 0 < x.1.length := List.length_pos_iff.mpr hne
    cases n with
    | zero => omega
    | succ n =>
      have hfront := hread (items.map Prod.fst).flatten
      rw [List.map_cons, List.flatten_cons, List.map_cons]
      cases hx : x.1 with
      | nil => exact absurd hx hne
      | cons b bytes =>
        rw [hx, List.cons_append] at hfront
        rw [List.cons_append, readMany, hfront, Option.bind_some, hrest n (by omega)]
        rfl

/-- No fragment of what was sent at once is without data. -/
def Pdu.Substantial : Pdu → Prop
  | .fastPath fragments => ∀ f ∈ fragments, f.data ≠ []
  | .slowPath => True

/-- Bytes that are read as something sent at once, with their size in their header. -/
structure Carries (bytes : List UInt8) (pdu : Pdu) : Prop where
  read : ∀ rest, readPdu (bytes ++ rest) = some (pdu, rest)
  length : (pduLength bytes).map Prod.fst = some bytes.length
  substantial : pdu.Substantial

theorem Carries.ne_nil {bytes : List UInt8} {pdu : Pdu} (h : Carries bytes pdu) : bytes ≠ [] := by
  intro hnil
  have hlength := h.length
  rw [hnil] at hlength
  exact absurd hlength (by decide)

/-- A message that is no fast-path update is read as such. -/
theorem SlowPath.carries {bytes : List UInt8} (h : SlowPath bytes) : Carries bytes .slowPath := by
  obtain ⟨reserved, high, low, body, hbytes, hlength⟩ := h
  have hpdu : ∀ rest, pduLength (bytes ++ rest) = some (bytes.length, 4) := by
    intro rest
    rw [← hlength, hbytes]
    rfl
  have hsize : 4 ≤ bytes.length := by
    rw [hbytes]
    exact Nat.le_add_left 4 body.length
  constructor
  · intro rest
    have hhead : (bytes ++ rest).head? = some 3 := by
      rw [hbytes]
      rfl
    rw [readPdu, hpdu, Option.bind_some]
    dsimp only
    rw [hhead, if_neg, if_neg (by decide), List.drop_left]
    rw [List.length_append]
    omega
  · have hall := hpdu []
    rw [List.append_nil] at hall
    rw [hall]
    rfl
  · trivial

variable {p : Layout}

/-- A fragment is put into a buffer that is large enough, and can be read. -/
theorem encodeFastpath_carries (hp : p.Documented) (f : UpdateFragmenter)
    (fragmentation : Fragmentation) {data : List UInt8} {room : ℕ} (hne : data ≠ [])
    (hdata : data.length ≤ maxFastpathUpdateSize) (hroom : data.length + 6 ≤ room) :
    ∃ bytes, f.encodeFastpath p fragmentation data room = some bytes ∧
      Carries bytes (.fastPath [⟨fragmentation, f.code, data⟩]) := by
  have hmax : maxFastpathUpdateSize = 16374 := rfl
  obtain ⟨header, hheader, hlength, hhead, hread⟩ :=
    hp.header (data.length + 3) room (by omega) (by omega)
  obtain ⟨body, hbody, hsize, hupdate⟩ := hp.update ⟨fragmentation, f.code, data⟩
    (room - header.length) (by dsimp only; omega) (by dsimp only; omega)
  dsimp only at hsize
  refine ⟨header ++ body, ?_, ?_⟩
  · rw [UpdateFragmenter.encodeFastpath, hp.updateSize, hheader, Option.bind_some, hbody]
    rfl
  · have hpduLength : ∀ rest, pduLength (header ++ (body ++ rest)) =
        some (body.length + header.length, header.length) := by
      intro rest
      cases header with
      | nil => exact absurd hhead (by decide)
      | cons b header =>
        have hb : b = 0 := Option.some.inj hhead
        subst hb
        have hfront := hread (body ++ rest)
        rw [List.cons_append] at hfront ⊢
        rw [pduLength, hfront, Option.map_some]
        simp only [List.length_append, List.length_cons, hsize]
        congr 2
        omega
    constructor
    · intro rest
      have hfront : (header ++ (body ++ rest)).head? = some 0 := by
        rw [List.head?_append, hhead]
        rfl
      have htake : (header ++ (body ++ rest)).take (body.length + header.length) =
          header ++ body := by
        rw [← List.append_assoc, Nat.add_comm, ← List.length_append, List.take_left]
      have hdrop : (header ++ (body ++ rest)).drop (body.length + header.length) = rest := by
        rw [← List.append_assoc, Nat.add_comm, ← List.length_append, List.drop_left]
      have hone : readMany readUpdate (body.length + header.length) body =
          some [⟨fragmentation, f.code, data⟩] := by
        have hbody : body ≠ [] := List.ne_nil_of_length_pos (by omega)
        have hitems := @readMany_flatten Fragment readUpdate
          [(body, ⟨fragmentation, f.code, data⟩)] (by
            intro x hx
            rw [List.mem_singleton.mp hx]
            exact ⟨hbody, hupdate⟩) (body.length + header.length)
        rw [List.map_singleton, List.flatten_singleton] at hitems
        exact hitems (Nat.le_add_right _ _)
      rw [List.append_assoc, readPdu, hpduLength, Option.bind_some]
      dsimp only
      rw [if_neg, if_pos hfront, htake, List.drop_left, hone, hdrop]
      · rfl
      · simp only [List.length_append]
        omega
    · have hall := hpduLength []
      rw [List.append_nil] at hall
      rw [hall, List.length_append, Nat.add_comm]
      rfl
    · intro g hg
      rw [List.mem_singleton.mp hg]
      exact hne

/-! ## What the client makes of it -/

/-- Bytes that take a client from one state to another. -/
def Sent (c : Client) (bytes : List UInt8) (c' : Client) : Prop :=
  ∃ items : List (List UInt8 × Pdu), (∀ x ∈ items, Carries x.1 x.2) ∧
    (items.map Prod.fst).flatten = bytes ∧ (items.map Prod.snd).foldlM Client.take c = some c'

variable {c c' c'' : Client}

theorem Sent.nil (c : Client) : Sent c [] c :=
  ⟨[], fun _ hx => absurd hx List.not_mem_nil, rfl, rfl⟩

theorem Sent.one {bytes : List UInt8} {pdu : Pdu} (h : Carries bytes pdu)
    (htake : c.take pdu = some c') : Sent c bytes c' := by
  refine ⟨[(bytes, pdu)], ?_, List.append_nil bytes, ?_⟩
  · intro x hx
    rw [List.mem_singleton.mp hx]
    exact h
  · rw [List.map_singleton, List.foldlM_cons, htake]
    rfl

theorem Sent.append {first second : List UInt8} (h : Sent c first c') (h' : Sent c' second c'') :
    Sent c (first ++ second) c'' := by
  obtain ⟨items, hitems, hbytes, hfold⟩ := h
  obtain ⟨items', hitems', hbytes', hfold'⟩ := h'
  refine ⟨items ++ items', ?_, ?_, ?_⟩
  · intro x hx
    exact (List.mem_append.mp hx).elim (hitems x) (hitems' x)
  · rw [List.map_append, List.flatten_append, hbytes, hbytes']
  · rw [List.map_append, List.foldlM_append, hfold]
    exact hfold'

/-- The client reads a stream as what it was sent. -/
theorem Sent.readStream {bytes : List UInt8} (h : Sent .new bytes c) :
    readStream bytes = some c := by
  obtain ⟨items, hitems, hbytes, hfold⟩ := h
  have hread := readMany_flatten (fun x hx => ⟨(hitems x hx).ne_nil, (hitems x hx).read⟩)
    bytes.length (by rw [hbytes])
  rw [hbytes] at hread
  rw [FastPathFragments.readStream, hread]
  exact hfold

/-- What was sent is cut into messages with their sizes in their headers. -/
theorem Sent.lengths {bytes : List UInt8} (h : Sent c bytes c') :
    ∃ pdus : List (List UInt8), pdus.flatten = bytes ∧
      ∀ pdu ∈ pdus, (pduLength pdu).map Prod.fst = some pdu.length := by
  obtain ⟨items, hitems, hbytes, -⟩ := h
  refine ⟨items.map Prod.fst, hbytes, ?_⟩
  intro pdu hpdu
  obtain ⟨x, hx, rfl⟩ := List.mem_map.mp hpdu
  exact (hitems x hx).length

/-! ## Fragments and writes -/

variable {f : UpdateFragmenter} {room : ℕ} {o : Output}

/-- The last fragment has the rest of the data. -/
theorem next_last (hp : p.Documented) (hroom : f.sizeHint ≤ room)
    (hrest : f.position < f.data.length)
    (hlast : f.data.length - f.position ≤ maxFastpathUpdateSize) :
    ∃ f' bytes, f.next p room = some (f', bytes) ∧ f'.next p room = none ∧
      Carries bytes (.fastPath
        [⟨if 0 < f.index then .last else .single, f.code, f.data.drop f.position⟩]) := by
  have hlength : (f.data.drop f.position).length = f.data.length - f.position := List.length_drop
  have hfits : (f.data.drop f.position).length + 6 ≤ room := by
    rw [UpdateFragmenter.sizeHint, fastpathHeaderSize] at hroom
    omega
  have hne : f.data.drop f.position ≠ [] := List.ne_nil_of_length_pos (by omega)
  obtain ⟨bytes, hbytes, hcarries⟩ := encodeFastpath_carries hp f
    (if 0 < f.index then .last else .single) hne (hlength ▸ hlast) hfits
  refine ⟨{ f with position := f.position + (f.data.length - f.position), index := f.index + 1 },
    bytes, ?_, ?_, hcarries⟩
  · rw [UpdateFragmenter.next, UpdateFragmenter.encodeNext]
    dsimp only
    rw [if_neg (by omega), if_pos hlast, hbytes]
    rfl
  · rw [UpdateFragmenter.next, UpdateFragmenter.encodeNext]
    dsimp only
    rw [if_pos (by omega)]
    rfl

/-- A fragmenter behind a fragment that has as much of the data as it can. -/
structure Moved (f f' : UpdateFragmenter) : Prop where
  code : f'.code = f.code
  data : f'.data = f.data
  index : 0 < f'.index
  position : f'.position = f.position + maxFastpathUpdateSize

/-- A fragment that is not the last has as much of the data as it can. -/
theorem next_more (hp : p.Documented) (hroom : f.sizeHint ≤ room)
    (hmore : maxFastpathUpdateSize < f.data.length - f.position) :
    ∃ f' bytes, f.next p room = some (f', bytes) ∧ Moved f f' ∧
      Carries bytes (.fastPath [⟨if 0 < f.index then .next else .first, f.code,
        (f.data.drop f.position).take maxFastpathUpdateSize⟩]) := by
  have hlength : ((f.data.drop f.position).take maxFastpathUpdateSize).length =
      maxFastpathUpdateSize := by
    rw [List.length_take, List.length_drop]
    omega
  have hfits : ((f.data.drop f.position).take maxFastpathUpdateSize).length + 6 ≤ room := by
    rw [UpdateFragmenter.sizeHint, fastpathHeaderSize] at hroom
    omega
  have hne : (f.data.drop f.position).take maxFastpathUpdateSize ≠ [] :=
    List.ne_nil_of_length_pos (by rw [hlength]; decide)
  obtain ⟨bytes, hbytes, hcarries⟩ := encodeFastpath_carries hp f
    (if 0 < f.index then .next else .first) hne (Nat.le_of_eq hlength) hfits
  refine ⟨{ f with position := f.position + maxFastpathUpdateSize, index := f.index + 1 }, bytes,
    ?_, ⟨rfl, rfl, Nat.succ_pos f.index, rfl⟩, hcarries⟩
  rw [UpdateFragmenter.next, UpdateFragmenter.encodeNext]
  dsimp only
  rw [if_neg (by omega), if_neg (by omega), hbytes]
  rfl

theorem Moved.sizeHint {f' : UpdateFragmenter} (h : Moved f f') : f'.sizeHint = f.sizeHint := by
  rw [UpdateFragmenter.sizeHint, UpdateFragmenter.sizeHint, h.data]

/-- What was written takes a client to some state, and what is merged from there to another. -/
def Output.Sound (c : Client) (o : Output) (c' : Client) : Prop :=
  ∃ written, Sent c o.writes.flatten written ∧ Sent written o.coalesced c'

/-- What was merged is written as a whole. -/
theorem Output.Sound.flush (h : o.Sound c c') : Sent c o.flush.writes.flatten c' := by
  obtain ⟨written, hwrites, hcoalesced⟩ := h
  rw [Output.flush]
  split
  next hempty =>
    rw [hempty] at hcoalesced
    have hall := hwrites.append hcoalesced
    rw [List.append_nil] at hall
    exact hall
  next =>
    have hall := hwrites.append hcoalesced
    simp only [List.flatten_append, List.flatten_singleton]
    exact hall

theorem Output.flush_coalesced (o : Output) : o.flush.coalesced = [] := by
  rw [Output.flush]
  split
  next hempty => exact hempty
  next => rfl

/-- A fragment is written or merged behind the others. -/
theorem Output.Sound.add {bytes : List UInt8} (h : o.Sound c c') (hbytes : Sent c' bytes c'') :
    (o.add bytes).Sound c c'' := by
  rw [Output.add]
  split
  next =>
    refine ⟨c'', ?_, ?_⟩
    · rw [List.flatten_append, List.flatten_singleton]
      exact h.flush.append hbytes
    · rw [o.flush_coalesced]
      exact Sent.nil c''
  next =>
    split
    next =>
      refine ⟨c', h.flush, ?_⟩
      rw [o.flush_coalesced]
      exact hbytes
    next =>
      obtain ⟨written, hwrites, hcoalesced⟩ := h
      exact ⟨written, hwrites, hcoalesced.append hbytes⟩

theorem sendAll_none (h : f.next p room = none) : f.sendAll p room o = o := by
  rw [UpdateFragmenter.sendAll]
  split
  next => rfl
  next f' bytes hsome => exact absurd (h.symm.trans hsome) (Option.some_ne_none _).symm

theorem sendAll_some {f' : UpdateFragmenter} {bytes : List UInt8}
    (h : f.next p room = some (f', bytes)) :
    f.sendAll p room o = f'.sendAll p room (o.add bytes) := by
  rw [UpdateFragmenter.sendAll]
  split
  next hnone => exact absurd (h.symm.trans hnone) (Option.some_ne_none _)
  next f'' bytes' hsome =>
    have hsame := Option.some.inj (h.symm.trans hsome)
    rw [Prod.mk.injEq] at hsame
    rw [hsame.1, hsame.2]

/-- The rest of the fragments completes the update. -/
theorem sendAll_rest (hp : p.Documented) {updates : List WholeUpdate} {taken : List UInt8}
    (hroom : f.sizeHint ≤ room) (hindex : 0 < f.index) (hrest : f.position < f.data.length)
    (h : o.Sound c ⟨updates, some (f.code, taken)⟩) :
    (f.sendAll p room o).Sound c
      ⟨updates ++ [(f.code, taken ++ f.data.drop f.position)], none⟩ := by
  induction hn : f.data.length - f.position using Nat.strong_induction_on
    generalizing f o taken with
  | _ n ih =>
    by_cases hlast : f.data.length - f.position ≤ maxFastpathUpdateSize
    · obtain ⟨f', bytes, hnext, hend, hcarries⟩ := next_last hp hroom hrest hlast
      rw [if_pos hindex] at hcarries
      rw [sendAll_some hnext, sendAll_none hend]
      refine h.add (Sent.one hcarries ?_)
      simp only [Client.take, List.foldlM_cons, List.foldlM_nil, Client.receive, if_true]
      rfl
    · have hlong := Nat.lt_of_not_le hlast
      obtain ⟨f', bytes, hnext, hmoved, hcarries⟩ := next_more hp hroom hlong
      rw [if_pos hindex] at hcarries
      have hmax : 0 < maxFastpathUpdateSize := by decide
      have hposition := hmoved.position
      have hstep : (o.add bytes).Sound c ⟨updates, some (f'.code,
          taken ++ (f.data.drop f.position).take maxFastpathUpdateSize)⟩ := by
        refine h.add (Sent.one hcarries ?_)
        simp only [Client.take, List.foldlM_cons, List.foldlM_nil, Client.receive, if_true,
          hmoved.code]
        rfl
      have hmore := ih _ (by rw [hmoved.data]; omega) (hmoved.sizeHint ▸ hroom) hmoved.index
        (by rw [hmoved.data]; omega) hstep rfl
      rw [hmoved.code, hmoved.data, hposition, ← List.drop_drop, List.append_assoc,
        List.take_append_drop] at hmore
      rw [sendAll_some hnext]
      exact hmore

/-- The updates that have data. -/
def withData (items : List WholeUpdate) : List WholeUpdate := items.filter fun u => u.2 ≠ []

/-- The client has an update that was sent, unless it is without data. -/
theorem sendAll_new (hp : p.Documented) {item : WholeUpdate} {updates : List WholeUpdate}
    (hroom : (UpdateFragmenter.new item.1 item.2).sizeHint ≤ room)
    (h : o.Sound c ⟨updates, none⟩) :
    ((UpdateFragmenter.new item.1 item.2).sendAll p room o).Sound c
      ⟨updates ++ withData [item], none⟩ := by
  obtain ⟨code, data⟩ := item
  dsimp only at hroom ⊢
  cases data with
  | nil =>
    rw [sendAll_none rfl]
    exact (List.append_nil updates).symm ▸ h
  | cons b data =>
    have hpos : (UpdateFragmenter.new code (b :: data)).position <
        (UpdateFragmenter.new code (b :: data)).data.length := Nat.succ_pos data.length
    have hfilter : withData [(code, b :: data)] = [(code, b :: data)] := rfl
    rw [hfilter]
    by_cases hlast : (b :: data).length ≤ maxFastpathUpdateSize
    · obtain ⟨f', bytes, hnext, hend, hcarries⟩ := next_last hp hroom hpos hlast
      rw [sendAll_some hnext, sendAll_none hend]
      exact h.add (Sent.one hcarries rfl)
    · have hlong := Nat.lt_of_not_le hlast
      obtain ⟨f', bytes, hnext, hmoved, hcarries⟩ := next_more hp hroom hlong
      have hposition : f'.position = maxFastpathUpdateSize :=
        hmoved.position.trans (Nat.zero_add _)
      have hdata : f'.data = b :: data := hmoved.data
      have hcode : f'.code = code := hmoved.code
      have hstep : (o.add bytes).Sound c ⟨updates, some (f'.code,
          (b :: data).take maxFastpathUpdateSize)⟩ := by
        rw [hcode]
        exact h.add (Sent.one hcarries rfl)
      have hmore := sendAll_rest hp (hmoved.sizeHint ▸ hroom) hmoved.index
        (by rw [hposition, hdata]; exact hlong) hstep
      rw [hcode, hdata, hposition, List.take_append_drop] at hmore
      rw [sendAll_some hnext]
      exact hmore

/-! ## Whole sessions -/

theorem withData_append (items items' : List WholeUpdate) :
    withData (items ++ items') = withData items ++ withData items' := List.filter_append ..

/-- The client has the updates of the encoder that have data. -/
theorem foldl_sendItem (hp : p.Documented) (items : List WholeUpdate) (buffer : ℕ)
    {updates : List WholeUpdate} (h : o.Sound c ⟨updates, none⟩) :
    (items.foldl (sendItem p) (buffer, o)).2.Sound c ⟨updates ++ withData items, none⟩ := by
  induction items generalizing buffer o updates with
  | nil =>
    rw [withData, List.filter_nil, List.append_nil]
    exact h
  | cons item items ih =>
    have hroom : (UpdateFragmenter.new item.1 item.2).sizeHint ≤
        (sendItem p (buffer, o) item).1 := by
      rw [sendItem]
      dsimp only
      split <;> omega
    have hstep := sendAll_new hp hroom h
    have hmore := ih (sendItem p (buffer, o) item).1 hstep
    rw [List.append_assoc, ← withData_append] at hmore
    exact hmore

/-- A client has more updates, and none without data if it had none. -/
structure Grown (c c' : Client) : Prop where
  updates : c.updates <+: c'.updates
  substantial : (∀ u ∈ c.updates, u.2 ≠ []) → ∀ u ∈ c'.updates, u.2 ≠ []

theorem Grown.refl (c : Client) : Grown c c := ⟨List.prefix_refl _, id⟩

theorem Grown.trans (h : Grown c c') (h' : Grown c' c'') : Grown c c'' :=
  ⟨h.updates.trans h'.updates, fun hc => h'.substantial (h.substantial hc)⟩

/-- A client with one more update. -/
theorem grown_append {u : WholeUpdate} (hu : u.2 ≠ []) (h : c'.updates = c.updates ++ [u]) :
    Grown c c' := by
  refine ⟨h ▸ List.prefix_append _ _, fun hc v hv => ?_⟩
  rw [h] at hv
  cases List.mem_append.mp hv with
  | inl hold => exact hc v hold
  | inr hnew =>
    rw [List.mem_singleton.mp hnew]
    exact hu

/-- A fragment with data adds an update with data, or none. -/
theorem receive_grown {fragment : Fragment} (hne : fragment.data ≠ [])
    (h : c.receive fragment = some c') : Grown c c' := by
  have hmore : ∀ data, data ++ fragment.data ≠ [] := fun data =>
    List.append_ne_nil_of_right_ne_nil data hne
  rw [Client.receive] at h
  split at h
  next =>
    cases h
    exact grown_append (u := (fragment.code, fragment.data)) hne rfl
  next =>
    cases h
    exact ⟨List.prefix_refl _, id⟩
  next =>
    cases (Option.ite_none_right_eq_some.mp h).2
    exact ⟨List.prefix_refl _, id⟩
  next code data _ _ =>
    cases (Option.ite_none_right_eq_some.mp h).2
    exact grown_append (u := (code, data ++ fragment.data)) (hmore data) rfl
  next => cases h

/-- A fold of such steps is one. -/
theorem foldlM_grown {β : Type*} {step : Client → β → Option Client} {xs : List β}
    (hstep : ∀ x ∈ xs, ∀ c c', step c x = some c' → Grown c c') (h : xs.foldlM step c = some c') :
    Grown c c' := by
  induction xs generalizing c with
  | nil =>
    cases h
    exact Grown.refl _
  | cons x xs ih =>
    obtain ⟨c₁, hfirst, hrest⟩ := Option.bind_eq_some_iff.mp h
    exact (hstep x List.mem_cons_self c c₁ hfirst).trans
      (ih (fun y hy => hstep y (List.mem_cons_of_mem x hy)) hrest)

theorem Sent.grown {bytes : List UInt8} (h : Sent c bytes c') : Grown c c' := by
  obtain ⟨items, hitems, -, hfold⟩ := h
  refine foldlM_grown (fun pdu hpdu c c' htake => ?_) hfold
  obtain ⟨x, hx, rfl⟩ := List.mem_map.mp hpdu
  have hsubstantial := (hitems x hx).substantial
  cases hx2 : x.2 with
  | fastPath fragments =>
    rw [hx2] at htake hsubstantial
    exact foldlM_grown (fun f hf c c' => receive_grown (hsubstantial f hf)) htake
  | slowPath =>
    rw [hx2] at htake
    cases htake
    exact Grown.refl c

variable {deactivateAll : List UInt8}

/-- Behind an error nothing is sent. -/
theorem foldl_failed (updates : List DisplayUpdate) {s : Connection} (h : s.failed = true) :
    updates.foldl (dispatchDisplayUpdate p deactivateAll) s = s := by
  induction updates with
  | nil => rfl
  | cons u updates ih =>
    have hsame : dispatchDisplayUpdate p deactivateAll s u = s := by
      unfold dispatchDisplayUpdate
      exact if_pos h
    rw [List.foldl_cons, hsame]
    exact ih

/-- The client has the updates that have data, and where there was no error, nothing else. -/
theorem dispatch_sent (hp : p.Documented) (hdeactivate : SlowPath deactivateAll)
    (updates : List DisplayUpdate) {s : Connection} (hok : s.failed = false)
    {had : List WholeUpdate} (h : Sent .new s.stream ⟨had, none⟩) :
    ∃ client, Sent .new (updates.foldl (dispatchDisplayUpdate p deactivateAll) s).stream client ∧
      had ++ withData (wholeUpdates updates) <+: client.updates ∧
      ((updates.foldl (dispatchDisplayUpdate p deactivateAll) s).failed = false →
        client = ⟨had ++ withData (wholeUpdates updates), none⟩) := by
  have hgo : ¬s.failed = true := by rw [hok]; exact Bool.false_ne_true
  induction updates generalizing s had with
  | nil =>
    refine ⟨⟨had, none⟩, h, ?_, fun _ => ?_⟩
    · exact (List.append_nil had).symm ▸ List.prefix_refl had
    · rw [wholeUpdates, withData, List.filter_nil, List.append_nil]
  | cons u updates ih =>
    rw [List.foldl_cons]
    cases u with
    | resize =>
      rw [dispatchDisplayUpdate, if_neg hgo]
      refine ih rfl ?_ Bool.false_ne_true
      rw [Connection.stream, List.flatten_append, List.flatten_singleton]
      exact h.append (Sent.one hdeactivate.carries rfl)
    | encoded items failed =>
      have hsound := foldl_sendItem hp items s.buffer (o := ⟨[], []⟩)
        ⟨⟨had, none⟩, Sent.nil _, Sent.nil _⟩
      rw [dispatchDisplayUpdate, if_neg hgo]
      dsimp only
      cases failed with
      | false =>
        have hwritten := h.append hsound.flush
        rw [wholeUpdates, withData_append, ← List.append_assoc]
        refine ih rfl ?_ Bool.false_ne_true
        rw [Connection.stream, List.flatten_append]
        exact hwritten
      | true =>
        obtain ⟨written, hwrites, -⟩ := hsound
        rw [foldl_failed updates rfl]
        refine ⟨written, ?_, ?_, fun hfalse => Bool.noConfusion hfalse⟩
        · rw [Connection.stream, List.flatten_append]
          exact h.append hwrites
        · rw [wholeUpdates, withData, List.filter_nil, List.append_nil]
          exact hwrites.grown.updates

/-- For display updates of any number, each with any number of updates of any code and length: all
that is sent has its size in its header, and a client that reads the stream has every update once
and in order exactly if none is without data. -/
theorem kept_iff_substantial (hp : p.Documented) (hdeactivate : SlowPath deactivateAll)
    (updates : List DisplayUpdate) : Kept p deactivateAll updates ↔ Substantial updates := by
  obtain ⟨client, hsent, hprefix, hwhole⟩ := @dispatch_sent p deactivateAll hp hdeactivate updates
    ⟨initialBuffer, [], false⟩ rfl [] (Sent.nil _)
  rw [List.nil_append] at hprefix hwhole
  constructor
  · rintro ⟨-, -, -, client', hread, hprefix', -⟩ u hu
    have hsame : client = client' := Option.some.inj (hsent.readStream.symm.trans hread)
    refine hsent.grown.substantial (fun v hv => absurd hv List.not_mem_nil) u ?_
    rw [hsame]
    exact hprefix'.subset hu
  · intro hsubstantial
    have hall : withData (wholeUpdates updates) = wholeUpdates updates :=
      List.filter_eq_self.mpr fun u hu => decide_eq_true (hsubstantial u hu)
    rw [hall] at hprefix hwhole
    obtain ⟨pdus, hpdus, hlengths⟩ := hsent.lengths
    exact ⟨pdus, hpdus, hlengths, client, hsent.readStream, hprefix, hwhole⟩

/-! ## The layout of the protocol -/

/-- The headers as the protocol has them. -/
def plainLayout : Layout where
  updateSize f := f.data.length + 3
  header n room :=
    if n + 2 < 128 then
      if room < 2 then none else some [0, UInt8.ofNat (n + 2)]
    else if room < 3 ∨ 0x7FFD ≤ n then none
    else some [0, UInt8.ofNat (128 + (n + 3) / 256), UInt8.ofNat ((n + 3) % 256)]
  update f room :=
    if room < f.data.length + 3 ∨ 0xFFFF < f.data.length then none
    else some ([UInt8.ofNat (f.code.number + 16 * fragmentationNumber f.fragmentation),
      UInt8.ofNat (f.data.length % 256), UInt8.ofNat (f.data.length / 256)] ++ f.data)

/-- The value of a byte. -/
theorem byte_toNat {n : ℕ} (h : n < 256) : (UInt8.ofNat n).toNat = n :=
  UInt8.toNat_ofNat_of_lt' h

/-- A code and a fragmentation are read back from one byte. -/
theorem header_read (code : UpdateCode) (fragmentation : Fragmentation) :
    (UInt8.ofNat (code.number + 16 * fragmentationNumber fragmentation)).toNat < 64 ∧
      UpdateCode.ofNumber
        ((UInt8.ofNat (code.number + 16 * fragmentationNumber fragmentation)).toNat % 16) =
          some code ∧
      fragmentationOf
        ((UInt8.ofNat (code.number + 16 * fragmentationNumber fragmentation)).toNat / 16) =
          fragmentation := by
  cases code <;> cases fragmentation <;> decide

theorem plainLayout_documented : plainLayout.Documented := by
  constructor
  · exact fun f => rfl
  · intro n room hn hroom
    by_cases hshort : n + 2 < 128
    · refine ⟨[0, UInt8.ofNat (n + 2)], ?_, Nat.le_succ 2, rfl, fun rest => ?_⟩
      · simp only [plainLayout, if_pos hshort]
        exact if_neg (by omega)
      · have hvalue : (UInt8.ofNat (n + 2)).toNat = n + 2 :=
          byte_toNat (by omega)
        simp only [List.cons_append, List.nil_append, readHeader, hvalue, if_pos hshort]
        rfl
    · refine ⟨[0, UInt8.ofNat (128 + (n + 3) / 256), UInt8.ofNat ((n + 3) % 256)], ?_,
        Nat.le_refl 3, rfl, fun rest => ?_⟩
      · simp only [plainLayout, if_neg hshort]
        exact if_neg (by omega)
      · have hfirst : (UInt8.ofNat (128 + (n + 3) / 256)).toNat = 128 + (n + 3) / 256 :=
          byte_toNat (by omega)
        have hsecond : (UInt8.ofNat ((n + 3) % 256)).toNat = (n + 3) % 256 :=
          byte_toNat (by omega)
        have hlong : ¬128 + (n + 3) / 256 < 128 := by omega
        have hsum : (128 + (n + 3) / 256 - 128) * 256 + (n + 3) % 256 = n + 3 := by omega
        simp only [List.cons_append, List.nil_append, readHeader, hfirst, hsecond, if_neg hlong,
          hsum]
        rfl
  · intro f room hdata hroom
    obtain ⟨hsmall, hcode, hfragmentation⟩ := header_read f.code f.fragmentation
    have hlow : (UInt8.ofNat (f.data.length % 256)).toNat = f.data.length % 256 :=
      byte_toNat (by omega)
    have hhigh : (UInt8.ofNat (f.data.length / 256)).toNat = f.data.length / 256 :=
      byte_toNat (by omega)
    have hsize : f.data.length % 256 + 256 * (f.data.length / 256) = f.data.length := by omega
    refine ⟨_, if_neg (by omega), ?_, fun rest => ?_⟩
    · rw [List.length_append]
      exact Nat.add_comm 3 f.data.length
    · have hfits : ¬(64 ≤ (UInt8.ofNat
          (f.code.number + 16 * fragmentationNumber f.fragmentation)).toNat ∨
          (f.data ++ rest).length < f.data.length) := by
        rw [List.length_append]
        omega
      simp only [List.cons_append, List.nil_append, readUpdate, hlow, hhigh, hsize, if_neg hfits,
        hcode, hfragmentation, Option.map_some, List.take_left, List.drop_left]

/-- A pointer is moved, and the display is resized. -/
def pointerMoved : List DisplayUpdate :=
  [.encoded [(.positionPointer, [4, 0, 7, 0])] false, .resize]

theorem kept_iff_substantial_pointerMoved :
    SlowPath [3, 0, 0, 4] ∧
      (Kept plainLayout [3, 0, 0, 4] pointerMoved ↔ Substantial pointerMoved) := by
  have hdeactivate : SlowPath [3, 0, 0, 4] := ⟨0, 0, 4, [], rfl, rfl⟩
  exact ⟨hdeactivate, kept_iff_substantial plainLayout_documented hdeactivate pointerMoved⟩

/-- The pointer is hidden. -/
def pointerHidden : List DisplayUpdate := [.encoded [(.hiddenPointer, [])] false]

theorem not_kept_pointerHidden :
    ¬ ∀ (updates : List DisplayUpdate), Kept plainLayout [3, 0, 0, 4] updates := by
  intro h
  obtain ⟨-, -, -, client, hread, hprefix, -⟩ := h pointerHidden
  have hnothing : (dispatchDisplay plainLayout [3, 0, 0, 4] pointerHidden).stream = [] := by
    simp [dispatchDisplay, pointerHidden, dispatchDisplayUpdate, sendItem, Connection.stream,
      Output.flush, sendAll_none, UpdateFragmenter.next, UpdateFragmenter.encodeNext,
      UpdateFragmenter.new]
  rw [hnothing] at hread
  cases hread
  exact absurd hprefix (by decide)

end Macrdp.FastPathFragments
