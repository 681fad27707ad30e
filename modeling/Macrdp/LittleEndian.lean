import Macrdp.ByteCodec

/-!
# Little-endian numbers

Numbers of some width, least significant byte first, and sequences of 16-bit ones.
-/

namespace Macrdp.LittleEndian

open ByteCodec

/-- `value` as `width` bytes, least significant first. -/
def littleEndian (width value : ℕ) : List UInt8 := (bigEndian width value).reverse

/-- The number that bytes spell, least significant first. -/
def ofLittleEndian (bytes : List UInt8) : ℕ := ofBigEndian bytes.reverse

@[simp] theorem length_littleEndian (width value : ℕ) : (littleEndian width value).length = width := by
  rw [littleEndian, List.length_reverse, length_bigEndian]

/-- Reading back a number gives its low bytes. -/
theorem ofLittleEndian_littleEndian (width value : ℕ) :
    ofLittleEndian (littleEndian width value) = value % 256 ^ width := by
  rw [ofLittleEndian, littleEndian, List.reverse_reverse, ofBigEndian_bigEndian]

/-- Some bytes spell a number of their size. -/
theorem ofLittleEndian_lt (bytes : List UInt8) : ofLittleEndian bytes < 256 ^ bytes.length := by
  have hlt := ofBigEndian_lt bytes.reverse
  rwa [List.length_reverse] at hlt

/-- 16-bit numbers, one after the other. -/
def words (fields : List ℕ) : List UInt8 := fields.flatMap (littleEndian 2)

/-- Take some 16-bit numbers from the front. -/
def readWords : ℕ → List UInt8 → Option (List ℕ × List UInt8)
  | 0, bytes => some ([], bytes)
  | n + 1, bytes =>
    if bytes.length < 2 then none
    else (readWords n (bytes.drop 2)).map fun r => (ofLittleEndian (bytes.take 2) :: r.1, r.2)

@[simp] theorem length_words (fields : List ℕ) : (words fields).length = 2 * fields.length := by
  induction fields with
  | nil => rfl
  | cons f rest ih =>
    rw [words, List.flatMap_cons, List.length_append, length_littleEndian, List.length_cons]
    rw [words] at ih
    omega

/-- 16-bit numbers are read back. -/
theorem readWords_words {fields : List ℕ} (h : ∀ f ∈ fields, f ≤ 0xFFFF) (rest : List UInt8) :
    readWords fields.length (words fields ++ rest) = some (fields, rest) := by
  induction fields with
  | nil => rfl
  | cons f fields ih =>
    have hf : f ≤ 0xFFFF := h f List.mem_cons_self
    have hfront : words (f :: fields) ++ rest = littleEndian 2 f ++ (words fields ++ rest) := by
      rw [words, List.flatMap_cons, List.append_assoc]
      rfl
    have hlength : (littleEndian 2 f).length = 2 := length_littleEndian 2 f
    have hdrop : (littleEndian 2 f ++ (words fields ++ rest)).drop 2 = words fields ++ rest :=
      List.drop_left' hlength
    have htake : (littleEndian 2 f ++ (words fields ++ rest)).take 2 = littleEndian 2 f :=
      List.take_left' hlength
    have hvalue : ofLittleEndian (littleEndian 2 f) = f := by
      rw [ofLittleEndian_littleEndian]
      exact Nat.mod_eq_of_lt (by omega)
    rw [List.length_cons, readWords, hfront,
      if_neg (by rw [List.length_append, hlength]; omega), hdrop, htake,
      ih fun g hg => h g (List.mem_cons_of_mem f hg), Option.map_some, hvalue]

end Macrdp.LittleEndian
