import Mathlib.Data.List.Basic

/-!
# Positional reads and writes of bytes

A file is a list of bytes. A read from an offset ends at the end of the file, and
a write behind the end fills the gap with zeros.
-/

namespace Macrdp.FileBytes

/-- Up to `count` bytes from an offset. -/
def readAt (file : List UInt8) (offset count : ℕ) : List UInt8 := (file.drop offset).take count

/-- Put bytes at an offset; no bytes change nothing. -/
def writeAt (file : List UInt8) (offset : ℕ) (bytes : List UInt8) : List UInt8 :=
  if bytes = [] then file
  else
    file.take offset ++ List.replicate (offset - file.length) 0 ++ bytes ++
      file.drop (offset + bytes.length)

/-- The bytes that a read gives. -/
theorem getElem?_readAt (file : List UInt8) (offset count i : ℕ) :
    (readAt file offset count)[i]? = if i < count then file[offset + i]? else none := by
  rw [readAt, List.getElem?_take]
  split
  · rw [List.getElem?_drop]
  · rfl

/-- A read is as long as asked for, up to the end of the file. -/
theorem length_readAt (file : List UInt8) (offset count : ℕ) :
    (readAt file offset count).length = min count (file.length - offset) := by
  rw [readAt, List.length_take, List.length_drop]

/-- A write reaches to its own end, or leaves the length. -/
theorem length_writeAt {file bytes : List UInt8} {offset : ℕ} (hbytes : bytes ≠ []) :
    (writeAt file offset bytes).length = max file.length (offset + bytes.length) := by
  have hlen : (writeAt file offset bytes).length = min offset file.length +
      (offset - file.length) + bytes.length + (file.length - (offset + bytes.length)) := by
    simp only [writeAt, if_neg hbytes, List.length_append, List.length_take,
      List.length_replicate, List.length_drop]
  rw [hlen]
  omega

/-- The bytes of a file that was written to. -/
theorem getElem?_writeAt {file bytes : List UInt8} {offset : ℕ} (hbytes : bytes ≠ []) (i : ℕ) :
    (writeAt file offset bytes)[i]? =
      if i < offset then (if i < file.length then file[i]? else some 0)
      else if i < offset + bytes.length then bytes[i - offset]? else file[i]? := by
  have hpos : 0 < bytes.length := List.length_pos_iff.mpr hbytes
  have htake : (file.take offset).length = min offset file.length := List.length_take
  have hgap : (file.take offset ++ List.replicate (offset - file.length) (0 : UInt8)).length =
      offset := by
    rw [List.length_append, htake, List.length_replicate]
    omega
  have hmid : (file.take offset ++ List.replicate (offset - file.length) (0 : UInt8) ++
      bytes).length = offset + bytes.length := by
    rw [List.length_append, hgap]
  rw [writeAt, if_neg hbytes]
  by_cases hbefore : i < offset
  · rw [if_pos hbefore, List.getElem?_append_left (by omega),
      List.getElem?_append_left (by omega)]
    by_cases hin : i < file.length
    · rw [if_pos hin, List.getElem?_append_left (by omega), List.getElem?_take, if_pos hbefore]
    · rw [if_neg hin, List.getElem?_append_right (by omega), htake]
      exact List.getElem?_replicate_of_lt (by omega)
  · rw [if_neg hbefore]
    by_cases hwithin : i < offset + bytes.length
    · rw [if_pos hwithin, List.getElem?_append_left (by omega),
        List.getElem?_append_right (by omega), hgap]
    · rw [if_neg hwithin, List.getElem?_append_right (by omega), hmid, List.getElem?_drop]
      congr 1
      omega

/-- Bytes that were written are read back. -/
theorem readAt_writeAt {file bytes : List UInt8} {offset : ℕ} (hbytes : bytes ≠ []) :
    readAt (writeAt file offset bytes) offset bytes.length = bytes := by
  refine List.ext_getElem? fun i => ?_
  rw [getElem?_readAt, getElem?_writeAt hbytes]
  by_cases hi : i < bytes.length
  · rw [if_pos hi, if_neg (by omega), if_pos (by omega)]
    congr 1
    omega
  · rw [if_neg hi, List.getElem?_eq_none (by omega)]

end Macrdp.FileBytes
