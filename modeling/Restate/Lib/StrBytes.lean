import Mathlib.Data.List.Basic

/-! The operations of Rust's str and byte slices on the UTF-8 bytes of a string: a range may only
start and end on a character boundary, a split at a character cuts at its first occurrence, and
copying into a range of a buffer overwrites that range. On an ASCII string every index up to the
length is a boundary, so a range reads exactly the bytes between its ends. -/

namespace StrBytes

/-- str::is_char_boundary: the start, the end, or a byte that does not continue a character. -/
def isCharBoundary (bytes : List UInt8) (index : Nat) : Bool :=
  if index = 0 then true
  else
    match bytes[index]? with
    | none => index = bytes.length
    | some byte => byte < 0x80 || 0xC0 ≤ byte

/-- str::get with a range: the bytes from start to stop when both are boundaries. -/
def get (bytes : List UInt8) (start stop : Nat) : Option (List UInt8) :=
  if start ≤ stop ∧ isCharBoundary bytes start ∧ isCharBoundary bytes stop then
    some ((bytes.drop start).take (stop - start))
  else none

/-- str::get with a range that runs to the end. -/
def getFrom (bytes : List UInt8) (start : Nat) : Option (List UInt8) :=
  if isCharBoundary bytes start then some (bytes.drop start) else none

/-- str::split_once with an ASCII character: the bytes before its first occurrence and after. -/
def splitOnce (separator : UInt8) : List UInt8 → Option (List UInt8 × List UInt8)
  | [] => none
  | byte :: rest =>
    if byte = separator then some ([], rest)
    else (splitOnce separator rest).map fun (before, after) => (byte :: before, after)

/-- copy_from_slice into the range of a buffer that starts at offset. -/
def copyInto (buffer : List UInt8) (offset : Nat) (bytes : List UInt8) : List UInt8 :=
  buffer.take offset ++ bytes ++ buffer.drop (offset + bytes.length)

section Ascii

variable {bytes : List UInt8}

theorem isCharBoundary_of_ascii (ascii : ∀ byte ∈ bytes, byte < 128) {index : Nat}
    (within : index ≤ bytes.length) : isCharBoundary bytes index = true := by
  unfold isCharBoundary
  split
  · rfl
  · split
    · rename_i missing
      rw [List.getElem?_eq_none_iff] at missing
      simp only [decide_eq_true_eq]
      omega
    · rename_i byte found
      have below := ascii byte (List.mem_of_getElem? found)
      simp only [Bool.or_eq_true, decide_eq_true_eq]
      exact Or.inl below

theorem get_of_ascii (ascii : ∀ byte ∈ bytes, byte < 128) {start stop : Nat}
    (ordered : start ≤ stop) (within : stop ≤ bytes.length) :
    get bytes start stop = some ((bytes.drop start).take (stop - start)) := by
  rw [get, if_pos ⟨ordered, isCharBoundary_of_ascii ascii (by omega),
    isCharBoundary_of_ascii ascii within⟩]

theorem getFrom_of_ascii (ascii : ∀ byte ∈ bytes, byte < 128) {start : Nat}
    (within : start ≤ bytes.length) : getFrom bytes start = some (bytes.drop start) := by
  rw [getFrom, if_pos (isCharBoundary_of_ascii ascii within)]

end Ascii

theorem splitOnce_append (separator : UInt8) {before : List UInt8} (absent : separator ∉ before)
    (after : List UInt8) : splitOnce separator (before ++ separator :: after) = some (before, after) := by
  induction before with
  | nil => simp [splitOnce]
  | cons byte rest ih =>
    have other : byte ≠ separator := fun same => absent (same ▸ List.mem_cons_self)
    rw [List.cons_append, splitOnce, if_neg other, ih (fun mem => absent (List.mem_cons_of_mem _ mem))]
    rfl

@[simp] theorem length_copyInto {buffer : List UInt8} {offset : Nat} {bytes : List UInt8}
    (fits : offset + bytes.length ≤ buffer.length) :
    (copyInto buffer offset bytes).length = buffer.length := by
  simp only [copyInto, List.length_append, List.length_take, List.length_drop]
  omega

theorem copyInto_replicate (fill : UInt8) {count offset : Nat} {bytes : List UInt8}
    (fits : offset + bytes.length ≤ count) (rest : List UInt8) :
    copyInto (List.replicate count fill ++ rest) offset bytes =
      List.replicate offset fill ++ bytes ++ List.replicate (count - offset - bytes.length) fill ++ rest := by
  have front : (List.replicate count fill ++ rest).take offset = List.replicate offset fill := by
    rw [List.take_append_of_le_length (by simp; omega), List.take_replicate, Nat.min_eq_left (by omega)]
  have back : (List.replicate count fill ++ rest).drop (offset + bytes.length) =
      List.replicate (count - offset - bytes.length) fill ++ rest := by
    rw [List.drop_append_of_le_length (by simp; omega), List.drop_replicate]
    congr 2
    omega
  rw [copyInto, front, back]
  simp only [List.append_assoc]

end StrBytes
