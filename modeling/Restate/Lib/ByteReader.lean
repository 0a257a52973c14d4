import Mathlib.Data.List.Basic
import Mathlib.Tactic.Ring

/-! Readers of values from the front of a byte string: the state monad over the bytes not yet
read, over an error monad for what cannot be read. A reader reads a value from given bytes when it
does so whatever follows them. Such readers compose in sequence, and what they read is fixed by the
bytes, so two encodings that a reader reads never differ by a proper prefix. Fixed-width integers
are written most significant byte first. -/

abbrev ByteReader (ε α : Type) := StateT (List UInt8) (Except ε) α

namespace ByteReader

variable {ε α β : Type}

def Reads (reader : ByteReader ε α) (value : α) (bytes : List UInt8) : Prop :=
  ∀ rest, reader.run (bytes ++ rest) = .ok (value, rest)

/-- For a reader that takes everything left, such as the last field of a record. -/
def ReadsAll (reader : ByteReader ε α) (value : α) (bytes : List UInt8) : Prop :=
  reader.run bytes = .ok (value, [])

/-- The next byte; `short` when there is none. -/
def readByte (short : ε) : ByteReader ε UInt8 := fun
  | [] => .error short
  | byte :: rest => .ok (byte, rest)

/-- The next `count` bytes; `short` when there are fewer. -/
def readBytes (short : ε) (count : Nat) : ByteReader ε (List UInt8) := fun bytes =>
  if bytes.length < count then .error short else .ok (bytes.take count, bytes.drop count)

/-- Exactly `count` bytes, as an array of that length. -/
def readFixed (short : ε) (count : Nat) : ByteReader ε {bytes : List UInt8 // bytes.length = count} :=
  fun bytes =>
    if fits : count ≤ bytes.length then .ok (⟨bytes.take count, by simp [fits]⟩, bytes.drop count)
    else .error short

/-- Everything left. -/
def readRest : ByteReader ε (List UInt8) := fun bytes => .ok (bytes, [])

/-- Fails with `short` unless `count` bytes are left, then runs the reader. -/
def requireLength (short : ε) (count : Nat) (reader : ByteReader ε α) : ByteReader ε α :=
  fun bytes => if bytes.length < count then .error short else reader bytes

variable {reader : ByteReader ε α} {value value' : α} {bytes bytes' : List UInt8} {count : Nat}

theorem Reads.readsAll (reads : Reads reader value bytes) : ReadsAll reader value bytes := by
  simpa [ReadsAll] using reads []

theorem reads_pure (value : α) : Reads (pure value : ByteReader ε α) value [] := fun _ => rfl

theorem Reads.bind {next : α → ByteReader ε β} {result : β} (first : Reads reader value bytes)
    (second : Reads (next value) result bytes') : Reads (reader >>= next) result (bytes ++ bytes') := by
  intro rest
  rw [StateT.run_bind, List.append_assoc, first (bytes' ++ rest)]
  exact second rest

theorem Reads.bind_nil {next : α → ByteReader ε β} {result : β} (first : Reads reader value bytes)
    (second : Reads (next value) result []) : Reads (reader >>= next) result bytes := by
  simpa using first.bind second

theorem Reads.readsAll_bind_iff {next : α → ByteReader ε β} {result : β}
    (first : Reads reader value bytes) :
    ReadsAll (reader >>= next) result (bytes ++ bytes') ↔ ReadsAll (next value) result bytes' := by
  unfold ReadsAll
  rw [StateT.run_bind, first bytes']
  rfl

theorem Reads.bind_pure {f : α → β} (reads : Reads reader value bytes) :
    Reads (reader >>= fun read => pure (f read)) (f value) bytes := by
  intro rest
  rw [StateT.run_bind, reads rest]
  rfl

theorem readsAll_bind_pure_iff {f : α → β} (injective : Function.Injective f) :
    ReadsAll (reader >>= fun read => pure (f read)) (f value) bytes ↔ ReadsAll reader value bytes := by
  unfold ReadsAll
  rw [StateT.run_bind]
  cases reader.run bytes with
  | error e => simp [bind, Except.bind]
  | ok result =>
    obtain ⟨read, rest⟩ := result
    change Except.ok (f read, rest) = _ ↔ Except.ok (read, rest) = _
    simp [injective.eq_iff]

theorem ReadsAll.bind_pure {f : α → β} (reads : ReadsAll reader value bytes) :
    ReadsAll (reader >>= fun read => pure (f read)) (f value) bytes := by
  unfold ReadsAll at reads ⊢
  rw [StateT.run_bind, reads]
  rfl

theorem Reads.map {f : α → β} (reads : Reads reader value bytes) :
    Reads (f <$> reader) (f value) bytes := by
  intro rest
  simp [StateT.run_map, reads rest]

theorem ReadsAll.map {f : α → β} (reads : ReadsAll reader value bytes) :
    ReadsAll (f <$> reader) (f value) bytes := by
  unfold ReadsAll at reads ⊢
  simp [StateT.run_map, reads]

theorem Reads.unique {rest rest' : List UInt8} (reads : Reads reader value bytes)
    (reads' : Reads reader value' bytes') (same : bytes ++ rest = bytes' ++ rest') :
    value = value' ∧ bytes = bytes' ∧ rest = rest' := by
  have both := (reads rest).symm.trans (same ▸ reads' rest')
  simp only [Except.ok.injEq, Prod.mk.injEq] at both
  obtain ⟨sameValue, sameRest⟩ := both
  subst sameRest
  exact ⟨sameValue, List.append_cancel_right same, rfl⟩

theorem reads_readByte (short : ε) (byte : UInt8) : Reads (readByte short) byte [byte] :=
  fun _ => rfl

theorem reads_readBytes (short : ε) (bytes : List UInt8) :
    Reads (readBytes short bytes.length) bytes bytes := by
  intro rest
  simp [StateT.run, readBytes]

theorem reads_readFixed (short : ε) (bytes : {bytes : List UInt8 // bytes.length = count}) :
    Reads (readFixed short count) bytes bytes.val := by
  obtain ⟨bytes, rfl⟩ := bytes
  intro rest
  simp [StateT.run, readFixed]

theorem Reads.requireLength {short : ε} (long : count ≤ bytes.length)
    (reads : Reads reader value bytes) : Reads (requireLength short count reader) value bytes := by
  intro rest
  have enough : ¬(bytes ++ rest).length < count := by
    simp only [List.length_append]
    omega
  exact (if_neg enough).trans (reads rest)

theorem ReadsAll.requireLength {short : ε} (long : count ≤ bytes.length)
    (reads : ReadsAll reader value bytes) : ReadsAll (requireLength short count reader) value bytes :=
  (if_neg (Nat.not_lt.mpr long)).trans reads

theorem readsAll_readRest_bind_iff {next : List UInt8 → ByteReader ε β} {result : β} :
    ReadsAll (readRest >>= next) result bytes ↔ ReadsAll (next bytes) result [] :=
  Iff.rfl

end ByteReader

namespace BigEndian

/-- The low `width` bytes of a value, most significant first. -/
def encode : (width value : Nat) → List UInt8
  | 0, _ => []
  | width + 1, value => (value / 256 ^ width % 256).toUInt8 :: encode width value

def decode (bytes : List UInt8) : Nat := bytes.foldl (fun acc byte => acc * 256 + byte.toNat) 0

@[simp] theorem length_encode (width value : Nat) : (encode width value).length = width := by
  induction width with
  | zero => rfl
  | succ width ih => simp [encode, ih]

theorem foldl_encode (width value acc : Nat) :
    (encode width value).foldl (fun acc byte => acc * 256 + byte.toNat) acc =
      acc * 256 ^ width + value % 256 ^ width := by
  induction width generalizing acc with
  | zero => simp [encode, Nat.mod_one]
  | succ width ih =>
    have byte : (value / 256 ^ width % 256).toUInt8.toNat = value / 256 ^ width % 256 := by
      simp [Nat.mod_eq_of_lt (Nat.mod_lt _ (by decide : 0 < 256))]
    simp only [encode, List.foldl_cons, byte, ih]
    rw [Nat.mod_pow_succ, Nat.pow_succ]
    ring

theorem decode_encode (width value : Nat) : decode (encode width value) = value % 256 ^ width := by
  simp [decode, foldl_encode]

theorem foldl_decode (bytes : List UInt8) (acc : Nat) :
    bytes.foldl (fun acc byte => acc * 256 + byte.toNat) acc = acc * 256 ^ bytes.length + decode bytes := by
  induction bytes generalizing acc with
  | nil => simp [decode]
  | cons byte rest ih =>
    have head : decode (byte :: rest) = byte.toNat * 256 ^ rest.length + decode rest := by
      rw [decode, List.foldl_cons, ih]
      simp
    rw [List.foldl_cons, ih, head, List.length_cons, Nat.pow_succ]
    ring

theorem decode_cons (byte : UInt8) (bytes : List UInt8) :
    decode (byte :: bytes) = byte.toNat * 256 ^ bytes.length + decode bytes := by
  rw [decode, List.foldl_cons, foldl_decode]
  simp

theorem decode_lt (bytes : List UInt8) : decode bytes < 256 ^ bytes.length := by
  induction bytes with
  | nil => simp [decode]
  | cons byte rest ih =>
    rw [decode_cons, List.length_cons, Nat.pow_succ]
    have byteLt : byte.toNat < 256 := byte.toNat_lt
    calc byte.toNat * 256 ^ rest.length + decode rest
        < byte.toNat * 256 ^ rest.length + 256 ^ rest.length := by omega
      _ = (byte.toNat + 1) * 256 ^ rest.length := by ring
      _ ≤ 256 * 256 ^ rest.length := Nat.mul_le_mul_right _ byteLt
      _ = 256 ^ rest.length * 256 := Nat.mul_comm _ _

theorem mod_pow_succ_div (width value : Nat) :
    value % 256 ^ (width + 1) / 256 ^ width = value / 256 ^ width % 256 := by
  rw [Nat.pow_succ, Nat.mod_mul_right_div_self]

theorem mod_pow_succ_mod (width value : Nat) :
    value % 256 ^ (width + 1) % 256 ^ width = value % 256 ^ width :=
  Nat.mod_mod_of_dvd _ (Nat.pow_dvd_pow 256 (Nat.le_succ width))

theorem encode_mod (width value : Nat) : encode width (value % 256 ^ width) = encode width value := by
  induction width generalizing value with
  | zero => rfl
  | succ width ih =>
    have top : value % 256 ^ (width + 1) / 256 ^ width % 256 = value / 256 ^ width % 256 := by
      rw [mod_pow_succ_div]
      exact Nat.mod_mod _ _
    rw [encode, encode, top, ← ih (value % 256 ^ (width + 1)), mod_pow_succ_mod, ih]

theorem encode_decode (bytes : List UInt8) : encode bytes.length (decode bytes) = bytes := by
  induction bytes with
  | nil => rfl
  | cons byte rest ih =>
    have below := decode_lt rest
    have positive : 0 < 256 ^ rest.length := Nat.pow_pos (by decide)
    have top : decode (byte :: rest) / 256 ^ rest.length % 256 = byte.toNat := by
      rw [decode_cons, Nat.mul_comm, Nat.mul_add_div positive, Nat.div_eq_of_lt below, Nat.add_zero]
      exact Nat.mod_eq_of_lt byte.toNat_lt
    have low : decode (byte :: rest) % 256 ^ rest.length = decode rest := by
      rw [decode_cons, Nat.mul_comm, Nat.mul_add_mod, Nat.mod_eq_of_lt below]
    rw [List.length_cons, encode, top, ← encode_mod, low, ih]
    simp

/-- `swap_bytes` of a `width`-byte integer: its bytes in the other order. -/
def swapBytes (width value : Nat) : Nat := decode (encode width value).reverse

theorem swapBytes_lt (width value : Nat) : swapBytes width value < 256 ^ width := by
  have below := decode_lt (encode width value).reverse
  rwa [List.length_reverse, length_encode] at below

theorem swapBytes_swapBytes {width value : Nat} (fits : value < 256 ^ width) :
    swapBytes width (swapBytes width value) = value := by
  have bytes : encode width (swapBytes width value) = (encode width value).reverse := by
    have read := encode_decode (encode width value).reverse
    rwa [List.length_reverse, length_encode] at read
  rw [swapBytes, bytes, List.reverse_reverse, decode_encode, Nat.mod_eq_of_lt fits]

theorem ofNat_decode_encode {width : Nat} (x : BitVec (8 * width)) :
    BitVec.ofNat (8 * width) (decode (encode width x.toNat)) = x := by
  have below : x.toNat < 256 ^ width := by
    have bound := x.isLt
    rwa [Nat.pow_mul] at bound
  rw [decode_encode, Nat.mod_eq_of_lt below]
  simp

end BigEndian
