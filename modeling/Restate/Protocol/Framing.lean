import Restate.Protocol.MessageCodec
import Restate.Lib.ByteReader
import Restate.Lib.Simulation
import Mathlib.Data.PNat.Basic

/-! The framing of the service protocol, from message_codec/encoding.rs. `Encoder::encode` writes
a message as its header, a big-endian u64, followed by its body. `Decoder` takes the byte stream in
chunks of any size (`push`) and `consume_next` returns the next message once all its bytes are
there: a two-state machine that waits for the eight header bytes, then for the frame length the
header gives, with the header's type picking the body decoder.

The bodies of the named message types are protobuf messages, whose codec (prost) is a parameter;
Custom messages carry their bytes, as the source has them. The decoder's buffer is the list of the
bytes pushed and not yet read. -/

namespace Restate

/-- The protobuf messages of the named types and their codec: the type of each, its bytes, and
the decoding of a body of a given type. -/
structure ProtoCodec (Proto ε : Type) where
  ty : Proto → MessageType
  encode : Proto → List UInt8
  decode : MessageType → List UInt8 → Except ε Proto

/-- The codec of the noparse variants, which keep their body as bytes: a codec under which every
named message is kept so. -/
def ProtoCodec.noparse : ProtoCodec (MessageType × List UInt8) ε where
  ty := Prod.fst
  encode := Prod.snd
  decode ty bytes := .ok (ty, bytes)

inductive Message (Proto : Type)
  | proto (body : Proto)
  | custom (id : BitVec 16) (bytes : List UInt8)
  deriving DecidableEq, Repr

namespace Message

variable (codec : ProtoCodec Proto ε)

def ty : Message Proto → MessageType
  | proto body => codec.ty body
  | custom id _ => .custom id

def encode : Message Proto → List UInt8
  | proto body => codec.encode body
  | custom _ bytes => bytes

def encodedLen (message : Message Proto) : Nat := (message.encode codec).length

end Message

/-- MessageType::decode: a Custom type takes the bytes as they are. -/
def MessageType.decode (codec : ProtoCodec Proto ε) (ty : MessageType) (bytes : List UInt8) :
    Except ε (Message Proto) :=
  match ty with
  | .custom id => .ok (.custom id bytes)
  | ty => (codec.decode ty bytes).map .proto

/-- generate_header: the conversion of the length to u32 panics past its range. -/
def generateHeader (codec : ProtoCodec Proto ε) (message : Message Proto) : Option MessageHeader :=
  let len := message.encodedLen codec
  if len < 2 ^ 32 then some (MessageHeader.new (message.ty codec) (BitVec.ofNat 32 len)) else none

def Encoder.encode (codec : ProtoCodec Proto ε) (message : Message Proto) : Option (List UInt8) :=
  (generateHeader codec message).map fun header => BigEndian.encode 8 header.toU64.toNat ++ message.encode codec

inductive EncodingError (ε : Type)
  | messageEncoding (ty : MessageType) (error : ε)
  | unknownMessageType (error : UnknownMessageType)
  | messageSizeLimit (length : Nat) (limit : ℕ+)
  deriving DecidableEq, Repr

inductive DecoderState
  | waitingHeader
  | waitingPayload (header : MessageHeader)
  deriving DecidableEq, Repr

def DecoderState.needsBytes : DecoderState → Nat
  | waitingHeader => 8
  | waitingPayload header => header.length.toNat

/-- What one consume_next returns. -/
abbrev Consumed (Proto ε : Type) := Except (EncodingError ε) (Option (MessageHeader × Message Proto))

/-- DecoderState::decode, given at least `needs_bytes` bytes: what it returns, the state it leaves
and the bytes it leaves unread. The state is taken out first, so an error leaves the decoder
waiting for a header. A body that fails to decode is dropped. -/
def DecoderState.decode (codec : ProtoCodec Proto ε) (messageSizeLimit : ℕ+) :
    DecoderState → List UInt8 → Consumed Proto ε × DecoderState × List UInt8
  | waitingHeader, buf =>
    match MessageHeader.tryFromU64 (BitVec.ofNat 64 (BigEndian.decode (buf.take 8))) with
    | .error unknown => (.error (.unknownMessageType unknown), waitingHeader, buf.drop 8)
    | .ok header =>
      if (messageSizeLimit : Nat) ≤ header.length.toNat then
        (.error (.messageSizeLimit header.length.toNat messageSizeLimit), waitingHeader, buf.drop 8)
      else (.ok none, waitingPayload header, buf.drop 8)
  | waitingPayload header, buf =>
    match header.ty.decode codec (buf.take header.length.toNat) with
    | .error error =>
      (.error (.messageEncoding header.ty error), waitingHeader, buf.drop header.length.toNat)
    | .ok message => (.ok (some (header, message)), waitingHeader, buf.drop header.length.toNat)

structure Decoder where
  buf : List UInt8
  state : DecoderState
  messageSizeLimit : ℕ+
  deriving DecidableEq, Repr

namespace Decoder

def new (messageSizeLimit : ℕ+) : Decoder := ⟨[], .waitingHeader, messageSizeLimit⟩

def push (decoder : Decoder) (chunk : List UInt8) : Decoder := { decoder with buf := decoder.buf ++ chunk }

/-- The loop of consume_next, one round per unit of fuel. -/
def consumeLoop (codec : ProtoCodec Proto ε) : Nat → Decoder → Consumed Proto ε × Decoder
  | 0, decoder => (.ok none, decoder)
  | fuel + 1, decoder =>
    if decoder.buf.length < decoder.state.needsBytes then (.ok none, decoder)
    else
      match decoder.state.decode codec decoder.messageSizeLimit decoder.buf with
      | (.ok none, state, buf) => consumeLoop codec fuel { decoder with state, buf }
      | (result, state, buf) => (result, { decoder with state, buf })

/-- consume_next: a header round leads to a body round, which always returns, so two rounds
are all the loop ever runs (`consumeLoop_fuel`). -/
def consumeNext (codec : ProtoCodec Proto ε) (decoder : Decoder) : Consumed Proto ε × Decoder :=
  decoder.consumeLoop codec 2

end Decoder

inductive DecoderCall
  | push (chunk : List UInt8)
  | consumeNext
  deriving DecidableEq, Repr

/-- One call on the decoder, with what it returns. -/
def Decoder.call (codec : ProtoCodec Proto ε) (decoder : Decoder) :
    DecoderCall → List (Consumed Proto ε) × Decoder
  | .push chunk => ([], decoder.push chunk)
  | .consumeNext =>
    let (result, decoder) := decoder.consumeNext codec
    ([result], decoder)

/-- The bytes pushed by some calls. -/
def DecoderCall.pushed : List DecoderCall → List UInt8
  | [] => []
  | .push chunk :: calls => chunk ++ DecoderCall.pushed calls
  | .consumeNext :: calls => DecoderCall.pushed calls

/-! ## Frames -/

/-- The header Encoder::encode writes for a message. -/
def frameHeader (codec : ProtoCodec Proto ε) (message : Message Proto) : MessageHeader :=
  MessageHeader.new (message.ty codec) (BitVec.ofNat 32 (message.encodedLen codec))

/-- The header the decoder reads back for a message. -/
def receivedHeader (codec : ProtoCodec Proto ε) (message : Message Proto) : MessageHeader :=
  (frameHeader codec message).normalized

def frame (codec : ProtoCodec Proto ε) (message : Message Proto) : List UInt8 :=
  BigEndian.encode 8 (frameHeader codec message).toU64.toNat ++ message.encode codec

def frameLength (codec : ProtoCodec Proto ε) (message : Message Proto) : Nat :=
  8 + message.encodedLen codec

/-- The frames of some messages, one after the other. -/
def stream (codec : ProtoCodec Proto ε) (messages : List (Message Proto)) : List UInt8 :=
  messages.flatMap (frame codec)

/-- A message the decoder reads back: its type is read back from its id, its body is below the
size limit and within u32, and its body decodes to it. -/
structure Sendable (codec : ProtoCodec Proto ε) (messageSizeLimit : ℕ+) (message : Message Proto) : Prop where
  readable : (message.ty codec).Readable
  belowLimit : message.encodedLen codec < messageSizeLimit
  fits : message.encodedLen codec < 2 ^ 32
  decodes : (message.ty codec).decode codec (message.encode codec) = .ok message

section Frames

variable (codec : ProtoCodec Proto ε)

theorem Encoder.encode_eq_frame {message : Message Proto} (fits : message.encodedLen codec < 2 ^ 32) :
    Encoder.encode codec message = some (frame codec message) := by
  simp only [Encoder.encode, generateHeader, if_pos fits, Option.map_some]
  rfl

theorem Encoder.encode_fits {message : Message Proto} {bytes : List UInt8}
    (encoded : Encoder.encode codec message = some bytes) : message.encodedLen codec < 2 ^ 32 := by
  by_contra tooLong
  simp only [Encoder.encode, generateHeader, if_neg tooLong, Option.map_none, reduceCtorEq] at encoded

theorem stream_eq_flatten {messages : List (Message Proto)} {frames : List (List UInt8)}
    (encoded : messages.mapM (Encoder.encode codec) = some frames) : stream codec messages = frames.flatten := by
  induction messages generalizing frames with
  | nil => simp_all [stream]
  | cons message messages ih =>
    simp only [List.mapM_cons, Option.bind_eq_bind, Option.bind_eq_some_iff, Option.pure_def,
      Option.some.injEq] at encoded
    obtain ⟨bytes, first, rest, later, rfl⟩ := encoded
    rw [Encoder.encode_eq_frame codec (Encoder.encode_fits codec first)] at first
    cases first
    simp [stream, ← ih later]

theorem fits_of_mapM {messages : List (Message Proto)} {frames : List (List UInt8)}
    (encoded : messages.mapM (Encoder.encode codec) = some frames) :
    ∀ message ∈ messages, message.encodedLen codec < 2 ^ 32 := by
  induction messages generalizing frames with
  | nil => simp
  | cons message messages ih =>
    simp only [List.mapM_cons, Option.bind_eq_bind, Option.bind_eq_some_iff, Option.pure_def,
      Option.some.injEq] at encoded
    obtain ⟨bytes, first, rest, later, rfl⟩ := encoded
    intro other member
    rcases List.mem_cons.mp member with rfl | member
    · exact Encoder.encode_fits codec first
    · exact ih later other member

@[simp] theorem length_frameHeader {message : Message Proto} (fits : message.encodedLen codec < 2 ^ 32) :
    (frameHeader codec message).length.toNat = message.encodedLen codec := by
  simp only [frameHeader, MessageHeader.new, BitVec.toNat_ofNat, Nat.mod_eq_of_lt fits]

@[simp] theorem receivedHeader_ty (message : Message Proto) :
    (receivedHeader codec message).ty = message.ty codec := rfl

@[simp] theorem receivedHeader_length (message : Message Proto) :
    (receivedHeader codec message).length = (frameHeader codec message).length := rfl

theorem readHeader_frame {message : Message Proto} (readable : (message.ty codec).Readable)
    (rest : List UInt8) :
    MessageHeader.tryFromU64 (BitVec.ofNat 64 (BigEndian.decode ((frame codec message ++ rest).take 8))) =
      .ok (receivedHeader codec message) := by
  have headerBytes : (frame codec message ++ rest).take 8 =
      BigEndian.encode 8 (frameHeader codec message).toU64.toNat := by
    rw [frame, List.append_assoc, List.take_left' (BigEndian.length_encode 8 _)]
  rw [headerBytes, @BigEndian.ofNat_decode_encode 8]
  exact MessageHeader.tryFromU64_toU64 readable

end Frames

theorem List.append_eq_append_of_length_le {front back first rest : List α}
    (same : front ++ back = first ++ rest) (long : first.length ≤ front.length) :
    front.take first.length = first ∧ front.drop first.length ++ back = rest := by
  have firstPrefix : first <+: front ++ back := same ▸ List.prefix_append first rest
  obtain ⟨tail, rfl⟩ := List.prefix_of_prefix_length_le firstPrefix (List.prefix_append front back) long
  simp only [List.append_assoc, List.append_cancel_left_eq] at same
  simp [same]

/-! ## What the decoder is for -/

/-- The messages not yet delivered, and how many of their bytes arrived. -/
structure FrameQueue (α : Type) where
  pending : List α
  available : Nat
  deriving DecidableEq, Repr

namespace FrameQueue

def receive (queue : FrameQueue α) (count : Nat) : FrameQueue α :=
  { queue with available := queue.available + count }

/-- The next message, once all its bytes arrived. -/
def pop (size : α → Nat) (queue : FrameQueue α) : Option α × FrameQueue α :=
  match queue.pending with
  | [] => (none, queue)
  | next :: rest =>
    if size next ≤ queue.available then (some next, ⟨rest, queue.available - size next⟩) else (none, queue)

/-- The decoder as it should behave: the messages leave in the order they were sent, each with
its header, at the first consume_next after the last byte of its frame arrived. -/
def decoderCall (codec : ProtoCodec Proto ε) (queue : FrameQueue (Message Proto)) :
    DecoderCall → List (Consumed Proto ε) × FrameQueue (Message Proto)
  | .push chunk => ([], queue.receive chunk.length)
  | .consumeNext =>
    let (next, queue) := queue.pop (frameLength codec)
    ([.ok (next.map fun message => (receivedHeader codec message, message))], queue)

end FrameQueue

/-- The decoder holds the bytes that arrived of the undelivered messages, past the header it
already read, if any, and the bytes still to come complete their frames. -/
inductive Tracks (codec : ProtoCodec Proto ε) (limit : ℕ+) :
    Decoder → FrameQueue (Message Proto) → List UInt8 → Prop
  | waitingHeader {buf : List UInt8} {pending : List (Message Proto)} {available : Nat} {future : List UInt8}
      (sendable : ∀ message ∈ pending, Sendable codec limit message)
      (split : buf ++ future = stream codec pending) (counted : available = buf.length) :
      Tracks codec limit ⟨buf, .waitingHeader, limit⟩ ⟨pending, available⟩ future
  | waitingPayload {buf : List UInt8} {message : Message Proto} {rest : List (Message Proto)} {available : Nat}
      {future : List UInt8} (sendable : ∀ other ∈ message :: rest, Sendable codec limit other)
      (split : buf ++ future = message.encode codec ++ stream codec rest) (counted : available = 8 + buf.length) :
      Tracks codec limit ⟨buf, .waitingPayload (receivedHeader codec message), limit⟩ ⟨message :: rest, available⟩ future

/-- The messages that some answers of consume_next delivered, in order. -/
def delivered (outputs : List (Consumed Proto ε)) : List (Message Proto) :=
  outputs.filterMap fun
    | .ok (some (_, message)) => some message
    | _ => none

theorem DecoderCall.pushed_cons (call : DecoderCall) (calls : List DecoderCall) :
    DecoderCall.pushed (call :: calls) = DecoderCall.pushed [call] ++ DecoderCall.pushed calls := by
  cases call <;> simp [DecoderCall.pushed]

section Queue

variable (codec : ProtoCodec Proto ε)

@[simp] theorem stream_nil : stream codec [] = [] := rfl

theorem stream_cons (message : Message Proto) (rest : List (Message Proto)) :
    stream codec (message :: rest) =
      BigEndian.encode 8 (frameHeader codec message).toU64.toNat ++ (message.encode codec ++ stream codec rest) := by
  simp [stream, frame]

theorem stream_append (first second : List (Message Proto)) :
    stream codec (first ++ second) = stream codec first ++ stream codec second := by
  simp [stream]

theorem length_stream_cons (message : Message Proto) (rest : List (Message Proto)) :
    (stream codec (message :: rest)).length = frameLength codec message + (stream codec rest).length := by
  simp [stream_cons, frameLength, Message.encodedLen]
  omega

theorem FrameQueue.decoderCall_accounts (queue : FrameQueue (Message Proto)) (call : DecoderCall) :
    delivered (queue.decoderCall codec call).1 ++ (queue.decoderCall codec call).2.pending = queue.pending ∧
      (stream codec (delivered (queue.decoderCall codec call).1)).length + (queue.decoderCall codec call).2.available =
        queue.available + (DecoderCall.pushed [call]).length := by
  cases call with
  | push chunk => simp [FrameQueue.decoderCall, FrameQueue.receive, delivered, DecoderCall.pushed]
  | consumeNext =>
    obtain ⟨_ | ⟨next, rest⟩, available⟩ := queue
    · simp [FrameQueue.decoderCall, FrameQueue.pop, delivered, DecoderCall.pushed]
    · by_cases arrived : frameLength codec next ≤ available
      · simp [FrameQueue.decoderCall, FrameQueue.pop, arrived, delivered, DecoderCall.pushed, length_stream_cons]
      · simp [FrameQueue.decoderCall, FrameQueue.pop, arrived, delivered, DecoderCall.pushed]

theorem FrameQueue.run_accounts (queue : FrameQueue (Message Proto)) (calls : List DecoderCall) :
    delivered (Simulation.run (FrameQueue.decoderCall codec) queue calls).1 ++
        (Simulation.run (FrameQueue.decoderCall codec) queue calls).2.pending = queue.pending ∧
      (stream codec (delivered (Simulation.run (FrameQueue.decoderCall codec) queue calls).1)).length +
          (Simulation.run (FrameQueue.decoderCall codec) queue calls).2.available =
        queue.available + (DecoderCall.pushed calls).length := by
  induction calls generalizing queue with
  | nil => simp [delivered, DecoderCall.pushed]
  | cons call calls ih =>
    obtain ⟨conservedFirst, accountedFirst⟩ := FrameQueue.decoderCall_accounts codec queue call
    obtain ⟨conservedRest, accountedRest⟩ := ih (queue.decoderCall codec call).2
    simp only [Simulation.run_cons, delivered, List.filterMap_append] at *
    refine ⟨by rw [List.append_assoc, conservedRest, conservedFirst], ?_⟩
    rw [stream_append, List.length_append, DecoderCall.pushed_cons, List.length_append]
    omega

theorem FrameQueue.run_consumeNext_all (queue : FrameQueue (Message Proto))
    (full : queue.available = (stream codec queue.pending).length) (count : Nat)
    (enough : queue.pending.length ≤ count) :
    delivered (Simulation.run (FrameQueue.decoderCall codec) queue (List.replicate count .consumeNext)).1 =
      queue.pending := by
  induction count generalizing queue with
  | zero =>
    obtain ⟨_ | _, _⟩ := queue
    · simp [delivered]
    · simp at enough
  | succ count ih =>
    obtain ⟨_ | ⟨next, rest⟩, available⟩ := queue
    · have idle := ih ⟨[], available⟩ full (Nat.zero_le _)
      simpa [List.replicate_succ, Simulation.run_cons, FrameQueue.decoderCall, FrameQueue.pop, delivered] using idle
    · dsimp only at full enough
      rw [length_stream_cons] at full
      have arrived : frameLength codec next ≤ available := by omega
      have later := ih ⟨rest, available - frameLength codec next⟩
        (by dsimp only; omega) (by simp only [List.length_cons] at enough ⊢; omega)
      simp only [List.replicate_succ, Simulation.run_cons, FrameQueue.decoderCall, FrameQueue.pop, arrived,
        ↓reduceIte, Option.map_some, delivered] at later ⊢
      simpa using later

end Queue

/-! ## The two rounds of consume_next -/

section Rounds

variable (codec : ProtoCodec Proto ε)

theorem consumeLoop_waitingPayload_fuel (fuel : Nat) (buf : List UInt8) (header : MessageHeader)
    (limit : ℕ+) :
    (⟨buf, .waitingPayload header, limit⟩ : Decoder).consumeLoop codec (fuel + 1) =
      (⟨buf, .waitingPayload header, limit⟩ : Decoder).consumeLoop codec 1 := by
  rw [Decoder.consumeLoop, Decoder.consumeLoop]
  simp only [DecoderState.needsBytes, DecoderState.decode]
  by_cases short : buf.length < header.length.toNat
  · simp only [short, ↓reduceIte]
  · simp only [short, ↓reduceIte]
    cases header.ty.decode codec (buf.take header.length.toNat) <;> rfl

theorem consumeLoop_fuel (fuel : Nat) (decoder : Decoder) :
    decoder.consumeLoop codec (fuel + 2) = decoder.consumeNext codec := by
  obtain ⟨buf, _ | header, limit⟩ := decoder
  · rw [Decoder.consumeNext, Decoder.consumeLoop, Decoder.consumeLoop]
    simp only [DecoderState.needsBytes, DecoderState.decode]
    by_cases short : buf.length < 8
    · simp only [short, ↓reduceIte]
    · simp only [short, ↓reduceIte]
      -- a header round ends the loop, or leads to a body round
      cases MessageHeader.tryFromU64 (BitVec.ofNat 64 (BigEndian.decode (buf.take 8))) with
      | error => rfl
      | ok header =>
        by_cases tooLarge : (limit : Nat) ≤ header.length.toNat
        · simp only [tooLarge, ↓reduceIte]
        · simp only [tooLarge, ↓reduceIte]
          exact consumeLoop_waitingPayload_fuel codec fuel _ _ _
  · rw [Decoder.consumeNext, consumeLoop_waitingPayload_fuel codec (fuel + 1),
      consumeLoop_waitingPayload_fuel codec 1]

theorem consumeLoop_waitingPayload (fuel : Nat) {limit : ℕ+} {message : Message Proto}
    {rest : List (Message Proto)} {future : List UInt8} {decoder : Decoder}
    (state : decoder.state = .waitingPayload (receivedHeader codec message))
    (sendable : Sendable codec limit message)
    (split : decoder.buf ++ future = message.encode codec ++ stream codec rest) :
    decoder.consumeLoop codec (fuel + 1) =
      if decoder.buf.length < message.encodedLen codec then (.ok none, decoder)
      else (.ok (some (receivedHeader codec message, message)),
        { decoder with state := .waitingHeader, buf := decoder.buf.drop (message.encodedLen codec) }) := by
  have length : (receivedHeader codec message).length.toNat = message.encodedLen codec :=
    length_frameHeader codec sendable.fits
  rw [Decoder.consumeLoop, state, DecoderState.needsBytes, length]
  split
  · rfl
  · have taken := (List.append_eq_append_of_length_le split (by simp only [Message.encodedLen] at *; omega)).1
    simp only [Message.encodedLen] at taken length ⊢
    simp only [DecoderState.decode, length, taken, receivedHeader_ty, sendable.decodes]

/-- What a consume_next in `decoder` should do, with `fuel` rounds: deliver what the queue pops,
and leave the decoder tracking the queue that is left. -/
def Delivers (limit : ℕ+) (fuel : Nat) (decoder : Decoder) (queue : FrameQueue (Message Proto))
    (future : List UInt8) : Prop :=
  (decoder.consumeLoop codec fuel).1 =
      .ok ((queue.pop (frameLength codec)).1.map fun message => (receivedHeader codec message, message)) ∧
    Tracks codec limit (decoder.consumeLoop codec fuel).2 (queue.pop (frameLength codec)).2 future

theorem delivers_waitingPayload (fuel : Nat) {limit : ℕ+} {buf : List UInt8} {message : Message Proto}
    {rest : List (Message Proto)} {available : Nat} {future : List UInt8}
    (sendable : ∀ other ∈ message :: rest, Sendable codec limit other)
    (split : buf ++ future = message.encode codec ++ stream codec rest) (counted : available = 8 + buf.length) :
    Delivers codec limit (fuel + 1) ⟨buf, .waitingPayload (receivedHeader codec message), limit⟩
      ⟨message :: rest, available⟩ future := by
  have first := sendable message List.mem_cons_self
  rw [Delivers, consumeLoop_waitingPayload codec fuel rfl first split]
  simp only [FrameQueue.pop, frameLength]
  by_cases short : buf.length < message.encodedLen codec
  · simp only [short, ↓reduceIte, show ¬8 + message.encodedLen codec ≤ available by omega, Option.map_none]
    exact ⟨trivial, .waitingPayload sendable split counted⟩
  · have whole := List.append_eq_append_of_length_le split (by simp only [Message.encodedLen] at short; omega)
    simp only [short, ↓reduceIte, show 8 + message.encodedLen codec ≤ available by omega, Option.map_some]
    refine ⟨trivial, .waitingHeader (fun other member => sendable other (List.mem_cons_of_mem _ member)) ?_ ?_⟩
    · simpa only [Message.encodedLen] using whole.2
    · simp only [List.length_drop]
      omega

theorem consumeLoop_waitingHeader (fuel : Nat) {limit : ℕ+} {buf : List UInt8} {message : Message Proto}
    {rest : List (Message Proto)} {future : List UInt8} (sendable : Sendable codec limit message)
    (split : buf ++ future = stream codec (message :: rest)) (long : 8 ≤ buf.length) :
    (⟨buf, .waitingHeader, limit⟩ : Decoder).consumeLoop codec (fuel + 1) =
      (⟨buf.drop 8, .waitingPayload (receivedHeader codec message), limit⟩ : Decoder).consumeLoop codec fuel := by
  have headerBytes : buf.take 8 = (frame codec message ++ stream codec rest).take 8 := by
    rw [← List.take_append_of_le_length long, split, stream, List.flatMap_cons, ← stream]
  have below : ¬(limit : Nat) ≤ (receivedHeader codec message).length.toNat := by
    rw [receivedHeader_length, length_frameHeader codec sendable.fits]
    exact Nat.not_le.mpr sendable.belowLimit
  simp only [Decoder.consumeLoop, DecoderState.needsBytes, Nat.not_lt.mpr long, ↓reduceIte,
    DecoderState.decode, headerBytes, readHeader_frame codec sendable.readable, below]

theorem delivers_waitingHeader {limit : ℕ+} {buf : List UInt8} {pending : List (Message Proto)}
    {available : Nat} {future : List UInt8} (sendable : ∀ message ∈ pending, Sendable codec limit message)
    (split : buf ++ future = stream codec pending) (counted : available = buf.length) :
    Delivers codec limit 2 ⟨buf, .waitingHeader, limit⟩ ⟨pending, available⟩ future := by
  cases pending with
  | nil =>
    obtain ⟨rfl, -⟩ := List.append_eq_nil_iff.mp split
    exact ⟨rfl, .waitingHeader sendable split counted⟩
  | cons message rest =>
    by_cases short : buf.length < 8
    · have notYet : ¬frameLength codec message ≤ available := by
        rw [frameLength]
        omega
      simp only [Delivers, Decoder.consumeLoop, DecoderState.needsBytes, short, ↓reduceIte, FrameQueue.pop,
        notYet, Option.map_none]
      exact ⟨trivial, .waitingHeader sendable split counted⟩
    · have body := (List.append_eq_append_of_length_le (split.trans (stream_cons codec message rest))
        (by rw [BigEndian.length_encode]; omega)).2
      rw [BigEndian.length_encode] at body
      rw [Delivers, consumeLoop_waitingHeader codec 1 (sendable message List.mem_cons_self) split (by omega)]
      exact delivers_waitingPayload codec 0 sendable body (by rw [List.length_drop]; omega)

end Rounds

/-! ## Every run -/

section Runs

variable (codec : ProtoCodec Proto ε) (limit : ℕ+)

/-- The decoder tracks the queue, and the calls still to come push the start of the bytes still
to come. -/
def TracksAhead (decoder : Decoder) (queue : FrameQueue (Message Proto)) (calls : List DecoderCall) : Prop :=
  ∃ future, Tracks codec limit decoder queue future ∧ DecoderCall.pushed calls <+: future

variable {codec limit}

theorem Tracks.push {decoder : Decoder} {queue : FrameQueue (Message Proto)} {chunk future : List UInt8}
    (tracks : Tracks codec limit decoder queue (chunk ++ future)) :
    Tracks codec limit (decoder.push chunk) (queue.receive chunk.length) future := by
  cases tracks with
  | waitingHeader sendable split counted =>
    exact .waitingHeader sendable (by rw [List.append_assoc]; exact split) (by simp [counted])
  | waitingPayload sendable split counted =>
    exact .waitingPayload sendable (by rw [List.append_assoc]; exact split) (by simp [counted]; omega)

theorem Tracks.delivers {decoder : Decoder} {queue : FrameQueue (Message Proto)} {future : List UInt8}
    (tracks : Tracks codec limit decoder queue future) : Delivers codec limit 2 decoder queue future := by
  cases tracks with
  | waitingHeader sendable split counted => exact delivers_waitingHeader codec sendable split counted
  | waitingPayload sendable split counted => exact delivers_waitingPayload codec 1 sendable split counted

variable (codec limit)

theorem lockstep_tracksAhead :
    Simulation.Lockstep (Decoder.call codec) (FrameQueue.decoderCall codec) (TracksAhead codec limit) := by
  rintro decoder queue call calls ⟨future, tracks, ahead⟩
  cases call with
  | push chunk =>
    obtain ⟨unpushed, rfl⟩ := ahead
    rw [DecoderCall.pushed, List.append_assoc] at tracks
    exact ⟨rfl, _, tracks.push, List.prefix_append _ _⟩
  | consumeNext =>
    obtain ⟨same, next⟩ := tracks.delivers
    exact ⟨congrArg (· :: []) same, future, next, ahead⟩

theorem decoder_refines_frameQueue (messages : List (Message Proto))
    (sendable : ∀ message ∈ messages, Sendable codec limit message) (calls : List DecoderCall)
    (within : DecoderCall.pushed calls <+: stream codec messages) :
    (Simulation.run (Decoder.call codec) (Decoder.new limit) calls).1 =
      (Simulation.run (FrameQueue.decoderCall codec) ⟨messages, 0⟩ calls).1 :=
  Simulation.run_eq_of_lockstep _ _ (lockstep_tracksAhead codec limit) calls _ _
    ⟨stream codec messages, .waitingHeader sendable rfl rfl, within⟩

theorem DecoderCall.pushed_append (first second : List DecoderCall) :
    DecoderCall.pushed (first ++ second) = DecoderCall.pushed first ++ DecoderCall.pushed second := by
  induction first with
  | nil => rfl
  | cons call calls ih => rw [List.cons_append, DecoderCall.pushed_cons, ih, DecoderCall.pushed_cons call calls,
      List.append_assoc]

@[simp] theorem DecoderCall.pushed_replicate_consumeNext (count : Nat) :
    DecoderCall.pushed (List.replicate count .consumeNext) = [] := by
  induction count with
  | zero => rfl
  | succ count ih => rw [List.replicate_succ, DecoderCall.pushed, ih]

theorem decoder_delivers_in_order (messages : List (Message Proto))
    (sendable : ∀ message ∈ messages, Sendable codec limit message) (calls : List DecoderCall)
    (within : DecoderCall.pushed calls <+: stream codec messages) :
    delivered (Simulation.run (Decoder.call codec) (Decoder.new limit) calls).1 <+: messages ∧
      (stream codec (delivered (Simulation.run (Decoder.call codec) (Decoder.new limit) calls).1)).length ≤
        (DecoderCall.pushed calls).length := by
  rw [decoder_refines_frameQueue codec limit messages sendable calls within]
  obtain ⟨conserved, accounted⟩ := FrameQueue.run_accounts codec ⟨messages, 0⟩ calls
  dsimp only at accounted
  exact ⟨⟨_, conserved⟩, by omega⟩

theorem decoder_delivers_all (messages : List (Message Proto))
    (sendable : ∀ message ∈ messages, Sendable codec limit message) (calls : List DecoderCall)
    (whole : DecoderCall.pushed calls = stream codec messages) (count : Nat) (enough : messages.length ≤ count) :
    delivered (Simulation.run (Decoder.call codec) (Decoder.new limit)
      (calls ++ List.replicate count .consumeNext)).1 = messages := by
  have pushedAll : DecoderCall.pushed (calls ++ List.replicate count .consumeNext) = stream codec messages := by
    rw [DecoderCall.pushed_append, DecoderCall.pushed_replicate_consumeNext, List.append_nil, whole]
  rw [decoder_refines_frameQueue codec limit messages sendable _ (pushedAll ▸ List.prefix_refl _),
    Simulation.run_append]
  obtain ⟨conserved, accounted⟩ := FrameQueue.run_accounts codec ⟨messages, 0⟩ calls
  dsimp only at conserved accounted
  set queue := (Simulation.run (FrameQueue.decoderCall codec) ⟨messages, 0⟩ calls).2
  have full : queue.available = (stream codec queue.pending).length := by
    have lengths := congrArg List.length (congrArg (stream codec) conserved)
    rw [stream_append, List.length_append] at lengths
    rw [whole] at accounted
    omega
  have fewer : queue.pending.length ≤ count := by
    have lengths := congrArg List.length conserved
    rw [List.length_append] at lengths
    omega
  rw [delivered, List.filterMap_append, ← delivered, ← delivered,
    FrameQueue.run_consumeNext_all codec queue full count fewer]
  exact conserved

end Runs

theorem framing_round_trip_over_any_chunking :
    (∀ header : MessageHeader, header.ty.Readable →
      MessageHeader.tryFromU64 header.toU64 = .ok header.normalized) ∧
    ∀ {Proto ε : Type} (codec : ProtoCodec Proto ε) (limit : ℕ+) (messages : List (Message Proto))
      (frames : List (List UInt8)),
      (∀ message ∈ messages, (message.ty codec).Readable ∧ message.encodedLen codec < limit ∧
        (message.ty codec).decode codec (message.encode codec) = .ok message) →
      messages.mapM (Encoder.encode codec) = some frames →
      (∀ message ∈ messages, (receivedHeader codec message).ty = message.ty codec ∧
        (receivedHeader codec message).length.toNat = message.encodedLen codec) ∧
      ∀ calls : List DecoderCall, DecoderCall.pushed calls <+: frames.flatten →
        (Simulation.run (Decoder.call codec) (Decoder.new limit) calls).1 =
            (Simulation.run (FrameQueue.decoderCall codec) ⟨messages, 0⟩ calls).1 ∧
          delivered (Simulation.run (Decoder.call codec) (Decoder.new limit) calls).1 <+: messages ∧
          (stream codec (delivered (Simulation.run (Decoder.call codec) (Decoder.new limit) calls).1)).length ≤
            (DecoderCall.pushed calls).length ∧
          (DecoderCall.pushed calls = frames.flatten → ∀ count, messages.length ≤ count →
            delivered (Simulation.run (Decoder.call codec) (Decoder.new limit)
              (calls ++ List.replicate count .consumeNext)).1 = messages) := by
  refine ⟨fun header readable => MessageHeader.tryFromU64_toU64 readable, ?_⟩
  intro Proto ε codec limit messages frames valid encoded
  have sendable : ∀ message ∈ messages, Sendable codec limit message := fun message member =>
    ⟨(valid message member).1, (valid message member).2.1, fits_of_mapM codec encoded message member,
      (valid message member).2.2⟩
  refine ⟨fun message member => ⟨rfl, length_frameHeader codec (sendable message member).fits⟩, ?_⟩
  intro calls within
  rw [← stream_eq_flatten codec encoded] at within ⊢
  obtain ⟨inOrder, notEarly⟩ := decoder_delivers_in_order codec limit messages sendable calls within
  exact ⟨decoder_refines_frameQueue codec limit messages sendable calls within, inOrder, notEarly,
    fun whole count enough => decoder_delivers_all codec limit messages sendable calls whole count enough⟩

/-- A Custom message and a protobuf message pushed in three chunks that split both headers. -/
def chunkedMessages : List (Message (MessageType × List UInt8)) :=
  [.custom 0x8001 [1, 2, 3], .proto (.inputCommand, [7])]

def chunkedCalls : List DecoderCall :=
  [.push [128, 1, 0], .consumeNext, .push [0, 0, 0, 0, 3, 1, 2, 3, 4], .consumeNext,
    .push [0, 0, 0, 0, 0, 0, 1, 7], .consumeNext]

theorem framing_round_trip_chunked :
    MessageHeader.tryFromU64 (⟨.custom 0x8001, 5, some true⟩ : MessageHeader).toU64 =
      .ok (⟨.custom 0x8001, 5, some true⟩ : MessageHeader).normalized ∧
    (Simulation.run (Decoder.call (ProtoCodec.noparse : ProtoCodec _ Unit)) (Decoder.new 16) chunkedCalls).1 =
      (Simulation.run (FrameQueue.decoderCall ProtoCodec.noparse) ⟨chunkedMessages, 0⟩ chunkedCalls).1 :=
  ⟨framing_round_trip_over_any_chunking.1 _ ⟨by decide, by decide⟩,
    ((framing_round_trip_over_any_chunking.2 (ProtoCodec.noparse : ProtoCodec _ Unit) 16 chunkedMessages
      [[128, 1, 0, 0, 0, 0, 0, 3, 1, 2, 3], [4, 0, 0, 0, 0, 0, 0, 1, 7]]
      (by simp only [chunkedMessages, List.mem_cons, List.mem_nil_iff, or_false, forall_eq_or_imp, forall_eq]
          exact ⟨⟨⟨by decide, by decide⟩, by decide, rfl⟩, ⟨trivial, by decide, rfl⟩⟩)
      (by decide)).2 chunkedCalls (by decide)).1⟩

/-- A Custom message whose id is Start's is read back as a Start message: its header reads back
as Start's, and the decoder hands its body to Start's decoder, although the message is below the
size limit and its type's decoder reads it back. -/
theorem customZero_read_as_start :
    MessageHeader.tryFromU64 (MessageHeader.new (.custom 0) 0).toU64 = .ok (MessageHeader.new .start 0) ∧
    Encoder.encode (ProtoCodec.noparse : ProtoCodec _ Unit) (.custom 0 []) = some [0, 0, 0, 0, 0, 0, 0, 0] ∧
    (Message.custom 0 [] : Message (MessageType × List UInt8)).encodedLen
      (ProtoCodec.noparse : ProtoCodec _ Unit) < ((1 : ℕ+) : Nat) ∧
    MessageType.decode (ProtoCodec.noparse : ProtoCodec _ Unit) (.custom 0) [] = .ok (.custom 0 []) ∧
    (Simulation.run (Decoder.call (ProtoCodec.noparse : ProtoCodec _ Unit)) (Decoder.new 1)
        [.push [0, 0, 0, 0, 0, 0, 0, 0], .consumeNext]).1 =
      [.ok (some (MessageHeader.new .start 0, .proto (.start, [])))] := by
  decide

end Restate
