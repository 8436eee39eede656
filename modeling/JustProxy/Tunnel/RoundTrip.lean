import JustProxy.Tunnel.Frames

/-! # Stream round trip

The reading loop over the bytes of any messages, cut anywhere, returns exactly
those messages. The loop's decoder is stable, so chunks do not matter; a prefix
of the stream is some whole frames and a proper part of the next one.
-/

namespace JustProxy

open Bytes StreamDecoder

/-- A message as it is handed to an encoder, with the four bytes the generator
fills in. -/
structure Sent where
  uuid : UInt16
  transfer : ProxyTransfer
  random : Vector UInt8 4

namespace Direction

variable {Key : Type} (direction : Direction) (codec : TunnelCodec Key)

/-- The decoder that `FramedRead` drives. -/
def decoder : Decoder Unit direction.Item IoError where
  decode _ src := ((direction.decode codec src).1, (), (direction.decode codec src).2)
  consumes {state buffer value state' rest} hdecode := by
    have hverdict := congrArg Prod.fst hdecode
    have hrest := congrArg (fun answer => answer.2.2) hdecode
    have hitem : codec.decodeWith direction.build buffer = (.item value, rest) := by
      rw [← decode_eq]
      exact Prod.ext hverdict hrest
    obtain ⟨parsed, hvalid, rfl, -⟩ := codec.decodeWith_item hitem
    have hlength := hvalid.length1
    simp only [List.length_append]
    omega

/-- The message a decoder returns for a sent one. -/
def received (message : Sent) : direction.Item := direction.new message.uuid message.transfer

/-- Encode messages one behind the other into one buffer. -/
def encodeAll : List Sent → BytesMut → Option BytesMut
  | [], dst => some dst
  | message :: rest, dst =>
      let run := direction.encode codec (direction.received message) message.random dst
      match run.outcome with
      | .ok => encodeAll rest run.dst
      | .err _ => none
      | .panic => none

variable {direction codec}

theorem decoder_decode {buffer rest : List UInt8} {verdict : Verdict direction.Item IoError}
    (hdecode : codec.decodeWith direction.build buffer = (verdict, rest)) :
    (direction.decoder codec).decode () buffer = (verdict, (), rest) := by
  rw [← decode_eq] at hdecode
  change ((direction.decode codec buffer).1, (), (direction.decode codec buffer).2) = _
  rw [hdecode]

theorem decodeWith_of_decoder {state state' : Unit} {buffer rest : List UInt8}
    {verdict : Verdict direction.Item IoError}
    (hdecode : (direction.decoder codec).decode state buffer = (verdict, state', rest)) :
    codec.decodeWith direction.build buffer = (verdict, rest) := by
  have hverdict := congrArg Prod.fst hdecode
  have hrest := congrArg (fun answer => answer.2.2) hdecode
  rw [← decode_eq]
  exact Prod.ext hverdict hrest

theorem decoder_stable : (direction.decoder codec).Stable where
  item suffix hdecode :=
    decoder_decode (codec.decodeWith_append (decodeWith_of_decoder hdecode) (by simp) suffix)
  more hdecode := ⟨rfl, codec.decodeWith_more (decodeWith_of_decoder hdecode)⟩
  fail suffix hdecode := congrArg Prod.fst
    (decoder_decode (codec.decodeWith_append (decodeWith_of_decoder hdecode) (by simp) suffix))
  panic suffix hdecode := congrArg Prod.fst
    (decoder_decode (codec.decodeWith_append (decodeWith_of_decoder hdecode) (by simp) suffix))

theorem drain_nil : (direction.decoder codec).drain () [] = ([], .reading () []) := by
  apply Decoder.drain_more
  apply decoder_decode
  apply codec.decodeWith_short
  simp only [List.length_nil]
  omega

end Direction

namespace TunnelCodec

variable {Key : Type} (codec : TunnelCodec Key)

/-- The number of bytes a message takes in the stream. -/
def frameLen (message : Sent) : Nat :=
  11 + codec.tagLen + message.transfer.payload.length + codec.tagLen

/-- How many of the first messages have arrived completely within `count` bytes. -/
def arrived : List Sent → Nat → Nat
  | [], _ => 0
  | message :: rest, count =>
      if codec.frameLen message ≤ count then arrived rest (count - codec.frameLen message) + 1
      else 0

/-- The stream of some messages, when all of them can be sealed. -/
def stream : List Sent → Option (List UInt8)
  | [] => some []
  | message :: rest =>
      (codec.frame message.uuid message.transfer message.random).bind fun frame =>
        (stream rest).map fun bytes => frame ++ bytes

variable {codec}

/-- What encoding appends is the concatenation of the frames. -/
theorem encodeAll_eq_some {direction : Direction} {messages : List Sent} {dst dst' : BytesMut}
    (hencode : direction.encodeAll codec messages dst = some dst') :
    ∃ bytes, codec.stream messages = some bytes ∧ dst'.bytes = dst.bytes ++ bytes := by
  induction messages generalizing dst with
  | nil =>
      cases hencode
      exact ⟨[], rfl, by simp⟩
  | cons message rest ih =>
      simp only [Direction.encodeAll, Direction.received, Direction.encode_new] at hencode
      cases hheader : codec.sealHeader message.uuid message.transfer message.random with
      | none => simp [codec.encodeWith_header_refused dst hheader] at hencode
      | some parse1 =>
          cases hpayload : codec.sealPayload parse1 message.transfer with
          | none => simp [codec.encodeWith_payload_refused dst hheader hpayload] at hencode
          | some parse2 =>
              obtain ⟨next, hrun, hbytes⟩ := codec.encodeWith_sealed dst hheader hpayload
              rw [hrun] at hencode
              obtain ⟨bytes, hstream, hdst⟩ := ih hencode
              refine ⟨parse1 ++ parse2 ++ bytes, ?_, ?_⟩
              · simp [stream, frame, hheader, hpayload, hstream]
              · rw [hdst, hbytes]
                simp

/-- The two segments of an encoded frame are what the decoder looks for. -/
theorem frame_valid (hring : codec.cryptoAlgorithm.RoundTrips) {message : Sent}
    (hshort : message.transfer.payload.length < 2 ^ 32) {frame : List UInt8}
    (hframe : codec.frame message.uuid message.transfer message.random = some frame) :
    ∃ parsed : Parsed, parsed.Valid codec ∧ frame = parsed.parse1 ++ parsed.parse2 ∧
      parsed.header = ⟨message.uuid, message.transfer.header.1,
        message.transfer.header.2.toU8⟩ ∧
      parsed.transferType = message.transfer.header.2 ∧
      parsed.transfer = message.transfer := by
  simp only [TunnelCodec.frame, Option.bind_eq_some_iff, Option.map_eq_some_iff] at hframe
  obtain ⟨parse1, hheader, parse2, hpayload, rfl⟩ := hframe
  have hlength1 := codec.cryptoAlgorithm.length_seal hheader
  have hlength2 := codec.cryptoAlgorithm.length_seal hpayload
  rw [length_headerPlain, ← codec.tagLen_eq] at hlength1
  rw [← codec.tagLen_eq] at hlength2
  -- the peer's opening key is the sealing key
  have hopen1 := hring _ _ _ _ _ hheader
  have hopen2 := hring _ _ _ _ _ hpayload
  rw [codec.sealingKey_eq] at hopen1 hopen2
  let opened : Opened := ⟨message.transfer.payload,
    message.transfer.payload ++ parse2.drop message.transfer.payload.length⟩
  have hplace : codec.cryptoAlgorithm.openInPlace codec.openingKey codec.nonceBytes parse1
      parse2 = some opened := by
    rw [Aead.openInPlace, hopen2]
    rfl
  have hcut := (codec.cryptoAlgorithm.openInPlace_eq_some hplace).2.2
  rw [← codec.tagLen_eq] at hcut
  have hread := readHeader_headerPlain message.uuid message.transfer message.random
  rw [ProxyTransfer.length_payload] at hshort hlength2
  rw [Nat.mod_eq_of_lt hshort] at hread
  exact ⟨⟨parse1, parse2, _, opened, message.transfer.header.2, message.transfer⟩,
    ⟨hlength1, ⟨_, hopen1, hread⟩, hlength2, hplace, codec.readTransfer_payload rfl hcut⟩,
    rfl, rfl, rfl, rfl⟩

section Loop

variable {direction : Direction} (hring : codec.cryptoAlgorithm.RoundTrips)
include hring

/-- A whole frame at the front of the buffer is returned and removed. -/
theorem decodeWith_frame {message : Sent} (hshort : message.transfer.payload.length < 2 ^ 32)
    {frame : List UInt8}
    (hframe : codec.frame message.uuid message.transfer message.random = some frame)
    (rest : List UInt8) :
    codec.decodeWith direction.build (frame ++ rest) =
      (.item (direction.received message), rest) := by
  obtain ⟨parsed, hvalid, rfl, hheader, htype, htransfer⟩ := frame_valid hring hshort hframe
  rw [List.append_assoc, codec.decodeWith_of_valid hvalid, hheader, htype, htransfer,
    Direction.received, Direction.new_eq]

/-- A proper part of a frame is left alone. -/
theorem decodeWith_part {message : Sent} (hshort : message.transfer.payload.length < 2 ^ 32)
    {frame : List UInt8}
    (hframe : codec.frame message.uuid message.transfer message.random = some frame)
    {part : List UInt8} (hpart : part <+: frame) (hproper : part.length < frame.length) :
    codec.decodeWith direction.build part = (.more, part) := by
  obtain ⟨parsed, hvalid, rfl, -⟩ := frame_valid hring hshort hframe
  by_cases hlong : part.length < 11 + codec.tagLen
  · exact codec.decodeWith_short hlong
  · -- the part holds the whole first segment
    have hfirst : parsed.parse1 <+: part :=
      List.prefix_of_prefix_length_le (List.prefix_append _ _) hpart
        (by rw [hvalid.length1]; omega)
    obtain ⟨second, rfl⟩ := hfirst
    obtain ⟨plain, hopen, hheader⟩ := hvalid.open1
    apply codec.decodeWith_waiting hvalid.length1 hopen hheader
    have hlength2 := hvalid.length2
    simp only [List.length_append] at hproper
    omega

/-- After any prefix of the stream, exactly the messages have been returned
whose last byte lies in the prefix, and the bytes behind them are unread. -/
theorem drain_prefix {messages : List Sent}
    (hshort : ∀ message ∈ messages, message.transfer.payload.length < 2 ^ 32)
    {bytes : List UInt8} (hstream : codec.stream messages = some bytes)
    {front : List UInt8} (hfront : front <+: bytes) :
    (direction.decoder codec).drain () front =
      ((messages.take (codec.arrived messages front.length)).map direction.received,
        .reading () (front.drop
          ((messages.take (codec.arrived messages front.length)).map codec.frameLen).sum)) := by
  induction messages generalizing bytes front with
  | nil =>
      cases hstream
      rw [List.prefix_nil.mp hfront]
      exact Direction.drain_nil
  | cons message rest ih =>
      simp only [stream, Option.bind_eq_some_iff, Option.map_eq_some_iff] at hstream
      obtain ⟨frame, hframe, restBytes, hrest, rfl⟩ := hstream
      have hmessage := hshort message List.mem_cons_self
      have hlength : frame.length = codec.frameLen message := by
        rw [codec.length_frame hframe, frameLen, ProxyTransfer.length_payload]
      -- either the first frame is complete, or nothing of the stream is decoded yet
      by_cases hwhole : codec.frameLen message ≤ front.length
      · have hstart : frame <+: front := List.prefix_of_prefix_length_le
          (List.prefix_append _ _) hfront (by omega)
        obtain ⟨tail, rfl⟩ := hstart
        have htail := ih (fun other hother => hshort other (List.mem_cons_of_mem _ hother))
          hrest ((List.prefix_append_right_inj frame).mp hfront)
        have hcount : (frame ++ tail).length - codec.frameLen message = tail.length := by
          rw [List.length_append]
          omega
        rw [Decoder.drain_item (Direction.decoder_decode
          (decodeWith_frame hring hmessage hframe tail)), htail, arrived, if_pos hwhole, hcount]
        simp [← hlength, List.drop_append]
      · rw [Decoder.drain_more (Direction.decoder_decode (decodeWith_part hring hmessage hframe
          (List.prefix_of_prefix_length_le hfront (List.prefix_append _ _) (by omega))
          (by omega))), arrived, if_neg hwhole]
        simp

end Loop

/-- All messages have arrived with the whole stream. -/
theorem arrived_stream {messages : List Sent} {bytes : List UInt8}
    (hstream : codec.stream messages = some bytes) :
    codec.arrived messages bytes.length = messages.length ∧
      (messages.map codec.frameLen).sum = bytes.length := by
  induction messages generalizing bytes with
  | nil =>
      cases hstream
      exact ⟨rfl, rfl⟩
  | cons message rest ih =>
      simp only [stream, Option.bind_eq_some_iff, Option.map_eq_some_iff] at hstream
      obtain ⟨frame, hframe, restBytes, hrest, rfl⟩ := hstream
      obtain ⟨hcount, hsum⟩ := ih hrest
      have hlength : frame.length = codec.frameLen message := by
        rw [codec.length_frame hframe, frameLen, ProxyTransfer.length_payload]
      have hsub : (frame ++ restBytes).length - codec.frameLen message = restBytes.length := by
        rw [List.length_append]
        omega
      constructor
      · rw [arrived, if_pos (by rw [List.length_append]; omega), hsub, hcount,
          List.length_cons]
      · rw [List.map_cons, List.sum_cons, hsum, List.length_append, hlength]

/-- Tunnel stream round trip. At every moment of the loop the messages whose
last byte has arrived have been returned, in order and unchanged, and the loop
waits with the bytes behind them; at the end all messages have been returned
and the buffer is empty. -/
theorem feedAll_encodeAll (direction : Direction) (codec : TunnelCodec Key)
    (hring : codec.cryptoAlgorithm.RoundTrips) (messages : List Sent)
    (hshort : ∀ message ∈ messages, message.transfer.payload.length < 2 ^ 32)
    (dst : BytesMut)
    (hencode : direction.encodeAll codec messages BytesMut.empty = some dst)
    (chunks : List (List UInt8)) (hcut : chunks.flatten = dst.bytes) :
    (∀ read waiting, chunks = read ++ waiting →
      (direction.decoder codec).feedAll (.reading () []) read =
        ((messages.take (codec.arrived messages read.flatten.length)).map direction.received,
          .reading () (read.flatten.drop ((messages.take
            (codec.arrived messages read.flatten.length)).map codec.frameLen).sum))) ∧
    (direction.decoder codec).feedAll (.reading () []) chunks =
      (messages.map direction.received, .reading () []) := by
  obtain ⟨bytes, hstream, hbytes⟩ := encodeAll_eq_some hencode
  rw [BytesMut.bytes_empty, List.nil_append] at hbytes
  rw [hbytes] at hcut
  have hmoment : ∀ read waiting, chunks = read ++ waiting →
      (direction.decoder codec).feedAll (.reading () []) read =
        ((messages.take (codec.arrived messages read.flatten.length)).map direction.received,
          .reading () (read.flatten.drop ((messages.take
            (codec.arrived messages read.flatten.length)).map codec.frameLen).sum)) := by
    rintro read waiting rfl
    rw [Direction.decoder_stable.feedAll_eq_drain Direction.drain_nil]
    apply drain_prefix hring hshort hstream
    rw [← hcut, List.flatten_append]
    exact List.prefix_append _ _
  refine ⟨hmoment, ?_⟩
  obtain ⟨hcount, hsum⟩ := arrived_stream hstream
  rw [hmoment chunks [] (List.append_nil _).symm, hcut, hcount, List.take_length, hsum,
    List.drop_length]

/-- A codec over one-byte keys whose tag is a checksum. -/
def checksumCodec (key : UInt8) : TunnelCodec UInt8 where
  cryptoAlgorithm := Aead.checksum 16 fun key nonce aad plain =>
    Aead.parity (key :: nonce.toList ++ aad ++ plain)
  openingKey := key
  sealingKey := key
  nonceBytes := Vector.replicate 12 1
  tagLen := 16
  sealingKey_eq := rfl
  tagLen_eq := rfl

theorem checksumCodec_roundTrips (key : UInt8) :
    (checksumCodec key).cryptoAlgorithm.RoundTrips :=
  Aead.checksum_roundTrips 16 _

/-- Two messages, the first one cut inside its header. -/
theorem feedAll_encodeAll_two :
    let messages : List Sent := [⟨7, .data [104, 105], #v[1, 2, 3, 4]⟩,
      ⟨9, .response .timeout, #v[0, 0, 0, 0]⟩]
    ∃ dst, Direction.response.encodeAll (checksumCodec 3) messages BytesMut.empty = some dst ∧
      (Direction.response.decoder (checksumCodec 3)).feedAll (.reading () [])
          [dst.bytes.take 5, dst.bytes.drop 5] =
        ([ProxyResponse.new 7 (.data [104, 105]), ProxyResponse.new 9 (.response .timeout)],
          .reading () []) := by
  refine ⟨_, rfl, ?_⟩
  exact (feedAll_encodeAll .response (checksumCodec 3) (checksumCodec_roundTrips 3)
    [⟨7, .data [104, 105], #v[1, 2, 3, 4]⟩, ⟨9, .response .timeout, #v[0, 0, 0, 0]⟩]
    (by decide) _ rfl _ (by simp)).2

end TunnelCodec

end JustProxy
