import JustProxy.Tunnel.RoundTrip

/-! # Frames of another sender

A holder of the key may seal any header and any payload of the declared length.
The decoder answers such a frame with a message that is encoded like this again
exactly when the payload is one that its type byte allows.
-/

namespace JustProxy

open Bytes StreamDecoder

/-- A frame that a holder of the key has sealed: any uuid, random bytes and type
byte, and a payload of the declared length. -/
structure SealedFrame {Key : Type} (codec : TunnelCodec Key) where
  uuid : UInt16
  random : Vector UInt8 4
  typeByte : UInt8
  payload : List UInt8
  short : payload.length < 2 ^ 32
  parse1 : List UInt8
  parse2 : List UInt8
  seal1 : codec.cryptoAlgorithm.sealBytes codec.sealingKey codec.nonceBytes []
    (TunnelCodec.headerBytes uuid random payload.length typeByte) = some parse1
  seal2 : codec.cryptoAlgorithm.sealBytes codec.sealingKey codec.nonceBytes parse1 payload =
    some parse2

/-- The payloads that a type byte allows. -/
def AllowedPayload (typeByte : UInt8) (payload : List UInt8) : Prop :=
  typeByte = 0x0 ∨ (typeByte = 0x1 ∧ (fromUtf8 payload).isSome) ∨
    (typeByte = 0x2 ∧ ∃ byte ≤ 3, payload = [byte]) ∨ (typeByte = 0x3 ∧ payload.length = 4)

namespace SealedFrame

variable {Key : Type} {codec : TunnelCodec Key} (frame : SealedFrame codec)

/-- Plaintext of the first segment. -/
def header : List UInt8 :=
  TunnelCodec.headerBytes frame.uuid frame.random frame.payload.length frame.typeByte

/-- Encoding a message with the frame's random bytes seals the frame's plaintexts. -/
def EncodedBy (direction : Direction) (message : direction.Item) (dst : BytesMut) : Prop :=
  (direction.encode codec message frame.random dst).seals.map SealCall.plain =
    [frame.header, frame.payload]

/-- The frame, in front of any bytes, is answered with a message that is encoded
like this again, or with an error when there is no such message. -/
def StrictlyDecoded (direction : Direction) (rest : List UInt8) (dst : BytesMut) : Prop :=
  match (direction.decode codec (frame.parse1 ++ (frame.parse2 ++ rest))).1 with
  | .item message => frame.EncodedBy direction message dst
  | .fail _ => ∀ uuid transfer, ¬ frame.EncodedBy direction (direction.new uuid transfer) dst
  | .more => False
  | .panic => False

/-! ## Payloads -/

theorem exists_kind_iff (byte : UInt8) :
    byte ≤ 3 ↔ ∃ kind : ProxyResponseType, kind.toU8 = byte := by
  constructor
  · intro hbyte
    obtain hzero | hone | htwo | hthree :
        byte.toNat = 0 ∨ byte.toNat = 1 ∨ byte.toNat = 2 ∨ byte.toNat = 3 := by
      have hle : byte.toNat ≤ 3 := UInt8.le_iff_toNat_le.mp hbyte
      omega
    · exact ⟨.succeeded, UInt8.toNat_inj.mp hzero.symm⟩
    · exact ⟨.connectionRefused, UInt8.toNat_inj.mp hone.symm⟩
    · exact ⟨.timeout, UInt8.toNat_inj.mp htwo.symm⟩
    · exact ⟨.abort, UInt8.toNat_inj.mp hthree.symm⟩
  · rintro ⟨kind, rfl⟩
    cases kind <;> decide

/-- The allowed payloads are those of the transfers of a type. -/
theorem exists_transfer_iff (typeByte : UInt8) (payload : List UInt8) :
    AllowedPayload typeByte payload ↔
      ∃ transfer : ProxyTransfer,
        transfer.header.2.toU8 = typeByte ∧ transfer.payload = payload := by
  constructor
  · rintro (rfl | ⟨rfl, htext⟩ | ⟨rfl, byte, hbyte, rfl⟩ | ⟨rfl, hlength⟩)
    · exact ⟨.data payload, rfl, rfl⟩
    · obtain ⟨addr, haddr⟩ := Option.isSome_iff_exists.mp htext
      exact ⟨.requestAddr addr, rfl, utf8_of_fromUtf8 haddr⟩
    · obtain ⟨kind, rfl⟩ := (exists_kind_iff byte).mp hbyte
      exact ⟨.response kind, rfl, rfl⟩
    · refine ⟨.heartbeat (UInt32.ofNat (beNat payload)), rfl, ?_⟩
      have hbound : beNat payload < 2 ^ 32 := by
        have hlt := beNat_lt payload
        rwa [hlength] at hlt
      rw [ProxyTransfer.payload, UInt32.toNat_ofNat', Nat.mod_eq_of_lt hbound, ← hlength,
        beBytes_beNat]
  · rintro ⟨transfer, rfl, rfl⟩
    cases transfer with
    | data bytes => exact .inl rfl
    | requestAddr addr => exact .inr (.inl ⟨rfl, by simp [ProxyTransfer.payload]⟩)
    | response kind =>
        exact .inr (.inr (.inl ⟨rfl, kind.toU8, (exists_kind_iff _).mpr ⟨kind, rfl⟩, rfl⟩))
    | heartbeat index => exact .inr (.inr (.inr ⟨rfl, length_beBytes 4 _⟩))

/-- What is read under a type byte has this type. -/
theorem readTransfer_type {typeByte : UInt8} {opened : Opened} {transferType : ProxyTransferType}
    {transfer : ProxyTransfer}
    (hread : codec.readTransfer typeByte opened = some (transferType, transfer)) :
    transfer.header.2.toU8 = typeByte := by
  unfold TunnelCodec.readTransfer at hread
  split at hread
  next htype =>
    cases hread
    exact htype.symm
  split at hread
  next htype =>
    obtain ⟨addr, -, hread⟩ := Option.map_eq_some_iff.mp hread
    cases hread
    exact htype.symm
  split at hread
  next htype =>
    split at hread
    next byte hplain =>
      obtain ⟨kind, -, hread⟩ := Option.map_eq_some_iff.mp hread
      cases hread
      exact htype.symm
    next => cases hread
  split at hread
  next htype =>
    split at hread
    next => cases hread
    next =>
      cases hread
      exact htype.symm
  next => cases hread

/-! ## Decoding -/

/-- The second segment in place, after it has been opened. -/
def opened : Opened := ⟨frame.payload, frame.payload ++ frame.parse2.drop frame.payload.length⟩

theorem openInPlace_parse2 (hring : codec.cryptoAlgorithm.RoundTrips) :
    codec.cryptoAlgorithm.openInPlace codec.openingKey codec.nonceBytes frame.parse1
      frame.parse2 = some frame.opened := by
  have hopen := hring _ _ _ _ _ frame.seal2
  rw [codec.sealingKey_eq] at hopen
  rw [Aead.openInPlace, hopen]
  rfl

theorem decode_eq (hring : codec.cryptoAlgorithm.RoundTrips) (direction : Direction)
    (rest : List UInt8) :
    direction.decode codec (frame.parse1 ++ (frame.parse2 ++ rest)) =
      ((codec.readTransfer frame.typeByte frame.opened).elim .panic fun read =>
        .item (direction.build frame.uuid frame.payload.length read.1 read.2), rest) := by
  have hopen := hring _ _ _ _ _ frame.seal1
  have hlength1 := codec.cryptoAlgorithm.length_seal frame.seal1
  have hlength2 := codec.cryptoAlgorithm.length_seal frame.seal2
  rw [codec.sealingKey_eq] at hopen
  rw [← codec.tagLen_eq] at hlength1 hlength2
  rw [Direction.decode_eq]
  exact codec.decodeWith_opened (by simpa [TunnelCodec.headerBytes] using hlength1) hopen
    (TunnelCodec.readHeader_headerBytes frame.uuid frame.random frame.short frame.typeByte)
    hlength2 (frame.openInPlace_parse2 hring) rest

/-! ## Encoding again -/

theorem encodedBy_new {transfer : ProxyTransfer} (direction : Direction) (dst : BytesMut)
    (htype : transfer.header.2.toU8 = frame.typeByte)
    (hpayload : transfer.payload = frame.payload) :
    frame.EncodedBy direction (direction.new frame.uuid transfer) dst := by
  have hlength : transfer.header.1 = frame.payload.length := by
    rw [← transfer.length_payload, hpayload]
  have hheader : TunnelCodec.headerPlain frame.uuid transfer frame.random = frame.header := by
    have hshort : transfer.header.1 % 2 ^ 32 = frame.payload.length := by
      rw [hlength, Nat.mod_eq_of_lt frame.short]
    rw [header, ← hshort, ← htype]
    rfl
  have hseal : codec.sealHeader frame.uuid transfer frame.random = some frame.parse1 := by
    rw [TunnelCodec.sealHeader, hheader]
    exact frame.seal1
  rw [EncodedBy, direction.encode_new, codec.encodeWith_seals, hseal, ← hheader, ← hpayload]
  rfl

theorem payload_of_encodedBy {direction : Direction} {uuid : UInt16} {transferLen : Nat}
    {transferType : ProxyTransferType} {transfer : ProxyTransfer} {dst : BytesMut}
    (hencoded : frame.EncodedBy direction
      (direction.build uuid transferLen transferType transfer) dst) :
    transfer.payload = frame.payload := by
  have hencode : direction.encode codec (direction.build uuid transferLen transferType transfer)
      frame.random dst =
      codec.encodeWith uuid transferLen transferType transfer frame.random dst := by
    cases direction <;> rfl
  rw [EncodedBy, hencode] at hencoded
  exact (codec.encodeWith_second_plain hencoded).symm

/-- Strict parsing. A frame of any other sender who has the key is decoded as
strictly as it should be exactly when its payload is one that its type byte
allows; every other frame panics, or is a heartbeat with bytes behind its index. -/
theorem strictlyDecoded_iff (hring : codec.cryptoAlgorithm.RoundTrips) (direction : Direction)
    (rest : List UInt8) (dst : BytesMut) :
    frame.StrictlyDecoded direction rest dst ↔ AllowedPayload frame.typeByte frame.payload := by
  rw [StrictlyDecoded, frame.decode_eq hring]
  constructor
  · intro hstrict
    cases hread : codec.readTransfer frame.typeByte frame.opened with
    | none =>
        rw [hread] at hstrict
        exact hstrict.elim
    | some read =>
        obtain ⟨transferType, transfer⟩ := read
        rw [hread] at hstrict
        exact (exists_transfer_iff _ _).mpr
          ⟨transfer, readTransfer_type hread, frame.payload_of_encodedBy hstrict⟩
  · intro hallowed
    obtain ⟨transfer, htype, hpayload⟩ := (exists_transfer_iff _ _).mp hallowed
    have hplace : frame.opened.place.take (frame.opened.place.length - codec.tagLen) =
        frame.opened.plain := by
      rw [codec.tagLen_eq]
      exact (codec.cryptoAlgorithm.openInPlace_eq_some (frame.openInPlace_parse2 hring)).2.2
    have hread : codec.readTransfer transfer.header.2.toU8 frame.opened =
        some (transfer.header.2, transfer) :=
      codec.readTransfer_payload hpayload.symm hplace
    rw [htype] at hread
    have hencoded := frame.encodedBy_new direction dst htype hpayload
    have hlength : transfer.header.1 = frame.payload.length := by
      rw [← transfer.length_payload, hpayload]
    rw [hread]
    rw [direction.new_eq, hlength] at hencoded
    exact hencoded

/-- A frame under a checksum. -/
def checksumFrame (typeByte : UInt8) (payload : List UInt8) (short : payload.length < 2 ^ 32) :
    SealedFrame (TunnelCodec.checksumCodec 3) where
  uuid := 7
  random := #v[1, 2, 3, 4]
  typeByte := typeByte
  payload := payload
  short := short
  parse1 := _
  parse2 := _
  seal1 := rfl
  seal2 := rfl

theorem strictlyDecoded_iff_heartbeat :
    (checksumFrame 3 [0, 0, 0, 9] (by decide)).StrictlyDecoded .request [] .empty ↔
      AllowedPayload 3 [0, 0, 0, 9] :=
  strictlyDecoded_iff (checksumFrame 3 [0, 0, 0, 9] (by decide))
    (TunnelCodec.checksumCodec_roundTrips 3) .request [] .empty

/-- An unknown type byte panics, and a heartbeat of five bytes is accepted. -/
theorem not_strictlyDecoded :
    ¬ (checksumFrame 7 [] (by decide)).StrictlyDecoded .request [] .empty ∧
      ¬ (checksumFrame 3 [0, 0, 0, 9, 1] (by decide)).StrictlyDecoded .response [] .empty := by
  constructor
  · have hpanic : (Direction.request.decode (TunnelCodec.checksumCodec 3)
        ((checksumFrame 7 [] (by decide)).parse1 ++
          ((checksumFrame 7 [] (by decide)).parse2 ++ []))).1 = .panic := by decide +kernel
    rw [StrictlyDecoded, hpanic]
    exact id
  · have hitem : (Direction.response.decode (TunnelCodec.checksumCodec 3)
        ((checksumFrame 3 [0, 0, 0, 9, 1] (by decide)).parse1 ++
          ((checksumFrame 3 [0, 0, 0, 9, 1] (by decide)).parse2 ++ []))).1 =
        .item (⟨7, 5, .heartbeat, .heartbeat 9⟩ : ProxyResponse) := by decide +kernel
    rw [StrictlyDecoded, hitem]
    change ¬ _ = _
    decide +kernel

end SealedFrame

end JustProxy
