import JustProxy.Tunnel.Codec

/-! # Frames

What one encoding call appends, and what one decoding call makes of a buffer.
Everything later is derived from these laws; the bodies of `encodeWith` and
`decodeWith` are not unfolded again.
-/

namespace JustProxy

open Bytes StreamDecoder

namespace TunnelCodec

variable {Key : Type} (codec : TunnelCodec Key)

/-- The layout of the eleven plaintext bytes of a first segment. -/
def headerBytes (uuid : UInt16) (random : Vector UInt8 4) (transferLen : Nat)
    (typeByte : UInt8) : List UInt8 :=
  beBytes 2 uuid.toNat ++ random.toList ++ beBytes 4 transferLen ++ [typeByte]

/-- The eleven plaintext bytes of a frame's first segment. -/
def headerPlain (uuid : UInt16) (transfer : ProxyTransfer) (random : Vector UInt8 4) :
    List UInt8 :=
  beBytes 2 uuid.toNat ++ random.toList ++ beBytes 4 (transfer.header.1 % 2 ^ 32) ++
    [transfer.header.2.toU8]

/-- The first segment: the sealed header. -/
def sealHeader (uuid : UInt16) (transfer : ProxyTransfer) (random : Vector UInt8 4) :
    Option (List UInt8) :=
  codec.cryptoAlgorithm.sealBytes codec.sealingKey codec.nonceBytes []
    (headerPlain uuid transfer random)

/-- The second segment: the sealed payload, authenticating the first segment. -/
def sealPayload (parse1 : List UInt8) (transfer : ProxyTransfer) : Option (List UInt8) :=
  codec.cryptoAlgorithm.sealBytes codec.sealingKey codec.nonceBytes parse1 transfer.payload

/-- The bytes of one frame, when both segments can be sealed. -/
def frame (uuid : UInt16) (transfer : ProxyTransfer) (random : Vector UInt8 4) :
    Option (List UInt8) :=
  (codec.sealHeader uuid transfer random).bind fun parse1 =>
    (codec.sealPayload parse1 transfer).map fun parse2 => parse1 ++ parse2

/-- The sealing call made for the header. -/
def headerCall (uuid : UInt16) (transfer : ProxyTransfer) (random : Vector UInt8 4) :
    SealCall Key Nonce where
  key := codec.sealingKey
  nonce := codec.nonceBytes
  aad := []
  plain := headerPlain uuid transfer random
  output := codec.sealHeader uuid transfer random

/-- The sealing call made for the payload. -/
def payloadCall (parse1 : List UInt8) (transfer : ProxyTransfer) : SealCall Key Nonce where
  key := codec.sealingKey
  nonce := codec.nonceBytes
  aad := parse1
  plain := transfer.payload
  output := codec.sealPayload parse1 transfer

@[simp] theorem length_headerPlain (uuid : UInt16) (transfer : ProxyTransfer)
    (random : Vector UInt8 4) : (headerPlain uuid transfer random).length = 11 := by
  simp [headerPlain]

/-! ## Encoding -/

theorem sealCall_append (aad plain : List UInt8) :
    codec.sealCall aad (plain ++ List.replicate codec.tagLen 0) =
      ⟨codec.sealingKey, codec.nonceBytes, aad, plain,
        codec.cryptoAlgorithm.sealBytes codec.sealingKey codec.nonceBytes aad plain⟩ := by
  have hroom : (List.replicate codec.tagLen (0 : UInt8)).length =
      codec.cryptoAlgorithm.tagLen := by
    rw [List.length_replicate, codec.tagLen_eq]
  have hseal := codec.cryptoAlgorithm.sealInPlace_append codec.sealingKey codec.nonceBytes
    aad plain _ hroom
  rw [← codec.tagLen_eq] at hseal
  simp [sealCall, hseal]

/-- The first buffer has room for exactly the header and its tag. -/
theorem parse1Buf_eq (uuid : UInt16) (transfer : ProxyTransfer) (random : Vector UInt8 4) :
    ∃ buffer, (BytesMut.empty.reserve (6 + 4 + 1 + codec.tagLen)).putAll
        ([beBytes 2 uuid.toNat, random.toList, beBytes 4 (transfer.header.1 % 2 ^ 32),
          [transfer.header.2.toU8]] ++ List.replicate codec.tagLen [0]) = some buffer ∧
      codec.sealCall [] buffer.bytes = codec.headerCall uuid transfer random := by
  have hflat : ([beBytes 2 uuid.toNat, random.toList, beBytes 4 (transfer.header.1 % 2 ^ 32),
      [transfer.header.2.toU8]] ++ List.replicate codec.tagLen [(0 : UInt8)]).flatten =
      headerPlain uuid transfer random ++ List.replicate codec.tagLen 0 := by
    simp [headerPlain]
  obtain ⟨buffer, hput, hbytes, -⟩ := BytesMut.putAll_of_fits
    (BytesMut.empty.reserve (6 + 4 + 1 + codec.tagLen))
    ([beBytes 2 uuid.toNat, random.toList, beBytes 4 (transfer.header.1 % 2 ^ 32),
      [transfer.header.2.toU8]] ++ List.replicate codec.tagLen [(0 : UInt8)])
    (by rw [hflat]; simp)
  refine ⟨buffer, hput, ?_⟩
  rw [hbytes, hflat, BytesMut.bytes_reserve, BytesMut.bytes_empty, List.nil_append,
    sealCall_append]
  rfl

/-- The second buffer has room for exactly the payload and its tag. -/
theorem parse2Buf_eq (parse1 : List UInt8) (transfer : ProxyTransfer) :
    ∃ buffer, (BytesMut.empty.reserve (transfer.header.1 + codec.tagLen)).putAll
        (transfer.payload :: List.replicate codec.tagLen [0]) = some buffer ∧
      codec.sealCall parse1 buffer.bytes = codec.payloadCall parse1 transfer := by
  have hflat : (transfer.payload :: List.replicate codec.tagLen [(0 : UInt8)]).flatten =
      transfer.payload ++ List.replicate codec.tagLen 0 := by
    simp
  obtain ⟨buffer, hput, hbytes, -⟩ := BytesMut.putAll_of_fits
    (BytesMut.empty.reserve (transfer.header.1 + codec.tagLen))
    (transfer.payload :: List.replicate codec.tagLen [(0 : UInt8)]) (by simp)
  refine ⟨buffer, hput, ?_⟩
  rw [hbytes, hflat, BytesMut.bytes_reserve, BytesMut.bytes_empty, List.nil_append,
    sealCall_append]
  rfl

/-- A message whose header cannot be sealed: one sealing call, nothing written. -/
theorem encodeWith_header_refused {uuid : UInt16} {transfer : ProxyTransfer}
    {random : Vector UInt8 4} (dst : BytesMut)
    (hheader : codec.sealHeader uuid transfer random = none) :
    codec.encodeWith uuid transfer.header.1 transfer.header.2 transfer random dst =
      ⟨.err encError, dst, [codec.headerCall uuid transfer random]⟩ := by
  obtain ⟨parse1Buf, hput, hcall⟩ := codec.parse1Buf_eq uuid transfer random
  simp only [encodeWith, hput, hcall]
  simp [headerCall, hheader]

/-- A message whose payload cannot be sealed: two sealing calls, nothing written. -/
theorem encodeWith_payload_refused {uuid : UInt16} {transfer : ProxyTransfer}
    {random : Vector UInt8 4} {parse1 : List UInt8} (dst : BytesMut)
    (hheader : codec.sealHeader uuid transfer random = some parse1)
    (hpayload : codec.sealPayload parse1 transfer = none) :
    codec.encodeWith uuid transfer.header.1 transfer.header.2 transfer random dst =
      ⟨.err encError, dst,
        [codec.headerCall uuid transfer random, codec.payloadCall parse1 transfer]⟩ := by
  obtain ⟨parse1Buf, hput1, hcall1⟩ := codec.parse1Buf_eq uuid transfer random
  obtain ⟨parse2Buf, hput2, hcall2⟩ := codec.parse2Buf_eq parse1 transfer
  have hout1 : (codec.headerCall uuid transfer random).output = some parse1 := hheader
  have hout2 : (codec.payloadCall parse1 transfer).output = none := hpayload
  simp only [encodeWith, hput1, hcall1, hout1, hput2, hcall2, hout2]

/-- A message that can be sealed: exactly its frame is appended. -/
theorem encodeWith_sealed {uuid : UInt16} {transfer : ProxyTransfer}
    {random : Vector UInt8 4} {parse1 parse2 : List UInt8} (dst : BytesMut)
    (hheader : codec.sealHeader uuid transfer random = some parse1)
    (hpayload : codec.sealPayload parse1 transfer = some parse2) :
    ∃ dst', codec.encodeWith uuid transfer.header.1 transfer.header.2 transfer random dst =
        ⟨.ok, dst',
          [codec.headerCall uuid transfer random, codec.payloadCall parse1 transfer]⟩ ∧
      dst'.bytes = dst.bytes ++ (parse1 ++ parse2) := by
  obtain ⟨parse1Buf, hput1, hcall1⟩ := codec.parse1Buf_eq uuid transfer random
  obtain ⟨parse2Buf, hput2, hcall2⟩ := codec.parse2Buf_eq parse1 transfer
  have hlength1 := codec.cryptoAlgorithm.length_seal hheader
  have hlength2 := codec.cryptoAlgorithm.length_seal hpayload
  rw [length_headerPlain, ← codec.tagLen_eq] at hlength1
  rw [ProxyTransfer.length_payload, ← codec.tagLen_eq] at hlength2
  obtain ⟨dst', hput, hbytes, -⟩ := BytesMut.putAll_of_fits
    (dst.reserve (6 + 4 + 1 + codec.tagLen + transfer.header.1 + codec.tagLen))
    [parse1, parse2] (by simp [hlength1, hlength2]; omega)
  have hout1 : (codec.headerCall uuid transfer random).output = some parse1 := hheader
  have hout2 : (codec.payloadCall parse1 transfer).output = some parse2 := hpayload
  refine ⟨dst', ?_, by simpa using hbytes⟩
  simp only [encodeWith, hput1, hcall1, hout1, hput2, hcall2, hout2, hput]

/-- Every encoding call seals the header, and the payload unless that failed.
Both seals use the codec's only key and nonce. -/
theorem encodeWith_seals (uuid : UInt16) (transfer : ProxyTransfer)
    (random : Vector UInt8 4) (dst : BytesMut) :
    (codec.encodeWith uuid transfer.header.1 transfer.header.2 transfer random dst).seals =
      codec.headerCall uuid transfer random ::
        ((codec.sealHeader uuid transfer random).map fun parse1 =>
          codec.payloadCall parse1 transfer).toList := by
  cases hheader : codec.sealHeader uuid transfer random with
  | none => simp [codec.encodeWith_header_refused dst hheader]
  | some parse1 =>
      cases hpayload : codec.sealPayload parse1 transfer with
      | none => simp [codec.encodeWith_payload_refused dst hheader hpayload]
      | some parse2 =>
          obtain ⟨dst', hrun, -⟩ := codec.encodeWith_sealed dst hheader hpayload
          simp [hrun]

/-- Whatever length and type a message declares, the second seal is of the
payload that its transfer is written as. -/
theorem encodeWith_second_plain {uuid : UInt16} {transferLen : Nat}
    {transferType : ProxyTransferType} {transfer : ProxyTransfer} {random : Vector UInt8 4}
    {dst : BytesMut} {first second : List UInt8}
    (hseals : (codec.encodeWith uuid transferLen transferType transfer random dst).seals.map
      SealCall.plain = [first, second]) :
    second = transfer.payload := by
  simp only [encodeWith] at hseals
  split at hseals
  · simp at hseals
  next parse1Buf hput1 =>
    split at hseals
    · simp at hseals
    next parse1Place hout1 =>
      split at hseals
      · simp at hseals
      next parse2Buf hput2 =>
        have hbytes : parse2Buf.bytes = transfer.payload ++ List.replicate codec.tagLen 0 := by
          simpa using BytesMut.bytes_of_putAll hput2
        have hplain := congrArg SealCall.plain
          (codec.sealCall_append parse1Place transfer.payload)
        rw [← hbytes] at hplain
        have hsecond : [(codec.sealCall [] parse1Buf.bytes).plain,
            (codec.sealCall parse1Place parse2Buf.bytes).plain] = [first, second] := by
          split at hseals
          · exact hseals
          · split at hseals <;> exact hseals
        rw [hplain] at hsecond
        simp only [List.cons.injEq] at hsecond
        exact hsecond.2.1.symm

theorem length_frame {uuid : UInt16} {transfer : ProxyTransfer} {random : Vector UInt8 4}
    {bytes : List UInt8} (hframe : codec.frame uuid transfer random = some bytes) :
    bytes.length = 11 + codec.tagLen + transfer.header.1 + codec.tagLen := by
  simp only [frame, Option.bind_eq_some_iff, Option.map_eq_some_iff] at hframe
  obtain ⟨parse1, hheader, parse2, hpayload, rfl⟩ := hframe
  have hlength1 := codec.cryptoAlgorithm.length_seal hheader
  have hlength2 := codec.cryptoAlgorithm.length_seal hpayload
  rw [length_headerPlain, ← codec.tagLen_eq] at hlength1
  rw [ProxyTransfer.length_payload, ← codec.tagLen_eq] at hlength2
  rw [List.length_append, hlength1, hlength2]
  omega

/-! ## Decoding -/

theorem readHeader_headerBytes (uuid : UInt16) (random : Vector UInt8 4) {transferLen : Nat}
    (hlen : transferLen < 2 ^ 32) (typeByte : UInt8) :
    readHeader (headerBytes uuid random transferLen typeByte) =
      some ⟨uuid, transferLen, typeByte⟩ := by
  obtain ⟨⟨random⟩, hrandom⟩ := random
  match random, hrandom with
  | [random0, random1, random2, random3], hrandom =>
      have hread : readHeader (headerBytes uuid ⟨⟨[random0, random1, random2, random3]⟩, hrandom⟩
          transferLen typeByte) =
          some ⟨UInt16.ofNat (beNat (beBytes 2 uuid.toNat)), beNat (beBytes 4 transferLen),
            typeByte⟩ := rfl
      rw [hread, beNat_beBytes_uint16, beNat_beBytes_of_lt hlen, UInt16.ofNat_toNat]

theorem readHeader_headerPlain (uuid : UInt16) (transfer : ProxyTransfer)
    (random : Vector UInt8 4) :
    readHeader (headerPlain uuid transfer random) =
      some ⟨uuid, transfer.header.1 % 2 ^ 32, transfer.header.2.toU8⟩ :=
  readHeader_headerBytes uuid random (Nat.mod_lt _ (by decide)) _

/-- Reading back the payload of a transfer under its own type byte. -/
theorem readTransfer_payload {transfer : ProxyTransfer} {parse2 : Opened}
    (hplain : parse2.plain = transfer.payload)
    (hplace : parse2.place.take (parse2.place.length - codec.tagLen) = parse2.plain) :
    codec.readTransfer transfer.header.2.toU8 parse2 = some (transfer.header.2, transfer) := by
  cases transfer with
  | data bytes =>
      rw [ProxyTransfer.payload] at hplain
      simp [readTransfer, ProxyTransfer.header, ProxyTransferType.toU8, hplace, hplain]
  | requestAddr addr =>
      rw [ProxyTransfer.payload] at hplain
      simp [readTransfer, ProxyTransfer.header, ProxyTransferType.toU8, hplain]
  | response kind =>
      rw [ProxyTransfer.payload] at hplain
      simp [readTransfer, ProxyTransfer.header, ProxyTransferType.toU8, hplain]
  | heartbeat index =>
      rw [ProxyTransfer.payload] at hplain
      have hlength : (beBytes 4 index.toNat).length = 4 := length_beBytes 4 _
      simp [readTransfer, ProxyTransfer.header, ProxyTransferType.toU8, hplain,
        List.take_of_length_le hlength.le]

section Decode

variable {Item : Type} {build : UInt16 → Nat → ProxyTransferType → ProxyTransfer → Item}

/-- The two segments a decoding call has opened, with what it read from them. -/
structure Parsed where
  parse1 : List UInt8
  parse2 : List UInt8
  header : Header
  opened : Opened
  transferType : ProxyTransferType
  transfer : ProxyTransfer

/-- Both segments open under the codec's key, and the second one has the length
that the first one declares. -/
structure Parsed.Valid (parsed : Parsed) : Prop where
  length1 : parsed.parse1.length = 11 + codec.tagLen
  open1 : ∃ plain, codec.cryptoAlgorithm.openBytes codec.openingKey codec.nonceBytes []
    parsed.parse1 = some plain ∧ readHeader plain = some parsed.header
  length2 : parsed.parse2.length = parsed.header.transferLen + codec.tagLen
  open2 : codec.cryptoAlgorithm.openInPlace codec.openingKey codec.nonceBytes parsed.parse1
    parsed.parse2 = some parsed.opened
  read : codec.readTransfer parsed.header.transferTypeByte parsed.opened =
    some (parsed.transferType, parsed.transfer)

theorem decodeWith_short {src : List UInt8} (hshort : src.length < 11 + codec.tagLen) :
    codec.decodeWith build src = (.more, src) := by
  rw [decodeWith, if_pos hshort]

theorem decodeWith_waiting {parse1 part : List UInt8} {plain : List UInt8} {header : Header}
    (hlength : parse1.length = 11 + codec.tagLen)
    (hopen : codec.cryptoAlgorithm.openBytes codec.openingKey codec.nonceBytes [] parse1 =
      some plain)
    (hheader : readHeader plain = some header)
    (hpart : part.length < header.transferLen + codec.tagLen) :
    codec.decodeWith build (parse1 ++ part) = (.more, parse1 ++ part) := by
  have hlong : ¬ (parse1 ++ part).length < 6 + 4 + 1 + codec.tagLen := by
    rw [List.length_append]
    omega
  have htotal : (parse1 ++ part).length <
      6 + 4 + 1 + codec.tagLen + header.transferLen + codec.tagLen := by
    rw [List.length_append]
    omega
  have htake : (parse1 ++ part).take (11 + codec.tagLen) = parse1 := by
    rw [← hlength, List.take_left]
  simp only [decodeWith, if_neg hlong, htake, Aead.openInPlace, hopen, Option.map_some, hheader,
    if_pos htotal]

/-- Two segments that open, the second of the length that the first declares,
are consumed; what is read from the second decides. -/
theorem decodeWith_opened {parse1 parse2 plain : List UInt8} {header : Header} {opened : Opened}
    (hlength1 : parse1.length = 11 + codec.tagLen)
    (hopen1 : codec.cryptoAlgorithm.openBytes codec.openingKey codec.nonceBytes [] parse1 =
      some plain)
    (hheader : readHeader plain = some header)
    (hlength2 : parse2.length = header.transferLen + codec.tagLen)
    (hopen2 : codec.cryptoAlgorithm.openInPlace codec.openingKey codec.nonceBytes parse1
      parse2 = some opened) (rest : List UInt8) :
    codec.decodeWith build (parse1 ++ (parse2 ++ rest)) =
      ((codec.readTransfer header.transferTypeByte opened).elim .panic fun read =>
        .item (build header.uuid header.transferLen read.1 read.2), rest) := by
  have hlong : ¬ (parse1 ++ (parse2 ++ rest)).length < 6 + 4 + 1 + codec.tagLen := by
    simp only [List.length_append]
    omega
  have htotal : ¬ (parse1 ++ (parse2 ++ rest)).length <
      6 + 4 + 1 + codec.tagLen + header.transferLen + codec.tagLen := by
    simp only [List.length_append]
    omega
  have hframe : 6 + 4 + 1 + codec.tagLen + header.transferLen + codec.tagLen =
      (parse1 ++ parse2).length := by
    simp only [List.length_append]
    omega
  have hpacket : (parse1 ++ (parse2 ++ rest)).take
      (6 + 4 + 1 + codec.tagLen + header.transferLen + codec.tagLen) = parse1 ++ parse2 := by
    rw [hframe, ← List.append_assoc, List.take_left]
  have hrest : (parse1 ++ (parse2 ++ rest)).drop
      (6 + 4 + 1 + codec.tagLen + header.transferLen + codec.tagLen) = rest := by
    rw [hframe, ← List.append_assoc, List.drop_left]
  have hparse1 (tail : List UInt8) : (parse1 ++ tail).take (11 + codec.tagLen) = parse1 := by
    rw [← hlength1, List.take_left]
  have hparse2 : (parse1 ++ parse2).drop (11 + codec.tagLen) = parse2 := by
    rw [← hlength1, List.drop_left]
  have hplace : codec.cryptoAlgorithm.openInPlace codec.openingKey codec.nonceBytes []
      parse1 = some ⟨plain, plain ++ parse1.drop plain.length⟩ := by
    rw [Aead.openInPlace, hopen1, Option.map_some]
  simp only [decodeWith, if_neg hlong, hparse1, hplace, hheader, if_neg htotal, hpacket,
    hparse2, hopen2, hrest]
  cases codec.readTransfer header.transferTypeByte opened <;> rfl

/-- A buffer that starts with two valid segments yields their message. -/
theorem decodeWith_of_valid {parsed : Parsed} (hvalid : parsed.Valid codec)
    (rest : List UInt8) :
    codec.decodeWith build (parsed.parse1 ++ (parsed.parse2 ++ rest)) =
      (.item (build parsed.header.uuid parsed.header.transferLen parsed.transferType
        parsed.transfer), rest) := by
  obtain ⟨plain, hopen, hheader⟩ := hvalid.open1
  rw [codec.decodeWith_opened hvalid.length1 hopen hheader hvalid.length2 hvalid.open2,
    hvalid.read]
  rfl

/-- Every message comes from two valid segments at the front of the buffer. -/
theorem decodeWith_item {src rest : List UInt8} {value : Item}
    (hdecode : codec.decodeWith build src = (.item value, rest)) :
    ∃ parsed : Parsed, parsed.Valid codec ∧ src = parsed.parse1 ++ (parsed.parse2 ++ rest) ∧
      value = build parsed.header.uuid parsed.header.transferLen parsed.transferType
        parsed.transfer := by
  simp only [decodeWith] at hdecode
  split at hdecode
  · simp at hdecode
  next hlong =>
    split at hdecode
    · simp at hdecode
    next opened1 hopened1 =>
      split at hdecode
      · simp at hdecode
      next header hheader =>
        split at hdecode
        · simp at hdecode
        next htotal =>
          split at hdecode
          · simp at hdecode
          next opened2 hopened2 =>
            split at hdecode
            · simp at hdecode
            next transferType transfer hread =>
              simp only [Prod.mk.injEq, Verdict.item.injEq] at hdecode
              obtain ⟨rfl, rfl⟩ := hdecode
              -- the packet starts with the same first segment as the buffer
              rw [List.take_take, Nat.min_eq_left (by omega)] at hopened2
              refine ⟨⟨src.take (11 + codec.tagLen), (src.take (6 + 4 + 1 + codec.tagLen +
                header.transferLen + codec.tagLen)).drop (11 + codec.tagLen), header, opened2,
                transferType, transfer⟩, ⟨?_, ?_, ?_, hopened2, hread⟩, ?_, rfl⟩
              · rw [List.length_take]
                omega
              · exact ⟨opened1.plain,
                  (codec.cryptoAlgorithm.openInPlace_eq_some hopened1).1, hheader⟩
              · simp only [List.length_drop, List.length_take]
                omega
              · rw [← List.append_assoc]
                have hfirst : src.take (11 + codec.tagLen) = (src.take (6 + 4 + 1 +
                    codec.tagLen + header.transferLen + codec.tagLen)).take
                    (11 + codec.tagLen) := by
                  rw [List.take_take, Nat.min_eq_left (by omega)]
                rw [hfirst, List.take_append_drop, List.take_append_drop]

/-- Answers other than a request for more bytes do not look behind what they
consume. -/
theorem decodeWith_append {src rest : List UInt8} {verdict : Verdict Item IoError}
    (hdecode : codec.decodeWith build src = (verdict, rest)) (hverdict : verdict ≠ .more)
    (suffix : List UInt8) :
    codec.decodeWith build (src ++ suffix) = (verdict, rest ++ suffix) := by
  simp only [decodeWith] at hdecode ⊢
  split at hdecode
  · simp_all
  next hlong =>
    have hlong' : ¬ (src ++ suffix).length < 6 + 4 + 1 + codec.tagLen := by
      rw [List.length_append]
      omega
    rw [if_neg hlong', List.take_append_of_le_length (by omega)]
    split at hdecode
    · simp_all
    next opened1 hopened1 =>
      split at hdecode
      · simp_all
      next header hheader =>
        split at hdecode
        · simp_all
        next htotal =>
          have htotal' : ¬ (src ++ suffix).length <
              6 + 4 + 1 + codec.tagLen + header.transferLen + codec.tagLen := by
            rw [List.length_append]
            omega
          -- the packet lies in front of the suffix
          simp only [if_neg htotal']
          rw [List.take_append_of_le_length (by omega), List.drop_append_of_le_length (by omega)]
          split at hdecode
          · simp_all
          next opened2 hopened2 =>
            split at hdecode <;> simp_all

theorem decodeWith_more {src rest : List UInt8}
    (hdecode : codec.decodeWith build src = (.more, rest)) : rest = src := by
  simp only [decodeWith] at hdecode
  repeat' split at hdecode
  all_goals simp_all

end Decode

end TunnelCodec

end JustProxy
