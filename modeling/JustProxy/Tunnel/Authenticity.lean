import JustProxy.Tunnel.RoundTrip

/-! # Nonces and authenticity

Which nonces the sealing calls of a tunnel use, and what a decoder can be made
to accept when opening succeeds only on recorded outputs. The first segment is
sealed without associated data and the second one never is, which is what keeps
the two kinds of segments apart.
-/

namespace JustProxy

open Bytes StreamDecoder

/-- One call of an encoder: the direction, the message and the output buffer. -/
structure Encoding where
  direction : Direction
  message : Sent
  dst : BytesMut

namespace Encoding

variable {Key : Type} (codec : TunnelCodec Key)

def run (encoding : Encoding) : TunnelCodec.EncodeRun Key :=
  encoding.direction.encode codec (encoding.direction.received encoding.message)
    encoding.message.random encoding.dst

/-- The call succeeds and appends `frame` to its output buffer. -/
def Emits (encoding : Encoding) (frame : List UInt8) : Prop :=
  (encoding.run codec).outcome = .ok ∧
    (encoding.run codec).dst.bytes = encoding.dst.bytes ++ frame

/-- The header's sealing call. -/
def header (encoding : Encoding) : SealCall Key Nonce :=
  codec.headerCall encoding.message.uuid encoding.message.transfer encoding.message.random

/-- The frame of the call's message. -/
def frame (encoding : Encoding) : Option (List UInt8) :=
  codec.frame encoding.message.uuid encoding.message.transfer encoding.message.random

theorem run_seals (encoding : Encoding) : (encoding.run codec).seals =
    encoding.header codec :: ((encoding.header codec).output.map fun parse1 =>
      codec.payloadCall parse1 encoding.message.transfer).toList := by
  rw [run, Direction.received, Direction.encode_new, codec.encodeWith_seals]
  rfl

variable {codec}

theorem emits_of_frame {encoding : Encoding} {bytes : List UInt8}
    (hframe : encoding.frame codec = some bytes) : encoding.Emits codec bytes := by
  simp only [frame, TunnelCodec.frame, Option.bind_eq_some_iff,
    Option.map_eq_some_iff] at hframe
  obtain ⟨parse1, hheader, parse2, hpayload, rfl⟩ := hframe
  obtain ⟨dst', hrun, hbytes⟩ := codec.encodeWith_sealed encoding.dst hheader hpayload
  rw [Emits, run, Direction.received, Direction.encode_new, hrun]
  exact ⟨rfl, hbytes⟩

end Encoding

namespace TunnelCodec

variable {Key : Type} (codec : TunnelCodec Key)

/-- All calls to `seal_in_place` that some encoding calls make, in order. -/
def sealLog (encodings : List Encoding) : List (SealCall Key Nonce) :=
  encodings.flatMap fun encoding => (encoding.run codec).seals

/-! ## Nonces -/

/-- What `try_assume_unique_for_key` promises of a sequence of sealing calls. -/
def NoncesUnique (calls : List (SealCall Key Nonce)) : Prop :=
  calls.Pairwise fun first second => first.key = second.key → first.nonce ≠ second.nonce

variable {codec}

/-- Every sealing call of a tunnel has the codec's key and nonce. -/
theorem sealLog_key_nonce {encodings : List Encoding} {call : SealCall Key Nonce}
    (hcall : call ∈ codec.sealLog encodings) :
    call.key = codec.sealingKey ∧ call.nonce = codec.nonceBytes := by
  obtain ⟨encoding, -, hseal⟩ := List.mem_flatMap.mp hcall
  rw [Encoding.run_seals] at hseal
  rcases List.mem_cons.mp hseal with rfl | hpayload
  · exact ⟨rfl, rfl⟩
  · obtain ⟨parse1, -, rfl⟩ := Option.map_eq_some_iff.mp (Option.mem_toList.mp hpayload)
    exact ⟨rfl, rfl⟩

/-- With one key and one nonce, the promise only holds of at most one call. -/
theorem noncesUnique_iff_length {encodings : List Encoding} :
    NoncesUnique (codec.sealLog encodings) ↔ (codec.sealLog encodings).length ≤ 1 := by
  constructor
  · intro hunique
    cases hlog : codec.sealLog encodings with
    | nil => simp
    | cons first rest =>
        cases rest with
        | nil => simp
        | cons second rest =>
            rw [hlog, NoncesUnique, List.pairwise_cons] at hunique
            have hfirst : first ∈ codec.sealLog encodings := hlog ▸ List.mem_cons_self
            have hsecond : second ∈ codec.sealLog encodings :=
              hlog ▸ List.mem_cons_of_mem first List.mem_cons_self
            have hfirst := sealLog_key_nonce hfirst
            have hsecond := sealLog_key_nonce hsecond
            exact absurd (hfirst.2.trans hsecond.2.symm)
              (hunique.1 second List.mem_cons_self (hfirst.1.trans hsecond.1.symm))
  · intro hlength
    match hlog : codec.sealLog encodings, hlength with
    | [], _ => exact List.Pairwise.nil
    | [call], _ => exact List.pairwise_singleton _ _

theorem length_sealLog_le_one {encodings : List Encoding} :
    (codec.sealLog encodings).length ≤ 1 ↔
      encodings = [] ∨ ∃ encoding, encodings = [encoding] ∧
        codec.sealHeader encoding.message.uuid encoding.message.transfer
          encoding.message.random = none := by
  have hcount (encoding : Encoding) : (encoding.run codec).seals.length =
      1 + ((codec.sealHeader encoding.message.uuid encoding.message.transfer
        encoding.message.random).map fun parse1 =>
          codec.payloadCall parse1 encoding.message.transfer).toList.length := by
    rw [Encoding.run_seals, List.length_cons, Nat.add_comm]
    rfl
  match encodings with
  | [] => simp [sealLog]
  | [encoding] =>
      simp only [sealLog, List.flatMap_cons, List.flatMap_nil, List.append_nil, hcount]
      cases hheader : codec.sealHeader encoding.message.uuid encoding.message.transfer
          encoding.message.random <;> simp [hheader]
  | first :: second :: rest =>
      simp only [sealLog, List.flatMap_cons, List.length_append, hcount]
      constructor
      · intro hlength
        omega
      · rintro (hnil | ⟨encoding, hsingle, -⟩)
        · cases hnil
        · simp at hsingle

/-- The sealing calls of a tunnel's life: each message is encoded by the codec
of its direction. -/
def tunnelSeals (requestCodec : ProxyRequestCodec Key) (responseCodec : ProxyResponseCodec Key)
    (encodings : List Encoding) : List (SealCall Key Nonce) :=
  encodings.flatMap fun encoding =>
    (encoding.run (encoding.direction.codec requestCodec responseCodec)).seals

@[simp] theorem tunnelSeals_self (encodings : List Encoding) :
    tunnelSeals codec codec encodings = codec.sealLog encodings := by
  simp [tunnelSeals, sealLog]

/-- Both codecs of one configuration have the same fields. -/
theorem new_unique {ring : Ring} {config : ConvertedCryptoConfig}
    {requestCodec : ProxyRequestCodec AeadKey} {responseCodec : ProxyResponseCodec AeadKey}
    (hrequest : ProxyRequestCodec.new ring config = some requestCodec)
    (hresponse : ProxyResponseCodec.new ring config = some responseCodec) :
    responseCodec = requestCodec :=
  Option.some.inj (hresponse.symm.trans hrequest)

/-- Nonce uniqueness under one configuration. Every frame makes two sealing
calls with the same nonce, so the promise is kept only while nothing is encoded,
or when the only header was refused. -/
theorem tunnelSeals_noncesUnique_iff (ring : Ring) (config : ConvertedCryptoConfig)
    {requestCodec : ProxyRequestCodec AeadKey} {responseCodec : ProxyResponseCodec AeadKey}
    (hrequest : ProxyRequestCodec.new ring config = some requestCodec)
    (hresponse : ProxyResponseCodec.new ring config = some responseCodec)
    (encodings : List Encoding) :
    NoncesUnique (tunnelSeals requestCodec responseCodec encodings) ↔
      encodings = [] ∨ ∃ encoding, encodings = [encoding] ∧
        requestCodec.sealHeader encoding.message.uuid encoding.message.transfer
          encoding.message.random = none := by
  obtain rfl := new_unique hrequest hresponse
  rw [tunnelSeals_self, noncesUnique_iff_length, length_sealLog_le_one]

/-- The configuration of the README example. -/
def readmeConfig : ConvertedCryptoConfig where
  key := [49, 50, 51, 49, 50]
  salt := [50, 49, 50, 49]
  cryptoMethod := .aes256Gcm
  digestMethod := .sha256
  digestIteration := 1
  nonzero := by decide

/-- The client's first heartbeat. -/
def firstHeartbeat : Encoding := ⟨.request, ⟨0, .heartbeat 1, #v[0, 0, 0, 0]⟩, BytesMut.empty⟩

theorem tunnelSeals_noncesUnique_iff_heartbeat :
    ∃ requestCodec responseCodec,
      ProxyRequestCodec.new Ring.padded readmeConfig = some requestCodec ∧
      ProxyResponseCodec.new Ring.padded readmeConfig = some responseCodec ∧
      (NoncesUnique (tunnelSeals requestCodec responseCodec [firstHeartbeat]) ↔
        [firstHeartbeat] = [] ∨ ∃ encoding, [firstHeartbeat] = [encoding] ∧
          requestCodec.sealHeader encoding.message.uuid encoding.message.transfer
            encoding.message.random = none) :=
  ⟨_, _, rfl, rfl, tunnelSeals_noncesUnique_iff Ring.padded readmeConfig rfl rfl _⟩

/-- One heartbeat already seals twice with one nonce. -/
theorem heartbeat_repeats_nonce :
    ∃ requestCodec responseCodec,
      ProxyRequestCodec.new Ring.padded readmeConfig = some requestCodec ∧
      ProxyResponseCodec.new Ring.padded readmeConfig = some responseCodec ∧
      ¬ NoncesUnique (tunnelSeals requestCodec responseCodec [firstHeartbeat]) := by
  refine ⟨_, _, rfl, rfl, ?_⟩
  intro hunique
  have hfirst := List.rel_of_pairwise_cons hunique (List.mem_cons_self)
  exact hfirst rfl rfl

/-! ## Authenticity -/

section Ideal

variable {encodings : List Encoding}

theorem mem_sealLog {call : SealCall Key Nonce} (hcall : call ∈ codec.sealLog encodings) :
    ∃ encoding ∈ encodings, call = encoding.header codec ∨
      ∃ parse1, (encoding.header codec).output = some parse1 ∧
        call = codec.payloadCall parse1 encoding.message.transfer := by
  obtain ⟨encoding, hmem, hseal⟩ := List.mem_flatMap.mp hcall
  refine ⟨encoding, hmem, ?_⟩
  rw [Encoding.run_seals] at hseal
  refine (List.mem_cons.mp hseal).imp_right fun hpayload => ?_
  obtain ⟨parse1, hparse1, rfl⟩ := Option.map_eq_some_iff.mp (Option.mem_toList.mp hpayload)
  exact ⟨parse1, hparse1, rfl⟩

theorem header_mem_sealLog {encoding : Encoding} (hmem : encoding ∈ encodings) :
    encoding.header codec ∈ codec.sealLog encodings := by
  refine List.mem_flatMap.mpr ⟨encoding, hmem, ?_⟩
  rw [Encoding.run_seals]
  exact List.mem_cons_self

/-- A sealed header is not empty, so it never is the associated data of a header. -/
theorem header_output_ne_nil {encoding : Encoding} {parse1 : List UInt8}
    (hparse1 : (encoding.header codec).output = some parse1) : parse1 ≠ [] := by
  rintro rfl
  have hlength := codec.cryptoAlgorithm.length_seal hparse1
  rw [List.length_nil, length_headerPlain] at hlength
  omega

variable (hideal : codec.cryptoAlgorithm.Ideal (codec.sealLog encodings))
include hideal

/-- What opens as a first segment is the sealed header of some call. -/
theorem open_parse1 {parse1 plain : List UInt8}
    (hopen : codec.cryptoAlgorithm.openBytes codec.openingKey codec.nonceBytes [] parse1 =
      some plain) :
    ∃ encoding ∈ encodings, (encoding.header codec).output = some parse1 ∧
      (encoding.header codec).plain = plain := by
  obtain ⟨call, hcall, -, -, haad, hout, hplain⟩ := hideal.recorded hopen
  obtain ⟨encoding, hmem, rfl | ⟨other, hother, rfl⟩⟩ := mem_sealLog hcall
  · exact ⟨encoding, hmem, hout, hplain⟩
  · exact absurd haad (header_output_ne_nil hother)

/-- What opens behind a non-empty first segment is the sealed payload of a call
whose sealed header is that segment. -/
theorem open_parse2 {parse1 parse2 plain : List UInt8} (hparse1 : parse1 ≠ [])
    (hopen : codec.cryptoAlgorithm.openBytes codec.openingKey codec.nonceBytes parse1 parse2 =
      some plain) :
    ∃ encoding ∈ encodings, (encoding.header codec).output = some parse1 ∧
      codec.sealPayload parse1 encoding.message.transfer = some parse2 ∧
      encoding.message.transfer.payload = plain := by
  obtain ⟨call, hcall, -, -, haad, hout, hplain⟩ := hideal.recorded hopen
  obtain ⟨encoding, hmem, rfl | ⟨other, hother, rfl⟩⟩ := mem_sealLog hcall
  · exact absurd haad.symm hparse1
  · have heq : other = parse1 := haad
    subst heq
    exact ⟨encoding, hmem, hother, hout, hplain⟩

/-- Two opened segments are one whole frame of one call, with its message. -/
theorem valid_authentic {parsed : Parsed} (hvalid : parsed.Valid codec) :
    ∃ encoding ∈ encodings,
      encoding.frame codec = some (parsed.parse1 ++ parsed.parse2) ∧
      parsed.header.uuid = encoding.message.uuid ∧
      parsed.header.transferLen = encoding.message.transfer.header.1 ∧
      parsed.transferType = encoding.message.transfer.header.2 ∧
      parsed.transfer = encoding.message.transfer := by
  obtain ⟨plain, hopen1, hheader⟩ := hvalid.open1
  obtain ⟨first, hfirst, hout, hplain⟩ := open_parse1 hideal hopen1
  obtain ⟨hopen2, -, hplace⟩ := codec.cryptoAlgorithm.openInPlace_eq_some hvalid.open2
  obtain ⟨encoding, hmem, hout', hpayload, hplain2⟩ :=
    open_parse2 hideal (header_output_ne_nil hout) hopen2
  -- both calls sealed the same header, so they sealed the same plaintext
  have hsame := hideal.plain_eq (header_mem_sealLog hfirst) (header_mem_sealLog hmem)
    rfl rfl rfl hout hout'
  have hread := readHeader_headerPlain encoding.message.uuid encoding.message.transfer
    encoding.message.random
  have hheaderEq : parsed.header = ⟨encoding.message.uuid,
      encoding.message.transfer.header.1 % 2 ^ 32,
      encoding.message.transfer.header.2.toU8⟩ := by
    have hplainEq : plain = headerPlain encoding.message.uuid encoding.message.transfer
        encoding.message.random := hplain.symm.trans hsame
    rw [hplainEq, hread] at hheader
    exact (Option.some.inj hheader).symm
  have hlength := codec.cryptoAlgorithm.length_seal hpayload
  rw [← codec.tagLen_eq, hvalid.length2, ProxyTransfer.length_payload] at hlength
  rw [← codec.tagLen_eq] at hplace
  have hread2 := codec.readTransfer_payload hplain2.symm hplace
  have hreadParsed := hvalid.read
  rw [hheaderEq, hread2] at hreadParsed
  have htransfer := Prod.mk.inj (Option.some.inj hreadParsed)
  refine ⟨encoding, hmem, ?_, by rw [hheaderEq], by omega, htransfer.1.symm,
    htransfer.2.symm⟩
  change (codec.sealHeader _ _ _).bind _ = _
  have hsealed : codec.sealHeader encoding.message.uuid encoding.message.transfer
      encoding.message.random = some parsed.parse1 := hout'
  rw [hsealed, Option.bind_some, hpayload]
  rfl

/-- An accepted message is that of one call, and what it leaves of the buffer is
what stands behind that call's frame. -/
theorem decodeWith_authentic {direction : Direction} {buffer rest : List UInt8}
    {message : direction.Item}
    (hdecode : codec.decodeWith direction.build buffer = (.item message, rest)) :
    ∃ encoding ∈ encodings, ∃ frame, encoding.Emits codec frame ∧ buffer = frame ++ rest ∧
      message = direction.new encoding.message.uuid encoding.message.transfer := by
  obtain ⟨parsed, hvalid, rfl, rfl⟩ := codec.decodeWith_item hdecode
  obtain ⟨encoding, hmem, hframe, huuid, hlen, htype, htransfer⟩ :=
    valid_authentic hideal hvalid
  refine ⟨encoding, hmem, _, Encoding.emits_of_frame hframe, by simp, ?_⟩
  rw [Direction.new_eq, huuid, hlen, htype, htransfer]

end Ideal

/-- Frame authenticity. Whatever the buffer, an accepted message is that of one
encoding call, and the bytes removed are exactly the frame of that call. -/
theorem decode_authentic (direction : Direction) (codec : TunnelCodec Key)
    (encodings : List Encoding)
    (hideal : codec.cryptoAlgorithm.Ideal (codec.sealLog encodings))
    (buffer rest : List UInt8) (message : direction.Item)
    (hdecode : direction.decode codec buffer = (.item message, rest)) :
    ∃ encoding ∈ encodings, ∃ frame, encoding.Emits codec frame ∧ buffer = frame ++ rest ∧
      message = direction.new encoding.message.uuid encoding.message.transfer := by
  rw [Direction.decode_eq] at hdecode
  exact decodeWith_authentic hideal hdecode

/-! ## An ideal codec -/

/-- The codec with the ideal functionality for some encoding calls in place of
its algorithm's opening function. -/
def recorded [DecidableEq Key] (codec : TunnelCodec Key) (encodings : List Encoding) :
    TunnelCodec Key where
  cryptoAlgorithm := codec.cryptoAlgorithm.idealize (codec.sealLog encodings)
  openingKey := codec.openingKey
  sealingKey := codec.sealingKey
  nonceBytes := codec.nonceBytes
  tagLen := codec.tagLen
  sealingKey_eq := codec.sealingKey_eq
  tagLen_eq := codec.tagLen_eq

/-- Sealing does not look at the opening function. -/
theorem sealLog_recorded [DecidableEq Key] (codec : TunnelCodec Key)
    (encodings : List Encoding) :
    (codec.recorded encodings).sealLog encodings = codec.sealLog encodings := by
  apply List.flatMap_congr
  intro encoding _
  rw [Encoding.run_seals, Encoding.run_seals]
  rfl

/-- Every algorithm that opens what it sealed gives an ideal codec. -/
theorem recorded_ideal [DecidableEq Key] (codec : TunnelCodec Key) (encodings : List Encoding)
    (hround : codec.cryptoAlgorithm.RoundTrips) :
    (codec.recorded encodings).cryptoAlgorithm.Ideal
      ((codec.recorded encodings).sealLog encodings) := by
  rw [sealLog_recorded]
  apply codec.cryptoAlgorithm.idealize_ideal hround
  intro call hcall
  obtain ⟨encoding, -, rfl | ⟨parse1, -, rfl⟩⟩ := mem_sealLog hcall
  · rfl
  · rfl

/-- The server's reply on connection 7. -/
def firstReply : Encoding := ⟨.response, ⟨7, .response .succeeded, #v[5, 6, 7, 8]⟩, BytesMut.empty⟩

/-- A reply that an attacker has put in front of a heartbeat is accepted as the
reply it is, and only the heartbeat stays. -/
theorem decode_authentic_spliced :
    let encodings := [firstHeartbeat, firstReply]
    let codec := (checksumCodec 3).recorded encodings
    let heartbeat := (firstHeartbeat.run codec).dst.bytes
    let reply := (firstReply.run codec).dst.bytes
    ∃ encoding ∈ encodings, ∃ frame, encoding.Emits codec frame ∧
      reply ++ heartbeat = frame ++ heartbeat ∧
      ProxyResponse.new 7 (.response .succeeded) =
        ProxyResponse.new encoding.message.uuid encoding.message.transfer :=
  decode_authentic .response ((checksumCodec 3).recorded [firstHeartbeat, firstReply])
    [firstHeartbeat, firstReply] (recorded_ideal _ _ (checksumCodec_roundTrips 3)) _ _
    (ProxyResponse.new 7 (.response .succeeded)) (by decide +kernel)

end TunnelCodec

end JustProxy
