import JustProxy.Tunnel.Authenticity

/-! # Reflected and replayed frames

An attacker on the path hands recorded frames to either endpoint, in any order
and any number of times. Neither codec knows the direction of a frame, nor which
frames it has already accepted: what remains of the two guarantees is that every
accepted message uses up one delivered copy of a frame that some endpoint has
encoded.
-/

namespace JustProxy

open Bytes StreamDecoder

namespace TunnelCodec

variable {Key : Type} {requestCodec : ProxyRequestCodec Key}
  {responseCodec : ProxyResponseCodec Key} {codec : TunnelCodec Key} {encodings : List Encoding}

/-! ## The two guarantees -/

/-- An attacker's schedule: which recorded frame is handed to which decoder. -/
abbrev Schedule := List (Direction × Nat)

/-- The deliveries of a schedule that are accepted, once for each returned
message. The decoders keep their unread bytes between deliveries. -/
def accepted (requestCodec : ProxyRequestCodec Key) (responseCodec : ProxyResponseCodec Key)
    (frames : List (List UInt8)) :
    (Direction → Stage Unit IoError) → Schedule → Schedule
  | _, [] => []
  | stages, (direction, index) :: rest =>
      let fed := (direction.decoder (direction.codec requestCodec responseCodec)).feed
        (stages direction) (frames.getD index [])
      List.replicate fed.1.length (direction, index) ++
        accepted requestCodec responseCodec frames (Function.update stages direction fed.2) rest

/-- The frames that the encoding calls emit, call by call. -/
def Recorded (requestCodec : ProxyRequestCodec Key) (responseCodec : ProxyResponseCodec Key)
    (encodings : List Encoding) (frames : List (List UInt8)) : Prop :=
  List.Forall₂ (fun encoding frame =>
    encoding.Emits (encoding.direction.codec requestCodec responseCodec) frame) encodings frames

/-- Whatever the schedule, a decoder only accepts frames of its own direction. -/
def RejectsReflection (requestCodec : ProxyRequestCodec Key)
    (responseCodec : ProxyResponseCodec Key) (encodings : List Encoding) : Prop :=
  ∀ frames, Recorded requestCodec responseCodec encodings frames → ∀ schedule,
    ∀ delivery ∈ accepted requestCodec responseCodec frames (fun _ => .reading () []) schedule,
      encodings[delivery.2]?.map Encoding.direction = some delivery.1

/-- Whatever the schedule, each frame is accepted at most once. -/
def RejectsReplay (requestCodec : ProxyRequestCodec Key)
    (responseCodec : ProxyResponseCodec Key) (encodings : List Encoding) : Prop :=
  ∀ frames, Recorded requestCodec responseCodec encodings frames → ∀ schedule,
    ((accepted requestCodec responseCodec frames (fun _ => .reading () []) schedule).map
      Prod.snd).Nodup

/-! ## What a decoder accepts of an arbitrary stream -/

/-- A frame with the encoding call that it comes from. -/
structure Source (requestCodec : ProxyRequestCodec Key)
    (responseCodec : ProxyResponseCodec Key) (encodings : List Encoding) where
  encoding : Encoding
  frame : List UInt8
  mem : encoding ∈ encodings
  emits : encoding.Emits (encoding.direction.codec requestCodec responseCodec) frame

/-- The message of a source, as the decoder of a direction returns it. -/
def Source.message (direction : Direction)
    (source : Source requestCodec responseCodec encodings) : direction.Item :=
  direction.new source.encoding.message.uuid source.encoding.message.transfer

section Ideal

variable (hideal : codec.cryptoAlgorithm.Ideal (codec.sealLog encodings))
include hideal

/-- One accepted message is that of a source at the front of the buffer. -/
theorem decodeWith_source {direction : Direction} {buffer rest : List UInt8}
    {message : direction.Item}
    (hdecode : codec.decodeWith direction.build buffer = (.item message, rest)) :
    ∃ source : Source codec codec encodings,
      message = source.message direction ∧ buffer = source.frame ++ rest := by
  obtain ⟨encoding, hmem, frame, hemits, hbuffer, hmessage⟩ :=
    decodeWith_authentic hideal hdecode
  exact ⟨⟨encoding, frame, hmem, by rwa [Direction.codec_self]⟩, hmessage, hbuffer⟩

/-- The messages accepted from one buffer are those of sources lying one behind
the other at its front. -/
theorem drain_sources (direction : Direction) (buffer : List UInt8) :
    ∃ sources : List (Source codec codec encodings),
      ((direction.decoder codec).drain () buffer).1 = sources.map (Source.message direction) ∧
      (sources.map Source.frame).flatten <+: buffer := by
  refine Decoder.drain_induction
    (motive := fun _ buffer items _ => ∃ sources : List (Source codec codec encodings),
      items = sources.map (Source.message direction) ∧
        (sources.map Source.frame).flatten <+: buffer)
    ?item ?more ?fail ?panic () buffer
  case item =>
    rintro _ buffer message _ rest items _ hdecode ⟨sources, rfl, hprefix⟩
    obtain ⟨source, rfl, hbuffer⟩ :=
      decodeWith_source hideal (Direction.decodeWith_of_decoder hdecode)
    refine ⟨source :: sources, rfl, ?_⟩
    rw [hbuffer, List.map_cons, List.flatten_cons]
    exact (List.prefix_append_right_inj _).mpr hprefix
  case more => exact fun _ => ⟨[], rfl, List.nil_prefix⟩
  case fail => exact ⟨[], rfl, List.nil_prefix⟩
  case panic => exact ⟨[], rfl, List.nil_prefix⟩

end Ideal

/-- What is left of the protection against reflection and replay. Whatever the
attacker delivers to an endpoint, the accepted messages are those of frames that
one of the two endpoints has encoded, and each acceptance uses up one whole copy
of its frame in the delivered bytes. -/
theorem accepts_delivered_copies (ring : Ring) (config : ConvertedCryptoConfig)
    (requestCodec : ProxyRequestCodec AeadKey) (responseCodec : ProxyResponseCodec AeadKey)
    (hrequest : ProxyRequestCodec.new ring config = some requestCodec)
    (hresponse : ProxyResponseCodec.new ring config = some responseCodec)
    (encodings : List Encoding)
    (hideal : ring.aead.Ideal (tunnelSeals requestCodec responseCodec encodings))
    (direction : Direction) (delivered : List (List UInt8)) :
    ∃ sources : List (Source requestCodec responseCodec encodings),
      ((direction.decoder (direction.codec requestCodec responseCodec)).feedAll
          (.reading () []) delivered).1 = sources.map (Source.message direction) ∧
      (sources.map Source.frame).flatten <+: delivered.flatten := by
  obtain rfl := new_unique hrequest hresponse
  obtain ⟨key, -, rfl⟩ := Option.map_eq_some_iff.mp hrequest
  rw [tunnelSeals_self] at hideal
  rw [Direction.codec_self, Direction.decoder_stable.feedAll_eq_drain Direction.drain_nil]
  exact drain_sources hideal direction delivered.flatten

/-- The codec of the README configuration. -/
def readmeCodec : TunnelCodec AeadKey := (TunnelCodec.new Ring.padded readmeConfig).get rfl

/-- A library that is ideal for one heartbeat under the README configuration. -/
def heartbeatRing : Ring := { Ring.padded with
  aead := Ring.padded.aead.idealize (readmeCodec.sealLog [firstHeartbeat]) }

theorem heartbeatRing_ideal : heartbeatRing.aead.Ideal
    ((readmeCodec.recorded [firstHeartbeat]).sealLog [firstHeartbeat]) :=
  readmeCodec.recorded_ideal [firstHeartbeat] (Aead.checksum_roundTrips 16 _)

/-- The bytes of that heartbeat on the wire. -/
def heartbeatFrame : List UInt8 :=
  (firstHeartbeat.run (readmeCodec.recorded [firstHeartbeat])).dst.bytes

theorem heartbeat_emits :
    firstHeartbeat.Emits (readmeCodec.recorded [firstHeartbeat]) heartbeatFrame :=
  ⟨rfl, rfl⟩

/-- A heartbeat that is delivered twice to the client, cut in the middle. -/
theorem accepts_delivered_copies_twice :
    let codec := readmeCodec.recorded [firstHeartbeat]
    let delivered := [heartbeatFrame ++ heartbeatFrame.take 5, heartbeatFrame.drop 5]
    ∃ sources : List (Source codec codec [firstHeartbeat]),
      ((Direction.response.decoder codec).feedAll (.reading () []) delivered).1 =
        sources.map (Source.message .response) ∧
      (sources.map Source.frame).flatten <+: delivered.flatten :=
  accepts_delivered_copies heartbeatRing readmeConfig (readmeCodec.recorded [firstHeartbeat])
    (readmeCodec.recorded [firstHeartbeat]) rfl rfl [firstHeartbeat]
    (by rw [tunnelSeals_self]; exact heartbeatRing_ideal) .response _

/-- The client's decoder accepts the client's own heartbeat, and the server's
decoder accepts it twice. -/
theorem heartbeat_reflected_and_replayed :
    ∃ requestCodec responseCodec,
      ProxyRequestCodec.new heartbeatRing readmeConfig = some requestCodec ∧
      ProxyResponseCodec.new heartbeatRing readmeConfig = some responseCodec ∧
      heartbeatRing.aead.Ideal (tunnelSeals requestCodec responseCodec [firstHeartbeat]) ∧
      ¬ RejectsReflection requestCodec responseCodec [firstHeartbeat] ∧
      ¬ RejectsReplay requestCodec responseCodec [firstHeartbeat] := by
  have hrecorded : Recorded (readmeCodec.recorded [firstHeartbeat])
      (readmeCodec.recorded [firstHeartbeat]) [firstHeartbeat] [heartbeatFrame] :=
    .cons heartbeat_emits .nil
  refine ⟨readmeCodec.recorded [firstHeartbeat], readmeCodec.recorded [firstHeartbeat],
    rfl, rfl, by rw [tunnelSeals_self]; exact heartbeatRing_ideal, ?_, ?_⟩
  · intro hrejects
    have hdirection := hrejects _ hrecorded [(.response, 0)] (.response, 0)
      (by decide +kernel)
    exact absurd hdirection (by decide)
  · intro hrejects
    have hnodup := hrejects _ hrecorded [(.request, 0), (.request, 0)]
    revert hnodup
    decide +kernel

end TunnelCodec

end JustProxy
