import JustProxy.Tunnel.RoundTrip

/-! # Any stream in chunks

What the reading loop makes of a stream, be it of frames or of anything else,
does not depend on the chunks that the stream arrives in. A request for more
bytes leaves the buffer alone, and a message is removed with its whole frame.
-/

namespace JustProxy

open Bytes StreamDecoder

namespace Direction

/-- The declared length of the payload. -/
def transferLen : (direction : Direction) → direction.Item → Nat
  | .request => ProxyRequest.transferLen
  | .response => ProxyResponse.transferLen

@[simp] theorem transferLen_build (direction : Direction) (uuid : UInt16) (transferLen : Nat)
    (transferType : ProxyTransferType) (transfer : ProxyTransfer) :
    direction.transferLen (direction.build uuid transferLen transferType transfer) =
      transferLen := by
  cases direction <;> rfl

variable {Key : Type} (direction : Direction) (codec : TunnelCodec Key)

/-- The number of bytes that a returned message took in the buffer. -/
def itemLen (item : direction.Item) : Nat :=
  11 + codec.tagLen + direction.transferLen item + codec.tagLen

/-- Two ways to cut a stream make no difference, neither to the messages nor to
how the loop stands at the end: waiting with the same bytes, or stopped by the
same error or by a panic. -/
structure ChunkIndependent : Prop where
  feedAll : ∀ {first second : List (List UInt8)}, first.flatten = second.flatten →
    (direction.decoder codec).feedAll (.reading () []) first =
      (direction.decoder codec).feedAll (.reading () []) second
  more : ∀ {src rest : List UInt8}, direction.decode codec src = (.more, rest) → rest = src
  item : ∀ {src rest : List UInt8} {item : direction.Item},
    direction.decode codec src = (.item item, rest) →
      direction.itemLen codec item ≤ src.length ∧ rest = src.drop (direction.itemLen codec item)
  unread : ∀ {chunks : List (List UInt8)} {items : List direction.Item} {rest : List UInt8},
    (direction.decoder codec).feedAll (.reading () []) chunks = (items, .reading () rest) →
      rest = chunks.flatten.drop (items.map (direction.itemLen codec)).sum

variable {direction codec}

theorem decode_more {src rest : List UInt8}
    (hdecode : direction.decode codec src = (.more, rest)) : rest = src := by
  rw [decode_eq] at hdecode
  exact codec.decodeWith_more hdecode

/-- A message is removed from the front with both of its segments. -/
theorem decode_item {src rest : List UInt8} {item : direction.Item}
    (hdecode : direction.decode codec src = (.item item, rest)) :
    ∃ frame, src = frame ++ rest ∧ frame.length = direction.itemLen codec item := by
  rw [decode_eq] at hdecode
  obtain ⟨parsed, hvalid, hsrc, rfl⟩ := codec.decodeWith_item hdecode
  refine ⟨parsed.parse1 ++ parsed.parse2, by rw [hsrc, List.append_assoc], ?_⟩
  rw [List.length_append, hvalid.length1, hvalid.length2, itemLen, transferLen_build]
  omega

/-- A loop that waits holds the bytes behind the frames of what it has returned. -/
theorem drain_reading (stream : List UInt8) {unread : List UInt8}
    (hstage : ((direction.decoder codec).drain () stream).2 = .reading () unread) :
    ∃ frames, stream = frames ++ unread ∧ frames.length =
      (((direction.decoder codec).drain () stream).1.map (direction.itemLen codec)).sum := by
  refine Decoder.drain_induction
    (motive := fun _ stream items stage => stage = .reading () unread →
      ∃ frames, stream = frames ++ unread ∧
        frames.length = (items.map (direction.itemLen codec)).sum)
    ?item ?more ?fail ?panic () stream hstage
  case item =>
    intro _ buffer item _ rest items stage hdecode ih hstage
    obtain ⟨frame, hframe, hlength⟩ :=
      decode_item ((decode_eq _ _ _).trans (decodeWith_of_decoder hdecode))
    obtain ⟨frames, hframes, hlengths⟩ := ih hstage
    refine ⟨frame ++ frames, by rw [hframe, hframes, List.append_assoc], ?_⟩
    rw [List.length_append, hlength, hlengths, List.map_cons, List.sum_cons]
  case more =>
    intro _ buffer _ rest hdecode hstage
    cases hstage
    exact ⟨[], (decoder_stable.more hdecode).2.symm, rfl⟩
  case fail => exact nofun
  case panic => exact nofun

/-- Chunks do not matter, whatever the stream. -/
theorem chunkIndependent (direction : Direction) (codec : TunnelCodec Key) :
    direction.ChunkIndependent codec where
  feedAll hcut := by
    rw [decoder_stable.feedAll_eq_drain drain_nil, decoder_stable.feedAll_eq_drain drain_nil, hcut]
  more := decode_more
  item hdecode := by
    obtain ⟨frame, rfl, hlength⟩ := decode_item hdecode
    rw [List.length_append, ← hlength, List.drop_left]
    exact ⟨Nat.le_add_right _ _, rfl⟩
  unread hfeed := by
    rw [decoder_stable.feedAll_eq_drain drain_nil] at hfeed
    obtain ⟨frames, hframes, hlength⟩ := drain_reading _ (congrArg Prod.snd hfeed)
    rw [congrArg Prod.fst hfeed] at hlength
    rw [hframes, ← hlength, List.drop_left]

/-- Twenty-seven zero bytes are refused, whether they come at once or not. -/
theorem chunkIndependent_zeros :
    (Direction.request.decoder (TunnelCodec.checksumCodec 3)).feedAll (.reading () [])
        [List.replicate 20 0, List.replicate 7 0] = ([], .failed decError) := by
  have hcut : [List.replicate 20 (0 : UInt8), List.replicate 7 0].flatten =
      [List.replicate 27 0].flatten := rfl
  rw [(chunkIndependent .request (TunnelCodec.checksumCodec 3)).feedAll hcut]
  rfl

end Direction

end JustProxy
