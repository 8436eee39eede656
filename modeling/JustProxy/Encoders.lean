import JustProxy.Socks.Reply
import JustProxy.Tunnel.Frames

/-! # What encoders write

The encoders of the tunnel and of the SOCKS replies reserve capacity first and
then write field by field. What they reserve covers what they write, whatever is
in the output buffer already, and a refused seal comes before the first write to
it.
-/

namespace JustProxy

open Bytes

namespace TunnelCodec

variable {Key : Type} (codec : TunnelCodec Key)

/-- What a call of a tunnel encoder should come to: no write exceeds the
capacity, success appends one frame, and after a refused seal the output buffer
is the same. -/
structure CleanRun (uuid : UInt16) (transfer : ProxyTransfer) (random : Vector UInt8 4)
    (dst : BytesMut) (run : EncodeRun Key) : Prop where
  noPanic : run.outcome ≠ .panic
  ok : run.outcome = .ok → ∃ frame, codec.frame uuid transfer random = some frame ∧
    frame.length = 11 + codec.tagLen + transfer.payload.length + codec.tagLen ∧
    run.dst.bytes = dst.bytes ++ frame
  refused : (∃ call ∈ run.seals, call.output = none) →
    run.outcome = .err encError ∧ run.dst = dst

/-- The three ways a call can go: the first seal is refused, the second is, or none. -/
theorem encodeWith_cleanRun (uuid : UInt16) (transfer : ProxyTransfer)
    (random : Vector UInt8 4) (dst : BytesMut) :
    codec.CleanRun uuid transfer random dst
      (codec.encodeWith uuid transfer.header.1 transfer.header.2 transfer random dst) := by
  cases hheader : codec.sealHeader uuid transfer random with
  | none =>
      rw [codec.encodeWith_header_refused dst hheader]
      exact ⟨by simp, by simp, fun _ => ⟨rfl, rfl⟩⟩
  | some parse1 =>
      cases hpayload : codec.sealPayload parse1 transfer with
      | none =>
          rw [codec.encodeWith_payload_refused dst hheader hpayload]
          exact ⟨by simp, by simp, fun _ => ⟨rfl, rfl⟩⟩
      | some parse2 =>
          obtain ⟨dst', hrun, hbytes⟩ := codec.encodeWith_sealed dst hheader hpayload
          have hframe : codec.frame uuid transfer random = some (parse1 ++ parse2) := by
            simp [frame, hheader, hpayload]
          rw [hrun]
          refine ⟨by simp, fun _ => ⟨_, hframe, ?_, hbytes⟩, ?_⟩
          · rw [codec.length_frame hframe, transfer.length_payload]
          · -- both calls have answered
            rintro ⟨call, hcall, hnone⟩
            rcases List.mem_pair.mp hcall with rfl | rfl
            · exact absurd (hheader.symm.trans hnone) (Option.some_ne_none _)
            · exact absurd (hpayload.symm.trans hnone) (Option.some_ne_none _)

end TunnelCodec

namespace SocksResponse

/-- The type of a response is the type of its address. -/
def Matching : SocksResponse → Prop
  | .negotiation _ => True
  | .targetResponse response => response.responseType = response.address.requestType
  | .data _ => True

/-- The bytes that the encoder writes, field by field. -/
def written : SocksResponse → List UInt8
  | .negotiation response => [response.version, response.method]
  | .targetResponse response =>
      [5, response.response.toU8, 0, Socks5ResponseCodec.responseTypeByte response.responseType] ++
        response.address.field ++ beBytes 2 response.port.toUInt16.toNat
  | .data bytes => bytes

theorem encode_written {response : SocksResponse} (hmatching : response.Matching)
    (dst : BytesMut) :
    ∃ next, Socks5ResponseCodec.encode response dst = some next ∧
      next.bytes = dst.bytes ++ response.written := by
  cases response with
  | negotiation response =>
      obtain ⟨next, hnext, hbytes, -⟩ :=
        (dst.reserve 2).putAll_of_fits [[response.version], [response.method]] (by simp)
      exact ⟨next, hnext, hbytes⟩
  | targetResponse response =>
      obtain ⟨next, hnext, hbytes⟩ := TargetResponse.encode_eq hmatching dst
      rw [← hmatching] at hbytes
      exact ⟨next, hnext, hbytes⟩
  | data bytes =>
      obtain ⟨next, hnext, hbytes, -⟩ :=
        (dst.reserve bytes.length).putAll_of_fits [bytes] (by simp)
      exact ⟨next, hnext, by simpa [written] using hbytes⟩

end SocksResponse

/-- Encoders keep to the capacity that they reserve and fail without a trace. -/
theorem encoders_clean {Key : Type} (direction : Direction) (codec : TunnelCodec Key)
    (uuid : UInt16) (transfer : ProxyTransfer) (random : Vector UInt8 4)
    (response : SocksResponse) (hmatching : response.Matching) (dst : BytesMut) :
    codec.CleanRun uuid transfer random dst
      (direction.encode codec (direction.new uuid transfer) random dst) ∧
    ∃ next, Socks5ResponseCodec.encode response dst = some next ∧
      next.bytes = dst.bytes ++ response.written := by
  refine ⟨?_, SocksResponse.encode_written hmatching dst⟩
  rw [direction.encode_new]
  exact codec.encodeWith_cleanRun uuid transfer random dst

/-- A heartbeat under a standard configuration, and a reply with an address, each
behind one byte in a full buffer. -/
theorem encoders_clean_full :
    ∃ codec, ProxyRequestCodec.new Ring.padded
        ⟨[], [], .aes256Gcm, .sha256, 1, by decide⟩ = some codec ∧
      codec.CleanRun 0 (.heartbeat 1) #v[1, 2, 3, 4] ⟨[9], 1, by decide⟩
        (Direction.request.encode codec (ProxyRequest.new 0 (.heartbeat 1)) #v[1, 2, 3, 4]
          ⟨[9], 1, by decide⟩) ∧
      ∃ next, Socks5ResponseCodec.encode
          (.targetResponse ⟨5, .succeeded, 0, .ipV4, .ipv4 ⟨0x7f000001⟩, 80⟩)
          ⟨[9], 1, by decide⟩ = some next ∧
        next.bytes = [9, 5, 0, 0, 0, 127, 0, 0, 1, 0, 80] := by
  refine ⟨_, rfl, ?_⟩
  exact encoders_clean .request _ 0 (.heartbeat 1) #v[1, 2, 3, 4]
    (.targetResponse ⟨5, .succeeded, 0, .ipV4, .ipv4 ⟨0x7f000001⟩, 80⟩) rfl
    ⟨[9], 1, by decide⟩

end JustProxy
