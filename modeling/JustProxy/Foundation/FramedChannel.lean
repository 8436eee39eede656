import Mathlib.Data.List.Forall2
import JustProxy.Foundation.StreamDecoder

/-! # Channels of framed messages

A writer puts the frame of each message behind its buffer, from where the bytes leave
for the reader in pieces of any length; the reader decodes the front of what has
arrived. Such a channel carries a queue of messages: a message that is written enters
the queue at its end, and only the message at its front can be decoded.
-/

namespace StreamDecoder

/-- Frames that a decoding function recognises by themselves: a whole one at the front
of its buffer is taken off, and a proper part of one is left alone. -/
structure Framing (Message Error : Type) where
  Frames : Message → List UInt8 → Prop
  decode : List UInt8 → Verdict Message Error × List UInt8
  decode_nil : decode [] = (.more, [])
  decode_frame : ∀ {message frame}, Frames message frame → ∀ rest,
    decode (frame ++ rest) = (.item message, rest)
  decode_part : ∀ {message frame part}, Frames message frame → part <+: frame →
    part.length < frame.length → decode part = (.more, part)

/-- The bytes between a writer and its reader. -/
structure Channel where
  writeBuffer : List UInt8
  transit : List UInt8
  readBuffer : List UInt8
  deriving DecidableEq

namespace Channel

/-- A channel before anything is written. -/
def empty : Channel := ⟨[], [], []⟩

variable (channel : Channel)

/-- All bytes that have been written and not been decoded, the first one in front. -/
def bytes : List UInt8 := channel.readBuffer ++ channel.transit ++ channel.writeBuffer

/-- Some bytes leave the writer. -/
def flush (count : Nat) : Channel where
  writeBuffer := channel.writeBuffer.drop count
  transit := channel.transit ++ channel.writeBuffer.take count
  readBuffer := channel.readBuffer

/-- Some bytes arrive at the reader. -/
def arrive (count : Nat) : Channel where
  writeBuffer := channel.writeBuffer
  transit := channel.transit.drop count
  readBuffer := channel.readBuffer ++ channel.transit.take count

@[simp] theorem bytes_flush (count : Nat) : (channel.flush count).bytes = channel.bytes := by
  simp [bytes, flush]

@[simp] theorem bytes_arrive (count : Nat) : (channel.arrive count).bytes = channel.bytes := by
  simp only [bytes, arrive, List.append_assoc]
  rw [← List.append_assoc (channel.transit.take count), List.take_append_drop]

/-- The bytes in the reader's buffer come before all others. -/
theorem readBuffer_prefix_bytes : channel.readBuffer <+: channel.bytes := by
  rw [bytes, List.append_assoc]
  exact List.prefix_append _ _

end Channel

namespace Framing

variable {Message Error : Type} {framing : Framing Message Error}

variable (framing) in
/-- The bytes of the channel are the frames of some messages, one behind the other. -/
def Carries (channel : Channel) (messages : List Message) : Prop :=
  ∃ frames, List.Forall₂ framing.Frames messages frames ∧ channel.bytes = frames.flatten

variable {channel channel' : Channel} {messages : List Message}

theorem carries_empty : framing.Carries Channel.empty [] := ⟨[], .nil, rfl⟩

/-- Moving bytes along changes nothing. -/
theorem Carries.of_bytes_eq (hcarries : framing.Carries channel messages)
    (hbytes : channel'.bytes = channel.bytes) : framing.Carries channel' messages := by
  obtain ⟨frames, hframes, hflatten⟩ := hcarries
  exact ⟨frames, hframes, hbytes.trans hflatten⟩

/-- A message that is written is the last one. -/
theorem Carries.write (hcarries : framing.Carries channel messages) {message : Message}
    {frame : List UInt8} (hframe : framing.Frames message frame) :
    framing.Carries { channel with writeBuffer := channel.writeBuffer ++ frame }
      (messages ++ [message]) := by
  obtain ⟨frames, hframes, hflatten⟩ := hcarries
  refine ⟨frames ++ [frame], List.rel_append hframes (.cons hframe .nil), ?_⟩
  rw [List.flatten_append, ← hflatten]
  simp [Channel.bytes]

/-- What the reader's decoder answers: it asks for more bytes, or it takes off the
first message. -/
theorem Carries.read (hcarries : framing.Carries channel messages) :
    framing.decode channel.readBuffer = (.more, channel.readBuffer) ∨
      ∃ message later rest, messages = message :: later ∧
        framing.decode channel.readBuffer = (.item message, rest) ∧
        framing.Carries { channel with readBuffer := rest } later := by
  obtain ⟨frames, hframes, hflatten⟩ := hcarries
  have hprefix := channel.readBuffer_prefix_bytes
  rw [hflatten] at hprefix
  cases hframes with
  | nil =>
      have hnil := List.prefix_nil.mp hprefix
      rw [hnil]
      exact .inl framing.decode_nil
  | @cons message frame later frames hframe hlater =>
      rw [List.flatten_cons] at hprefix
      -- either the first frame is complete, or nothing can be decoded yet
      by_cases hwhole : frame.length ≤ channel.readBuffer.length
      · obtain ⟨rest, hrest⟩ : frame <+: channel.readBuffer :=
          List.prefix_of_prefix_length_le (List.prefix_append _ _) hprefix hwhole
        have hdecode := framing.decode_frame hframe rest
        rw [hrest] at hdecode
        refine .inr ⟨message, later, rest, rfl, hdecode, frames, hlater, ?_⟩
        rw [Channel.bytes, ← hrest, List.flatten_cons] at hflatten
        simpa [Channel.bytes] using hflatten
      · have hpart : channel.readBuffer <+: frame :=
          List.prefix_of_prefix_length_le hprefix (List.prefix_append _ _) (by omega)
        exact .inl (framing.decode_part hframe hpart (by omega))

/-- When all bytes have arrived, the decoder does not ask for more. -/
theorem Carries.arrived (hcarries : framing.Carries channel messages) (hmessages : messages ≠ [])
    (htransit : channel.transit = []) (hwrite : channel.writeBuffer = []) :
    (framing.decode channel.readBuffer).1 ≠ .more := by
  obtain ⟨frames, hframes, hflatten⟩ := hcarries
  rw [Channel.bytes, htransit, hwrite, List.append_nil, List.append_nil] at hflatten
  cases hframes with
  | nil => exact absurd rfl hmessages
  | cons hframe hlater =>
      rw [hflatten, List.flatten_cons, framing.decode_frame hframe]
      simp

end Framing

end StreamDecoder
