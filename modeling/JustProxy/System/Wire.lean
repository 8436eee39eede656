import JustProxy.Foundation.FramedChannel
import JustProxy.System.Messages
import JustProxy.Tunnel.RoundTrip

/-! # The tunnel as bytes

The same system with the bytes of the tunnel in place of its two queues. A writer
encodes a message behind its buffer, the bytes leave and arrive in any pieces, and
the reader at the other end decodes one message at a time.
-/

namespace JustProxy

open Bytes StreamDecoder

/-! ## Frames -/

namespace Direction

variable {Key : Type}

/-- A frame of an item is what the encoder appends for it. -/
def Frames (direction : Direction) (codec : TunnelCodec Key) (item : direction.Item)
    (frame : List UInt8) : Prop :=
  ∃ message : Sent, message.transfer.payload.length < 2 ^ 32 ∧
    item = direction.received message ∧
    codec.frame message.uuid message.transfer message.random = some frame

def framing (direction : Direction) (codec : TunnelCodec Key)
    (hring : codec.cryptoAlgorithm.RoundTrips) : Framing direction.Item IoError where
  Frames := direction.Frames codec
  decode := direction.decode codec
  decode_nil := by
    rw [decode_eq]
    apply codec.decodeWith_short
    rw [List.length_nil]
    omega
  decode_frame := by
    rintro item frame ⟨message, hshort, rfl, hframe⟩ rest
    rw [decode_eq]
    exact TunnelCodec.decodeWith_frame hring hshort hframe rest
  decode_part := by
    rintro item frame part ⟨message, hshort, rfl, hframe⟩ hpart hproper
    rw [decode_eq]
    exact TunnelCodec.decodeWith_part hring hshort hframe hpart hproper

end Direction

/-! ## One direction -/

/-- The bytes of one direction. The tags belong to the messages and are no bytes. -/
structure Wire where
  channel : Channel
  tags : List Tag

namespace Wire

/-- Before anything is written. -/
def empty : Wire := ⟨.empty, []⟩

variable (wire : Wire)

/-- Some bytes leave the writer's buffer. -/
def flush (count : Nat) : Wire := { wire with channel := wire.channel.flush count }

/-- Some bytes arrive in the reader's buffer. -/
def arrive (count : Nat) : Wire := { wire with channel := wire.channel.arrive count }

/-- All bytes leave and arrive. -/
def deliver : Wire :=
  (wire.flush wire.channel.writeBuffer.length).arrive
    (wire.channel.transit.length + wire.channel.writeBuffer.length)

variable {Key : Type} (direction : Direction) (codec : TunnelCodec Key)

/-- Encode a message behind the writer's buffer, which may have no spare room. `none`
is an error of the encoder. -/
def write (message : Tagged direction.Item) (random : Vector UInt8 4) : Option Wire :=
  let writeBuffer : BytesMut := ⟨wire.channel.writeBuffer, _, Nat.le_refl _⟩
  let run := direction.encode codec message.message random writeBuffer
  match run.outcome with
  | .ok =>
      some ⟨{ wire.channel with writeBuffer := run.dst.bytes }, wire.tags ++ [message.tag]⟩
  | .err _ => none
  | .panic => none

/-- Decode the front of the reader's buffer. -/
def read : Verdict (Tagged direction.Item) IoError × Wire :=
  match direction.decode codec wire.channel.readBuffer with
  | (.item item, rest) =>
      (.item ⟨item, wire.tags.headD .none⟩,
        ⟨{ wire.channel with readBuffer := rest }, wire.tags.tail⟩)
  | (.more, _) => (.more, wire)
  | (.fail error, _) => (.fail error, wire)
  | (.panic, _) => (.panic, wire)

/-! ### What the bytes carry -/

variable {direction codec} {wire} {messages : List (Tagged direction.Item)}
  {hring : codec.cryptoAlgorithm.RoundTrips}

variable (direction hring) in
/-- The bytes are the frames of these messages. -/
def Carries (wire : Wire) (messages : List (Tagged direction.Item)) : Prop :=
  (direction.framing codec hring).Carries wire.channel (messages.map Tagged.message) ∧
    wire.tags = messages.map Tagged.tag

theorem carries_empty : Carries direction hring .empty ([] : List (Tagged direction.Item)) :=
  ⟨Framing.carries_empty, rfl⟩

theorem Carries.flush (hcarries : wire.Carries direction hring messages) (count : Nat) :
    (wire.flush count).Carries direction hring messages :=
  ⟨hcarries.1.of_bytes_eq (wire.channel.bytes_flush count), hcarries.2⟩

theorem Carries.arrive (hcarries : wire.Carries direction hring messages) (count : Nat) :
    (wire.arrive count).Carries direction hring messages :=
  ⟨hcarries.1.of_bytes_eq (wire.channel.bytes_arrive count), hcarries.2⟩

/-- A short message can be encoded, and comes behind all others. -/
theorem Carries.write (hcarries : wire.Carries direction hring messages)
    (hseals : codec.cryptoAlgorithm.SealsBelow (2 ^ 32)) {message : Tagged direction.Item}
    {uuid : UInt16} {transfer : ProxyTransfer}
    (hmessage : message.message = direction.new uuid transfer)
    (hshort : transfer.payload.length < 2 ^ 32) (random : Vector UInt8 4) :
    ∃ wire', wire.write direction codec message random = some wire' ∧
      wire'.Carries direction hring (messages ++ [message]) := by
  obtain ⟨parse1, hheader⟩ : ∃ parse1, codec.sealHeader uuid transfer random = some parse1 :=
    hseals _ _ _ _ (by rw [TunnelCodec.length_headerPlain]; decide)
  obtain ⟨parse2, hpayload⟩ : ∃ parse2, codec.sealPayload parse1 transfer = some parse2 :=
    hseals _ _ _ _ hshort
  obtain ⟨dst, hencode, hbytes⟩ := codec.encodeWith_sealed
    ⟨wire.channel.writeBuffer, _, Nat.le_refl _⟩ hheader hpayload
  refine ⟨⟨{ wire.channel with writeBuffer := dst.bytes }, wire.tags ++ [message.tag]⟩, ?_, ?_, ?_⟩
  · rw [Wire.write]
    simp only [hmessage, Direction.encode_new, hencode]
  · rw [hbytes, List.map_append]
    apply hcarries.1.write
    exact ⟨⟨uuid, transfer, random⟩, hshort, hmessage, by
      simp [TunnelCodec.frame, hheader, hpayload]⟩
  · rw [hcarries.2, List.map_append]
    rfl

/-- The reader waits, or it takes off the first message. -/
theorem Carries.read (hcarries : wire.Carries direction hring messages) :
    wire.read direction codec = (.more, wire) ∨
      ∃ message later wire', messages = message :: later ∧
        wire.read direction codec = (.item message, wire') ∧
        wire'.Carries direction hring later := by
  rcases hcarries.1.read with hmore | ⟨item, items, rest, hitems, hitem, hrest⟩
  · exact .inl (by simp only [Wire.read, show direction.decode codec _ = _ from hmore])
  · obtain ⟨message, later, rfl, rfl, rfl⟩ := List.map_eq_cons_iff.mp hitems
    refine .inr ⟨message, later, ⟨{ wire.channel with readBuffer := rest }, wire.tags.tail⟩, rfl,
      ?_, hrest, ?_⟩
    · simp only [Wire.read, show direction.decode codec _ = _ from hitem, hcarries.2]
      rfl
    · rw [hcarries.2]
      rfl

/-- The first message is there when all bytes are. -/
theorem Carries.read_deliver {message : Tagged direction.Item}
    {later : List (Tagged direction.Item)}
    (hcarries : wire.Carries direction hring (message :: later)) :
    ∃ wire', wire.deliver.read direction codec = (.item message, wire') := by
  have hdeliver : wire.deliver.Carries direction hring (message :: later) :=
    (hcarries.flush _).arrive _
  have harrived : (direction.decode codec wire.deliver.channel.readBuffer).1 ≠ .more := by
    apply hdeliver.1.arrived (List.cons_ne_nil _ _)
    · simp [deliver, Wire.arrive, Wire.flush, Channel.arrive, Channel.flush]
    · simp [deliver, Wire.arrive, Wire.flush, Channel.arrive, Channel.flush]
  rcases hdeliver.read with hmore | ⟨message', later', wire', hqueue, hitem, -⟩
  · rw [Wire.read] at hmore
    split at hmore
    next => cases hmore
    next hdecode => exact absurd (congrArg Prod.fst hdecode) harrived
    next => cases hmore
    next => cases hmore
  · cases hqueue
    exact ⟨wire', hitem⟩

end Wire

/-! ## The system over bytes -/

/-- The two processes, with no message between them, and the bytes of both directions. -/
structure WireSystem where
  ends : System
  upstream : Wire
  downstream : Wire
  silent : ends.upstream = [] ∧ ends.downstream = []

inductive WireEvent where
  /-- An event of the processes; the generator fills in the random bytes, should a
  message be encoded. -/
  | act (event : Event) (random : Vector UInt8 4)
  | flush (direction : Direction) (count : Nat)
  | arrive (direction : Direction) (count : Nat)
  deriving DecidableEq

/-- What the processes see of an event. -/
def WireEvent.events : WireEvent → List Event
  | .act event _ => [event]
  | .flush _ _ => []
  | .arrive _ _ => []

namespace WireSystem

def init : WireSystem := ⟨.init, .empty, .empty, rfl, rfl⟩

variable (w : WireSystem)

/-- The processes after a step. What it has put between them is not kept. -/
def withEnds (ends : System) : WireSystem where
  ends := ends.withTunnel [] []
  upstream := w.upstream
  downstream := w.downstream
  silent := ⟨rfl, rfl⟩

def onWire (change : Wire → Wire) : Direction → WireSystem
  | .request => { w with upstream := change w.upstream }
  | .response => { w with downstream := change w.downstream }

variable {Key : Type} (codecs : Direction → TunnelCodec Key)

/-- The dispatcher's writer encodes a request; an error ends the dispatcher. -/
def clientMail (random : Vector UInt8 4) : Option WireSystem :=
  w.ends.handleClientMail.map fun next =>
    match next.upstream with
    | [] => w.withEnds next
    | message :: _ =>
        match w.upstream.write .request (codecs .request) message random with
        | some wire => { w.withEnds next with upstream := wire }
        | none => w.withEnds { next with dispatcherUp := false }

/-- The forwarding task encodes a response; an error ends the task. -/
def forward (random : Vector UInt8 4) : Option WireSystem :=
  w.ends.forward.map fun next =>
    match next.downstream with
    | [] => w.withEnds next
    | message :: _ =>
        match w.downstream.write .response (codecs .response) message random with
        | some wire => { w.withEnds next with downstream := wire }
        | none => w.withEnds { next with server := { next.server with receiving := false } }

/-- The server handles the request in front of its buffer. A panic of the handler
keeps the bytes; what is not a request ends the server. -/
def serverRecv (result : WriteResult) : Option WireSystem :=
  match w.upstream.read .request (codecs .request) with
  | (.item message, wire) =>
      ((w.ends.withTunnel [message] []).serverRecv result).map fun next =>
        { w.withEnds next with upstream := if next.upstream = [] then wire else w.upstream }
  | (.more, _) => none
  | _ => if w.ends.serverUp then some (w.withEnds { w.ends with serverUp := false }) else none

/-- The dispatcher handles the response in front of its buffer. -/
def clientRecv : Option WireSystem :=
  match w.downstream.read .response (codecs .response) with
  | (.item message, wire) =>
      (w.ends.withTunnel [] [message]).clientRecv.map fun next =>
        { w.withEnds next with
          downstream := if next.downstream = [] then wire else w.downstream }
  | (.more, _) => none
  | _ =>
      if w.ends.dispatcherUp then some (w.withEnds { w.ends with dispatcherUp := false }) else none

def step : WireEvent → Option WireSystem
  | .act .clientMail random => w.clientMail codecs random
  | .act .forward random => w.forward codecs random
  | .act (.serverRecv result) _ => w.serverRecv codecs result
  | .act .clientRecv _ => w.clientRecv codecs
  | .act event _ => (w.ends.step event).map w.withEnds
  | .flush direction count => some (w.onWire (Wire.flush · count) direction)
  | .arrive direction count => some (w.onWire (Wire.arrive · count) direction)

def run (events : List WireEvent) : Option WireSystem :=
  Transition.run (step · codecs) .init events

end WireSystem

end JustProxy
