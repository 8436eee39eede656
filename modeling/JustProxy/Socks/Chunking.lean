import Mathlib.Data.List.Induction
import JustProxy.Socks.Layout

/-! # SOCKS input in chunks

A well-formed client stream is a greeting, one request and payload. The decoder
returns it independently of the chunks it arrives in, except that the number of
bytes behind the greeting's first two is compared modulo 256.
-/

namespace JustProxy

open Bytes StreamDecoder Socks5RequestCodec

/-! ## Well-formed streams -/

structure Greeting where
  methods : List UInt8
  short : methods.length ≤ 255

namespace Greeting

variable (greeting : Greeting)

def bytes : List UInt8 := 5 :: UInt8.ofNat greeting.methods.length :: greeting.methods

def item : SocksRequest :=
  .negotiation ⟨5, UInt8.ofNat greeting.methods.length, greeting.methods⟩

@[simp] theorem length_bytes : greeting.bytes.length = 2 + greeting.methods.length := by
  simp only [bytes, List.length_cons]
  omega

theorem toNat_methods : (UInt8.ofNat greeting.methods.length).toNat =
    greeting.methods.length := by
  rw [UInt8.toNat_ofNat', Nat.mod_eq_of_lt]
  have hshort := greeting.short
  omega

/-- The comparison in byte arithmetic. -/
theorem ofNat_lt_methods_iff {count : Nat} :
    UInt8.ofNat count < UInt8.ofNat greeting.methods.length ↔
      count % 256 < greeting.methods.length := by
  rw [UInt8.lt_iff_toNat_lt, greeting.toNat_methods, UInt8.toNat_ofNat']

end Greeting

/-- A request whose domain name, if it has one, fits its length byte. -/
structure WellFormedRequest where
  command : SocksRequestCommand
  address : SocksAddr
  port : Int16
  short : ∀ name, address = .domain name → (utf8 name).length ≤ 255

namespace WellFormedRequest

variable (request : WellFormedRequest)

def bytes : List UInt8 :=
  [5, request.command.toU8, 0, request.address.typeByte] ++ request.address.field ++
    beBytes 2 request.port.toUInt16.toNat

def item : SocksRequest :=
  .targetRequest ⟨5, request.command, 0, request.address.requestType, request.address,
    request.port⟩

end WellFormedRequest

structure SocksStream where
  greeting : Greeting
  request : WellFormedRequest
  payload : List UInt8

namespace SocksStream

variable (stream : SocksStream)

/-- The number of bytes of the greeting. -/
def greetingLen : Nat := stream.greeting.bytes.length

/-- The number of bytes of the greeting and the request. -/
def headLen : Nat := stream.greetingLen + stream.request.bytes.length

def bytes : List UInt8 :=
  stream.greeting.bytes ++ (stream.request.bytes ++ stream.payload)

/-- The first two items, as far as their last byte is among the first `count`. -/
def completed (count : Nat) : List SocksRequest :=
  if count < stream.greetingLen then []
  else if count < stream.headLen then [stream.greeting.item]
  else [stream.greeting.item, stream.request.item]

/-- The decoder before its first call. -/
def start : Stage Socks5RequestCodecState IoError := .reading .negotiation []

/-- Whatever part of the stream has been read, the items returned are those two
that are complete and then the payload so far, in non-empty pieces; after the
whole stream nothing is left in the buffer. -/
def DecodesAsSent (chunks : List (List UInt8)) : Prop :=
  (∀ read waiting, chunks = read ++ waiting →
    ∃ pieces : List (List UInt8), [] ∉ pieces ∧
      pieces.flatten = read.flatten.drop stream.headLen ∧
      (decoder.feedAll start read).1 =
        stream.completed read.flatten.length ++ pieces.map .data) ∧
  (decoder.feedAll start chunks).2 = .reading .ready []

/-- The read that completes the greeting leaves behind its first two bytes a
number of bytes that is, modulo 256, no less than the number of methods. -/
def GreetingFits (chunks : List (List UInt8)) : Prop :=
  ∀ read chunk waiting, chunks = read ++ chunk :: waiting →
    read.flatten.length < stream.greetingLen →
    stream.greetingLen ≤ (read.flatten ++ chunk).length →
    stream.greeting.methods.length ≤ ((read.flatten ++ chunk).length - 2) % 256

end SocksStream

/-! ## Single calls -/

theorem readCommand_toU8 (command : SocksRequestCommand) :
    readCommand command.toU8 = some command := by
  cases command <;> rfl

namespace WellFormedRequest

variable (request : WellFormedRequest)

theorem addressField : AddressField request.address.typeByte request.address.field :=
  request.address.addressField request.short

theorem exists_bytes_eq : ∃ hi lo, portOf hi lo = request.port ∧
    request.bytes = [5, request.command.toU8, 0, request.address.typeByte] ++
      request.address.field ++ [hi, lo] := by
  obtain ⟨hi, lo, hport, hread⟩ := portOf_toUInt16 request.port
  exact ⟨hi, lo, hread, by rw [← hport]; rfl⟩

theorem requestLen_append (rest : List UInt8) :
    requestLen (request.bytes ++ rest) = some request.bytes.length := by
  obtain ⟨hi, lo, -, hbytes⟩ := request.exists_bytes_eq
  have hlength : request.bytes.length = 6 + request.address.field.length := by
    simp only [hbytes, List.length_append, List.length_cons, List.length_nil]
    omega
  rw [hlength, hbytes]
  exact request.addressField.requestLen 5 request.command.toU8 0 hi lo rest

theorem five_le_length : 5 ≤ request.bytes.length := by
  cases haddress : request.address <;>
    simp [bytes, haddress, SocksAddr.field]

theorem readTargetRequest_bytes : readTargetRequest request.bytes =
    some ⟨5, request.command, 0, request.address.requestType, request.address,
      request.port⟩ := by
  obtain ⟨hi, lo, hport, hbytes⟩ := request.exists_bytes_eq
  rw [hbytes, request.addressField.readTargetRequest, readCommand_toU8]
  simp [hport]

end WellFormedRequest

namespace SocksStream

variable {stream : SocksStream}

/-! ## Draining a part of the stream -/

/-- Payload arrives as one item for each read that brings some. -/
def pieces (bytes : List UInt8) : List (List UInt8) := if bytes = [] then [] else [bytes]

@[simp] theorem flatten_pieces (bytes : List UInt8) : (pieces bytes).flatten = bytes := by
  by_cases hempty : bytes = [] <;> simp [pieces, hempty]

theorem nil_notMem_pieces (bytes : List UInt8) : [] ∉ pieces bytes := by
  by_cases hempty : bytes = []
  · simp [pieces, hempty]
  · simp [pieces, hempty, Ne.symm hempty]

theorem drain_ready (buffer : List UInt8) :
    decoder.drain .ready buffer = ((pieces buffer).map .data, .reading .ready []) := by
  have hempty : decoder.drain .ready [] = ([], .reading .ready []) := Decoder.drain_more rfl
  by_cases hbuffer : buffer = []
  · subst hbuffer
    exact hempty
  · have hlength : buffer.length ≠ 0 := by simpa using hbuffer
    have hdecode : decoder.decode .ready buffer = (.item (.data buffer), .ready, []) := by
      simp [decoder, decode, decodeData, hlength]
    rw [Decoder.drain_item hdecode, hempty]
    simp [pieces, hbuffer]

/-- A part of a request and its payload. -/
theorem drain_working {request : WellFormedRequest} {payload buffer : List UInt8}
    (hbuffer : buffer <+: request.bytes ++ payload) :
    decoder.drain .working buffer =
      if buffer.length < request.bytes.length then ([], .reading .working buffer)
      else (request.item :: (pieces (buffer.drop request.bytes.length)).map .data,
        .reading .ready []) := by
  split
  next hshort =>
    apply Decoder.drain_more
    -- the length is only known from five bytes on
    have hmore : decodeTargetRequest buffer = (.more, buffer) := by
      by_cases hfive : buffer.length < 5
      · rw [decodeTargetRequest, if_pos hfive]
      · have hlen : requestLen buffer = some request.bytes.length := by
          rw [requestLen_eq_of_front hbuffer (by omega), request.requestLen_append]
        rw [decodeTargetRequest, if_neg hfive, hlen]
        simp only [if_pos hshort]
    simp [decoder, decode, hmore, advance]
  next hlong =>
    obtain ⟨rest, rfl⟩ : request.bytes <+: buffer :=
      List.prefix_of_prefix_length_le (List.prefix_append _ _) hbuffer (by omega)
    have hfive : ¬ (request.bytes ++ rest).length < 5 := by
      have hrequest := request.five_le_length
      rw [List.length_append]
      omega
    have hitem : decodeTargetRequest (request.bytes ++ rest) = (.item request.item, rest) := by
      rw [decodeTargetRequest, if_neg hfive, request.requestLen_append]
      simp only [if_neg hlong, splitTo_append, request.readTargetRequest_bytes]
      rfl
    have hdecode : decoder.decode .working (request.bytes ++ rest) =
        (.item request.item, .ready, rest) := by
      simp [decoder, decode, hitem, advance]
    rw [Decoder.drain_item hdecode, drain_ready, List.drop_left']
    rfl

/-- A part of the greeting is left alone. -/
theorem drain_greeting_part {greeting : Greeting} {buffer rest : List UInt8}
    (hbuffer : buffer <+: greeting.bytes ++ rest)
    (hshort : buffer.length < greeting.bytes.length) :
    decoder.drain .negotiation buffer = ([], .reading .negotiation buffer) := by
  have hmore : decodeMethodSelection buffer = (.more, buffer) := by
    rcases buffer with _ | ⟨version, _ | ⟨nMethods, part⟩⟩
    · exact decodeMethodSelection_short (by simp)
    · exact decodeMethodSelection_short (by simp)
    · obtain ⟨behind, hbehind⟩ := hbuffer
      simp only [Greeting.bytes, List.cons_append, List.cons.injEq] at hbehind
      obtain ⟨-, rfl, -⟩ := hbehind
      rw [greeting.length_bytes, List.length_cons, List.length_cons] at hshort
      -- fewer than 256 bytes stand behind the first two, so nothing is truncated
      have hmethods := greeting.short
      rw [decodeMethodSelection_cons, if_pos]
      rw [greeting.ofNat_lt_methods_iff, Nat.mod_eq_of_lt (by omega)]
      omega
  apply Decoder.drain_more
  simp [decoder, decode, hmore, advance]

/-- With the whole greeting in the buffer it is returned when the number of
bytes behind the first two, cut to a byte, is no less than the number of
methods; otherwise nothing happens. -/
theorem drain_greeting (greeting : Greeting) (rest : List UInt8) :
    decoder.drain .negotiation (greeting.bytes ++ rest) =
      if ((greeting.bytes ++ rest).length - 2) % 256 < greeting.methods.length then
        ([], .reading .negotiation (greeting.bytes ++ rest))
      else (greeting.item :: (decoder.drain .working rest).1,
        (decoder.drain .working rest).2) := by
  have hbehind : (greeting.bytes ++ rest).length - 2 = (greeting.methods ++ rest).length := by
    simp only [List.length_append, greeting.length_bytes]
    omega
  have hcall := decodeMethodSelection_cons 5 (UInt8.ofNat greeting.methods.length)
    (greeting.methods ++ rest)
  rw [greeting.toNat_methods, List.take_left', List.drop_left'] at hcall
  · simp only [greeting.ofNat_lt_methods_iff, ← hbehind] at hcall
    split
    next hover =>
      rw [if_pos hover] at hcall
      apply Decoder.drain_more
      change ((decodeMethodSelection (greeting.bytes ++ rest)).1, _, _) = _
      rw [show decodeMethodSelection (greeting.bytes ++ rest) = _ from hcall]
      rfl
    next hfits =>
      rw [if_neg hfits] at hcall
      apply Decoder.drain_item
      change ((decodeMethodSelection (greeting.bytes ++ rest)).1, _, _) = _
      rw [show decodeMethodSelection (greeting.bytes ++ rest) = _ from hcall]
      rfl
  · rfl
  · rfl

/-! ## Reading in chunks -/

/-- Where the decoder stands behind a part of the stream. -/
def stageAfter (stream : SocksStream) (front : List UInt8) :
    Stage Socks5RequestCodecState IoError :=
  if front.length < stream.greetingLen then .reading .negotiation front
  else if front.length < stream.headLen then .reading .working (front.drop stream.greetingLen)
  else .reading .ready []

/-- The first drain that gets the whole greeting. -/
theorem drain_negotiation {front : List UInt8} (hfront : front <+: stream.bytes)
    (hlong : stream.greetingLen ≤ front.length)
    (hfits : stream.greeting.methods.length ≤ (front.length - 2) % 256) :
    decoder.drain .negotiation front =
      (stream.completed front.length ++ (pieces (front.drop stream.headLen)).map .data,
        stream.stageAfter front) := by
  obtain ⟨rest, rfl⟩ : stream.greeting.bytes <+: front :=
    List.prefix_of_prefix_length_le (List.prefix_append _ _) hfront hlong
  have hrest : rest <+: stream.request.bytes ++ stream.payload :=
    (List.prefix_append_right_inj _).mp hfront
  rw [drain_greeting, if_neg (by omega), drain_working hrest]
  have hgreeting : ¬ (stream.greeting.bytes ++ rest).length < stream.greetingLen := by omega
  have hdrop : (stream.greeting.bytes ++ rest).drop stream.headLen =
      rest.drop stream.request.bytes.length := by
    rw [headLen, greetingLen, List.drop_append]
    simp
  have hhead : (stream.greeting.bytes ++ rest).length < stream.headLen ↔
      rest.length < stream.request.bytes.length := by
    simp only [headLen, greetingLen, List.length_append]
    omega
  simp only [completed, stageAfter, if_neg hgreeting, hhead, hdrop]
  split
  next hshort => simp [pieces, List.drop_of_length_le hshort.le, greetingLen]
  next => simp

/-- What has been returned, and where the decoder stands, behind a part of the
stream whose payload came in the given pieces. -/
structure Reads (stream : SocksStream) (front : List UInt8)
    (outcome : List SocksRequest × Stage Socks5RequestCodecState IoError) : Prop where
  items : ∃ payloads : List (List UInt8), [] ∉ payloads ∧
    payloads.flatten = front.drop stream.headLen ∧
    outcome.1 = stream.completed front.length ++ payloads.map .data
  stage : outcome.2 = stream.stageAfter front

theorem reads_nil : stream.Reads [] ([], start) where
  items := ⟨[], by simp, by simp, by simp [completed, greetingLen]⟩
  stage := by simp [stageAfter, start, greetingLen]

/-- Before the end of the request no payload has been returned. -/
theorem Reads.items_eq {front : List UInt8}
    {outcome : List SocksRequest × Stage Socks5RequestCodecState IoError}
    (hreads : stream.Reads front outcome) (hshort : front.length ≤ stream.headLen) :
    outcome.1 = stream.completed front.length := by
  obtain ⟨payloads, hnonempty, hflatten, hitems⟩ := hreads.items
  rw [List.drop_of_length_le hshort] at hflatten
  have hnil : payloads = [] := by
    cases payloads with
    | nil => rfl
    | cons first rest =>
        rw [List.flatten_cons, List.append_eq_nil_iff] at hflatten
        exact absurd (hflatten.1 ▸ List.mem_cons_self) hnonempty
  rw [hitems, hnil, List.map_nil, List.append_nil]

/-! One more read, by what had been read before. -/

section Feed

variable {front chunk : List UInt8}
  {outcome : List SocksRequest × Stage Socks5RequestCodecState IoError}

/-- The greeting was not complete, so nothing had been returned. -/
theorem Reads.feed_greeting (hreads : stream.Reads front outcome)
    (hpart : front ++ chunk <+: stream.bytes) (hgreeting : front.length < stream.greetingLen)
    (hfits : stream.greetingLen ≤ (front ++ chunk).length →
      stream.greeting.methods.length ≤ ((front ++ chunk).length - 2) % 256) :
    stream.Reads (front ++ chunk) (outcome.1 ++ (decoder.feed outcome.2 chunk).1,
      (decoder.feed outcome.2 chunk).2) := by
  have hgreetingHead : stream.greetingLen ≤ stream.headLen := Nat.le_add_right _ _
  have hnone : outcome.1 = [] := by
    rw [hreads.items_eq (by omega), completed, if_pos hgreeting]
  rw [hreads.stage, hnone, List.nil_append, stageAfter, if_pos hgreeting, Decoder.feed]
  by_cases hlong : stream.greetingLen ≤ (front ++ chunk).length
  · rw [drain_negotiation hpart hlong (hfits hlong)]
    exact ⟨⟨_, nil_notMem_pieces _, flatten_pieces _, rfl⟩, rfl⟩
  · rw [drain_greeting_part hpart (by simpa [greetingLen] using hlong)]
    refine ⟨⟨[], by simp, ?_, ?_⟩, ?_⟩
    · rw [List.drop_of_length_le (by omega), List.flatten_nil]
    · rw [completed, if_pos (by omega), List.map_nil, List.append_nil]
    · rw [stageAfter, if_pos (by omega)]

/-- The request was not complete. -/
theorem Reads.feed_request (hreads : stream.Reads front outcome)
    (hpart : front ++ chunk <+: stream.bytes) (hgreeting : ¬ front.length < stream.greetingLen)
    (hhead : front.length < stream.headLen) :
    stream.Reads (front ++ chunk) (outcome.1 ++ (decoder.feed outcome.2 chunk).1,
      (decoder.feed outcome.2 chunk).2) := by
  have hlength : (front ++ chunk).length = front.length + chunk.length := List.length_append
  have hone : outcome.1 = [stream.greeting.item] := by
    rw [hreads.items_eq hhead.le, completed, if_neg hgreeting, if_pos hhead]
  have hcut : front.drop stream.greetingLen ++ chunk =
      (front ++ chunk).drop stream.greetingLen := by
    rw [List.drop_append_of_le_length (by omega)]
  have hrequest : (front ++ chunk).drop stream.greetingLen <+:
      stream.request.bytes ++ stream.payload := by
    obtain ⟨behind, hbehind⟩ := hpart
    have hdrop := congrArg (List.drop stream.greetingLen) hbehind
    rw [List.drop_append_of_le_length (by omega), bytes, greetingLen, List.drop_left] at hdrop
    exact ⟨behind, hdrop⟩
  have hrest : ((front ++ chunk).drop stream.greetingLen).length <
      stream.request.bytes.length ↔ (front ++ chunk).length < stream.headLen := by
    rw [List.length_drop, headLen]
    omega
  rw [hreads.stage, hone, stageAfter, if_neg hgreeting, if_pos hhead, Decoder.feed, hcut,
    drain_working hrequest]
  simp only [hrest, List.drop_drop]
  by_cases hshort : (front ++ chunk).length < stream.headLen
  · rw [if_pos hshort]
    refine ⟨⟨[], by simp, ?_, ?_⟩, ?_⟩
    · rw [List.drop_of_length_le hshort.le, List.flatten_nil]
    · rw [completed, if_neg (by omega), if_pos hshort]
      simp
    · rw [stageAfter, if_neg (by omega), if_pos hshort]
  · rw [if_neg hshort]
    refine ⟨⟨_, nil_notMem_pieces _, flatten_pieces _, ?_⟩, ?_⟩
    · rw [completed, if_neg (by omega), if_neg hshort]
      rfl
    · rw [stageAfter, if_neg (by omega), if_neg hshort]

/-- Only payload can follow. -/
theorem Reads.feed_payload (hreads : stream.Reads front outcome)
    (hhead : ¬ front.length < stream.headLen) :
    stream.Reads (front ++ chunk) (outcome.1 ++ (decoder.feed outcome.2 chunk).1,
      (decoder.feed outcome.2 chunk).2) := by
  have hlength : (front ++ chunk).length = front.length + chunk.length := List.length_append
  have hgreetingHead : stream.greetingLen ≤ stream.headLen := Nat.le_add_right _ _
  have hgreeting : ¬ front.length < stream.greetingLen := by omega
  obtain ⟨payloads, hnonempty, hflatten, hitems⟩ := hreads.items
  rw [hreads.stage, stageAfter, if_neg hgreeting, if_neg hhead, Decoder.feed, List.nil_append,
    drain_ready]
  refine ⟨⟨payloads ++ pieces chunk, ?_, ?_, ?_⟩, ?_⟩
  · simp [hnonempty, nil_notMem_pieces]
  · rw [List.flatten_append, hflatten, flatten_pieces,
      List.drop_append_of_le_length (by omega)]
  · rw [hitems, completed, completed, if_neg hgreeting, if_neg hhead, if_neg (by omega),
      if_neg (by omega), List.map_append, List.append_assoc]
  · rw [stageAfter, if_neg (by omega), if_neg (by omega)]

theorem Reads.feed (hreads : stream.Reads front outcome)
    (hpart : front ++ chunk <+: stream.bytes)
    (hfits : front.length < stream.greetingLen →
      stream.greetingLen ≤ (front ++ chunk).length →
      stream.greeting.methods.length ≤ ((front ++ chunk).length - 2) % 256) :
    stream.Reads (front ++ chunk) (outcome.1 ++ (decoder.feed outcome.2 chunk).1,
      (decoder.feed outcome.2 chunk).2) := by
  by_cases hgreeting : front.length < stream.greetingLen
  · exact hreads.feed_greeting hpart hgreeting (hfits hgreeting)
  by_cases hhead : front.length < stream.headLen
  · exact hreads.feed_request hpart hgreeting hhead
  · exact hreads.feed_payload hhead

end Feed

/-- Every read of a run whose greeting fits. -/
theorem GreetingFits.reads {chunks : List (List UInt8)} (hfits : stream.GreetingFits chunks)
    (hcut : chunks.flatten = stream.bytes) {read waiting : List (List UInt8)}
    (hread : chunks = read ++ waiting) :
    stream.Reads read.flatten (decoder.feedAll start read) := by
  induction read using List.reverseRecOn generalizing waiting with
  | nil => exact reads_nil
  | append_singleton read chunk ih =>
      rw [List.append_assoc, List.singleton_append] at hread
      have hpart : read.flatten ++ chunk <+: stream.bytes := by
        rw [← hcut, hread, List.flatten_append, List.flatten_cons, ← List.append_assoc]
        exact List.prefix_append _ _
      have hstep := (ih hread).feed hpart (hfits read chunk waiting hread)
      rw [List.flatten_append, List.flatten_singleton, Decoder.feedAll_append]
      simpa [Decoder.feedAll] using hstep

/-- Before the greeting is complete nothing is returned, whatever the reads. -/
theorem reads_greeting_part {read : List (List UInt8)}
    (hpart : read.flatten <+: stream.bytes) (hshort : read.flatten.length < stream.greetingLen) :
    decoder.feedAll start read = ([], .reading .negotiation read.flatten) := by
  induction read using List.reverseRecOn with
  | nil => rfl
  | append_singleton read chunk ih =>
      rw [List.flatten_append, List.flatten_singleton] at hpart hshort ⊢
      rw [List.length_append] at hshort
      have hbefore := ih ((List.prefix_append _ _).trans hpart) (by omega)
      have hdrain := drain_greeting_part hpart (by
        rw [List.length_append]
        exact hshort)
      rw [Decoder.feedAll_append, hbefore]
      simp [Decoder.feedAll, Decoder.feed, hdrain]

/-- SOCKS input decoding. For a well-formed stream the decoder returns what was
sent, each of the first two items with its last byte, exactly when the read that
completes the greeting does not overrun it by a multiple of 256. -/
theorem decodesAsSent_iff (stream : SocksStream) (chunks : List (List UInt8))
    (hcut : chunks.flatten = stream.bytes) :
    stream.DecodesAsSent chunks ↔ stream.GreetingFits chunks := by
  constructor
  · rintro ⟨hmoments, -⟩ read chunk waiting hchunks hshort hlong
    by_contra hover
    have hpart : read.flatten ++ chunk <+: stream.bytes := by
      rw [← hcut, hchunks, List.flatten_append, List.flatten_cons, ← List.append_assoc]
      exact List.prefix_append _ _
    obtain ⟨rest, hrest⟩ : stream.greeting.bytes <+: read.flatten ++ chunk :=
      List.prefix_of_prefix_length_le (List.prefix_append _ _) hpart hlong
    -- the truncated comparison leaves the whole buffer unread
    have hdrain : decoder.drain .negotiation (read.flatten ++ chunk) =
        ([], .reading .negotiation (read.flatten ++ chunk)) := by
      rw [← hrest] at hover ⊢
      rw [drain_greeting, if_pos (by omega)]
    have hnone : (decoder.feedAll start (read ++ [chunk])).1 = [] := by
      rw [Decoder.feedAll_append,
        reads_greeting_part ((List.prefix_append _ _).trans hpart) hshort]
      simp [Decoder.feedAll, Decoder.feed, hdrain]
    obtain ⟨payloads, -, -, hitems⟩ := hmoments (read ++ [chunk]) waiting (by simp [hchunks])
    rw [hnone, List.flatten_append, List.flatten_singleton, completed,
      if_neg (by omega)] at hitems
    split at hitems <;> simp at hitems
  · intro hfits
    refine ⟨fun read waiting hread => (hfits.reads hcut hread).items, ?_⟩
    have hend := (hfits.reads hcut (List.append_nil chunks).symm).stage
    rw [hend, hcut, stageAfter, if_neg, if_neg]
    · simp only [headLen, greetingLen, bytes, List.length_append]
      omega
    · simp only [greetingLen, bytes, List.length_append]
      omega

/-- A request for 127.0.0.1:80, with one method and some payload. -/
def loopback (payload : List UInt8) : SocksStream where
  greeting := ⟨[0], by decide⟩
  request := ⟨.connect, .ipv4 ⟨0x7f000001⟩, 80, by simp⟩
  payload := payload

theorem decodesAsSent_iff_loopback :
    (loopback [71, 69, 84]).DecodesAsSent
        [[5, 1, 0, 5, 1], [0, 1, 127, 0, 0, 1, 0, 80, 71, 69, 84]] ↔
      (loopback [71, 69, 84]).GreetingFits
        [[5, 1, 0, 5, 1], [0, 1, 127, 0, 0, 1, 0, 80, 71, 69, 84]] :=
  decodesAsSent_iff (loopback [71, 69, 84]) _ (by decide)

/-- With 245 bytes of payload and everything in one read, 256 bytes stand behind
the first two, and nothing at all is returned. -/
theorem overrun_not_decoded :
    ¬ (loopback (List.replicate 245 0)).DecodesAsSent
        [(loopback (List.replicate 245 0)).bytes] := by
  rintro ⟨-, hend⟩
  revert hend
  decide +kernel

end SocksStream

end JustProxy
