import JustProxy.Component.Server
import JustProxy.Foundation.StreamDecoder

/-! # Readers of targets

For each connection a future reads what the target sends and puts one message
for each chunk into the actor's mailbox. The future is a framed reader over
`BytesCodec`; it has a continuation for a read error but none for the end of the
stream.
-/

namespace JustProxy

open StreamDecoder

/-- What one read returns before the stream ends; no bytes are its end. -/
abbrev Chunk := {bytes : List UInt8 // bytes ≠ []}

inductive ReadEnd where
  | finished
  | failed
  deriving DecidableEq

def ReadEnd.event : ReadEnd → ReadEvent
  | .finished => .finished
  | .failed => .failed

/-! ## The framed reader -/

namespace BytesCodec

def decode (src : List UInt8) : Verdict (List UInt8) IoError × List UInt8 :=
  if src.length = 0 then (.more, src) else (.item src, [])

def decoder : Decoder Unit (List UInt8) IoError where
  decode _ src := ((decode src).1, (), (decode src).2)
  consumes {state buffer value state' rest} hdecode := by
    simp only [decode] at hdecode
    split at hdecode
    · cases hdecode
    next hlong =>
      cases hdecode
      exact Nat.pos_of_ne_zero hlong

theorem drain_nil : decoder.drain () [] = ([], .reading () []) := Decoder.drain_more rfl

theorem drain_chunk (chunk : Chunk) :
    decoder.drain () chunk.val = ([chunk.val], .reading () []) := by
  have hdecode : decoder.decode () chunk.val = (.item chunk.val, (), []) := by
    simp [decoder, decode, chunk.property]
  rw [Decoder.drain_item hdecode, drain_nil]

/-- Every read is one item. -/
theorem feedAll_chunks (chunks : List Chunk) :
    decoder.feedAll (.reading () []) (chunks.map Subtype.val) =
      (chunks.map Subtype.val, .reading () []) := by
  induction chunks with
  | nil => rfl
  | cons chunk rest ih =>
      have hfeed : decoder.feed (.reading () []) chunk.val =
          ([chunk.val], .reading () []) := drain_chunk chunk
      rw [List.map_cons, Decoder.feedAll, hfeed, ih]
      rfl

end BytesCodec

/-- The items of the framed reader, and whether its stream ends by an error.
Behind the last read, what is left is decoded; then no bytes may remain. -/
def framedRead (chunks : List Chunk) (ending : ReadEnd) : List (List UInt8) × Bool :=
  let (items, stage) := BytesCodec.decoder.feedAll (.reading () []) (chunks.map Subtype.val)
  match ending, stage with
  | .finished, .reading state buffer =>
      let (last, stage) := BytesCodec.decoder.drain state buffer
      (items ++ last, stage ≠ .reading () [])
  | _, _ => (items, true)

/-- The messages that a reader puts into the mailbox. -/
def readerMails {Writer : Type} (uuid : UInt16) (chunks : List Chunk) (ending : ReadEnd) :
    List (ServerMail Writer) :=
  let (items, failed) := framedRead chunks ending
  items.map (fun bytes => .proxyResponse (.new uuid (.data bytes))) ++
    if failed then [.connectionDead uuid] else []

theorem framedRead_eq (chunks : List Chunk) (ending : ReadEnd) :
    framedRead chunks ending = (chunks.map Subtype.val, decide (ending = .failed)) := by
  rw [framedRead, BytesCodec.feedAll_chunks]
  cases ending with
  | finished => simp [BytesCodec.drain_nil]
  | failed => rfl

/-- Read by read, the reader does what its future is said to do. -/
theorem readerMails_eq {Writer : Type} (uuid : UInt16) (chunks : List Chunk) (ending : ReadEnd) :
    (readerMails uuid chunks ending : List (ServerMail Writer)) =
      (chunks.map (fun chunk => ReadEvent.chunk chunk.val) ++ [ending.event]).filterMap
        (readerFuture uuid) := by
  rw [readerMails, framedRead_eq, List.filterMap_append, List.filterMap_map]
  cases ending <;> simp [readerFuture, ReadEnd.event, Function.comp_def]

/-! ## Handling the mailbox -/

namespace ServerMail

variable {Writer : Type}

/-- The connection that a message is about. -/
def uuid : ServerMail Writer → UInt16
  | .proxyResponse response => response.uuid
  | .connectionDead uuid => uuid
  | .connectionEstablished uuid _ => uuid

/-- The response that handling a message puts into the output queue. -/
def queued : ServerMail Writer → ProxyResponse
  | .proxyResponse response => response
  | .connectionDead uuid => .new uuid (.response .abort)
  | .connectionEstablished uuid _ => .new uuid (.response .succeeded)

/-- The entry of a message's connection after it. -/
def entryAfter (entry : Option Writer) : ServerMail Writer → Option Writer
  | .proxyResponse _ => entry
  | .connectionDead _ => none
  | .connectionEstablished _ writer => some writer

@[simp] theorem uuid_queued (mail : ServerMail Writer) : mail.queued.uuid = mail.uuid := by
  cases mail <;> rfl

end ServerMail

/-- The response that an effect puts into the output queue. -/
def ServerEffect.sent {Writer : Type} : ServerEffect Writer → Option ProxyResponse
  | .send response => some response
  | .resolve _ _ => none
  | .write _ _ => none

namespace ProxyClient

variable {Writer : Type}

/-- The actor handles some messages one after the other. -/
def handleAll : ProxyClient Writer → List (ServerMail Writer) → Reaction Writer
  | self, [] => some (self, [])
  | self, mail :: rest =>
      (self.handleMail mail).bind fun (next, effects) =>
        (handleAll next rest).map fun (final, later) => (final, effects ++ later)

/-- As long as the output queue is there, every message is answered into it and
changes the entry of its own connection only. -/
theorem handleMail_eq {self : ProxyClient Writer} (hreceiving : self.receiving = true)
    (mail : ServerMail Writer) :
    ∃ next, self.handleMail mail = some (next, [.send mail.queued]) ∧ next.receiving = true ∧
      ∀ uuid, next.connections uuid =
        if mail.uuid = uuid then mail.entryAfter (self.connections uuid)
        else self.connections uuid := by
  cases mail with
  | proxyResponse response =>
      refine ⟨self, by simp [handleMail, handleProxyResponse, unboundedSend, hreceiving,
        ServerMail.queued], hreceiving, fun uuid => ?_⟩
      simp [ServerMail.entryAfter]
  | connectionDead dead =>
      refine ⟨self.removeConnection dead, by simp [handleMail, handleConnectionDead,
        unboundedSend, removeConnection, hreceiving, ServerMail.queued], hreceiving,
        fun uuid => ?_⟩
      by_cases huuid : dead = uuid
      · simp [huuid, ServerMail.uuid, ServerMail.entryAfter]
      · simp [removeConnection, huuid, Ne.symm huuid, ServerMail.uuid]
  | connectionEstablished established writer =>
      refine ⟨self.insertConnection established writer, by simp [handleMail,
        handleConnectionEstablished, unboundedSend, insertConnection, hreceiving,
        ServerMail.queued], hreceiving, fun uuid => ?_⟩
      by_cases huuid : established = uuid
      · simp [insertConnection, huuid, ServerMail.uuid, ServerMail.entryAfter]
      · simp [insertConnection, huuid, Ne.symm huuid, ServerMail.uuid]

/-- What handling a mailbox means for one connection: its messages are answered in
order, and only they decide on its entry. -/
theorem handleAll_eq {self : ProxyClient Writer} (hreceiving : self.receiving = true)
    (mails : List (ServerMail Writer)) (uuid : UInt16) :
    ∃ next effects, self.handleAll mails = some (next, effects) ∧
      next.connections uuid = (mails.filter (·.uuid = uuid)).foldl ServerMail.entryAfter
        (self.connections uuid) ∧
      (effects.filterMap ServerEffect.sent).filter (·.uuid = uuid) =
        (mails.filter (·.uuid = uuid)).map ServerMail.queued := by
  induction mails generalizing self with
  | nil => exact ⟨self, [], rfl, rfl, rfl⟩
  | cons mail rest ih =>
      obtain ⟨middle, hmail, hmiddle, hentry⟩ := handleMail_eq hreceiving mail
      obtain ⟨next, effects, hrest, hconnections, hsent⟩ := ih hmiddle
      refine ⟨next, .send mail.queued :: effects, by simp [handleAll, hmail, hrest], ?_, ?_⟩
      · rw [hconnections, hentry uuid]
        by_cases huuid : mail.uuid = uuid <;> simp [huuid]
      · have hcons : (ServerEffect.send mail.queued :: effects).filterMap ServerEffect.sent =
            mail.queued :: effects.filterMap ServerEffect.sent := rfl
        rw [hcons, List.filter_cons, List.filter_cons, hsent]
        by_cases huuid : mail.uuid = uuid <;> simp [huuid]

end ProxyClient

/-! ## The end of a target's stream -/

/-- The reader of a connection sends its chunks and then that the connection has
died; when these messages have been handled, between those of other connections
or not, the connection has no entry, and its chunks and one `Abort` are queued. -/
structure EndReported (Writer : Type) (uuid : UInt16) (chunks : List Chunk)
    (ending : ReadEnd) : Prop where
  mails : (readerMails uuid chunks ending : List (ServerMail Writer)) =
    chunks.map (fun chunk => .proxyResponse (.new uuid (.data chunk.val))) ++
      [.connectionDead uuid]
  handled : ∀ (self : ProxyClient Writer) (mails : List (ServerMail Writer)),
    self.receiving = true → mails.filter (·.uuid = uuid) = readerMails uuid chunks ending →
    ∃ next effects, self.handleAll mails = some (next, effects) ∧ next.connections uuid = none ∧
      (effects.filterMap ServerEffect.sent).filter (·.uuid = uuid) =
        chunks.map (fun chunk => .new uuid (.data chunk.val)) ++ [.new uuid (.response .abort)]

/-- Reported ends. The end of a stream is reported exactly when it is a read
error. -/
theorem endReported_iff (Writer : Type) (uuid : UInt16) (chunks : List Chunk)
    (ending : ReadEnd) : EndReported Writer uuid chunks ending ↔ ending = .failed := by
  constructor
  · intro hreported
    cases ending with
    | failed => rfl
    | finished =>
        -- the only messages are the chunks
        have hmails := hreported.mails
        rw [readerMails, framedRead_eq] at hmails
        simp at hmails
  · rintro rfl
    have hmails : (readerMails uuid chunks .failed : List (ServerMail Writer)) =
        chunks.map (fun chunk => .proxyResponse (.new uuid (.data chunk.val))) ++
          [.connectionDead uuid] := by
      rw [readerMails, framedRead_eq]
      simp
    refine ⟨hmails, fun self mails hreceiving hfilter => ?_⟩
    obtain ⟨next, effects, hhandle, hentry, hsent⟩ :=
      ProxyClient.handleAll_eq hreceiving mails uuid
    refine ⟨next, effects, hhandle, ?_, ?_⟩
    · rw [hentry, hfilter, hmails, List.foldl_append]
      rfl
    · rw [hsent, hfilter, hmails]
      simp [ServerMail.queued, Function.comp_def]

/-- A target that sends some bytes and then closes its stream. -/
theorem finished_not_reported :
    ¬ EndReported Nat 5000 [⟨[72, 105], by decide⟩] .finished := by
  intro hreported
  exact absurd hreported.mails (by decide)

end JustProxy
