import JustProxy.Foundation.Transition
import JustProxy.Socks.Codec
import JustProxy.Socks.Session

/-! # What a session may do when

A session handles the items of its application and the answers of its dispatcher
in whatever order they arrive. It keeps no phase of its own: the codec orders the
items, the dispatcher the answers, and nothing relates payload to the answer.
-/

namespace JustProxy

open StreamDecoder

/-- What a session handles, one at a time. -/
inductive SocksEvent where
  /-- An item that the codec returns. -/
  | item (request : SocksRequest) (now : Nat)
  /-- An answer of the dispatcher. -/
  | answer (msg : ConnectorResponse) (now : Nat)
  deriving DecidableEq

namespace SocksEvent

def answer? : SocksEvent → Option ConnectorResponse
  | .item _ _ => none
  | .answer msg _ => some msg

/-- The command that the application asks for. -/
def command : SocksEvent → Option SocksRequestCommand
  | .item (.targetRequest request) _ => some request.command
  | _ => none

def isPayload : SocksEvent → Bool
  | .item (.data _) _ => true
  | _ => false

end SocksEvent

/-- The answers among some events. -/
def heard (events : List SocksEvent) : List ConnectorResponse :=
  events.filterMap SocksEvent.answer?

/-! ## Order of events -/

/-- The order of the items. -/
def Socks5RequestCodecState.next :
    Socks5RequestCodecState → SocksRequest → Option Socks5RequestCodecState
  | .negotiation, .negotiation _ => some .working
  | .working, .targetRequest _ => some .ready
  | .ready, .data _ => some .ready
  | _, _ => none

/-- Where a session's connection stands, by what its dispatcher has said. -/
inductive Link where
  | unasked
  | asked
  | up
  | refused
  | gone
  deriving DecidableEq, Repr

namespace Link

def ask : Link → SocksRequest → Link
  | .unasked, .targetRequest _ => .asked
  | link, _ => link

/-- The order of the answers: nothing before the request, then `Failed`, or
`Succeeded` with data behind it and at last `Abort`. -/
def hear : Link → ConnectorResponse → Option Link
  | .asked, .succeeded => some .up
  | .asked, .failed => some .refused
  | .up, .data _ => some .up
  | .up, .abort => some .gone
  | _, _ => none

/-- The answers that have been heard. -/
def Shape : Link → List ConnectorResponse → Prop
  | .unasked, answers => answers = []
  | .asked, answers => answers = []
  | .up, answers => ∃ chunks : List (List UInt8), answers = .succeeded :: chunks.map .data
  | .refused, answers => answers = [.failed]
  | .gone, answers => ∃ chunks : List (List UInt8),
      answers = .succeeded :: chunks.map .data ++ [.abort]

end Link

/-- Which events may come next. -/
structure Conduct where
  codec : Socks5RequestCodecState
  link : Link
  deriving DecidableEq

namespace Conduct

def start : Conduct := ⟨.negotiation, .unasked⟩

/-- An application may go on behind an `Abort`, as long as its socket is open. -/
def step (c : Conduct) : SocksEvent → Option Conduct
  | .item request _ => (c.codec.next request).map fun codec => ⟨codec, c.link.ask request⟩
  | .answer msg _ => (c.link.hear msg).map fun link => ⟨c.codec, link⟩

/-- A sequence of events that a session can be given. -/
def Admits (events : List SocksEvent) : Prop := (Transition.run step start events).isSome

end Conduct

/-! ## What the session does -/

/-- One event with what the session has done. -/
structure Handled where
  event : SocksEvent
  effect : SocksEffect
  deriving DecidableEq

namespace SocksClient

def handle (self : SocksClient) : SocksEvent → Option (SocksClient × SocksEffect)
  | .item request now => some (self.handleSocksRequest request now)
  | .answer msg now => self.handleConnectorResponse msg now

/-- What the session does with some events, until its actor stops; `none` is a panic. -/
def log : SocksClient → List SocksEvent → Option (List Handled)
  | _, [] => some []
  | self, event :: rest => (self.handle event).bind fun (next, effect) =>
      if effect = .stop then some [⟨event, effect⟩]
      else (log next rest).map fun later => ⟨event, effect⟩ :: later

end SocksClient

namespace SocksEffect

/-- A `RequestAddr` goes to the dispatcher. -/
def asks : SocksEffect → Bool
  | .doSend request =>
      match request.request with
      | .requestAddr _ => true
      | _ => false
  | _ => false

/-- Payload goes to the dispatcher. -/
def forwards : SocksEffect → Bool
  | .doSend request =>
      match request.request with
      | .data _ => true
      | _ => false
  | _ => false

/-- The target request is answered. -/
def replies : SocksEffect → Bool
  | .write (.targetResponse _) => true
  | _ => false

/-- The target request is answered with success. -/
def grants : SocksEffect → Bool
  | .write (.targetResponse response) => response.response = .succeeded
  | _ => false

end SocksEffect

/-- The discipline of a SOCKS session. -/
structure Disciplined (log : List Handled) : Prop where
  asksOnce : log.countP (·.effect.asks) ≤ 1
  asksConnect : ∀ handled ∈ log, handled.effect.asks = true →
    handled.event.command = some .connect
  grantsAfter : ∀ before handled after, log = before ++ handled :: after →
    handled.effect.grants = true →
    .succeeded ∈ heard ((before ++ [handled]).map Handled.event)
  repliesOnce : log.countP (·.effect.replies) ≤ 1
  forwardsWhileUp : ∀ before handled after, log = before ++ handled :: after →
    handled.effect.forwards = true → .succeeded ∈ heard (before.map Handled.event) ∧
      .failed ∉ heard (before.map Handled.event) ∧ .abort ∉ heard (before.map Handled.event)

/-- The application asks for nothing but a connection, and sends payload only
when it has been told that the connection is there. -/
structure Orderly (events : List SocksEvent) : Prop where
  connect : ∀ event ∈ events, ∀ command, event.command = some command → command = .connect
  patient : ∀ before event after, events = before ++ event :: after →
    event.isPayload = true → .succeeded ∈ heard before

/-! ## The items of the codec -/

namespace Socks5RequestCodec

theorem decode_next {state state' : Socks5RequestCodecState} {src rest : List UInt8}
    {item : SocksRequest} (hdecode : decode state src = (.item item, state', rest)) :
    state.next item = some state' := by
  rcases decode_item hdecode with ⟨rfl, rfl, greeting, rfl⟩ | ⟨rfl, rfl, request, rfl⟩ |
    ⟨rfl, rfl, bytes, rfl⟩
  · rfl
  · rfl
  · rfl

theorem decode_state {state state' : Socks5RequestCodecState} {src rest : List UInt8}
    (hdecode : decode state src = (.more, state', rest)) : state' = state := by
  have hverdict := congrArg Prod.fst hdecode
  have hstate := congrArg (fun answer => answer.2.1) hdecode
  cases state with
  | negotiation =>
      simp only [decode] at hverdict hstate
      rw [hverdict] at hstate
      exact hstate.symm
  | working =>
      simp only [decode] at hverdict hstate
      rw [hverdict] at hstate
      exact hstate.symm
  | ready => exact hstate.symm

/-- What one read returns is in order, and the loop goes on behind it. -/
theorem drain_next (state : Socks5RequestCodecState) (buffer : List UInt8) :
    ∃ state', Transition.run Socks5RequestCodecState.next state
        (decoder.drain state buffer).1 = some state' ∧
      ∀ {final unread}, (decoder.drain state buffer).2 = .reading final unread →
        final = state' := by
  refine Decoder.drain_induction
    (motive := fun state _ items stage => ∃ state',
      Transition.run Socks5RequestCodecState.next state items = some state' ∧
        ∀ {final unread}, stage = .reading final unread → final = state')
    ?item ?more ?fail ?panic state buffer
  case item =>
    rintro state _ item state' _ items stage hdecode ⟨final, hrun, hfinal⟩
    exact ⟨final, Transition.run_cons.mpr ⟨state', decode_next hdecode, hrun⟩, hfinal⟩
  case more =>
    intro state _ state' _ hdecode
    refine ⟨state, rfl, ?_⟩
    intro final unread hstage
    cases hstage
    exact decode_state hdecode
  case fail => exact fun {state _ _} => ⟨state, rfl, nofun⟩
  case panic => exact fun {state _} => ⟨state, rfl, nofun⟩

/-- However the input arrives, its items are in order. -/
theorem feedAll_next (state : Socks5RequestCodecState) (buffer : List UInt8)
    (chunks : List (List UInt8)) :
    (Transition.run Socks5RequestCodecState.next state
      (decoder.feedAll (.reading state buffer) chunks).1).isSome := by
  induction chunks generalizing state buffer with
  | nil => rfl
  | cons chunk rest ih =>
      obtain ⟨state', hrun, hstage⟩ := drain_next state (buffer ++ chunk)
      rw [Decoder.feedAll, Decoder.feed, Transition.run_append, hrun]
      cases hdrained : (decoder.drain state (buffer ++ chunk)).2 with
      | reading final unread =>
          obtain rfl := hstage hdrained
          exact ih final unread
      | failed error => rw [Decoder.feedAll_stopped _ (by simp)]; rfl
      | panicked => rw [Decoder.feedAll_stopped _ (by simp)]; rfl

end Socks5RequestCodec

/-! ## Effects -/

/-- What a session does with an event, unless it panics. -/
def SocksEvent.effect (uuid : UInt16) : SocksEvent → SocksEffect
  | .item (.negotiation _) _ => .write (.negotiation ⟨5, 0⟩)
  | .item (.targetRequest request) _ => .doSend (.new uuid (.requestAddr request.toAddressString))
  | .item (.data bytes) _ => .doSend (.new uuid (.data bytes))
  | .answer .succeeded _ => .write (.targetResponse SocksClient.succeededResponse)
  | .answer .failed _ => .write (.targetResponse SocksClient.failedResponse)
  | .answer (.data bytes) _ => .write (.data bytes)
  | .answer .abort _ => .stop

/-- An event together with what the session does with it. -/
def SocksEvent.handled (uuid : UInt16) (event : SocksEvent) : Handled := ⟨event, event.effect uuid⟩

/-- An actor stops at an `Abort`, and at nothing else. -/
theorem SocksEvent.effect_eq_stop_iff {uuid : UInt16} {event : SocksEvent} :
    event.effect uuid = .stop ↔ event.answer? = some .abort := by
  rcases event with ⟨_ | _ | _, now⟩ | ⟨_ | _ | _ | _, now⟩ <;> simp [effect, answer?]

/-! ## The end of a session -/

/-- The events up to the first `Abort`. -/
def untilAbort : List SocksEvent → List SocksEvent
  | [] => []
  | event :: rest =>
      if event.answer? = some .abort then [event] else event :: untilAbort rest

theorem heard_append (first second : List SocksEvent) :
    heard (first ++ second) = heard first ++ heard second :=
  List.filterMap_append

theorem untilAbort_append {past : List SocksEvent} (habort : .abort ∉ heard past)
    (rest : List SocksEvent) : untilAbort (past ++ rest) = past ++ untilAbort rest := by
  induction past with
  | nil => rfl
  | cons event past ih =>
      have hparts : .abort ∉ heard [event] ∧ .abort ∉ heard past := by
        rwa [← List.singleton_append, heard_append, List.mem_append, not_or] at habort
      have hevent : event.answer? ≠ some .abort := by
        intro hanswer
        exact hparts.1 (by simp [heard, hanswer])
      rw [List.cons_append, untilAbort, if_neg hevent, ih hparts.2, List.cons_append]

/-- Where an actor stops in the middle, it stops at an `Abort`. -/
theorem untilAbort_cases (events : List SocksEvent) :
    untilAbort events = events ∨ ∃ before now after,
      events = before ++ .answer .abort now :: after ∧
        untilAbort events = before ++ [.answer .abort now] := by
  induction events with
  | nil => exact .inl rfl
  | cons event rest ih =>
      rw [untilAbort]
      split
      next hanswer =>
        cases event with
        | item request now => cases hanswer
        | answer msg now =>
            obtain rfl := Option.some.inj hanswer
            exact .inr ⟨[], now, rest, rfl, rfl⟩
      next =>
        rcases ih with hall | ⟨before, now, after, hrest, hends⟩
        · exact .inl (congrArg (event :: ·) hall)
        · refine .inr ⟨event :: before, now, after, ?_, ?_⟩
          · rw [hrest, List.cons_append]
          · rw [hends, List.cons_append]

theorem untilAbort_isPrefix (events : List SocksEvent) : untilAbort events <+: events := by
  rcases untilAbort_cases events with hall | ⟨before, now, after, hevents, hends⟩
  · exact ⟨[], by rw [hall, List.append_nil]⟩
  · rw [hends]
    exact ⟨after, by rw [hevents, List.append_assoc, List.singleton_append]⟩

/-- Nothing is handled behind an `Abort`. -/
theorem abort_not_heard {events before after : List SocksEvent} {event : SocksEvent}
    (hsplit : untilAbort events = before ++ event :: after) : .abort ∉ heard before := by
  induction events generalizing before with
  | nil => cases before <;> cases hsplit
  | cons first rest ih =>
      cases before with
      | nil => exact List.not_mem_nil
      | cons first' before =>
          rw [untilAbort] at hsplit
          split at hsplit
          next =>
            -- the stop is the last event, so there is none behind it
            have hnil := (List.cons.inj hsplit).2
            cases before <;> cases hnil
          next hgoes =>
            obtain ⟨rfl, hrest⟩ := List.cons.inj hsplit
            rw [← List.singleton_append, heard_append, List.mem_append, not_or]
            refine ⟨fun hmem => hgoes ?_, ih hrest⟩
            cases hanswer : first.answer? with
            | none => simp [heard, hanswer] at hmem
            | some msg =>
                obtain rfl : ConnectorResponse.abort = msg := by simpa [heard, hanswer] using hmem
                rfl

namespace SocksClient

/-- The session knows when it has asked, and for what. -/
def Knows (self : SocksClient) : Link → Prop
  | .asked => self.connectRequestRecord.isSome ∧ self.targetAddress.isSome
  | _ => True

theorem knows_handleSocksRequest {self : SocksClient} {link : Link} (hknows : self.Knows link)
    (request : SocksRequest) (now : Nat) :
    (self.handleSocksRequest request now).1.Knows (link.ask request) := by
  cases request with
  | targetRequest request => cases link <;> simp [Link.ask, Knows, handleSocksRequest]
  | negotiation greeting => cases link <;> exact hknows
  | data bytes => cases link <;> exact hknows

/-- An answer that may come finds what the session needs to handle it. -/
theorem handleConnectorResponse_eq {self : SocksClient} {link next : Link}
    {msg : ConnectorResponse} (hknows : self.Knows link) (hhear : link.hear msg = some next)
    (now : Nat) :
    ∃ client, self.handleConnectorResponse msg now =
        some (client, (SocksEvent.answer msg now).effect self.uuid) ∧
      client.uuid = self.uuid ∧ client.Knows next := by
  cases link with
  | asked =>
      obtain ⟨hrecord, haddress⟩ := hknows
      obtain ⟨start, hstart⟩ := Option.isSome_iff_exists.mp hrecord
      obtain ⟨address, haddress⟩ := Option.isSome_iff_exists.mp haddress
      cases msg with
      | succeeded =>
          cases hhear
          simp [handleConnectorResponse, hstart, SocksEvent.effect, Knows]
      | failed =>
          cases hhear
          simp [handleConnectorResponse, hstart, haddress, SocksEvent.effect, Knows]
      | data bytes => cases hhear
      | abort => cases hhear
  | up =>
      cases msg with
      | data bytes =>
          cases hhear
          exact ⟨_, rfl, rfl, trivial⟩
      | abort =>
          cases hhear
          exact ⟨_, rfl, rfl, trivial⟩
      | succeeded => cases hhear
      | failed => cases hhear
  | unasked => cases hhear
  | refused => cases hhear
  | gone => cases hhear

theorem handle_eq {self : SocksClient} {c next : Conduct} {event : SocksEvent}
    (hknows : self.Knows c.link) (hstep : c.step event = some next) :
    ∃ client, self.handle event = some (client, event.effect self.uuid) ∧
      client.uuid = self.uuid ∧ client.Knows next.link := by
  cases event with
  | item request now =>
      obtain ⟨codec, -, rfl⟩ := Option.map_eq_some_iff.mp hstep
      refine ⟨(self.handleSocksRequest request now).1, ?_, ?_,
        knows_handleSocksRequest hknows request now⟩
      · cases request <;> rfl
      · cases request <;> rfl
  | answer msg now =>
      obtain ⟨link, hlink, rfl⟩ := Option.map_eq_some_iff.mp hstep
      exact handleConnectorResponse_eq hknows hlink now

/-- No order of events makes the session panic, and an `Abort` ends it. -/
theorem log_eq {self : SocksClient} {c final : Conduct} {events : List SocksEvent}
    (hknows : self.Knows c.link) (hrun : Transition.run Conduct.step c events = some final) :
    self.log events = some ((untilAbort events).map (SocksEvent.handled self.uuid)) := by
  induction events generalizing self c with
  | nil => rfl
  | cons event rest ih =>
      obtain ⟨next, hnext, hrest⟩ := Transition.run_cons.mp hrun
      obtain ⟨client, hhandle, huuid, hknows'⟩ := handle_eq hknows hnext
      simp only [log, hhandle, Option.bind_some, ih hknows' hrest, huuid, untilAbort,
        SocksEvent.effect_eq_stop_iff]
      split <;> rfl

end SocksClient

/-! ## Every admitted order -/

namespace SocksEvent

variable (uuid : UInt16) (event : SocksEvent)

theorem asks_effect : (event.effect uuid).asks = event.command.isSome := by
  rcases event with ⟨_ | _ | _, now⟩ | ⟨_ | _ | _ | _, now⟩ <;> rfl

theorem forwards_effect : (event.effect uuid).forwards = event.isPayload := by
  rcases event with ⟨_ | _ | _, now⟩ | ⟨_ | _ | _ | _, now⟩ <;> rfl

variable {uuid event}

/-- Success is only ever told on hearing it. -/
theorem answer?_of_grants (hgrants : (event.effect uuid).grants = true) :
    event.answer? = some .succeeded := by
  rcases event with ⟨item, now⟩ | ⟨msg, now⟩
  · cases item <;> cases hgrants
  · cases msg with
    | succeeded => rfl
    | failed => simp [effect, SocksEffect.grants, SocksClient.failedResponse] at hgrants
    | data bytes => cases hgrants
    | abort => cases hgrants

end SocksEvent

/-- The requests that the codec may still return. -/
def Socks5RequestCodecState.requestsLeft : Socks5RequestCodecState → Nat
  | .ready => 0
  | _ => 1

/-- The replies to the request that may still come. -/
def Link.repliesLeft : Link → Nat
  | .unasked => 1
  | .asked => 1
  | _ => 0

namespace Conduct

variable {c next : Conduct} {event : SocksEvent}

theorem step_requestsLeft (hstep : c.step event = some next) :
    next.codec.requestsLeft + event.command.isSome.toNat ≤ c.codec.requestsLeft := by
  obtain ⟨codec, link⟩ := c
  cases event with
  | item request now =>
      obtain ⟨codec', hcodec, rfl⟩ := Option.map_eq_some_iff.mp hstep
      cases codec <;> cases request <;> cases hcodec <;> exact Nat.le_refl _
  | answer msg now =>
      obtain ⟨link', -, rfl⟩ := Option.map_eq_some_iff.mp hstep
      exact Nat.le_refl _

theorem step_repliesLeft {uuid : UInt16} (hstep : c.step event = some next) :
    next.link.repliesLeft + (event.effect uuid).replies.toNat ≤ c.link.repliesLeft := by
  obtain ⟨codec, link⟩ := c
  cases event with
  | item request now =>
      obtain ⟨codec', -, rfl⟩ := Option.map_eq_some_iff.mp hstep
      cases link <;> cases request <;>
        simp [Link.ask, Link.repliesLeft, SocksEvent.effect, SocksEffect.replies]
  | answer msg now =>
      obtain ⟨link', hlink, rfl⟩ := Option.map_eq_some_iff.mp hstep
      cases link <;> cases msg <;> cases hlink <;>
        simp [Link.repliesLeft, SocksEvent.effect, SocksEffect.replies]

/-- The answers keep the shape that the link announces. -/
theorem step_shape (hstep : c.step event = some next) {answers : List ConnectorResponse}
    (hshape : c.link.Shape answers) : next.link.Shape (answers ++ event.answer?.toList) := by
  obtain ⟨codec, link⟩ := c
  cases event with
  | item request now =>
      obtain ⟨codec', -, rfl⟩ := Option.map_eq_some_iff.mp hstep
      rw [SocksEvent.answer?, Option.toList_none, List.append_nil]
      cases link <;> cases request <;> exact hshape
  | answer msg now =>
      obtain ⟨link', hlink, rfl⟩ := Option.map_eq_some_iff.mp hstep
      cases link with
      | asked =>
          obtain rfl : answers = [] := hshape
          cases msg with
          | succeeded =>
              cases hlink
              exact ⟨[], rfl⟩
          | failed =>
              cases hlink
              rfl
          | data bytes => cases hlink
          | abort => cases hlink
      | up =>
          obtain ⟨chunks, rfl⟩ := hshape
          cases msg with
          | data bytes =>
              cases hlink
              exact ⟨chunks ++ [bytes], by simp [SocksEvent.answer?]⟩
          | abort =>
              cases hlink
              exact ⟨chunks, rfl⟩
          | succeeded => cases hlink
          | failed => cases hlink
      | unasked => cases hlink
      | refused => cases hlink
      | gone => cases hlink

theorem shape_of_run {final : Conduct} {events : List SocksEvent}
    (hrun : Transition.run step c events = some final) {answers : List ConnectorResponse}
    (hshape : c.link.Shape answers) : final.link.Shape (answers ++ heard events) := by
  induction events generalizing c answers with
  | nil =>
      cases hrun
      rwa [heard, List.filterMap_nil, List.append_nil]
  | cons event rest ih =>
      obtain ⟨middle, hmiddle, hrest⟩ := Transition.run_cons.mp hrun
      have hrun := ih hrest (step_shape hmiddle hshape)
      rw [List.append_assoc] at hrun
      have hheard : heard (event :: rest) = event.answer?.toList ++ heard rest := by
        rw [heard, List.filterMap_cons]
        cases event.answer? <;> rfl
      rwa [hheard]

/-- A session has asked exactly when its decoder has returned the request. -/
def Asks (c : Conduct) : Prop := c.link = .unasked ↔ c.codec ≠ .ready

theorem Asks.step {c next : Conduct} {event : SocksEvent} (hasks : c.Asks)
    (hstep : c.step event = some next) : next.Asks := by
  obtain ⟨codec, link⟩ := c
  cases event with
  | item request now =>
      obtain ⟨codec', hcodec, rfl⟩ := Option.map_eq_some_iff.mp hstep
      cases codec with
      | negotiation =>
          cases request with
          | negotiation greeting =>
              cases hcodec
              obtain rfl : link = .unasked := hasks.mpr (by simp)
              simp [Asks, Link.ask]
          | _ => cases hcodec
      | working =>
          cases request with
          | targetRequest request =>
              cases hcodec
              obtain rfl : link = .unasked := hasks.mpr (by simp)
              simp [Asks, Link.ask]
          | _ => cases hcodec
      | ready =>
          cases request with
          | data bytes =>
              cases hcodec
              have hlink : link ≠ .unasked := fun hlink => hasks.mp hlink rfl
              cases link with
              | unasked => exact absurd rfl hlink
              | _ => exact hasks
          | _ => cases hcodec
  | answer msg now =>
      obtain ⟨link', hlink, rfl⟩ := Option.map_eq_some_iff.mp hstep
      have hheard : link ≠ .unasked ∧ link' ≠ .unasked := by
        cases link <;> cases msg <;> cases hlink <;> simp
      exact ⟨fun hunasked => absurd hunasked hheard.2,
        fun hcodec => absurd (hasks.mpr hcodec) hheard.1⟩

theorem asks_of_run {c : Conduct} {events : List SocksEvent}
    (hrun : Transition.run step start events = some c) : c.Asks := by
  refine Transition.run_invariant Asks (fun hasks hstep => hasks.step hstep) ?_ hrun
  simp [Asks, start]

/-- A connection that has succeeded has not been refused. -/
theorem failed_not_heard {events : List SocksEvent}
    (hrun : Transition.run step start events = some c) (hsucceeded : .succeeded ∈ heard events) :
    .failed ∉ heard events := by
  have hshape := shape_of_run hrun (rfl : start.link.Shape [])
  rw [List.nil_append] at hshape
  cases hlink : c.link with
  | up =>
      rw [hlink] at hshape
      obtain ⟨chunks, hchunks⟩ := hshape
      simp [hchunks]
  | gone =>
      rw [hlink] at hshape
      obtain ⟨chunks, hchunks⟩ := hshape
      simp [hchunks]
  | unasked =>
      rw [hlink] at hshape
      rw [show heard events = [] from hshape] at hsucceeded
      cases hsucceeded
  | asked =>
      rw [hlink] at hshape
      rw [show heard events = [] from hshape] at hsucceeded
      cases hsucceeded
  | refused =>
      rw [hlink] at hshape
      rw [show heard events = [.failed] from hshape] at hsucceeded
      simp at hsucceeded

/-- Behind the end of its connection an application can only send payload. -/
theorem payload_of_gone {final : Conduct} {events : List SocksEvent}
    (hrun : Transition.run step ⟨.ready, .gone⟩ events = some final) :
    ∀ event ∈ events, event.isPayload = true := by
  induction events with
  | nil => exact fun _ hmem => absurd hmem List.not_mem_nil
  | cons event rest ih =>
      obtain ⟨next, hnext, hrest⟩ := Transition.run_cons.mp hrun
      rcases event with ⟨_ | _ | bytes, now⟩ | ⟨msg, now⟩
      · cases hnext
      · cases hnext
      · cases hnext
        exact List.forall_mem_cons.mpr ⟨rfl, ih hrest⟩
      · cases hnext

theorem Admits.of_isPrefix {first second : List SocksEvent} (hadmits : Admits second)
    (hfront : first <+: second) : Admits first := by
  obtain ⟨rest, rfl⟩ := hfront
  rw [Admits, Transition.run_append] at hadmits
  obtain ⟨final, hfinal⟩ := Option.isSome_iff_exists.mp hadmits
  obtain ⟨middle, hmiddle, -⟩ := Option.bind_eq_some_iff.mp hfinal
  exact Option.isSome_iff_exists.mpr ⟨middle, hmiddle⟩

/-- Where an `Abort` comes, the connection has succeeded, and only payload follows. -/
theorem Admits.abort {before after : List SocksEvent} {now : Nat}
    (hadmits : Admits (before ++ .answer .abort now :: after)) :
    .succeeded ∈ heard before ∧ ∀ event ∈ after, event.isPayload = true := by
  rw [Admits, Transition.run_append] at hadmits
  obtain ⟨final, hfinal⟩ := Option.isSome_iff_exists.mp hadmits
  obtain ⟨⟨codec, link⟩, hbefore, hrest⟩ := Option.bind_eq_some_iff.mp hfinal
  obtain ⟨next, hnext, hafter⟩ := Transition.run_cons.mp hrest
  obtain ⟨link', hlink, rfl⟩ := Option.map_eq_some_iff.mp hnext
  cases link with
  | up =>
      cases hlink
      have hshape := shape_of_run hbefore (rfl : start.link.Shape [])
      rw [List.nil_append] at hshape
      obtain ⟨chunks, hchunks⟩ := hshape
      obtain rfl : codec = .ready := by
        by_contra hcodec
        cases (asks_of_run hbefore).mpr hcodec
      exact ⟨by simp [hchunks], payload_of_gone hafter⟩
  | unasked => cases hlink
  | asked => cases hlink
  | refused => cases hlink
  | gone => cases hlink

end Conduct

/-- An entry of the log is an event with its effect. -/
theorem exists_of_log {uuid : UInt16} {events : List SocksEvent} {before after : List Handled}
    {handled : Handled}
    (hlog : events.map (SocksEvent.handled uuid) = before ++ handled :: after) :
    ∃ earlier event later, events = earlier ++ event :: later ∧
      handled = event.handled uuid ∧ before.map Handled.event = earlier := by
  obtain ⟨earlier, rest, rfl, rfl, hrest⟩ := List.map_eq_append_iff.mp hlog
  obtain ⟨event, later, rfl, rfl, -⟩ := List.map_eq_cons_iff.mp hrest
  exact ⟨earlier, event, later, rfl, rfl, by simp [SocksEvent.handled, Function.comp_def]⟩

section Log

variable {uuid : UInt16} {events : List SocksEvent}

theorem countP_asks_le {final : Conduct}
    (hrun : Transition.run Conduct.step Conduct.start events = some final) :
    (events.map (SocksEvent.handled uuid)).countP (·.effect.asks) ≤ 1 := by
  rw [List.countP_map]
  simp only [Function.comp_def, SocksEvent.handled, SocksEvent.asks_effect]
  exact Transition.run_countP_le (fun c : Conduct => c.codec.requestsLeft)
    (fun event => event.command.isSome) Conduct.step_requestsLeft hrun

theorem countP_replies_le {final : Conduct}
    (hrun : Transition.run Conduct.step Conduct.start events = some final) :
    (events.map (SocksEvent.handled uuid)).countP (·.effect.replies) ≤ 1 := by
  rw [List.countP_map]
  exact Transition.run_countP_le (fun c : Conduct => c.link.repliesLeft)
    (fun event => (event.effect uuid).replies) Conduct.step_repliesLeft hrun

/-- Success is reported on hearing `Succeeded`. -/
theorem heard_of_grants {before after : List Handled} {handled : Handled}
    (hlog : events.map (SocksEvent.handled uuid) = before ++ handled :: after)
    (hgrants : handled.effect.grants = true) :
    .succeeded ∈ heard ((before ++ [handled]).map Handled.event) := by
  obtain ⟨earlier, event, later, -, rfl, -⟩ := exists_of_log hlog
  rw [List.map_append, heard, List.filterMap_append]
  exact List.mem_append_right _ (by
    simp [SocksEvent.handled, SocksEvent.answer?_of_grants hgrants])

/-- What is orderly as a whole is orderly up to the end of the session. -/
theorem Orderly.of_isPrefix {first second : List SocksEvent} (horderly : Orderly second)
    (hfront : first <+: second) : Orderly first := by
  obtain ⟨rest, rfl⟩ := hfront
  constructor
  · intro event hevent
    exact horderly.connect event (List.mem_append_left rest hevent)
  · intro before event after hfirst
    refine horderly.patient before event (after ++ rest) ?_
    rw [hfirst, List.append_assoc, List.cons_append]

/-- Behind its end a session is given only payload, for a connection that it had. -/
theorem Orderly.of_untilAbort (horderly : Orderly (untilAbort events))
    (hadmits : Conduct.Admits events) : Orderly events := by
  rcases untilAbort_cases events with hall | ⟨earlier, now, later, rfl, hends⟩
  · rwa [hall] at horderly
  obtain ⟨hsucceeded, hpayload⟩ := hadmits.abort
  rw [hends] at horderly
  constructor
  · intro event hevent command hcommand
    rw [← List.singleton_append, ← List.append_assoc] at hevent
    rcases List.mem_append.mp hevent with hbefore | hbehind
    · exact horderly.connect event hbefore command hcommand
    · have hdata := hpayload event hbehind
      rcases event with ⟨_ | _ | _, now⟩ | ⟨msg, now⟩ <;> cases hcommand
      cases hdata
  · intro before event after hsplit hdata
    rcases List.append_eq_append_iff.mp hsplit with ⟨between, rfl, -⟩ | ⟨between, rfl, hbehind⟩
    · rw [heard_append]
      exact List.mem_append_left _ hsucceeded
    · cases between with
      | nil =>
          -- the event is the end itself
          obtain ⟨rfl, -⟩ := List.cons.inj hbehind
          cases hdata
      | cons first between =>
          obtain ⟨rfl, -⟩ := List.cons.inj hbehind
          exact horderly.patient before event (between ++ [.answer .abort now])
            (by simp) hdata

/-- An orderly application keeps the session to its discipline. -/
theorem Orderly.disciplined (horderly : Orderly events) (hadmits : Conduct.Admits events) :
    Disciplined ((untilAbort events).map (SocksEvent.handled uuid)) := by
  have horderly := horderly.of_isPrefix (untilAbort_isPrefix events)
  have hadmits := hadmits.of_isPrefix (untilAbort_isPrefix events)
  obtain ⟨final, hrun⟩ := Option.isSome_iff_exists.mp hadmits
  refine ⟨countP_asks_le hrun, ?_, fun _ _ _ => heard_of_grants, countP_replies_le hrun, ?_⟩
  · intro handled hhandled hasks
    obtain ⟨event, hevent, rfl⟩ := List.mem_map.mp hhandled
    rw [SocksEvent.handled, event.asks_effect] at hasks
    obtain ⟨command, hcommand⟩ := Option.isSome_iff_exists.mp hasks
    obtain rfl := horderly.connect event hevent command hcommand
    exact hcommand
  · intro before handled after hsplit hforwards
    obtain ⟨earlier, event, later, hevents, rfl, hearlier⟩ := exists_of_log hsplit
    rw [SocksEvent.handled, event.forwards_effect] at hforwards
    have hsucceeded := horderly.patient earlier event later hevents hforwards
    rw [hevents, Transition.run_append] at hrun
    obtain ⟨middle, hmiddle, -⟩ := Option.bind_eq_some_iff.mp hrun
    rw [hearlier]
    exact ⟨hsucceeded, Conduct.failed_not_heard hmiddle hsucceeded, abort_not_heard hevents⟩

/-- What is not orderly passes through the session. -/
theorem Disciplined.orderly
    (hdisciplined : Disciplined (events.map (SocksEvent.handled uuid))) : Orderly events := by
  constructor
  · intro event hevent command hcommand
    have hconnect := hdisciplined.asksConnect (event.handled uuid) (List.mem_map_of_mem hevent)
      (by rw [SocksEvent.handled, event.asks_effect, hcommand]; rfl)
    exact Option.some.inj (hcommand.symm.trans hconnect)
  · rintro before event after rfl hpayload
    have hup := (hdisciplined.forwardsWhileUp (before.map (SocksEvent.handled uuid))
      (event.handled uuid) (after.map (SocksEvent.handled uuid)) (by simp)
      (by rw [SocksEvent.handled, event.forwards_effect, hpayload])).1
    simpa [SocksEvent.handled, Function.comp_def] using hup

end Log

/-- A session keeps its discipline exactly when its application is orderly. What the
application sends behind an `Abort` finds the actor stopped. -/
theorem disciplined_iff (uuid : UInt16) (events : List SocksEvent)
    (hadmits : Conduct.Admits events) :
    (∃ log, (SocksClient.new uuid).log events = some log ∧ Disciplined log) ↔ Orderly events := by
  obtain ⟨final, hrun⟩ := Option.isSome_iff_exists.mp hadmits
  have hlog : (SocksClient.new uuid).log events =
      some ((untilAbort events).map (SocksEvent.handled uuid)) :=
    SocksClient.log_eq (c := Conduct.start) trivial hrun
  rw [hlog]
  constructor
  · rintro ⟨log, heq, hdisciplined⟩
    cases heq
    exact hdisciplined.orderly.of_untilAbort hadmits
  · intro horderly
    exact ⟨_, rfl, horderly.disciplined hadmits⟩

/-! ## Three sessions -/

/-- A session that asks for 127.0.0.1:80 with some command. -/
def asking (command : SocksRequestCommand) : List SocksEvent :=
  [.item (.negotiation ⟨5, 1, [0]⟩) 0,
    .item (.targetRequest ⟨5, command, 0, .ipV4, .ipv4 ⟨0x7f000001⟩, 80⟩) 1]

theorem disciplined_iff_patient :
    (∃ log, (SocksClient.new 5000).log
        (asking .connect ++ [.answer .succeeded 2, .item (.data [71]) 3]) = some log ∧
      Disciplined log) ↔
    Orderly (asking .connect ++ [.answer .succeeded 2, .item (.data [71]) 3]) :=
  disciplined_iff 5000 _ rfl

/-- Payload is forwarded before the connection is there and after it has been
refused, and a `BIND` is asked for like a `CONNECT`. -/
theorem eager_not_disciplined :
    (¬ ∃ log, (SocksClient.new 5000).log (asking .connect ++ [.item (.data [71]) 2]) = some log ∧
      Disciplined log) ∧
    (¬ ∃ log, (SocksClient.new 5000).log
        (asking .connect ++ [.answer .failed 2, .item (.data [71]) 3]) = some log ∧
      Disciplined log) ∧
    ¬ ∃ log, (SocksClient.new 5000).log (asking .bind) = some log ∧ Disciplined log := by
  refine ⟨?_, ?_, ?_⟩
  · rintro ⟨log, hlog, hdisciplined⟩
    cases hlog
    exact absurd (hdisciplined.forwardsWhileUp [_, _] _ [] rfl rfl).1 (by decide)
  · rintro ⟨log, hlog, hdisciplined⟩
    cases hlog
    exact absurd (hdisciplined.forwardsWhileUp [_, _, _] _ [] rfl rfl).1 (by decide)
  · rintro ⟨log, hlog, hdisciplined⟩
    cases hlog
    exact absurd (hdisciplined.asksConnect _ (List.mem_cons_of_mem _ List.mem_cons_self) rfl)
      (by decide)

end JustProxy
