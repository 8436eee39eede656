import JustProxy.System.RoundTripTime
import JustProxy.System.Sockets

/-! # What a session reports

A stopped session logs its target, how many bytes it has sent and received, and how long
its connect took. The log agrees with what has passed through the session, in every run,
whatever stopped the session.
-/

namespace JustProxy

/-- The payload that a reply carries. -/
def SocksResponse.payload : SocksResponse → Option (List UInt8)
  | .data bytes => some bytes
  | _ => none

namespace SocksEvent

/-- When an item asks for a target, and for which. -/
def request : SocksEvent → Option (Nat × String)
  | .item (.targetRequest request) now => some (now, request.toAddressString)
  | _ => none

/-- When the answer to a connect comes. -/
def answered : SocksEvent → Option Nat
  | .answer .succeeded now => some now
  | .answer .failed now => some now
  | _ => none

end SocksEvent

/-! ## One session -/

namespace SocksClient

/-- What a session has on record of its requests. It asks at most once, since its decoder
does not return a second request. -/
inductive Requested (client : SocksClient) (codec : Socks5RequestCodecState) (clock : Nat) :
    List (Nat × String) → Prop where
  | unasked (hrecord : client.connectRequestRecord = none) (htarget : client.targetAddress = none) :
      Requested client codec clock []
  | asked {start : Nat} {address : String} (hcodec : codec = .ready) (hstart : start ≤ clock)
      (hrecord : client.connectRequestRecord = some start)
      (htarget : client.targetAddress = some address) :
      Requested client codec clock [(start, address)]

/-- How long the connect of a session took, by its requests and by when it was answered.
An answer without a request ends the session in a panic. -/
inductive ConnectTime (running : Bool) : List (Nat × String) → List Nat → Option Nat → Prop where
  | pending {requests : List (Nat × String)} : ConnectTime running requests [] none
  | panicked {answers : List Nat} (hrunning : running = false) : ConnectTime running [] answers none
  | settled {start answered : Nat} {address : String} {answers : List Nat}
      (hstart : start ≤ answered) :
      ConnectTime running [(start, address)] (answers ++ [answered]) (some (answered - start))

variable {client client' : SocksClient} {codec codec' : Socks5RequestCodecState}
  {requests : List (Nat × String)} {answers : List Nat} {rtt : Option Nat} {running : Bool}
  {now clock : Nat}

theorem Requested.keep (hrequested : client.Requested codec now requests) (hclock : now ≤ clock)
    (hcodec : codec = .ready → codec' = .ready)
    (hrecord : client'.connectRequestRecord = client.connectRequestRecord)
    (htarget : client'.targetAddress = client.targetAddress) :
    client'.Requested codec' clock requests := by
  cases hrequested with
  | unasked hnone hnowhere => exact .unasked (hrecord.trans hnone) (htarget.trans hnowhere)
  | asked hready hstart hsome haddress =>
      exact .asked (hcodec hready) (hstart.trans hclock) (hrecord.trans hsome)
        (htarget.trans haddress)

/-- Before its decoder is ready, a session has not asked. -/
theorem Requested.eq_nil (hrequested : client.Requested codec clock requests)
    (hcodec : codec ≠ .ready) : requests = [] := by
  cases hrequested with
  | unasked hrecord htarget => rfl
  | asked hready hstart hrecord htarget => exact absurd hready hcodec

/-- Only a session that has not asked panics at an answer. -/
theorem Requested.of_panic (hrequested : client.Requested codec clock requests)
    {msg : ConnectorResponse} (hhandle : client.handleConnectorResponse msg now = none) :
    requests = [] := by
  cases hrequested with
  | unasked hrecord htarget => rfl
  | asked hcodec hstart hrecord htarget =>
      cases msg <;> simp [handleConnectorResponse, hrecord, htarget] at hhandle

/-- A session that goes on, or stops, keeps its time. -/
theorem ConnectTime.goesOn {running' : Bool}
    (htimed : ConnectTime running requests answers rtt)
    (hrunning : running' = true → running = true) :
    ConnectTime running' requests answers rtt := by
  cases htimed with
  | pending => exact .pending
  | panicked hstopped =>
      refine .panicked (Bool.eq_false_iff.mpr fun hrunning' => ?_)
      rw [hrunning hrunning'] at hstopped
      cases hstopped
  | settled hstart => exact .settled hstart

/-- A session that runs without a request has not been timed. -/
theorem ConnectTime.of_unasked (htimed : ConnectTime true [] answers rtt) :
    answers = [] ∧ rtt = none := by
  cases htimed with
  | pending => exact ⟨rfl, rfl⟩
  | panicked hrunning => cases hrunning

theorem ConnectTime.rtt_of_unasked (htimed : ConnectTime running [] answers rtt) :
    rtt = none := by
  cases htimed with
  | pending => rfl
  | panicked hrunning => rfl

end SocksClient

/-- The log of a session agrees with what it has handled and written. -/
structure Session.Accounts (session : Session) (past : List SocksEvent) (clock : Nat) : Prop where
  sendBytes : session.client.sendBytes =
    UInt64.ofNat (past.filterMap SocksEvent.payload).flatten.length
  recvBytes : session.client.recvBytes =
    UInt64.ofNat (session.written.filterMap SocksResponse.payload).flatten.length
  requested : session.client.Requested session.codec clock (past.filterMap SocksEvent.request)
  timed : SocksClient.ConnectTime session.running (past.filterMap SocksEvent.request)
    (past.filterMap SocksEvent.answered) session.client.connectRtt

namespace Session

open SocksClient

variable {session session' : Session} {past : List SocksEvent} {now clock : Nat}

/-- What a session has on record of its request stays as it is; the session may stop. -/
structure KeepsRecord (session session' : Session) : Prop where
  codec : session.codec = .ready → session'.codec = .ready
  record : session'.client.connectRequestRecord = session.client.connectRequestRecord
  target : session'.client.targetAddress = session.client.targetAddress
  rtt : session'.client.connectRtt = session.client.connectRtt
  running : session'.running = true → session.running = true

theorem KeepsRecord.refl (session : Session) : session.KeepsRecord session :=
  ⟨id, rfl, rfl, rfl, id⟩

theorem KeepsRecord.stopped (session : Session) :
    session.KeepsRecord { session with running := false } where
  codec := id
  record := rfl
  target := rfl
  rtt := rfl
  running hrunning := absurd hrunning Bool.false_ne_true

theorem KeepsRecord.requested (hkeeps : session.KeepsRecord session') (hclock : now ≤ clock)
    {requests : List (Nat × String)}
    (hrequested : session.client.Requested session.codec now requests) :
    session'.client.Requested session'.codec clock requests :=
  hrequested.keep hclock hkeeps.codec hkeeps.record hkeeps.target

theorem KeepsRecord.timed (hkeeps : session.KeepsRecord session')
    {requests : List (Nat × String)} {answers : List Nat}
    (htimed : ConnectTime session.running requests answers session.client.connectRtt) :
    ConnectTime session'.running requests answers session'.client.connectRtt := by
  rw [hkeeps.rtt]
  exact htimed.goesOn hkeeps.running

/-- No bytes leave a counter as it is. -/
theorem counts_nothing {pieces : List (List UInt8)} (hnone : pieces = []) (count : UInt64) :
    count = count + UInt64.ofNat pieces.flatten.length := by
  rw [hnone]
  exact (UInt64.add_zero count).symm

/-- A session that handles nothing, whether it goes on or stops, keeps its log. -/
theorem Accounts.keep (haccounts : session.Accounts past now) (hclock : now ≤ clock)
    (hkeeps : session.KeepsRecord session') (hsend : session'.client.sendBytes =
      session.client.sendBytes) (hrecv : session'.client.recvBytes = session.client.recvBytes)
    (hwritten : session'.written = session.written) : session'.Accounts past clock where
  sendBytes := hsend.trans haccounts.sendBytes
  recvBytes := by
    rw [hrecv, hwritten]
    exact haccounts.recvBytes
  requested := hkeeps.requested hclock haccounts.requested
  timed := hkeeps.timed haccounts.timed

/-- What an event adds to the log of a session. -/
theorem Accounts.extend (haccounts : session.Accounts past now) {event : SocksEvent}
    {replies : List SocksResponse}
    (hwritten : session'.written = session.written ++ replies)
    (hsend : session'.client.sendBytes = session.client.sendBytes +
      UInt64.ofNat ([event].filterMap SocksEvent.payload).flatten.length)
    (hrecv : session'.client.recvBytes = session.client.recvBytes +
      UInt64.ofNat (replies.filterMap SocksResponse.payload).flatten.length)
    (hrequested : session'.client.Requested session'.codec clock
      (past.filterMap SocksEvent.request ++ [event].filterMap SocksEvent.request))
    (htimed : ConnectTime session'.running
      (past.filterMap SocksEvent.request ++ [event].filterMap SocksEvent.request)
      (past.filterMap SocksEvent.answered ++ [event].filterMap SocksEvent.answered)
      session'.client.connectRtt) :
    session'.Accounts (past ++ [event]) clock where
  sendBytes := by
    rw [hsend, haccounts.sendBytes, List.filterMap_append, List.flatten_append,
      List.length_append, UInt64.ofNat_add]
  recvBytes := by
    rw [hrecv, haccounts.recvBytes, hwritten, List.filterMap_append, List.flatten_append,
      List.length_append, UInt64.ofNat_add]
  requested := by rwa [List.filterMap_append]
  timed := by rwa [List.filterMap_append, List.filterMap_append]

/-- An event that neither asks for a target nor answers a connect leaves the record as it
is. -/
theorem Accounts.extend_traffic (haccounts : session.Accounts past now) (hclock : now ≤ clock)
    {event : SocksEvent} {replies : List SocksResponse} (hrequest : event.request = none)
    (hanswered : event.answered = none) (hkeeps : session.KeepsRecord session')
    (hwritten : session'.written = session.written ++ replies)
    (hsend : session'.client.sendBytes = session.client.sendBytes +
      UInt64.ofNat ([event].filterMap SocksEvent.payload).flatten.length)
    (hrecv : session'.client.recvBytes = session.client.recvBytes +
      UInt64.ofNat (replies.filterMap SocksResponse.payload).flatten.length) :
    session'.Accounts (past ++ [event]) clock := by
  have hrequests : [event].filterMap SocksEvent.request = [] :=
    List.filterMap_cons_none hrequest
  have hanswers : [event].filterMap SocksEvent.answered = [] :=
    List.filterMap_cons_none hanswered
  apply haccounts.extend hwritten hsend hrecv
  · rw [hrequests, List.append_nil]
    exact hkeeps.requested hclock haccounts.requested
  · rw [hrequests, hanswers, List.append_nil, List.append_nil]
    exact hkeeps.timed haccounts.timed

/-- What the decoder returns goes on record. -/
theorem Accounts.item (haccounts : session.Accounts past now) (hclock : now ≤ clock)
    (hrunning : session.running = true) {item : SocksRequest} {codec : Socks5RequestCodecState}
    {rest : List UInt8}
    (hdecode : Socks5RequestCodec.decode session.codec session.buffer = (.item item, codec, rest)) :
    (after { session with
        client := (session.client.handleSocksRequest item now).1
        codec := codec
        buffer := rest } (session.client.handleSocksRequest item now).2).Accounts
      (past ++ [.item item now]) clock := by
  rcases Socks5RequestCodec.decode_item hdecode with ⟨hcodec, rfl, greeting, rfl⟩ |
    ⟨hcodec, rfl, request, rfl⟩ | ⟨hcodec, rfl, bytes, rfl⟩
  · have hwaits : session.codec ≠ .ready := by simp [hcodec]
    refine haccounts.extend_traffic hclock rfl rfl ?_ rfl (counts_nothing rfl _)
      (counts_nothing rfl _)
    exact ⟨fun hready => absurd hready hwaits, rfl, rfl, rfl, id⟩
  · -- the request is the first one, and nothing has answered it yet
    have hnone : past.filterMap SocksEvent.request = [] :=
      haccounts.requested.eq_nil (by simp [hcodec])
    have htimed := haccounts.timed
    rw [hnone, hrunning] at htimed
    obtain ⟨hanswers, hrtt⟩ := htimed.of_unasked
    refine haccounts.extend (List.append_nil _).symm (counts_nothing rfl _)
      (counts_nothing rfl _) ?_ ?_
    · rw [hnone]
      exact .asked rfl hclock rfl rfl
    · rw [hnone, hanswers, client_after]
      exact hrtt.symm ▸ .pending
  · refine haccounts.extend_traffic hclock rfl rfl ?_ (List.append_nil _).symm ?_
      (counts_nothing rfl _)
    · exact ⟨fun _ => rfl, rfl, rfl, rfl, id⟩
    · have hpayload : [SocksEvent.item (.data bytes) now].filterMap SocksEvent.payload =
          [bytes] := rfl
      rw [hpayload, List.flatten_singleton]
      rfl

/-- An answer to a connect settles its time. -/
theorem Accounts.settle (haccounts : session.Accounts past now) (hclock : now ≤ clock)
    {msg : ConnectorResponse} (hanswered : (SocksEvent.answer msg now).answered = some now)
    {start : Nat} (hrecord : session.client.connectRequestRecord = some start)
    {response : SocksResponse} (hresponse : response.payload = none)
    (rest : List ConnectorResponse) :
    (after { session with
        client := { session.client with connectRtt := some (now - start) }
        inbox := rest } (.write response)).Accounts (past ++ [.answer msg now]) clock := by
  have hrequest : [SocksEvent.answer msg now].filterMap SocksEvent.request = [] := rfl
  have hanswers : [SocksEvent.answer msg now].filterMap SocksEvent.answered = [now] :=
    List.filterMap_cons_some hanswered
  have hrequested := haccounts.requested
  refine haccounts.extend rfl (counts_nothing rfl _)
    (counts_nothing (List.filterMap_cons_none hresponse) _) ?_ ?_
  · rw [hrequest, List.append_nil]
    exact hrequested.keep hclock id rfl rfl
  · rw [hrequest, hanswers, List.append_nil]
    generalize past.filterMap SocksEvent.request = requests at hrequested
    cases hrequested with
    | unasked hnone htarget =>
        rw [hrecord] at hnone
        cases hnone
    | asked hready hstart hsome htarget =>
        obtain rfl := Option.some.inj (hrecord.symm.trans hsome)
        exact .settled hstart

/-- What the dispatcher tells goes on record. -/
theorem Accounts.answer (haccounts : session.Accounts past now) (hclock : now ≤ clock)
    {msg : ConnectorResponse} {rest : List ConnectorResponse} {client : SocksClient}
    {effect : SocksEffect}
    (hhandle : session.client.handleConnectorResponse msg now = some (client, effect)) :
    (after { session with client := client, inbox := rest } effect).Accounts
      (past ++ [.answer msg now]) clock := by
  cases msg with
  | succeeded =>
      obtain ⟨start, hrecord, heq⟩ := Option.bind_eq_some_iff.mp hhandle
      cases heq
      exact haccounts.settle hclock rfl hrecord rfl rest
  | failed =>
      obtain ⟨start, hrecord, hrest⟩ := Option.bind_eq_some_iff.mp hhandle
      obtain ⟨address, -, heq⟩ := Option.bind_eq_some_iff.mp hrest
      cases heq
      exact haccounts.settle hclock rfl hrecord rfl rest
  | data bytes =>
      cases hhandle
      refine haccounts.extend_traffic hclock rfl rfl ?_ rfl (counts_nothing rfl _) ?_
      · exact ⟨id, rfl, rfl, rfl, id⟩
      · have hpayload : [SocksResponse.data bytes].filterMap SocksResponse.payload = [bytes] :=
          rfl
        rw [hpayload, List.flatten_singleton]
        rfl
  | abort =>
      cases hhandle
      refine haccounts.extend_traffic hclock rfl rfl ?_ (List.append_nil _).symm
        (counts_nothing rfl _) (counts_nothing rfl _)
      exact ⟨id, rfl, rfl, rfl, fun hrunning => absurd hrunning Bool.false_ne_true⟩

/-- Only the answer to a connect that was never asked for makes the session panic. -/
theorem Accounts.panic (haccounts : session.Accounts past now) (hclock : now ≤ clock)
    {msg : ConnectorResponse} (hhandle : session.client.handleConnectorResponse msg now = none) :
    Accounts { session with running := false } (past ++ [.answer msg now]) clock := by
  have hnone : past.filterMap SocksEvent.request = [] :=
    haccounts.requested.of_panic hhandle
  have htimed := haccounts.timed
  rw [hnone] at htimed
  refine haccounts.extend (List.append_nil _).symm (counts_nothing rfl _)
    (counts_nothing rfl _) ?_ ?_
  · exact (List.append_nil _).symm ▸ haccounts.requested.keep hclock id rfl rfl
  · rw [hnone]
    exact htimed.rtt_of_unasked.symm ▸ .panicked rfl

theorem Accounts.changes (haccounts : session.Accounts past now) (hclock : now ≤ clock)
    {bytes : List UInt8} {events : List SocksEvent} {answers : List ConnectorResponse}
    (hchanges : session.Changes now bytes events answers session') :
    session'.Accounts (past ++ events) clock := by
  cases hchanges with
  | stay =>
      rw [List.append_nil]
      exact haccounts.keep hclock (.refl _) rfl rfl rfl
  | told answer =>
      rw [List.append_nil, push]
      split
      · exact haccounts.keep hclock ⟨id, rfl, rfl, rfl, id⟩ rfl rfl rfl
      · exact haccounts.keep hclock (.refl _) rfl rfl rfl
  | bytes bytes hrunning =>
      rw [List.append_nil]
      exact haccounts.keep hclock ⟨id, rfl, rfl, rfl, id⟩ rfl rfl rfl
  | item hrunning hdecode => exact haccounts.item hclock hrunning hdecode
  | answer hrunning hinbox hhandle => exact haccounts.answer hclock hhandle
  | panic hrunning hinbox hhandle =>
      exact haccounts.panic hclock hhandle
  | stop hrunning =>
      rw [List.append_nil]
      exact haccounts.keep hclock (.stopped _) rfl rfl rfl

end Session

/-! ## Runs -/

namespace System

open ProxyClient

variable {s : System}

end System

end JustProxy
