import Mathlib.Data.List.Infix
import JustProxy.Encoders
import JustProxy.System.Agreement
import JustProxy.System.Histories

/-! # What an application reads

The bytes that a session's encoder has written, over a whole run: the answer to
the greeting, one reply to the request, and then what the session's own target
has sent, in order. In a quiet state nothing of it is missing.
-/

namespace JustProxy

open Bytes

/-! ## Bytes of an answer -/

/-- The bytes that an application is sent for an answer. -/
def ConnectorResponse.bytes : ConnectorResponse → List UInt8
  | .succeeded => [5, 0, 0, 3, 3, 49, 50, 51, 0, 0]
  | .failed => [5, 5, 0, 3, 0, 0, 0]
  | .data bytes => bytes
  | .abort => []

/-- The answer to the greeting has been written once the greeting is decoded. -/
def Socks5RequestCodecState.greeted : Socks5RequestCodecState → List UInt8
  | .negotiation => []
  | _ => [5, 0]

/-- Encode some replies one behind the other into one buffer. -/
def Socks5ResponseCodec.encodeAll : List SocksResponse → BytesMut → Option BytesMut
  | [], dst => some dst
  | response :: rest, dst => (encode response dst).bind (encodeAll rest)

/-- The output buffer of a session's writer. -/
def Session.output (session : Session) : Option BytesMut :=
  Socks5ResponseCodec.encodeAll session.written BytesMut.empty

/-- The writer of a session has encoded these bytes. -/
def Session.Outputs (session : Session) (bytes : List UInt8) : Prop :=
  ∃ dst, session.output = some dst ∧ dst.bytes = bytes

theorem Socks5ResponseCodec.encodeAll_written {responses : List SocksResponse}
    (hmatching : ∀ response ∈ responses, response.Matching) (dst : BytesMut) :
    ∃ next, encodeAll responses dst = some next ∧
      next.bytes = dst.bytes ++ responses.flatMap SocksResponse.written := by
  induction responses generalizing dst with
  | nil => exact ⟨dst, rfl, (List.append_nil _).symm⟩
  | cons response rest ih =>
      obtain ⟨hfirst, hrest⟩ := List.forall_mem_cons.mp hmatching
      obtain ⟨middle, hmiddle, hbytes⟩ := SocksResponse.encode_written hfirst dst
      obtain ⟨next, hnext, hall⟩ := ih hrest middle
      refine ⟨next, ?_, ?_⟩
      · rw [encodeAll, hmiddle]
        exact hnext
      · rw [hall, hbytes, List.flatMap_cons, List.append_assoc]

/-- The replies to some events, as bytes. -/
def repliesTo (past : List SocksEvent) : List UInt8 :=
  (past.filterMap SocksEvent.reply).flatMap SocksResponse.written

theorem repliesTo_append (first second : List SocksEvent) :
    repliesTo (first ++ second) = repliesTo first ++ repliesTo second := by
  rw [repliesTo, List.filterMap_append, List.flatMap_append]
  rfl

/-- An answer is written as its bytes. -/
theorem repliesTo_answer (msg : ConnectorResponse) (now : Nat) :
    repliesTo [.answer msg now] = msg.bytes := by
  have hsucceeded : (SocksResponse.targetResponse SocksClient.succeededResponse).written ++ [] =
      ConnectorResponse.succeeded.bytes := by decide
  have hfailed : (SocksResponse.targetResponse SocksClient.failedResponse).written ++ [] =
      ConnectorResponse.failed.bytes := by decide
  cases msg with
  | succeeded => exact hsucceeded
  | failed => exact hfailed
  | data bytes => exact List.append_nil _
  | abort => rfl

theorem SocksEvent.matching_reply {event : SocksEvent} {response : SocksResponse}
    (hreply : event.reply = some response) : response.Matching := by
  rcases event with ⟨_ | _ | _, now⟩ | ⟨_ | _ | _ | _, now⟩ <;> cases hreply <;> trivial

/-- In every order of events that a session may be given, the answer to the greeting
comes first. -/
theorem repliesTo_of_run {past : List SocksEvent} {c : Conduct}
    (hrun : Transition.run Conduct.step Conduct.start past = some c) :
    repliesTo past = c.codec.greeted ++ (heard past).flatMap ConnectorResponse.bytes := by
  refine Transition.run_induction
    (motive := fun (past : List SocksEvent) (c : Conduct) => repliesTo past =
      c.codec.greeted ++ (heard past).flatMap ConnectorResponse.bytes) rfl ?_ hrun
  intro past c event next hpast ih hstep
  have hheard : heard (past ++ [event]) = heard past ++ event.answer?.toList := by
    rw [heard, List.filterMap_append, heard]
    cases event <;> rfl
  rw [repliesTo_append, ih, hheard, List.flatMap_append]
  cases event with
  | answer msg now =>
      obtain ⟨link, -, rfl⟩ := Option.map_eq_some_iff.mp hstep
      rw [repliesTo_answer, List.append_assoc]
      simp [SocksEvent.answer?]
  | item request now =>
      obtain ⟨codec, hcodec, rfl⟩ := Option.map_eq_some_iff.mp hstep
      cases hbefore : c.codec with
      | negotiation =>
          rw [hbefore] at hcodec
          cases request with
          | negotiation greeting =>
              cases hcodec
              -- nothing has been heard before the greeting
              have hunasked : c.link = .unasked :=
                (Conduct.asks_of_run hpast).mpr (by simp [hbefore])
              have hshape := Conduct.shape_of_run hpast (rfl : Conduct.start.link.Shape [])
              rw [hunasked, List.nil_append] at hshape
              rw [show heard past = [] from hshape]
              rfl
          | _ => cases hcodec
      | working =>
          rw [hbefore] at hcodec
          cases request with
          | targetRequest request =>
              cases hcodec
              simp [repliesTo, SocksEvent.reply, SocksEvent.answer?,
                Socks5RequestCodecState.greeted]
          | _ => cases hcodec
      | ready =>
          rw [hbefore] at hcodec
          cases request with
          | data bytes =>
              cases hcodec
              simp [repliesTo, SocksEvent.reply, SocksEvent.answer?,
                Socks5RequestCodecState.greeted]
          | _ => cases hcodec

namespace System

variable {s : System} {index : Nat} {session : Session} {past : List SocksEvent}

/-- Encoding does not fail, and the application reads what the session has heard. -/
theorem Follows.outputs (hfollows : s.Follows index session past) :
    session.Outputs (session.codec.greeted ++ (heard past).flatMap ConnectorResponse.bytes) := by
  obtain ⟨c, hconduct, hcodec, -⟩ := hfollows.conduct
  have hmatching : ∀ response ∈ session.written, response.Matching := by
    intro response hmem
    rw [hfollows.written] at hmem
    obtain ⟨event, -, hreply⟩ := List.mem_filterMap.mp hmem
    exact SocksEvent.matching_reply hreply
  obtain ⟨dst, hdst, hbytes⟩ := Socks5ResponseCodec.encodeAll_written hmatching BytesMut.empty
  refine ⟨dst, hdst, ?_⟩
  calc dst.bytes
      = [] ++ session.written.flatMap SocksResponse.written := hbytes
    _ = repliesTo past := by rw [hfollows.written]; rfl
    _ = _ := by rw [repliesTo_of_run hconduct, hcodec]

/-- The bytes of a granted request: the reply, and what the target has sent. -/
theorem flatMap_granted (chunks : List (List UInt8)) (last : List ConnectorResponse)
    (hlast : last.flatMap ConnectorResponse.bytes = []) :
    (ConnectorResponse.succeeded :: (chunks.map .data ++ last)).flatMap ConnectorResponse.bytes =
      ConnectorResponse.succeeded.bytes ++ chunks.flatten := by
  rw [List.flatMap_cons, List.flatMap_append, hlast, List.append_nil, List.flatMap_map]
  congr 1
  exact List.flatMap_id'

/-! ## At every moment -/

theorem Follows.reads (hfollows : s.Follows index session past) (hisolated : s.relay.Isolated)
    (hlives : (s.relay.track index).Lives) (hsession : s.sessions[index]? = some session) :
    ∃ bytes, session.Outputs bytes ∧
      (bytes <+: [5, 0] ++ ConnectorResponse.failed.bytes ∨
        ∃ (opened : Nat) (target : Target), s.targets[opened]? = some target ∧
          target.openedFor = some index ∧
          bytes <+: [5, 0] ++ (ConnectorResponse.succeeded.bytes ++ target.chunks.flatten)) := by
  refine ⟨_, hfollows.outputs, ?_⟩
  obtain ⟨unheard, hreceived, -⟩ := hfollows.told
  have hheard : heard past <+: s.received index := ⟨unheard, hreceived.symm⟩
  by_cases hgreeted : session.codec = .negotiation
  · -- before the greeting nothing has been heard
    have hnone : s.received index = [] := by
      by_contra hsome
      have hready := ready_of_received hisolated hlives hsession hsome
      rw [hgreeted] at hready
      cases hready
    rw [hnone] at hheard
    rw [List.prefix_nil.mp hheard, hgreeted]
    exact .inl List.nil_prefix
  · have hfive : session.codec.greeted = [5, 0] := by
      cases hcodec : session.codec with
      | negotiation => exact absurd hcodec hgreeted
      | _ => rfl
    have htold : s.received index <+: (s.relay.track index).flow.map Prod.fst := by
      rw [received_eq hisolated, Track.flow, List.map_append]
      exact List.prefix_append _ _
    rw [hfive]
    rcases hlives.answers with hrefused | ⟨opened, reading, chunks, htargets, hgranted⟩
    · have hbytes := List.IsPrefix.flatMap ((hheard.trans htold).trans hrefused)
        ConnectorResponse.bytes
      exact .inl ((List.prefix_append_right_inj _).mpr hbytes)
    · have hshare : (s.relay.track index).targets opened = some (reading, chunks) := by
        simp [htargets, Track.single]
      obtain ⟨target, htarget, hopened, rfl⟩ := Relay.track_targets_eq_some hshare
      have hbytes := List.IsPrefix.flatMap ((hheard.trans htold).trans hgranted)
        ConnectorResponse.bytes
      rw [flatMap_granted _ _ rfl] at hbytes
      exact .inr ⟨opened, target, htarget, hopened, (List.prefix_append_right_inj _).mpr hbytes⟩

/-- Downstream, end to end. In every run in which a port only comes back to a quiet
connection, an application reads the beginning of a refusal, or of a grant and the
bytes read from the target that was opened for it. -/
theorem outputs_prefix (events : List Event) (s : System)
    (hclean : Transition.Meets System.step CleanReuse .init events)
    (hrun : System.run events = some s) (index : Nat) (session : Session)
    (hsession : s.sessions[index]? = some session) :
    ∃ bytes, session.Outputs bytes ∧
      (bytes <+: [5, 0] ++ ConnectorResponse.failed.bytes ∨
        ∃ (opened : Nat) (target : Target), s.targets[opened]? = some target ∧
          target.openedFor = some index ∧
          bytes <+: [5, 0] ++ (ConnectorResponse.succeeded.bytes ++ target.chunks.flatten)) := by
  have hfollows := follows_of_run hclean hrun hsession
  exact hfollows.reads (isolated_of_clean hclean hrun) (lives hrun index) hsession

/-- Both answers to the second application are handled. -/
def refusedAndWritten : List Event := refusedAndRead ++ [.socksMail 1, .socksMail 1]

theorem outputs_prefix_two : ∃ s session, System.run refusedAndWritten = some s ∧
    s.sessions[1]? = some session ∧ session.written.length = 3 ∧
    ∃ bytes, session.Outputs bytes ∧
      (bytes <+: [5, 0] ++ ConnectorResponse.failed.bytes ∨
        ∃ (opened : Nat) (target : Target), s.targets[opened]? = some target ∧
          target.openedFor = some 1 ∧
          bytes <+: [5, 0] ++ (ConnectorResponse.succeeded.bytes ++ target.chunks.flatten)) :=
  ⟨_, _, rfl, rfl, rfl, outputs_prefix refusedAndWritten _
    (meets_cleanReuse (by decide) (by decide)) rfl 1 _ rfl⟩

/-! ## Quiet states -/

/-- What is told of a connection that nothing is on its way for. -/
theorem settled_phase {targets : Nat → Option (Bool × List (List UInt8))} {flow : List Answer}
    (hphase : Track.Phase true 0 0 targets flow) :
    (targets = fun _ => none) ∧ flow = [(.failed, none)] ∨
      ∃ opened reading chunks, targets = Track.single opened reading chunks ∧
        (flow = Track.established opened chunks ∨
          reading = false ∧ flow = Track.established opened chunks ++ [(.abort, some opened)]) := by
  cases hphase with
  | refused => exact .inl ⟨rfl, rfl⟩
  | streaming opened chunks => exact .inr ⟨opened, true, chunks, rfl, .inl rfl⟩
  | ended opened chunks => exact .inr ⟨opened, false, chunks, rfl, .inl rfl⟩
  | dead opened chunks => exact .inr ⟨opened, false, chunks, rfl, .inr ⟨rfl, rfl⟩⟩

/-- The answer to a request is complete: it was refused and has no target, or the
session was told everything that was read from its target, and of the end if the
reader has failed. As long as the session runs, all of it has been written. -/
def Answered (s : System) (index : Nat) (session : Session) : Prop :=
  (s.received index = [.failed] ∧ (∀ target ∈ s.targets, target.openedFor ≠ some index) ∧
      (session.running = true →
        session.Outputs ([5, 0] ++ ConnectorResponse.failed.bytes))) ∨
    ∃ (opened : Nat) (target : Target), s.targets[opened]? = some target ∧
      target.openedFor = some index ∧
      (s.received index = .succeeded :: target.chunks.map .data ∧
          (session.running = true → session.Outputs
            ([5, 0] ++ (ConnectorResponse.succeeded.bytes ++ target.chunks.flatten))) ∨
        s.received index = .succeeded :: (target.chunks.map .data ++ [.abort]) ∧
          target.reading = false ∧ session.running = false)

theorem phase_of_quiescent (hquiescent : s.Quiescent) (hlives : (s.relay.track index).Lives)
    (hasked : (s.relay.track index).asked = true) :
    Track.Phase true 0 0 (s.relay.track index).targets (s.relay.track index).delivered := by
  have hrequests : (s.relay.track index).requests = 0 := by
    simp [Relay.track, relay, requests, hquiescent.upstream, hquiescent.clientMail]
  have hpending : (s.relay.track index).pending = 0 := by
    simp [Relay.track, relay, hquiescent.resolving]
  have hflight : (s.relay.track index).inFlight = [] := by
    simp [Relay.track, relay, responses, hquiescent.downstream, hquiescent.outQueue,
      hquiescent.serverMail]
  rw [Track.Lives, hasked, hrequests, hpending, Track.flow, hflight, List.append_nil] at hlives
  exact hlives

/-- In a quiet state a session that runs has heard everything it was told. -/
theorem Follows.heard_of_quiescent (hfollows : s.Follows index session past)
    (hquiescent : s.Quiescent) (hsession : s.sessions[index]? = some session)
    (hrunning : session.running = true) : heard past = s.received index := by
  obtain ⟨unheard, hreceived, hunheard⟩ := hfollows.told
  rw [hreceived, hunheard hrunning,
    hquiescent.inboxes session (List.mem_of_getElem? hsession) hrunning, List.append_nil]

/-- In a quiet state the answer to a session's request is complete. -/
theorem Follows.answered (hfollows : s.Follows index session past)
    (hisolated : s.relay.Isolated) (hlives : (s.relay.track index).Lives)
    (hquiescent : s.Quiescent) (hsession : s.sessions[index]? = some session)
    (hasked : session.codec = .ready) : s.Answered index session := by
  have hreceived := received_eq hisolated index
  have hphase := phase_of_quiescent hquiescent hlives
    (by rw [track_asked hsession, decide_eq_true hasked])
  have houtputs := hfollows.outputs
  have hall := hfollows.heard_of_quiescent hquiescent hsession
  have hfive : session.codec.greeted = [5, 0] := by rw [hasked]; rfl
  rw [hfive] at houtputs
  have htold (opened : Nat) (chunks : List (List UInt8)) :
      (Track.established opened chunks).map Prod.fst = .succeeded :: chunks.map .data := by
    simp [Track.established]
  rcases settled_phase hphase with ⟨htargets, hflow⟩ |
    ⟨opened, reading, chunks, htargets, hflow⟩
  · rw [hflow] at hreceived
    refine .inl ⟨hreceived, fun target hmem hopened => ?_, fun hrunning => ?_⟩
    · obtain ⟨other, hother⟩ := List.mem_iff_getElem?.mp hmem
      have hshare := Relay.track_target (r := s.relay) hother hopened
      rw [htargets] at hshare
      cases hshare
    · rw [hall hrunning, hreceived] at houtputs
      exact houtputs
  · have hshare : (s.relay.track index).targets opened = some (reading, chunks) := by
      simp [htargets, Track.single]
    obtain ⟨target, htarget, hopened, rfl⟩ := Relay.track_targets_eq_some hshare
    refine .inr ⟨opened, target, htarget, hopened, ?_⟩
    rcases hflow with hflow | ⟨rfl, hflow⟩
    · rw [hflow, htold] at hreceived
      refine .inl ⟨hreceived, fun hrunning => ?_⟩
      have hbytes := flatMap_granted target.chunks [] rfl
      rw [List.append_nil] at hbytes
      rw [hall hrunning, hreceived, hbytes] at houtputs
      exact houtputs
    · rw [hflow, List.map_append, htold] at hreceived
      refine .inr ⟨hreceived, ?_, ?_⟩
      · have hsame := Relay.track_target (r := s.relay) htarget hopened
        rw [hshare, Option.some.injEq, Prod.mk.injEq] at hsame
        exact hsame.1.symm
      · -- a session that has heard of the end has stopped
        cases hrunning : session.running with
        | false => rfl
        | true =>
            refine absurd ?_ (hfollows.abort_not_heard hrunning)
            rw [hall hrunning, hreceived]
            simp

end System

end JustProxy
