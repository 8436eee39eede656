import JustProxy.Component.Server

/-! # Bytes to a target

What the target socket of an established connection has taken after a sequence
of `Data` requests for it. The actor has no place to keep payload: a byte that a
write does not take is gone.
-/

namespace JustProxy

namespace ProxyClient

variable {Writer : Type} [DecidableEq Writer]

/-- One `Data` request for a connection, with the answer of the socket's `write`. -/
structure UpstreamWrite where
  data : List UInt8
  result : WriteResult
  deriving DecidableEq

/-- The bytes that a writer takes in some effects. -/
def taken (writer : Writer) : List (ServerEffect Writer) → List UInt8
  | [] => []
  | .write conn bytes :: rest => (if conn = writer then bytes else []) ++ taken writer rest
  | .send _ :: rest => taken writer rest
  | .resolve _ _ :: rest => taken writer rest

/-- The bytes that the writer has taken after some requests, which end early
when the actor panics. -/
def socketBytes (uuid : UInt16) (writer : Writer) :
    ProxyClient Writer → List UpstreamWrite → List UInt8
  | _, [] => []
  | self, write :: rest =>
      match self.handleProxyRequest (.new uuid (.data write.data)) write.result with
      | none => []
      | some (self, effects) => taken writer effects ++ socketBytes uuid writer self rest

/-- One of the writes that were made has failed hard. -/
def HardError (uuid : UInt16) : ProxyClient Writer → List UpstreamWrite → Prop
  | _, [] => False
  | self, write :: rest =>
      match self.handleProxyRequest (.new uuid (.data write.data)) write.result with
      | none => False
      | some (self, _) => write.result = .hardError ∨ HardError uuid self rest

/-- Upstream byte fidelity: at every moment the socket has taken a prefix of the
payloads so far, and all of them unless there was a hard error. -/
def UpstreamFaithful (self : ProxyClient Writer) (uuid : UInt16) (writer : Writer)
    (writes : List UpstreamWrite) : Prop :=
  ∀ handled later, writes = handled ++ later →
    socketBytes uuid writer self handled <+: (handled.map UpstreamWrite.data).flatten ∧
    (¬ HardError uuid self handled →
      socketBytes uuid writer self handled = (handled.map UpstreamWrite.data).flatten)

/-- Up to the first hard error every write takes its whole payload; a refused
write has no payload, and no payload follows it. -/
def KeepsUp : List UpstreamWrite → Prop
  | [] => True
  | ⟨data, .accepted count⟩ :: rest => data.length ≤ count ∧ KeepsUp rest
  | ⟨data, .wouldBlock⟩ :: rest => data = [] ∧ (rest.map UpstreamWrite.data).flatten = []
  | ⟨_, .hardError⟩ :: _ => True

/-! ## Single requests -/

/-- Without an entry nothing more is written. -/
theorem socketBytes_of_none {self : ProxyClient Writer} {uuid : UInt16} (writer : Writer)
    (hconn : self.connections uuid = none) (writes : List UpstreamWrite) :
    socketBytes uuid writer self writes = [] ∧ ¬ HardError uuid self writes := by
  cases writes with
  | nil => exact ⟨rfl, id⟩
  | cons write rest => simp [socketBytes, HardError, handleProxyRequest_data_none hconn]

section Established

variable {self : ProxyClient Writer} {uuid : UInt16} {writer : Writer}
  (hconn : self.connections uuid = some writer)
include hconn

theorem socketBytes_cons (write : UpstreamWrite) (rest : List UpstreamWrite) :
    socketBytes uuid writer self (write :: rest) = write.result.taken write.data ++
      socketBytes uuid writer
        (if write.result.isErr then self.removeConnection uuid else self) rest := by
  simp [socketBytes, handleProxyRequest_data hconn, taken]

omit [DecidableEq Writer] in
theorem hardError_cons (write : UpstreamWrite) (rest : List UpstreamWrite) :
    HardError uuid self (write :: rest) ↔ write.result = .hardError ∨
      HardError uuid (if write.result.isErr then self.removeConnection uuid else self) rest := by
  simp [HardError, handleProxyRequest_data hconn]

/-- A write that is taken in full leaves the rest of the requests to look at. -/
theorem upstreamFaithful_accepted (data : List UInt8) (count : Nat)
    (rest : List UpstreamWrite) :
    UpstreamFaithful self uuid writer (⟨data, .accepted count⟩ :: rest) ↔
      data.length ≤ count ∧ UpstreamFaithful self uuid writer rest := by
  have hbytes (handled : List UpstreamWrite) :
      socketBytes uuid writer self (⟨data, .accepted count⟩ :: handled) =
        data.take count ++ socketBytes uuid writer self handled :=
    socketBytes_cons hconn _ _
  have herror (handled : List UpstreamWrite) :
      HardError uuid self (⟨data, .accepted count⟩ :: handled) ↔ HardError uuid self handled := by
    simp [hardError_cons hconn, WriteResult.isErr]
  constructor
  · intro hfaithful
    have hfirst := (hfaithful [⟨data, .accepted count⟩] rest rfl).2 ((herror []).mp · )
    -- the moment right behind this write already decides whether it was whole
    have hwhole : data.length ≤ count := by
      rw [hbytes, List.map_singleton, List.flatten_singleton] at hfirst
      have hlength := congrArg List.length hfirst
      simp only [socketBytes, List.append_nil, List.length_take] at hlength
      omega
    refine ⟨hwhole, ?_⟩
    rintro handled later rfl
    have hmoment := hfaithful (⟨data, .accepted count⟩ :: handled) later rfl
    rw [hbytes, herror, List.take_of_length_le hwhole, List.map_cons, List.flatten_cons] at hmoment
    exact ⟨(List.prefix_append_right_inj data).mp hmoment.1,
      fun hnone => List.append_cancel_left (hmoment.2 hnone)⟩
  · rintro ⟨hwhole, hfaithful⟩ handled later hsplit
    cases handled with
    | nil => simp [socketBytes]
    | cons write handled =>
        obtain ⟨rfl, hrest⟩ := List.cons.inj hsplit
        have hmoment := hfaithful handled later hrest
        rw [hbytes, herror, List.take_of_length_le hwhole, List.map_cons, List.flatten_cons]
        exact ⟨(List.prefix_append_right_inj data).mpr hmoment.1,
          fun hnone => congrArg (data ++ ·) (hmoment.2 hnone)⟩

/-- After a refused write nothing is written, and nothing may be lost. -/
theorem upstreamFaithful_wouldBlock (data : List UInt8) (rest : List UpstreamWrite) :
    UpstreamFaithful self uuid writer (⟨data, .wouldBlock⟩ :: rest) ↔
      data = [] ∧ (rest.map UpstreamWrite.data).flatten = [] := by
  have hgone := socketBytes_of_none writer (connections_removeConnection self uuid)
  have hbytes (handled : List UpstreamWrite) :
      socketBytes uuid writer self (⟨data, .wouldBlock⟩ :: handled) = [] := by
    simp [socketBytes_cons hconn, WriteResult.taken, WriteResult.isErr, hgone]
  have herror (handled : List UpstreamWrite) :
      ¬ HardError uuid self (⟨data, .wouldBlock⟩ :: handled) := by
    simp [hardError_cons hconn, WriteResult.isErr, hgone]
  constructor
  · intro hfaithful
    have hall := (hfaithful _ [] (List.append_nil _).symm).2 (herror rest)
    rw [hbytes, List.map_cons, List.flatten_cons] at hall
    exact List.append_eq_nil_iff.mp hall.symm
  · rintro ⟨rfl, hrest⟩ handled later hsplit
    have hempty : (handled.map UpstreamWrite.data).flatten = [] := by
      have hall : ((⟨[], .wouldBlock⟩ :: rest).map UpstreamWrite.data).flatten = [] := by
        simpa using hrest
      rw [hsplit, List.map_append, List.flatten_append] at hall
      exact (List.append_eq_nil_iff.mp hall).1
    cases handled with
    | nil => simp [socketBytes]
    | cons write handled =>
        obtain ⟨rfl, -⟩ := List.cons.inj hsplit
        rw [hbytes, hempty]
        exact ⟨List.nil_prefix, fun _ => rfl⟩

/-- After a hard error nothing is promised. -/
theorem upstreamFaithful_hardError (data : List UInt8) (rest : List UpstreamWrite) :
    UpstreamFaithful self uuid writer (⟨data, .hardError⟩ :: rest) := by
  rintro handled later hsplit
  cases handled with
  | nil => simp [socketBytes]
  | cons write handled =>
      obtain ⟨rfl, -⟩ := List.cons.inj hsplit
      have hgone := socketBytes_of_none writer (connections_removeConnection self uuid)
      refine ⟨?_, fun hnone => absurd ((hardError_cons hconn _ _).mpr (.inl rfl)) hnone⟩
      simp [socketBytes_cons hconn, WriteResult.taken, WriteResult.isErr, hgone]

/-- Upstream byte fidelity holds exactly for sockets that keep up. -/
theorem upstreamFaithful_iff (writes : List UpstreamWrite) :
    UpstreamFaithful self uuid writer writes ↔ KeepsUp writes := by
  induction writes with
  | nil =>
      refine ⟨fun _ => trivial, fun _ handled later hsplit => ?_⟩
      obtain ⟨rfl, -⟩ := List.nil_eq_append_iff.mp hsplit
      simp [socketBytes]
  | cons write rest ih =>
      obtain ⟨data, result⟩ := write
      cases result with
      | accepted count => rw [upstreamFaithful_accepted hconn, ih, KeepsUp]
      | wouldBlock => exact upstreamFaithful_wouldBlock hconn data rest
      | hardError => exact ⟨fun _ => trivial, fun _ => upstreamFaithful_hardError hconn data rest⟩

end Established

/-- The actor right after connection 7 has been established. -/
def establishedSeven : ProxyClient Unit := insertConnection ⟨true, fun _ => none⟩ 7 ()

theorem upstreamFaithful_iff_seven :
    UpstreamFaithful establishedSeven 7 () [⟨[1, 2, 3], .accepted 3⟩, ⟨[4], .hardError⟩] ↔
      KeepsUp [⟨[1, 2, 3], .accepted 3⟩, ⟨[4], .hardError⟩] :=
  upstreamFaithful_iff (by rfl) _

/-- The socket takes one byte of three and then the whole next payload: the
stream at the target has a hole. -/
theorem partial_write_loses_bytes :
    ¬ UpstreamFaithful establishedSeven 7 ()
      [⟨[1, 2, 3], .accepted 1⟩, ⟨[4], .accepted 1⟩] := by
  intro hfaithful
  have hprefix := (hfaithful _ [] (List.append_nil _).symm).1
  revert hprefix
  decide

end ProxyClient

end JustProxy
