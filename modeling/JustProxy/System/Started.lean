import JustProxy.Launch
import JustProxy.System.EndToEnd

/-! # From the command line

A client and a server that have both started, each with its own options and its own
configuration file. Both build their codecs from the same constants, so the two ends of
the tunnel fit together, and what holds from end to end holds of the two programs.
-/

namespace JustProxy

namespace EndpointCodecs

/-- The codec that writes in a direction: the client writes requests. -/
def writer (client server : EndpointCodecs) (direction : Direction) : TunnelCodec AeadKey :=
  direction.codec client.request server.response

/-- The codec that reads in a direction: the server reads requests. -/
def reader (client server : EndpointCodecs) (direction : Direction) : TunnelCodec AeadKey :=
  direction.codec server.request client.response

variable {ring : Ring} {config : ConvertedCryptoConfig} {client server : EndpointCodecs}

/-- Endpoints that are built from one configuration have the same codecs. -/
theorem BuiltFrom.eq (hclient : client.BuiltFrom ring config)
    (hserver : server.BuiltFrom ring config) : client = server := by
  obtain ⟨hrequest, hresponse⟩ := hclient
  obtain ⟨hrequest', hresponse'⟩ := hserver
  obtain ⟨request, response⟩ := client
  obtain ⟨request', response'⟩ := server
  obtain rfl := Option.some.inj (hrequest.symm.trans hrequest')
  obtain rfl := Option.some.inj (hresponse.symm.trans hresponse')
  rfl

theorem cryptoAlgorithm_of_new {codec : TunnelCodec AeadKey}
    (hnew : TunnelCodec.new ring config = some codec) : codec.cryptoAlgorithm = ring.aead := by
  obtain ⟨key, -, rfl⟩ := Option.map_eq_some_iff.mp hnew
  rfl

theorem cryptoAlgorithm_writer (hclient : client.BuiltFrom ring config)
    (hserver : server.BuiltFrom ring config) (direction : Direction) :
    (writer client server direction).cryptoAlgorithm = ring.aead := by
  cases direction with
  | request => exact cryptoAlgorithm_of_new hclient.1
  | response => exact cryptoAlgorithm_of_new hserver.2

/-- Both ends of a direction have the same codec. -/
theorem reader_eq_writer (hclient : client.BuiltFrom ring config)
    (hserver : server.BuiltFrom ring config) : reader client server = writer client server := by
  rw [hclient.eq hserver]
  rfl

end EndpointCodecs

open EndpointCodecs TunnelCodec

/-- Two programs that have started understand each other, whatever their options and
configuration files say. The ends of the tunnel have the same codecs, and in every run
over its frames with distinct ports and short messages every session relays. -/
theorem relays_of_start (ring : Ring) (hring : ring.aead.RoundTrips)
    (hseals : ring.aead.SealsBelow (2 ^ 32)) (clientNetwork serverNetwork : Network)
    (clientOpt : ClientOpt) (serverOpt : ServerOpt) (client server : EndpointCodecs)
    (hclient : runClient clientNetwork ring clientOpt = .started client)
    (hserver : runServer serverNetwork ring serverOpt = .started server)
    (events : List WireEvent) (w : WireSystem)
    (hshort : Transition.Meets (WireSystem.step · (writer client server)) WireSystem.Short
      .init events)
    (hports : (System.ports (events.flatMap WireEvent.events)).Nodup)
    (hrun : WireSystem.run (writer client server) events = some w) (index : Nat)
    (session : Session) (hsession : w.ends.sessions[index]? = some session) :
    reader client server = writer client server ∧
      WireSystem.Relays (events.flatMap WireEvent.events) w.ends index session := by
  have hclientBuilt := runClient_started hclient
  have hserverBuilt := runServer_started hserver
  have halgorithm := cryptoAlgorithm_writer hclientBuilt hserverBuilt
  have hopens (direction : Direction) :
      (writer client server direction).cryptoAlgorithm.RoundTrips := by
    rw [halgorithm]
    exact hring
  have hqueues : ∃ s, System.run (events.flatMap WireEvent.events) = some s ∧
      w.Represents hopens s := by
    apply WireSystem.represents_of_run _ hshort hrun
    intro direction
    rw [halgorithm]
    exact hseals
  obtain ⟨s, hs, hrepresents⟩ := hqueues
  exact ⟨reader_eq_writer hclientBuilt hserverBuilt, hrepresents.relays hports hs hsession⟩

/-- The client and the server are given different keys. -/
theorem relays_of_start_keys : ∃ clientOpt serverOpt client server w session,
    clientWithKey "alpha" = some clientOpt ∧ serverWithKey "beta" = some serverOpt ∧
    runClient openNetwork Ring.padded clientOpt = .started client ∧
    runServer openNetwork Ring.padded serverOpt = .started server ∧
    WireSystem.run (writer client server) WireSystem.grantedInPieces = some w ∧
    w.ends.sessions[0]? = some session ∧ session.written.length = 3 ∧
    reader client server = writer client server ∧
    WireSystem.Relays (WireSystem.grantedInPieces.flatMap WireEvent.events) w.ends 0 session := by
  let codecs : EndpointCodecs := ⟨readmeCodec, readmeCodec⟩
  have hran : ((WireSystem.run (writer codecs codecs) WireSystem.grantedInPieces).bind fun w =>
      w.ends.sessions[0]?.filter fun session => session.written.length = 3).isSome := by
    decide +kernel
  obtain ⟨session, hran⟩ := Option.isSome_iff_exists.mp hran
  obtain ⟨w, hrun, hran⟩ := Option.bind_eq_some_iff.mp hran
  obtain ⟨hsession, hlength⟩ := Option.filter_eq_some_iff.mp hran
  have hclient : ∃ opt, clientWithKey "alpha" = some opt ∧
      runClient openNetwork Ring.padded opt = .started codecs := ⟨_, rfl, rfl⟩
  have hserver : ∃ opt, serverWithKey "beta" = some opt ∧
      runServer openNetwork Ring.padded opt = .started codecs := ⟨_, rfl, rfl⟩
  obtain ⟨clientOpt, hclientOpt, hclient⟩ := hclient
  obtain ⟨serverOpt, hserverOpt, hserver⟩ := hserver
  exact ⟨clientOpt, serverOpt, codecs, codecs, w, session, hclientOpt, hserverOpt, hclient,
    hserver, hrun, hsession, of_decide_eq_true hlength,
    relays_of_start Ring.padded (Aead.checksum_roundTrips 16 _) (fun _ _ _ _ _ => ⟨_, rfl⟩)
      openNetwork openNetwork clientOpt serverOpt codecs codecs hclient hserver
      WireSystem.grantedInPieces w (by decide +kernel) (by decide +kernel) hrun 0 session hsession⟩

end JustProxy
