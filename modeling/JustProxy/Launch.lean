import JustProxy.Tunnel.Replay

/-! # Starting the two programs

How the options of the command line and of the configuration file reach the
codecs of a tunnel. Both entry points build the crypto configuration of the
codecs from constants; the one that was read from the file is not looked at.
-/

namespace JustProxy

open Bytes StreamDecoder

/-! ## Options -/

structure Config where
  crypto : ConvertedCryptoConfig

structure ClientOpt where
  socksHost : String
  proxyHost : String
  socksPort : Int
  proxyPort : Int
  protocol : String
  config : Config

structure ServerOpt where
  proxyHost : String
  proxyPort : Int
  protocol : String
  config : Config

/-- The options of the command line that are passed on. -/
structure BinOpt where
  socksHost : String
  proxyHost : String
  socksPort : Int
  proxyPort : Int
  protocol : String

/-- `file` is the crypto part of the configuration file; `none` is an `unwrap`
that panics, of an unreadable file or of a refused configuration. -/
def BinOpt.toServerConfig (opt : BinOpt) (file : Option CryptoConfig) : Option ServerOpt := do
  let cryptoConfig ← file
  let crypto ← cryptoConfig.convert.unwrap?
  return ⟨opt.proxyHost, opt.proxyPort, opt.protocol, ⟨crypto⟩⟩

def BinOpt.toClientConfig (opt : BinOpt) (file : Option CryptoConfig) : Option ClientOpt := do
  let cryptoConfig ← file
  let crypto ← cryptoConfig.convert.unwrap?
  return ⟨opt.socksHost, opt.proxyHost, opt.socksPort, opt.proxyPort, opt.protocol, ⟨crypto⟩⟩

/-! ## Entry points -/

/-- What the operating system and the network answer while a program starts. -/
structure Network where
  /-- The text parses as a socket address. -/
  parses : String → Bool
  /-- The text parses, and a listener can be bound to the address. -/
  binds : String → Bool
  /-- The connection to the address is established. -/
  connects : String → Bool
  /-- The QUIC endpoint can be set up, with its port and its certificate. -/
  quicSetup : Bool

/-- The codecs that an endpoint builds for one tunnel. -/
structure EndpointCodecs where
  request : ProxyRequestCodec AeadKey
  response : ProxyResponseCodec AeadKey

/-- How a start ends: with the codecs of a tunnel, without a connection, or in
a panic. -/
inductive Launch where
  | started (codecs : EndpointCodecs)
  | stopped
  | panicked

/-- Build both codecs from one configuration; a refused key panics. -/
def buildCodecs (ring : Ring) (config : ConvertedCryptoConfig) : Launch :=
  match ProxyResponseCodec.new ring config, ProxyRequestCodec.new ring config with
  | some response, some request => .started ⟨request, response⟩
  | _, _ => .panicked

/-- The callback of an established connection. -/
def connectCallback (ring : Ring) (config : Config) : Launch :=
  buildCodecs ring config.crypto

/-- Connect to the parsed address, and run the callback on the stream. -/
def connect (network : Network) (address : String) (callback : Launch) : Launch :=
  if network.parses address then
    if network.connects address then callback else .stopped
  else .panicked

/-- The constants of `run_client` and `run_server`. -/
def cryptoConfig : CryptoConfig where
  key := "12312"
  salt := "2121"
  cryptoMethod := "aes-256-gcm"
  digestMethod := "sha256"
  digestIteration := 1

-- neither entry point reads `opt.config`
def runClient (network : Network) (ring : Ring) (opt : ClientOpt) : Launch :=
  if network.binds s!"{opt.socksHost}:{opt.socksPort}" then
    let proxyAddress := s!"{opt.proxyHost}:{opt.proxyPort}"
    if opt.protocol = "tcp" then
      match cryptoConfig.convert.unwrap? with
      | none => .panicked
      | some crypto => connect network proxyAddress (connectCallback ring ⟨crypto⟩)
    else if opt.protocol = "quic" then
      if network.quicSetup then
        match cryptoConfig.convert.unwrap? with
        | none => .panicked
        | some crypto => connect network proxyAddress (connectCallback ring ⟨crypto⟩)
      else .panicked
    else .panicked
  else .panicked

/-- The codecs are built for every accepted connection. -/
def runServer (network : Network) (ring : Ring) (opt : ServerOpt) : Launch :=
  let proxyAddress := s!"{opt.proxyHost}:{opt.proxyPort}"
  if opt.protocol = "tcp" then
    match cryptoConfig.convert.unwrap? with
    | none => .panicked
    | some crypto =>
        if network.binds proxyAddress then buildCodecs ring crypto else .panicked
  else if opt.protocol = "quic" then
    if network.quicSetup then
      match cryptoConfig.convert.unwrap? with
      | none => .panicked
      | some crypto =>
          if network.binds proxyAddress then buildCodecs ring crypto else .panicked
    else .panicked
  else .panicked

/-! ## Which codecs are built -/

/-- Both codecs are those of the given configuration. -/
def EndpointCodecs.BuiltFrom (ring : Ring) (config : ConvertedCryptoConfig)
    (codecs : EndpointCodecs) : Prop :=
  ProxyRequestCodec.new ring config = some codecs.request ∧
    ProxyResponseCodec.new ring config = some codecs.response

open TunnelCodec

/-- The constants are those of the README example. -/
theorem convert_cryptoConfig : cryptoConfig.convert.unwrap? = some readmeConfig := by
  decide +kernel

theorem buildCodecs_started {ring : Ring} {config : ConvertedCryptoConfig}
    {codecs : EndpointCodecs} (hbuild : buildCodecs ring config = .started codecs) :
    codecs.BuiltFrom ring config := by
  unfold buildCodecs at hbuild
  split at hbuild
  next response request hresponse hrequest =>
    cases hbuild
    exact ⟨hrequest, hresponse⟩
  next => cases hbuild

theorem connect_started {network : Network} {address : String} {callback : Launch}
    {codecs : EndpointCodecs} (hconnect : connect network address callback = .started codecs) :
    callback = .started codecs := by
  unfold connect at hconnect
  split at hconnect
  · split at hconnect
    · exact hconnect
    · cases hconnect
  · cases hconnect

/-- Whatever its options, a client builds the codecs of the constants. -/
theorem runClient_started {network : Network} {ring : Ring} {opt : ClientOpt}
    {codecs : EndpointCodecs} (hrun : runClient network ring opt = .started codecs) :
    codecs.BuiltFrom ring readmeConfig := by
  simp only [runClient, convert_cryptoConfig] at hrun
  have htunnel {address : String}
      (hconnect : connect network address (connectCallback ring ⟨readmeConfig⟩) =
        .started codecs) : codecs.BuiltFrom ring readmeConfig :=
    buildCodecs_started (connect_started hconnect)
  split at hrun
  · split at hrun
    · exact htunnel hrun
    · split at hrun
      · split at hrun
        · exact htunnel hrun
        · cases hrun
      · cases hrun
  · cases hrun

/-- Whatever its options, a server builds the codecs of the constants. -/
theorem runServer_started {network : Network} {ring : Ring} {opt : ServerOpt}
    {codecs : EndpointCodecs} (hrun : runServer network ring opt = .started codecs) :
    codecs.BuiltFrom ring readmeConfig := by
  simp only [runServer, convert_cryptoConfig] at hrun
  have haccepted {bound : Bool}
      (hbuild : (if bound then buildCodecs ring readmeConfig else .panicked) =
        .started codecs) : codecs.BuiltFrom ring readmeConfig := by
    split at hbuild
    · exact buildCodecs_started hbuild
    · cases hbuild
  split at hrun
  · exact haccepted hrun
  · split at hrun
    · split at hrun
      · exact haccepted hrun
      · cases hrun
    · cases hrun

/-! ## The configured key -/

/-- The key that a configuration derives; `none` when the algorithm refuses it. -/
def derivedKey (ring : Ring) (config : ConvertedCryptoConfig) : Option AeadKey :=
  AeadKey.new config.cryptoMethod
    (ring.pbkdf2 config.digestMethod config.digestIteration config.salt config.key 32)

/-- Two configurations build the same codec exactly when they derive the same key. -/
theorem new_eq_new_iff {ring : Ring} {first second : ConvertedCryptoConfig} :
    TunnelCodec.new ring first = TunnelCodec.new ring second ↔
      derivedKey ring first = derivedKey ring second := by
  refine ⟨fun heq => ?_, fun heq => ?_⟩
  · have hkeys := congrArg (Option.map TunnelCodec.openingKey) heq
    simpa [TunnelCodec.new, derivedKey, Function.comp_def] using hkeys
  · rw [derivedKey, derivedKey] at heq
    rw [TunnelCodec.new, TunnelCodec.new, heq]

theorem EndpointCodecs.BuiltFrom.iff_derivedKey {ring : Ring} {other : ConvertedCryptoConfig}
    {codecs : EndpointCodecs} (hbuilt : codecs.BuiltFrom ring other)
    (config : ConvertedCryptoConfig) :
    codecs.BuiltFrom ring config ↔ derivedKey ring config = derivedKey ring other := by
  obtain ⟨hrequest, hresponse⟩ := hbuilt
  rw [← new_eq_new_iff]
  constructor
  · rintro ⟨hrequest', -⟩
    exact hrequest'.trans hrequest.symm
  · intro heq
    exact ⟨heq.trans hrequest, heq.trans hresponse⟩

/-- What the configured key is for: the codecs of both programs are built from
their configurations, and under different derived keys an ideal library makes
each side refuse every frame of the other one. -/
structure KeyProtects (ring : Ring) (client server : ConvertedCryptoConfig)
    (clientCodecs serverCodecs : EndpointCodecs) : Prop where
  clientBuilt : clientCodecs.BuiltFrom ring client
  serverBuilt : serverCodecs.BuiltFrom ring server
  refuses : derivedKey ring client ≠ derivedKey ring server →
    ∀ encodings : List Encoding, ring.aead.Ideal
        (TunnelCodec.tunnelSeals clientCodecs.request serverCodecs.response encodings) →
      ∀ encoding ∈ encodings, ∀ frame, encoding.Emits
          (encoding.direction.codec clientCodecs.request serverCodecs.response) frame →
        ∀ suffix message rest, encoding.direction.decode
            (encoding.direction.codec serverCodecs.request clientCodecs.response)
            (frame ++ suffix) ≠ (.item message, rest)

/-- The configured key protects the tunnel only when it is the constant one:
both configurations must derive the very key of the constants. -/
theorem keyProtects_iff (network : Network) (ring : Ring) (clientOpt : ClientOpt)
    (serverOpt : ServerOpt) {clientCodecs serverCodecs : EndpointCodecs}
    (hclient : runClient network ring clientOpt = .started clientCodecs)
    (hserver : runServer network ring serverOpt = .started serverCodecs) :
    KeyProtects ring clientOpt.config.crypto serverOpt.config.crypto clientCodecs serverCodecs ↔
      derivedKey ring clientOpt.config.crypto = derivedKey ring readmeConfig ∧
        derivedKey ring serverOpt.config.crypto = derivedKey ring readmeConfig := by
  have hclientKey := (runClient_started hclient).iff_derivedKey clientOpt.config.crypto
  have hserverKey := (runServer_started hserver).iff_derivedKey serverOpt.config.crypto
  constructor
  · intro hprotects
    exact ⟨hclientKey.mp hprotects.clientBuilt, hserverKey.mp hprotects.serverBuilt⟩
  · rintro ⟨hclientSame, hserverSame⟩
    refine ⟨hclientKey.mpr hclientSame, hserverKey.mpr hserverSame, fun hdifferent => ?_⟩
    exact absurd (hclientSame.trans hserverSame.symm) hdifferent

/-! ## Two installations -/

/-- A network on which everything succeeds. -/
def openNetwork : Network := ⟨fun _ => true, fun _ => true, fun _ => true, true⟩

/-- The command line without options. -/
def defaultOpt : BinOpt := ⟨"127.0.0.1", "127.0.0.1", 12345, 12346, "tcp"⟩

/-- The options of a client whose configuration file has the given key. -/
def clientWithKey (key : String) : Option ClientOpt :=
  defaultOpt.toClientConfig (some { cryptoConfig with key := key })

def serverWithKey (key : String) : Option ServerOpt :=
  defaultOpt.toServerConfig (some { cryptoConfig with key := key })

theorem keyProtects_iff_readme : ∃ clientOpt serverOpt clientCodecs serverCodecs,
    clientWithKey "12312" = some clientOpt ∧ serverWithKey "12312" = some serverOpt ∧
    runClient openNetwork Ring.padded clientOpt = .started clientCodecs ∧
    runServer openNetwork Ring.padded serverOpt = .started serverCodecs ∧
    (KeyProtects Ring.padded clientOpt.config.crypto serverOpt.config.crypto clientCodecs
        serverCodecs ↔
      derivedKey Ring.padded clientOpt.config.crypto = derivedKey Ring.padded readmeConfig ∧
        derivedKey Ring.padded serverOpt.config.crypto = derivedKey Ring.padded readmeConfig) :=
  ⟨_, _, _, _, rfl, rfl, rfl, rfl, keyProtects_iff openNetwork Ring.padded _ _ rfl rfl⟩

/-- Client and server are configured with different keys, and the server
accepts the client's heartbeat. -/
theorem different_keys_interoperate : ∃ clientOpt serverOpt clientCodecs serverCodecs,
    clientWithKey "alpha" = some clientOpt ∧ serverWithKey "beta" = some serverOpt ∧
    runClient openNetwork heartbeatRing clientOpt = .started clientCodecs ∧
    runServer openNetwork heartbeatRing serverOpt = .started serverCodecs ∧
    derivedKey heartbeatRing clientOpt.config.crypto ≠
      derivedKey heartbeatRing serverOpt.config.crypto ∧
    ¬ KeyProtects heartbeatRing clientOpt.config.crypto serverOpt.config.crypto clientCodecs
      serverCodecs := by
  refine ⟨_, _, _, _, rfl, rfl, rfl, rfl, by decide +kernel, ?_⟩
  intro hprotects
  have hideal : heartbeatRing.aead.Ideal (tunnelSeals (readmeCodec.recorded [firstHeartbeat])
      (readmeCodec.recorded [firstHeartbeat]) [firstHeartbeat]) := by
    rw [tunnelSeals_self]
    exact heartbeatRing_ideal
  have haccepted : Direction.request.decode (readmeCodec.recorded [firstHeartbeat])
      (heartbeatFrame ++ []) = (.item (ProxyRequest.new 0 (.heartbeat 1)), []) := by
    decide +kernel
  exact hprotects.refuses (by decide +kernel) [firstHeartbeat] hideal firstHeartbeat
    List.mem_cons_self heartbeatFrame heartbeat_emits [] _ [] haccepted

end JustProxy
