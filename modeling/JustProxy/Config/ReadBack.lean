import JustProxy.Config.Merge
import JustProxy.Opt

/-! # Configurations as JSON

A configuration file is one object that holds the fields of both parts of the
configuration. How a primitive type is stored is a parameter; a structure is
stored as an object with its field names, and read back from an object by those
names, whatever else the object holds. (Reading by position, from an array, is
left out: no structure is stored that way.)
-/

namespace JustProxy

/-- The primitive types of the configuration. -/
structure Serde where
  u16 : Scalar UInt16
  u32 : Scalar UInt32
  u64 : Scalar UInt64
  usize : Scalar USize
  string : Scalar String

/-- Numbers and strings as themselves. -/
def Serde.plain : Serde where
  u16 := .unsigned UInt16.toUInt64 UInt64.toUInt16 UInt16.toUInt16_toUInt64
  u32 := .unsigned UInt32.toUInt64 UInt64.toUInt32 UInt32.toUInt32_toUInt64
  u64 := .unsigned id id fun _ => rfl
  usize := .unsigned USize.toUInt64 UInt64.toUSize USize.toUSize_toUInt64
  string := .text

/-- Merging two objects without a common key loses nothing. -/
theorem mergeValue_stores {first second : List ((_ : String) × Value)}
    (hnodup : (first ++ second).NodupKeys) :
    (mergeValue (.object first) (.object second)).Stores (first ++ second) := by
  have hfirst : first.NodupKeys := hnodup.sublist (List.sublist_append_left _ _)
  have hsecond : second.NodupKeys := hnodup.sublist (List.sublist_append_right _ _)
  have hdisjoint : first.keys.Disjoint second.keys := by
    rw [List.NodupKeys, List.keys_append] at hnodup
    exact List.disjoint_of_nodup_append hnodup
  rintro ⟨key, value⟩ hentry
  have hfields := dlookup_fields_merge (Value.object first).wellFormed
    (Value.object second).wellFormed rfl key
  rw [Value.dlookup_object hfirst, Value.dlookup_object hsecond] at hfields
  rcases List.mem_append.mp hentry with hfrom | hfrom
  · have hother : List.dlookup key second = none :=
      List.dlookup_eq_none.mpr (hdisjoint (List.mem_keys_of_mem hfrom))
    rw [List.mem_dlookup hfirst hfrom, hother] at hfields
    exact hfields
  · have hother : List.dlookup key first = none :=
      List.dlookup_eq_none.mpr fun hkey => hdisjoint hkey (List.mem_keys_of_mem hfrom)
    rw [hother, List.mem_dlookup hsecond hfrom, Option.map_some, Option.map_none, mergeEntry,
      Option.getD_none, merge_null] at hfields
    exact hfields

section Derived

variable (serde : Serde)

/-- The fields under their names. -/
def QuicConfig.entries (config : QuicConfig) : List ((_ : String) × Value) :=
  [⟨"stream_window_bidi", serde.u64.writeOption config.streamWindowBidi⟩,
    ⟨"idle_timeout", serde.u64.writeOption config.idleTimeout⟩,
    ⟨"stream_receive_window", serde.u64.writeOption config.streamReceiveWindow⟩,
    ⟨"receive_window", serde.u64.writeOption config.receiveWindow⟩,
    ⟨"max_tlps", serde.u32.writeOption config.maxTlps⟩,
    ⟨"packet_threshold", serde.u32.writeOption config.packetThreshold⟩,
    ⟨"time_threshold", serde.u16.writeOption config.timeThreshold⟩,
    ⟨"delayed_ack_timeout", serde.u64.writeOption config.delayedAckTimeout⟩,
    ⟨"initial_rtt", serde.u64.writeOption config.initialRtt⟩,
    ⟨"max_datagram_size", serde.u64.writeOption config.maxDatagramSize⟩,
    ⟨"initial_window", serde.u64.writeOption config.initialWindow⟩,
    ⟨"minimum_window", serde.u64.writeOption config.minimumWindow⟩,
    ⟨"loss_reduction_factor", serde.u16.writeOption config.lossReductionFactor⟩,
    ⟨"presistent_cognestion_threshold",
      serde.u32.writeOption config.presistentCognestionThreshold⟩,
    ⟨"local_cid_len", serde.usize.writeOption config.localCidLen⟩]

def QuicConfig.toValue (config : QuicConfig) : Value :=
  .object (config.entries serde)

/-- Reading fails when a field is there but holds no value of its type. -/
def QuicConfig.fromValue (value : Value) : Option QuicConfig :=
  match value.json with
  | .object fields => do
      return {
        streamWindowBidi := ← serde.u64.readOption "stream_window_bidi" fields
        idleTimeout := ← serde.u64.readOption "idle_timeout" fields
        streamReceiveWindow := ← serde.u64.readOption "stream_receive_window" fields
        receiveWindow := ← serde.u64.readOption "receive_window" fields
        maxTlps := ← serde.u32.readOption "max_tlps" fields
        packetThreshold := ← serde.u32.readOption "packet_threshold" fields
        timeThreshold := ← serde.u16.readOption "time_threshold" fields
        delayedAckTimeout := ← serde.u64.readOption "delayed_ack_timeout" fields
        initialRtt := ← serde.u64.readOption "initial_rtt" fields
        maxDatagramSize := ← serde.u64.readOption "max_datagram_size" fields
        initialWindow := ← serde.u64.readOption "initial_window" fields
        minimumWindow := ← serde.u64.readOption "minimum_window" fields
        lossReductionFactor := ← serde.u16.readOption "loss_reduction_factor" fields
        presistentCognestionThreshold :=
          ← serde.u32.readOption "presistent_cognestion_threshold" fields
        localCidLen := ← serde.usize.readOption "local_cid_len" fields }
  | _ => none

def CryptoConfig.entries (config : CryptoConfig) : List ((_ : String) × Value) :=
  [⟨"key", serde.string.write config.key⟩,
    ⟨"salt", serde.string.write config.salt⟩,
    ⟨"crypto_method", serde.string.write config.cryptoMethod⟩,
    ⟨"digest_method", serde.string.write config.digestMethod⟩,
    ⟨"digest_iteration", serde.u32.write config.digestIteration⟩]

def CryptoConfig.toValue (config : CryptoConfig) : Value :=
  .object (config.entries serde)

/-- Here every field is required. -/
def CryptoConfig.fromValue (value : Value) : Option CryptoConfig :=
  match value.json with
  | .object fields => do
      return {
        key := ← serde.string.readField "key" fields
        salt := ← serde.string.readField "salt" fields
        cryptoMethod := ← serde.string.readField "crypto_method" fields
        digestMethod := ← serde.string.readField "digest_method" fields
        digestIteration := ← serde.u32.readField "digest_iteration" fields }
  | _ => none

/-- The example configuration that the program prints on request. -/
def dumpConfig : Value :=
  let quicConfig : QuicConfig :=
    { streamWindowBidi := none, idleTimeout := none, streamReceiveWindow := none,
      receiveWindow := none, maxTlps := none, packetThreshold := none, timeThreshold := none,
      delayedAckTimeout := none, initialRtt := none, maxDatagramSize := none,
      initialWindow := none, minimumWindow := none, lossReductionFactor := none,
      presistentCognestionThreshold := none, localCidLen := none }
  let cryptoConfig : CryptoConfig :=
    { key := "12312", salt := "2121", cryptoMethod := "aes-256-gcm", digestMethod := "sha256",
      digestIteration := 1 }
  mergeValue (quicConfig.toValue serde) (cryptoConfig.toValue serde)

variable {serde} {value : Value}

theorem QuicConfig.fromValue_of_stores {config : QuicConfig}
    (hstores : value.Stores (config.entries serde)) :
    QuicConfig.fromValue serde value = some config := by
  simp only [Value.Stores, entries, List.forall_mem_cons] at hstores
  obtain ⟨h1, h2, h3, h4, h5, h6, h7, h8, h9, h10, h11, h12, h13, h14, h15, _⟩ := hstores
  rw [fromValue, Json.eq_object_of_dlookup h1]
  simp only [
    Scalar.readOption_of_dlookup h1, Scalar.readOption_of_dlookup h2,
    Scalar.readOption_of_dlookup h3, Scalar.readOption_of_dlookup h4,
    Scalar.readOption_of_dlookup h5, Scalar.readOption_of_dlookup h6,
    Scalar.readOption_of_dlookup h7, Scalar.readOption_of_dlookup h8,
    Scalar.readOption_of_dlookup h9, Scalar.readOption_of_dlookup h10,
    Scalar.readOption_of_dlookup h11, Scalar.readOption_of_dlookup h12,
    Scalar.readOption_of_dlookup h13, Scalar.readOption_of_dlookup h14,
    Scalar.readOption_of_dlookup h15]
  rfl

theorem CryptoConfig.fromValue_of_stores {config : CryptoConfig}
    (hstores : value.Stores (config.entries serde)) :
    CryptoConfig.fromValue serde value = some config := by
  simp only [Value.Stores, entries, List.forall_mem_cons] at hstores
  obtain ⟨hkey, hsalt, hcrypto, hdigest, hiteration, _⟩ := hstores
  rw [fromValue, Json.eq_object_of_dlookup hkey]
  simp only [Scalar.readField_of_dlookup hkey, Scalar.readField_of_dlookup hsalt,
    Scalar.readField_of_dlookup hcrypto, Scalar.readField_of_dlookup hdigest,
    Scalar.readField_of_dlookup hiteration]
  rfl

variable (serde)

/-- The field names of the two parts are all different. -/
theorem entries_nodupKeys (quic : QuicConfig) (crypto : CryptoConfig) :
    (quic.entries serde ++ crypto.entries serde).NodupKeys := by
  simp only [QuicConfig.entries, CryptoConfig.entries, List.NodupKeys, List.keys,
    List.cons_append, List.nil_append, List.map_cons, List.map_nil]
  decide

/-- Both parts can be read back from the merged value. -/
theorem fromValue_mergeValue (quic : QuicConfig) (crypto : CryptoConfig) :
    QuicConfig.fromValue serde (mergeValue (quic.toValue serde) (crypto.toValue serde)) =
        some quic ∧
      CryptoConfig.fromValue serde (mergeValue (quic.toValue serde) (crypto.toValue serde)) =
        some crypto := by
  have hstores := mergeValue_stores (entries_nodupKeys serde quic crypto)
  constructor
  · apply QuicConfig.fromValue_of_stores
    exact fun entry hentry => hstores entry (List.mem_append_left _ hentry)
  · apply CryptoConfig.fromValue_of_stores
    exact fun entry hentry => hstores entry (List.mem_append_right _ hentry)

/-- The printed example is a configuration that the program reads and accepts. -/
theorem dumpConfig_accepted :
    ∃ quic crypto converted, QuicConfig.fromValue serde (dumpConfig serde) = some quic ∧
      CryptoConfig.fromValue serde (dumpConfig serde) = some crypto ∧
        crypto.convert = .ok converted := by
  obtain ⟨hquic, hcrypto⟩ := fromValue_mergeValue serde _ _
  exact ⟨_, _, _, hquic, hcrypto, rfl⟩

/-- Merging puts the new value over the old one at every path, merging again
changes nothing, and both parts of a configuration survive the merge. -/
theorem merge_lawful :
    (∀ a b : Value, MergeLaw a b (mergeValue a b)) ∧
      ∀ (quic : QuicConfig) (crypto : CryptoConfig),
        QuicConfig.fromValue serde (mergeValue (quic.toValue serde) (crypto.toValue serde)) =
            some quic ∧
          CryptoConfig.fromValue serde
              (mergeValue (quic.toValue serde) (crypto.toValue serde)) = some crypto :=
  ⟨mergeLaw, fromValue_mergeValue serde⟩

theorem merge_lawful_plain :
    CryptoConfig.fromValue Serde.plain (dumpConfig Serde.plain) =
      some
        { key := "12312", salt := "2121", cryptoMethod := "aes-256-gcm",
          digestMethod := "sha256", digestIteration := 1 } :=
  ((merge_lawful Serde.plain).2 _ _).2

end Derived

end JustProxy
