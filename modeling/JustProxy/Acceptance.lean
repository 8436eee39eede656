import JustProxy.Tunnel.Codec

/-! # Accepted configurations

`convert` decides which crypto configurations are accepted; the constructors of
the codecs rely on its decision and panic where it was too generous.
-/

namespace JustProxy

def cryptoMethodNames : List String := ["aes-256-gcm", "aes-128-gcm", "chacha20_poly1305"]

def digestMethodNames : List String := ["sha1", "sha256", "sha384", "sha512", "sha512_256"]

/-- A configuration is refused, or both codecs can be built from it. -/
def CryptoConfig.Works (ring : Ring) (config : CryptoConfig) : Prop :=
  match config.convert with
  | .ok converted => (ProxyRequestCodec.new ring converted).isSome ∧
      (ProxyResponseCodec.new ring converted).isSome
  | .err _ => True
  | .panic => False

/-! ## Names -/

theorem CryptoMethod.ofString?_eq_none_iff (name : String) :
    ofString? name = none ↔ name ∉ cryptoMethodNames := by
  unfold ofString? cryptoMethodNames
  split_ifs with haes256 haes128 hchacha
  · simp [haes256]
  · simp [haes128]
  · simp [hchacha]
  · simp [haes256, haes128, hchacha]

theorem CryptoMethod.ofString?_eq_aes128Gcm_iff (name : String) :
    ofString? name = some .aes128Gcm ↔ name = "aes-128-gcm" := by
  unfold ofString?
  split_ifs with haes256 haes128 hchacha
  · simp [haes256]
  · simp [haes128]
  · simp [hchacha]
  · simp [haes128]

theorem DigestMethod.ofString?_eq_none_iff (name : String) :
    ofString? name = none ↔ name ∉ digestMethodNames := by
  unfold ofString? digestMethodNames
  split_ifs with hsha1 hsha256 hsha384 hsha512 hsha512_256
  · simp [hsha1]
  · simp [hsha256]
  · simp [hsha384]
  · simp [hsha512]
  · simp [hsha512_256]
  · simp [hsha1, hsha256, hsha384, hsha512, hsha512_256]

/-! ## Constructors -/

theorem AeadKey.new_isSome_iff (algorithm : CryptoMethod) (bytes : List UInt8) :
    (AeadKey.new algorithm bytes).isSome ↔ bytes.length = algorithm.keyLen := by
  unfold AeadKey.new
  split
  next hlength => simp [hlength]
  next hlength => simp [hlength]

/-- The derived key has 32 bytes whatever the algorithm. -/
theorem TunnelCodec.new_isSome_iff (ring : Ring) (config : ConvertedCryptoConfig) :
    (TunnelCodec.new ring config).isSome ↔ config.cryptoMethod ≠ .aes128Gcm := by
  rw [TunnelCodec.new, Option.isSome_map, AeadKey.new_isSome_iff, ring.length_pbkdf2]
  cases config.cryptoMethod <;> simp [CryptoMethod.keyLen]

theorem CryptoConfig.works_of_ok {ring : Ring} {config : CryptoConfig}
    {converted : ConvertedCryptoConfig} (hconvert : config.convert = .ok converted) :
    config.Works ring ↔ converted.cryptoMethod ≠ .aes128Gcm := by
  rw [Works, hconvert]
  change (TunnelCodec.new ring converted).isSome ∧ (TunnelCodec.new ring converted).isSome ↔ _
  rw [and_self, TunnelCodec.new_isSome_iff]

/-! ## Acceptance -/

/-- Every accepted configuration works, except one with AES-128 or with no
iterations: `convert` panics on the second, the constructors on the first. -/
theorem CryptoConfig.works_iff (ring : Ring) (config : CryptoConfig) :
    config.Works ring ↔ config.cryptoMethod ∉ cryptoMethodNames ∨
      config.digestMethod ∉ digestMethodNames ∨
      (config.cryptoMethod ≠ "aes-128-gcm" ∧ config.digestIteration ≠ 0) := by
  rw [← CryptoMethod.ofString?_eq_none_iff, ← DigestMethod.ofString?_eq_none_iff]
  cases hcrypto : CryptoMethod.ofString? config.cryptoMethod with
  | none => simp [Works, convert, hcrypto]
  | some cryptoMethod =>
      cases hdigest : DigestMethod.ofString? config.digestMethod with
      | none => simp [Works, convert, hcrypto, hdigest]
      | some digestMethod =>
          have hname : cryptoMethod = .aes128Gcm ↔ config.cryptoMethod = "aes-128-gcm" := by
            rw [← CryptoMethod.ofString?_eq_aes128Gcm_iff, hcrypto, Option.some_inj]
          by_cases hzero : config.digestIteration = 0
          · simp [Works, convert, hcrypto, hdigest, hzero]
          · have hconvert : config.convert = .ok ⟨Bytes.utf8 config.key, Bytes.utf8 config.salt,
                cryptoMethod, digestMethod, config.digestIteration, hzero⟩ := by
              simp [convert, hcrypto, hdigest, hzero]
            rw [works_of_ok hconvert, ne_eq, hname]
            simp [hzero]

/-- Two configurations of supported methods, the one without iterations and the
other with AES-128. -/
theorem CryptoConfig.supported_not_works :
    ¬ (⟨"12312", "2121", "aes-256-gcm", "sha256", 0⟩ : CryptoConfig).Works Ring.padded ∧
      ¬ (⟨"12312", "2121", "aes-128-gcm", "sha256", 1⟩ : CryptoConfig).Works Ring.padded := by
  constructor
  · have hpanic : (⟨"12312", "2121", "aes-256-gcm", "sha256", 0⟩ : CryptoConfig).convert =
        .panic := by decide
    rw [Works, hpanic]
    exact id
  · have hconvert : (⟨"12312", "2121", "aes-128-gcm", "sha256", 1⟩ : CryptoConfig).convert =
        .ok ⟨Bytes.utf8 "12312", Bytes.utf8 "2121", .aes128Gcm, .sha256, 1, by decide⟩ := by
      decide
    rw [works_of_ok hconvert]
    decide

end JustProxy
