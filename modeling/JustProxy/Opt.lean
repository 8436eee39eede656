import JustProxy.Foundation.Aead
import JustProxy.Foundation.Bytes

/-! # Options

The configurations of the two programs, and the conversion that accepts or
refuses the crypto part. The cryptographic library is a parameter: its key
derivation and its authenticated encryption.
-/

namespace JustProxy

open Bytes

inductive CryptoMethod where
  | aes256Gcm
  | aes128Gcm
  | chacha20Poly1305
  deriving DecidableEq, Repr

inductive DigestMethod where
  | sha1
  | sha256
  | sha384
  | sha512
  | sha512_256
  deriving DecidableEq, Repr

/-- The key length an algorithm insists on. -/
def CryptoMethod.keyLen : CryptoMethod → Nat
  | .aes256Gcm => 32
  | .aes128Gcm => 16
  | .chacha20Poly1305 => 32

/-- The crypto part of a configuration file. -/
structure CryptoConfig where
  key : String
  salt : String
  cryptoMethod : String
  digestMethod : String
  digestIteration : UInt32
  deriving DecidableEq

/-- The transport part of a configuration file. -/
structure QuicConfig where
  streamWindowBidi : Option UInt64
  idleTimeout : Option UInt64
  streamReceiveWindow : Option UInt64
  receiveWindow : Option UInt64
  maxTlps : Option UInt32
  packetThreshold : Option UInt32
  timeThreshold : Option UInt16
  delayedAckTimeout : Option UInt64
  initialRtt : Option UInt64
  maxDatagramSize : Option UInt64
  initialWindow : Option UInt64
  minimumWindow : Option UInt64
  lossReductionFactor : Option UInt16
  presistentCognestionThreshold : Option UInt32
  localCidLen : Option USize
  deriving DecidableEq

/-- A converted crypto configuration (`_CryptoConfig`). The iteration count is
a `NonZeroU32`. -/
structure ConvertedCryptoConfig where
  key : List UInt8
  salt : List UInt8
  cryptoMethod : CryptoMethod
  digestMethod : DigestMethod
  digestIteration : UInt32
  nonzero : digestIteration ≠ 0
  deriving DecidableEq

/-- What `convert` does: return, refuse with a text, or panic on the `unwrap`
of a zero iteration count. -/
inductive Conversion where
  | ok (config : ConvertedCryptoConfig)
  | err (message : String)
  | panic
  deriving DecidableEq

def CryptoMethod.ofString? (name : String) : Option CryptoMethod :=
  if name = "aes-256-gcm" then some .aes256Gcm
  else if name = "aes-128-gcm" then some .aes128Gcm
  else if name = "chacha20_poly1305" then some .chacha20Poly1305
  else none

def DigestMethod.ofString? (name : String) : Option DigestMethod :=
  if name = "sha1" then some .sha1
  else if name = "sha256" then some .sha256
  else if name = "sha384" then some .sha384
  else if name = "sha512" then some .sha512
  else if name = "sha512_256" then some .sha512_256
  else none

def CryptoConfig.convert (config : CryptoConfig) : Conversion :=
  match CryptoMethod.ofString? config.cryptoMethod with
  | none => .err "unsupported crypto method"
  | some cryptoMethod =>
      match DigestMethod.ofString? config.digestMethod with
      | none => .err "unsupported digest method"
      | some digestMethod =>
          if hzero : config.digestIteration ≠ 0 then
            .ok ⟨utf8 config.key, utf8 config.salt, cryptoMethod, digestMethod,
              config.digestIteration, hzero⟩
          else .panic

/-- The `unwrap` of a conversion. -/
def Conversion.unwrap? : Conversion → Option ConvertedCryptoConfig
  | .ok config => some config
  | .err _ => none
  | .panic => none

/-! ## The cryptographic library -/

/-- Nonces are twelve bytes. -/
abbrev Nonce := Vector UInt8 12

/-- An opening or sealing key: the algorithm, and key bytes of its key length. -/
structure AeadKey where
  algorithm : CryptoMethod
  bytes : List UInt8
  length_eq : bytes.length = algorithm.keyLen
  deriving DecidableEq

/-- What the code uses of the cryptographic library. Key derivation fills an
output of the requested length. -/
structure Ring where
  pbkdf2 : DigestMethod → UInt32 → List UInt8 → List UInt8 → Nat → List UInt8
  length_pbkdf2 : ∀ digest iterations salt secret length,
    (pbkdf2 digest iterations salt secret length).length = length
  aead : Aead AeadKey Nonce

/-- Key construction succeeds exactly on byte strings of the key length. -/
def AeadKey.new (algorithm : CryptoMethod) (bytes : List UInt8) : Option AeadKey :=
  if hlength : bytes.length = algorithm.keyLen then some ⟨algorithm, bytes, hlength⟩ else none

/-- A stand-in for the library: key derivation pads and cuts, and the tag is a
checksum. -/
def Ring.padded : Ring where
  pbkdf2 _ _ salt secret length := (secret ++ salt ++ List.replicate length 0).take length
  length_pbkdf2 _ _ salt secret length := by
    simp only [List.length_take, List.length_append, List.length_replicate]
    omega
  aead := Aead.checksum 16 fun key nonce aad plain =>
    Aead.parity (key.bytes ++ nonce.toList ++ aad ++ plain)

end JustProxy
