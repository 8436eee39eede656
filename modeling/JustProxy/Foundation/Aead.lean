import Mathlib.Data.List.Basic

/-! # Authenticated encryption

Sealing and opening byte strings under a key, a nonce and associated data. Two
views are used: the functional one, where opening undoes sealing, and the
symbolic one, where opening succeeds exactly on the strings that a recorded
sealing call has output.
-/

/-- Authenticated encryption with a fixed tag length. Sealing may refuse an
input; a sealed string is longer than its plaintext by the tag. -/
structure Aead (Key Nonce : Type) where
  tagLen : Nat
  sealBytes : Key → Nonce → List UInt8 → List UInt8 → Option (List UInt8)
  openBytes : Key → Nonce → List UInt8 → List UInt8 → Option (List UInt8)
  length_seal : ∀ {key nonce aad plain sealed},
    sealBytes key nonce aad plain = some sealed → sealed.length = plain.length + tagLen
  length_open : ∀ {key nonce aad sealed plain},
    openBytes key nonce aad sealed = some plain → sealed.length = plain.length + tagLen

/-- One call of the sealing function, with what it answered. -/
structure SealCall (Key Nonce : Type) where
  key : Key
  nonce : Nonce
  aad : List UInt8
  plain : List UInt8
  output : Option (List UInt8)
  deriving DecidableEq

/-- The result of opening in place: the slice that is returned, and the whole
buffer after the call. -/
structure Opened where
  plain : List UInt8
  place : List UInt8

namespace Aead

variable {Key Nonce : Type} (aead : Aead Key Nonce)

/-- Seal the front of a buffer whose last `suffix` bytes are room for the tag. -/
def sealInPlace (key : Key) (nonce : Nonce) (aad inOut : List UInt8) (suffix : Nat) :
    Option (List UInt8) :=
  if suffix = aead.tagLen ∧ suffix ≤ inOut.length then
    aead.sealBytes key nonce aad (inOut.take (inOut.length - suffix))
  else none

/-- Open a buffer in place: the plaintext replaces the front of the buffer, the
bytes of the tag stay behind it. -/
def openInPlace (key : Key) (nonce : Nonce) (aad inOut : List UInt8) : Option Opened :=
  (aead.openBytes key nonce aad inOut).map fun plain =>
    ⟨plain, plain ++ inOut.drop plain.length⟩

theorem sealInPlace_append (key : Key) (nonce : Nonce) (aad plain room : List UInt8)
    (hroom : room.length = aead.tagLen) :
    aead.sealInPlace key nonce aad (plain ++ room) aead.tagLen =
      aead.sealBytes key nonce aad plain := by
  simp [sealInPlace, ← hroom]

theorem openInPlace_eq_some {key : Key} {nonce : Nonce} {aad inOut : List UInt8}
    {opened : Opened} (hopen : aead.openInPlace key nonce aad inOut = some opened) :
    aead.openBytes key nonce aad inOut = some opened.plain ∧
      inOut.length = opened.plain.length + aead.tagLen ∧
      opened.place.take (opened.place.length - aead.tagLen) = opened.plain := by
  simp only [openInPlace, Option.map_eq_some_iff] at hopen
  obtain ⟨plain, hplain, rfl⟩ := hopen
  have hlength := aead.length_open hplain
  refine ⟨hplain, hlength, ?_⟩
  have hcut : plain.length + (inOut.length - plain.length) - aead.tagLen = plain.length := by
    omega
  simp [hcut]

/-! ## The functional view -/

/-- Opening undoes sealing under the same key, nonce and associated data. -/
def RoundTrips : Prop :=
  ∀ key nonce aad plain sealed, aead.sealBytes key nonce aad plain = some sealed →
    aead.openBytes key nonce aad sealed = some plain

/-- Sealing accepts every plaintext that is shorter than a limit. -/
def SealsBelow (limit : Nat) : Prop :=
  ∀ key nonce aad plain, plain.length < limit →
    ∃ sealed, aead.sealBytes key nonce aad plain = some sealed

/-- The exclusive or of some bytes. -/
def parity (bytes : List UInt8) : UInt8 := bytes.foldr UInt8.xor 0

/-- A keyed checksum repeated to the tag length: the plaintext stays readable,
and opening recomputes the checksum. It satisfies the functional laws only. -/
def checksum (tagLen : Nat) (hash : Key → Nonce → List UInt8 → List UInt8 → UInt8) :
    Aead Key Nonce where
  tagLen := tagLen
  sealBytes key nonce aad plain :=
    some (plain ++ List.replicate tagLen (hash key nonce aad plain))
  openBytes key nonce aad sealed :=
    if tagLen ≤ sealed.length ∧ sealed.drop (sealed.length - tagLen) =
        List.replicate tagLen (hash key nonce aad (sealed.take (sealed.length - tagLen))) then
      some (sealed.take (sealed.length - tagLen))
    else none
  length_seal hsealed := by
    cases hsealed
    simp
  length_open hopened := by
    split at hopened
    next hlong =>
      cases hopened
      rw [List.length_take]
      omega
    next => simp at hopened

theorem checksum_roundTrips (tagLen : Nat)
    (hash : Key → Nonce → List UInt8 → List UInt8 → UInt8) :
    (checksum tagLen hash).RoundTrips := by
  intro key nonce aad plain sealed hsealed
  cases hsealed
  simp [checksum]

/-! ## The symbolic view -/

/-- Opening succeeds exactly on the strings that a recorded call has output
under the same key, nonce and associated data, and returns the plaintext of
that call. -/
structure Ideal (log : List (SealCall Key Nonce)) : Prop where
  recorded : ∀ {key nonce aad sealed plain}, aead.openBytes key nonce aad sealed = some plain →
    ∃ call ∈ log, call.key = key ∧ call.nonce = nonce ∧ call.aad = aad ∧
      call.output = some sealed ∧ call.plain = plain
  opens : ∀ {call sealed}, call ∈ log → call.output = some sealed →
    aead.openBytes call.key call.nonce call.aad sealed = some call.plain

/-- Two recorded calls with one output under one key, nonce and associated data
have one plaintext. -/
theorem Ideal.plain_eq {aead : Aead Key Nonce} {log : List (SealCall Key Nonce)}
    (hideal : aead.Ideal log) {first second : SealCall Key Nonce} {sealed : List UInt8}
    (hfirst : first ∈ log) (hsecond : second ∈ log)
    (hkey : first.key = second.key) (hnonce : first.nonce = second.nonce)
    (haad : first.aad = second.aad) (hout : first.output = some sealed)
    (hout' : second.output = some sealed) : first.plain = second.plain := by
  have hopen := hideal.opens hfirst hout
  rw [hkey, hnonce, haad, hideal.opens hsecond hout'] at hopen
  exact (Option.some.inj hopen).symm

section Recorded

variable [DecidableEq Key] [DecidableEq Nonce]

/-- The ideal functionality of a sealing function: opening looks the string up
among the recorded calls. -/
def idealize (log : List (SealCall Key Nonce)) : Aead Key Nonce where
  tagLen := aead.tagLen
  sealBytes := aead.sealBytes
  openBytes key nonce aad sealed :=
    (log.find? fun call => call.key = key ∧ call.nonce = nonce ∧ call.aad = aad ∧
      aead.sealBytes key nonce aad call.plain = some sealed).map SealCall.plain
  length_seal := aead.length_seal
  length_open hopened := by
    obtain ⟨call, hfind, rfl⟩ := Option.map_eq_some_iff.mp hopened
    have hcall := List.find?_some hfind
    simp only [decide_eq_true_eq] at hcall
    exact aead.length_seal hcall.2.2.2

/-- The ideal functionality is ideal for the calls that the sealing function
really answered. -/
theorem idealize_ideal (hround : aead.RoundTrips) (log : List (SealCall Key Nonce))
    (hlog : ∀ call ∈ log,
      call.output = aead.sealBytes call.key call.nonce call.aad call.plain) :
    (aead.idealize log).Ideal log where
  recorded hopen := by
    obtain ⟨call, hfind, rfl⟩ := Option.map_eq_some_iff.mp hopen
    have hcall := List.find?_some hfind
    simp only [decide_eq_true_eq] at hcall
    obtain ⟨rfl, rfl, rfl, hseal⟩ := hcall
    exact ⟨call, List.mem_of_find?_eq_some hfind, rfl, rfl, rfl,
      (hlog call (List.mem_of_find?_eq_some hfind)).trans hseal, rfl⟩
  opens {call sealed} hmem hout := by
    have hseal : aead.sealBytes call.key call.nonce call.aad call.plain = some sealed :=
      (hlog call hmem).symm.trans hout
    cases hfind : log.find? fun other => other.key = call.key ∧ other.nonce = call.nonce ∧
        other.aad = call.aad ∧
        aead.sealBytes call.key call.nonce call.aad other.plain = some sealed with
    | none =>
        have hnone := List.find?_eq_none.mp hfind call hmem
        simp [hseal] at hnone
    | some other =>
        have hother := List.find?_some hfind
        simp only [decide_eq_true_eq] at hother
        have hplain : other.plain = call.plain := by
          have hopen := hround _ _ _ _ _ hother.2.2.2
          rw [hround _ _ _ _ _ hseal] at hopen
          exact (Option.some.inj hopen).symm
        exact Option.map_eq_some_iff.mpr ⟨other, hfind, hplain⟩

end Recorded

end Aead
