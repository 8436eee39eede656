import Mathlib.Data.List.Basic
import Mathlib.Data.Nat.Basic
import Mathlib.Tactic.Ring
import Mathlib.Tactic.Linarith

/-! # Byte strings

Big-endian numbers, UTF-8 text, and a growable buffer whose writes fail when
the reserved capacity is used up. Byte strings are lists of bytes throughout.
-/

namespace Bytes

/-! ## Big-endian numbers -/

/-- The last `width` base-256 digits of a number, most significant first. -/
def beBytes : Nat → Nat → List UInt8
  | 0, _ => []
  | width + 1, value => UInt8.ofNat (value / 256 ^ width) :: beBytes width value

/-- The number whose base-256 digits are the given bytes. -/
def beNat : List UInt8 → Nat
  | [] => 0
  | byte :: rest => byte.toNat * 256 ^ rest.length + beNat rest

@[simp] theorem length_beBytes (width value : Nat) : (beBytes width value).length = width := by
  induction width with
  | zero => rfl
  | succ width ih => simp [beBytes, ih]

theorem beNat_lt (bytes : List UInt8) : beNat bytes < 256 ^ bytes.length := by
  induction bytes with
  | nil => simp [beNat]
  | cons byte rest ih =>
      have hbyte : byte.toNat + 1 ≤ 256 := byte.toNat_lt
      calc
        beNat (byte :: rest) = byte.toNat * 256 ^ rest.length + beNat rest := rfl
        _ < (byte.toNat + 1) * 256 ^ rest.length := by rw [Nat.add_one_mul]; omega
        _ ≤ 256 * 256 ^ rest.length := Nat.mul_le_mul_right _ hbyte
        _ = 256 ^ (byte :: rest).length := by rw [List.length_cons, pow_succ, mul_comm]

theorem beNat_beBytes (width value : Nat) :
    beNat (beBytes width value) = value % 256 ^ width := by
  induction width with
  | zero => simp [beBytes, beNat, Nat.mod_one]
  | succ width ih =>
      have hdigit : (UInt8.ofNat (value / 256 ^ width)).toNat = value / 256 ^ width % 256 := by
        simp
      rw [beBytes, beNat, length_beBytes, ih, hdigit, Nat.mod_pow_succ]
      ring

theorem beNat_beBytes_of_lt {width value : Nat} (hvalue : value < 256 ^ width) :
    beNat (beBytes width value) = value := by
  rw [beNat_beBytes, Nat.mod_eq_of_lt hvalue]

@[simp] theorem beNat_beBytes_uint16 (value : UInt16) :
    beNat (beBytes 2 value.toNat) = value.toNat :=
  beNat_beBytes_of_lt value.toNat_lt

@[simp] theorem beNat_beBytes_uint32 (value : UInt32) :
    beNat (beBytes 4 value.toNat) = value.toNat :=
  beNat_beBytes_of_lt value.toNat_lt

/-- Equally long byte strings with the same value are equal. -/
theorem beNat_injective {first second : List UInt8} (hlength : first.length = second.length)
    (hvalue : beNat first = beNat second) : first = second := by
  induction first generalizing second with
  | nil => exact (List.length_eq_zero_iff.mp hlength.symm).symm
  | cons byte rest ih =>
      cases second with
      | nil => simp at hlength
      | cons byte' rest' =>
          have hrest : rest.length = rest'.length := by simpa using hlength
          have hlow := beNat_lt rest
          have hlow' := beNat_lt rest'
          simp only [beNat, hrest] at hvalue hlow
          have hbyte : byte.toNat = byte'.toNat := by
            have hdiv := congrArg (· / 256 ^ rest'.length) hvalue
            have hpos : 0 < 256 ^ rest'.length := Nat.pow_pos (by decide)
            simpa [Nat.mul_add_div, mul_comm _ (256 ^ rest'.length), hpos,
              Nat.div_eq_of_lt hlow, Nat.div_eq_of_lt hlow'] using hdiv
          have htail : beNat rest = beNat rest' := by
            rw [hbyte] at hvalue
            omega
          rw [UInt8.toNat_inj.mp hbyte, ih hrest htail]

theorem beBytes_beNat (bytes : List UInt8) : beBytes bytes.length (beNat bytes) = bytes := by
  apply beNat_injective
  · simp
  · rw [beNat_beBytes, Nat.mod_eq_of_lt (beNat_lt bytes)]

/-! ## Text -/

/-- The UTF-8 bytes of a text. -/
def utf8 (text : String) : List UInt8 := text.toByteArray.data.toList

/-- The text with the given UTF-8 bytes, when they are valid UTF-8. -/
def fromUtf8 (bytes : List UInt8) : Option String := String.fromUTF8? bytes.toByteArray

theorem toByteArray_utf8 (text : String) : (utf8 text).toByteArray = text.toByteArray := by
  apply ByteArray.ext
  simp [utf8]

@[simp] theorem fromUtf8_utf8 (text : String) : fromUtf8 (utf8 text) = some text := by
  have hvalid : (utf8 text).toByteArray.IsValidUTF8 := by
    rw [toByteArray_utf8]
    exact text.isValidUTF8
  rw [fromUtf8, String.fromUTF8?, dif_pos hvalid]
  refine congrArg some (String.toByteArray_inj.mp ?_)
  rw [← toByteArray_utf8 text]
  rfl

theorem utf8_of_fromUtf8 {bytes : List UInt8} {text : String}
    (htext : fromUtf8 bytes = some text) : utf8 text = bytes := by
  rw [fromUtf8, String.fromUTF8?] at htext
  split at htext
  · cases htext
    simp [utf8, String.fromUTF8]
  · simp at htext

/-! ## Cutting -/

/-- Cut a buffer in two. `none` is the assertion failure of a cut past the end. -/
def splitTo (buffer : List UInt8) (count : Nat) : Option (List UInt8 × List UInt8) :=
  if count ≤ buffer.length then some (buffer.splitAt count) else none

/-- A range of a buffer. `none` is the index panic of a range past the end. -/
def slice (buffer : List UInt8) (start stop : Nat) : Option (List UInt8) :=
  if start ≤ stop ∧ stop ≤ buffer.length then some ((buffer.take stop).drop start) else none

theorem splitTo_append (front rest : List UInt8) :
    splitTo (front ++ rest) front.length = some (front, rest) := by
  simp [splitTo]

theorem splitTo_eq_some {buffer front rest : List UInt8} {count : Nat}
    (hsplit : splitTo buffer count = some (front, rest)) :
    buffer = front ++ rest ∧ front.length = count := by
  unfold splitTo at hsplit
  split at hsplit
  next hcount =>
    simp only [List.splitAt_eq, Option.some.injEq, Prod.mk.injEq] at hsplit
    obtain ⟨rfl, rfl⟩ := hsplit
    exact ⟨(List.take_append_drop count buffer).symm, by simpa using hcount⟩
  next => cases hsplit

theorem slice_append (before middle after : List UInt8) :
    slice (before ++ middle ++ after) before.length (before.length + middle.length) =
      some middle := by
  have hstop : before.length + middle.length ≤ (before ++ middle ++ after).length := by
    simp only [List.length_append]
    omega
  rw [slice, if_pos ⟨Nat.le_add_right _ _, hstop⟩, ← List.length_append, List.take_left',
    List.drop_left']
  · rfl
  · rfl

/-- The last two bytes of a string stand behind the others. -/
theorem exists_append_two {bytes : List UInt8} {count : Nat} (hlength : bytes.length = count + 2) :
    ∃ before hi lo, bytes = before ++ [hi, lo] ∧ before.length = count := by
  obtain ⟨hi, lo, hlast⟩ : ∃ hi lo, bytes.drop count = [hi, lo] := by
    have htwo : (bytes.drop count).length = 2 := by
      rw [List.length_drop]
      omega
    exact List.length_eq_two.mp htwo
  refine ⟨bytes.take count, hi, lo, ?_, ?_⟩
  · rw [← hlast, List.take_append_drop]
  · rw [List.length_take]
    omega

/-! ## Buffers with a capacity -/

/-- A growable buffer. Its capacity is what has been reserved; writing never
grows it. -/
structure BytesMut where
  bytes : List UInt8
  capacity : Nat
  fits : bytes.length ≤ capacity

namespace BytesMut

/-- A new buffer. No capacity is promised before the first reservation. -/
def empty : BytesMut := ⟨[], 0, Nat.le_refl 0⟩

/-- Reserve room for at least `additional` more bytes. The result has the least
capacity that is promised, so a write that fits here fits in any real buffer. -/
def reserve (buffer : BytesMut) (additional : Nat) : BytesMut where
  bytes := buffer.bytes
  capacity := max buffer.capacity (buffer.bytes.length + additional)
  fits := buffer.fits.trans (Nat.le_max_left _ _)

/-- Append bytes. `none` is the assertion failure of a write that exceeds the
remaining capacity. -/
def put (buffer : BytesMut) (source : List UInt8) : Option BytesMut :=
  if hroom : buffer.bytes.length + source.length ≤ buffer.capacity then
    some ⟨buffer.bytes ++ source, buffer.capacity, by simpa using hroom⟩
  else none

/-- Consecutive writes, stopping at the first one that fails. -/
def putAll (buffer : BytesMut) : List (List UInt8) → Option BytesMut
  | [] => some buffer
  | source :: rest => (buffer.put source).bind fun next => next.putAll rest

@[simp] theorem bytes_empty : empty.bytes = [] := rfl

@[simp] theorem bytes_reserve (buffer : BytesMut) (additional : Nat) :
    (buffer.reserve additional).bytes = buffer.bytes := rfl

@[simp] theorem capacity_reserve (buffer : BytesMut) (additional : Nat) :
    (buffer.reserve additional).capacity =
      max buffer.capacity (buffer.bytes.length + additional) := rfl

/-- What successful writes have appended. -/
theorem bytes_of_putAll {buffer next : BytesMut} {sources : List (List UInt8)}
    (hput : buffer.putAll sources = some next) :
    next.bytes = buffer.bytes ++ sources.flatten := by
  induction sources generalizing buffer with
  | nil =>
      cases hput
      simp
  | cons source rest ih =>
      obtain ⟨middle, hfirst, hrest⟩ := Option.bind_eq_some_iff.mp hput
      unfold put at hfirst
      split at hfirst
      · cases hfirst
        rw [ih hrest, List.flatten_cons, List.append_assoc]
      · cases hfirst

/-- Writes that together fit into the capacity all succeed. -/
theorem putAll_of_fits (buffer : BytesMut) (sources : List (List UInt8))
    (hroom : buffer.bytes.length + sources.flatten.length ≤ buffer.capacity) :
    ∃ next, buffer.putAll sources = some next ∧
      next.bytes = buffer.bytes ++ sources.flatten ∧ next.capacity = buffer.capacity := by
  induction sources generalizing buffer with
  | nil => exact ⟨buffer, rfl, by simp, rfl⟩
  | cons source rest ih =>
      have hlength : buffer.bytes.length + source.length + rest.flatten.length ≤
          buffer.capacity := by
        simpa [Nat.add_assoc] using hroom
      have hfirst : buffer.bytes.length + source.length ≤ buffer.capacity := by omega
      obtain ⟨next, hnext, hbytes, hcapacity⟩ :=
        ih ⟨buffer.bytes ++ source, buffer.capacity, by simpa using hfirst⟩
          (by simpa [Nat.add_assoc] using hlength)
      refine ⟨next, ?_, ?_, hcapacity⟩
      · rw [putAll, put, dif_pos hfirst]
        exact hnext
      · simpa [List.append_assoc] using hbytes

end BytesMut

end Bytes
