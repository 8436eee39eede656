import Mathlib.Data.List.Basic

/-! # Decoders of a byte stream

A decoder looks at a buffer and answers with one item, with a request for more
bytes, with an error, or by panicking. The reading loop appends each chunk to
the buffer and calls the decoder until it asks for more. A decoder whose
answers survive appending bytes yields the same items however the stream is
cut into chunks.
-/

namespace StreamDecoder

/-- One answer of a decoder. -/
inductive Verdict (Item Error : Type) where
  | item (value : Item)
  | more
  | fail (error : Error)
  | panic
  deriving DecidableEq

/-- A decoding function that consumes at least one byte with every item, which
is what makes the reading loop terminate. -/
structure Decoder (State Item Error : Type) where
  decode : State → List UInt8 → Verdict Item Error × State × List UInt8
  consumes : ∀ {state buffer value state' rest},
    decode state buffer = (.item value, state', rest) → rest.length < buffer.length

/-- Where a reading loop stands: waiting with unread bytes, or stopped. -/
inductive Stage (State Error : Type) where
  | reading (state : State) (buffer : List UInt8)
  | failed (error : Error)
  | panicked
  deriving DecidableEq

namespace Decoder

variable {State Item Error : Type} (decoder : Decoder State Item Error)

/-- At most `fuel` calls of the decoder on one buffer. -/
def drainFuel : Nat → State → List UInt8 → List Item × Stage State Error
  | 0, state, buffer => ([], .reading state buffer)
  | fuel + 1, state, buffer =>
      match decoder.decode state buffer with
      | (.item value, state', rest) =>
          (value :: (drainFuel fuel state' rest).1, (drainFuel fuel state' rest).2)
      | (.more, state', rest) => ([], .reading state' rest)
      | (.fail error, _, _) => ([], .failed error)
      | (.panic, _, _) => ([], .panicked)

/-- Call the decoder until it asks for more bytes or stops. -/
def drain (state : State) (buffer : List UInt8) : List Item × Stage State Error :=
  decoder.drainFuel (buffer.length + 1) state buffer

/-- One read of the loop: append the chunk, then drain. -/
def feed : Stage State Error → List UInt8 → List Item × Stage State Error
  | .reading state buffer, chunk => decoder.drain state (buffer ++ chunk)
  | .failed error, _ => ([], .failed error)
  | .panicked, _ => ([], .panicked)

/-- The whole loop over a sequence of chunks. -/
def feedAll : Stage State Error → List (List UInt8) → List Item × Stage State Error
  | stage, [] => ([], stage)
  | stage, chunk :: rest =>
      ((decoder.feed stage chunk).1 ++ (feedAll (decoder.feed stage chunk).2 rest).1,
        (feedAll (decoder.feed stage chunk).2 rest).2)

/-- Fuel beyond the buffer's length changes nothing. -/
theorem drainFuel_of_lt {first second : Nat} {state : State} {buffer : List UInt8}
    (hfirst : buffer.length < first) (hsecond : buffer.length < second) :
    decoder.drainFuel first state buffer = decoder.drainFuel second state buffer := by
  induction first generalizing second state buffer with
  | zero => omega
  | succ first ih =>
      cases second with
      | zero => omega
      | succ second =>
          simp only [drainFuel]
          split
          next value state' rest hdecode =>
            have hrest := decoder.consumes hdecode
            rw [ih (by omega) (by omega : rest.length < second)]
          all_goals rfl

/-- The equation of the inner loop. -/
theorem drain_eq (state : State) (buffer : List UInt8) :
    decoder.drain state buffer =
      match decoder.decode state buffer with
      | (.item value, state', rest) =>
          (value :: (decoder.drain state' rest).1, (decoder.drain state' rest).2)
      | (.more, state', rest) => ([], .reading state' rest)
      | (.fail error, _, _) => ([], .failed error)
      | (.panic, _, _) => ([], .panicked) := by
  rw [drain, drainFuel]
  split
  next value state' rest hdecode =>
    have hrest := decoder.consumes hdecode
    rw [drain, decoder.drainFuel_of_lt hrest (Nat.lt_succ_self _)]
  all_goals rfl

variable {decoder}

theorem drain_item {state state' : State} {buffer rest : List UInt8} {value : Item}
    (hdecode : decoder.decode state buffer = (.item value, state', rest)) :
    decoder.drain state buffer =
      (value :: (decoder.drain state' rest).1, (decoder.drain state' rest).2) := by
  rw [drain_eq, hdecode]

theorem drain_more {state state' : State} {buffer rest : List UInt8}
    (hdecode : decoder.decode state buffer = (.more, state', rest)) :
    decoder.drain state buffer = ([], .reading state' rest) := by
  rw [drain_eq, hdecode]

/-- Induction over one drain, from the answer that ends it back to the front. -/
theorem drain_induction {motive : State → List UInt8 → List Item → Stage State Error → Prop}
    (item : ∀ {state buffer value state' rest items stage},
      decoder.decode state buffer = (.item value, state', rest) →
        motive state' rest items stage → motive state buffer (value :: items) stage)
    (more : ∀ {state buffer state' rest},
      decoder.decode state buffer = (.more, state', rest) →
        motive state buffer [] (.reading state' rest))
    (fail : ∀ {state buffer error}, motive state buffer [] (.failed error))
    (panic : ∀ {state buffer}, motive state buffer [] .panicked)
    (state : State) (buffer : List UInt8) :
    motive state buffer (decoder.drain state buffer).1 (decoder.drain state buffer).2 := by
  induction hlength : buffer.length using Nat.strongRecOn generalizing state buffer with
  | ind length ih =>
      rcases hdecode : decoder.decode state buffer with ⟨verdict, state', rest⟩
      rw [drain_eq, hdecode]
      cases verdict with
      | item value =>
          have hshorter := hlength ▸ decoder.consumes hdecode
          exact item hdecode (ih rest.length hshorter state' rest rfl)
      | more => exact more hdecode
      | fail error => exact fail
      | panic => exact panic

variable (decoder)

/-- Cutting the list of chunks splits the loop. -/
theorem feedAll_append (stage : Stage State Error) (first second : List (List UInt8)) :
    decoder.feedAll stage (first ++ second) =
      ((decoder.feedAll stage first).1 ++
          (decoder.feedAll (decoder.feedAll stage first).2 second).1,
        (decoder.feedAll (decoder.feedAll stage first).2 second).2) := by
  induction first generalizing stage with
  | nil => simp [feedAll]
  | cons chunk rest ih => simp [feedAll, ih, List.append_assoc]

/-- A loop that has stopped returns nothing more. -/
theorem feedAll_stopped {stage : Stage State Error}
    (hstopped : ∀ state buffer, stage ≠ .reading state buffer) (chunks : List (List UInt8)) :
    decoder.feedAll stage chunks = ([], stage) := by
  induction chunks with
  | nil => rfl
  | cons chunk rest ih =>
      have hfeed : decoder.feed stage chunk = ([], stage) := by
        cases stage with
        | reading state buffer => exact absurd rfl (hstopped state buffer)
        | failed error => rfl
        | panicked => rfl
      rw [feedAll, hfeed, ih]
      rfl

/-! ## Calls -/

/-- What at most `fuel` calls on one buffer are given. -/
def callsFuel : Nat → State → List UInt8 → List (State × List UInt8)
  | 0, _, _ => []
  | fuel + 1, state, buffer =>
      (state, buffer) ::
        match decoder.decode state buffer with
        | (.item _, state', rest) => callsFuel fuel state' rest
        | _ => []

/-- What the decoder is called with while one chunk is read. -/
def feedCalls : Stage State Error → List UInt8 → List (State × List UInt8)
  | .reading state buffer, chunk =>
      decoder.callsFuel ((buffer ++ chunk).length + 1) state (buffer ++ chunk)
  | _, _ => []

/-- What the decoder is called with over a sequence of chunks. -/
def calls : Stage State Error → List (List UInt8) → List (State × List UInt8)
  | _, [] => []
  | stage, chunk :: rest =>
      decoder.feedCalls stage chunk ++ calls (decoder.feed stage chunk).2 rest

theorem drainFuel_panicked_iff (fuel : Nat) (state : State) (buffer : List UInt8) :
    (decoder.drainFuel fuel state buffer).2 = .panicked ↔
      ∃ call ∈ decoder.callsFuel fuel state buffer, (decoder.decode call.1 call.2).1 = .panic := by
  induction fuel generalizing state buffer with
  | zero => simp [drainFuel, callsFuel]
  | succ fuel ih =>
      rcases hdecode : decoder.decode state buffer with ⟨verdict, state', rest⟩
      cases verdict with
      | item value => simp [drainFuel, callsFuel, hdecode, ih]
      | more => simp [drainFuel, callsFuel, hdecode]
      | fail error => simp [drainFuel, callsFuel, hdecode]
      | panic => simp [drainFuel, callsFuel, hdecode]

theorem feed_panicked_iff (stage : Stage State Error) (chunk : List UInt8) :
    (decoder.feed stage chunk).2 = .panicked ↔ stage = .panicked ∨
      ∃ call ∈ decoder.feedCalls stage chunk, (decoder.decode call.1 call.2).1 = .panic := by
  cases stage with
  | reading state buffer => simp [feed, drain, feedCalls, drainFuel_panicked_iff]
  | failed error => simp [feed, feedCalls]
  | panicked => simp [feed]

/-- The loop stops by panicking exactly when one of its calls panics. -/
theorem feedAll_panicked_iff (stage : Stage State Error) (chunks : List (List UInt8)) :
    (decoder.feedAll stage chunks).2 = .panicked ↔ stage = .panicked ∨
      ∃ call ∈ decoder.calls stage chunks, (decoder.decode call.1 call.2).1 = .panic := by
  induction chunks generalizing stage with
  | nil => simp [feedAll, calls]
  | cons chunk rest ih =>
      rw [feedAll, ih, feed_panicked_iff, calls, or_assoc]
      simp only [List.mem_append, or_and_right, exists_or]

/-! ## Stable decoders -/

/-- Every answer but a request for more bytes is final: bytes appended behind
do not change it. A request for more bytes changes nothing. -/
structure Stable : Prop where
  item : ∀ {state buffer value state' rest} (suffix : List UInt8),
    decoder.decode state buffer = (.item value, state', rest) →
      decoder.decode state (buffer ++ suffix) = (.item value, state', rest ++ suffix)
  more : ∀ {state buffer state' rest},
    decoder.decode state buffer = (.more, state', rest) → state' = state ∧ rest = buffer
  fail : ∀ {state buffer error state' rest} (suffix : List UInt8),
    decoder.decode state buffer = (.fail error, state', rest) →
      (decoder.decode state (buffer ++ suffix)).1 = .fail error
  panic : ∀ {state buffer state' rest} (suffix : List UInt8),
    decoder.decode state buffer = (.panic, state', rest) →
      (decoder.decode state (buffer ++ suffix)).1 = .panic

variable {decoder}

/-- Draining a longer buffer is draining its front and then feeding the back. -/
theorem Stable.drain_append (hstable : decoder.Stable) (state : State)
    (buffer suffix : List UInt8) :
    decoder.drain state (buffer ++ suffix) =
      ((decoder.drain state buffer).1 ++
          (decoder.feed (decoder.drain state buffer).2 suffix).1,
        (decoder.feed (decoder.drain state buffer).2 suffix).2) := by
  induction hlength : buffer.length using Nat.strongRecOn generalizing state buffer with
  | ind length ih =>
      rcases hdecode : decoder.decode state buffer with ⟨verdict, state', rest⟩
      cases verdict with
      | item value =>
          have hrest := ih rest.length (hlength ▸ decoder.consumes hdecode) state' rest rfl
          rw [drain_item hdecode, drain_item (hstable.item suffix hdecode), hrest]
          rfl
      | more =>
          obtain ⟨rfl, rfl⟩ := hstable.more hdecode
          rw [drain_more hdecode]
          rfl
      | fail error =>
          have hfinal := hstable.fail suffix hdecode
          rw [drain_eq decoder state (buffer ++ suffix), drain_eq decoder state buffer, hdecode]
          split <;> simp_all [feed]
      | panic =>
          have hfinal := hstable.panic suffix hdecode
          rw [drain_eq decoder state (buffer ++ suffix), drain_eq decoder state buffer, hdecode]
          split <;> simp_all [feed]

/-- Chunking does not matter: the loop over any chunks ends as one drain of
their concatenation does. -/
theorem Stable.feedAll_eq_drain (hstable : decoder.Stable) {state : State}
    (hquiet : decoder.drain state [] = ([], .reading state [])) (chunks : List (List UInt8)) :
    decoder.feedAll (.reading state []) chunks = decoder.drain state chunks.flatten := by
  have hgeneral : ∀ buffer, decoder.drain state (buffer ++ chunks.flatten) =
      ((decoder.drain state buffer).1 ++
          (decoder.feedAll (decoder.drain state buffer).2 chunks).1,
        (decoder.feedAll (decoder.drain state buffer).2 chunks).2) := by
    induction chunks with
    | nil => intro buffer; simp [feedAll]
    | cons chunk rest ih =>
        intro buffer
        have htail := ih (buffer ++ chunk)
        rw [hstable.drain_append state buffer chunk] at htail
        simpa [feedAll, List.append_assoc] using htail
  have hstart := hgeneral []
  rw [hquiet] at hstart
  simpa using hstart.symm

end Decoder

end StreamDecoder
