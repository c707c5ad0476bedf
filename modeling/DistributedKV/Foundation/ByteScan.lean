import DistributedKV.Foundation.Framing

/-!
# Scanners with an offset

A reader takes its input apart from the front and cannot be ahead of it. A parser written with an
input and an offset can: an access may be outside the input, and the difference between the size
of the input and the offset may be below zero. `Scan` is such a parser, with both of these as
faults. `Follows` relates a scanner to a reader: from every offset within the input with so many
bytes behind it as is known, the scanner commits no fault and does what the reader does with the
bytes from there on. Its rules follow the shape of the scanner. What is known of the number of
bytes left is what the tests of the parser say.
-/

namespace ByteScan

open ByteReader

/-- What a scanner must not do. -/
inductive Fault where
  | outOfRange
  | underflow
  deriving DecidableEq, Repr

/-- Why a scanner stopped without a value. -/
inductive Stop where
  | fault (fault : Fault)
  | refused (message : String)
  deriving DecidableEq, Repr

/-- A parser over an input with an offset. -/
abbrev Scan (α : Type) := ReaderT (List UInt8) (StateT Nat (Except Stop)) α

variable {α β : Type}

/-- The size of the input. -/
def size : Scan Nat := fun input offset => .ok (input.length, offset)

/-- Where the scanner is. -/
def position : Scan Nat := fun _ offset => .ok (offset, offset)

/-- The difference of two sizes. -/
def minus (larger smaller : Nat) : Scan Nat := fun _ offset =>
  if larger < smaller then .error (.fault .underflow) else .ok (larger - smaller, offset)

/-- The bytes at an index and behind it. -/
def bytesAt (index count : Nat) : Scan (List UInt8) := fun input offset =>
  if input.length < index + count then .error (.fault .outOfRange)
  else .ok ((input.drop index).take count, offset)

/-- The byte at an index. -/
def byteAt (index : Nat) : Scan UInt8 := fun input offset =>
  match input[index]? with
  | none => .error (.fault .outOfRange)
  | some byte => .ok (byte, offset)

/-- The bytes from an index on, up to a number of them. The index may be the end. -/
def substring (index count : Nat) : Scan (List UInt8) := fun input offset =>
  if input.length < index then .error (.fault .outOfRange)
  else .ok ((input.drop index).take count, offset)

/-- The big-endian word at an index. -/
def wordAt (index width : Nat) : Scan Nat := fromBigEndian <$> bytesAt index width

/-- Move the offset. -/
def advance (count : Nat) : Scan Unit := fun _ offset => .ok ((), offset + count)

/-- The size of the input without what is before the offset. -/
def left : Scan Nat := do
  let size ← size
  let offset ← position
  minus size offset

/-- A scanner looks at the bytes at its offset, which moves behind them. -/
instance : Parser (ReaderT (List UInt8) (StateT Nat (Except Stop))) where
  refuse message := fun _ _ => .error (.refused message)
  beyond := do
    let size ← size
    let offset ← position
    pure (size < offset)
  remaining := left
  takeBytes count := do
    let offset ← position
    let bytes ← bytesAt offset count
    advance count
    pure bytes
  takeWord width := do
    let offset ← position
    let word ← wordAt offset width
    advance width
    pure word

/-- Scan an input from its start. -/
def scanAll (scan : Scan α) (input : List UInt8) : Except Stop α := Prod.fst <$> scan input 0

/-- Scan another input from its start, in the middle of a scan. -/
def inside (scan : Scan α) (input : List UInt8) : Scan α := fun _ offset =>
  match scanAll scan input with
  | .ok value => .ok (value, offset)
  | .error stop => .error stop

/-- A parser with an output parameter, which it assigns when it is done. -/
def assign (outcome : Except Stop α) (output : α) : Except Fault (Except String Unit × α) :=
  match outcome with
  | .ok value => .ok (.ok (), value)
  | .error (.refused message) => .ok (.error message, output)
  | .error (.fault fault) => .error fault

/-! ## Accesses at an index -/

variable {input : List UInt8}

/-- A scan goes on from where its first part arrived. -/
theorem bind_ok {scan : Scan α} {next : α → Scan β} {offset reached : Nat} {value : α}
    (hscan : scan input offset = .ok (value, reached)) :
    (scan >>= next) input offset = next value input reached := by
  show Except.bind (scan input offset) _ = _
  rw [hscan]
  rfl

/-- A byte that is there is found. -/
theorem byte_at_eq_ok {index : Nat} {byte : UInt8} (offset : Nat)
    (hbyte : input[index]? = some byte) : byteAt index input offset = .ok (byte, offset) := by
  rw [byteAt, hbyte]

/-- A substring from within the input is found. -/
theorem substring_eq_ok {index : Nat} (count offset : Nat) (hrange : index ≤ input.length) :
    substring index count input offset = .ok ((input.drop index).take count, offset) :=
  if_neg (Nat.not_lt.mpr hrange)

/-- A difference that is not below zero. -/
theorem minus_eq_ok {larger smaller : Nat} (hle : smaller ≤ larger) (input : List UInt8)
    (offset : Nat) : minus larger smaller input offset = .ok (larger - smaller, offset) :=
  if_neg (Nat.not_lt.mpr hle)

/-- Bytes that are there are found. -/
theorem bytes_at_eq_ok {index count : Nat} (offset : Nat) (hrange : index + count ≤ input.length) :
    bytesAt index count input offset = .ok ((input.drop index).take count, offset) :=
  if_neg (Nat.not_lt.mpr hrange)

/-- A word that is there is found. -/
theorem word_at_eq_ok {index width : Nat} (offset : Nat) (hrange : index + width ≤ input.length) :
    wordAt index width input offset = .ok (ByteReader.wordAt index width input, offset) := by
  show Except.map _ (bytesAt index width input offset) = _
  rw [bytes_at_eq_ok offset hrange]
  rfl

/-! ## Following a reader -/

/-- A scanner and a reader come to the same end, within the input. -/
def Agrees (input : List UInt8) :
    Except Stop (α × Nat) → Except ReadError (α × List UInt8) → Prop
  | .ok (value, offset), .ok (found, rest) =>
    value = found ∧ offset ≤ input.length ∧ rest = input.drop offset
  | .error (.refused message), .error (.refused text) => message = text
  | _, _ => False

/-- From every offset with so many bytes behind it, the scanner does what the reader does. -/
def Follows (known : Nat → Prop) (scan : Scan α) (reader : Reader α) : Prop :=
  ∀ input offset, offset ≤ input.length → known (input.length - offset) →
    Agrees input (scan input offset) (reader (input.drop offset))

/-- Nothing is known of the number of bytes left. -/
def anyLeft : Nat → Prop := fun _ => True

/-- So many bytes are left at least. -/
def atLeast (needed : Nat) : Nat → Prop := fun left => needed ≤ left

namespace Follows

variable {known : Nat → Prop} {scan : Scan α} {reader : Reader α}

/-- What holds with less known holds with more known. -/
theorem mono {more : Nat → Prop} (hfollows : Follows known scan reader)
    (hmore : ∀ left, more left → known left) : Follows more scan reader :=
  fun input offset hoffset hleft => hfollows input offset hoffset (hmore _ hleft)

/-- A value takes no access. -/
theorem pure (value : α) : Follows known (Pure.pure value) (Pure.pure value) :=
  fun _ _ hoffset _ => ⟨rfl, hoffset, rfl⟩

/-- Both refuse with the same message. -/
theorem refuse (message : String) :
    Follows known (ByteReader.refuse message : Scan α) (ByteReader.refuse message) :=
  fun _ _ _ _ => rfl

/-- One scan after another; nothing is known of what the first leaves. -/
theorem bind {next : α → Scan β} {following : α → Reader β} (hfirst : Follows known scan reader)
    (hnext : ∀ value, Follows anyLeft (next value) (following value)) :
    Follows known (scan >>= next) (reader >>= following) := by
  intro input offset hoffset hleft
  have hagrees := hfirst input offset hoffset hleft
  show Agrees input (Except.bind (scan input offset) fun found => next found.1 input found.2)
    (Except.bind (reader (input.drop offset)) fun found => following found.1 found.2)
  revert hagrees
  rcases scan input offset with (fault | message) | ⟨value, reached⟩ <;>
    rcases reader (input.drop offset) with (_ | text) | ⟨found, rest⟩ <;> intro hagrees
  all_goals first | exact hagrees.elim | skip
  · exact hagrees
  · obtain ⟨rfl, hreached, rfl⟩ := hagrees
    exact hnext value input reached hreached trivial

/-- The same branch is taken on both sides. -/
theorem ite {condition : Prop} [Decidable condition] {other : Scan α} {alternative : Reader α}
    (hthen : condition → Follows known scan reader)
    (helse : ¬ condition → Follows known other alternative) :
    Follows known (if condition then scan else other) (if condition then reader else alternative) := by
  split_ifs with hcondition
  · exact hthen hcondition
  · exact helse hcondition

/-- A test that refuses, however it is spelled. What follows may count on its outcome. -/
theorem test {condition tested : Prop} [Decidable condition] [Decidable tested] {message : String}
    (hsame : condition ↔ tested) (helse : ¬ tested → Follows known scan reader) :
    Follows known (if condition then ByteReader.refuse message else scan)
      (if tested then ByteReader.refuse message else reader) := by
  by_cases htested : tested
  · rw [if_pos htested, if_pos (hsame.mpr htested)]
    exact refuse message
  · rw [if_neg htested, if_neg (mt hsame.mp htested)]
    exact helse htested

variable {following : Nat → Reader β}

/-- The size and the offset say how many bytes are left. -/
theorem here_bind {next : Nat → Nat → Scan β}
    (hnext : ∀ size offset, offset ≤ size → known (size - offset) →
      Follows (· = size - offset) (next size offset) (following (size - offset))) :
    Follows known (do let size ← size; let offset ← position; next size offset)
      (remaining >>= following) := by
  intro input offset hoffset hleft
  have hagrees := hnext input.length offset hoffset hleft input offset hoffset rfl
  rw [remaining_bind, List.length_drop]
  exact hagrees

/-- From within the input, the offset is never behind the end. -/
theorem beyond_bind {next : Bool → Scan β} {following : Bool → Reader β}
    (hnext : Follows known (next false) (following false)) :
    Follows known (beyond >>= next) (beyond >>= following) := by
  intro input offset hoffset hleft
  have hwithin : (beyond : Scan Bool) input offset = .ok (false, offset) :=
    congrArg (fun found => Except.ok (found, offset)) (decide_eq_false (Nat.not_lt.mpr hoffset))
  rw [bind_ok hwithin, ByteReader.beyond_bind]
  exact hnext input offset hoffset hleft

/-- A difference that cannot be below zero. -/
theorem minus_bind {next : Nat → Scan β} {following : Reader β} {larger smaller : Nat}
    (hle : smaller ≤ larger) (hnext : Follows known (next (larger - smaller)) following) :
    Follows known (minus larger smaller >>= next) following := by
  intro input offset hoffset hleft
  rw [bind_ok (minus_eq_ok hle input offset)]
  exact hnext input offset hoffset hleft

/-- What follows may count on the number of bytes left. -/
theorem left_bind {next : Nat → Scan β}
    (hnext : ∀ size, known size → Follows (· = size) (next size) (following size)) :
    Follows known (remaining >>= next) (remaining >>= following) :=
  here_bind fun _ _ hle hknown => minus_bind hle (hnext _ hknown)

/-- A test for the end of the input, when the number of bytes left is known. -/
theorem at_end {message : String} {left : Nat} (hend : left = 0 → Follows (· = left) scan reader) :
    Follows (· = left)
      (do
        let size ← size
        let offset ← position
        if offset ≠ size then ByteReader.refuse message else scan)
      (if left ≠ 0 then ByteReader.refuse message else reader) := by
  intro input offset hoffset hleft
  have hsame : offset ≠ input.length ↔ left ≠ 0 := by omega
  have htest : Follows (· = left) (if offset ≠ input.length then ByteReader.refuse message else scan)
      (if left ≠ 0 then ByteReader.refuse message else reader) :=
    test hsame fun h => hend (not_ne_iff.mp h)
  exact htest input offset hoffset hleft

/-- Bytes that are known to be there, and what is known behind them. -/
theorem bytes_bind {next : List UInt8 → Scan β} {following : List UInt8 → Reader β} {count : Nat}
    (hroom : ∀ left, known left → count ≤ left)
    (hnext : ∀ bytes, Follows (fun left => known (left + count)) (next bytes) (following bytes)) :
    Follows known (takeBytes count >>= next) (takeBytes count >>= following) := by
  intro input offset hoffset hleft
  have hcount := hroom _ hleft
  have hrest : known (input.length - (offset + count) + count) := by
    rwa [show input.length - (offset + count) + count = input.length - offset by omega]
  have hrange : offset + count ≤ input.length := by omega
  have hscan : (takeBytes count : Scan _) input offset =
      .ok ((input.drop offset).take count, offset + count) := by
    show (bytesAt offset count >>= fun bytes => advance count >>= fun _ => Pure.pure bytes) input
      offset = _
    rw [bind_ok (bytes_at_eq_ok offset hrange)]
    rfl
  rw [ByteReader.bind_ok (take_bytes_drop hrange), bind_ok hscan]
  exact hnext _ input (offset + count) (by omega) hrest

/-- Bytes that are known to be there. -/
theorem bytes {count : Nat} (hroom : ∀ left, known left → count ≤ left) :
    Follows known (takeBytes count) (takeBytes count) := by
  have hbind := bytes_bind hroom fun bytes => pure bytes
  rwa [bind_pure, bind_pure] at hbind

/-- A word that is known to be there, and what is known behind it. -/
theorem word_bind {next : Nat → Scan β} {width : Nat} (hroom : ∀ left, known left → width ≤ left)
    (hnext : ∀ word, Follows (fun left => known (left + width)) (next word) (following word)) :
    Follows known (takeWord width >>= next) (takeWord width >>= following) := by
  intro input offset hoffset hleft
  have hagrees := bytes_bind hroom (fun bytes => hnext (fromBigEndian bytes)) input offset hoffset
    hleft
  have hscan : (takeWord width >>= next) input offset =
      (takeBytes width >>= fun bytes => next (fromBigEndian bytes)) input offset := by
    show Except.bind (Except.bind (Except.map _ (bytesAt offset width input offset)) _) _ =
      Except.bind (Except.bind (bytesAt offset width input offset) _) _
    cases bytesAt offset width input offset <;> rfl
  rw [hscan, take_word_eq, bind_assoc]
  exact hagrees

/-- A word that is known to be there. -/
theorem word {width : Nat} (hroom : ∀ left, known left → width ≤ left) :
    Follows known (takeWord width) (takeWord width) := by
  have hbind := word_bind hroom fun word => pure word
  rwa [bind_pure, bind_pure] at hbind

/-- A function of what is found. -/
theorem map (into : α → β) (hfollows : Follows known scan reader) :
    Follows known (into <$> scan) (into <$> reader) := by
  rw [map_eq_pure_bind, map_eq_pure_bind]
  exact hfollows.bind fun value => pure (into value)

/-- A value that may be missing is missing on both sides. -/
theorem or_refuse_bind {next : α → Scan β} {following : α → Reader β} {message : String}
    {option : Option α}
    (hnext : ∀ value, option = some value → Follows known (next value) (following value)) :
    Follows known (orRefuse message option >>= next)
      (orRefuse message option >>= following) := by
  cases option with
  | none => exact refuse message
  | some value => exact hnext value rfl

/-- A number of values, one after the other. -/
theorem many (hfollows : Follows anyLeft scan reader) (count : Nat) :
    Follows anyLeft (takeMany scan count) (takeMany reader count) := by
  induction count with
  | zero => exact pure []
  | succ count ih => exact hfollows.bind fun value => ih.bind fun rest => pure (value :: rest)

end Follows

/-- What the reader finds, the scanner finds, and neither leaves the input. -/
theorem Follows.scan_all {known : Nat → Prop} {scan : Scan α} {reader : Reader α}
    (hfollows : Follows known scan reader) (hknown : known input.length) :
    (∃ value, scanAll scan input = .ok value ∧ parse reader input = .ok value) ∨
      ∃ message, scanAll scan input = .error (.refused message) ∧
        parse reader input = .error (.refused message) := by
  have hagrees := hfollows input 0 (Nat.zero_le _) hknown
  rw [List.drop_zero] at hagrees
  rw [scanAll, parse]
  revert hagrees
  rcases scan input 0 with (fault | message) | ⟨value, reached⟩ <;>
    rcases reader input with (_ | text) | ⟨found, rest⟩ <;> intro hagrees
  all_goals first | exact hagrees.elim | skip
  · cases hagrees
    exact .inr ⟨message, rfl, rfl⟩
  · obtain ⟨rfl, -, -⟩ := hagrees
    exact .inl ⟨value, rfl, rfl⟩

/-- A parser without a fault hands back its output parameter, which is as it was when the parser
fails. -/
theorem assign_total {outcome : Except Stop α} (houtcome : ∀ fault, outcome ≠ .error (.fault fault))
    (output : α) :
    ∃ result after, assign outcome output = .ok (result, after) ∧
      (result ≠ .ok () → after = output) := by
  rcases outcome with (fault | message) | value
  · exact absurd rfl (houtcome fault)
  · exact ⟨.error message, output, rfl, fun _ => rfl⟩
  · exact ⟨.ok (), value, rfl, fun hfailed => absurd rfl hfailed⟩

/-- A scanner that follows a reader from any offset commits no fault. -/
theorem Follows.no_fault {scan : Scan α} {reader : Reader α} (hfollows : Follows anyLeft scan reader)
    (input : List UInt8) (fault : Fault) : scanAll scan input ≠ .error (.fault fault) := by
  rcases hfollows.scan_all (show anyLeft input.length from trivial) with
    ⟨value, hscan, -⟩ | ⟨message, hscan, -⟩ <;>
    rw [hscan] <;> nofun

/-! ## Frames -/

section Frames

open Framing

variable {H M : Type}

/-- Look for a frame on the front of a buffer: more bytes are needed, or its message and its size
are found. The bytes of the body are copied and scanned on their own. -/
def scanFrame (headerSize : Nat) (readHeader : Scan H) (bodySize : H → Nat)
    (readBody : H → Scan M) : Scan (Option (M × Nat)) := do
  let size ← size
  if size < headerSize then pure none
  else do
    let header ← readHeader
    let frameSize := headerSize + bodySize header
    if size < frameSize then pure none
    else do
      let body ← bytesAt headerSize (bodySize header)
      let message ← inside (readBody header) body
      pure (some (message, frameSize))

/-- What becomes of the buffer and of a message that is assigned when a frame is complete. -/
def takeOff (outcome : Except Stop (Option (M × Nat))) (message : M) (buffer : List UInt8) :
    Except Fault (DecodeStatus Unit × M × List UInt8) :=
  match outcome with
  | .ok none => .ok (.needMoreData, message, buffer)
  | .ok (some (decoded, frameSize)) => .ok (.complete (), decoded, buffer.drop frameSize)
  | .error (.refused text) => .ok (.error (.refused text), message, buffer)
  | .error (.fault fault) => .error fault

/-- What was found in a buffer is what a decoder says of it. -/
def Found (buffer : List UInt8) (outcome : Except Stop (Option (M × Nat)))
    (decoded : DecodeStatus M × List UInt8) : Prop :=
  match outcome with
  | .ok none => decoded = (.needMoreData, buffer)
  | .ok (some (message, frameSize)) => decoded = (.complete message, buffer.drop frameSize)
  | .error (.refused text) => decoded = (.error (.refused text), buffer)
  | .error (.fault _) => False

/-- The scanner of headers does on a buffer what the reader does on the bytes of the header. -/
def HeaderFound (format : FrameFormat H M) (readHeader : Scan H) : Prop :=
  ∀ buffer : List UInt8, format.headerSize ≤ buffer.length →
    (∃ header, readHeader buffer 0 = .ok (header, 0) ∧
      parse format.readHeader (buffer.take format.headerSize) = .ok header) ∨
    ∃ message, readHeader buffer 0 = .error (.refused message) ∧
      parse format.readHeader (buffer.take format.headerSize) = .error (.refused message)

/-- A scanner of frames whose parts follow the parts of a format follows the format. -/
theorem found_frame {format : FrameFormat H M} {readHeader : Scan H} {readBody : H → Scan M}
    (hheader : HeaderFound format readHeader)
    (hbody : ∀ header, Follows anyLeft (readBody header) (format.readBody header))
    (buffer : List UInt8) :
    Found buffer
      (scanAll (scanFrame format.headerSize readHeader format.bodySize readBody) buffer)
      (format.tryDecode buffer) := by
  have hsize : ∀ next : Nat → Scan (Option (M × Nat)),
      (size >>= next) buffer 0 = next buffer.length buffer 0 := fun next => rfl
  rw [scanAll, scanFrame, hsize, FrameFormat.tryDecode]
  by_cases hshort : buffer.length < format.headerSize
  · rw [if_pos hshort, if_pos hshort]
    rfl
  rw [if_neg hshort, if_neg hshort]
  rcases hheader buffer (Nat.not_lt.mp hshort) with
    ⟨header, hscan, hread⟩ | ⟨message, hscan, hread⟩
  · rw [bind_ok hscan, hread]
    dsimp only
    by_cases hpart : buffer.length < format.headerSize + format.bodySize header
    · rw [if_pos hpart, if_pos hpart]
      rfl
    rw [if_neg hpart, if_neg hpart, bind_ok (bytes_at_eq_ok 0 (Nat.not_lt.mp hpart))]
    rcases (hbody header).scan_all trivial with ⟨decoded, hinside, hparsed⟩ | ⟨text, hinside, hparsed⟩
    · have hmessage : inside (readBody header)
          ((buffer.drop format.headerSize).take (format.bodySize header)) buffer 0 =
            .ok (decoded, 0) := by
        rw [inside, hinside]
      rw [bind_ok hmessage, hparsed]
      rfl
    · have hmessage : ∀ next : M → Scan (Option (M × Nat)), (inside (readBody header)
          ((buffer.drop format.headerSize).take (format.bodySize header)) >>= next) buffer 0 =
            .error (.refused text) := by
        intro next
        show Except.bind (inside _ _ buffer 0) _ = _
        rw [inside, hinside]
        rfl
      rw [hmessage, hparsed]
      rfl
  · have hrefused : ∀ next : H → Scan (Option (M × Nat)),
        (readHeader >>= next) buffer 0 = .error (.refused message) := by
      intro next
      show Except.bind (readHeader buffer 0) _ = _
      rw [hscan]
      rfl
    rw [hrefused, hread]
    rfl

/-- When no frame is found, the message and the buffer are as they were. -/
theorem Found.take_off_total {buffer : List UInt8} {outcome : Except Stop (Option (M × Nat))}
    {decoded : DecodeStatus M × List UInt8} (hfound : Found buffer outcome decoded) (message : M) :
    ∃ status taken after, takeOff outcome message buffer = .ok (status, taken, after) ∧
      (status ≠ .complete () → taken = message ∧ after = buffer) := by
  rcases outcome with (fault | text) | (_ | ⟨found, frameSize⟩)
  · exact hfound.elim
  · exact ⟨_, _, _, rfl, fun _ => ⟨rfl, rfl⟩⟩
  · exact ⟨_, _, _, rfl, fun _ => ⟨rfl, rfl⟩⟩
  · exact ⟨_, _, _, rfl, fun hfailed => absurd rfl hfailed⟩

end Frames

end ByteScan
