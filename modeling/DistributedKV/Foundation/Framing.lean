import DistributedKV.Foundation.WireFormat
import Mathlib.Data.List.Forall2

/-!
# Frames in a stream of bytes

A frame is a header of fixed size that announces the size of the body behind it. A receiver appends
the bytes it gets, in whatever chunks they come, to a buffer, and after each chunk takes complete
frames off the front of the buffer for as long as there are any.

What was received and what is left in the buffer are determined by the bytes alone
(`Parsed.unique`), since the buffer never holds a complete frame between two chunks
(`parsed_receive_all`). So a stream of frames yields its messages in order however it is cut
(`receive_all_frames`).
-/

namespace Framing

open ByteReader List

/-- The outcome of an attempt to take a frame off the front of a buffer. -/
inductive DecodeStatus (M : Type) where
  | needMoreData
  | complete (message : M)
  | error (error : ReadError)
  deriving DecidableEq, Repr

/-- A format of frames with headers `H` and messages `M`. The header, which is not empty, is read
for the size of the body; the body of a complete frame is read for the message. -/
structure FrameFormat (H M : Type) where
  headerSize : Nat
  header_pos : 0 < headerSize
  readHeader : Reader H
  bodySize : H → Nat
  readBody : H → Reader M

namespace FrameFormat

variable {H M : Type} (format : FrameFormat H M)

/-- Take a complete frame off the front of a buffer. -/
def tryDecode (buffer : List UInt8) : DecodeStatus M × List UInt8 :=
  if buffer.length < format.headerSize then (.needMoreData, buffer)
  else
    match parse format.readHeader (buffer.take format.headerSize) with
    | .error error => (.error error, buffer)
    | .ok header =>
      let frameSize := format.headerSize + format.bodySize header
      if buffer.length < frameSize then (.needMoreData, buffer)
      else
        let body := (buffer.drop format.headerSize).take (format.bodySize header)
        match parse (format.readBody header) body with
        | .error error => (.error error, buffer)
        | .ok message => (.complete message, buffer.drop frameSize)

/-- The bytes are a frame of the message. -/
def Frame (message : M) (bytes : List UInt8) : Prop :=
  ∃ header start body, start.length = format.headerSize ∧
    parse format.readHeader start = .ok header ∧ body.length = format.bodySize header ∧
    parse (format.readBody header) body = .ok message ∧ bytes = start ++ body

variable {format} {message : M} {bytes : List UInt8} {status : DecodeStatus M}

theorem Frame.length_pos (hframe : format.Frame message bytes) : 0 < bytes.length := by
  obtain ⟨header, start, body, hstart, -, -, -, rfl⟩ := hframe
  have hpos := format.header_pos
  rw [length_append]
  omega

/-- A frame on the front of a buffer is taken off it. -/
theorem try_decode_frame (hframe : format.Frame message bytes) (rest : List UInt8) :
    format.tryDecode (bytes ++ rest) = (.complete message, rest) := by
  obtain ⟨header, start, body, hstart, hheader, hsize, hmessage, rfl⟩ := hframe
  have htake : (start ++ (body ++ rest)).take format.headerSize = start := by
    rw [← hstart, take_left]
  have hdrop : (start ++ (body ++ rest)).drop format.headerSize = body ++ rest := by
    rw [← hstart, drop_left]
  have hlength : (start ++ (body ++ rest)).length =
      format.headerSize + format.bodySize header + rest.length := by
    rw [length_append, length_append, hstart, hsize, Nat.add_assoc]
  rw [append_assoc, tryDecode, if_neg (by omega)]
  simp only [htake, hheader]
  rw [if_neg (by omega), hdrop, ← hsize, take_left]
  simp only [hmessage]
  rw [← drop_drop, hdrop, drop_left]

/-- An attempt takes a frame off the front, or leaves the buffer alone. -/
theorem try_decode_cases {buffer after : List UInt8}
    (hdecode : format.tryDecode buffer = (status, after)) :
    (∃ message bytes, status = .complete message ∧ format.Frame message bytes ∧
      buffer = bytes ++ after) ∨
    ((∀ message, status ≠ .complete message) ∧ after = buffer) := by
  rw [tryDecode] at hdecode
  split_ifs at hdecode with hshort
  · cases hdecode
    exact .inr ⟨nofun, rfl⟩
  rw [Nat.not_lt] at hshort
  cases hheader : parse format.readHeader (buffer.take format.headerSize) with
  | error error =>
    simp only [hheader] at hdecode
    cases hdecode
    exact .inr ⟨nofun, rfl⟩
  | ok header =>
    simp only [hheader] at hdecode
    split_ifs at hdecode with hpart
    · cases hdecode
      exact .inr ⟨nofun, rfl⟩
    rw [Nat.not_lt] at hpart
    cases hmessage : parse (format.readBody header)
        ((buffer.drop format.headerSize).take (format.bodySize header)) with
    | error error =>
      simp only [hmessage] at hdecode
      cases hdecode
      exact .inr ⟨nofun, rfl⟩
    | ok message =>
      simp only [hmessage] at hdecode
      cases hdecode
      refine .inl ⟨message, _, rfl,
        ⟨header, _, _, length_take_of_le hshort, hheader, ?_, hmessage, rfl⟩, ?_⟩
      · rw [length_take_of_le]
        rw [length_drop]
        omega
      · rw [append_assoc, ← drop_drop, take_append_drop,
          take_append_drop]

theorem try_decode_complete_iff {buffer rest : List UInt8} :
    format.tryDecode buffer = (.complete message, rest) ↔
      ∃ bytes, format.Frame message bytes ∧ buffer = bytes ++ rest := by
  constructor
  · intro hdecode
    obtain ⟨decoded, bytes, hstatus, hframe, hbuffer⟩ | ⟨hstatus, -⟩ := try_decode_cases hdecode
    · cases hstatus
      exact ⟨bytes, hframe, hbuffer⟩
    · exact absurd rfl (hstatus message)
  · rintro ⟨bytes, hframe, rfl⟩
    exact try_decode_frame hframe rest

theorem try_decode_unchanged {buffer after : List UInt8}
    (hdecode : format.tryDecode buffer = (status, after))
    (hstatus : ∀ message, status ≠ .complete message) : after = buffer := by
  obtain ⟨message, bytes, hcomplete, -, -⟩ | ⟨-, hsame⟩ := try_decode_cases hdecode
  · exact absurd hcomplete (hstatus message)
  · exact hsame

theorem Frame.unique {first second : M} {bytes others rest left : List UInt8}
    (hfirst : format.Frame first bytes) (hsecond : format.Frame second others)
    (hsame : bytes ++ rest = others ++ left) : first = second ∧ bytes = others ∧ rest = left := by
  have hdecode := try_decode_frame hfirst rest
  rw [hsame, try_decode_frame hsecond left] at hdecode
  cases hdecode
  exact ⟨rfl, append_cancel_right hsame, rfl⟩

/-! ## Receiving -/

/-- What a receiver has decoded, and the bytes that it has not. -/
structure Reception (M : Type) where
  messages : List M := []
  buffer : List UInt8 := []
  deriving DecidableEq, Repr

variable (format)

/-- Decode as long as a message is complete. -/
def decodeLoop : Nat → Reception M → Reception M
  | 0, reception => reception
  | rounds + 1, reception =>
    match format.tryDecode reception.buffer with
    | (.complete message, rest) =>
      decodeLoop rounds { messages := reception.messages ++ [message], buffer := rest }
    | (_, rest) => { reception with buffer := rest }

/-- Receive a chunk. Every message takes a byte at least, so there are no more rounds than bytes. -/
def receive (reception : Reception M) (chunk : List UInt8) : Reception M :=
  let buffer := reception.buffer ++ chunk
  format.decodeLoop buffer.length { reception with buffer }

/-- Receive chunks one after the other. -/
def receiveAll (chunks : List (List UInt8)) : Reception M := chunks.foldl format.receive {}

/-- No frame is complete at the front of the buffer. -/
def Idle (buffer : List UInt8) : Prop :=
  ∀ message bytes rest, format.Frame message bytes → buffer ≠ bytes ++ rest

/-- The bytes are frames of the messages with the buffer behind them. -/
def Consumed (bytes : List UInt8) (reception : Reception M) : Prop :=
  ∃ frames, List.Forall₂ format.Frame reception.messages frames ∧
    bytes = frames.flatten ++ reception.buffer

/-- The bytes are frames of the messages, and no other frame is complete. -/
def Parsed (bytes : List UInt8) (reception : Reception M) : Prop :=
  format.Consumed bytes reception ∧ format.Idle reception.buffer

variable {format}

theorem idle_nil : format.Idle [] := by
  intro message bytes rest hframe hnil
  have hpos := hframe.length_pos
  have hlength := congrArg length hnil
  rw [length_append, length_nil] at hlength
  omega

variable {bytes : List UInt8} {reception : Reception M} {message : M}

theorem Consumed.append (hconsumed : format.Consumed bytes reception) (chunk : List UInt8) :
    format.Consumed (bytes ++ chunk)
      { reception with buffer := reception.buffer ++ chunk } := by
  obtain ⟨frames, hframes, rfl⟩ := hconsumed
  exact ⟨frames, hframes, append_assoc _ _ _⟩

theorem Consumed.frame {frame rest : List UInt8} (hconsumed : format.Consumed bytes reception)
    (hframe : format.Frame message frame) (hbuffer : reception.buffer = frame ++ rest) :
    format.Consumed bytes { messages := reception.messages ++ [message], buffer := rest } := by
  obtain ⟨frames, hframes, rfl⟩ := hconsumed
  refine ⟨frames ++ [frame], ?_, ?_⟩
  · exact rel_append hframes (.cons hframe .nil)
  · rw [hbuffer, flatten_append, flatten_singleton, append_assoc]

/-- The loop consumes the frames and stops where none is complete. -/
theorem parsed_decode_loop {rounds : Nat} (hconsumed : format.Consumed bytes reception)
    (hrounds : reception.buffer.length ≤ rounds) :
    format.Parsed bytes (format.decodeLoop rounds reception) := by
  induction rounds generalizing reception with
  | zero =>
    rw [decodeLoop]
    refine ⟨hconsumed, ?_⟩
    rw [length_eq_zero_iff.mp (Nat.le_zero.mp hrounds)]
    exact idle_nil
  | succ rounds ih =>
    rw [decodeLoop]
    split
    · next message rest hdecode =>
      obtain ⟨frame, hframe, hbuffer⟩ := try_decode_complete_iff.mp hdecode
      refine ih (hconsumed.frame hframe hbuffer) ?_
      -- The frame that was taken off the buffer is not empty.
      have hpos := hframe.length_pos
      rw [hbuffer, length_append] at hrounds
      dsimp only
      omega
    · next status rest hstatus hdecode =>
      have hsame : rest = reception.buffer :=
        try_decode_unchanged hdecode fun message hcomplete => hstatus message hcomplete
      subst hsame
      refine ⟨hconsumed, ?_⟩
      intro message frame rest hframe hbuffer
      have hcomplete := try_decode_frame hframe rest
      rw [← hbuffer, hdecode] at hcomplete
      exact hstatus message (congrArg Prod.fst hcomplete)

theorem Parsed.receive (hparsed : format.Parsed bytes reception) (chunk : List UInt8) :
    format.Parsed (bytes ++ chunk) (format.receive reception chunk) :=
  parsed_decode_loop (hparsed.1.append chunk) (Nat.le_refl _)

/-- All chunks are received: their bytes are parsed. -/
theorem parsed_receive_all (chunks : List (List UInt8)) :
    format.Parsed chunks.flatten (format.receiveAll chunks) := by
  have hrun : ∀ bytes reception, format.Parsed bytes reception →
      format.Parsed (bytes ++ chunks.flatten) (chunks.foldl format.receive reception) := by
    induction chunks with
    | nil =>
      intro bytes reception hparsed
      rw [flatten_nil, append_nil]
      exact hparsed
    | cons chunk chunks ih =>
      intro bytes reception hparsed
      rw [flatten_cons, ← append_assoc]
      exact ih _ _ (hparsed.receive chunk)
  exact hrun [] {} ⟨⟨[], .nil, rfl⟩, idle_nil⟩

/-- The bytes determine what is parsed. -/
theorem Parsed.unique {first second : Reception M} (hfirst : format.Parsed bytes first)
    (hsecond : format.Parsed bytes second) : first = second := by
  obtain ⟨messages, buffer⟩ := first
  obtain ⟨others, left⟩ := second
  obtain ⟨⟨frames, hframes, hbytes⟩, hidle⟩ := hfirst
  obtain ⟨⟨pieces, hpieces, hothers⟩, hleft⟩ := hsecond
  dsimp only at hframes hbytes hidle hpieces hothers hleft
  have hsame := hbytes.symm.trans hothers
  clear hbytes hothers
  -- Both parses start with the same frame, or both stop.
  induction hframes generalizing others pieces with
  | nil =>
    cases hpieces with
    | nil => exact congrArg (Reception.mk []) hsame
    | cons hpiece hpieces =>
      rw [flatten_cons, append_assoc] at hsame
      exact absurd hsame (hidle _ _ _ hpiece)
  | cons hframe hframes ih =>
    rw [flatten_cons, append_assoc] at hsame
    cases hpieces with
    | nil => exact absurd hsame.symm (hleft _ _ _ hframe)
    | cons hpiece hpieces =>
      rw [flatten_cons, append_assoc] at hsame
      obtain ⟨rfl, rfl, hrest⟩ := hframe.unique hpiece hsame
      have htail := ih _ _ hpieces hrest
      rw [Reception.mk.injEq] at htail ⊢
      exact ⟨congrArg _ htail.1, htail.2⟩

theorem receive_all_frames {messages : List M} {frames chunks : List (List UInt8)}
    (hframes : List.Forall₂ format.Frame messages frames)
    (hchunks : chunks.flatten = frames.flatten) :
    format.receiveAll chunks = { messages } := by
  refine (parsed_receive_all chunks).unique ⟨⟨frames, hframes, ?_⟩, idle_nil⟩
  rw [hchunks, append_nil]

end FrameFormat

end Framing
