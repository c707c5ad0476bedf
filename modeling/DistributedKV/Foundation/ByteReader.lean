import Mathlib.Algebra.Order.Group.Nat
import Mathlib.Data.List.Induction
import Mathlib.Tactic.Ring

/-!
# Big-endian words and byte readers

A reader consumes a byte string from the front. It either yields a value with the bytes it
did not consume, refuses the input with a message, or runs past the end of the input. The
last outcome is kept apart from the others, so that a parser can be shown never to read
outside its input. Words are written most significant byte first.
-/

namespace ByteReader

open List

/-- The `width` low-order base-256 digits of a value, most significant first. -/
def bigEndian : Nat → Nat → List UInt8
  | 0, _ => []
  | width + 1, value => UInt8.ofNat (value / 256 ^ width) :: bigEndian width value

/-- The value of a string of base-256 digits, most significant first. -/
def fromBigEndian (bytes : List UInt8) : Nat :=
  bytes.foldl (fun value byte => value * 256 + byte.toNat) 0

@[simp] theorem length_big_endian (width value : Nat) :
    (bigEndian width value).length = width := by
  induction width with
  | zero => rfl
  | succ width ih => simp [bigEndian, ih]

theorem foldl_big_endian (width value start : Nat) :
    (bigEndian width value).foldl (fun value byte => value * 256 + byte.toNat) start =
      start * 256 ^ width + value % 256 ^ width := by
  induction width generalizing start with
  | zero => simp [bigEndian, Nat.mod_one]
  | succ width ih =>
    simp only [bigEndian, foldl_cons, ih, UInt8.toNat_ofNat']
    rw [Nat.pow_succ 256 width, Nat.mod_mul (a := 256 ^ width) (b := 256) (x := value)]
    ring

theorem from_big_endian_big_endian (width value : Nat) :
    fromBigEndian (bigEndian width value) = value % 256 ^ width := by
  simp [fromBigEndian, foldl_big_endian]

/-- Why a reader stopped without a value. -/
inductive ReadError where
  | outOfBounds
  | refused (message : String)
  deriving DecidableEq, Repr

/-- A reader from the front of a byte string. -/
abbrev Reader (α : Type) := StateT (List UInt8) (Except ReadError) α

/-- The operations of a parser, however it keeps its place in the input. -/
class Parser (m : Type → Type) where
  /-- Refuse the input with a message. -/
  refuse {α : Type} (message : String) : m α
  /-- Whether the place is behind the end of the input. -/
  beyond : m Bool
  /-- The number of bytes left. -/
  remaining : m Nat
  /-- Consume exactly `count` bytes. -/
  takeBytes (count : Nat) : m (List UInt8)
  /-- Consume a big-endian word. -/
  takeWord (width : Nat) : m Nat

export Parser (refuse beyond remaining takeBytes takeWord)

/-- The first `count` bytes of an input. -/
def frontBytes (count : Nat) : Reader (List UInt8) := fun input =>
  if input.length < count then .error .outOfBounds
  else .ok (input.take count, input.drop count)

instance : Parser (StateT (List UInt8) (Except ReadError)) where
  refuse message := fun _ => .error (.refused message)
  beyond := pure false
  remaining := fun input => .ok (input.length, input)
  takeBytes := frontBytes
  takeWord width := do
    let bytes ← frontBytes width
    pure (fromBigEndian bytes)

section Parser

variable {m : Type → Type} [Monad m] [Parser m] {α : Type}

/-- A value that may be missing. -/
def orRefuse (message : String) : Option α → m α
  | none => refuse message
  | some value => pure value

/-- A number of values, one after the other. -/
def takeMany (parser : m α) : Nat → m (List α)
  | 0 => pure []
  | count + 1 => do
      let value ← parser
      let rest ← takeMany parser count
      pure (value :: rest)

/-- Read up to the end of the input. -/
def ended (message : String) (parser : m α) : m α := do
  let value ← parser
  let size ← remaining
  if size ≠ 0 then refuse message else pure value

end Parser

variable {α β : Type} {reader : Reader α} {next : α → Reader β} {value : α}
  {input rest : List UInt8} {message : String} {index : Nat}

theorem bind_ok {first : Reader α} (h : first input = .ok (value, rest)) :
    (first >>= next) input = next value rest := by
  simp only [bind, StateT.bind, Except.bind, h]

theorem bind_eq_ok {first : Reader α} {value : β} :
    (first >>= next) input = .ok (value, rest) ↔
      ∃ middle between, first input = .ok (middle, between) ∧
        next middle between = .ok (value, rest) := by
  simp only [bind, StateT.bind]
  cases hfirst : first input with
  | error error => simp [Except.bind]
  | ok outcome =>
    obtain ⟨middle, between⟩ := outcome
    simp [Except.bind]

theorem remaining_bind (next : Nat → Reader β) (input : List UInt8) :
    (remaining >>= next) input = next input.length input := rfl

theorem beyond_bind (next : Bool → Reader β) (input : List UInt8) :
    (beyond >>= next) input = next false input := rfl

theorem pure_apply (value : α) (input : List UInt8) :
    (pure value : Reader α) input = .ok (value, input) := rfl

theorem take_bytes_apply (count : Nat) (input : List UInt8) :
    (takeBytes count : Reader (List UInt8)) input =
      if input.length < count then .error .outOfBounds
      else .ok (input.take count, input.drop count) := rfl

theorem take_word_eq (width : Nat) : (takeWord width : Reader Nat) =
    (do let bytes ← takeBytes width; pure (fromBigEndian bytes)) := rfl

theorem take_bytes_append (bytes rest : List UInt8) :
    (takeBytes bytes.length : Reader _) (bytes ++ rest) = .ok (bytes, rest) := by
  simp [take_bytes_apply]

theorem take_word_append (width value : Nat) (rest : List UInt8) :
    (takeWord width : Reader _) (bigEndian width value ++ rest) =
      .ok (value % 256 ^ width, rest) := by
  have h := take_bytes_append (bigEndian width value) rest
  rw [length_big_endian] at h
  rw [take_word_eq, bind_ok h, pure_apply, from_big_endian_big_endian]

theorem uint64_of_nat_mod (value : UInt64) : UInt64.ofNat (value.toNat % 256 ^ 8) = value := by
  rw [Nat.mod_eq_of_lt (by simpa using value.toNat_lt)]
  exact UInt64.ofNat_toNat

/-! ## Reading back what was written -/

/-- The reader consumes exactly these bytes from the front of every input, and yields the value. -/
def Takes {α : Type} (reader : Reader α) (bytes : List UInt8) (value : α) : Prop :=
  ∀ rest, reader (bytes ++ rest) = .ok (value, rest)

namespace Takes

variable {bytes : List UInt8}

theorem pure (value : α) : Takes (Pure.pure value) [] value := fun _ => rfl

theorem bind (hfirst : Takes reader bytes value) {later : List UInt8} {result : β}
    (hnext : Takes (next value) later result) :
    Takes (reader >>= next) (bytes ++ later) result := by
  intro rest
  rw [append_assoc, bind_ok (hfirst _)]
  exact hnext rest

theorem map (hfirst : Takes reader bytes value) {result : β}
    (hnext : Takes (next value) [] result) : Takes (reader >>= next) bytes result := by
  have htaken := hfirst.bind hnext
  rwa [append_nil] at htaken

theorem size {refused : Nat → Prop} [DecidablePred refused]
    (hsize : ∀ more, ¬ refused (bytes.length + more)) (hreader : Takes reader bytes value) :
    Takes (do let size ← remaining; if refused size then refuse message else reader) bytes
      value := by
  intro rest
  rw [remaining_bind, length_append, if_neg (hsize _)]
  exact hreader rest

theorem room {needed : Nat} (hneeded : needed ≤ bytes.length) (hreader : Takes reader bytes value) :
    Takes (do let size ← remaining; if size < needed then refuse message else reader) bytes
      value :=
  hreader.size fun more => by omega

theorem guard {refused : Prop} [Decidable refused] (hpass : ¬ refused)
    (hreader : Takes reader bytes value) :
    Takes (if refused then refuse message else reader) bytes value := by
  rwa [if_neg hpass]

theorem word (width value : Nat) :
    Takes (takeWord width) (bigEndian width value) (value % 256 ^ width) :=
  take_word_append width value

theorem word_of_lt {width value : Nat} (hfits : value < 256 ^ width) :
    Takes (takeWord width) (bigEndian width value) value := by
  have htaken := word width value
  rwa [Nat.mod_eq_of_lt hfits] at htaken

theorem byte (byte : UInt8) : Takes (takeWord 1) [byte] byte.toNat := by
  intro rest
  simp [take_word_eq, take_bytes_apply, Bind.bind, StateT.bind, Except.bind, pure_apply, fromBigEndian]

theorem string (text : List UInt8) : Takes (takeBytes text.length) text text :=
  take_bytes_append text

theorem all (hreader : Takes reader bytes value) : reader bytes = .ok (value, []) := by
  have htaken := hreader []
  rwa [append_nil] at htaken

end Takes

/-! ## What comes behind -/

/-- What the reader yields does not depend on what comes behind the bytes it was given. -/
def Stable {α : Type} (reader : Reader α) : Prop :=
  ∀ input value rest, reader input = .ok (value, rest) →
    ∀ more, reader (input ++ more) = .ok (value, rest ++ more)

namespace Stable

theorem pure (value : α) : Stable (Pure.pure value : Reader α) := by
  rintro input yielded rest ⟨rfl, rfl⟩ more
  rfl

theorem refuse (message : String) : Stable (ByteReader.refuse message : Reader α) := by
  rintro input yielded rest ⟨⟩

theorem bind (hfirst : Stable reader) (hnext : ∀ value, Stable (next value)) :
    Stable (reader >>= next) := by
  intro input value rest hread more
  obtain ⟨middle, between, hmiddle, hvalue⟩ := bind_eq_ok.mp hread
  rw [bind_ok (hfirst input middle between hmiddle more)]
  exact hnext middle between value rest hvalue more

theorem bytes (count : Nat) : Stable (takeBytes count) := by
  intro input value rest hread more
  rw [take_bytes_apply] at hread
  rw [take_bytes_apply]
  split_ifs at hread with hshort
  cases hread
  rw [not_lt] at hshort
  rw [if_neg (by rw [length_append]; omega), take_append_of_le_length hshort,
    drop_append_of_le_length hshort]

theorem word (width : Nat) : Stable (takeWord width) :=
  (bytes width).bind fun _ => pure _

theorem room {refused : Nat → Prop} [DecidablePred refused]
    (hmore : ∀ size more, refused (size + more) → refused size) (hreader : Stable reader) :
    Stable (do let size ← remaining; if refused size then ByteReader.refuse message else reader) := by
  intro input value rest hread more
  rw [remaining_bind] at hread ⊢
  by_cases hrefused : refused input.length
  · rw [if_pos hrefused] at hread
    cases hread
  · rw [if_neg hrefused] at hread
    rw [if_neg fun h => hrefused (hmore _ _ (by rwa [length_append] at h))]
    exact hreader input value rest hread more

theorem ite {condition : Prop} [Decidable condition] {other : Reader α} (hreader : Stable reader)
    (hother : Stable other) : Stable (if condition then reader else other) := by
  split_ifs
  · exact hreader
  · exact hother

end Stable

theorem Takes.not_part {bytes : List UInt8} (htakes : Takes reader bytes value)
    (hstable : Stable reader) {count : Nat} (hcount : count < bytes.length) {other : α} :
    reader (bytes.take count) ≠ .ok (other, rest) := by
  intro hread
  have hwhole := hstable _ _ _ hread (bytes.drop count)
  rw [take_append_drop, htakes.all] at hwhole
  have hrest : [] = rest ++ bytes.drop count := congrArg Prod.snd (Except.ok.inj hwhole)
  have hlength := congrArg length hrest
  rw [length_append, length_drop, length_nil] at hlength
  omega

/-! ## Digits -/

/-- Digit strings of one length with one value are the same. -/
theorem from_big_endian_injective {first second : List UInt8}
    (hlength : first.length = second.length)
    (hvalue : fromBigEndian first = fromBigEndian second) : first = second := by
  induction first using reverseRecOn generalizing second with
  | nil => exact (length_eq_zero_iff.mp hlength.symm).symm
  | append_singleton start digit ih =>
    rcases eq_nil_or_concat second with rfl | ⟨others, last, rfl⟩
    · simp at hlength
    · rw [concat_eq_append] at hlength hvalue ⊢
      simp only [fromBigEndian, foldl_append, foldl_cons, foldl_nil] at hvalue
      have hdigit := digit.toNat_lt
      have hlast := last.toNat_lt
      have hsame : digit = last := UInt8.toNat_inj.mp (by omega)
      have hstart : fromBigEndian start = fromBigEndian others := by
        rw [fromBigEndian, fromBigEndian]
        omega
      rw [ih (by simpa using hlength) hstart, hsame]

theorem big_endian_add (high low value : Nat) :
    bigEndian (high + low) value = bigEndian high (value / 256 ^ low) ++ bigEndian low value := by
  induction high with
  | zero => rw [Nat.zero_add, bigEndian, nil_append]
  | succ high ih =>
    rw [Nat.succ_add, bigEndian, ih, bigEndian, cons_append, Nat.div_div_eq_div_mul,
      ← Nat.pow_add, Nat.add_comm low high]

/-- The value of two digit strings in a row. -/
theorem from_big_endian_append (high low : List UInt8) :
    fromBigEndian (high ++ low) = fromBigEndian high * 256 ^ low.length + fromBigEndian low := by
  have hshift : ∀ (digits : List UInt8) (start : Nat),
      digits.foldl (fun value byte => value * 256 + byte.toNat) start =
        start * 256 ^ digits.length + fromBigEndian digits := by
    intro digits
    induction digits with
    | nil => intro start; simp [fromBigEndian]
    | cons digit rest ih =>
      intro start
      have hcons : fromBigEndian (digit :: rest) =
          digit.toNat * 256 ^ rest.length + fromBigEndian rest := by
        rw [fromBigEndian, foldl_cons, ih, Nat.zero_mul, Nat.zero_add]
      rw [foldl_cons, ih, length_cons, hcons]
      ring
  rw [fromBigEndian, foldl_append, hshift, ← fromBigEndian]

/-! ## Words at fixed places -/

/-- The word of a given width at an offset. -/
def wordAt (offset width : Nat) (input : List UInt8) : Nat :=
  fromBigEndian ((input.drop offset).take width)

theorem word_at_append {before : List UInt8} {offset : Nat} (hbefore : before.length = offset)
    (width value : Nat) (after : List UInt8) :
    wordAt offset width (before ++ (bigEndian width value ++ after)) = value % 256 ^ width := by
  subst hbefore
  have htake : (bigEndian width value ++ after).take width = bigEndian width value := by
    rw [take_append_of_le_length (by simp), take_of_length_le (by simp)]
  rw [wordAt, drop_left, htake, from_big_endian_big_endian]

theorem take_bytes_drop {count : Nat} (hrange : index + count ≤ input.length) :
    (takeBytes count : Reader _) (input.drop index) =
      .ok ((input.drop index).take count, input.drop (index + count)) := by
  rw [take_bytes_apply, if_neg (by rw [length_drop]; omega), drop_drop]

theorem take_word_drop {width : Nat} (hrange : index + width ≤ input.length) :
    (takeWord width : Reader _) (input.drop index) =
      .ok (wordAt index width input, input.drop (index + width)) := by
  rw [take_word_eq, bind_ok (take_bytes_drop hrange)]
  rfl

theorem take_drop_take {count size : Nat} (hrange : index + count ≤ size) :
    ((input.take size).drop index).take count = (input.drop index).take count := by
  rw [drop_take, take_take, Nat.min_eq_left (by omega)]

theorem word_at_take {width size : Nat} (hrange : index + width ≤ size) :
    wordAt index width (input.take size) = wordAt index width input := by
  rw [wordAt, take_drop_take hrange, wordAt]

theorem take_word_start {width size : Nat} (hsize : size ≤ input.length)
    (hrange : index + width ≤ size) :
    (takeWord width : Reader _) ((input.take size).drop index) =
      .ok (wordAt index width input, (input.take size).drop (index + width)) := by
  have hlength : (input.take size).length = size := length_take_of_le hsize
  rw [take_word_drop (by rw [hlength]; exact hrange), word_at_take hrange]

end ByteReader
