import DistributedKV.Foundation.ByteReader

/-!
# Readers that accept exactly what is written

`Reads` relates a reader to a writer: the reader accepts the strings that the writer makes of valid
values, and no others. It gives both directions of a round trip at once. A record is read field by
field. `Fills` says what a reader does for the rest of a record when some of its fields are known,
and its rules add one field, one test or one choice in front of such a rest.
-/

namespace ByteReader

open List

variable {α β : Type}

/-- The reader accepts exactly the strings that are written for valid values. -/
def Reads (reader : Reader α) (valid : α → Prop) (write : α → List UInt8) : Prop :=
  ∀ input value rest,
    reader input = .ok (value, rest) ↔ valid value ∧ input = write value ++ rest

/-- The reader completes a value of which something is known: it accepts exactly the strings that
are written for valid values of which this is true. Only some strings may come behind them. -/
def Fills (behind : List UInt8 → Prop) (reader : Reader β) (known valid : β → Prop)
    (write : β → List UInt8) : Prop :=
  ∀ input value rest, behind rest →
    (reader input = .ok (value, rest) ↔ (known value ∧ valid value) ∧ input = write value ++ rest)

/-- The value that a reader finds at the front of an input. -/
def parse (reader : Reader α) (input : List UInt8) : Except ReadError α :=
  Prod.fst <$> reader input

variable {reader : Reader α} {input : List UInt8} {spell : α → List UInt8}

theorem parse_eq_ok {value : α} :
    parse reader input = .ok value ↔ ∃ rest, reader input = .ok (value, rest) := by
  rw [parse]
  cases reader input with
  | error error => exact iff_of_false nofun (by rintro ⟨rest, ⟨⟩⟩)
  | ok outcome =>
    constructor
    · intro hvalue
      cases hvalue
      exact ⟨outcome.2, rfl⟩
    · rintro ⟨rest, houtcome⟩
      cases houtcome
      rfl

theorem map_eq_ok {into : α → β} {rest : List UInt8} {value : β} :
    (into <$> reader) input = .ok (value, rest) ↔
      ∃ first, reader input = .ok (first, rest) ∧ into first = value := by
  rw [map_eq_pure_bind, bind_eq_ok]
  constructor
  · rintro ⟨first, between, hfirst, hvalue⟩
    cases hvalue
    exact ⟨first, hfirst, rfl⟩
  · rintro ⟨first, hfirst, rfl⟩
    exact ⟨first, rest, hfirst, rfl⟩

theorem ended_eq_ok {message : String} {rest : List UInt8} {value : α} :
    ended message reader input = .ok (value, rest) ↔
      reader input = .ok (value, []) ∧ rest = [] := by
  rw [ended, bind_eq_ok]
  constructor
  · rintro ⟨first, between, hfirst, hend⟩
    rw [remaining_bind] at hend
    split_ifs at hend with hleft
    cases hend
    rw [not_ne_iff, length_eq_zero_iff] at hleft
    subst hleft
    exact ⟨hfirst, rfl⟩
  · rintro ⟨hread, rfl⟩
    exact ⟨value, [], hread, rfl⟩

/-! ## Single values -/

namespace Reads

variable {reader : Reader α} {valid : α → Prop} {write : α → List UInt8}

theorem whole (hreads : Reads reader valid write) {value : α} :
    reader input = .ok (value, []) ↔ valid value ∧ input = write value := by
  rw [hreads, append_nil]

/-- An input of the right length is a written value. -/
theorem parse_of_length (hreads : Reads reader valid write) {value : α}
    (hlength : ∀ value, valid value → (write value).length = input.length) :
    parse reader input = .ok value ↔ valid value ∧ input = write value := by
  rw [parse_eq_ok]
  constructor
  · rintro ⟨rest, hread⟩
    obtain ⟨hvalid, hinput⟩ := (hreads _ _ _).mp hread
    have hsame := congrArg length hinput
    rw [length_append, hlength value hvalid] at hsame
    have hrest : rest = [] := length_eq_zero_iff.mp (by omega)
    rw [hrest, append_nil] at hinput
    exact ⟨hvalid, hinput⟩
  · intro hwritten
    exact ⟨[], hreads.whole.mpr hwritten⟩

theorem congr {other : α → Prop} (hreads : Reads reader valid write)
    (hvalid : ∀ value, valid value ↔ other value) (hwrite : ∀ value, write value = spell value) :
    Reads reader other spell := by
  intro input value rest
  rw [hreads, hvalid, hwrite]

theorem bytes (count : Nat) : Reads (takeBytes count) (fun text => text.length = count) id := by
  intro input text rest
  rw [take_bytes_apply]
  split_ifs with hshort
  · refine iff_of_false (by simp) ?_
    rintro ⟨hlength, rfl⟩
    rw [length_append, id, hlength] at hshort
    omega
  · simp only [Except.ok.injEq, Prod.mk.injEq, id]
    rw [not_lt] at hshort
    constructor
    · rintro ⟨rfl, rfl⟩
      exact ⟨length_take_of_le hshort, (take_append_drop count input).symm⟩
    · rintro ⟨rfl, rfl⟩
      exact ⟨take_left, drop_left⟩

theorem map (hreads : Reads reader valid write) {into : α → β} {back : β → α}
    (hinto : ∀ value, valid value → back (into value) = value)
    (hback : ∀ value, into (back value) = value) :
    Reads (into <$> reader) (fun value => valid (back value)) fun value => write (back value) := by
  intro input value rest
  rw [map_eq_ok]
  constructor
  · rintro ⟨first, hfirst, rfl⟩
    obtain ⟨hvalid, hinput⟩ := (hreads _ _ _).mp hfirst
    dsimp only
    rw [hinto first hvalid]
    exact ⟨hvalid, hinput⟩
  · rintro ⟨hvalid, hinput⟩
    exact ⟨back value, (hreads _ _ _).mpr ⟨hvalid, hinput⟩, hback value⟩

end Reads

theorem from_big_endian_lt (digits : List UInt8) :
    fromBigEndian digits < 256 ^ digits.length := by
  induction digits using reverseRecOn with
  | nil => exact Nat.zero_lt_one
  | append_singleton start digit ih =>
    have hdigit := digit.toNat_lt
    rw [from_big_endian_append, length_append, length_singleton, Nat.pow_succ]
    have hsingle : fromBigEndian [digit] = digit.toNat := by simp [fromBigEndian]
    rw [hsingle]
    omega

theorem big_endian_from_big_endian (digits : List UInt8) :
    bigEndian digits.length (fromBigEndian digits) = digits := by
  refine from_big_endian_injective (length_big_endian _ _) ?_
  rw [from_big_endian_big_endian, Nat.mod_eq_of_lt (from_big_endian_lt digits)]

namespace Reads

theorem word (width : Nat) : Reads (takeWord width) (· < 256 ^ width) (bigEndian width) := by
  intro input value rest
  rw [take_word_eq, bind_eq_ok]
  constructor
  · rintro ⟨digits, between, hdigits, hvalue⟩
    cases hvalue
    obtain ⟨rfl, rfl⟩ := (bytes width _ _ _).mp hdigits
    exact ⟨from_big_endian_lt digits, by rw [big_endian_from_big_endian, id]⟩
  · rintro ⟨hfits, rfl⟩
    refine ⟨bigEndian width value, rest, (bytes width _ _ _).mpr ?_, ?_⟩
    · exact ⟨length_big_endian width value, rfl⟩
    · rw [from_big_endian_big_endian, Nat.mod_eq_of_lt hfits]
      rfl

theorem room {valid : α → Prop} {write : α → List UInt8} {needed : Nat} {message : String}
    (hreads : Reads reader valid write)
    (hneeded : ∀ value, valid value → needed ≤ (write value).length) :
    Reads (do let size ← remaining; if size < needed then refuse message else reader) valid
      write := by
  intro input value rest
  rw [remaining_bind]
  split_ifs with hshort
  · refine iff_of_false nofun ?_
    rintro ⟨hvalid, rfl⟩
    have hlength := hneeded value hvalid
    rw [length_append] at hshort
    omega
  · exact hreads input value rest

end Reads

/-! ## Records -/

namespace Fills

variable {behind : List UInt8 → Prop} {reader : Reader β} {known valid : β → Prop}
  {write : β → List UInt8}

theorem reads (hfills : Fills (fun _ => True) reader (fun _ => True) valid write) :
    Reads reader valid write := by
  intro input value rest
  rw [hfills input value rest trivial, and_iff_right trivial]

variable {message : String} {next : α → Reader β}

theorem parse_ended (hfills : Fills (· = []) reader known valid write) {value : β} :
    parse (ended message reader) input = .ok value ↔
      (known value ∧ valid value) ∧ input = write value := by
  rw [parse_eq_ok]
  have hwhole := hfills input value [] rfl
  rw [append_nil] at hwhole
  rw [← hwhole]
  constructor
  · rintro ⟨rest, hread⟩
    exact (ended_eq_ok.mp hread).1
  · intro hread
    exact ⟨[], ended_eq_ok.mpr ⟨hread, rfl⟩⟩

theorem congr {other : β → Prop} {spell : β → List UInt8}
    (hfills : Fills behind reader known valid write)
    (hvalid : ∀ value, known value → (valid value ↔ other value))
    (hwrite : ∀ value, known value → write value = spell value) :
    Fills behind reader known other spell := by
  intro input value rest hrest
  rw [hfills input value rest hrest, and_assoc, and_assoc]
  refine and_congr_right fun hknown => ?_
  rw [hvalid value hknown, hwrite value hknown]

theorem done {value : β} (hvalue : known value) (hunique : ∀ other, known other → other = value) :
    Fills behind (pure value) known (fun _ => True) fun _ => [] := by
  intro input other rest _
  dsimp only
  rw [pure_apply, and_true, nil_append]
  constructor
  · intro hread
    cases hread
    exact ⟨hvalue, rfl⟩
  · rintro ⟨hknown, rfl⟩
    rw [hunique other hknown]

/-- The next field is read, and is known from then on. -/
theorem part {first : Reader α} {fits : α → Prop} (part : β → α) (passes : β → Prop)
    (hfirst : Reads first fits spell)
    (hpasses : ∀ whole, known whole → (passes whole ↔ fits (part whole)))
    (hnext : ∀ value, fits value →
      Fills behind (next value) (fun whole => part whole = value ∧ known whole) valid write) :
    Fills behind (first >>= next) known (fun whole => passes whole ∧ valid whole)
      fun whole => spell (part whole) ++ write whole := by
  intro input whole rest hrest
  rw [bind_eq_ok]
  constructor
  · rintro ⟨value, between, hvalue, hwhole⟩
    obtain ⟨hfits, rfl⟩ := (hfirst _ _ _).mp hvalue
    obtain ⟨⟨⟨rfl, hknown⟩, hvalid⟩, rfl⟩ := (hnext value hfits _ _ _ hrest).mp hwhole
    exact ⟨⟨hknown, (hpasses whole hknown).mpr hfits, hvalid⟩, (append_assoc _ _ _).symm⟩
  · rintro ⟨⟨hknown, hwhole, hvalid⟩, rfl⟩
    have hfits := (hpasses whole hknown).mp hwhole
    refine ⟨part whole, write whole ++ rest, (hfirst _ _ _).mpr ⟨hfits, ?_⟩, ?_⟩
    · exact append_assoc _ _ _
    · exact (hnext _ hfits _ _ _ hrest).mpr ⟨⟨⟨rfl, hknown⟩, hvalid⟩, rfl⟩

theorem field {first : Reader α} {fits : α → Prop} (part : β → α) (hfirst : Reads first fits spell)
    (hnext : ∀ value, fits value →
      Fills behind (next value) (fun whole => part whole = value ∧ known whole) valid write) :
    Fills behind (first >>= next) known (fun whole => fits (part whole) ∧ valid whole)
      fun whole => spell (part whole) ++ write whole :=
  .part part (fun whole => fits (part whole)) hfirst (fun _ _ => Iff.rfl) hnext

theorem sized {first : Reader α} {fits : α → Prop} (part : β → α) (hfirst : Reads first fits spell)
    (hfits : ∀ whole, known whole → fits (part whole)) (hnext : ∀ value, fits value →
      Fills behind (next value) (fun whole => part whole = value ∧ known whole) valid write) :
    Fills behind (first >>= next) known valid fun whole => spell (part whole) ++ write whole := by
  have hpasses : ∀ whole, known whole → (True ↔ fits (part whole)) :=
    fun whole hknown => iff_of_true trivial (hfits whole hknown)
  have hpart := Fills.part part (fun _ => True) hfirst hpasses hnext
  exact hpart.congr (fun whole _ => and_iff_right trivial) fun _ _ => rfl

theorem lookup {found : Option α} (part : β → α)
    (hpart : ∀ whole, known whole → found = some (part whole))
    (hnext : ∀ value, found = some value → Fills behind (next value) known valid write) :
    Fills behind (orRefuse message found >>= next) known valid write := by
  intro input whole rest hrest
  cases found with
  | none =>
    refine iff_of_false nofun ?_
    rintro ⟨⟨hknown, -⟩, -⟩
    cases hpart whole hknown
  | some value => exact hnext value rfl input whole rest hrest

theorem guard {refused : Prop} [Decidable refused] (passes : β → Prop)
    (hpasses : ∀ whole, known whole → (passes whole ↔ ¬ refused))
    (hfills : ¬ refused → Fills behind reader known valid write) :
    Fills behind (if refused then refuse message else reader) known
      (fun whole => passes whole ∧ valid whole) write := by
  intro input whole rest hrest
  split_ifs with hrefused
  · refine iff_of_false nofun ?_
    rintro ⟨⟨hknown, hwhole, -⟩, -⟩
    exact (hpasses whole hknown).mp hwhole hrefused
  · rw [hfills hrefused input whole rest hrest]
    constructor
    · rintro ⟨⟨hknown, hvalid⟩, hinput⟩
      exact ⟨⟨hknown, (hpasses whole hknown).mpr hrefused, hvalid⟩, hinput⟩
    · rintro ⟨⟨hknown, -, hvalid⟩, hinput⟩
      exact ⟨⟨hknown, hvalid⟩, hinput⟩

theorem pass {refused : Prop} [Decidable refused] (hpass : ∀ whole, known whole → ¬ refused)
    (hfills : ¬ refused → Fills behind reader known valid write) :
    Fills behind (if refused then refuse message else reader) known valid write := by
  have hguard : Fills behind (if refused then refuse message else reader) known
      (fun whole => True ∧ valid whole) write :=
    guard (fun _ => True) (fun whole hknown => iff_of_true trivial (hpass whole hknown)) hfills
  exact hguard.congr (fun whole _ => and_iff_right trivial) fun _ _ => rfl

theorem check {refused : β → Prop} [DecidablePred refused]
    (hfills : Fills behind reader known valid write) :
    Fills behind (do let whole ← reader; if refused whole then refuse message else pure whole) known
      (fun whole => ¬ refused whole ∧ valid whole) write := by
  intro input whole rest hrest
  rw [bind_eq_ok]
  constructor
  · rintro ⟨found, between, hfound, hwhole⟩
    split_ifs at hwhole with hrefused
    cases hwhole
    obtain ⟨⟨hknown, hvalid⟩, hinput⟩ := (hfills _ _ _ hrest).mp hfound
    exact ⟨⟨hknown, hrefused, hvalid⟩, hinput⟩
  · rintro ⟨⟨hknown, hrefused, hvalid⟩, hinput⟩
    refine ⟨whole, rest, (hfills _ _ _ hrest).mpr ⟨⟨hknown, hvalid⟩, hinput⟩, ?_⟩
    rw [if_neg hrefused]
    rfl

theorem given (extra : β → Prop)
    (hfills : Fills behind reader (fun whole => extra whole ∧ known whole) valid write) :
    Fills behind reader known (fun whole => extra whole ∧ valid whole) write := by
  intro input whole rest hrest
  rw [hfills input whole rest hrest]
  refine and_congr_left fun _ => ?_
  rw [and_assoc, and_left_comm]

theorem size {refused : Nat → Prop} [DecidablePred refused]
    (hfills : Fills behind reader known valid write)
    (hsize : ∀ whole rest, behind rest → known whole → valid whole →
      ¬ refused ((write whole).length + rest.length)) :
    Fills behind (do let size ← remaining; if refused size then refuse message else reader) known
      valid write := by
  intro input whole rest hrest
  rw [remaining_bind]
  split_ifs with hrefused
  · refine iff_of_false nofun ?_
    rintro ⟨⟨hknown, hvalid⟩, rfl⟩
    rw [length_append] at hrefused
    exact hsize whole rest hrest hknown hvalid hrefused
  · exact hfills input whole rest hrest

theorem room {needed : Nat} (hfills : Fills behind reader known valid write)
    (hneeded : ∀ whole, known whole → valid whole → needed ≤ (write whole).length) :
    Fills behind (do let size ← remaining; if size < needed then refuse message else reader) known
      valid write := by
  refine hfills.size fun whole rest _ hknown hvalid => ?_
  have hlength := hneeded whole hknown hvalid
  omega

theorem exactly {needed : Nat} (hfills : Fills (· = []) reader known valid write)
    (hneeded : ∀ whole, known whole → valid whole → (write whole).length = needed) :
    Fills (· = []) (do let size ← remaining; if size ≠ needed then refuse message else reader)
      known valid write := by
  refine hfills.size fun whole rest hrest hknown hvalid => ?_
  rw [hrest, hneeded whole hknown hvalid]
  exact not_ne_iff.mpr rfl

end Fills

/-! ## Lists -/

/-- Values one after the other. -/
theorem Reads.many {valid : α → Prop} {write : α → List UInt8} (hreads : Reads reader valid write)
    (count : Nat) :
    Reads (takeMany reader count)
      (fun values => values.length = count ∧ ∀ value ∈ values, valid value)
      (List.flatMap write) := by
  induction count with
  | zero =>
    intro input values rest
    rw [takeMany, pure_apply]
    constructor
    · intro hread
      cases hread
      exact ⟨⟨rfl, nofun⟩, rfl⟩
    · rintro ⟨⟨hlength, -⟩, rfl⟩
      rw [length_eq_zero_iff.mp hlength]
      rfl
  | succ count ih =>
    intro input values rest
    simp only [takeMany, bind_eq_ok]
    constructor
    · rintro ⟨value, between, hvalue, others, after, hothers, hvalues⟩
      cases hvalues
      obtain ⟨hvalid, rfl⟩ := (hreads _ _ _).mp hvalue
      obtain ⟨⟨rfl, hall⟩, rfl⟩ := (ih _ _ _).mp hothers
      refine ⟨⟨rfl, forall_mem_cons.mpr ⟨hvalid, hall⟩⟩, ?_⟩
      rw [flatMap_cons, append_assoc]
    · rintro ⟨⟨hlength, hall⟩, rfl⟩
      cases values with
      | nil => cases hlength
      | cons value others =>
        obtain ⟨hvalid, hothers⟩ := forall_mem_cons.mp hall
        refine ⟨value, others.flatMap write ++ rest, (hreads _ _ _).mpr ⟨hvalid, ?_⟩,
          others, rest, (ih _ _ _).mpr ⟨⟨Nat.succ.inj hlength, hothers⟩, rfl⟩, rfl⟩
        rw [flatMap_cons, append_assoc]

end ByteReader
