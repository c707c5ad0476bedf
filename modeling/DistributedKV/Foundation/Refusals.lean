import DistributedKV.Foundation.ByteReader

/-!
# Readers that say why they refuse

A caller that takes an empty text for success depends on a reader that gives a reason for every
refusal and never runs past the end of its input. `Explains` says so of a reader, given what is known
of the number of bytes it has. The rules follow the shape of the reader.
-/

namespace ByteReader

variable {α β : Type}

/-- With so many bytes, the reader fails only by refusing, and with a text. -/
def Explains (known : Nat → Prop) (reader : Reader α) : Prop :=
  ∀ input, known input.length → ∀ error, reader input = .error error →
    ∃ message, error = .refused message ∧ message ≠ ""

namespace Explains

variable {known : Nat → Prop} {reader : Reader α}

theorem mono {more : Nat → Prop} (hreader : Explains known reader)
    (hmore : ∀ size, more size → known size) : Explains more reader :=
  fun input hsize => hreader input (hmore _ hsize)

theorem pure (value : α) : Explains known (Pure.pure value : Reader α) := by
  intro input _ error herror
  cases herror

theorem refuse {message : String} (hmessage : message ≠ "") :
    Explains known (ByteReader.refuse message : Reader α) := by
  intro input _ error herror
  cases herror
  exact ⟨message, rfl, hmessage⟩

/-- Readers that explain their refusals compose. -/
theorem bind {next : α → Reader β} (hreader : Explains known reader)
    (hnext : ∀ value, Explains (fun _ => True) (next value)) : Explains known (reader >>= next) := by
  intro input hsize error herror
  cases hfirst : reader input with
  | error first =>
    have hsame : (reader >>= next) input = .error first := by
      show Except.bind (reader input) _ = _
      rw [hfirst]
      rfl
    cases hsame.symm.trans herror
    exact hreader input hsize error hfirst
  | ok outcome =>
    obtain ⟨value, rest⟩ := outcome
    rw [bind_ok hfirst] at herror
    exact hnext value rest trivial error herror

theorem remaining_bind {next : Nat → Reader β}
    (hnext : ∀ size, known size → Explains (· = size) (next size)) :
    Explains known (remaining >>= next) :=
  fun input hsize => hnext input.length hsize input rfl

theorem bytes {count : Nat} (hroom : ∀ size, known size → count ≤ size) :
    Explains known (takeBytes count) := by
  intro input hsize error herror
  rw [take_bytes_apply, if_neg (Nat.not_lt.mpr (hroom _ hsize))] at herror
  cases herror

theorem word_bind {next : Nat → Reader β} {width : Nat}
    (hroom : ∀ size, known size → width ≤ size)
    (hnext : ∀ word, Explains (fun size => known (size + width)) (next word)) :
    Explains known (takeWord width >>= next) := by
  intro input hsize error herror
  have hlong := hroom _ hsize
  have htaken : (takeWord width : Reader _) input =
      .ok (wordAt 0 width input, input.drop width) := by
    have hdrop := take_word_drop (show 0 + width ≤ input.length by omega)
    rwa [List.drop_zero, Nat.zero_add] at hdrop
  rw [bind_ok htaken] at herror
  refine hnext _ (input.drop width) ?_ error herror
  show known ((input.drop width).length + width)
  rwa [List.length_drop, Nat.sub_add_cancel hlong]

theorem test {condition : Prop} [Decidable condition] {message : String} (hmessage : message ≠ "")
    (hreader : ¬ condition → Explains known reader) :
    Explains known (if condition then ByteReader.refuse message else reader) := by
  split_ifs with hcondition
  · exact refuse hmessage
  · exact hreader hcondition

end Explains

end ByteReader
