import Mathlib.Data.Finmap
import Mathlib.Data.Finset.Sort

/-!
# Finite maps as tables

A finite map is written out under a list of keys and put together again by inserting the rows. When
every key of the map is listed, the result is the map (`restrict_of_covers`).
-/

namespace Tables

variable {κ β : Type*} [DecidableEq κ]

/-- The part of a map under some keys. -/
def restrict (map : Finmap fun _ : κ => β) : List κ → Finmap fun _ : κ => β
  | [] => ∅
  | key :: rest =>
    match map.lookup key with
    | none => restrict map rest
    | some value => (restrict map rest).insert key value

variable {map : Finmap fun _ : κ => β} {keys : List κ} {key : κ}

/-- A listed key has its value, and no other key has one. -/
theorem lookup_restrict :
    (restrict map keys).lookup key = if key ∈ keys then map.lookup key else none := by
  induction keys with
  | nil => simp [restrict]
  | cons first rest ih =>
    rcases eq_or_ne key first with rfl | hne
    · rw [restrict, if_pos List.mem_cons_self]
      cases hlookup : map.lookup key with
      | none => simp [ih, hlookup]
      | some value => exact Finmap.lookup_insert _
    · have hmem : key ∈ first :: rest ↔ key ∈ rest := by simp [hne]
      rw [restrict, if_congr hmem rfl rfl, ← ih]
      cases map.lookup first with
      | none => rfl
      | some value => exact Finmap.lookup_insert_of_ne _ hne

theorem restrict_of_covers (hcovers : ∀ key ∈ map, key ∈ keys) : restrict map keys = map := by
  refine Finmap.ext_lookup fun key => ?_
  rw [lookup_restrict]
  split_ifs with hkey
  · rfl
  · have habsent : key ∉ map := fun hmem => hkey (hcovers key hmem)
    exact (Finmap.lookup_eq_none.mpr habsent).symm

theorem not_mem_restrict (hkey : key ∉ keys) : key ∉ restrict map keys := by
  rw [← Finmap.lookup_eq_none, lookup_restrict, if_neg hkey]

theorem restrict_sort (r : κ → κ → Prop) [DecidableRel r] [IsTrans κ r] [Std.Antisymm r]
    [Std.Total r] (map : Finmap fun _ : κ => β) : restrict map (map.keys.sort r) = map :=
  restrict_of_covers fun _ hmem => (Finset.mem_sort r).mpr (Finmap.mem_keys.mpr hmem)

end Tables
