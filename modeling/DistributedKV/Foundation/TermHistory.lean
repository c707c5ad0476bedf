import DistributedKV.Foundation.StampedLog
import Mathlib.Data.Finset.Basic
import Mathlib.Logic.Relation

/-!
# Histories of a term-based replicated log

A history records, beside the current term and log of every node, what must be remembered of
the past: the votes of every term, the log each candidate stood with, the leader of a term with
its electors and its log, and how much of that log every node has acknowledged. A step is one
action of one node. `Grows` says what is only added to, `Frame` what a step of one node leaves
as it is for the others.
-/

namespace TermLog

open Function

/-- Change a two-argument function at one point. -/
def updatePair {A B C : Type*} [DecidableEq A] [DecidableEq B] (f : A → B → C) (a : A) (b : B)
    (value : C) : A → B → C :=
  fun x y => if x = a ∧ y = b then value else f x y

section UpdatePair

variable {A B C : Type*} [DecidableEq A] [DecidableEq B] {f : A → B → C} {a : A} {b : B}
  {value : C}

@[simp]
theorem updatePair_self : updatePair f a b value a b = value := if_pos ⟨rfl, rfl⟩

theorem updatePair_of_ne {x : A} {y : B} (hne : ¬(x = a ∧ y = b)) :
    updatePair f a b value x y = f x y := if_neg hne

end UpdatePair

/-- What the nodes hold and what the terms have seen. -/
structure History (N E : Type*) where
  term : N → Nat
  log : N → List E
  vote : N → Nat → Option N
  stood : Nat → N → Option (List E)
  leader : Nat → Option N
  leaderLog : Nat → List E
  electors : Nat → Finset N
  acked : Nat → N → Nat

/-- The history before anything has happened. -/
def History.initial (N E : Type*) : History N E where
  term _ := 0
  log _ := []
  vote _ _ := none
  stood _ _ := none
  leader _ := none
  leaderLog _ := []
  electors _ := ∅
  acked _ _ := 0

variable {N E : Type*} [DecidableEq N]

namespace History

/-- Node `n` moves to a term. -/
def raise (H : History N E) (n : N) (term : Nat) : History N E :=
  { H with term := update H.term n term }

/-- Node `n` is recorded as a candidate of a term with its current log. -/
def enrol (H : History N E) (n : N) (term : Nat) : History N E :=
  { H with stood := updatePair H.stood term n (some (H.log n)) }

/-- Node `n` votes for a candidate. -/
def castVote (H : History N E) (n candidate : N) (term : Nat) : History N E :=
  { H with vote := updatePair H.vote n term (some candidate) }

/-- Node `n` moves to a term, stands in it and votes for itself. -/
def stand (H : History N E) (n : N) (term : Nat) : History N E :=
  ((H.raise n term).enrol n term).castVote n n term

/-- Node `n` leads a term, elected by a set of nodes. -/
def elect (H : History N E) (n : N) (term : Nat) (electors : Finset N) : History N E :=
  { H with
    leader := update H.leader term (some n)
    leaderLog := update H.leaderLog term (H.log n)
    electors := update H.electors term electors }

/-- The leader `n` of a term appends an entry. -/
def append (H : History N E) (n : N) (term : Nat) (entry : E) : History N E :=
  { H with
    log := update H.log n (H.log n ++ [entry])
    leaderLog := update H.leaderLog term (H.log n ++ [entry])
    acked := updatePair H.acked term n (H.log n ++ [entry]).length }

/-- Node `n` takes over a log from the leader of a term and acknowledges a length of it. -/
def accept (H : History N E) (n : N) (term : Nat) (log : List E) (length : Nat) : History N E :=
  { H with
    log := update H.log n log
    acked := updatePair H.acked term n (max (H.acked term n) length) }

/-! What an update puts into the fields that it writes, and that it keeps the rest of them. -/

section Updates

variable {H : History N E} {n c m : N} {term t : Nat} {entry : E} {log : List E} {length : Nat}
  {electors : Finset N}

@[simp]
theorem raise_term : (H.raise n term).term n = term := update_self ..

theorem raise_term_of_ne (hne : m ≠ n) : (H.raise n term).term m = H.term m :=
  update_of_ne hne ..

@[simp]
theorem enrol_stood : (H.enrol n term).stood term n = some (H.log n) := updatePair_self

theorem enrol_stood_of_ne (hne : ¬(t = term ∧ m = n)) :
    (H.enrol n term).stood t m = H.stood t m := updatePair_of_ne hne

@[simp]
theorem castVote_vote : (H.castVote n c term).vote n term = some c := updatePair_self

theorem castVote_vote_of_ne (hne : ¬(m = n ∧ t = term)) :
    (H.castVote n c term).vote m t = H.vote m t := updatePair_of_ne hne

@[simp]
theorem append_log : (H.append n term entry).log n = H.log n ++ [entry] :=
  update_self ..

theorem append_log_of_ne (hne : m ≠ n) : (H.append n term entry).log m = H.log m :=
  update_of_ne hne ..

@[simp]
theorem append_leaderLog : (H.append n term entry).leaderLog term = H.log n ++ [entry] :=
  update_self ..

theorem append_leaderLog_of_ne (hne : t ≠ term) :
    (H.append n term entry).leaderLog t = H.leaderLog t := update_of_ne hne ..

@[simp]
theorem append_acked : (H.append n term entry).acked term n = (H.log n ++ [entry]).length :=
  updatePair_self

theorem append_acked_of_ne (hne : ¬(t = term ∧ m = n)) :
    (H.append n term entry).acked t m = H.acked t m := updatePair_of_ne hne

@[simp]
theorem accept_log : (H.accept n term log length).log n = log := update_self ..

theorem accept_log_of_ne (hne : m ≠ n) : (H.accept n term log length).log m = H.log m :=
  update_of_ne hne ..

@[simp]
theorem accept_acked :
    (H.accept n term log length).acked term n = max (H.acked term n) length := updatePair_self

theorem accept_acked_of_ne (hne : ¬(t = term ∧ m = n)) :
    (H.accept n term log length).acked t m = H.acked t m := updatePair_of_ne hne

omit [DecidableEq N]

@[simp]
theorem elect_leader : (H.elect n term electors).leader term = some n := update_self ..

theorem elect_leader_of_ne (hne : t ≠ term) :
    (H.elect n term electors).leader t = H.leader t := update_of_ne hne ..

@[simp]
theorem elect_leaderLog : (H.elect n term electors).leaderLog term = H.log n :=
  update_self ..

theorem elect_leaderLog_of_ne (hne : t ≠ term) :
    (H.elect n term electors).leaderLog t = H.leaderLog t := update_of_ne hne ..

@[simp]
theorem elect_electors : (H.elect n term electors).electors term = electors :=
  update_self ..

theorem elect_electors_of_ne (hne : t ≠ term) :
    (H.elect n term electors).electors t = H.electors t := update_of_ne hne ..

end Updates

end History

/-- What a protocol leaves open: the term an entry is stamped with, the sets that elect a leader
and choose an entry, and the entries a leader may put at a position. -/
structure Rules (N E : Type*) where
  stamp : E → Nat
  quorum : Finset N → Prop
  valid : Nat → E → Prop

/-- One action of node `n`. -/
inductive Step (R : Rules N E) (n : N) (H : History N E) : History N E → Prop where
  | raise (term : Nat) (hterm : H.term n < term) : Step R n H (H.raise n term)
  | stand (term : Nat) (hterm : H.term n < term) : Step R n H (H.stand n term)
  | castVote (candidate : N) (log : List E)
      (hvote : H.vote n (H.term n) = none)
      (hstood : H.stood (H.term n) candidate = some log)
      (hfresh : UpToDate R.stamp log (H.log n)) :
      Step R n H (H.castVote n candidate (H.term n))
  | elect (electors : Finset N)
      (hleader : H.leader (H.term n) = none)
      (hstood : H.stood (H.term n) n = some (H.log n))
      (helectors : ∀ v ∈ electors, H.vote v (H.term n) = some n) (hquorum : R.quorum electors) :
      Step R n H (H.elect n (H.term n) electors)
  | append (entry : E)
      (hleader : H.leader (H.term n) = some n)
      (hstamp : R.stamp entry = H.term n) (hvalid : R.valid (H.log n).length entry) :
      Step R n H (H.append n (H.term n) entry)
  | accept (log : List E) (length : Nat)
      (hleader : ∃ c, H.leader (H.term n) = some c ∧ c ≠ n)
      (hlog : log <+: H.leaderLog (H.term n))
      (hkept : ∀ common, common <+: H.log n → common <+: H.leaderLog (H.term n) → common <+: log)
      (hpos : 0 < length) (hlength : length ≤ log.length) :
      Step R n H (H.accept n (H.term n) log length)

/-- What can only be added to along a run. -/
structure Grows (H K : History N E) : Prop where
  term : ∀ n, H.term n ≤ K.term n
  vote : ∀ n t c, H.vote n t = some c → K.vote n t = some c
  stood : ∀ t c log, H.stood t c = some log → K.stood t c = some log
  leader : ∀ t c, H.leader t = some c → K.leader t = some c
  leaderLog : ∀ t, H.leaderLog t <+: K.leaderLog t
  electors : ∀ t c, H.leader t = some c → K.electors t = H.electors t
  acked : ∀ t n, H.acked t n ≤ K.acked t n

omit [DecidableEq N] in
theorem Grows.refl (H : History N E) : Grows H H :=
  ⟨fun _ => le_rfl, fun _ _ _ h => h, fun _ _ _ h => h, fun _ _ h => h,
    fun _ => List.prefix_refl _, fun _ _ _ => rfl, fun _ _ => le_rfl⟩

omit [DecidableEq N] in
theorem Grows.trans {H K M : History N E} (hfirst : Grows H K) (hsecond : Grows K M) :
    Grows H M where
  term n := (hfirst.term n).trans (hsecond.term n)
  vote n t c h := hsecond.vote n t c (hfirst.vote n t c h)
  stood t c log h := hsecond.stood t c log (hfirst.stood t c log h)
  leader t c h := hsecond.leader t c (hfirst.leader t c h)
  leaderLog t := (hfirst.leaderLog t).trans (hsecond.leaderLog t)
  electors t c h :=
    (hsecond.electors t c (hfirst.leader t c h)).trans (hfirst.electors t c h)
  acked t n := (hfirst.acked t n).trans (hsecond.acked t n)

/-- What a step of `n` leaves as it is for another node. -/
structure Frame (n : N) (H K : History N E) : Prop where
  term : ∀ m, m ≠ n → K.term m = H.term m
  log : ∀ m, m ≠ n → K.log m = H.log m
  vote : ∀ m, m ≠ n → K.vote m = H.vote m
  stood : ∀ t m, m ≠ n → K.stood t m = H.stood t m
  acked : ∀ t m, m ≠ n → K.acked t m = H.acked t m
  leader : ∀ t m, m ≠ n → K.leader t = some m → H.leader t = some m
  leaderLog : ∀ t m, m ≠ n → H.leader t = some m → K.leaderLog t = H.leaderLog t

omit [DecidableEq N] in
theorem Frame.refl (n : N) (H : History N E) : Frame n H H :=
  ⟨fun _ _ => rfl, fun _ _ => rfl, fun _ _ => rfl, fun _ _ _ => rfl, fun _ _ _ => rfl,
    fun _ _ _ h => h, fun _ _ _ _ => rfl⟩

end TermLog
