import DistributedKV.Foundation.TermHistory

/-!
# The invariant of histories

What holds in every history that is reached by steps from the initial one. The two fields that
carry the argument are `retained` and `votedRetained`: an acknowledged prefix stays in a node's
log, and reaches every candidate the node votes for later, as long as the leaders in between
have it. They are stated relative to the leaders in between, so that they are preserved without
any assumption on quorums.
-/

namespace TermLog

variable {N E : Type*}

/-- A term has a leader. -/
def History.Led (H : History N E) (term : Nat) : Prop := H.leader term ≠ none

theorem Grows.led {H K : History N E} (hgrows : Grows H K) {t : Nat} (hled : H.Led t) :
    K.Led t := by
  obtain ⟨c, hc⟩ := Option.ne_none_iff_exists'.mp hled
  exact Option.ne_none_iff_exists'.mpr ⟨c, hgrows.leader t c hc⟩

/-- The first entries of the log of a term's leader. -/
def History.start (H : History N E) (term length : Nat) : List E :=
  (H.leaderLog term).take length

/-- The invariant of histories. -/
structure Invariant (stamp : E → Nat) (H : History N E) : Prop where
  voteTerm : ∀ {v t c}, H.vote v t = some c → t ≤ H.term v
  voteStood : ∀ {v t c}, H.vote v t = some c → ∃ log, H.stood t c = some log
  stoodTerm : ∀ {t c log}, H.stood t c = some log → 0 < t ∧ t ≤ H.term c
  stoodStamped : ∀ {t c log}, H.stood t c = some log →
    WellStamped stamp H.leaderLog (t - 1) log
  leaderStood : ∀ {t c}, H.leader t = some c → ∃ log, H.stood t c = some log ∧
    log <+: H.leaderLog t ∧ ∀ entry ∈ (H.leaderLog t).drop log.length, stamp entry = t
  electorsVoted : ∀ {t c}, H.leader t = some c → ∀ v ∈ H.electors t, H.vote v t = some c
  unled : ∀ {t}, H.leader t = none → H.leaderLog t = [] ∧ ∀ v, H.acked t v = 0
  leaderHolds : ∀ {t c}, H.leader t = some c → H.term c = t → H.log c = H.leaderLog t
  leaderStamped : ∀ t, WellStamped stamp H.leaderLog t (H.leaderLog t)
  stamped : ∀ n, WellStamped stamp H.leaderLog (H.term n) (H.log n)
  ackedLength : ∀ t v, H.acked t v ≤ (H.leaderLog t).length
  ackedTerm : ∀ {t v}, 0 < H.acked t v → t ≤ H.term v
  ackedHeld : ∀ {v}, 0 < H.acked (H.term v) v → H.log v <+: H.leaderLog (H.term v)
  unacked : ∀ {v}, H.acked (H.term v) v = 0 → ∀ entry ∈ H.log v, stamp entry < H.term v
  retained : ∀ {T v i}, i ≤ H.acked T v →
    (∀ t, T < t → t ≤ H.term v → H.Led t → H.start T i <+: H.leaderLog t) →
    H.start T i <+: H.log v
  votedRetained : ∀ {v T T' c log i}, H.vote v T' = some c → H.stood T' c = some log →
    T < T' → (H.leader T' = none ∨ v ∈ H.electors T') → i ≤ H.acked T v →
    lastStamp stamp (H.start T i) = T →
    (∀ t, T < t → t < T' → H.Led t → H.start T i <+: H.leaderLog t) →
    H.start T i <+: log

/-- The invariant holds at the beginning. -/
theorem Invariant.initial (stamp : E → Nat) : Invariant stamp (History.initial N E) where
  voteTerm h := by simp [History.initial] at h
  voteStood h := by simp [History.initial] at h
  stoodTerm h := by simp [History.initial] at h
  stoodStamped h := by simp [History.initial] at h
  leaderStood h := by simp [History.initial] at h
  electorsVoted h := by simp [History.initial] at h
  unled _ := ⟨rfl, fun _ => rfl⟩
  leaderHolds h := by simp [History.initial] at h
  leaderStamped _ := .nil
  stamped _ := .nil
  ackedLength _ _ := le_rfl
  ackedTerm h := by simp [History.initial] at h
  ackedHeld h := by simp [History.initial] at h
  unacked _ := by simp [History.initial]
  retained _ _ := by simp [History.initial, History.start]
  votedRetained h := by simp [History.initial] at h

section Consequences

variable {stamp : E → Nat} {H : History N E}

theorem Invariant.acked_of_term_lt (hinv : Invariant stamp H) {t : Nat} {v : N}
    (hterm : H.term v < t) : H.acked t v = 0 := by
  by_contra hne
  have hle := hinv.ackedTerm (Nat.pos_of_ne_zero hne)
  omega

theorem Invariant.vote_of_term_lt (hinv : Invariant stamp H) {t : Nat} {v : N}
    (hterm : H.term v < t) : H.vote v t = none := by
  cases hvote : H.vote v t with
  | none => rfl
  | some c =>
    have hle := hinv.voteTerm hvote
    omega

theorem Invariant.stood_of_term_lt (hinv : Invariant stamp H) {t : Nat} {c : N}
    (hterm : H.term c < t) : H.stood t c = none := by
  cases hstood : H.stood t c with
  | none => rfl
  | some log =>
    have hle := (hinv.stoodTerm hstood).2
    omega

theorem Invariant.leader_term (hinv : Invariant stamp H) {t : Nat} {c : N}
    (hleader : H.leader t = some c) : 0 < t ∧ t ≤ H.term c := by
  obtain ⟨log, hstood, -⟩ := hinv.leaderStood hleader
  exact hinv.stoodTerm hstood

theorem Invariant.led_of_stamp (hinv : Invariant stamp H) {bound : Nat} {log : List E}
    (hlog : WellStamped stamp H.leaderLog bound log) {entry : E} (hentry : entry ∈ log) :
    H.Led (stamp entry) := by
  intro hnone
  obtain ⟨i, hi⟩ := List.getElem?_of_mem hentry
  have hsource := hlog.sourced i entry hi
  rw [(hinv.unled hnone).1, List.prefix_nil] at hsource
  have hlength := (List.getElem?_eq_some_iff.mp hi).1
  have hzero : (log.take (i + 1)).length = 0 := by rw [hsource]; rfl
  rw [List.length_take] at hzero
  omega

theorem Invariant.stamp_le_of_mem_start (hinv : Invariant stamp H) {t length : Nat} {entry : E}
    (hentry : entry ∈ H.start t length) : stamp entry ≤ t :=
  (hinv.leaderStamped t).bounded entry (List.mem_of_mem_take hentry)

end Consequences

end TermLog
