import DistributedKV.Foundation.TermInvariant

/-!
# Steps preserve the invariant

One lemma per action, and from them that every step and every run preserves the invariant of
histories, that histories only grow, and that a step of one node frames the others.
-/

namespace TermLog

open History List Function

variable {N E : Type*} [DecidableEq N] {stamp : E → Nat} {R : Rules N E} {H K : History N E}
  {n : N}

theorem term_le_update {t : Nat} (hterm : H.term n < t) (m : N) :
    H.term m ≤ update H.term n t m := by
  rcases eq_or_ne m n with rfl | hm
  · simpa using hterm.le
  · simp [update_of_ne hm]

namespace Invariant

/-! ## Terms and votes -/

/-- Moving to a newer term preserves the invariant. -/
theorem raise (hinv : Invariant stamp H) {t : Nat} (hterm : H.term n < t) :
    Invariant stamp (H.raise n t) where
  __ := hinv
  voteTerm hvote := (hinv.voteTerm hvote).trans (term_le_update hterm _)
  stoodTerm hstood :=
    ⟨(hinv.stoodTerm hstood).1, (hinv.stoodTerm hstood).2.trans (term_le_update hterm _)⟩
  leaderHolds {t' c} hleader hc := by
    rcases eq_or_ne c n with rfl | hne
    · have hle := (hinv.leader_term hleader).2
      simp only [History.raise, update_self] at hc
      omega
    · simp only [History.raise, update_of_ne hne] at hc
      exact hinv.leaderHolds hleader hc
  stamped m := (hinv.stamped m).mono (term_le_update hterm m) fun _ => prefix_refl _
  ackedTerm hacked := (hinv.ackedTerm hacked).trans (term_le_update hterm _)
  ackedHeld {v} hacked := by
    rcases eq_or_ne v n with rfl | hne
    · simp only [History.raise, update_self, hinv.acked_of_term_lt hterm] at hacked
      omega
    · simp only [History.raise, update_of_ne hne] at hacked ⊢
      exact hinv.ackedHeld hacked
  unacked {v} hacked := by
    rcases eq_or_ne v n with rfl | hne
    · intro entry hentry
      simp only [History.raise, update_self]
      exact ((hinv.stamped v).bounded entry hentry).trans_lt hterm
    · simp only [History.raise, update_of_ne hne] at hacked ⊢
      exact hinv.unacked hacked
  retained hi hlater :=
    hinv.retained hi fun t' hlt hle => hlater t' hlt (hle.trans (term_le_update hterm _))

/-- A vote for a candidate that holds what was acknowledged preserves the invariant. -/
theorem with_vote (hinv : Invariant stamp H) {c : N} {log : List E}
    (hvote : H.vote n (H.term n) = none) (hstood : H.stood (H.term n) c = some log)
    (hheld : ∀ T i, T < H.term n → H.leader (H.term n) = none → i ≤ H.acked T n →
      lastStamp stamp (H.start T i) = T →
      (∀ t, T < t → t < H.term n → H.Led t → H.start T i <+: H.leaderLog t) →
      H.start T i <+: log) :
    Invariant stamp (H.castVote n c (H.term n)) where
  __ := hinv
  voteTerm {v t c'} h := by
    by_cases hat : v = n ∧ t = H.term n
    · exact hat.1 ▸ hat.2.le
    · rw [castVote_vote_of_ne hat] at h
      exact hinv.voteTerm h
  voteStood {v t c'} h := by
    by_cases hat : v = n ∧ t = H.term n
    · obtain ⟨rfl, rfl⟩ := hat
      obtain rfl : c = c' := by simpa using h
      exact ⟨log, hstood⟩
    · rw [castVote_vote_of_ne hat] at h
      exact hinv.voteStood h
  electorsVoted {t c'} hleader v hv := by
    have hold := hinv.electorsVoted hleader v hv
    have hat : ¬(v = n ∧ t = H.term n) := by
      rintro ⟨rfl, rfl⟩
      simp [hvote] at hold
    rwa [castVote_vote_of_ne hat]
  votedRetained {v T T' c' log' i} h hstood' hlt hunled hi hlast hlater := by
    by_cases hat : v = n ∧ T' = H.term n
    · obtain ⟨rfl, rfl⟩ := hat
      obtain rfl : c = c' := by simpa using h
      obtain rfl : log = log' := Option.some.inj (hstood.symm.trans hstood')
      -- An elector has voted before, so a first vote comes before the election.
      have hnone : H.leader (H.term v) = none := by
        rcases hunled with hnone | hmem
        · exact hnone
        · by_contra hled
          obtain ⟨d, hd⟩ := Option.ne_none_iff_exists'.mp hled
          have hold := hinv.electorsVoted hd v hmem
          simp [hvote] at hold
      exact hheld T i hlt hnone hi hlast hlater
    · rw [castVote_vote_of_ne hat] at h
      exact hinv.votedRetained h hstood' hlt hunled hi hlast hlater

/-- A vote for an up-to-date candidate preserves the invariant. -/
theorem castVote (hinv : Invariant stamp H) {c : N} {log : List E}
    (hvote : H.vote n (H.term n) = none) (hstood : H.stood (H.term n) c = some log)
    (hfresh : UpToDate stamp log (H.log n)) :
    Invariant stamp (H.castVote n c (H.term n)) := by
  refine hinv.with_vote hvote hstood ?_
  intro T i hlt hnone hi hlast hlater
  rcases Nat.eq_zero_or_pos T with rfl | hpos
  · -- Entries have positive stamps, so a start whose last stamp is zero is empty.
    have hnil : H.start 0 i = [] := by
      by_contra hne
      obtain ⟨entry, hentry⟩ := exists_mem_of_ne_nil _ hne
      have hle := hinv.stamp_le_of_mem_start hentry
      have := (hinv.leaderStamped 0).positive entry (mem_of_mem_take hentry)
      omega
    simp [hnil]
  · have hvoter : H.start T i <+: H.log n := by
      refine hinv.retained hi fun t hTt hle hled => ?_
      rcases hle.lt_or_eq with hlt' | rfl
      · exact hlater t hTt hlt' hled
      · exact absurd hnone hled
    refine carried_of_up_to_date (hinv.stoodStamped hstood) (hinv.stamped n) hpos
      (List.take_prefix _ _) hlast (hinv.leaderStamped T).bounded hvoter hfresh ?_
    intro entry hentry hnewer
    have hbound := (hinv.stoodStamped hstood).bounded entry hentry
    exact hlater _ hnewer (by omega) (hinv.led_of_stamp (hinv.stoodStamped hstood) hentry)

/-- Enrolling a node that has just reached a term preserves the invariant. -/
theorem enrol (hinv : Invariant stamp H) (hpos : 0 < H.term n)
    (hstood : H.stood (H.term n) n = none) (hstamps : ∀ entry ∈ H.log n, stamp entry < H.term n) :
    Invariant stamp (H.enrol n (H.term n)) where
  __ := hinv
  voteStood {v t c} h := by
    by_cases hat : t = H.term n ∧ c = n
    · obtain ⟨rfl, rfl⟩ := hat
      exact ⟨H.log c, enrol_stood⟩
    · rw [enrol_stood_of_ne hat]
      exact hinv.voteStood h
  stoodTerm {t c log} h := by
    by_cases hat : t = H.term n ∧ c = n
    · exact ⟨hat.1 ▸ hpos, hat.2 ▸ hat.1.le⟩
    · rw [enrol_stood_of_ne hat] at h
      exact hinv.stoodTerm h
  stoodStamped {t c log} h := by
    by_cases hat : t = H.term n ∧ c = n
    · obtain ⟨rfl, rfl⟩ := hat
      obtain rfl : H.log c = log := by simpa using h
      refine (hinv.stamped c).with_bound fun entry hentry => ?_
      have hlt := hstamps entry hentry
      omega
    · rw [enrol_stood_of_ne hat] at h
      exact hinv.stoodStamped h
  leaderStood {t c} h := by
    obtain ⟨log, hlog, hrest⟩ := hinv.leaderStood h
    refine ⟨log, ?_, hrest⟩
    have hat : ¬(t = H.term n ∧ c = n) := by
      rintro ⟨rfl, rfl⟩
      simp [hstood] at hlog
    rwa [enrol_stood_of_ne hat]
  votedRetained {v T T' c log i} hvote h := by
    have hat : ¬(T' = H.term n ∧ c = n) := by
      rintro ⟨rfl, rfl⟩
      obtain ⟨log, hlog⟩ := hinv.voteStood hvote
      simp [hstood] at hlog
    rw [enrol_stood_of_ne hat] at h
    exact hinv.votedRetained hvote h

/-- Standing in a newer term preserves the invariant. -/
theorem stand (hinv : Invariant stamp H) {t : Nat} (hterm : H.term n < t) :
    Invariant stamp (H.stand n t) := by
  have hraised := hinv.raise hterm
  have hat : (H.raise n t).term n = t := by simp [History.raise]
  have henrolled : Invariant stamp ((H.raise n t).enrol n t) := by
    have h := hraised.enrol (n := n) (by omega) (by
      rw [hat]; exact hinv.stood_of_term_lt hterm) (by
      rw [hat]; exact fun entry hentry => ((hinv.stamped n).bounded entry hentry).trans_lt hterm)
    rwa [hat] at h
  have hvote : ((H.raise n t).enrol n t).vote n (((H.raise n t).enrol n t).term n) = none := by
    show H.vote n ((H.raise n t).term n) = none
    rw [hat]
    exact hinv.vote_of_term_lt hterm
  have hstood : ((H.raise n t).enrol n t).stood (((H.raise n t).enrol n t).term n) n =
      some (H.log n) := by
    show updatePair H.stood t n (some (H.log n)) ((H.raise n t).term n) n = _
    rw [hat]
    simp [updatePair]
  have hvoted := henrolled.with_vote hvote hstood
    (by
      intro T i hlt _ hi _ hlater
      refine hinv.retained hi fun t' hlt' hle hled => hlater t' hlt' ?_ hled
      show t' < (H.raise n t).term n
      rw [hat]
      exact hle.trans_lt hterm)
  have hterm' : ((H.raise n t).enrol n t).term n = t := hat
  rwa [hterm'] at hvoted

/-! ## Growing leader logs

An election and an append only extend the logs of the leaders, so a start that was acknowledged
stays the same start. -/

section Growing

variable {T i : Nat} {v c : N} {log : List E}

omit [DecidableEq N]

theorem start_of_grows (hinv : Invariant stamp H) (hgrows : Grows H K) (hi : i ≤ H.acked T v) :
    K.start T i = H.start T i := by
  obtain ⟨more, hmore⟩ := hgrows.leaderLog T
  rw [History.start, ← hmore, take_append_of_le_length (hi.trans (hinv.ackedLength T v)),
    History.start]

/-- What a node retains when no log of a leader gains a start of an earlier term. -/
theorem retained_of_grows (hinv : Invariant stamp H) (hgrows : Grows H K)
    (hback : ∀ {t}, T < t → H.Led t → H.start T i <+: K.leaderLog t →
      H.start T i <+: H.leaderLog t)
    (hi : i ≤ H.acked T v)
    (hlater : ∀ t, T < t → t ≤ H.term v → K.Led t → K.start T i <+: K.leaderLog t) :
    K.start T i <+: H.log v := by
  rw [hinv.start_of_grows hgrows hi] at hlater ⊢
  exact hinv.retained hi fun t hlt hle hled =>
    hback hlt hled (hlater t hlt hle (hgrows.led hled))

/-- What a candidate retains of a voter when no log of a leader gains a start of an earlier
term. -/
theorem votedRetained_of_grows (hinv : Invariant stamp H) (hgrows : Grows H K)
    (hback : ∀ {t}, T < t → H.Led t → H.start T i <+: K.leaderLog t →
      H.start T i <+: H.leaderLog t)
    {T' : Nat} (hvote : H.vote v T' = some c) (hstood : H.stood T' c = some log) (hlt : T < T')
    (hunled : H.leader T' = none ∨ v ∈ H.electors T') (hi : i ≤ H.acked T v)
    (hlast : lastStamp stamp (K.start T i) = T)
    (hlater : ∀ t, T < t → t < T' → K.Led t → K.start T i <+: K.leaderLog t) :
    K.start T i <+: log := by
  rw [hinv.start_of_grows hgrows hi] at hlast hlater ⊢
  exact hinv.votedRetained hvote hstood hlt hunled hi hlast fun t hlt' hlt'' hled =>
    hback hlt' hled (hlater t hlt' hlt'' (hgrows.led hled))

end Growing

/-! ## Elections -/

section Elections

variable {electors : Finset N}

omit [DecidableEq N]

theorem grows_elect (hinv : Invariant stamp H) (hleader : H.leader (H.term n) = none) :
    Grows H (H.elect n (H.term n) electors) := by
  have hne : ∀ {t c}, H.leader t = some c → t ≠ H.term n := by
    rintro t c h rfl
    simp [hleader] at h
  refine { Grows.refl H with leader := ?_, leaderLog := ?_, electors := ?_ }
  · intro t c h
    rwa [elect_leader_of_ne (hne h)]
  · intro t
    rcases eq_or_ne t (H.term n) with rfl | ht
    · simp [(hinv.unled hleader).1]
    · rw [elect_leaderLog_of_ne ht]
  · intro t c h
    exact elect_electors_of_ne (hne h)

/-- An election extends no log of a term that has a leader. -/
theorem elect_begins (hleader : H.leader (H.term n) = none) {start : List E} {t : Nat}
    (hled : H.Led t) (hstart : start <+: (H.elect n (H.term n) electors).leaderLog t) :
    start <+: H.leaderLog t := by
  have hne : t ≠ H.term n := by
    rintro rfl
    exact hled hleader
  rwa [elect_leaderLog_of_ne hne] at hstart

/-- An election by voters of the candidate preserves the invariant. -/
theorem elect (hinv : Invariant stamp H) (hleader : H.leader (H.term n) = none)
    (hstood : H.stood (H.term n) n = some (H.log n))
    (helectors : ∀ v ∈ electors, H.vote v (H.term n) = some n) :
    Invariant stamp (H.elect n (H.term n) electors) := by
  have hgrows : Grows H (H.elect n (H.term n) electors) := hinv.grows_elect hleader
  exact
    { hinv with
      stoodStamped := fun h => (hinv.stoodStamped h).mono le_rfl hgrows.leaderLog
      leaderStood := by
        intro t c h
        rcases eq_or_ne t (H.term n) with rfl | hne
        · obtain rfl : n = c := by simpa using h
          exact ⟨H.log n, hstood, by simp, by simp⟩
        · rw [elect_leader_of_ne hne] at h
          rw [elect_leaderLog_of_ne hne]
          exact hinv.leaderStood h
      electorsVoted := by
        intro t c h v hv
        rcases eq_or_ne t (H.term n) with rfl | hne
        · obtain rfl : n = c := by simpa using h
          exact helectors v (by simpa using hv)
        · rw [elect_leader_of_ne hne] at h
          rw [elect_electors_of_ne hne] at hv
          exact hinv.electorsVoted h v hv
      unled := by
        intro t h
        have hne : t ≠ H.term n := by
          rintro rfl
          simp at h
        rw [elect_leader_of_ne hne] at h
        rw [elect_leaderLog_of_ne hne]
        exact hinv.unled h
      leaderHolds := by
        intro t c h hc
        rcases eq_or_ne t (H.term n) with rfl | hne
        · obtain rfl : n = c := by simpa using h
          show H.log n = _
          rw [elect_leaderLog]
        · rw [elect_leader_of_ne hne] at h
          rw [elect_leaderLog_of_ne hne]
          exact hinv.leaderHolds h hc
      leaderStamped := by
        intro t
        rcases eq_or_ne t (H.term n) with rfl | hne
        · rw [elect_leaderLog]
          exact (hinv.stamped n).mono le_rfl hgrows.leaderLog
        · rw [elect_leaderLog_of_ne hne]
          exact (hinv.leaderStamped t).mono le_rfl hgrows.leaderLog
      stamped := fun m => (hinv.stamped m).mono le_rfl hgrows.leaderLog
      ackedLength := fun t v => (hinv.ackedLength t v).trans (hgrows.leaderLog t).length_le
      ackedHeld := fun h => (hinv.ackedHeld h).trans (hgrows.leaderLog _)
      retained := hinv.retained_of_grows hgrows fun _ => elect_begins hleader
      votedRetained := by
        intro v T T' c log i hvote hstood' hlt hunled
        refine hinv.votedRetained_of_grows hgrows (fun _ => elect_begins hleader) hvote hstood'
          hlt ?_
        rcases eq_or_ne T' (H.term n) with rfl | hne
        · exact .inl hleader
        · rwa [elect_leader_of_ne hne, elect_electors_of_ne hne] at hunled }

end Elections

/-! ## Replication -/

section Replication

variable {entry : E} {T i : Nat} {v : N}

/-- The log of a leader after an append. -/
theorem leaderLog_append (hinv : Invariant stamp H) (hleader : H.leader (H.term n) = some n) :
    (H.append n (H.term n) entry).leaderLog (H.term n) = H.leaderLog (H.term n) ++ [entry] := by
  rw [append_leaderLog, hinv.leaderHolds hleader rfl]

theorem grows_append (hinv : Invariant stamp H) (hleader : H.leader (H.term n) = some n) :
    Grows H (H.append n (H.term n) entry) := by
  refine { Grows.refl H with leaderLog := ?_, acked := ?_ }
  · intro t
    rcases eq_or_ne t (H.term n) with rfl | ht
    · rw [hinv.leaderLog_append hleader]
      exact prefix_append _ _
    · rw [append_leaderLog_of_ne ht]
  · intro t v
    by_cases hat : t = H.term n ∧ v = n
    · obtain ⟨rfl, rfl⟩ := hat
      have hle := hinv.ackedLength (H.term v) v
      rw [append_acked, hinv.leaderHolds hleader rfl, length_append]
      omega
    · rw [append_acked_of_ne hat]

/-- The new entry is stamped with the leader's term, so no start of an earlier term ends in it. -/
theorem append_begins (hinv : Invariant stamp H) (hleader : H.leader (H.term n) = some n)
    (hstamp : stamp entry = H.term n) {t : Nat} (hlt : T < t)
    (hstart : H.start T i <+: (H.append n (H.term n) entry).leaderLog t) :
    H.start T i <+: H.leaderLog t := by
  rcases eq_or_ne t (H.term n) with rfl | hne
  · rw [hinv.leaderLog_append hleader, prefix_concat_iff] at hstart
    rcases hstart with heq | hold
    · have hmem : entry ∈ H.start T i := by rw [heq]; simp
      have hle := hinv.stamp_le_of_mem_start hmem
      omega
    · exact hold
  · rwa [append_leaderLog_of_ne hne] at hstart

theorem append_retained (hinv : Invariant stamp H) (hleader : H.leader (H.term n) = some n)
    (hstamp : stamp entry = H.term n) (hi : i ≤ (H.append n (H.term n) entry).acked T v)
    (hlater : ∀ t, T < t → t ≤ H.term v → H.Led t →
      (H.append n (H.term n) entry).start T i <+: (H.append n (H.term n) entry).leaderLog t) :
    (H.append n (H.term n) entry).start T i <+: (H.append n (H.term n) entry).log v := by
  by_cases hat : T = H.term n ∧ v = n
  · obtain ⟨rfl, rfl⟩ := hat
    rw [append_log, ← append_leaderLog]
    exact take_prefix _ _
  · rw [append_acked_of_ne hat] at hi
    have hold := hinv.retained_of_grows (hinv.grows_append hleader)
      (fun hlt _ => hinv.append_begins hleader hstamp hlt) hi hlater
    rcases eq_or_ne v n with rfl | hne
    · rw [append_log]
      exact hold.trans (prefix_append _ _)
    · rwa [append_log_of_ne hne]

/-- The leader's own entries stay stamped with its term. -/
theorem append_stamps (hinv : Invariant stamp H) (hleader : H.leader (H.term n) = some n)
    (hstamp : stamp entry = H.term n) {t : Nat} {log : List E} (hlog : log <+: H.leaderLog t)
    (hstamps : ∀ e ∈ (H.leaderLog t).drop log.length, stamp e = t) :
    ∀ e ∈ ((H.append n (H.term n) entry).leaderLog t).drop log.length, stamp e = t := by
  rcases eq_or_ne t (H.term n) with rfl | hne
  · intro e he
    rw [hinv.leaderLog_append hleader, drop_append_of_le_length hlog.length_le] at he
    rcases mem_append.mp he with hold | hnew
    · exact hstamps e hold
    · rw [mem_singleton.mp hnew, hstamp]
  · rwa [append_leaderLog_of_ne hne]

/-- An append by the leader of a term preserves the invariant. -/
theorem append (hinv : Invariant stamp H) (hleader : H.leader (H.term n) = some n)
    (hstamp : stamp entry = H.term n) : Invariant stamp (H.append n (H.term n) entry) := by
  have hholds := hinv.leaderHolds hleader rfl
  have hpos := (hinv.leader_term hleader).1
  have hgrows : Grows H (H.append n (H.term n) entry) := hinv.grows_append hleader
  exact
    { hinv with
      stoodStamped := fun h => (hinv.stoodStamped h).mono le_rfl hgrows.leaderLog
      leaderStood := by
        intro t c h
        obtain ⟨log, hstood, hpre, hstamps⟩ := hinv.leaderStood h
        exact ⟨log, hstood, hpre.trans (hgrows.leaderLog t),
          hinv.append_stamps hleader hstamp hpre hstamps⟩
      unled := by
        intro t h
        have hne : t ≠ H.term n := by
          rintro rfl
          exact absurd (h.symm.trans hleader) (by simp)
        rw [append_leaderLog_of_ne hne]
        refine ⟨(hinv.unled h).1, fun v => ?_⟩
        rw [append_acked_of_ne fun hat => hne hat.1]
        exact (hinv.unled h).2 v
      leaderHolds := by
        intro t c h hc
        obtain rfl : H.term c = t := hc
        rcases eq_or_ne c n with rfl | hne
        · rw [append_log, append_leaderLog]
        · have hne' : H.term c ≠ H.term n := by
            intro heq
            rw [heq] at h
            exact hne (Option.some.inj (h.symm.trans hleader))
          rw [append_log_of_ne hne, append_leaderLog_of_ne hne']
          exact hinv.leaderHolds h rfl
      leaderStamped := by
        intro t
        have h := (hinv.leaderStamped t).mono le_rfl hgrows.leaderLog
        rcases eq_or_ne t (H.term n) with rfl | hne
        · rw [hinv.leaderLog_append hleader]
          exact h.append hstamp hpos (by rw [hinv.leaderLog_append hleader])
        · rwa [append_leaderLog_of_ne hne]
      stamped := by
        intro m
        have h := (hinv.stamped m).mono le_rfl hgrows.leaderLog
        rcases eq_or_ne m n with rfl | hne
        · rw [append_log]
          exact h.append hstamp hpos (by rw [append_leaderLog])
        · rwa [append_log_of_ne hne]
      ackedLength := by
        intro t v
        by_cases hat : t = H.term n ∧ v = n
        · obtain ⟨rfl, rfl⟩ := hat
          rw [append_acked, append_leaderLog]
        · rw [append_acked_of_ne hat]
          exact (hinv.ackedLength t v).trans (hgrows.leaderLog t).length_le
      ackedTerm := by
        intro t v h
        by_cases hat : t = H.term n ∧ v = n
        · exact hat.2 ▸ hat.1.le
        · rw [append_acked_of_ne hat] at h
          exact hinv.ackedTerm h
      ackedHeld := by
        intro v h
        rcases eq_or_ne v n with rfl | hne
        · show _ <+: (H.append v (H.term v) entry).leaderLog (H.term v)
          rw [append_log, append_leaderLog]
        · change 0 < (H.append n (H.term n) entry).acked (H.term v) v at h
          rw [append_acked_of_ne fun hat => hne hat.2] at h
          rw [append_log_of_ne hne]
          exact (hinv.ackedHeld h).trans (hgrows.leaderLog _)
      unacked := by
        intro v h
        change (H.append n (H.term n) entry).acked (H.term v) v = 0 at h
        rcases eq_or_ne v n with rfl | hne
        · simp at h
        · rw [append_acked_of_ne fun hat => hne hat.2] at h
          rw [append_log_of_ne hne]
          exact hinv.unacked h
      retained := hinv.append_retained hleader hstamp
      votedRetained := by
        intro v T T' c log i hvote hstood hlt hunled hi
        have hat : ¬(T = H.term n ∧ v = n) := by
          rintro ⟨rfl, rfl⟩
          have hle := hinv.voteTerm hvote
          omega
        rw [append_acked_of_ne hat] at hi
        exact hinv.votedRetained_of_grows hgrows
          (fun hlt' _ => hinv.append_begins hleader hstamp hlt') hvote hstood hlt hunled hi }

variable {log : List E} {length : Nat}

theorem grows_accept {term : Nat} : Grows H (H.accept n term log length) := by
  refine { Grows.refl H with acked := ?_ }
  intro t v
  by_cases hat : t = term ∧ v = n
  · obtain ⟨rfl, rfl⟩ := hat
    rw [accept_acked]
    exact le_max_left _ _
  · rw [accept_acked_of_ne hat]

omit [DecidableEq N] in
/-- A log that keeps what a node has in common with its leader retains what the node did. -/
theorem kept_retained (hinv : Invariant stamp H) (hled : H.Led (H.term v))
    (hkept : ∀ common, common <+: H.log v → common <+: H.leaderLog (H.term v) → common <+: log)
    (hi : i ≤ H.acked T v)
    (hlater : ∀ t, T < t → t ≤ H.term v → H.Led t → H.start T i <+: H.leaderLog t) :
    H.start T i <+: log := by
  have hheld := hinv.retained hi hlater
  rcases Nat.lt_trichotomy T (H.term v) with hlt | rfl | hgt
  · exact hkept _ hheld (hlater _ hlt le_rfl hled)
  · exact hkept _ hheld (List.take_prefix _ _)
  · have hzero : i = 0 := by
      have := hinv.acked_of_term_lt hgt
      omega
    simp [History.start, hzero]

/-- What was acknowledged survives taking over a log. -/
theorem accept_retained (hinv : Invariant stamp H) (hled : H.Led (H.term n))
    (hlog : log <+: H.leaderLog (H.term n))
    (hkept : ∀ common, common <+: H.log n → common <+: H.leaderLog (H.term n) → common <+: log)
    (hlength : length ≤ log.length) (hi : i ≤ (H.accept n (H.term n) log length).acked T v)
    (hlater : ∀ t, T < t → t ≤ H.term v → H.Led t → H.start T i <+: H.leaderLog t) :
    H.start T i <+: (H.accept n (H.term n) log length).log v := by
  rcases eq_or_ne v n with rfl | hne
  · rw [accept_log]
    by_cases hT : T = H.term v
    · subst hT
      rw [accept_acked] at hi
      rcases le_max_iff.mp hi with hold | hnew
      · exact hinv.kept_retained hled hkept hold hlater
      · -- What is new is a start of the leader's log.
        refine prefix_of_prefix_length_le (List.take_prefix _ _) hlog ?_
        rw [History.start, length_take]
        omega
    · rw [accept_acked_of_ne fun hat => hT hat.1] at hi
      exact hinv.kept_retained hled hkept hi hlater
  · rw [accept_acked_of_ne fun hat => hne hat.2] at hi
    rw [accept_log_of_ne hne]
    exact hinv.retained hi hlater

/-- Taking over a log from the leader of a term preserves the invariant. -/
theorem accept (hinv : Invariant stamp H)
    (hleader : ∃ c, H.leader (H.term n) = some c ∧ c ≠ n)
    (hlog : log <+: H.leaderLog (H.term n))
    (hkept : ∀ common, common <+: H.log n → common <+: H.leaderLog (H.term n) → common <+: log)
    (hpos : 0 < length) (hlength : length ≤ log.length) :
    Invariant stamp (H.accept n (H.term n) log length) := by
  obtain ⟨c, hc, hcn⟩ := hleader
  have hled : H.Led (H.term n) := by simp [History.Led, hc]
  exact
    { hinv with
      unled := by
        intro t h
        refine ⟨(hinv.unled h).1, fun v => ?_⟩
        rw [accept_acked_of_ne]
        · exact (hinv.unled h).2 v
        · rintro ⟨rfl, rfl⟩
          exact hled h
      leaderHolds := by
        intro t d h hd
        obtain rfl : H.term d = t := hd
        rcases eq_or_ne d n with rfl | hne
        · exact absurd (Option.some.inj (hc.symm.trans h)) hcn
        · rw [accept_log_of_ne hne]
          exact hinv.leaderHolds h rfl
      stamped := by
        intro m
        rcases eq_or_ne m n with rfl | hne
        · rw [accept_log]
          exact (hinv.leaderStamped _).of_isPrefix hlog
        · rw [accept_log_of_ne hne]
          exact hinv.stamped m
      ackedLength := by
        intro t v
        by_cases hat : t = H.term n ∧ v = n
        · obtain ⟨rfl, rfl⟩ := hat
          rw [accept_acked]
          exact max_le (hinv.ackedLength _ _) (hlength.trans hlog.length_le)
        · rw [accept_acked_of_ne hat]
          exact hinv.ackedLength t v
      ackedTerm := by
        intro t v h
        by_cases hat : t = H.term n ∧ v = n
        · exact hat.2 ▸ hat.1.le
        · rw [accept_acked_of_ne hat] at h
          exact hinv.ackedTerm h
      ackedHeld := by
        intro v h
        rcases eq_or_ne v n with rfl | hne
        · rwa [accept_log]
        · rw [accept_acked_of_ne fun hat => hne hat.2] at h
          rw [accept_log_of_ne hne]
          exact hinv.ackedHeld h
      unacked := by
        intro v h
        change (H.accept n (H.term n) log length).acked (H.term v) v = 0 at h
        rcases eq_or_ne v n with rfl | hne
        · rw [accept_acked] at h
          omega
        · rw [accept_acked_of_ne fun hat => hne hat.2] at h
          rw [accept_log_of_ne hne]
          exact hinv.unacked h
      retained := hinv.accept_retained hled hlog hkept hlength
      votedRetained := by
        intro v T T' d log' i hvote hstood hlt hunled hi
        have hat : ¬(T = H.term n ∧ v = n) := by
          rintro ⟨rfl, rfl⟩
          have hle := hinv.voteTerm hvote
          omega
        rw [accept_acked_of_ne hat] at hi
        exact hinv.votedRetained hvote hstood hlt hunled hi }

end Replication

end Invariant

/-! ## Steps and runs -/

theorem Step.invariant (hstep : Step R n H K) (hinv : Invariant R.stamp H) :
    Invariant R.stamp K := by
  cases hstep with
  | raise term hterm => exact hinv.raise hterm
  | stand term hterm => exact hinv.stand hterm
  | castVote candidate log hvote hstood hfresh => exact hinv.castVote hvote hstood hfresh
  | elect electors hleader hstood helectors hquorum => exact hinv.elect hleader hstood helectors
  | append entry hleader hstamp hvalid => exact hinv.append hleader hstamp
  | accept log length hleader hlog hkept hpos hlength =>
    exact hinv.accept hleader hlog hkept hpos hlength

/-- A step only adds to the history. -/
theorem Step.grows (hstep : Step R n H K) (hinv : Invariant R.stamp H) : Grows H K := by
  cases hstep with
  | raise term hterm => exact { Grows.refl H with term := term_le_update hterm }
  | stand term hterm =>
    refine { Grows.refl H with term := term_le_update hterm, vote := ?_, stood := ?_ }
    · intro v t c h
      refine (castVote_vote_of_ne ?_).trans h
      rintro ⟨rfl, rfl⟩
      simp [hinv.vote_of_term_lt hterm] at h
    · intro t c log h
      refine (enrol_stood_of_ne ?_).trans h
      rintro ⟨rfl, rfl⟩
      simp [hinv.stood_of_term_lt hterm] at h
  | castVote candidate log hvote hstood hfresh =>
    refine { Grows.refl H with vote := ?_ }
    intro v t c h
    refine (castVote_vote_of_ne ?_).trans h
    rintro ⟨rfl, rfl⟩
    simp [hvote] at h
  | elect electors hleader hstood helectors hquorum => exact hinv.grows_elect hleader
  | append entry hleader hstamp hvalid => exact hinv.grows_append hleader
  | accept log length hleader hlog hkept hpos hlength => exact Invariant.grows_accept

/-- A step of one node frames the others. -/
theorem Step.frame (hstep : Step R n H K) : Frame n H K := by
  cases hstep with
  | raise term hterm =>
    exact { Frame.refl n H with term := fun m hm => update_of_ne hm _ _ }
  | stand term hterm =>
    refine { Frame.refl n H with
      term := fun m hm => update_of_ne hm _ _, vote := ?_, stood := ?_ }
    · intro m hm
      funext t
      exact castVote_vote_of_ne fun hat => hm hat.1
    · intro t m hm
      exact enrol_stood_of_ne fun hat => hm hat.2
  | castVote candidate log hvote hstood hfresh =>
    refine { Frame.refl n H with vote := ?_ }
    intro m hm
    funext t
    exact castVote_vote_of_ne fun hat => hm hat.1
  | elect electors hleader hstood helectors hquorum =>
    refine { Frame.refl n H with leader := ?_, leaderLog := ?_ }
    · intro t m hm h
      rcases eq_or_ne t (H.term n) with rfl | ht
      · exact absurd (by simpa using h.symm) hm
      · rwa [elect_leader_of_ne ht] at h
    · intro t m hm h
      have ht : t ≠ H.term n := by
        rintro rfl
        simp [hleader] at h
      exact elect_leaderLog_of_ne ht
  | append entry hleader hstamp hvalid =>
    refine { Frame.refl n H with
      log := fun m hm => append_log_of_ne hm
      acked := fun t m hm => append_acked_of_ne fun hat => hm hat.2, leaderLog := ?_ }
    intro t m hm h
    refine append_leaderLog_of_ne ?_
    rintro rfl
    exact hm (Option.some.inj (h.symm.trans hleader))
  | accept log length hleader hlog hkept hpos hlength =>
    exact { Frame.refl n H with
      log := fun m hm => accept_log_of_ne hm
      acked := fun t m hm => accept_acked_of_ne fun hat => hm hat.2 }

/-- Any number of actions of node `n`. -/
def Steps (R : Rules N E) (n : N) : History N E → History N E → Prop :=
  Relation.ReflTransGen (Step R n)

theorem Steps.refl (H : History N E) : Steps R n H H := Relation.ReflTransGen.refl

theorem Steps.single (hstep : Step R n H K) : Steps R n H K :=
  Relation.ReflTransGen.single hstep

theorem Steps.trans {M : History N E} (hfirst : Steps R n H K) (hsecond : Steps R n K M) :
    Steps R n H M := Relation.ReflTransGen.trans hfirst hsecond

/-- A run preserves the invariant, adds to the history and frames the others. -/
theorem Steps.spec (hsteps : Steps R n H K) (hinv : Invariant R.stamp H) :
    Invariant R.stamp K ∧ Grows H K ∧ Frame n H K := by
  induction hsteps with
  | refl => exact ⟨hinv, Grows.refl H, Frame.refl n H⟩
  | tail _ hstep ih =>
    obtain ⟨hmid, hgrows, hframe⟩ := ih
    have hgrows' := hstep.grows hmid
    have hframe' := hstep.frame
    refine ⟨hstep.invariant hmid, hgrows.trans hgrows', ?_⟩
    exact
      { term := fun m hm => (hframe'.term m hm).trans (hframe.term m hm)
        log := fun m hm => (hframe'.log m hm).trans (hframe.log m hm)
        vote := fun m hm => (hframe'.vote m hm).trans (hframe.vote m hm)
        stood := fun t m hm => (hframe'.stood t m hm).trans (hframe.stood t m hm)
        acked := fun t m hm => (hframe'.acked t m hm).trans (hframe.acked t m hm)
        leader := fun t m hm h => hframe.leader t m hm (hframe'.leader t m hm h)
        leaderLog := fun t m hm h =>
          (hframe'.leaderLog t m hm (hgrows.leader t m h)).trans (hframe.leaderLog t m hm h) }

/-- Every entry a leader has put into its log is valid at its position. -/
def ValidEntries (R : Rules N E) (H : History N E) : Prop :=
  ∀ t i entry, (H.leaderLog t)[i]? = some entry → R.valid i entry

omit [DecidableEq N] in
theorem ValidEntries.of_stamped (hvalid : ValidEntries R H) {bound : Nat} {log : List E}
    (hlog : WellStamped R.stamp H.leaderLog bound log) {i : Nat} {entry : E}
    (hentry : log[i]? = some entry) : R.valid i entry := by
  have hi := (List.getElem?_eq_some_iff.mp hentry).1
  obtain ⟨rest, hrest⟩ := hlog.sourced i entry hentry
  refine hvalid (R.stamp entry) i entry ?_
  rw [← hrest, getElem?_append_left (by rw [length_take]; omega),
    getElem?_take_of_lt (Nat.lt_succ_self i), hentry]

/-- A run keeps the entries of the leaders valid. -/
theorem Steps.valid (hsteps : Steps R n H K) (hinv : Invariant R.stamp H)
    (hvalid : ValidEntries R H) : ValidEntries R K := by
  induction hsteps with
  | refl => exact hvalid
  | @tail M K hrun hstep ih =>
    obtain ⟨hmid, -⟩ := Steps.spec hrun hinv
    cases hstep with
    | raise term hterm => exact ih
    | stand term hterm => exact ih
    | castVote candidate log hvote hstood hfresh => exact ih
    | elect electors hleader hstood helectors hquorum =>
      intro t i entry h
      rcases eq_or_ne t (M.term n) with rfl | hne
      · rw [elect_leaderLog] at h
        exact ih.of_stamped (hmid.stamped n) h
      · rw [elect_leaderLog_of_ne hne] at h
        exact ih t i entry h
    | append new hleader hstamp hnew =>
      intro t i entry h
      rcases eq_or_ne t (M.term n) with rfl | hne
      · rw [append_leaderLog] at h
        rcases Nat.lt_or_ge i (M.log n).length with hi | hi
        · rw [getElem?_append_left hi] at h
          exact ih.of_stamped (hmid.stamped n) h
        · rw [getElem?_append_right hi, getElem?_singleton] at h
          obtain ⟨hzero, rfl⟩ : i - (M.log n).length = 0 ∧ new = entry := by simpa using h
          rwa [show i = (M.log n).length by omega]
      · rw [append_leaderLog_of_ne hne] at h
        exact ih t i entry h
    | accept log length hleader hlog hkept hpos hlength => exact ih

/-- A node that acknowledges nothing in a term keeps its log. -/
theorem Steps.frozen {v : N} {t : Nat} (hsteps : Steps R n H K) (hreached : t ≤ H.term v)
    (hinv : Invariant R.stamp H) (hterm : K.term v = t) (hacked : K.acked t v = 0) :
    H.term v = t ∧ H.acked t v = 0 ∧ H.log v = K.log v := by
  induction hsteps with
  | refl => exact ⟨hterm, hacked, rfl⟩
  | @tail M K hrun hstep ih =>
    obtain ⟨hmid, hgrows, -⟩ := Steps.spec hrun hinv
    have hafter := hstep.grows hmid
    have hle := hgrows.term v
    have hle' := hafter.term v
    have hacked' := hafter.acked t v
    have hM : M.term v = t := by omega
    obtain ⟨hH, hzero, hlog⟩ := ih hM (by omega)
    refine ⟨hH, hzero, hlog.trans ?_⟩
    rcases eq_or_ne v n with rfl | hne
    · cases hstep with
      | raise term hlt => rfl
      | stand term hlt => rfl
      | castVote candidate log hvote hstood hfresh => rfl
      | elect electors hleader hstood helectors hquorum => rfl
      | append entry hleader hstamp hvalid =>
        subst hM
        simp at hacked
      | accept log length hleader hlog hkept hpos hlength =>
        subst hM
        rw [accept_acked] at hacked
        omega
    · exact (hstep.frame.log v hne).symm

end TermLog
