import DistributedKV.Foundation.TermSteps

/-!
# Chosen prefixes and agreement

A start of a leader's log is chosen when it ends in the leader's own term and a quorum has
acknowledged it. When any two quorums meet, the leaders of all later terms have every chosen
start (`leader_completeness`), so logs settled up to an index agree up to it
(`Settled.take_eq_take`).
-/

namespace TermLog

open History

variable {N E : Type*} {R : Rules N E} {H K : History N E}

/-- Any two quorums have a node in common. -/
def Meets (quorum : Finset N → Prop) : Prop :=
  ∀ first second, quorum first → quorum second → ∃ v ∈ first, v ∈ second

/-- Every leader was elected by a quorum. -/
def Elected (quorum : Finset N → Prop) (H : History N E) : Prop :=
  ∀ t c, H.leader t = some c → quorum (H.electors t)

/-- A start that ends in the term of its leader and that a quorum has acknowledged. -/
structure Chosen (R : Rules N E) (H : History N E) (term length : Nat) : Prop where
  within : length ≤ (H.leaderLog term).length
  positive : 0 < length
  ends : lastStamp R.stamp (H.start term length) = term
  acked : ∃ holders, R.quorum holders ∧ ∀ v ∈ holders, length ≤ H.acked term v

/-- A log whose first entries are covered by a start chosen in a term up to a bound. -/
def Settled (R : Rules N E) (H : History N E) (bound length : Nat) (log : List E) : Prop :=
  length = 0 ∨ ∃ term ≤ bound, ∃ chosen, Chosen R H term chosen ∧ length ≤ chosen ∧
    log.take length = H.start term length

theorem History.start_prefix_start (H : History N E) (term : Nat) {short long : Nat}
    (hle : short ≤ long) : H.start term short <+: H.start term long :=
  List.take_prefix_take_left hle

variable {length bound : Nat} {log : List E}

theorem Grows.start_eq (hgrows : Grows H K) {term : Nat}
    (hlength : length ≤ (H.leaderLog term).length) : K.start term length = H.start term length := by
  obtain ⟨rest, hrest⟩ := hgrows.leaderLog term
  rw [History.start, History.start, ← hrest, List.take_append_of_le_length hlength]

theorem Chosen.grows {term : Nat} (hchosen : Chosen R H term length) (hgrows : Grows H K) :
    Chosen R K term length where
  within := hchosen.within.trans (hgrows.leaderLog term).length_le
  positive := hchosen.positive
  ends := by rw [hgrows.start_eq hchosen.within, hchosen.ends]
  acked := by
    obtain ⟨holders, hquorum, hheld⟩ := hchosen.acked
    exact ⟨holders, hquorum, fun v hv => (hheld v hv).trans (hgrows.acked term v)⟩

theorem Settled.grows {larger : Nat} (hsettled : Settled R H bound length log) (hgrows : Grows H K)
    (hbound : bound ≤ larger) : Settled R K larger length log := by
  rcases hsettled with hzero | ⟨term, hterm, chosen, hchosen, hle, htake⟩
  · exact .inl hzero
  · refine .inr ⟨term, hterm.trans hbound, chosen, hchosen.grows hgrows, hle, ?_⟩
    rw [hgrows.start_eq (hle.trans hchosen.within), htake]

theorem Settled.le_length (hsettled : Settled R H bound length log) : length ≤ log.length := by
  rcases hsettled with hzero | ⟨term, -, chosen, hchosen, hle, htake⟩
  · omega
  · have heq := congrArg List.length htake
    rw [History.start, List.length_take, List.length_take] at heq
    have hwithin := hchosen.within
    omega

theorem Settled.congr {other : List E} (hsettled : Settled R H bound length log)
    (htake : other.take length = log.take length) : Settled R H bound length other := by
  rcases hsettled with hzero | ⟨term, hterm, chosen, hchosen, hle, hlog⟩
  · exact .inl hzero
  · exact .inr ⟨term, hterm, chosen, hchosen, hle, htake.trans hlog⟩

theorem Settled.of_le {shorter : Nat} (hsettled : Settled R H bound length log)
    (hle : shorter ≤ length) : Settled R H bound shorter log := by
  rcases hsettled with hzero | ⟨term, hterm, chosen, hchosen, hlength, htake⟩
  · exact .inl (by omega)
  · refine .inr ⟨term, hterm, chosen, hchosen, hle.trans hlength, ?_⟩
    have hshort := congrArg (List.take shorter) htake
    simpa only [History.start, List.take_take, min_eq_left hle] using hshort

variable [DecidableEq N]

/-- Leaders stay elected by quorums. -/
theorem Steps.elected {n : N} (hsteps : Steps R n H K)
    (helected : Elected R.quorum H) : Elected R.quorum K := by
  induction hsteps with
  | refl => exact helected
  | @tail M K _ hstep ih =>
    cases hstep with
    | raise term hterm => exact ih
    | stand term hterm => exact ih
    | castVote candidate log hvote hstood hfresh => exact ih
    | elect electors hleader hstood helectors hquorum =>
      intro t c h
      rcases eq_or_ne t (M.term n) with rfl | hne
      · rwa [elect_electors]
      · rw [elect_leader_of_ne hne] at h
        rw [elect_electors_of_ne hne]
        exact ih t c h
    | append entry hleader hstamp hvalid => exact ih
    | accept log length hleader hlog hkept hpos hlength => exact ih

omit [DecidableEq N] in
/-- The leaders of later terms stood for election with every chosen start. -/
theorem leader_completeness (hinv : Invariant R.stamp H) (hmeets : Meets R.quorum)
    (helected : Elected R.quorum H) {T : Nat} (hchosen : Chosen R H T length) :
    ∀ T', T < T' → ∀ c log, H.leader T' = some c → H.stood T' c = some log →
      H.start T length <+: log := by
  intro T'
  induction T' using Nat.strong_induction_on with
  | _ T' ih =>
    intro hlt c log hc hstood
    obtain ⟨holders, hquorum, hheld⟩ := hchosen.acked
    -- The voter that both quorums share brings the start to the candidate it elected.
    obtain ⟨v, hv, hvelector⟩ := hmeets _ _ hquorum (helected T' c hc)
    have hvote := hinv.electorsVoted hc v hvelector
    refine hinv.votedRetained hvote hstood hlt (.inr hvelector) (hheld v hv) hchosen.ends ?_
    intro t hTt htT' hled
    obtain ⟨d, hd⟩ := Option.ne_none_iff_exists'.mp hled
    obtain ⟨log', hstood', hlog', -⟩ := hinv.leaderStood hd
    exact (ih t htT' hTt d log' hd hstood').trans hlog'

omit [DecidableEq N] in
theorem Chosen.prefix_leaderLog (hinv : Invariant R.stamp H) (hmeets : Meets R.quorum)
    (helected : Elected R.quorum H) {T t : Nat} (hchosen : Chosen R H T length) (hle : T ≤ t)
    (hled : H.Led t) : H.start T length <+: H.leaderLog t := by
  rcases hle.lt_or_eq with hlt | rfl
  · obtain ⟨c, hc⟩ := Option.ne_none_iff_exists'.mp hled
    obtain ⟨log, hstood, hlog, -⟩ := hinv.leaderStood hc
    exact (leader_completeness hinv hmeets helected hchosen t hlt c log hc hstood).trans hlog
  · exact List.take_prefix _ _

omit [DecidableEq N] in
theorem Chosen.led (hinv : Invariant R.stamp H) {T : Nat} (hchosen : Chosen R H T length) :
    H.Led T := by
  intro hnone
  have hwithin := hchosen.within
  have hpositive := hchosen.positive
  rw [(hinv.unled hnone).1, List.length_nil] at hwithin
  omega

omit [DecidableEq N] in
theorem Settled.take_eq_leaderLog (hinv : Invariant R.stamp H) (hmeets : Meets R.quorum)
    (helected : Elected R.quorum H) {t : Nat} (hsettled : Settled R H bound length log)
    (hle : bound ≤ t) (hled : H.Led t) : log.take length = (H.leaderLog t).take length := by
  rcases hsettled with rfl | ⟨T, hT, chosen, hchosen, hlength, htake⟩
  · simp
  · have hpre := (H.start_prefix_start T hlength).trans
      (hchosen.prefix_leaderLog hinv hmeets helected (hT.trans hle) hled)
    have heq := List.prefix_iff_eq_take.mp hpre
    rw [htake, heq, History.start, List.length_take, min_eq_left (hlength.trans hchosen.within)]

omit [DecidableEq N] in
/-- Two logs that are settled up to an index agree up to it. -/
theorem Settled.take_eq_take (hinv : Invariant R.stamp H) (hmeets : Meets R.quorum)
    (helected : Elected R.quorum H) {other : Nat} {second : List E}
    (hsettled : Settled R H bound length log) (hsecond : Settled R H other length second) :
    log.take length = second.take length := by
  rcases hsettled with rfl | ⟨T, hT, chosen, hchosen, hlength, htake⟩
  · simp
  · rcases hsecond with rfl | ⟨T', hT', chosen', hchosen', hlength', htake'⟩
    · simp
    · -- Both are starts of the log of the later of the two terms.
      have hfirst : Settled R H T length log :=
        .inr ⟨T, le_rfl, chosen, hchosen, hlength, htake⟩
      have hother : Settled R H T' length second :=
        .inr ⟨T', le_rfl, chosen', hchosen', hlength', htake'⟩
      rcases Nat.le_total T T' with hle | hle
      · exact (hfirst.take_eq_leaderLog hinv hmeets helected hle (hchosen'.led hinv)).trans htake'.symm
      · exact htake.trans
          (hother.take_eq_leaderLog hinv hmeets helected hle (hchosen.led hinv)).symm

end TermLog
