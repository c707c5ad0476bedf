import DistributedKV.Foundation.Agreement

/-!
# Replication cursors

A leader sends a follower the entries after a cursor. The cursor is safe when, until the
follower acknowledges anything in the leader's term, it is not below the point where the two
logs part. The first entries a follower takes over from a safe cursor then replace everything in
its log that is not the leader's, so its whole log becomes a start of the leader's.
-/

namespace TermLog

open History

variable {N E : Type*} {R : Rules N E} {H K : History N E}

/-- A cursor of the leader of a term for a follower is not below the point where their logs
part. Before the follower reaches the term, it is not below the log the leader stood with. -/
structure CursorSafe (H : History N E) (t : Nat) (v : N) (cursor : Nat) : Prop where
  reached : H.term v = t → H.acked t v = 0 →
    ∀ common, common <+: H.log v → common <+: H.leaderLog t → common.length ≤ cursor
  ahead : H.term v < t → ∀ c log, H.leader t = some c → H.stood t c = some log →
    log.length ≤ cursor

/-- A start without entries of the term is within the log its leader stood with. -/
theorem Invariant.length_le_stood (hinv : Invariant R.stamp H) {t : Nat} {c : N} {log : List E}
    (hleader : H.leader t = some c) (hstood : H.stood t c = some log) {common : List E}
    (hcommon : common <+: H.leaderLog t) (hstamps : ∀ entry ∈ common, R.stamp entry < t) :
    common.length ≤ log.length := by
  obtain ⟨log', hstood', -, hown⟩ := hinv.leaderStood hleader
  have hlog : log = log' := Option.some.inj (hstood.symm.trans hstood')
  subst hlog
  by_contra hlt
  have hindex : log.length < common.length := by omega
  have hentry : common.get ⟨log.length, hindex⟩ ∈ (H.leaderLog t).drop log.length := by
    obtain ⟨rest, hrest⟩ := hcommon
    rw [← hrest, List.drop_append_of_le_length hindex.le]
    refine List.mem_append_left _ (List.mem_of_getElem? (i := 0) ?_)
    simp [hindex]
  have hlt' := hstamps _ (List.get_mem common ⟨log.length, hindex⟩)
  have heq := hown _ hentry
  omega

theorem CursorSafe.mono {t cursor larger : Nat} {v : N} (hsafe : CursorSafe H t v cursor)
    (hle : cursor ≤ larger) : CursorSafe H t v larger where
  reached hterm hacked common hlog hleader :=
    (hsafe.reached hterm hacked common hlog hleader).trans hle
  ahead hterm c log hleader hstood := (hsafe.ahead hterm c log hleader hstood).trans hle

theorem CursorSafe.of_stood (hinv : Invariant R.stamp H) {t : Nat} {c v : N} {log : List E}
    (hleader : H.leader t = some c) (hstood : H.stood t c = some log) :
    CursorSafe H t v log.length where
  reached hterm hacked common hlog hcommon := by
    subst hterm
    exact hinv.length_le_stood hleader hstood hcommon fun entry hentry =>
      hinv.unacked hacked entry (hlog.subset hentry)
  ahead _ d log' hleader' hstood' := by
    have hd : c = d := Option.some.inj (hleader.symm.trans hleader')
    subst hd
    exact (congrArg List.length (Option.some.inj (hstood'.symm.trans hstood))).le

variable [DecidableEq N]

theorem CursorSafe.of_raise (hinv : Invariant R.stamp H) {n v : N} {t cursor term : Nat}
    (hled : H.Led t) (hsafe : CursorSafe H t v cursor) (hterm : H.term n < term) :
    CursorSafe (H.raise n term) t v cursor := by
  rcases eq_or_ne v n with rfl | hne
  · have hat : (H.raise v term).term v = term := raise_term
    refine ⟨fun hv _ common hlog hcommon => ?_, fun hv => hsafe.ahead (by omega)⟩
    -- The follower arrives in the leader's term with entries of earlier terms only.
    obtain ⟨c, hc⟩ := Option.ne_none_iff_exists'.mp hled
    obtain ⟨log, hstood, -⟩ := hinv.leaderStood hc
    have hshort := hinv.length_le_stood hc hstood hcommon fun entry hentry =>
      ((hinv.stamped v).bounded entry (hlog.subset hentry)).trans_lt (by omega)
    exact hshort.trans (hsafe.ahead (by omega) c log hc hstood)
  · have hat : (H.raise n term).term v = H.term v := raise_term_of_ne hne
    exact ⟨fun hv => hsafe.reached (hat ▸ hv), fun hv => hsafe.ahead (hat ▸ hv)⟩

/-- Every step keeps the cursors of a leader safe. -/
theorem CursorSafe.step {n v : N} {t cursor : Nat} (hsafe : CursorSafe H t v cursor)
    (hinv : Invariant R.stamp H) (hled : H.Led t) (hstep : Step R n H K) :
    CursorSafe K t v cursor := by
  obtain ⟨c, hc⟩ := Option.ne_none_iff_exists'.mp hled
  cases hstep with
  | raise term hterm => exact hsafe.of_raise hinv hled hterm
  | stand term hterm =>
    have hraised := hsafe.of_raise hinv hled hterm
    refine ⟨hraised.reached, fun hv d log hd hstood => ?_⟩
    obtain ⟨log', hold, -⟩ := hinv.leaderStood hd
    have hstand : Step R n H (H.stand n term) := .stand term hterm
    have hkept := (hstand.grows hinv).stood t d log' hold
    have heq : log' = log := Option.some.inj (hkept.symm.trans hstood)
    exact hraised.ahead hv d log hd (heq ▸ hold)
  | castVote candidate log hvote hstood hfresh => exact ⟨hsafe.reached, hsafe.ahead⟩
  | elect electors hleader hstood helectors hquorum =>
    have hne : t ≠ H.term n := by
      rintro rfl
      exact hled hleader
    refine ⟨fun hv hacked common hlog hcommon => ?_, fun hv d log hd hs => ?_⟩
    · rw [elect_leaderLog_of_ne hne] at hcommon
      exact hsafe.reached hv hacked common hlog hcommon
    · rw [elect_leader_of_ne hne] at hd
      exact hsafe.ahead hv d log hd hs
  | append entry hleader hstamp hvalid =>
    refine ⟨fun hv hacked common hlog hcommon => ?_, hsafe.ahead⟩
    have hterm : H.term v = t := hv
    have hvn : v ≠ n := by
      rintro rfl
      subst hterm
      simp at hacked
    rw [append_acked_of_ne fun hat => hvn hat.2] at hacked
    rw [append_log_of_ne hvn] at hlog
    rcases eq_or_ne t (H.term n) with rfl | hne
    · -- The new entry has the leader's term, which the follower's log does not have yet.
      rw [hterm.symm] at hacked
      rw [hinv.leaderLog_append hleader, List.prefix_concat_iff] at hcommon
      rcases hcommon with heq | hcommon
      · have hlt := hinv.unacked hacked entry (hlog.subset (by rw [heq]; simp))
        omega
      · exact hsafe.reached hterm (hterm ▸ hacked) common hlog hcommon
    · rw [append_leaderLog_of_ne hne] at hcommon
      exact hsafe.reached hterm hacked common hlog hcommon
  | accept log length hleader hlog hkept hpos hlength =>
    refine ⟨fun hv hacked common hbegins hcommon => ?_, hsafe.ahead⟩
    have hterm : H.term v = t := hv
    have hvn : v ≠ n := by
      rintro rfl
      subst hterm
      rw [accept_acked] at hacked
      omega
    rw [accept_acked_of_ne fun hat => hvn hat.2] at hacked
    rw [accept_log_of_ne hvn] at hbegins
    exact hsafe.reached hterm hacked common hbegins hcommon

theorem CursorSafe.steps {n v : N} {t cursor : Nat} (hsafe : CursorSafe H t v cursor)
    (hinv : Invariant R.stamp H) (hled : H.Led t) (hsteps : Steps R n H K) :
    CursorSafe K t v cursor := by
  induction hsteps with
  | refl => exact hsafe
  | tail hrun hstep ih =>
    obtain ⟨hmid, hgrows, -⟩ := Steps.spec hrun hinv
    obtain ⟨c, hc⟩ := Option.ne_none_iff_exists'.mp hled
    exact ih.step hmid (by simp [History.Led, hgrows.leader t c hc]) hstep

end TermLog
