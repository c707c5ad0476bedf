import Mathlib.Order.Basic

/-!
# Runs of event systems

A run starts in an initial state, and from one point to the next there is one step, or none; a
trace names the events of the steps. What relates each state to a ghost that only grows relates
the states at any two points of a run to comparable ghosts (`GrowingGhost.both`).
-/

namespace EventRun

variable {σ ε G : Type*}

/-- An infinite sequence of states that starts initially and moves by steps or not at all. -/
structure Run (initial : σ → Prop) (next : σ → σ → Prop) (run : Nat → σ) : Prop where
  initial : initial (run 0)
  next : ∀ k, run (k + 1) = run k ∨ next (run k) (run (k + 1))

/-- The state after a list of events; an event that cannot happen changes nothing. -/
def execute (step : σ → ε → Option σ) : List ε → σ → σ
  | [], state => state
  | event :: rest, state => execute step rest ((step state event).getD state)

theorem execute_concat (step : σ → ε → Option σ) (events : List ε) (event : ε) (state : σ) :
    execute step (events ++ [event]) state =
      (step (execute step events state) event).getD (execute step events state) := by
  induction events generalizing state with
  | nil => rfl
  | cons first rest ih => exact ih _

variable {initial : σ → Prop} {step : σ → ε → Option σ}

/-- Executing events, each allowed where it happens, is a run. -/
theorem Run.of_steps {allowed : σ → ε → Prop} {start : σ} (hinitial : initial start)
    {events : List ε} (hallowed : ∀ k (hk : k < events.length),
      allowed (execute step (events.take k) start) events[k]) :
    Run initial
      (fun state following => ∃ event, allowed state event ∧ step state event = some following)
      fun k => execute step (events.take k) start := by
  refine ⟨hinitial, fun k => ?_⟩
  rcases Nat.lt_or_ge k events.length with hk | hk
  · have htake : events.take (k + 1) = events.take k ++ [events[k]] := by simp
    simp only [htake, execute_concat]
    cases hstep : step (execute step (events.take k) start) events[k] with
    | none => exact .inl rfl
    | some following => exact .inr ⟨events[k], hallowed k hk, hstep⟩
  · refine .inl ?_
    simp only [List.take_of_length_le hk, List.take_of_length_le (Nat.le_succ_of_le hk)]

theorem Run.of_events {allowed : ε → Prop} {start : σ} (hinitial : initial start) {events : List ε}
    (hallowed : ∀ event ∈ events, allowed event) :
    Run initial (fun state following => ∃ event, allowed event ∧ step state event = some following)
      fun k => execute step (events.take k) start :=
  Run.of_steps hinitial fun _ hk => hallowed _ (List.getElem_mem hk)

/-- Every event passes a check in the state in which it happens. -/
def checked (step : σ → ε → Option σ) (check : σ → ε → Bool) : List ε → σ → Bool
  | [], _ => true
  | event :: rest, state => check state event && checked step check rest ((step state event).getD state)

theorem check_of_checked {check : σ → ε → Bool} {events : List ε} {start : σ}
    (hchecked : checked step check events start = true) (k : Nat) (hk : k < events.length) :
    check (execute step (events.take k) start) events[k] = true := by
  induction events generalizing start k with
  | nil => cases hk
  | cons event rest ih =>
    rw [checked, Bool.and_eq_true] at hchecked
    cases k with
    | zero => exact hchecked.1
    | succ k => exact ih hchecked.2 k (Nat.lt_of_succ_lt_succ hk)

theorem Run.invariant {next : σ → σ → Prop} {run : Nat → σ} (hrun : Run initial next run)
    {I : σ → Prop} (hinitial : ∀ state, initial state → I state)
    (hnext : ∀ state following, next state following → I state → I following) (k : Nat) :
    I (run k) := by
  induction k with
  | zero => exact hinitial _ hrun.initial
  | succ k ih =>
    rcases hrun.next k with hsame | hstep
    · exact hsame ▸ ih
    · exact hnext _ _ hstep ih

/-! ## Traces -/

/-- A run with the event of every step. -/
structure Trace (initial : σ → Prop) (step : σ → ε → Option σ) (run : Nat → σ)
    (events : Nat → Option ε) : Prop where
  initial : initial (run 0)
  idle : ∀ k, events k = none → run (k + 1) = run k
  next : ∀ k event, events k = some event → step (run k) event = some (run (k + 1))

/-- The event at a point of a list of events, if it can happen there. -/
def happening (step : σ → ε → Option σ) (events : List ε) (start : σ) (k : Nat) : Option ε :=
  events[k]?.filter fun event => (step (execute step (events.take k) start) event).isSome

/-- Executing events is a trace. -/
theorem Trace.of_events {start : σ} (hinitial : initial start) (events : List ε) :
    Trace initial step (fun k => execute step (events.take k) start)
      (happening step events start) := by
  have hconcat : ∀ k (hk : k < events.length), execute step (events.take (k + 1)) start =
      (step (execute step (events.take k) start) events[k]).getD
        (execute step (events.take k) start) := by
    intro k hk
    have htake : events.take (k + 1) = events.take k ++ [events[k]] := by simp
    rw [htake, execute_concat]
  refine ⟨hinitial, fun k hnone => ?_, fun k event hsome => ?_⟩
  · rcases Nat.lt_or_ge k events.length with hk | hk
    · rw [happening, List.getElem?_eq_getElem hk, Option.filter_eq_none_iff] at hnone
      have hstuck : step (execute step (events.take k) start) events[k] = none := by
        simpa using hnone
      rw [hconcat k hk, hstuck, Option.getD_none]
    · simp only [List.take_of_length_le hk, List.take_of_length_le (Nat.le_succ_of_le hk)]
  · obtain ⟨hget, hstep⟩ := Option.filter_eq_some_iff.mp hsome
    obtain ⟨hk, rfl⟩ := List.getElem?_eq_some_iff.mp hget
    obtain ⟨following, hfollowing⟩ := Option.isSome_iff_exists.mp hstep
    rw [hconcat k hk, hfollowing, Option.getD_some]

/-! ## Ghosts -/

/-- Initial states are related to a ghost, and steps to ghosts that have grown. -/
structure GrowingGhost (initial : σ → Prop) (next : σ → σ → Prop) (related : σ → G → Prop)
    (grows : G → G → Prop) : Prop where
  refl : ∀ ghost, grows ghost ghost
  trans : ∀ {first second third}, grows first second → grows second third → grows first third
  initial : ∀ state, initial state → ∃ ghost, related state ghost
  next : ∀ {state following ghost}, related state ghost → next state following →
    ∃ grown, grows ghost grown ∧ related following grown

namespace GrowingGhost

variable {initial : σ → Prop} {next : σ → σ → Prop} {related : σ → G → Prop}
  {grows : G → G → Prop} (hghost : GrowingGhost initial next related grows) {run : Nat → σ}
  (hrun : Run initial next run)
include hghost hrun

theorem later {j : Nat} {ghost : G} (hrelated : related (run j) ghost) (d : Nat) :
    ∃ grown, grows ghost grown ∧ related (run (j + d)) grown := by
  induction d with
  | zero => exact ⟨ghost, hghost.refl ghost, hrelated⟩
  | succ d ih =>
    obtain ⟨middle, hgrows, hmiddle⟩ := ih
    rcases hrun.next (j + d) with hsame | hstep
    · exact ⟨middle, hgrows, hsame ▸ hmiddle⟩
    · obtain ⟨grown, hmore, hfinal⟩ := hghost.next hmiddle hstep
      exact ⟨grown, hghost.trans hgrows hmore, hfinal⟩

theorem point (k : Nat) : ∃ ghost, related (run k) ghost := by
  obtain ⟨start, hstart⟩ := hghost.initial _ hrun.initial
  obtain ⟨ghost, -, hghost⟩ := hghost.later hrun hstart k
  exact ⟨ghost, Nat.zero_add k ▸ hghost⟩

theorem both (j k : Nat) :
    ∃ first second, related (run j) first ∧ related (run k) second ∧
      (grows first second ∨ grows second first) := by
  rcases Nat.le_total j k with hle | hle
  · obtain ⟨first, hfirst⟩ := hghost.point hrun j
    obtain ⟨second, hgrows, hsecond⟩ := hghost.later hrun hfirst (k - j)
    rw [Nat.add_sub_cancel' hle] at hsecond
    exact ⟨first, second, hfirst, hsecond, .inl hgrows⟩
  · obtain ⟨second, hsecond⟩ := hghost.point hrun k
    obtain ⟨first, hgrows, hfirst⟩ := hghost.later hrun hsecond (j - k)
    rw [Nat.add_sub_cancel' hle] at hfirst
    exact ⟨first, second, hfirst, hsecond, .inr hgrows⟩

end GrowingGhost

end EventRun
