import Mathlib.Order.Basic

/-!
# Programs that save as they go

A judgment for stateful programs with exceptions that write durable images to a journal: when the
program returns, its result and final state satisfy a postcondition, when it throws, the state
satisfies another one, and every image it adds to the journal satisfies a durable condition. The
durable condition is what a crash inside the program can leave behind. Total correctness is the
case in which the program cannot throw.
-/

namespace Barrier

variable {ε σ S α β : Type}

theorem except_bind_eq_ok {first : Except ε α} {next : α → Except ε β} {b : β} :
    (first >>= next) = .ok b ↔ ∃ a, first = .ok a ∧ next a = .ok b := by
  cases first with
  | error error => simp [bind, Except.bind]
  | ok a => simp [bind, Except.bind]

theorem except_map_eq_ok {first : Except ε α} {change : α → β} {b : β} :
    first.map change = .ok b ↔ ∃ a, first = .ok a ∧ change a = b := by
  cases first with
  | error error => simp [Except.map]
  | ok a => simp [Except.map]

theorem except_of_is_ok {first : Except ε α} (hfirst : first.isOk = true) :
    ∃ a, first = .ok a := by
  cases first with
  | error error => cases hfirst
  | ok a => exact ⟨a, rfl⟩

theorem get_bind (next : σ → EStateM ε σ β) (state : σ) :
    (get >>= next : EStateM ε σ β) state = next state state := rfl

theorem set_bind (replacement : σ) (next : PUnit → EStateM ε σ β) (state : σ) :
    (set replacement >>= next : EStateM ε σ β) state = next ⟨⟩ replacement := rfl

theorem modify_bind (change : σ → σ) (next : PUnit → EStateM ε σ β) (state : σ) :
    (modify change >>= next : EStateM ε σ β) state = next ⟨⟩ (change state) := rfl

theorem bind_of_ok {program : EStateM ε σ α} {next : α → EStateM ε σ β} {state final : σ}
    {result : α} (hrun : program state = .ok result final) :
    (program >>= next) state = next result final := by
  show EStateM.bind program next state = _
  rw [EStateM.bind, hrun]

theorem bind_of_error {program : EStateM ε σ α} {next : α → EStateM ε σ β} {state final : σ}
    {error : ε} (hrun : program state = .error error final) :
    (program >>= next) state = .error error final := by
  show EStateM.bind program next state = _
  rw [EStateM.bind, hrun]

theorem run_bind_eq_ok {program : EStateM ε σ α} {next : α → EStateM ε σ β} {state final : σ}
    {b : β} :
    (program >>= next) state = .ok b final ↔
      ∃ a middle, program state = .ok a middle ∧ next a middle = .ok b final := by
  cases hprogram : program state with
  | ok a middle => simp [bind_of_ok hprogram, and_assoc]
  | error error middle => simp [bind_of_error hprogram]

theorem run_bind_eq_error {program : EStateM ε σ α} {next : α → EStateM ε σ β} {state final : σ}
    {error : ε} :
    (program >>= next) state = .error error final ↔ program state = .error error final ∨
      ∃ a middle, program state = .ok a middle ∧ next a middle = .error error final := by
  cases hprogram : program state with
  | ok a middle => simp [bind_of_ok hprogram, and_assoc]
  | error other middle => simp [bind_of_error hprogram]

theorem bind_pure_eq_ok {program : EStateM ε σ α} {change : α → β} {state final : σ} {b : β}
    (hrun : (program >>= fun a => pure (change a)) state = .ok b final) :
    ∃ a, program state = .ok a final ∧ change a = b := by
  obtain ⟨a, middle, hprogram, hpure⟩ := run_bind_eq_ok.mp hrun
  cases hpure
  exact ⟨a, hprogram, rfl⟩

variable {journal : σ → List S} {program : EStateM ε σ α} {state : σ} {post : α → σ → Prop}
  {durable : S → Prop} {next : α → EStateM ε σ β} {after : β → σ → Prop} {result : α}

/-! ## Partial correctness -/

/-- If the program returns from the state, the postcondition holds. -/
def Ensures (program : EStateM ε σ α) (state : σ) (post : α → σ → Prop) : Prop :=
  ∀ result final, program state = .ok result final → post result final

namespace Ensures

theorem pure (hpost : post result state) :
    Ensures (Pure.pure result : EStateM ε σ α) state post := by
  rintro answer final ⟨rfl, rfl⟩
  exact hpost

theorem throw {error : ε} : Ensures (MonadExcept.throw error : EStateM ε σ α) state post := by
  rintro answer final ⟨⟩

theorem bind {between : α → σ → Prop} (hfirst : Ensures program state between)
    (hnext : ∀ result final, between result final → Ensures (next result) final after) :
    Ensures (program >>= next) state after := by
  intro answer final hrun
  obtain ⟨result, middle, hprogram, hrest⟩ := run_bind_eq_ok.mp hrun
  exact hnext result middle (hfirst result middle hprogram) answer final hrest

theorem bind_last (hnext : ∀ result final, Ensures (next result) final after) :
    Ensures (program >>= next) state after :=
  have hfirst : Ensures program state fun _ _ => True := fun _ _ _ => trivial
  hfirst.bind fun result final _ => hnext result final

theorem mono {weaker : α → σ → Prop} (hensures : Ensures program state post)
    (hpost : ∀ result final, post result final → weaker result final) :
    Ensures program state weaker :=
  fun result final hrun => hpost result final (hensures result final hrun)

theorem get_bind {next : σ → EStateM ε σ β} (hnext : Ensures (next state) state after) :
    Ensures (get >>= next) state after := hnext

theorem set_bind {middle : σ} {next : PUnit → EStateM ε σ β}
    (hnext : Ensures (next ⟨⟩) middle after) :
    Ensures (MonadStateOf.set middle >>= next) state after := hnext

theorem modify_bind {change : σ → σ} {next : PUnit → EStateM ε σ β}
    (hnext : Ensures (next ⟨⟩) (change state) after) :
    Ensures (modify change >>= next) state after := hnext

theorem set {next : σ} {after : PUnit → σ → Prop} (hpost : after ⟨⟩ next) :
    Ensures (MonadStateOf.set next : EStateM ε σ PUnit) state after := by
  rintro answer final ⟨rfl, rfl⟩
  exact hpost

theorem modify {change : σ → σ} {after : PUnit → σ → Prop} (hpost : after ⟨⟩ (change state)) :
    Ensures (modify change : EStateM ε σ PUnit) state after := by
  rintro answer final ⟨rfl, rfl⟩
  exact hpost

end Ensures

/-! ## Programs that save -/

/-- The images that were added to the journal are durable. -/
def Adds (journal : σ → List S) (durable : S → Prop) (first last : σ) : Prop :=
  ∃ added, journal last = added ++ journal first ∧ ∀ image ∈ added, durable image

theorem Adds.of_eq {first last : σ} (hjournal : journal last = journal first) :
    Adds journal durable first last :=
  ⟨[], hjournal, by simp⟩

theorem Adds.trans {first middle last : σ} (hfirst : Adds journal durable first middle)
    (hsecond : Adds journal durable middle last) : Adds journal durable first last := by
  obtain ⟨added, hadded, hdurable⟩ := hfirst
  obtain ⟨more, hmore, hdurable'⟩ := hsecond
  refine ⟨more ++ added, by rw [hmore, hadded, List.append_assoc], fun image himage => ?_⟩
  exact (List.mem_append.mp himage).elim (hdurable' image) (hdurable image)

/-- The program returns with the postcondition, or it throws in a state with another one, and in
both cases every image it has added to the journal is durable. -/
def Leaves (journal : σ → List S) (program : EStateM ε σ α) (state : σ) (post : α → σ → Prop)
    (thrown : σ → Prop) (durable : S → Prop) : Prop :=
  (∀ result final, program state = .ok result final →
    post result final ∧ Adds journal durable state final) ∧
  ∀ error final, program state = .error error final →
    thrown final ∧ Adds journal durable state final

/-- The program returns from the state with the postcondition, and every image it has added to
the journal is durable. -/
def Returns (journal : σ → List S) (program : EStateM ε σ α) (state : σ)
    (post : α → σ → Prop) (durable : S → Prop) : Prop :=
  Leaves journal program state post (fun _ => False) durable

namespace Leaves

variable {thrown : σ → Prop} {final : σ}

theorem of_ok (hrun : program state = .ok result final) (hpost : post result final)
    (hadds : Adds journal durable state final) :
    Leaves journal program state post thrown durable := by
  constructor
  · intro answer last hlast
    cases hrun.symm.trans hlast
    exact ⟨hpost, hadds⟩
  · intro error last hlast
    cases hrun.symm.trans hlast

theorem pure (hpost : post result state) :
    Leaves journal (Pure.pure result : EStateM ε σ α) state post thrown durable :=
  of_ok rfl hpost (.of_eq rfl)

theorem bind {between : α → σ → Prop}
    (hfirst : Leaves journal program state between thrown durable)
    (hnext : ∀ result final, between result final →
      Leaves journal (next result) final after thrown durable) :
    Leaves journal (program >>= next) state after thrown durable := by
  refine ⟨fun answer final hrun => ?_, fun error final hrun => ?_⟩
  · obtain ⟨result, middle, hprogram, hrest⟩ := run_bind_eq_ok.mp hrun
    obtain ⟨hbetween, hadds⟩ := hfirst.1 result middle hprogram
    exact ((hnext result middle hbetween).1 answer final hrest).imp_right hadds.trans
  · rcases run_bind_eq_error.mp hrun with hthrow | ⟨result, middle, hprogram, hthrow⟩
    · exact hfirst.2 error final hthrow
    · obtain ⟨hbetween, hadds⟩ := hfirst.1 result middle hprogram
      exact ((hnext result middle hbetween).2 error final hthrow).imp_right hadds.trans

theorem bind_ok {middle : σ} (hrun : program state = .ok result middle)
    (hjournal : journal middle = journal state)
    (hnext : Leaves journal (next result) middle after thrown durable) :
    Leaves journal (program >>= next) state after thrown durable := by
  have hfirst : Leaves journal program state
      (fun answer final => answer = result ∧ final = middle) thrown durable :=
    of_ok hrun ⟨rfl, rfl⟩ (.of_eq hjournal)
  refine hfirst.bind ?_
  rintro _ _ ⟨rfl, rfl⟩
  exact hnext

theorem get_bind {next : σ → EStateM ε σ β}
    (hnext : Leaves journal (next state) state after thrown durable) :
    Leaves journal (get >>= next) state after thrown durable := hnext

theorem set_bind {middle : σ} {next : PUnit → EStateM ε σ β}
    (hjournal : journal middle = journal state)
    (hnext : Leaves journal (next ⟨⟩) middle after thrown durable) :
    Leaves journal (MonadStateOf.set middle >>= next) state after thrown durable :=
  bind_ok rfl hjournal hnext

theorem modify_bind {change : σ → σ} {next : PUnit → EStateM ε σ β}
    (hjournal : journal (change state) = journal state)
    (hnext : Leaves journal (next ⟨⟩) (change state) after thrown durable) :
    Leaves journal (modify change >>= next) state after thrown durable :=
  bind_ok rfl hjournal hnext

theorem mono {weaker : α → σ → Prop} {weakerThrown : σ → Prop} {weakerDurable : S → Prop}
    (hleaves : Leaves journal program state post thrown durable)
    (hpost : ∀ result final, post result final → weaker result final)
    (hthrown : ∀ final, thrown final → weakerThrown final)
    (hdurable : ∀ image, durable image → weakerDurable image) :
    Leaves journal program state weaker weakerThrown weakerDurable := by
  have hadds : ∀ {final}, Adds journal durable state final →
      Adds journal weakerDurable state final := by
    rintro final ⟨added, hadded, himages⟩
    exact ⟨added, hadded, fun image himage => hdurable image (himages image himage)⟩
  exact ⟨fun result final hrun => (hleaves.1 result final hrun).imp (hpost result final) hadds,
    fun error final hrun => (hleaves.2 error final hrun).imp (hthrown final) hadds⟩

theorem of_bind_pure {change : α → β} {after : σ → Prop}
    (hleaves : Leaves journal (program >>= fun a => Pure.pure (change a)) state
      (fun _ final => after final) thrown durable) :
    Leaves journal program state (fun _ final => after final) thrown durable :=
  ⟨fun result final hrun => hleaves.1 (change result) final (bind_of_ok hrun),
    fun error final hrun => hleaves.2 error final (bind_of_error hrun)⟩

end Leaves

namespace Returns

theorem mono {weaker : α → σ → Prop} {weakerDurable : S → Prop}
    (hreturns : Returns journal program state post durable)
    (hpost : ∀ result final, post result final → weaker result final)
    (hdurable : ∀ image, durable image → weakerDurable image) :
    Returns journal program state weaker weakerDurable :=
  Leaves.mono hreturns hpost (fun _ => id) hdurable

theorem elim (hreturns : Returns journal program state post durable) :
    ∃ result final, program state = .ok result final ∧ post result final ∧
      Adds journal durable state final := by
  cases hrun : program state with
  | ok result final => exact ⟨result, final, rfl, hreturns.1 result final hrun⟩
  | error error final => exact (hreturns.2 error final hrun).1.elim

end Returns

/-! ## Programs that do not throw -/

/-- The program returns from the state. -/
def Succeeds (program : EStateM ε σ α) (state : σ) : Prop :=
  ∃ result final, program state = .ok result final

instance (program : EStateM ε σ α) (state : σ) : Decidable (Succeeds program state) :=
  match hrun : program state with
  | .ok result final => isTrue ⟨result, final, hrun⟩
  | .error _ _ => isFalse fun ⟨_, _, hother⟩ => by rw [hrun] at hother; cases hother

namespace Succeeds

theorem pure : Succeeds (Pure.pure result : EStateM ε σ α) state :=
  ⟨result, state, rfl⟩

theorem bind {between : α → σ → Prop} (hfirst : Succeeds program state)
    (hensures : Ensures program state between)
    (hnext : ∀ result final, between result final → Succeeds (next result) final) :
    Succeeds (program >>= next) state := by
  obtain ⟨result, middle, hrun⟩ := hfirst
  obtain ⟨answer, final, hrest⟩ := hnext result middle (hensures result middle hrun)
  exact ⟨answer, final, by rw [bind_of_ok hrun, hrest]⟩

theorem bind_ok {middle : σ} (hrun : program state = .ok result middle)
    (hnext : Succeeds (next result) middle) : Succeeds (program >>= next) state := by
  obtain ⟨answer, final, hrest⟩ := hnext
  exact ⟨answer, final, by rw [bind_of_ok hrun, hrest]⟩

theorem bind_any (hfirst : Succeeds program state)
    (hnext : ∀ result final, Succeeds (next result) final) : Succeeds (program >>= next) state :=
  have hensures : Ensures program state fun _ _ => True := fun _ _ _ => trivial
  hfirst.bind hensures fun result final _ => hnext result final

theorem get_bind {next : σ → EStateM ε σ β} (hnext : Succeeds (next state) state) :
    Succeeds (get >>= next) state := hnext

theorem set_bind {middle : σ} {next : PUnit → EStateM ε σ β} (hnext : Succeeds (next ⟨⟩) middle) :
    Succeeds (MonadStateOf.set middle >>= next) state := hnext

end Succeeds

end Barrier
