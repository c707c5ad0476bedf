import DistributedKV.Foundation.Barrier
import Mathlib.Logic.Relation

/-!
# Programs as chains of small steps

A stateful program with exceptions is traced by a step relation when every state it ends in, by
returning or by throwing, is reached from the first one by a chain of steps. Whatever the steps
preserve is then preserved by the program, whichever way it ends (`invariant_of_steps`). The state
in which a program throws may first be changed by whoever catches the exception (`Chains`). A
program may also move in phases, with other steps allowed in each of them (`Phased`).
-/

namespace Barrier

open Relation

variable {ε σ α β : Type} {R : σ → σ → Prop} {program : EStateM ε σ α} {state : σ}
  {post : α → σ → Prop} {halt : ε → σ → σ}

/-- The program moves by steps only, and so does what is made of the state in which it throws; if
it returns, the postcondition holds. -/
def Chains (R : σ → σ → Prop) (halt : ε → σ → σ) (program : EStateM ε σ α) (state : σ)
    (post : α → σ → Prop) : Prop :=
  (∀ result final, program state = .ok result final →
    ReflTransGen R state final ∧ post result final) ∧
  ∀ error final, program state = .error error final → ReflTransGen R state (halt error final)

/-- The program moves by steps only; if it returns, the postcondition holds. -/
abbrev Traces (R : σ → σ → Prop) (program : EStateM ε σ α) (state : σ) (post : α → σ → Prop) :
    Prop :=
  Chains R (fun _ final => final) program state post

namespace Chains

theorem pure {result : α} (hpost : post result state) :
    Chains R halt (Pure.pure result : EStateM ε σ α) state post := by
  constructor
  · rintro answer final ⟨rfl, rfl⟩
    exact ⟨ReflTransGen.refl, hpost⟩
  · rintro error final ⟨⟩

theorem throw {error : ε} (hhalt : ReflTransGen R state (halt error state)) :
    Chains R halt (MonadExcept.throw error : EStateM ε σ α) state post := by
  constructor
  · rintro answer final ⟨⟩
  · rintro other final ⟨rfl, rfl⟩
    exact hhalt

variable {after : β → σ → Prop}

theorem bind {next : α → EStateM ε σ β} (hfirst : Chains R halt program state post)
    (hnext : ∀ result middle, post result middle → Chains R halt (next result) middle after) :
    Chains R halt (program >>= next) state after := by
  refine ⟨fun answer final hrun => ?_, fun error final hrun => ?_⟩
  · obtain ⟨result, middle, hprogram, hrest⟩ := run_bind_eq_ok.mp hrun
    obtain ⟨hsteps, hmiddle⟩ := hfirst.1 result middle hprogram
    exact ((hnext result middle hmiddle).1 answer final hrest).imp_left hsteps.trans
  · rcases run_bind_eq_error.mp hrun with hthrow | ⟨result, middle, hprogram, hthrow⟩
    · exact hfirst.2 error final hthrow
    · obtain ⟨hsteps, hmiddle⟩ := hfirst.1 result middle hprogram
      exact hsteps.trans ((hnext result middle hmiddle).2 error final hthrow)

theorem mono {weaker : α → σ → Prop} (htraces : Chains R halt program state post)
    (hpost : ∀ result final, post result final → weaker result final) :
    Chains R halt program state weaker :=
  ⟨fun result final hrun => (htraces.1 result final hrun).imp_right (hpost result final),
    htraces.2⟩

theorem and_ensures {more : α → σ → Prop} (htraces : Chains R halt program state post)
    (hensures : Ensures program state more) :
    Chains R halt program state fun result final => post result final ∧ more result final :=
  ⟨fun result final hrun =>
    ⟨(htraces.1 result final hrun).1, (htraces.1 result final hrun).2,
      hensures result final hrun⟩, htraces.2⟩

theorem get_bind {next : σ → EStateM ε σ β} (hnext : Chains R halt (next state) state after) :
    Chains R halt (get >>= next) state after := hnext

theorem of_ok {result : α} {final : σ} (hrun : program state = .ok result final)
    (hsteps : ReflTransGen R state final) (hpost : post result final) :
    Chains R halt program state post := by
  constructor
  · intro answer last hlast
    cases hrun.symm.trans hlast
    exact ⟨hsteps, hpost⟩
  · intro error last hlast
    cases hrun.symm.trans hlast

theorem of_error {error : ε} {final : σ} (hrun : program state = .error error final)
    (hsteps : ReflTransGen R state (halt error final)) : Chains R halt program state post := by
  constructor
  · intro answer last hlast
    cases hrun.symm.trans hlast
  · intro other last hlast
    cases hrun.symm.trans hlast
    exact hsteps

theorem prepend {first : σ} (hsteps : ReflTransGen R first state) {other : EStateM ε σ β}
    {rest : EStateM ε σ β} (hsame : other first = rest state)
    (hrest : Chains R halt rest state after) : Chains R halt other first after := by
  refine ⟨fun answer final hrun => ?_, fun error final hrun => ?_⟩
  · obtain ⟨hmore, hafter⟩ := hrest.1 answer final (hsame ▸ hrun)
    exact ⟨hsteps.trans hmore, hafter⟩
  · exact hsteps.trans (hrest.2 error final (hsame ▸ hrun))

theorem set_bind {middle : σ} (hsteps : ReflTransGen R state middle) {next : PUnit → EStateM ε σ β}
    (hnext : Chains R halt (next ⟨⟩) middle after) :
    Chains R halt (MonadStateOf.set middle >>= next) state after :=
  prepend hsteps rfl hnext

theorem modify_bind {change : σ → σ} (hsteps : ReflTransGen R state (change state))
    {next : PUnit → EStateM ε σ β} (hnext : Chains R halt (next ⟨⟩) (change state) after) :
    Chains R halt (modify change >>= next) state after :=
  prepend hsteps rfl hnext

theorem set {middle : σ} (hsteps : ReflTransGen R state middle) {after : PUnit → σ → Prop}
    (hpost : after ⟨⟩ middle) :
    Chains R halt (MonadStateOf.set middle : EStateM ε σ PUnit) state after := by
  constructor
  · rintro answer final ⟨rfl, rfl⟩
    exact ⟨hsteps, hpost⟩
  · rintro error final ⟨⟩

theorem modify {change : σ → σ} (hsteps : ReflTransGen R state (change state))
    {after : PUnit → σ → Prop} (hpost : after ⟨⟩ (change state)) :
    Chains R halt (modify change : EStateM ε σ PUnit) state after := by
  constructor
  · rintro answer final ⟨rfl, rfl⟩
    exact ⟨hsteps, hpost⟩
  · rintro error final ⟨⟩

end Chains

theorem Chains.relax {S : σ → σ → Prop} (hchains : Chains R halt program state post)
    (hallows : ∀ first second, R first second → S first second) :
    Chains S halt program state post :=
  ⟨fun result final hrun =>
    ⟨ReflTransGen.mono hallows _ _ (hchains.1 result final hrun).1, (hchains.1 result final hrun).2⟩,
    fun error final hrun => ReflTransGen.mono hallows _ _ (hchains.2 error final hrun)⟩

theorem invariant_of_steps {I : σ → Prop} (hstep : ∀ first second, R first second → I first →
    I second) {first last : σ} (hsteps : ReflTransGen R first last) (hfirst : I first) :
    I last := by
  induction hsteps with
  | refl => exact hfirst
  | tail _ hlast ih => exact hstep _ _ hlast ih

/-! ## Programs in phases -/

/-- Steps of a first kind, and then possibly one of a second kind and steps of a third kind. -/
def Phases (P C A : σ → σ → Prop) (first last : σ) : Prop :=
  ReflTransGen P first last ∨
    ∃ prepared committed, ReflTransGen P first prepared ∧ C prepared committed ∧
      ReflTransGen A committed last

/-- However the program ends, it has moved in phases; if it returns, the postcondition holds. -/
def Phased (P C A : σ → σ → Prop) (program : EStateM ε σ α) (state : σ) (post : α → σ → Prop) :
    Prop :=
  (∀ result final, program state = .ok result final →
    Phases P C A state final ∧ post result final) ∧
  ∀ error final, program state = .error error final → Phases P C A state final

namespace Phases

variable {P C A B : σ → σ → Prop} {first middle last : σ}

theorem prepend (hsteps : ReflTransGen P first middle) (hphases : Phases P C A middle last) :
    Phases P C A first last := by
  rcases hphases with hmore | ⟨prepared, committed, hmore, hcommit, happly⟩
  · exact Or.inl (hsteps.trans hmore)
  · exact Or.inr ⟨prepared, committed, hsteps.trans hmore, hcommit, happly⟩

theorem append (hphases : Phases P C A first middle) (hsteps : ReflTransGen B middle last)
    (hfirst : ∀ first second, B first second → P first second)
    (hthird : ∀ first second, B first second → A first second) : Phases P C A first last := by
  rcases hphases with hmore | ⟨prepared, committed, hmore, hcommit, happly⟩
  · exact Or.inl (hmore.trans (ReflTransGen.mono hfirst _ _ hsteps))
  · exact Or.inr ⟨prepared, committed, hmore, hcommit,
      happly.trans (ReflTransGen.mono hthird _ _ hsteps)⟩

theorem reaches {I J : σ → Prop} (hphases : Phases P C A first last)
    (hprepare : ∀ first second, P first second → I first → I second)
    (hsettles : ∀ state, I state → J state)
    (hcommit : ∀ first second, C first second → I first → J second)
    (happly : ∀ first second, A first second → J first → J second) (hfirst : I first) :
    J last := by
  rcases hphases with hsteps | ⟨prepared, committed, hsteps, hcommits, happlies⟩
  · exact hsettles _ (invariant_of_steps hprepare hsteps hfirst)
  · exact invariant_of_steps happly happlies
      (hcommit _ _ hcommits (invariant_of_steps hprepare hsteps hfirst))

theorem invariant {I : σ → Prop} (hphases : Phases P C A first last)
    (hprepare : ∀ first second, P first second → I first → I second)
    (hcommit : ∀ first second, C first second → I first → I second)
    (happly : ∀ first second, A first second → I first → I second) (hfirst : I first) :
    I last :=
  hphases.reaches hprepare (fun _ => id) hcommit happly hfirst

end Phases

namespace Phased

variable {P C A B : σ → σ → Prop}

theorem of_traces (htraces : Traces P program state post) : Phased P C A program state post :=
  ⟨fun result final hrun => (htraces.1 result final hrun).imp_left Or.inl,
    fun error final hrun => Or.inl (htraces.2 error final hrun)⟩

theorem pure {result : α} (hpost : post result state) :
    Phased P C A (Pure.pure result : EStateM ε σ α) state post :=
  of_traces (Chains.pure hpost)

variable {after : β → σ → Prop} {next : PUnit → EStateM ε σ β}

theorem bind {next : α → EStateM ε σ β} (hfirst : Traces P program state post)
    (hnext : ∀ result middle, post result middle → Phased P C A (next result) middle after) :
    Phased P C A (program >>= next) state after := by
  refine ⟨fun answer final hrun => ?_, fun error final hrun => ?_⟩
  · obtain ⟨result, middle, hprogram, hrest⟩ := run_bind_eq_ok.mp hrun
    obtain ⟨hsteps, hmiddle⟩ := hfirst.1 result middle hprogram
    exact ((hnext result middle hmiddle).1 answer final hrest).imp_left (Phases.prepend hsteps)
  · rcases run_bind_eq_error.mp hrun with hthrow | ⟨result, middle, hprogram, hthrow⟩
    · exact Or.inl (hfirst.2 error final hthrow)
    · obtain ⟨hsteps, hmiddle⟩ := hfirst.1 result middle hprogram
      exact ((hnext result middle hmiddle).2 error final hthrow).prepend hsteps

theorem followed {next : α → EStateM ε σ β} (hfirst : Phased P C A program state post)
    (hnext : ∀ result middle, post result middle → Traces B (next result) middle after)
    (hprepare : ∀ first second, B first second → P first second)
    (happly : ∀ first second, B first second → A first second) :
    Phased P C A (program >>= next) state after := by
  refine ⟨fun answer final hrun => ?_, fun error final hrun => ?_⟩
  · obtain ⟨result, middle, hprogram, hrest⟩ := run_bind_eq_ok.mp hrun
    obtain ⟨hphases, hmiddle⟩ := hfirst.1 result middle hprogram
    exact ((hnext result middle hmiddle).1 answer final hrest).imp_left fun hsteps =>
      hphases.append hsteps hprepare happly
  · rcases run_bind_eq_error.mp hrun with hthrow | ⟨result, middle, hprogram, hthrow⟩
    · exact hfirst.2 error final hthrow
    · obtain ⟨hphases, hmiddle⟩ := hfirst.1 result middle hprogram
      exact hphases.append ((hnext result middle hmiddle).2 error final hthrow) hprepare happly

theorem get_bind {next : σ → EStateM ε σ β} (hnext : Phased P C A (next state) state after) :
    Phased P C A (get >>= next) state after := hnext

theorem set_bind {middle : σ} (hsteps : ReflTransGen P state middle)
    (hnext : Phased P C A (next ⟨⟩) middle after) :
    Phased P C A (MonadStateOf.set middle >>= next) state after :=
  have hset : Traces P (MonadStateOf.set middle : EStateM ε σ PUnit) state
      fun _ final => final = middle := Chains.set hsteps rfl
  bind hset fun _ _ h => h ▸ hnext

theorem set_set_bind {between middle : σ} (hsteps : ReflTransGen P state middle)
    (hnext : Phased P C A (next ⟨⟩) middle after) :
    Phased P C A (MonadStateOf.set between >>= fun _ => MonadStateOf.set middle >>= next) state
      after :=
  show Phased P C A (MonadStateOf.set middle >>= next) state after from set_bind hsteps hnext

theorem modify_bind {change : σ → σ} (hsteps : ReflTransGen P state (change state))
    (hnext : Phased P C A (next ⟨⟩) (change state) after) :
    Phased P C A (modify change >>= next) state after :=
  set_bind hsteps hnext

theorem commit_bind {middle : σ} (hcommit : C state middle)
    (hnext : Traces A (next ⟨⟩) middle after) :
    Phased P C A (MonadStateOf.set middle >>= next) state after :=
  ⟨fun answer final hrun => (hnext.1 answer final hrun).imp_left fun hsteps =>
      Or.inr ⟨state, middle, .refl, hcommit, hsteps⟩,
    fun error final hrun => Or.inr ⟨state, middle, .refl, hcommit, hnext.2 error final hrun⟩⟩

theorem traces {R : σ → σ → Prop} (hphased : Phased P C A program state post)
    (hprepare : ∀ first second, P first second → R first second)
    (hcommit : ∀ first second, C first second → R first second)
    (happly : ∀ first second, A first second → R first second) : Traces R program state post := by
  have hsteps : ∀ {first last}, Phases P C A first last → ReflTransGen R first last := by
    rintro first last (hsteps | ⟨prepared, committed, hsteps, hcommits, happlies⟩)
    · exact ReflTransGen.mono hprepare _ _ hsteps
    · exact ((ReflTransGen.mono hprepare _ _ hsteps).tail (hcommit _ _ hcommits)).trans
        (ReflTransGen.mono happly _ _ happlies)
  exact ⟨fun result final hrun => (hphased.1 result final hrun).imp_left hsteps,
    fun error final hrun => hsteps (hphased.2 error final hrun)⟩

end Phased

end Barrier
