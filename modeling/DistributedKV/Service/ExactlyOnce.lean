import DistributedKV.Service.StateMachine

/-!
# Exactly-once application

A client's commands carry increasing request numbers, and the state machine remembers the last one
it has applied for every client together with its answer. A command that is not newer than what it
remembers only moves the machine to the next index, so a second copy of a command, anywhere behind
the first one, changes neither the keys nor the sessions nor any other answer (`exactly_once`).
-/

namespace DistributedKV

open Barrier List

/-- The command an entry carries, if it is a command entry that decodes. -/
def LogEntry.carried (entry : LogEntry) : Option KVCommand :=
  match entry.type with
  | .command => (KVCommandCodec.decode entry.command).toOption
  | _ => none

/-- An entry that carries no command and is well formed. -/
def LogEntry.Blank (entry : LogEntry) : Prop :=
  (entry.type = .noOp ∧ entry.command = []) ∨ (entry.type = .confChange ∧ entry.command ≠ [])

/-- The same entry one place further. -/
def LogEntry.renumbered (entry : LogEntry) : LogEntry := { entry with index := entry.index + 1 }

/-- The same answer for the entry one place further. -/
def ApplyResult.renumbered (result : ApplyResult) : ApplyResult :=
  { result with logIndex := result.logIndex + 1 }

namespace StateMachine

variable {machine next final : StateMachine} {entry : LogEntry} {result : Option ApplyResult}

/-! ## One entry -/

/-- The two ways an entry is applied. -/
theorem apply_cases (happly : machine.apply entry = .ok (next, result)) :
    entry.index = machine.lastApplied + 1 ∧
      ((entry.Blank ∧ next = { machine with lastApplied := entry.index } ∧ result = none) ∨
        ∃ command, entry.carried = some command ∧
          next = (machine.applyCommand entry.index command).1 ∧
          result = some (machine.applyCommand entry.index command).2) := by
  rw [apply] at happly
  split at happly
  · cases happly
  rename_i hindex
  refine ⟨not_not.mp hindex, ?_⟩
  split at happly
  · rename_i htype
    split at happly
    · cases happly
    · rename_i hempty
      cases happly
      exact .inl ⟨.inl ⟨htype, not_not.mp hempty⟩, rfl, rfl⟩
  · rename_i htype
    split at happly
    · cases happly
    · rename_i hempty
      cases happly
      exact .inl ⟨.inr ⟨htype, hempty⟩, rfl, rfl⟩
  · rename_i htype
    split at happly
    · cases happly
    · rename_i command hdecode
      cases happly
      refine .inr ⟨command, ?_, rfl, rfl⟩
      rw [LogEntry.carried, htype, hdecode]
      rfl

theorem apply_of_blank (hindex : entry.index = machine.lastApplied + 1) (hblank : entry.Blank) :
    machine.apply entry = .ok ({ machine with lastApplied := entry.index }, none) := by
  rw [apply, if_neg (not_not.mpr hindex)]
  rcases hblank with ⟨htype, hempty⟩ | ⟨htype, hempty⟩
  · rw [htype]
    exact if_neg (not_not.mpr hempty)
  · rw [htype]
    exact if_neg hempty

variable {command : KVCommand} {results : List (Option ApplyResult)}

theorem apply_of_carried (hindex : entry.index = machine.lastApplied + 1)
    (hcarried : entry.carried = some command) :
    machine.apply entry = .ok ((machine.applyCommand entry.index command).1,
      some (machine.applyCommand entry.index command).2) := by
  rw [LogEntry.carried] at hcarried
  split at hcarried
  · rename_i htype
    rw [apply, if_neg (not_not.mpr hindex), htype]
    cases hdecode : KVCommandCodec.decode entry.command with
    | error error => simp [hdecode, Except.toOption] at hcarried
    | ok decoded =>
      simp only [hdecode, Except.toOption, Option.some.injEq] at hcarried
      rw [hcarried]
  · cases hcarried

/-! ## Sessions -/

/-- The machine has answered a request of a client that is at least as new. -/
def Answered (machine : StateMachine) (client request : UInt64) : Prop :=
  ∃ response, machine.sessions.lookup client = some response ∧ request ≤ response.requestId

section Command

variable {index : Nat} {command : KVCommand}

theorem apply_command_of_answered
    (hanswered : machine.Answered command.clientId command.requestId) :
    (machine.applyCommand index command).1 = { machine with lastApplied := index } := by
  obtain ⟨response, hlookup, hle⟩ := hanswered
  rw [applyCommand, hlookup]
  dsimp only
  rw [if_pos hle]

/-- A new command is executed and answered. -/
theorem apply_command_of_new (hnew : ¬ machine.Answered command.clientId command.requestId) :
    machine.applyCommand index command =
      ({ store := (execute machine.store command).1
         lastApplied := index
         sessions := machine.sessions.insert command.clientId
           { requestId := command.requestId
             status := (execute machine.store command).2.1
             payload := (execute machine.store command).2.2 } },
        { logIndex := index, clientId := command.clientId, requestId := command.requestId
          status := (execute machine.store command).2.1
          payload := (execute machine.store command).2.2, duplicate := false }) := by
  rw [applyCommand]
  cases hlookup : machine.sessions.lookup command.clientId with
  | none => rfl
  | some response =>
    have hlt : ¬ command.requestId ≤ response.requestId :=
      fun hle => hnew ⟨response, hlookup, hle⟩
    dsimp only
    rw [if_neg hlt]

theorem answered_after_command :
    (machine.applyCommand index command).1.Answered command.clientId command.requestId := by
  by_cases hanswered : machine.Answered command.clientId command.requestId
  · rw [apply_command_of_answered hanswered]
    exact hanswered
  · rw [apply_command_of_new hanswered]
    exact ⟨_, Finmap.lookup_insert _, UInt64.le_refl _⟩

theorem Answered.after_command {client request : UInt64} (hanswered : machine.Answered client request) :
    (machine.applyCommand index command).1.Answered client request := by
  by_cases hold : machine.Answered command.clientId command.requestId
  · rw [apply_command_of_answered hold]
    exact hanswered
  rw [apply_command_of_new hold]
  obtain ⟨response, hlookup, hle⟩ := hanswered
  rcases eq_or_ne client command.clientId with rfl | hne
  · have hlt : response.requestId ≤ command.requestId := by
      by_contra hnot
      exact hold ⟨response, hlookup, UInt64.le_of_lt (UInt64.not_le.mp hnot)⟩
    exact ⟨_, Finmap.lookup_insert _, UInt64.le_trans hle hlt⟩
  · refine ⟨response, ?_, hle⟩
    rw [Finmap.lookup_insert_of_ne _ hne, hlookup]

end Command

/-! ## Lists of entries -/

/-- Apply entries one after the other, with the answers. -/
def applyAll (machine : StateMachine) :
    List LogEntry → Except String (StateMachine × List (Option ApplyResult))
  | [] => .ok (machine, [])
  | entry :: rest => do
      let (next, result) ← machine.apply entry
      let (final, results) ← next.applyAll rest
      pure (final, result :: results)

variable {rest entries : List LogEntry} {results : List (Option ApplyResult)}

theorem apply_all_cons :
    machine.applyAll (entry :: rest) = .ok (final, results) ↔
      ∃ next result later, machine.apply entry = .ok (next, result) ∧
        next.applyAll rest = .ok (final, later) ∧ results = result :: later := by
  rw [applyAll]
  constructor
  · intro hrun
    obtain ⟨⟨next, result⟩, hentry, hrun⟩ := except_bind_eq_ok.mp hrun
    obtain ⟨⟨last, later⟩, hrest, hrun⟩ := except_bind_eq_ok.mp hrun
    cases hrun
    exact ⟨next, result, later, hentry, hrest, rfl⟩
  · rintro ⟨next, result, later, hentry, hrest, rfl⟩
    refine except_bind_eq_ok.mpr ⟨(next, result), hentry, ?_⟩
    exact except_bind_eq_ok.mpr ⟨(final, later), hrest, rfl⟩

/-- Applying two lists applies one after the other. -/
theorem apply_all_append {first second : List LogEntry} :
    machine.applyAll (first ++ second) = .ok (final, results) ↔
      ∃ middle earlier later, machine.applyAll first = .ok (middle, earlier) ∧
        middle.applyAll second = .ok (final, later) ∧ results = earlier ++ later := by
  induction first generalizing machine results with
  | nil =>
    constructor
    · intro hrun
      exact ⟨machine, [], results, rfl, hrun, rfl⟩
    · rintro ⟨middle, earlier, later, hfirst, hsecond, rfl⟩
      cases hfirst
      exact hsecond
  | cons entry rest ih =>
    rw [cons_append, apply_all_cons]
    constructor
    · rintro ⟨next, result, later, hentry, hrest, rfl⟩
      obtain ⟨middle, before, after, hbefore, hafter, rfl⟩ := ih.mp hrest
      exact ⟨middle, result :: before, after,
        apply_all_cons.mpr ⟨next, result, before, hentry, hbefore, rfl⟩, hafter, rfl⟩
    · rintro ⟨middle, earlier, later, hfirst, hsecond, rfl⟩
      obtain ⟨next, result, before, hentry, hbefore, rfl⟩ := apply_all_cons.mp hfirst
      exact ⟨next, result, before ++ later, hentry,
        ih.mpr ⟨middle, before, later, hbefore, hsecond, rfl⟩, rfl⟩

theorem apply_all_length (hrun : machine.applyAll entries = .ok (final, results)) :
    results.length = entries.length ∧
      final.lastApplied = machine.lastApplied + entries.length := by
  induction entries generalizing machine results with
  | nil =>
    cases hrun
    exact ⟨rfl, rfl⟩
  | cons entry rest ih =>
    obtain ⟨next, result, later, hentry, hrest, rfl⟩ := apply_all_cons.mp hrun
    obtain ⟨hlength, happlied⟩ := ih hrest
    rw [apply_last_applied hentry] at happlied
    refine ⟨by simp [hlength], ?_⟩
    rw [happlied, length_cons]
    omega

theorem Answered.after_all {client request : UInt64} (hanswered : machine.Answered client request)
    (hrun : machine.applyAll entries = .ok (final, results)) : final.Answered client request := by
  induction entries generalizing machine results with
  | nil =>
    cases hrun
    exact hanswered
  | cons entry rest ih =>
    obtain ⟨next, result, later, hentry, hrest, -⟩ := apply_all_cons.mp hrun
    obtain ⟨-, ⟨-, rfl, -⟩ | ⟨command, -, rfl, -⟩⟩ := apply_cases hentry
    · have hsame : { machine with lastApplied := entry.index }.Answered client request :=
        hanswered
      exact ih hsame hrest
    · exact ih hanswered.after_command hrest

/-! ## Renumbering -/

/-- The same machine one place further. -/
def renumbered (machine : StateMachine) : StateMachine :=
  { machine with lastApplied := machine.lastApplied + 1 }

theorem apply_command_renumbered (machine : StateMachine) (index : Nat) (command : KVCommand) :
    machine.renumbered.applyCommand (index + 1) command =
      ((machine.applyCommand index command).1.renumbered,
        (machine.applyCommand index command).2.renumbered) := by
  simp only [applyCommand, renumbered, ApplyResult.renumbered]
  split
  · rfl
  · split_ifs <;> rfl

theorem apply_renumbered (happly : machine.apply entry = .ok (next, result)) :
    machine.renumbered.apply entry.renumbered =
      .ok (next.renumbered, result.map ApplyResult.renumbered) := by
  obtain ⟨hindex, hcases⟩ := apply_cases happly
  have hplace : entry.renumbered.index = machine.renumbered.lastApplied + 1 :=
    congrArg (· + 1) hindex
  rcases hcases with ⟨hblank, rfl, rfl⟩ | ⟨command, hcarried, rfl, rfl⟩
  · have hmoved : entry.renumbered.Blank := hblank
    exact apply_of_blank hplace hmoved
  · have hmoved : entry.renumbered.carried = some command := hcarried
    have happlied := machine.apply_command_renumbered entry.index command
    rw [apply_of_carried hplace hmoved]
    show Except.ok ((machine.renumbered.applyCommand (entry.index + 1) command).1,
      some (machine.renumbered.applyCommand (entry.index + 1) command).2) = _
    rw [happlied]
    rfl

theorem apply_all_renumbered (hrun : machine.applyAll entries = .ok (final, results)) :
    machine.renumbered.applyAll (entries.map LogEntry.renumbered) =
      .ok (final.renumbered, results.map (Option.map ApplyResult.renumbered)) := by
  induction entries generalizing machine results with
  | nil =>
    cases hrun
    rfl
  | cons entry rest ih =>
    obtain ⟨next, result, later, hentry, hrest, rfl⟩ := apply_all_cons.mp hrun
    exact apply_all_cons.mpr ⟨_, _, _, apply_renumbered hentry, ih hrest, rfl⟩

/-! ## The latest request of a client -/

/-- No entry carries a request of the client that is newer. -/
def LatestIn (client request : UInt64) (entries : List LogEntry) : Prop :=
  ∀ entry ∈ entries, ∀ command, entry.carried = some command → command.clientId = client →
    command.requestId ≤ request

/-- The session of the client, if there is one, is not newer. -/
def Bounded (machine : StateMachine) (client request : UInt64) : Prop :=
  ∀ response, machine.sessions.lookup client = some response → response.requestId ≤ request

section Latest

variable {client request : UInt64} {entries : List LogEntry}
  {results : List (Option ApplyResult)}

theorem lookup_after_command {index : Nat} (hother : command.clientId = client →
      machine.Answered command.clientId command.requestId) :
    (machine.applyCommand index command).1.sessions.lookup client =
      machine.sessions.lookup client := by
  by_cases hold : machine.Answered command.clientId command.requestId
  · rw [apply_command_of_answered hold]
  · rw [apply_command_of_new hold]
    have hne : client ≠ command.clientId := fun heq => hold (hother heq.symm)
    exact Finmap.lookup_insert_of_ne _ hne

/-- Sessions stay bounded while no newer request comes. -/
theorem Bounded.after_all (hbounded : machine.Bounded client request)
    (hlatest : LatestIn client request entries)
    (hrun : machine.applyAll entries = .ok (final, results)) : final.Bounded client request := by
  induction entries generalizing machine results with
  | nil =>
    cases hrun
    exact hbounded
  | cons entry rest ih =>
    obtain ⟨next, result, later, hentry, hrest, -⟩ := apply_all_cons.mp hrun
    refine ih ?_ (fun other hother => hlatest other (mem_cons_of_mem _ hother)) hrest
    obtain ⟨-, ⟨-, rfl, -⟩ | ⟨command, hcarried, rfl, -⟩⟩ := apply_cases hentry
    · exact hbounded
    · intro response hlookup
      by_cases hold : machine.Answered command.clientId command.requestId
      · rw [apply_command_of_answered hold] at hlookup
        exact hbounded response hlookup
      rw [apply_command_of_new hold] at hlookup
      rcases eq_or_ne client command.clientId with heq | hne
      · rw [heq, Finmap.lookup_insert] at hlookup
        cases hlookup
        exact hlatest entry mem_cons_self command hcarried heq.symm
      · rw [Finmap.lookup_insert_of_ne _ hne] at hlookup
        exact hbounded response hlookup

/-- A session stays while no newer request comes. -/
theorem lookup_after_all {response : CachedResponse}
    (hlookup : machine.sessions.lookup client = some response)
    (hlatest : LatestIn client response.requestId entries)
    (hrun : machine.applyAll entries = .ok (final, results)) :
    final.sessions.lookup client = some response := by
  induction entries generalizing machine results with
  | nil =>
    cases hrun
    exact hlookup
  | cons entry rest ih =>
    obtain ⟨next, result, later, hentry, hrest, -⟩ := apply_all_cons.mp hrun
    refine ih ?_ (fun other hother => hlatest other (mem_cons_of_mem _ hother)) hrest
    obtain ⟨-, ⟨-, rfl, -⟩ | ⟨command, hcarried, rfl, -⟩⟩ := apply_cases hentry
    · exact hlookup
    · rw [lookup_after_command, hlookup]
      intro hclient
      rw [hclient]
      exact ⟨response, hlookup, hlatest entry mem_cons_self command hcarried hclient⟩

theorem session_after_command {index : Nat}
    (hbounded : machine.Bounded command.clientId command.requestId) :
    (machine.applyCommand index command).1.sessions.lookup command.clientId =
      some { requestId := command.requestId
             status := (machine.applyCommand index command).2.status
             payload := (machine.applyCommand index command).2.payload } := by
  by_cases hold : machine.Answered command.clientId command.requestId
  · rw [apply_command_of_answered hold]
    obtain ⟨response, hlookup, hle⟩ := hold
    have hsame : command.requestId = response.requestId :=
      UInt64.le_antisymm hle (hbounded response hlookup)
    rw [applyCommand, hlookup]
    dsimp only
    rw [if_pos hle, if_pos hsame, hsame]
  · rw [apply_command_of_new hold]
    exact Finmap.lookup_insert _

theorem answer_of_session (index : Nat) {response : CachedResponse}
    (hlookup : machine.sessions.lookup command.clientId = some response)
    (hsame : command.requestId = response.requestId) :
    (machine.applyCommand index command).2 =
      { logIndex := index, clientId := command.clientId, requestId := command.requestId
        status := response.status, payload := response.payload, duplicate := true } := by
  rw [applyCommand, hlookup]
  dsimp only
  rw [if_pos (hsame ▸ UInt64.le_refl _), if_pos hsame]

end Latest

/-! ## A second copy -/

theorem apply_all_answered {copy : LogEntry} {entries : List LogEntry}
    (hindex : copy.index = machine.lastApplied + 1) (hcarried : copy.carried = some command)
    (hanswered : machine.Answered command.clientId command.requestId)
    (hrun : machine.applyAll entries = .ok (final, results)) :
    machine.applyAll (copy :: entries.map LogEntry.renumbered) =
      .ok (final.renumbered, some (machine.applyCommand copy.index command).2 ::
        results.map (Option.map ApplyResult.renumbered)) := by
  have hplace : (machine.applyCommand copy.index command).1 = machine.renumbered := by
    rw [apply_command_of_answered hanswered, hindex]
    rfl
  refine apply_all_cons.mpr ⟨_, _, _, apply_of_carried hindex hcarried, ?_, rfl⟩
  rw [hplace]
  exact apply_all_renumbered hrun

theorem apply_all_carried {start rest : List LogEntry} {first : LogEntry} {original : KVCommand}
    (hfirst : first.carried = some original)
    (hrun : machine.applyAll (start ++ first :: rest) = .ok (final, results)) :
    ∃ reached before behind, machine.applyAll start = .ok (reached, before) ∧
      (reached.applyCommand first.index original).1.applyAll rest = .ok (final, behind) ∧
      results = before ++ some (reached.applyCommand first.index original).2 :: behind := by
  obtain ⟨reached, before, answers, hstart, hrest, rfl⟩ := apply_all_append.mp hrun
  obtain ⟨next, result, behind, hentry, hbehind, rfl⟩ := apply_all_cons.mp hrest
  obtain ⟨hindex, -⟩ := apply_cases hentry
  rw [apply_of_carried hindex hfirst] at hentry
  cases hentry
  exact ⟨reached, before, behind, hstart, hbehind, rfl⟩

/-- The latest answer is still in the session. -/
theorem latest_session {start rest : List LogEntry} {first : LogEntry} {original : KVCommand}
    (hfirst : first.carried = some original)
    (hlatest : LatestIn original.clientId original.requestId (start ++ first :: rest))
    (hrun : applyAll {} (start ++ first :: rest) = .ok (final, results)) :
    ∃ applied, results[start.length]? = some (some applied) ∧
      final.sessions.lookup original.clientId =
        some { requestId := original.requestId, status := applied.status
               payload := applied.payload } := by
  obtain ⟨reached, before, behind, hstart, hbehind, rfl⟩ := apply_all_carried hfirst hrun
  have hempty : Bounded {} original.clientId original.requestId := by
    intro response hlookup
    simp at hlookup
  have hbounded := hempty.after_all
    (fun entry hmember => hlatest entry (mem_append_left _ hmember)) hstart
  refine ⟨(reached.applyCommand first.index original).2, ?_,
    lookup_after_all (session_after_command hbounded) (fun entry hmember => hlatest entry
      (mem_append_right _ (mem_cons_of_mem _ hmember))) hbehind⟩
  rw [← (apply_all_length hstart).1, getElem?_append_right le_rfl, Nat.sub_self]
  rfl

/-- Insert a second copy of a command, or an older command of the same client, anywhere behind it
and renumber what follows. The entries are still applied, to the same keys and sessions, and every
other answer is the same. The copy of the client's latest request gets the answer of the first. -/
theorem exactly_once {start rest after : List LogEntry} {first copy : LogEntry}
    {original repeated : KVCommand} (hfirst : first.carried = some original)
    (hcopy : copy.carried = some repeated) (hclient : repeated.clientId = original.clientId)
    (hrequest : repeated.requestId ≤ original.requestId)
    (hindex : copy.index = (start ++ first :: rest).length + 1)
    {results : List (Option ApplyResult)}
    (hrun : applyAll {} ((start ++ first :: rest) ++ after) = .ok (final, results)) :
    ∃ answer changed,
      applyAll {} ((start ++ first :: rest) ++ copy :: after.map LogEntry.renumbered) =
        .ok (changed, results.take (start ++ first :: rest).length ++ some answer ::
          (results.drop (start ++ first :: rest).length).map
            (Option.map ApplyResult.renumbered)) ∧
      changed.store = final.store ∧ changed.sessions = final.sessions ∧
      (repeated.requestId = original.requestId →
        LatestIn original.clientId original.requestId (start ++ first :: rest) →
        ∃ applied, results[start.length]? = some (some applied) ∧
          answer.status = applied.status ∧ answer.payload = applied.payload ∧
          answer.duplicate = true) := by
  obtain ⟨middle, earlier, later, hbefore, hafter, rfl⟩ := apply_all_append.mp hrun
  obtain ⟨hlength, happlied⟩ := apply_all_length hbefore
  have hanswered : middle.Answered repeated.clientId repeated.requestId := by
    obtain ⟨reached, -, behind, -, hbehind, -⟩ := apply_all_carried hfirst hbefore
    obtain ⟨response, hlookup, hle⟩ := answered_after_command.after_all hbehind
    rw [hclient]
    exact ⟨response, hlookup, UInt64.le_trans hrequest hle⟩
  have hplace : copy.index = middle.lastApplied + 1 := by
    rw [hindex, happlied]
    exact congrArg (· + 1) (Nat.zero_add _).symm
  have hchanged := apply_all_answered hplace hcopy hanswered hafter
  refine ⟨(middle.applyCommand copy.index repeated).2, final.renumbered,
    apply_all_append.mpr ⟨middle, earlier, _, hbefore, hchanged, ?_⟩, rfl, rfl, ?_⟩
  · rw [take_left' hlength, drop_left' hlength]
  · intro hsame hlatest
    obtain ⟨applied, happliedAt, hsession⟩ := latest_session hfirst hlatest hbefore
    rw [← hclient] at hsession
    refine ⟨applied, ?_, ?_⟩
    · rw [getElem?_append_left (by rw [hlength]; simp), happliedAt]
    · rw [answer_of_session copy.index hsession hsame]
      exact ⟨rfl, rfl, rfl⟩

end StateMachine

/-! ### A log with a repeated command -/

/-- Client 7 sets one key. -/
def setKey : KVCommand := { type := .set, clientId := 7, requestId := 1, key := [120], value := [49] }

/-- The encoded command. -/
def setKeyEncoded : Bytes := (KVCommandCodec.encode setKey).toOption.getD []

/-- The entry of the command at an index. -/
def setKeyEntry (index : Nat) : LogEntry :=
  { index, term := 1, type := .command, command := setKeyEncoded }

/-- The command with a no-op behind it, and its copy behind both: the copy is answered as the
command was, and the store is the same. -/
theorem exactly_once_set_key :
    ∃ final results answer changed applied,
      StateMachine.applyAll {}
        (setKeyEntry 1 :: [{ index := 2, term := 1, type := .noOp, command := [] }]) =
          .ok (final, results) ∧
      StateMachine.applyAll {} (setKeyEntry 1 ::
        [{ index := 2, term := 1, type := .noOp, command := [] }, setKeyEntry 3]) =
          .ok (changed, results ++ [some answer]) ∧
      changed.store = final.store ∧ results[0]? = some (some applied) ∧
      answer.status = applied.status ∧ answer.duplicate = true := by
  have hcarried : ∀ index, (setKeyEntry index).carried = some setKey := by
    intro index
    show (KVCommandCodec.decode setKeyEncoded).toOption = some setKey
    decide +kernel
  have hlatest : StateMachine.LatestIn setKey.clientId setKey.requestId
      ([] ++ setKeyEntry 1 :: [{ index := 2, term := 1, type := .noOp, command := [] }]) := by
    simp only [StateMachine.LatestIn, nil_append, mem_cons, not_mem_nil, or_false,
      forall_eq_or_imp, forall_eq, hcarried, Option.some.injEq]
    refine ⟨fun command hcommand _ => hcommand ▸ UInt64.le_refl _, fun command hcommand => ?_⟩
    simp [LogEntry.carried] at hcommand
  have haccepted : (StateMachine.applyAll {} ([] ++ setKeyEntry 1 ::
      [{ index := 2, term := 1, type := .noOp, command := [] }] ++ [])).isOk = true := by
    decide +kernel
  cases hrun : StateMachine.applyAll {}
      ([] ++ setKeyEntry 1 :: [{ index := 2, term := 1, type := .noOp, command := [] }] ++ []) with
  | error error =>
    rw [hrun] at haccepted
    cases haccepted
  | ok outcome =>
    obtain ⟨final, results⟩ := outcome
    obtain ⟨answer, changed, hchanged, hstore, -, hanswer⟩ := StateMachine.exactly_once
      (hcarried 1) (hcarried 3) rfl (UInt64.le_refl _) rfl hrun
    obtain ⟨applied, happlied, hstatus, -, hduplicate⟩ := hanswer rfl hlatest
    have hlength : results.length = ([] ++ setKeyEntry 1 ::
        [{ index := 2, term := 1, type := .noOp, command := [] }]).length :=
      (StateMachine.apply_all_length hrun).1
    rw [take_of_length_le hlength.le, drop_of_length_le hlength.le] at hchanged
    exact ⟨final, results, answer, changed, applied, hrun, hchanged, hstore, happlied, hstatus,
      hduplicate⟩

end DistributedKV
