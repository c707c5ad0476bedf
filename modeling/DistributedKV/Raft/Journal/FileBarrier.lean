import DistributedKV.Raft.Journal.ImageSize
import DistributedKV.Raft.Node.Saves

/-!
# The journal file as a barrier

A node saves its images through the barrier that it was given. Here the barrier is a journal file:
it answers a save as the file does after the saves before it. As long as no image overflows, the
file can be loaded again and holds the image that was saved last (`Keeps.after`, `Keeps.load`).
-/

namespace DistributedKV

open RaftJournal List

namespace FileRaftPersistence

/-- The journal after it was asked to save some states, of which the most recent one stands first.
A save that is refused leaves it as it was. -/
def after (journal : FileRaftPersistence) : List RaftPersistentState → FileRaftPersistence
  | [] => journal
  | state :: earlier =>
    match (journal.after earlier).save state with
    | .ok next => next
    | .error _ => journal.after earlier

/-- The barrier over a journal from which a state was loaded. -/
def barrier (journal : FileRaftPersistence) (loaded : RaftPersistentState) : RaftPersistence where
  save saved state := ((journal.after saved.dropLast).save state).map fun _ => ()
  saved := [loaded]

/-- The barrier over a new object for the file of a journal. -/
def reopenedBarrier (journal : FileRaftPersistence) : RaftPersistence :=
  match journal.reopened.load with
  | .ok (loaded, opened) => opened.barrier loaded
  | .error error =>
    { save := fun _ _ => .error "Raft journal is not open"
      loadAnswer := .error (decodeErrorText error) }

/-- The object behind the barrier. -/
def opened (journal : FileRaftPersistence) : FileRaftPersistence :=
  match journal.reopened.load with
  | .ok (_, opened) => opened
  | .error _ => journal.reopened

/-- The journal accepts the saves of some states, of which the most recent one stands first. -/
def Accepts (journal : FileRaftPersistence) : List RaftPersistentState → Prop
  | [] => True
  | state :: earlier =>
    (∃ next, (journal.after earlier).save state = .ok next) ∧ journal.Accepts earlier

/-- The journal opens, and its file is a chain of records that can be read back, the last of which
was written for a state. -/
structure Keeps (journal : FileRaftPersistence) (state : RaftPersistentState) : Prop where
  limits : journal.Limits
  written : ∃ marks written, Logged.Represents { journal, marks } written ∧ Small written ∧
    lastOf {} written = state

/-- The state is written with as many bytes as may be read. -/
structure Storable (state : RaftPersistentState) : Prop where
  fits : Fits state
  short : ¬ Overflows state

variable {journal next : FileRaftPersistence} {state last : RaftPersistentState}

theorem Storable.of_size (hfits : Fits state)
    (hsize : fieldsSize state + 2 ^ 20 ≤ maximumPayloadSize) : Storable state := by
  refine ⟨hfits, ?_⟩
  rintro ⟨-, -, extensions, hextensions, hlong⟩
  have hshort := append_state_extensions_length hextensions
  omega

theorem Keeps.fresh {maximumDeltaRecords maximumFileBytes : Nat}
    (hlimits : Limits { maximumDeltaRecords, maximumFileBytes }) :
    Keeps { maximumDeltaRecords, maximumFileBytes } {} := by
  have hsmall : Small [] := fun item hitem => by cases hitem
  exact ⟨hlimits, [], [], ⟨⟨fun hfile => absurd rfl hfile, .inr ⟨rfl, rfl, rfl⟩⟩, rfl, trivial,
    fun state hstate => by cases hstate⟩, hsmall, rfl⟩

theorem step_of_save (hsave : journal.save state = .ok next) (marks : List JournalMark) :
    ∃ more, Logged.step { journal, marks } (.save state) =
      some { journal := next, marks := more } := by
  obtain ⟨appended, happend, -⟩ := Barrier.except_bind_eq_ok.mp hsave
  rw [Logged.step, happend, hsave]
  dsimp only
  split_ifs
  · exact ⟨_, rfl⟩
  · exact ⟨_, rfl⟩

theorem Keeps.save (hkeeps : journal.Keeps last) (hstate : Storable state)
    (hsave : journal.save state = .ok next) : next.Keeps state := by
  obtain ⟨marks, written, hrepresents, hsmall, -⟩ := hkeeps.written
  obtain ⟨more, hstep⟩ := step_of_save hsave marks
  obtain ⟨before, record, hbefore, hnext⟩ := hrepresents.step_save hstate.fits hstep
  have hrecord := (chain_append.mp hnext.chain).2.1
  refine ⟨hnext.holds.limits (hnext.file_ne_nil (by simp)), more, _, hnext, ?_, last_of_concat ..⟩
  intro item hitem
  rcases mem_append.mp hitem with hitem | hitem
  · rcases hbefore with rfl | rfl
    · exact hsmall item hitem
    · cases hitem
  · rw [mem_singleton.mp hitem]
    exact hrecord.small hstate.short

theorem after_cons {earlier : List RaftPersistentState}
    (hsave : (journal.after earlier).save state = .ok next) :
    journal.after (state :: earlier) = next := by
  rw [after, hsave]

theorem Keeps.after (hkeeps : journal.Keeps last) {states : List RaftPersistentState}
    (hstates : ∀ state ∈ states, Storable state) (haccepts : journal.Accepts states) :
    (journal.after states).Keeps (states.head?.getD last) := by
  induction states with
  | nil => exact hkeeps
  | cons state earlier ih =>
    obtain ⟨⟨next, hsave⟩, haccepts⟩ := haccepts
    obtain ⟨hstate, hearlier⟩ := forall_mem_cons.mp hstates
    rw [after_cons hsave]
    exact (ih hearlier haccepts).save hstate hsave

theorem after_append (recent earlier : List RaftPersistentState) :
    journal.after (recent ++ earlier) = (journal.after earlier).after recent := by
  induction recent with
  | nil => rfl
  | cons state rest ih => rw [cons_append, after, after, ih]

theorem Accepts.recent {recent earlier : List RaftPersistentState}
    (haccepts : journal.Accepts (recent ++ earlier)) : (journal.after earlier).Accepts recent := by
  induction recent with
  | nil => trivial
  | cons state rest ih =>
    rw [cons_append, Accepts, after_append] at haccepts
    exact ⟨haccepts.1, ih haccepts.2⟩

theorem Accepts.drop {states : List RaftPersistentState} (haccepts : journal.Accepts states)
    (count : Nat) : journal.Accepts (states.drop count) := by
  induction states generalizing count with
  | nil =>
    rw [drop_nil]
    exact haccepts
  | cons state earlier ih =>
    cases count with
    | zero => exact haccepts
    | succ count => exact ih haccepts.2 count

theorem Keeps.load (hkeeps : journal.Keeps state) :
    ∃ loaded, journal.reopened.load = .ok (state, loaded) ∧ loaded.Keeps state := by
  obtain ⟨marks, written, hrepresents, hsmall, rfl⟩ := hkeeps.written
  have hreopened : Logged.Represents { journal := journal.reopened, marks } written :=
    hrepresents.step_reopen
  have hload := hreopened.load hkeeps.limits hsmall
  have hloaded := hreopened.step_load hload
  refine ⟨_, hload, hloaded.holds.limits ?_, marks, written, hloaded, hsmall, rfl⟩
  rcases hloaded.holds.file with hfile | ⟨-, hclosed, -⟩
  · rw [hfile]
    exact header_ne_nil _
  · cases hclosed

/-- A journal that keeps a state is opened with it. -/
theorem Keeps.reopened (hkeeps : journal.Keeps state) :
    journal.reopenedBarrier = journal.opened.barrier state ∧ journal.opened.Keeps state := by
  obtain ⟨loaded, hload, hloaded⟩ := hkeeps.load
  rw [reopenedBarrier, opened, hload]
  exact ⟨rfl, hloaded⟩

end FileRaftPersistence

/-! ## Saves that are accepted -/

namespace RaftJournal

variable {state image : RaftPersistentState}

theorem common_start_append (entries more : List LogEntry) :
    commonPrefix entries (entries ++ more) = entries.length := by
  induction entries with
  | nil =>
    cases more <;> rfl
  | cons first rest ih => rw [cons_append, commonPrefix, if_pos rfl, ih, length_cons]

/-- A later state with the same entries is written as a delta. -/
theorem encode_delta_same (himage : Encodable image) (hentries : image.entries = state.entries)
    (hterm : state.currentTerm ≤ image.currentTerm) (hcommit : state.commitIndex ≤ image.commitIndex) :
    ∃ payload, encodeDelta state image = .ok payload := by
  have hvalid := himage.entries
  have hcount := himage.count
  have hcommon := common_start_append image.entries []
  have hpositive : image.entries.length ≠ 0 := by
    intro hnone
    rw [length_eq_zero_iff.mp hnone] at hvalid
    cases hvalid
  rw [append_nil] at hcommon
  rw [encodeDelta, if_neg (by omega), ← hentries, hvalid]
  simp only [bind, Except.bind, hcommon, himage.commit, Nat.sub_self, drop_length]
  rw [maximumEntryCount] at hcount
  rw [if_neg (by rw [maximumEntryCount]; simp; omega), if_neg (by rw [uint64Max]; omega),
    if_neg (by omega)]
  exact ⟨_, rfl⟩

end RaftJournal

namespace FileRaftPersistence

variable {journal opened next : FileRaftPersistence} {last image : RaftPersistentState}

theorem open_locked_last (hopened : journal.openLocked = .ok opened) :
    opened.lastState = journal.lastState ∧ opened.isOpen = true := by
  rw [openLocked] at hopened
  dsimp only at hopened
  split_ifs at hopened with hopen
  · cases hopened
    exact ⟨rfl, hopen⟩
  all_goals
    cases hopened
    exact ⟨rfl, rfl⟩

/-- A state that can be written is saved. -/
theorem save_accepted (hopened : journal.openLocked = .ok opened)
    (hlast : ∀ previous, journal.lastState = some previous → previous.entries ≠ [] →
      previous = last)
    (hwhole : ∃ payload, encodeState image = .ok payload)
    (hdelta : last.entries ≠ [] → ∃ payload, encodeDelta last image = .ok payload) :
    ∃ next, journal.save image = .ok next := by
  obtain ⟨payload, hwhole⟩ := hwhole
  have hrecord : ∃ record, opened.record image = .ok record := by
    have hfull : ∃ record, fullRecord image = .ok record :=
      ⟨_, Barrier.except_bind_eq_ok.mpr ⟨payload, hwhole, rfl⟩⟩
    rw [record, (open_locked_last hopened).1]
    split
    · exact hfull
    rename_i previous hprevious
    split_ifs with hwrites
    · rw [hlast previous hprevious hwrites.1]
      obtain ⟨changes, hchanges⟩ := hdelta (hlast previous hprevious hwrites.1 ▸ hwrites.1)
      exact ⟨_, Barrier.except_bind_eq_ok.mpr ⟨changes, hchanges, rfl⟩⟩
    · exact hfull
  obtain ⟨record, hrecord⟩ := hrecord
  obtain ⟨-, saved, -, hsave⟩ := save_of_record hopened hrecord hwhole
  exact ⟨saved, hsave⟩

/-- A save leaves the journal open with the state it saved. -/
theorem save_spec (hsave : journal.save image = .ok next) :
    next.lastState = some image ∧ next.openLocked = .ok next ∧
      isValidCommitIndex image.commitIndex image.entries = true := by
  obtain ⟨appended, happend, hsave⟩ := Barrier.except_bind_eq_ok.mp hsave
  obtain ⟨opened, hopened, happend⟩ := Barrier.except_bind_eq_ok.mp happend
  obtain ⟨record, hrecord, happend⟩ := Barrier.except_bind_eq_ok.mp happend
  have hopen := (open_locked_last hopened).2
  have happended : appended.lastState = some image ∧ appended.isOpen = true := by
    cases happend
    exact ⟨rfl, hopen⟩
  have hnext : next.lastState = some image ∧ next.isOpen = true := by
    split at hsave
    · obtain ⟨payload, -, hsave⟩ := Barrier.except_bind_eq_ok.mp hsave
      cases hsave
      exact happended
    · cases hsave
      exact happended
  refine ⟨hnext.1, by rw [openLocked, if_pos hnext.2], ?_⟩
  have hfull : fullRecord image = .ok record →
      isValidCommitIndex image.commitIndex image.entries = true := by
    intro hfull
    obtain ⟨payload, hencode, -⟩ := Barrier.except_bind_eq_ok.mp hfull
    exact (encode_state_eq_ok.mp hencode).1.commit
  rw [FileRaftPersistence.record] at hrecord
  split at hrecord
  · exact hfull hrecord
  split_ifs at hrecord
  · obtain ⟨payload, hencode, -⟩ := Barrier.except_bind_eq_ok.mp hrecord
    rw [encodeDelta] at hencode
    split at hencode
    · cases hencode
    obtain ⟨-, -, hencode⟩ := Barrier.except_bind_eq_ok.mp hencode
    obtain ⟨-, -, hencode⟩ := Barrier.except_bind_eq_ok.mp hencode
    split at hencode
    · cases hencode
    · rename_i hkept
      simpa using (not_or.mp hkept).2
  · exact hfull hrecord

end FileRaftPersistence

namespace RaftNode

variable {node : RaftNode} {journal next : FileRaftPersistence}

/-- The barrier of the node is over a journal, which has accepted what the node has saved since it
was loaded. -/
def Filed (start : FileRaftPersistence) (node : RaftNode) : Prop :=
  ∃ loaded images, node.persistence = some { start.barrier loaded with saved := images ++ [loaded] } ∧
    start.Accepts images

/-- The journal after what the node has saved. -/
def file (start : FileRaftPersistence) (node : RaftNode) : FileRaftPersistence :=
  start.after node.saved.dropLast

variable {start : FileRaftPersistence} {saved : RaftNode}

theorem file_eq {loaded : RaftPersistentState} {images : List RaftPersistentState}
    (hpersistence :
      node.persistence = some { start.barrier loaded with saved := images ++ [loaded] }) :
    node.file start = start.after images := by
  rw [file, RaftNode.saved, hpersistence]
  exact congrArg start.after dropLast_concat

theorem Filed.congr (hfiled : node.Filed start)
    (hpersistence : saved.persistence = node.persistence) : saved.Filed start := by
  rw [Filed, hpersistence]
  exact hfiled

/-- The answer to a save is that of the journal. -/
theorem Filed.persist_eq (hfiled : node.Filed start) :
    persistOrThrow node =
      match (node.file start).save node.persistentState with
      | .ok _ => .ok () node.recorded
      | .error error => .error (errorOr error "Raft persistence barrier failed") node := by
  obtain ⟨loaded, images, hpersistence, -⟩ := hfiled
  rw [persistOrThrow, recorded, file_eq hpersistence, hpersistence]
  simp only [FileRaftPersistence.barrier, dropLast_concat, Option.map_some]
  cases (start.after images).save node.persistentState with
  | error error => rfl
  | ok saved => rfl

theorem Filed.recorded (hfiled : node.Filed start)
    (hsave : (node.file start).save node.persistentState = .ok next) :
    node.recorded.Filed start ∧ node.recorded.file start = next := by
  obtain ⟨loaded, images, hpersistence, haccepts⟩ := hfiled
  rw [file_eq hpersistence] at hsave
  have hrecorded : node.recorded.persistence = some { start.barrier loaded with
      saved := (node.persistentState :: images) ++ [loaded] } := by
    rw [RaftNode.recorded, hpersistence]
    rfl
  refine ⟨⟨loaded, node.persistentState :: images, hrecorded, ⟨next, hsave⟩, haccepts⟩, ?_⟩
  rw [file_eq hrecorded, FileRaftPersistence.after_cons hsave]

/-- What is saved stays behind the journal. -/
theorem Filed.save (hfiled : node.Filed start) (hsave : Save node saved) : saved.Filed start := by
  obtain ⟨persistence, hpersistence, haccepted⟩ := hsave
  obtain ⟨loaded, images, hbarrier, haccepts⟩ := hfiled
  rw [hbarrier, Option.some.injEq] at hpersistence
  subst hpersistence
  refine ⟨loaded, node.persistentState :: images, rfl, ?_, haccepts⟩
  obtain ⟨next, hnext, -⟩ := Barrier.except_map_eq_ok.mp haccepted
  rw [dropLast_concat] at hnext
  exact ⟨next, hnext⟩

end RaftNode

end DistributedKV
