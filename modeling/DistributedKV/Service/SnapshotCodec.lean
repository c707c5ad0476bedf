import DistributedKV.Foundation.Tables
import DistributedKV.Service.ExactlyOnce
import DistributedKV.Service.SnapshotStore

/-!
# Snapshots are invisible

A payload that was written is read back as the same image, and an image of a machine restores the
machine it was taken of, whatever stood in its place. A snapshot at any point of a log, sent
through the file and restored, is therefore not noticed by anything that is applied behind it
(`snapshot_invisible`).
-/

namespace DistributedKV

open Barrier ByteReader List

namespace SnapshotFile

/-! ## Strings -/

variable {snapshot : StateMachineSnapshot} {sessions : List SnapshotSession} {clients : List UInt64}
  {entries : List (Bytes × Bytes)} {keys : List Bytes} {output value written payload : Bytes}
  {maximum : Nat}

theorem append_string_ok (hwritten : appendString output value maximum = .ok written) :
    value.length ≤ maximum ∧ value.length < 2 ^ 32 ∧
      written = output ++ (bigEndian 4 value.length ++ value) := by
  rw [appendString] at hwritten
  dsimp only at hwritten
  split_ifs at hwritten with hlong hsize
  cases hwritten
  refine ⟨by omega, by omega, ?_⟩
  rw [append_assoc]

theorem takes_string (hmaximum : value.length ≤ maximum) (hlength : value.length < 2 ^ 32) :
    Takes (takeString maximum) (bigEndian 4 value.length ++ value) value := by
  refine Takes.room (by simp) ((Takes.word_of_lt (by simpa using hlength)).bind ?_)
  intro rest
  have hroom : ¬ (maximum < value.length ∨ (value ++ rest).length < value.length) := by
    simp only [length_append]
    omega
  rw [remaining_bind, if_neg hroom]
  exact Takes.string value rest

/-! ## Entries and sessions -/

/-- The entries that were appended are read back. -/
theorem append_entries_ok (hwritten : appendEntries entries keys output = .ok written) :
    ∃ body, written = output ++ body ∧ Takes (readEntries entries.length keys) body entries := by
  induction entries generalizing keys output with
  | nil =>
    cases hwritten
    exact ⟨[], (append_nil _).symm, .pure _⟩
  | cons entry rest ih =>
    obtain ⟨key, value⟩ := entry
    rw [appendEntries] at hwritten
    split_ifs at hwritten with hseen
    obtain ⟨first, hkey, hwritten⟩ := except_bind_eq_ok.mp hwritten
    obtain ⟨second, hvalue, hwritten⟩ := except_bind_eq_ok.mp hwritten
    obtain ⟨hkeyMaximum, hkeyLength, rfl⟩ := append_string_ok hkey
    obtain ⟨hvalueMaximum, hvalueLength, rfl⟩ := append_string_ok hvalue
    obtain ⟨body, rfl, hbody⟩ := ih hwritten
    refine ⟨bigEndian 4 key.length ++ key ++
      (bigEndian 4 value.length ++ value ++ body), by simp only [append_assoc], ?_⟩
    refine (takes_string hkeyMaximum hkeyLength).bind
      ((takes_string hvalueMaximum hvalueLength).bind ?_)
    rw [if_neg hseen]
    exact hbody.map (.pure _)

theorem status_of_code_status_code (status : ApplyStatus) :
    statusOfCode (statusCode status).toNat = some status := by
  cases status <;> rfl

/-- The sessions that were appended are read back. -/
theorem append_sessions_ok (hwritten : appendSessions sessions clients output = .ok written) :
    ∃ body, written = output ++ body ∧
      Takes (readSessions sessions.length clients) body sessions ∧
      ∀ session ∈ sessions, session.clientId ≠ 0 ∧ session.requestId ≠ 0 := by
  induction sessions generalizing clients output with
  | nil =>
    cases hwritten
    exact ⟨[], (append_nil _).symm, .pure _, by simp⟩
  | cons session rest ih =>
    rw [appendSessions] at hwritten
    split_ifs at hwritten with hinvalid
    obtain ⟨first, hpayload, hwritten⟩ := except_bind_eq_ok.mp hwritten
    obtain ⟨hmaximum, hlength, rfl⟩ := append_string_ok hpayload
    obtain ⟨body, rfl, hbody, hvalid⟩ := ih hwritten
    refine ⟨bigEndian 8 session.clientId.toNat ++ (bigEndian 8 session.requestId.toNat ++
      ([statusCode session.status] ++
        (bigEndian 4 session.payload.length ++ session.payload ++ body))),
      by simp only [append_assoc], ?_, ?_⟩
    · refine Takes.room (by simp [length_big_endian]; omega) ?_
      refine (Takes.word 8 _).bind ((Takes.word 8 _).bind ((Takes.byte _).bind ?_))
      simp only [uint64_of_nat_mod, status_of_code_status_code]
      rw [if_neg hinvalid]
      exact (takes_string hmaximum hlength).bind (hbody.map (Takes.pure _))
    · intro other hother
      rcases mem_cons.mp hother with rfl | hrest
      · exact ⟨fun h => hinvalid (.inl h), fun h => hinvalid (.inr (.inl h))⟩
      · exact hvalid other hrest

/-! ## Images -/

/-- Index and term of an image fit into 64 bits, as the types of the source have it. -/
def Representable (index term : Nat) : Prop := index < 2 ^ 64 ∧ term < 2 ^ 64

/-- The tests of `encode` that the restored machine relies on. -/
structure Encodable (snapshot : StateMachineSnapshot) : Prop where
  boundary : boundaryConsistent snapshot.lastIncludedIndex snapshot.lastIncludedTerm = true
  sessions : ∀ session ∈ snapshot.sessions, session.clientId ≠ 0 ∧ session.requestId ≠ 0

/-- A payload that was written is read back. -/
theorem decode_encode_snapshot
    (hfits : Representable snapshot.lastIncludedIndex snapshot.lastIncludedTerm)
    (hencode : encode snapshot = .ok payload) :
    decode payload = .ok snapshot ∧ Encodable snapshot := by
  rw [encode] at hencode
  split_ifs at hencode with hinvalid
  simp only [not_or, Bool.not_eq_false, not_lt] at hinvalid
  obtain ⟨hboundary, hentryCount, hsessionCount⟩ := hinvalid
  obtain ⟨output, hentries, hencode⟩ := except_bind_eq_ok.mp hencode
  obtain ⟨body, rfl, hbody⟩ := append_entries_ok hentries
  obtain ⟨table, rfl, htable, hvalid⟩ := append_sessions_ok hencode
  refine ⟨?_, hboundary, hvalid⟩
  have hentryFits : snapshot.entries.length < 256 ^ 4 := by
    simp only [maximumItemCount] at hentryCount
    omega
  have hsessionFits : snapshot.sessions.length < 256 ^ 4 := by
    simp only [maximumItemCount] at hsessionCount
    omega
  -- The session table ends the payload.
  have hsessions : readSessionTable (bigEndian 4 snapshot.sessions.length ++ table) =
      .ok (snapshot.sessions, []) := by
    rw [readSessionTable, remaining_bind, if_neg (by simp),
      bind_ok (Takes.word_of_lt hsessionFits table), if_neg (Nat.not_lt.mpr hsessionCount),
      bind_ok htable.all, remaining_bind, if_neg (by simp)]
    rfl
  have hread : readSnapshot (bigEndian 8 snapshot.lastIncludedIndex ++
      (bigEndian 8 snapshot.lastIncludedTerm ++ (bigEndian 4 snapshot.entries.length ++
        (body ++ (bigEndian 4 snapshot.sessions.length ++ table))))) = .ok (snapshot, []) := by
    rw [readSnapshot, bind_ok (Takes.word_of_lt (by simpa using hfits.1) _),
      bind_ok (Takes.word_of_lt (by simpa using hfits.2) _), if_neg (by simp [hboundary]),
      bind_ok (Takes.word_of_lt hentryFits _), if_neg (Nat.not_lt.mpr hentryCount),
      bind_ok (hbody _), bind_ok hsessions]
    rfl
  have hlong : ¬ (bigEndian 8 snapshot.lastIncludedIndex ++
      (bigEndian 8 snapshot.lastIncludedTerm ++ (bigEndian 4 snapshot.entries.length ++
        (body ++ (bigEndian 4 snapshot.sessions.length ++ table))))).length < 20 := by
    simp only [length_append, length_big_endian]
    omega
  simp only [append_assoc] at hlong hread ⊢
  rw [decode, if_neg hlong, hread]

/-! ## Files -/

theorem append_string_length (hwritten : appendString output value maximum = .ok written) :
    written.length ≤ maximumPayloadSize := by
  rw [appendString] at hwritten
  dsimp only at hwritten
  split_ifs at hwritten with hlong hsize
  cases hwritten
  exact not_lt.mp hsize

theorem append_sessions_length (hwritten : appendSessions sessions clients output = .ok written)
    (hchecked : sessions = [] → output.length ≤ maximumPayloadSize) :
    written.length ≤ maximumPayloadSize := by
  induction sessions generalizing clients output with
  | nil =>
    cases hwritten
    exact hchecked rfl
  | cons session rest ih =>
    rw [appendSessions] at hwritten
    split_ifs at hwritten
    obtain ⟨first, hpayload, hwritten⟩ := except_bind_eq_ok.mp hwritten
    exact ih hwritten fun _ => append_string_length hpayload

theorem encode_length (hsessions : snapshot.sessions = [] → snapshot.entries = [])
    (hencode : encode snapshot = .ok payload) : payload.length ≤ maximumPayloadSize := by
  rw [encode] at hencode
  split_ifs at hencode
  obtain ⟨output, hentries, hencode⟩ := except_bind_eq_ok.mp hencode
  refine append_sessions_length hencode fun hnone => ?_
  rw [hsessions hnone] at hentries
  cases hentries
  simp [maximumPayloadSize]

/-- A file of allowed size is read as its payload. -/
theorem parse_file (texts : RefusalTexts) (hlength : payload.length ≤ maximumPayloadSize) :
    parse texts (file payload) = decode payload := by
  have hsize : (file payload).length = headerSize + payload.length := by
    simp [file, magic, headerSize]
    omega
  have hdrop : (file payload).drop headerSize = payload := by
    rw [file]
    exact drop_left' (by simp [magic, headerSize])
  have hversion : wordAt 8 4 (file payload) = version := by
    have h := word_at_append (show magic.length = 8 from rfl) 4 version
      (bigEndian 4 payload.length ++ (bigEndian 4 (crc32c payload).toNat ++ payload))
    rw [Nat.mod_eq_of_lt (by decide)] at h
    simpa only [file, append_assoc] using h
  have hword : wordAt 12 4 (file payload) = payload.length := by
    have h := word_at_append (show (magic ++ bigEndian 4 version).length = 12 by simp [magic]) 4
      payload.length (bigEndian 4 (crc32c payload).toNat ++ payload)
    rw [maximumPayloadSize] at hlength
    rw [Nat.mod_eq_of_lt (by omega)] at h
    simpa only [file, append_assoc] using h
  have hchecksum : wordAt 16 4 (file payload) = (crc32c payload).toNat := by
    have hlong : (magic ++ bigEndian 4 version ++ bigEndian 4 payload.length).length = 16 := by
      simp [magic]
    have h := word_at_append hlong 4 (crc32c payload).toNat payload
    rw [Nat.mod_eq_of_lt (by simpa using (crc32c payload).toNat_lt)] at h
    simpa only [file, append_assoc] using h
  have hbounds : ¬ ((file payload).length < headerSize ∨
      headerSize + maximumPayloadSize < (file payload).length) := by
    rw [hsize]
    omega
  have hmagic : ¬ ((file payload).take 8 ≠ magic ∨ wordAt 8 4 (file payload) ≠ version) := by
    rw [hversion]
    simp [file, magic]
  rw [parse, if_neg hbounds, if_neg hmagic, hword, hchecksum, hdrop, hsize, Nat.add_sub_cancel_left,
    if_neg (not_not.mpr rfl), if_neg (not_not.mpr rfl)]

theorem parse_texts {texts others : RefusalTexts} {file : Bytes}
    (hparse : parse texts file = .ok snapshot) : parse others file = .ok snapshot := by
  rw [parse] at hparse ⊢
  split_ifs at hparse with hsize hmagic hlength hchecksum
  rw [if_neg hsize, if_neg hmagic, if_neg hlength, if_neg hchecksum]
  exact hparse

end SnapshotFile

theorem FileSnapshotStore.load_save {snapshot : StateMachineSnapshot} {store : FileSnapshotStore}
    (hfits : SnapshotFile.Representable snapshot.lastIncludedIndex snapshot.lastIncludedTerm)
    (hsessions : snapshot.sessions = [] → snapshot.entries = [])
    (hsave : save snapshot = .ok store) :
    store.load = .ok (some snapshot) ∧ SnapshotFile.Encodable snapshot := by
  obtain ⟨payload, hencode, hstore⟩ := except_bind_eq_ok.mp hsave
  cases hstore
  obtain ⟨hdecode, hencodable⟩ := SnapshotFile.decode_encode_snapshot hfits hencode
  refine ⟨?_, hencodable⟩
  rw [load]
  dsimp only
  rw [SnapshotFile.parse_file _ (SnapshotFile.encode_length hsessions hencode), hdecode]
  rfl

/-! ## Restoring -/

theorem KVStore.of_entries_restrict (map : Finmap fun _ : Bytes => Bytes) {keys : List Bytes}
    (hnodup : keys.Nodup) :
    ofEntries (keys.filterMap fun key => (map.lookup key).map fun value => (key, value)) =
      .ok (Tables.restrict map keys) := by
  induction keys with
  | nil => rfl
  | cons key rest ih =>
    obtain ⟨habsent, hrest⟩ := nodup_cons.mp hnodup
    cases hlookup : map.lookup key with
    | none => simp only [filterMap_cons, hlookup, Option.map_none, Tables.restrict, ih hrest]
    | some value =>
      simp only [filterMap_cons, hlookup, Option.map_some, Tables.restrict]
      refine except_bind_eq_ok.mpr ⟨_, ih hrest, ?_⟩
      exact if_neg (Tables.not_mem_restrict habsent)

theorem KVStore.replace_all_snapshot_entries (store : KVStore) :
    replaceAll store.snapshotEntries = .ok store := by
  have hentries := of_entries_restrict store.entries (store.entries.keys.sort_nodup (· ≤ ·))
  rw [Tables.restrict_sort] at hentries
  exact except_bind_eq_ok.mpr ⟨_, hentries, rfl⟩

namespace StateMachine

/-- The row of a client in the session table of an image. -/
def sessionRow (clientId : UInt64) (response : CachedResponse) : SnapshotSession :=
  { clientId, requestId := response.requestId, status := response.status
    payload := response.payload }

/-- The rows of a table make it again. -/
theorem restore_sessions_restrict (map : Finmap fun _ : UInt64 => CachedResponse)
    {keys : List UInt64} (hnodup : keys.Nodup)
    (hvalid : ∀ session ∈ keys.filterMap fun key => (map.lookup key).map (sessionRow key),
      session.clientId ≠ 0 ∧ session.requestId ≠ 0) :
    restoreSessions (keys.filterMap fun key => (map.lookup key).map (sessionRow key)) =
      .ok (Tables.restrict map keys) := by
  induction keys with
  | nil => rfl
  | cons key rest ih =>
    obtain ⟨habsent, hrest⟩ := nodup_cons.mp hnodup
    cases hlookup : map.lookup key with
    | none =>
      simp only [filterMap_cons, hlookup, Option.map_none] at hvalid ⊢
      simp only [Tables.restrict, hlookup, ih hrest hvalid]
    | some response =>
      simp only [filterMap_cons, hlookup, Option.map_some, mem_cons,
        forall_eq_or_imp] at hvalid ⊢
      obtain ⟨⟨hclient, hrequest⟩, hothers⟩ := hvalid
      simp only [Tables.restrict, hlookup]
      refine except_bind_eq_ok.mpr ⟨_, ih hrest hothers, ?_⟩
      exact if_neg (by
        rintro (h | h | h)
        · exact hclient h
        · exact hrequest h
        · exact Tables.not_mem_restrict habsent h)

theorem restore_snapshot {machine : StateMachine} {term : Nat}
    (hencodable : SnapshotFile.Encodable (machine.snapshot term)) :
    restore (machine.snapshot term) = .ok machine := by
  have hboundary : decide ((machine.snapshot term).lastIncludedIndex = 0) =
      decide ((machine.snapshot term).lastIncludedTerm = 0) := by
    simpa [SnapshotFile.boundaryConsistent] using hencodable.boundary
  have hsessions := restore_sessions_restrict machine.sessions
    (machine.sessions.keys.sort_nodup (· ≤ ·)) hencodable.sessions
  rw [Tables.restrict_sort] at hsessions
  rw [restore, if_neg (not_not.mpr hboundary)]
  refine except_bind_eq_ok.mpr ⟨machine.sessions, hsessions, ?_⟩
  exact except_bind_eq_ok.mpr ⟨machine.store, machine.store.replace_all_snapshot_entries, rfl⟩

/-! ## A cut in a log -/

/-- The term of the last entry; the empty list has term zero. -/
def lastTerm (entries : List LogEntry) : Nat := (entries.getLast?.map LogEntry.term).getD 0

/-- Every command that is applied leaves a session. -/
theorem apply_command_sessions (machine : StateMachine) (index : Nat) (command : KVCommand) :
    (machine.applyCommand index command).1.sessions ≠ ∅ := by
  intro hempty
  have hmember : command.clientId ∈ (machine.applyCommand index command).1.sessions := by
    simp only [applyCommand]
    split
    · exact Finmap.mem_insert.mpr (.inl rfl)
    · rename_i existing hexisting
      by_cases hold : command.requestId ≤ existing.requestId
      · rw [if_pos hold]
        exact Finmap.mem_iff.mpr ⟨existing, hexisting⟩
      · rw [if_neg hold]
        exact Finmap.mem_insert.mpr (.inl rfl)
  rw [hempty] at hmember
  exact Finmap.notMem_empty hmember

theorem replay_sessions {entries : List LogEntry} {machine : StateMachine}
    (hreplay : replay entries = .ok machine) (hempty : machine.sessions = ∅) :
    machine.store = {} := by
  induction entries using reverseRecOn generalizing machine with
  | nil =>
    cases hreplay
    rfl
  | append_singleton entries entry ih =>
    rw [replay, foldlM_append, except_bind_eq_ok] at hreplay
    obtain ⟨before, hbefore, happly⟩ := hreplay
    simp only [foldlM_cons, foldlM_nil, except_bind_eq_ok, except_map_eq_ok] at happly
    obtain ⟨-, ⟨⟨next, result⟩, happly, rfl⟩, ⟨⟩⟩ := happly
    obtain ⟨-, ⟨-, rfl, -⟩ | ⟨command, -, rfl, -⟩⟩ := apply_cases happly
    · have hstore : before.store = {} := ih hbefore hempty
      exact hstore
    · exact absurd hempty (apply_command_sessions _ _ _)

theorem replay_snapshot_sessions {entries : List LogEntry} {machine : StateMachine} {term : Nat}
    (hreplay : replay entries = .ok machine) (hnone : (machine.snapshot term).sessions = []) :
    (machine.snapshot term).entries = [] := by
  have hempty : machine.sessions = ∅ := by
    have hrestored := restore_sessions_restrict machine.sessions
      (machine.sessions.keys.sort_nodup (· ≤ ·)) (by
        show ∀ session ∈ (machine.snapshot term).sessions, _
        rw [hnone]
        simp)
    rw [Tables.restrict_sort] at hrestored
    rw [show ((machine.sessions.keys.sort (· ≤ ·)).filterMap fun key =>
      (machine.sessions.lookup key).map (sessionRow key)) = [] from hnone] at hrestored
    exact (Except.ok.inj hrestored).symm
  show machine.store.snapshotEntries = []
  rw [replay_sessions hreplay hempty]
  simp [KVStore.snapshotEntries]

/-- The boundary of an image is representable. -/
theorem representable_snapshot {before : List LogEntry} {middle : StateMachine}
    {earlier : List (Option ApplyResult)}
    (hfits : ∀ entry ∈ before, SnapshotFile.Representable entry.index entry.term)
    (hbefore : applyAll {} before = .ok (middle, earlier)) :
    SnapshotFile.Representable middle.lastApplied (lastTerm before) := by
  induction before using reverseRecOn with
  | nil =>
    cases hbefore
    exact ⟨by decide, by decide⟩
  | append_singleton start last =>
    obtain ⟨reached, first, later, -, hlast, -⟩ := apply_all_append.mp hbefore
    obtain ⟨next, result, rest, hentry, hnothing, -⟩ := apply_all_cons.mp hlast
    cases hnothing
    obtain ⟨hindex, htermFits⟩ := hfits last (by simp)
    rw [(apply_cases hentry).1, ← apply_last_applied hentry] at hindex
    refine ⟨hindex, ?_⟩
    simpa [lastTerm] using htermFits

/-- Apply the start of a log, take an image with the term of its last entry, write it, read it
back and restore it into any machine: applying the rest then ends in the same machine, with the
same answers, as applying the whole log. -/
theorem snapshot_invisible {before after : List LogEntry} {middle final : StateMachine}
    {earlier results : List (Option ApplyResult)}
    (hfits : ∀ entry ∈ before, SnapshotFile.Representable entry.index entry.term)
    (hbefore : applyAll {} before = .ok (middle, earlier))
    (hrun : applyAll {} (before ++ after) = .ok (final, results)) {payload : Bytes}
    (hencode : SnapshotFile.encode (middle.snapshot (lastTerm before)) = .ok payload)
    (other : StateMachine) :
    ∃ image, SnapshotFile.decode payload = .ok image ∧
      ∃ restored, other.restoreInto image = (restored, .ok ()) ∧
        restored.applyAll after = .ok (final, results.drop before.length) := by
  obtain ⟨reached, first, later, hfirst, hafter, rfl⟩ := apply_all_append.mp hrun
  cases hbefore.symm.trans hfirst
  obtain ⟨hlength, -⟩ := apply_all_length hbefore
  obtain ⟨hdecode, hencodable⟩ := SnapshotFile.decode_encode_snapshot
    (representable_snapshot hfits hbefore) hencode
  refine ⟨_, hdecode, middle, ?_, ?_⟩
  · rw [restoreInto, restore_snapshot hencodable]
  · rw [drop_left' hlength, hafter]

end StateMachine

/-- The image behind one command, restored over another store: the copy of the command is still
answered as a duplicate. -/
theorem snapshot_invisible_set_key :
    ∃ payload image restored final answer,
      SnapshotFile.decode payload = .ok image ∧
      StateMachine.restoreInto { store := { entries := Finmap.singleton [1] [2] } } image =
        (restored, .ok ()) ∧
      restored.applyAll [setKeyEntry 2] = .ok (final, [some answer]) ∧
      answer.duplicate = true := by
  have haccepted : ∃ middle earlier final results,
      StateMachine.applyAll {} [setKeyEntry 1] = .ok (middle, earlier) ∧
      StateMachine.applyAll {} ([setKeyEntry 1] ++ [setKeyEntry 2]) = .ok (final, results) ∧
      (SnapshotFile.encode (middle.snapshot 1)).isOk = true ∧
      ∃ answer, results.drop 1 = [some answer] ∧ answer.duplicate = true :=
    ⟨_, _, _, _, rfl, rfl, by decide +kernel, _, rfl, rfl⟩
  obtain ⟨middle, earlier, final, results, hbefore, hrun, hencodes, answer, hanswer, hduplicate⟩ :=
    haccepted
  cases hencode : SnapshotFile.encode (middle.snapshot 1) with
  | error error =>
    rw [hencode] at hencodes
    cases hencodes
  | ok payload =>
    have hfits : ∀ entry ∈ [setKeyEntry 1],
        SnapshotFile.Representable entry.index entry.term := by
      simp [setKeyEntry, SnapshotFile.Representable]
    obtain ⟨image, hdecode, restored, hrestored, hafter⟩ :=
      StateMachine.snapshot_invisible hfits hbefore hrun hencode
        { store := { entries := Finmap.singleton [1] [2] } }
    rw [length_singleton, hanswer] at hafter
    exact ⟨payload, image, restored, final, answer, hdecode, hrestored, hafter, hduplicate⟩

/-! ## What a payload that was accepted restores to -/

namespace SnapshotFile

/-- The keys of accepted entries are distinct and new. -/
theorem read_entries_keys {count : Nat} {keys : List Bytes} {input rest : Bytes}
    {entries : List (Bytes × Bytes)}
    (hread : readEntries count keys input = .ok (entries, rest)) :
    (entries.map Prod.fst).Nodup ∧ ∀ key ∈ entries.map Prod.fst, key ∉ keys := by
  induction count generalizing keys input entries with
  | zero =>
    cases hread
    simp
  | succ count ih =>
    obtain ⟨key, afterKey, -, hread⟩ := bind_eq_ok.mp hread
    obtain ⟨value, afterValue, -, hread⟩ := bind_eq_ok.mp hread
    split_ifs at hread with hseen
    obtain ⟨others, afterOthers, hothers, hread⟩ := bind_eq_ok.mp hread
    cases hread
    obtain ⟨hnodup, hnew⟩ := ih hothers
    refine ⟨nodup_cons.mpr ⟨fun hmem => hnew key hmem mem_cons_self, hnodup⟩, ?_⟩
    intro other hother
    rcases mem_cons.mp hother with rfl | hrest
    · exact hseen
    · exact fun hmem => hnew other hrest (mem_cons_of_mem _ hmem)

/-- The clients of accepted sessions are distinct. -/
theorem read_sessions_clients {count : Nat} {clients : List UInt64} {input rest : Bytes}
    {sessions : List SnapshotSession}
    (hread : readSessions count clients input = .ok (sessions, rest)) :
    (sessions.map SnapshotSession.clientId).Nodup ∧
      (∀ client ∈ sessions.map SnapshotSession.clientId, client ∉ clients) ∧
      ∀ session ∈ sessions, session.clientId ≠ 0 ∧ session.requestId ≠ 0 := by
  induction count generalizing clients input sessions with
  | zero =>
    cases hread
    simp
  | succ count ih =>
    rw [readSessions, remaining_bind] at hread
    split_ifs at hread
    obtain ⟨clientWord, afterClient, -, hread⟩ := bind_eq_ok.mp hread
    obtain ⟨requestWord, afterRequest, -, hread⟩ := bind_eq_ok.mp hread
    obtain ⟨code, afterCode, -, hread⟩ := bind_eq_ok.mp hread
    cases hstatus : statusOfCode code with
    | none =>
      rw [hstatus] at hread
      cases hread
    | some status =>
      rw [hstatus] at hread
      dsimp only at hread
      split_ifs at hread with hinvalid
      simp only [not_or] at hinvalid
      obtain ⟨hclient, hrequest, hseen⟩ := hinvalid
      obtain ⟨payload, afterPayload, -, hread⟩ := bind_eq_ok.mp hread
      obtain ⟨others, afterOthers, hothers, hread⟩ := bind_eq_ok.mp hread
      cases hread
      obtain ⟨hnodup, hnew, hvalid⟩ := ih hothers
      refine ⟨nodup_cons.mpr ⟨fun hmem => hnew _ hmem mem_cons_self, hnodup⟩,
        ?_, ?_⟩
      · intro other hother
        rcases mem_cons.mp hother with rfl | hrest
        · exact hseen
        · exact fun hmem => hnew other hrest (mem_cons_of_mem _ hmem)
      · intro session hsession
        rcases mem_cons.mp hsession with rfl | hrest
        · exact ⟨hclient, hrequest⟩
        · exact hvalid session hrest

end SnapshotFile

theorem KVStore.of_entries_ok {entries : List (Bytes × Bytes)}
    (hnodup : (entries.map Prod.fst).Nodup) :
    ∃ map, ofEntries entries = .ok map ∧ ∀ key, key ∈ map → key ∈ entries.map Prod.fst := by
  induction entries with
  | nil => exact ⟨∅, rfl, fun _ hmem => absurd hmem Finmap.notMem_empty⟩
  | cons entry rest ih =>
    obtain ⟨key, value⟩ := entry
    obtain ⟨habsent, hrest⟩ := nodup_cons.mp hnodup
    obtain ⟨map, hmap, hkeys⟩ := ih hrest
    refine ⟨map.insert key value, except_bind_eq_ok.mpr ⟨map, hmap, ?_⟩, fun other hother => ?_⟩
    · exact if_neg fun hmem => habsent (hkeys key hmem)
    · rcases Finmap.mem_insert.mp hother with rfl | hmem
      · exact mem_cons_self
      · exact mem_cons_of_mem _ (hkeys other hmem)

namespace StateMachine

/-- Valid sessions of distinct clients make a table. -/
theorem restore_sessions_ok {sessions : List SnapshotSession}
    (hnodup : (sessions.map SnapshotSession.clientId).Nodup)
    (hvalid : ∀ session ∈ sessions, session.clientId ≠ 0 ∧ session.requestId ≠ 0) :
    ∃ map, restoreSessions sessions = .ok map ∧
      ∀ client, client ∈ map → client ∈ sessions.map SnapshotSession.clientId := by
  induction sessions with
  | nil => exact ⟨∅, rfl, fun _ hmem => absurd hmem Finmap.notMem_empty⟩
  | cons session rest ih =>
    obtain ⟨habsent, hrest⟩ := nodup_cons.mp hnodup
    obtain ⟨hclient, hrequest⟩ := hvalid session mem_cons_self
    obtain ⟨map, hmap, hclients⟩ :=
      ih hrest fun other hother => hvalid other (mem_cons_of_mem _ hother)
    refine ⟨_, except_bind_eq_ok.mpr ⟨map, hmap, if_neg ?_⟩, fun other hother => ?_⟩
    · rintro (h | h | h)
      · exact hclient h
      · exact hrequest h
      · exact habsent (hclients _ h)
    · rcases Finmap.mem_insert.mp hother with rfl | hmem
      · exact mem_cons_self
      · exact mem_cons_of_mem _ (hclients other hmem)

/-- Every decoded image can be restored. -/
theorem restore_decoded {payload : Bytes} {snapshot : StateMachineSnapshot}
    (hdecode : SnapshotFile.decode payload = .ok snapshot) :
    SnapshotFile.boundaryConsistent snapshot.lastIncludedIndex snapshot.lastIncludedTerm = true ∧
      ∃ machine, restore snapshot = .ok machine ∧
        machine.lastApplied = snapshot.lastIncludedIndex := by
  rw [SnapshotFile.decode] at hdecode
  split_ifs at hdecode
  split at hdecode
  · cases hdecode
  rename_i decoded rest hread
  cases hdecode
  obtain ⟨index, afterIndex, -, hread⟩ := bind_eq_ok.mp hread
  obtain ⟨term, afterTerm, -, hread⟩ := bind_eq_ok.mp hread
  split_ifs at hread with hboundary
  obtain ⟨count, afterCount, -, hread⟩ := bind_eq_ok.mp hread
  split_ifs at hread
  obtain ⟨entries, afterEntries, hentries, hread⟩ := bind_eq_ok.mp hread
  obtain ⟨sessions, afterSessions, hsessions, hread⟩ := bind_eq_ok.mp hread
  cases hread
  rw [SnapshotFile.readSessionTable, remaining_bind] at hsessions
  split_ifs at hsessions
  obtain ⟨sessionCount, afterSessionCount, -, hsessions⟩ := bind_eq_ok.mp hsessions
  split_ifs at hsessions
  obtain ⟨table, afterTable, htable, hsessions⟩ := bind_eq_ok.mp hsessions
  rw [remaining_bind] at hsessions
  split_ifs at hsessions
  cases hsessions
  obtain ⟨hclients, -, hvalid⟩ := SnapshotFile.read_sessions_clients htable
  obtain ⟨hkeys, -⟩ := SnapshotFile.read_entries_keys hentries
  obtain ⟨restored, hrestored, -⟩ := restore_sessions_ok hclients hvalid
  obtain ⟨store, hstore, -⟩ := KVStore.of_entries_ok hkeys
  have hconsistent : SnapshotFile.boundaryConsistent index term = true := by simpa using hboundary
  refine ⟨hconsistent, { store := { entries := store }, lastApplied := index
                         sessions := restored }, ?_, rfl⟩
  have hsame : decide (index = 0) = decide (term = 0) := by
    simpa [SnapshotFile.boundaryConsistent] using hconsistent
  rw [restore, if_neg (not_not.mpr hsame)]
  refine except_bind_eq_ok.mpr ⟨restored, hrestored, ?_⟩
  exact except_bind_eq_ok.mpr ⟨{ entries := store },
    except_bind_eq_ok.mpr ⟨store, hstore, rfl⟩, rfl⟩

end StateMachine

end DistributedKV
