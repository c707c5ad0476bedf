import DistributedKV.Server.Standalone
import Mathlib.Data.List.Forall2

/-!
# Crashes of the standalone server

While it runs, the log of a standalone server holds the records of exactly the writes its store has
executed (`Represents`). A crash leaves the whole records before the cut, and the server that starts
on them represents their writes. Over many lives these are all acknowledged writes, and of the
writes that were in progress at a crash some.
-/

namespace DistributedKV

open Wal List

/-! ## Histories -/

/-- The writes of all lives, the earliest first: in each life those that were acknowledged, and
then at most one more. -/
def allWrites : List (List StoreWrite) → List (Option StoreWrite) → List StoreWrite
  | acknowledged :: earlier, extra :: extras =>
    allWrites earlier extras ++ acknowledged ++ extra.toList
  | _, _ => []

/-- The writes up to the last acknowledged one. -/
def settledWrites : List (List StoreWrite) → List (Option StoreWrite) → List StoreWrite
  | acknowledged :: earlier, _ :: extras =>
    if acknowledged = [] then settledWrites earlier extras
    else allWrites earlier extras ++ acknowledged
  | _, _ => []

/-- What is left of an extra write. -/
def LeftOf (left extra : Option StoreWrite) : Prop := left = none ∨ left = extra

/-- A start of a history is one with fewer extra writes. -/
theorem history_of_start {acknowledged : List (List StoreWrite)}
    {extras : List (Option StoreWrite)} {kept : List StoreWrite}
    (hlength : acknowledged.length = extras.length)
    (hkept : kept <+: allWrites acknowledged extras)
    (hsettled : settledWrites acknowledged extras <+: kept) :
    ∃ left, List.Forall₂ LeftOf left extras ∧ allWrites acknowledged left = kept ∧
      settledWrites acknowledged left = settledWrites acknowledged extras := by
  induction acknowledged generalizing extras kept with
  | nil =>
    cases extras with
    | nil => exact ⟨[], .nil, (prefix_nil.mp hkept).symm, rfl⟩
    | cons extra extras => cases hlength
  | cons writes earlier ih =>
    cases extras with
    | nil => cases hlength
    | cons extra extras =>
      rw [length_cons, length_cons, Nat.add_right_cancel_iff] at hlength
      rw [allWrites] at hkept
      have hsame : List.Forall₂ LeftOf extras extras :=
        forall₂_same.mpr fun _ _ => .inr rfl
      -- The cut is behind the acknowledged writes of the latest life, or before them.
      rcases prefix_or_prefix_of_prefix hkept (prefix_append _ _) with hbefore | hbehind
      · by_cases hwrites : writes = []
        · subst hwrites
          rw [append_nil] at hbefore
          rw [settledWrites, if_pos rfl] at hsettled
          obtain ⟨left, hleft, hall, hsame⟩ := ih hlength hbefore hsettled
          refine ⟨none :: left, .cons (.inl rfl) hleft, ?_, ?_⟩
          · rw [allWrites, hall]
            simp
          · rw [settledWrites, settledWrites, if_pos rfl, if_pos rfl, hsame]
        · rw [settledWrites, if_neg hwrites] at hsettled
          refine ⟨none :: extras, .cons (.inl rfl) hsame, ?_, ?_⟩
          · rw [allWrites, Option.toList_none, append_nil]
            exact hsettled.eq_of_length_le hbefore.length_le
          · rw [settledWrites, settledWrites, if_neg hwrites]
      · obtain ⟨more, rfl⟩ := hbehind
        rw [prefix_append_right_inj] at hkept
        have hmore : more = [] ∨ more = extra.toList := by
          cases extra with
          | none => exact .inl (prefix_nil.mp hkept)
          | some write =>
            rw [Option.toList_some] at hkept ⊢
            rcases prefix_cons_iff.mp hkept with hnone | ⟨rest, rfl, hrest⟩
            · exact .inl hnone
            · exact .inr (by rw [prefix_nil.mp hrest])
        rcases hmore with rfl | rfl
        · refine ⟨none :: extras, .cons (.inl rfl) hsame, ?_, ?_⟩
          · rw [allWrites, Option.toList_none]
          · rw [settledWrites, settledWrites]
        · exact ⟨extra :: extras, .cons (.inr rfl) hsame, by rw [allWrites], rfl⟩

/-! ## A running server -/

/-- A log that has been recovered and holds the records of some writes. -/
def logOf (path : String) (writes : List StoreWrite) : Wal :=
  { path, file := fileHeader ++ writesBytes 1 writes, isOpen := true
    nextSequence := writes.length + 1, recovered := true }

/-- A server whose log holds the records of the writes its store has executed. -/
structure Represents (path : String) (server : Server) (writes : List StoreWrite) : Prop where
  server : server = { store := some (storeAfter writes), wal := some (logOf path writes) }
  fits : ∀ write ∈ writes, write.Fits
  room : writes.length < uint64Max

variable {path : String} {server : Server} {writes : List StoreWrite}

/-- A write within the limits is appended. -/
theorem append_locked_cases (path : String) (hroom : writes.length < uint64Max)
    (write : StoreWrite) :
    (∃ error, (logOf path writes).appendLocked write.operation write.key write.value =
        (.error error, logOf path writes)) ∨
      (write.Fits ∧ (writes ++ [write]).length < uint64Max ∧
        (logOf path writes).appendLocked write.operation write.key write.value =
          (.ok (), logOf path (writes ++ [write]))) := by
  rw [appendLocked, if_neg (by simp [logOf])]
  split_ifs with hlimits hlast
  · exact .inl ⟨_, rfl⟩
  · exact .inl ⟨_, rfl⟩
  · rw [not_or, not_or, not_and, not_not] at hlimits
    refine .inr ⟨⟨by omega, by omega, hlimits.2.2⟩, ?_, ?_⟩
    · have hnext : writes.length + 1 ≠ uint64Max := hlast
      rw [length_append, length_singleton]
      omega
    · rw [logOf, logOf, writes_bytes_append, length_append, length_singleton,
        ← append_assoc, Nat.add_comm 1 writes.length]
      simp [writesBytes, numbered, StoreWrite.record]

theorem store_after_concat (writes : List StoreWrite) (write : StoreWrite) :
    storeAfter (writes ++ [write]) = StoreWrite.apply (storeAfter writes) write := by
  rw [storeAfter, foldl_append]
  rfl

/-- A request is an executed write, or changes nothing. -/
theorem Represents.dispatch (h : Represents path server writes) (request : Request) :
    ((server.dispatch request).2 = server ∧ (writeOf request = none ∨
        ¬ ((server.dispatch request).1.status = .ok ∨
          (server.dispatch request).1.status = .notFound))) ∨
      ∃ write, writeOf request = some write ∧
        ((server.dispatch request).1.status = .ok ∨
          (server.dispatch request).1.status = .notFound) ∧
        Represents path (server.dispatch request).2 (writes ++ [write]) := by
  obtain ⟨rfl, hfits, hroom⟩ := h
  have hmore : ∀ write : StoreWrite, write.Fits →
      ∀ other ∈ writes ++ [write], other.Fits := by
    intro write hwrite other hother
    rcases mem_append.mp hother with hold | hnew
    · exact hfits other hold
    · rw [mem_singleton.mp hnew]
      exact hwrite
  cases htype : request.type with
  | setRequest =>
    have hwriteOf : writeOf request =
        some { operation := .set, key := request.key, value := request.value } := by
      rw [writeOf, htype]
    rcases append_locked_cases path hroom
        { operation := .set, key := request.key, value := request.value } with
      ⟨error, herror⟩ | ⟨hwrite, hleft, happend⟩
    · simp only [Server.dispatch, htype, Server.persist, appendSet, herror]
      simp
    · simp only [Server.dispatch, htype, Server.persist, appendSet, happend]
      refine .inr ⟨_, hwriteOf, .inl trivial, ?_, hmore _ hwrite, hleft⟩
      rw [store_after_concat]
      rfl
  | deleteRequest =>
    have hwriteOf : writeOf request =
        some { operation := .remove, key := request.key, value := [] } := by
      rw [writeOf, htype]
    rcases append_locked_cases path hroom
        { operation := .remove, key := request.key, value := [] } with
      ⟨error, herror⟩ | ⟨hwrite, hleft, happend⟩
    · simp only [Server.dispatch, htype, Server.persist, appendRemove, herror]
      simp
    · simp only [Server.dispatch, htype, Server.persist, appendRemove, happend]
      refine .inr ⟨_, hwriteOf, ?_, ?_, hmore _ hwrite, hleft⟩
      · split_ifs
        · exact .inl rfl
        · exact .inr rfl
      · rw [store_after_concat]
        rfl
  | getRequest =>
    refine .inl ⟨?_, .inl (by rw [writeOf, htype])⟩
    simp only [Server.dispatch, htype]
    split <;> rfl
  | _ =>
    refine .inl ⟨?_, .inl (by rw [writeOf, htype])⟩
    simp only [Server.dispatch, htype]

/-! ## A life -/

/-- A server that answers requests represents the writes from before and those it has
acknowledged, and the last acknowledged record ends where they end. -/
structure Serves (path : String) (before : List StoreWrite) (settled : Nat) (serving : Serving) :
    Prop where
  represents : Represents path serving.server (before ++ serving.acknowledged)
  acknowledgedEnd : serving.acknowledgedEnd =
    if serving.acknowledged = [] then settled else serving.server.file.length

variable {before : List StoreWrite} {settled : Nat} {serving : Serving}

/-- Answering a request keeps this. -/
theorem Serves.handle (h : Serves path before settled serving) (request : Request) :
    Serves path before settled (serving.handle request) := by
  rw [Serving.handle]
  rcases h.represents.dispatch request with ⟨hsame, hrefused⟩ | ⟨write, hwrite, haccepted, hnext⟩
  · have hunchanged : Serves path before settled
        { serving with server := (serving.server.dispatch request).2 } := by
      rw [hsame]
      exact h
    rcases hrefused with hnone | hrefused
    · rw [hnone]
      exact hunchanged
    · cases writeOf request with
      | none => exact hunchanged
      | some write =>
        dsimp only
        rw [if_neg hrefused]
        exact hunchanged
  · rw [hwrite]
    dsimp only
    rw [if_pos haccepted]
    refine ⟨by rwa [← append_assoc], ?_⟩
    rw [if_neg (by simp)]

theorem Serves.handle_all (h : Serves path before settled serving) (requests : List Request) :
    Serves path before settled (requests.foldl Serving.handle serving) := by
  induction requests generalizing serving with
  | nil => exact h
  | cons request rest ih => exact ih (h.handle request)

theorem Represents.file_eq (h : Represents path server writes) :
    server.file = fileHeader ++ writesBytes 1 writes := by
  rw [h.server]
  rfl

/-- A crash leaves the acknowledged writes and maybe one more. -/
theorem Serves.crash (h : Serves path before settled serving) (life : ServerLife) :
    ∃ extra, LeftOf extra (life.inProgress.bind writeOf) ∧
      (∃ server, Represents path server
        (before ++ serving.acknowledged ++ extra.toList)) ∧
      serving.crash life =
        (fileHeader ++ writesBytes 1 (before ++ serving.acknowledged ++ extra.toList)).take
          life.cut := by
  have hsame : Represents path serving.server
      (before ++ serving.acknowledged ++ (none : Option StoreWrite).toList) := by
    simpa using h.represents
  rw [Serving.crash]
  cases life.inProgress with
  | none => exact ⟨none, .inl rfl, ⟨_, hsame⟩, by rw [hsame.file_eq]⟩
  | some request =>
    dsimp only
    rcases h.represents.dispatch request with ⟨hunchanged, -⟩ | ⟨write, hwrite, -, hnext⟩
    · exact ⟨none, .inl rfl, ⟨_, hsame⟩, by rw [hunchanged, hsame.file_eq]⟩
    · exact ⟨some write, .inr hwrite.symm, ⟨_, hnext⟩, by rw [hnext.file_eq]; rfl⟩

theorem open_file_header (hpath : path ≠ "") (bytes : Bytes) :
    Wal.openFile { path, file := fileHeader ++ bytes } =
      (.ok (), { path, file := fileHeader ++ bytes, isOpen := true }) := by
  have hnonempty : fileHeader ++ bytes ≠ [] := cons_ne_nil _ _
  have hlong : ¬ (fileHeader ++ bytes).length < fileHeaderSize := by
    rw [length_append, show fileHeader.length = fileHeaderSize from rfl]
    omega
  have hvalid : ¬ ((fileHeader ++ bytes).take 8 ≠ fileMagic ∨
      ByteReader.wordAt 8 4 (fileHeader ++ bytes) ≠ fileVersion ∨
      ByteReader.wordAt 12 4 (fileHeader ++ bytes) ≠ fileHeaderSize) := by
    rintro (h | h | h) <;> exact h rfl
  rw [openFile, if_neg (by simp), if_neg hpath]
  dsimp only
  rw [if_neg hnonempty, if_neg hlong, if_neg hvalid]

theorem take_writes_bytes (count : Nat) (writes : List StoreWrite) :
    ∃ rest, (writesBytes 1 writes).take count = writesBytes 1 (whole count writes) ++ rest := by
  obtain ⟨others, hothers⟩ := whole_starts count writes
  have hlength : (writesBytes 1 (whole count writes)).length ≤ count := by
    rw [length_writes_bytes]
    exact sum_whole_le count writes
  have hbytes : writesBytes 1 writes = writesBytes 1 (whole count writes) ++
      writesBytes (1 + (whole count writes).length) others := by
    rw [← writes_bytes_append, hothers]
  rw [hbytes, take_append, take_of_length_le hlength]
  exact ⟨_, rfl⟩

/-- Recovery of a cut log leaves the whole records. -/
theorem recover_of_cut (path : String) (hfits : ∀ write ∈ writes, write.Fits)
    (hroom : writes.length < uint64Max) (count : Nat) :
    Wal.recover { path, file := fileHeader ++ (writesBytes 1 writes).take count, isOpen := true } =
      (.ok (numbered 1 (whole count writes)), logOf path (whole count writes)) := by
  have hfew : (whole count writes).length ≤ writes.length :=
    (whole_starts count writes).length_le
  have hloop : recoverLoop (fileHeader ++ (writesBytes 1 writes).take count).length
      ((writesBytes 1 writes).take count) {} =
        .ok (({} : Recovery).after (whole count writes)) := by
    refine recover_loop_take {} count hfits ?_ ?_
    · show 0 + writes.length < 2 ^ 64
      simp only [uint64Max] at hroom
      omega
    · show ((writesBytes 1 writes).take count).length ≤ _
      rw [length_append]
      omega
  have hdrop : (fileHeader ++ (writesBytes 1 writes).take count).drop fileHeaderSize =
      (writesBytes 1 writes).take count := drop_left' rfl
  have hfile : (fileHeader ++ (writesBytes 1 writes).take count).take
      (({} : Recovery).after (whole count writes)).offset =
        fileHeader ++ writesBytes 1 (whole count writes) := by
    obtain ⟨rest, hrest⟩ := take_writes_bytes count writes
    have hoffset : (({} : Recovery).after (whole count writes)).offset =
        (fileHeader ++ writesBytes 1 (whole count writes)).length := by
      rw [length_append, length_writes_bytes]
      rfl
    rw [hrest, ← append_assoc, hoffset, take_left]
  rw [recover, if_neg (by simp)]
  dsimp only
  rw [hdrop, hloop]
  dsimp only
  rw [hfile, if_neg (by show 0 + (whole count writes).length ≠ uint64Max; omega)]
  simp [Recovery.after, logOf]

/-- A server starts on a cut file with the whole records. -/
theorem start_of_cut (hpath : path ≠ "") (hfits : ∀ write ∈ writes, write.Fits)
    (hroom : writes.length < uint64Max) {cut : Nat} (hcut : fileHeaderSize ≤ cut) :
    ∃ server, Server.start path ((fileHeader ++ writesBytes 1 writes).take cut) =
        .ok (numbered 1 (whole (cut - fileHeaderSize) writes), server) ∧
      Represents path server (whole (cut - fileHeaderSize) writes) := by
  have htake : (fileHeader ++ writesBytes 1 writes).take cut =
      fileHeader ++ (writesBytes 1 writes).take (cut - fileHeaderSize) := by
    rw [take_append, take_of_length_le hcut]
    rfl
  have hstarts := whole_starts (cut - fileHeaderSize) writes
  refine ⟨{ store := some (storeAfter (whole (cut - fileHeaderSize) writes))
            wal := some (logOf path (whole (cut - fileHeaderSize) writes)) }, ?_, rfl,
    fun write hwrite => hfits write (hstarts.subset hwrite), hstarts.length_le.trans_lt hroom⟩
  rw [htake, Server.start]
  rw [open_file_header hpath, recover_of_cut path hfits hroom]
  dsimp only
  rw [replay_records_eq, writes_numbered]

/-! ## Many lives -/

variable {lives : List ServerLife} {started : Started} {left extras : List (Option StoreWrite)}

/-- An extra write of a life is the one in progress at its end, if there is one. -/
def ExtraOf (extra : Option StoreWrite) (life : ServerLife) : Prop :=
  LeftOf extra (life.inProgress.bind writeOf)

theorem extras_of_left (hleft : List.Forall₂ LeftOf left extras)
    (hextras : List.Forall₂ ExtraOf extras lives) :
    List.Forall₂ ExtraOf left lives := by
  induction hleft generalizing lives with
  | nil => exact hextras
  | cons hfirst _ ih =>
    cases hextras with
    | cons hextra hrest =>
      refine .cons ?_ (ih hrest)
      rcases hfirst with rfl | rfl
      · exact .inl rfl
      · exact hextra

theorem settled_starts (acknowledged : List (List StoreWrite))
    (extras : List (Option StoreWrite)) :
    settledWrites acknowledged extras <+: allWrites acknowledged extras := by
  induction acknowledged generalizing extras with
  | nil => exact prefix_rfl
  | cons writes earlier ih =>
    cases extras with
    | nil => exact prefix_rfl
    | cons extra extras =>
      rw [settledWrites, allWrites]
      split_ifs with hwrites
      · rw [append_assoc]
        exact (ih extras).trans (prefix_append _ _)
      · exact prefix_append _ _

/-- A server that has started after some lives represents their writes, with some of the extra
ones. -/
structure Recovers (path : String) (lives : List ServerLife) (started : Started)
    (extras : List (Option StoreWrite)) : Prop where
  represents : Represents path started.server (allWrites started.acknowledged extras)
  records : started.records = numbered 1 (allWrites started.acknowledged extras)
  acknowledgedEnd : started.acknowledgedEnd =
    fileHeaderSize + ((settledWrites started.acknowledged extras).map recordSize).sum
  length : started.acknowledged.length = extras.length
  extras : List.Forall₂ ExtraOf extras lives

theorem Recovers.serves (h : Recovers path lives started extras) (requests : List Request) :
    Serves path (allWrites started.acknowledged extras) started.acknowledgedEnd
      (started.serve requests) := by
  refine Serves.handle_all ⟨?_, ?_⟩ requests
  · rw [append_nil]
    exact h.represents
  · rw [if_pos rfl]

theorem recovers_first (hpath : path ≠ "") :
    ∃ started, startedAfter path [] = .ok started ∧ Recovers path [] started [] := by
  have hnone : ∀ write ∈ ([] : List StoreWrite), write.Fits := by simp
  have hopened : Wal.openFile { path } = (.ok (),
      { path, file := fileHeader ++ (writesBytes 1 []).take 0, isOpen := true }) := by
    rw [openFile, if_neg (by simp), if_neg hpath]
    rfl
  have hstart : Server.start path [] =
      .ok ([], { store := some {}, wal := some (logOf path []) }) := by
    rw [Server.start, hopened, recover_of_cut path hnone (by decide)]
    rfl
  refine ⟨{ records := [], server := { store := some {}, wal := some (logOf path []) }
            acknowledgedEnd := fileHeaderSize, acknowledged := [] }, ?_, ?_⟩
  · rw [startedAfter, hstart]
    rfl
  · exact ⟨⟨rfl, hnone, show 0 < uint64Max by decide⟩, rfl, rfl, rfl, .nil⟩

/-- Another life, and the start after its crash. -/
theorem Recovers.crash {earlier : List ServerLife} {before : Started}
    (h : Recovers path earlier before extras)
    (hpath : path ≠ "") (hbefore : startedAfter path earlier = .ok before) (life : ServerLife)
    (hheader : fileHeaderSize ≤ life.cut)
    (hkeeps : (before.serve life.requests).acknowledgedEnd ≤ life.cut) :
    ∃ started left, startedAfter path (life :: earlier) = .ok started ∧
      Recovers path (life :: earlier) started left := by
  have hserves := h.serves life.requests
  generalize hserving : before.serve life.requests = serving at hserves hkeeps
  obtain ⟨extra, hextra, ⟨server, hwritten⟩, hcrash⟩ := hserves.crash life
  obtain ⟨next, hstart, hnext⟩ := start_of_cut hpath hwritten.fits hwritten.room hheader
  rw [← hcrash] at hstart
  have hall : allWrites before.acknowledged extras ++ serving.acknowledged ++ extra.toList =
      allWrites (serving.acknowledged :: before.acknowledged) (extra :: extras) := rfl
  rw [hall] at hstart hnext
  have hend : serving.acknowledgedEnd = fileHeaderSize + ((settledWrites
      (serving.acknowledged :: before.acknowledged) (extra :: extras)).map recordSize).sum := by
    rw [hserves.acknowledgedEnd, h.acknowledgedEnd, hserves.represents.file_eq,
      length_append, length_writes_bytes, settledWrites]
    split_ifs
    · rfl
    · rfl
  have hsettled : settledWrites (serving.acknowledged :: before.acknowledged) (extra :: extras) <+:
      whole (life.cut - fileHeaderSize)
        (allWrites (serving.acknowledged :: before.acknowledged) (extra :: extras)) :=
    starts_whole (settled_starts _ _) (by omega)
  obtain ⟨left, hleft, hkept, hsame⟩ := history_of_start (by simp [h.length])
    (whole_starts _ _) hsettled
  rw [← hkept] at hstart hnext
  refine ⟨{ records := numbered 1 (allWrites (serving.acknowledged :: before.acknowledged) left)
            server := next, acknowledgedEnd := serving.acknowledgedEnd
            acknowledged := serving.acknowledged :: before.acknowledged }, left, ?_, ?_⟩
  · rw [startedAfter, hbefore]
    dsimp only [bind, Except.bind]
    rw [hserving, hstart]
    rfl
  · refine ⟨hnext, rfl, by rw [hsame, hend], ?_, extras_of_left hleft (.cons hextra h.extras)⟩
    rw [hleft.length_eq]
    simp [h.length]

theorem recovers_after (hpath : path ≠ "") (hkeeps : KeepsAcknowledged path lives) :
    ∃ started extras, startedAfter path lives = .ok started ∧
      Recovers path lives started extras := by
  induction lives with
  | nil =>
    obtain ⟨started, hstarted, hrecovers⟩ := recovers_first hpath
    exact ⟨started, [], hstarted, hrecovers⟩
  | cons life earlier ih =>
    obtain ⟨before, extras, hbefore, hrecovers⟩ := ih hkeeps.1
    obtain ⟨hheader, hcut⟩ := hkeeps.2 before hbefore
    exact hrecovers.crash hpath hbefore life hheader hcut

/-- However often the server crashes, if no crash cuts the file before the end of its header or of
the last acknowledged record, it starts again. The records it recovers are numbered from one on
without a gap, and their writes are those that were acknowledged in each life, followed by at most
the one that was in progress at its end. Replaying them yields the store of these writes, from which
the next life goes on. -/
theorem recovered_after_crashes (hpath : path ≠ "") (lives : List ServerLife)
    (hkeeps : KeepsAcknowledged path lives) :
    ∃ started extras, startedAfter path lives = .ok started ∧
      List.Forall₂ ExtraOf extras lives ∧
      started.acknowledged.length = lives.length ∧
      started.records.map WalRecord.write = allWrites started.acknowledged extras ∧
      started.records.map WalRecord.sequence = List.range' 1 started.records.length ∧
      started.server.store = some (Server.replayRecords started.records {}) ∧
      ∀ requests, (started.serve requests).server.store =
        some (storeAfter (allWrites started.acknowledged extras ++
          (started.serve requests).acknowledged)) := by
  obtain ⟨started, extras, hstarted, hrecovers⟩ := recovers_after hpath hkeeps
  have hwrites : started.records.map WalRecord.write =
      allWrites started.acknowledged extras := by
    rw [hrecovers.records, writes_numbered]
  refine ⟨started, extras, hstarted, hrecovers.extras, ?_, hwrites, ?_, ?_, fun requests => ?_⟩
  · rw [hrecovers.length, hrecovers.extras.length_eq]
  · rw [← length_map WalRecord.write, hwrites, hrecovers.records, sequences_numbered]
  · rw [replay_records_eq, hwrites, hrecovers.represents.server]
  · rw [(hrecovers.serves requests).represents.server]

/-- A life with two writes, which crashes in the middle of a third one. -/
def interruptedLife : ServerLife where
  requests := [{ type := .setRequest, key := [1], value := [2] },
    { type := .deleteRequest, key := [3] }]
  inProgress := some { type := .setRequest, key := [4], value := [5] }
  cut := 100

/-- Both writes are recovered after the crash. -/
theorem interrupted_life_recovered :
    KeepsAcknowledged "distributed-kv.wal" [interruptedLife] ∧
      ∃ started extras, startedAfter "distributed-kv.wal" [interruptedLife] = .ok started ∧
        started.records.map WalRecord.write = allWrites started.acknowledged extras ∧
        started.records.map WalRecord.sequence = [1, 2] := by
  have hends : (startedAfter "distributed-kv.wal" []).toOption.map (fun before =>
      (before.serve interruptedLife.requests).acknowledgedEnd) = some 83 := by decide +kernel
  have hkeeps : KeepsAcknowledged "distributed-kv.wal" [interruptedLife] := by
    refine ⟨trivial, fun before hbefore => ⟨by decide, ?_⟩⟩
    rw [hbefore] at hends
    have hend : (before.serve interruptedLife.requests).acknowledgedEnd = 83 :=
      Option.some.inj hends
    rw [hend]
    decide
  have hlength : (startedAfter "distributed-kv.wal" [interruptedLife]).toOption.map
      (fun started => started.records.length) = some 2 := by decide +kernel
  obtain ⟨started, extras, hstarted, -, -, hwrites, hsequences, -⟩ :=
    recovered_after_crashes (by decide) [interruptedLife] hkeeps
  rw [hstarted] at hlength
  have htwo : started.records.length = 2 := Option.some.inj hlength
  refine ⟨hkeeps, started, extras, hstarted, hwrites, ?_⟩
  rw [hsequences, htwo]
  rfl

end DistributedKV
