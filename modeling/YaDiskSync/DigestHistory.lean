import YaDiskSync.SyncProvenance
import YaDiskSync.MigrationProvenance

/-! Digests from run to run. A migration that adopts a file too large for its own limit stores the
digest of the remote copy; a later one with a larger limit takes it for the digest of the file. -/
namespace YaDiskSync

open Prog

/-- A batch of adopted files with the digest of a remote copy too large for the run's own limit,
but not for the other one. -/
def adoptsUnhashed (limit ownLimit : Nat) : Happening MigrationMemory → Bool
  | .step (.state (.upsertFileStates records)) _ => records.any fun record =>
    record.remoteMd5.isSome && decide (ownLimit < record.sizeBytes) &&
      decide (record.sizeBytes ≤ limit)
  | _ => false

/-- A migration before its first step. -/
structure Untouched {ρ : Type} (s : Traced ρ MigrationMemory) : Prop where
  trace : s.trace = []
  tasks : s.world.tasks = []
  memory : s.world.memory = { report := s.world.memory.report }

/-- What a sequence of runs leaves in the database, and the versions whose digests they computed.
The runs may be cut off anywhere. -/
inductive History (ok : AppConfig → Happening MigrationMemory → Prop) :
    Set HashedVersion → Repository → Prop
  | empty {repository : Repository} : repository.fileStates.rows = [] → History ok ∅ repository
  | sync {ρ : Type} {env : Environment ρ} {config : AppConfig}
      {options : SyncEngine.SyncRunOptions} {hashed : Set HashedVersion}
      {s s' : Traced ρ SyncMemory} {result : Option (Except SyncError SyncEngine.RunOnceResult)} :
      History ok hashed s.world.repository → s.trace = [] → s.world.tasks = [] →
      Exec (env.TraceStep fun _ _ _ => True) env.TraceDrift
        (SyncEngine.runOnce env.ext config options).run s result s' →
      History ok (hashed ∪ hashedVersions env.ext s'.trace) s'.world.repository
  | migration {ρ : Type} {env : Environment ρ} {config : AppConfig}
      {options : MigrationEngine.MigrationRunOptions} {hashed : Set HashedVersion}
      {s s' : Traced ρ MigrationMemory} {result : Option (Except MigrationError MigrationRunReport)} :
      History ok hashed s.world.repository → Untouched s →
      Exec (env.TraceStep fun _ _ _ => True) env.TraceDrift
        (MigrationEngine.runOnce env.ext config options).run s result s' →
      (∀ happening ∈ s'.trace, ok config happening) →
      History ok (hashed ∪ hashedVersions env.ext s'.trace) s'.world.repository

section Runs

variable {ρ : Type} {env : Environment ρ} {config : AppConfig} {limit : Nat}
  {hashed : Set HashedVersion}

-- no run is looked into any more
attribute [local irreducible] Obeys

/-- A sync run keeps the digests of the rows known. -/
theorem sync_grounded {options : SyncEngine.SyncRunOptions} {s s' : Traced ρ SyncMemory}
    {result : Option (Except SyncError SyncEngine.RunOnceResult)}
    (hrows : ∀ record ∈ s.world.repository.fileStates.rows, record.Sourced hashed limit)
    (htasks : s.world.tasks = [])
    (hrun : Exec (env.TraceStep fun _ _ _ => True) env.TraceDrift
      (SyncEngine.runOnce env.ext config options).run s result s') :
    Grounded env.ext SyncEngine.keepsAny limit hashed s' := by
  have hstart : Grounded env.ext SyncEngine.keepsAny limit hashed s := {
    rows := fun record hrecord => (hrows record hrecord).mono Set.subset_union_left
    tasks := ⟨0,crew_nil htasks⟩
    memory := trivial }
  exact ((honest_grounded (fun _ _ _ _ h => h) fun _ _ _ _ _ _ _ h => h).exec
    (fun _ _ => SyncEngine.runOnce_minds env.ext config options) hstart hrun).1

/-- So does a migration that stores no digest the limit is too large for. -/
theorem migration_grounded {options : MigrationEngine.MigrationRunOptions}
    {s s' : Traced ρ MigrationMemory} {result : Option (Except MigrationError MigrationRunReport)}
    (hrows : ∀ record ∈ s.world.repository.fileStates.rows, record.Sourced hashed limit)
    (hstart : Untouched s)
    (hrun : Exec (env.TraceStep fun _ _ _ => True) env.TraceDrift
      (MigrationEngine.runOnce env.ext config options).run s result s')
    (hok : ∀ happening ∈ s'.trace,
      adoptsUnhashed limit config.sync.fullHashMaxBytes happening = false) :
    Grounded env.ext (KeepsDigests limit (min limit config.sync.fullHashMaxBytes)) limit hashed s' := by
  have hgrounded : Grounded env.ext (KeepsDigests limit (min limit config.sync.fullHashMaxBytes)) limit
      hashed s := {
    rows := fun record hrecord => (hrows record hrecord).mono Set.subset_union_left
    tasks := ⟨0,crew_nil hstart.tasks⟩
    memory := by
      rw [hstart.memory]
      exact {
        plan := fun plan hplan => nomatch hplan
        uploads := fun candidate hcandidate => nomatch hcandidate
        adoptions := fun record hrecord => nomatch hrecord } }
  have hrun' := Environment.exec_of_trace (C := fun trace => ∀ happening ∈ trace,
      adoptsUnhashed limit config.sync.fullHashMaxBytes happening = false)
    (fun trace trace' hle h happening hmem => h happening (hle.subset hmem)) hrun hok
  refine ((honest_grounded (keepsDigests_monotone limit _) ?_).exec
    (fun _ _ => MigrationEngine.runOnce_minds env.ext config options) hgrounded hrun').1
  intro s records answer hallowed hashed record hrecord hsourced hle md5 hmd5
  have hbatch : adoptsUnhashed limit config.sync.fullHashMaxBytes
      (.step (.state (.upsertFileStates records)) answer) = false := hallowed _ (by simp)
  have hsmall := List.any_eq_false.mp hbatch record hrecord
  simp only [hmd5,Option.isSome_some,Bool.true_and,Bool.and_eq_true,decide_eq_true_eq,not_and] at hsmall
  refine hsourced ?_ md5 hmd5
  rw [Nat.cast_min]
  exact le_min hle (not_lt.mp fun hlarge => hsmall hlarge hle)

/-- The rows after any such sequence of runs have known digests. -/
theorem History.sourced {repository : Repository}
    (h : History (fun own happening =>
      adoptsUnhashed limit own.sync.fullHashMaxBytes happening = false) hashed repository) :
    ∀ record ∈ repository.fileStates.rows, record.Sourced hashed limit := by
  induction h with
  | empty hrows =>
    intro record hrecord
    rw [hrows] at hrecord
    cases hrecord
  | sync _ _ htasks hrun ih => exact (sync_grounded ih htasks hrun).rows
  | migration _ hstart hrun hok ih => exact (migration_grounded ih hstart hrun hok).rows

end Runs

section Matches

namespace MigrationEngine

/-- A match by digest is one of the file's own digest, within the limit of the run. -/
theorem remoteMatchesLocal_md5 (config : AppConfig) (file : LocalFileEntry)
    (remote : ResourceMetadata) :
    TryResults (fun decision => decision = { isMatch := true, method := "md5".toList } →
        file.sizeBytes ≤ config.sync.fullHashMaxBytes ∧
          ∃ md5, file.fingerprint.localMd5 = some md5)
      (remoteMatchesLocal config file remote) := by
  refine iteInduction (motive := fun p => TryResults _ p)
    (fun _ => TryResults.pure fun h => nomatch h) fun _ => ?_
  refine iteInduction (motive := fun p => TryResults _ p) (fun hle => ?_)
    fun _ => TryResults.pure fun h => by cases congrArg AdoptionDecision.method h
  cases remote.md5 with
  | some md5 =>
    refine TryResults.pure fun h => ⟨hle,?_⟩
    have hmatch : (file.fingerprint.localMd5.any fun own => eqIgnoreAsciiCase own md5) = true :=
      congrArg AdoptionDecision.isMatch h
    obtain ⟨own,hown,_⟩ := (Option.any_eq_true ..).mp hmatch
    exact ⟨own,hown⟩
  | none =>
    refine TryResults.bind (tryResults_true _) fun content _ => ?_
    cases content with
    | error error => exact fun _ h => nomatch h
    | ok localContent =>
      refine TryResults.bind (tryResults_true _) fun answer _ => ?_
      cases answer with
      | error error => exact fun _ h => nomatch h
      | ok remoteContent =>
        exact TryResults.pure fun h => by cases congrArg AdoptionDecision.method h

/-- In a migration, after runs that stored no digest of a remote copy too large for their own
limits but not for its own one: a live file that is taken to match by its digest has one that was
computed from the bytes of a version of it with the same size and modified time. -/
theorem matches_computed {ρ : Type} {env : Environment ρ} {config : AppConfig}
    {options : MigrationRunOptions} {hashed : Set HashedVersion} {s s' : Traced ρ MigrationMemory}
    {result : Option (Except MigrationError MigrationRunReport)}
    (hhistory : History (fun own happening => adoptsUnhashed config.sync.fullHashMaxBytes
      own.sync.fullHashMaxBytes happening = false) hashed s.world.repository)
    (hstart : Untouched s)
    (hrun : Exec (env.TraceStep fun _ _ _ => True) env.TraceDrift
      (runOnce env.ext config options).run s result s')
    {plan : LiveScanPlan} (hplan : s'.world.memory.livePlan = some plan)
    {file : LocalFileEntry} (hfile : file ∈ plan.files) {remote : ResourceMetadata}
    {s'' : Traced ρ MigrationMemory}
    (hmatch : Exec (env.TraceStep fun _ _ _ => True) env.TraceDrift
      (remoteMatchesLocal config file remote).run s'
      (some (.ok { isMatch := true, method := "md5".toList })) s'') :
    ∃ md5, file.fingerprint.localMd5 = some md5 ∧ ComputedFor
      (hashed ∪ hashedVersions env.ext s'.trace) file.rootId file.relativePath file.sizeBytes
      file.mtimeNs md5 := by
  have hown : ∀ happening : Happening MigrationMemory, adoptsUnhashed config.sync.fullHashMaxBytes
      config.sync.fullHashMaxBytes happening = false := by
    intro happening
    unfold adoptsUnhashed
    split
    · refine List.any_eq_false.mpr fun record _ => ?_
      simp only [Bool.and_eq_true,decide_eq_true_eq,not_and,not_le]
      exact fun h => h.2
    · rfl
  have hgrounded := migration_grounded hhistory.sourced hstart hrun fun happening _ =>
    hown happening
  obtain ⟨hle,md5,hmd5⟩ := (remoteMatchesLocal_md5 config file remote).of_exec hmatch _ rfl rfl
  exact ⟨md5,hmd5,(hgrounded.memory.plan plan hplan file hfile).computed hle md5 hmd5⟩

section Taken

/-! A file that is adopted by one migration; before the next its remote copy is moved to a legacy
root. -/

private def matchedConfig (fullHashMaxBytes : Nat) : AppConfig :=
  { defaultConfig with
    sync := { defaultConfig.sync with fullHashMaxBytes }
    roots := [{
      id := "r".toList, name := "r".toList, enabled := true, localPath := "/r".toList
      legacyRemotePaths := ["disk:/Old".toList] }] }

private def matchedCopy (path md5 : Str) : ResourceMetadata :=
  { ResourceMetadata.ofFile path 4 with md5 := some md5 }

private def matchedItems : List LocalItem :=
  [{ components := ["r".toList], fileType := .dir, sizeBytes_lt := emptySize_lt },
    { components := ["r".toList,"f".toList], fileType := .file, sizeBytes := 4
      sizeBytes_lt := wordSize_lt
      content := "data".toList }]

private def matchedStart (repository : Repository) (copies : List ResourceMetadata) :
    Traced RemoteDisk MigrationMemory where
  world := {
    disk := {
      items := matchedItems
      names_ne := by decide
      nodup := by decide
      closed := by decide +kernel }
    remote := { resources := Inventory.ofResources (
      .ofDirectory "disk:/Backup".toList :: .ofDirectory "disk:/Backup/r".toList :: copies) }
    repository, tasks := [], cancelled := false, now := 0
    memory := { report := { runId := 0 } } }

private def matchedOptions : MigrationRunOptions :=
  { lockOwner := "a".toList, staleLockAfter := 3600, forceRemoteRescan := true }

private def matchedPlay (fullHashMaxBytes : Nat) (start : Traced RemoteDisk MigrationMemory) :
    Traced RemoteDisk MigrationMemory :=
  (start.play { respond := mockResponder ⟨none,none⟩ } asciiExternals
    (runOnce asciiExternals (matchedConfig fullHashMaxBytes) matchedOptions).run).2

private def adoptedFirst (fullHashMaxBytes : Nat) (md5 : Str) : Traced RemoteDisk MigrationMemory :=
  matchedPlay fullHashMaxBytes (matchedStart {} [matchedCopy "disk:/Backup/r/f".toList md5])

private def matchedNext (fullHashMaxBytes : Nat) (md5 : Str) : Traced RemoteDisk MigrationMemory :=
  matchedStart (adoptedFirst fullHashMaxBytes md5).world.repository
    [.ofDirectory "disk:/Old".toList,matchedCopy "disk:/Old/f".toList md5]

private def matchedEnvironment : Environment RemoteDisk :=
  mockEnvironment asciiExternals ⟨none,none⟩ fun _ _ => False

private theorem exec_matched (fullHashMaxBytes : Nat) (start : Traced RemoteDisk MigrationMemory) :
    ∃ result, Exec (matchedEnvironment.TraceStep fun _ _ _ => True) matchedEnvironment.TraceDrift
      (runOnce asciiExternals (matchedConfig fullHashMaxBytes) matchedOptions).run start result
      (matchedPlay fullHashMaxBytes start) :=
  ⟨_,Scenario.exec_play { admits := mockEnvironment_admits asciiExternals ⟨none,none⟩ _ }
    (J := fun _ => True) (fun _ _ _ => trivial) (fun _ _ _ => trivial) _ trivial⟩

@[simp] private theorem matchedStart_repository (repository : Repository)
    (copies : List ResourceMetadata) :
    (matchedStart repository copies).world.repository = repository := rfl

private theorem history_next {ok : AppConfig → Happening MigrationMemory → Prop}
    {fullHashMaxBytes : Nat} {md5 : Str} (hok : ∀ happening ∈
      (adoptedFirst fullHashMaxBytes md5).trace, ok (matchedConfig fullHashMaxBytes) happening) :
    History ok (∅ ∪ hashedVersions asciiExternals (adoptedFirst fullHashMaxBytes md5).trace)
      (matchedNext fullHashMaxBytes md5).world.repository := by
  obtain ⟨_,hrun⟩ := exec_matched fullHashMaxBytes (matchedStart {}
    [matchedCopy "disk:/Backup/r/f".toList md5])
  have hstart : Untouched (matchedStart {} [matchedCopy "disk:/Backup/r/f".toList md5]) :=
    ⟨rfl,rfl,rfl⟩
  rw [matchedNext,matchedStart_repository]
  exact @History.migration ok RemoteDisk matchedEnvironment (matchedConfig fullHashMaxBytes)
    matchedOptions ∅ _ _ _ (.empty rfl) hstart hrun hok

private theorem untouched_next (fullHashMaxBytes : Nat) (md5 : Str) :
    Untouched (matchedNext fullHashMaxBytes md5) := ⟨rfl,rfl,rfl⟩

/-- The move of the copy to the place of the file. -/
private def movesBack : Happening MigrationMemory → Bool
  | .step (.client (.moveResource source target false)) (.ok ()) =>
    source == "disk:/Old/f".toList && target == "disk:/Backup/r/f".toList
  | _ => false

private theorem mem_of_movesBack {trace : List (Happening MigrationMemory)}
    (h : trace.any movesBack = true) :
    (.step (.client (.moveResource "disk:/Old/f".toList "disk:/Backup/r/f".toList false))
      (.ok ())) ∈ trace := by
  obtain ⟨happening,hmem,hmoves⟩ := List.any_eq_true.mp h
  unfold movesBack at hmoves
  split at hmoves
  · rw [Bool.and_eq_true,beq_iff_eq,beq_iff_eq] at hmoves
    rwa [hmoves.1,hmoves.2] at hmem
  · cases hmoves

/-- The paths, the sizes and the digests of the live files. -/
private def liveDigests (s : Traced RemoteDisk MigrationMemory) : List (Str × Nat × Option Str) :=
  (s.world.memory.livePlan.getD { rootId := [], rootLocalPath := [] }).files.map fun file =>
    (file.remotePath,file.sizeBytes,file.fingerprint.localMd5)

private theorem live_of_digests {s : Traced RemoteDisk MigrationMemory} {md5 : Str}
    (h : liveDigests s = [("disk:/Backup/r/f".toList,4,some md5)]) :
    ∃ plan file, s.world.memory.livePlan = some plan ∧ file ∈ plan.files ∧
      file.remotePath = "disk:/Backup/r/f".toList ∧ file.sizeBytes = 4 ∧
        file.fingerprint.localMd5 = some md5 := by
  unfold liveDigests at h
  cases hplan : s.world.memory.livePlan with
  | none => simp [hplan] at h
  | some plan =>
    rw [hplan,Option.getD_some,List.map_eq_singleton_iff] at h
    obtain ⟨file,hfiles,hfile⟩ := h
    simp only [Prod.mk.injEq] at hfile
    exact ⟨plan,file,rfl,by simp [hfiles],hfile⟩

private theorem matched_by_md5 {config : AppConfig} {file : LocalFileEntry} {path md5 : Str}
    {s : Traced RemoteDisk MigrationMemory} (hsize : file.sizeBytes = 4)
    (hmd5 : file.fingerprint.localMd5 = some md5) (hlimit : 4 ≤ config.sync.fullHashMaxBytes) :
    Exec (matchedEnvironment.TraceStep fun _ _ _ => True) matchedEnvironment.TraceDrift
      (remoteMatchesLocal config file (matchedCopy path md5)).run s
      (some (.ok { isMatch := true, method := "md5".toList })) s := by
  have hrun : (remoteMatchesLocal config file (matchedCopy path md5)).run =
      .ret (.ok { isMatch := true, method := "md5".toList }) := by
    unfold remoteMatchesLocal
    simp [matchedCopy,ResourceMetadata.ofFile,hsize,hmd5,hlimit,eqIgnoreAsciiCase]
  rw [hrun]
  exact .ret _ _

private def matchedView : ScanView where
  oracle := ⟨id,id,fun _ => [],fun _ => []⟩
  faults := {}
  tree := (matchedStart {} []).world.disk

/-- A scan that gives what it gives of the one tree there is. -/
private def scansMatched : Happening MigrationMemory → Bool
  | .step (.scan options root previousStates) (.ok report) =>
    (matchedView.gives asciiExternals options root previousStates).toOption == some report
  | _ => true

/-- The bytes of the one file have another digest. -/
private theorem hashed_ne_feed {trace : List (Happening MigrationMemory)}
    (htrace : trace.all scansMatched = true) {version : HashedVersion}
    (hversion : version ∈ hashedVersions asciiExternals trace) :
    ¬ eqIgnoreAsciiCase version.md5 "feed".toList = true := by
  obtain ⟨options,root,previousStates,report,hstep,_,hhashed⟩ := hversion
  have hscan := List.all_eq_true.mp htrace _ hstep
  have hgives : matchedView.gives asciiExternals options root previousStates = .ok report := by
    cases hview : matchedView.gives asciiExternals options root previousStates with
    | error error => simp [scansMatched,hview,Except.toOption] at hscan
    | ok given => simpa [scansMatched,hview,Except.toOption] using hscan
  obtain ⟨_,item,hitem,_,_,_,hmd5⟩ := hhashed matchedView hgives
  obtain ⟨whole,hwhole,hbelow⟩ := List.mem_filterMap.mp hitem
  obtain ⟨rest,_,_,rfl⟩ := LocalTree.belowItem_eq_some.mp hbelow
  rw [← hmd5,ScanOracle.bytes]
  have hcontent : whole.content = [] ∨ whole.content = "data".toList := by
    have hmem : whole ∈ matchedItems := hwhole
    rcases List.mem_cons.mp hmem with rfl | hmem
    · exact Or.inl rfl
    · exact Or.inr (by rw [List.mem_singleton.mp hmem])
  have hstaged : ¬ eqIgnoreAsciiCase [] "feed".toList = true := by decide
  split
  · exact hstaged
  · rcases hcontent with h | h <;> rw [h] <;> decide

/-- The digest of other bytes is taken for the file's own, and the other file for the file. -/
theorem digest_taken_over : ¬ ∀ (ext : Externals) (config : AppConfig)
    (options : MigrationRunOptions) (hashed : Set HashedVersion)
    (s s' : Traced RemoteDisk MigrationMemory)
    (result : Option (Except MigrationError MigrationRunReport)) (plan : LiveScanPlan)
    (file : LocalFileEntry) (remote : ResourceMetadata) (s'' : Traced RemoteDisk MigrationMemory),
    History (fun _ _ => True) hashed s.world.repository → Untouched s →
      Exec ((mockEnvironment ext ⟨none,none⟩ fun _ _ => False).TraceStep fun _ _ _ => True)
        (mockEnvironment ext ⟨none,none⟩ fun _ _ => False).TraceDrift
        (runOnce ext config options).run s result s' →
      s'.world.memory.livePlan = some plan → file ∈ plan.files →
      Exec ((mockEnvironment ext ⟨none,none⟩ fun _ _ => False).TraceStep fun _ _ _ => True)
        (mockEnvironment ext ⟨none,none⟩ fun _ _ => False).TraceDrift
        (remoteMatchesLocal config file remote).run s'
        (some (.ok { isMatch := true, method := "md5".toList })) s'' →
      (.step (.client (.moveResource remote.path file.remotePath false)) (.ok ())) ∈ s'.trace →
      ∃ md5, file.fingerprint.localMd5 = some md5 ∧ ComputedFor
        (hashed ∪ hashedVersions ext s'.trace) file.rootId file.relativePath file.sizeBytes
        file.mtimeNs md5 := by
  intro h
  have hfacts : liveDigests (matchedPlay 10 (matchedNext 3 "feed".toList)) =
        [("disk:/Backup/r/f".toList,4,some "feed".toList)] ∧
      (matchedPlay 10 (matchedNext 3 "feed".toList)).trace.any movesBack = true ∧
      (adoptedFirst 3 "feed".toList).trace.all scansMatched = true ∧
      (matchedPlay 10 (matchedNext 3 "feed".toList)).trace.all scansMatched = true := by
    decide +kernel
  obtain ⟨hdigests,hmoved,hfirst,hnext⟩ := hfacts
  obtain ⟨_,hrun⟩ := exec_matched 10 (matchedNext 3 "feed".toList)
  obtain ⟨plan,file,hplan,hfile,hpath,hsize,hmd5⟩ := live_of_digests hdigests
  have htrace := mem_of_movesBack hmoved
  rw [← hpath] at htrace
  obtain ⟨md5,hown,version,hversion,_,_,_,_,hsame⟩ := h asciiExternals (matchedConfig 10)
    matchedOptions _ _ _ _ plan file (matchedCopy "disk:/Old/f".toList "feed".toList) _
    (history_next fun _ _ => trivial) (untouched_next 3 _) hrun hplan hfile
    (matched_by_md5 hsize hmd5 (by decide)) htrace
  rw [Option.some.inj (hown.symm.trans hmd5)] at hsame
  rcases hversion with (hempty | hversion) | hversion
  · exact absurd hempty (Set.notMem_empty _)
  · exact hashed_ne_feed hfirst hversion hsame
  · exact hashed_ne_feed hnext hversion hsame

/-- A digest the first migration computed, with a smaller limit, is the one the next goes by. -/
theorem digest_matched : ∃ plan file,
    (matchedPlay 10 (matchedNext 5 "data".toList)).world.memory.livePlan = some plan ∧
      file ∈ plan.files ∧ file.fingerprint.localMd5 = some "data".toList ∧
        ∃ md5, file.fingerprint.localMd5 = some md5 ∧
          ComputedFor
            (∅ ∪ hashedVersions asciiExternals (adoptedFirst 5 "data".toList).trace ∪
              hashedVersions asciiExternals
                (matchedPlay 10 (matchedNext 5 "data".toList)).trace)
            file.rootId file.relativePath file.sizeBytes file.mtimeNs md5 := by
  have hfacts : liveDigests (matchedPlay 10 (matchedNext 5 "data".toList)) =
        [("disk:/Backup/r/f".toList,4,some "data".toList)] ∧
      (adoptedFirst 5 "data".toList).trace.all (fun happening =>
        !adoptsUnhashed 10 5 happening) = true := by decide +kernel
  obtain ⟨hdigests,hhashed⟩ := hfacts
  obtain ⟨_,hrun⟩ := exec_matched 10 (matchedNext 5 "data".toList)
  obtain ⟨plan,file,hplan,hfile,_,hsize,hmd5⟩ := live_of_digests hdigests
  have hok : ∀ happening ∈ (adoptedFirst 5 "data".toList).trace, adoptsUnhashed
      (matchedConfig 10).sync.fullHashMaxBytes (matchedConfig 5).sync.fullHashMaxBytes happening =
        false := fun happening hmem => by
    rw [← Bool.not_eq_true']
    exact List.all_eq_true.mp hhashed happening hmem
  have hhistory := @history_next (fun own happening => adoptsUnhashed
    (matchedConfig 10).sync.fullHashMaxBytes own.sync.fullHashMaxBytes happening = false) 5 _ hok
  exact ⟨plan,file,hplan,hfile,hmd5,@matches_computed RemoteDisk matchedEnvironment
    (matchedConfig 10) matchedOptions _ _ _ _ hhistory (untouched_next 5 _) hrun plan hplan file
    hfile (matchedCopy "disk:/Old/f".toList "data".toList) _
    (matched_by_md5 hsize hmd5 (by decide))⟩

end Taken

end MigrationEngine

end Matches

end YaDiskSync
