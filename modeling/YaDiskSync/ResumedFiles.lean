import YaDiskSync.MigrationEnds
import YaDiskSync.MigrationWork
import YaDiskSync.StagedUploads
import YaDiskSync.StateFrame

/-! Files that a migration takes for synced by their stored rows alone. A row that is accepted
fits its file, so the scanner kept it, and what it compares is what a full comparison compares. -/
namespace YaDiskSync

open Prog

/-- `remote_matches_local` answers that the two match, without asking for anything. -/
def MatchesLocal (config : AppConfig) (file : LocalFileEntry) (remote : ResourceMetadata) : Prop :=
  ∃ decision, MigrationEngine.remoteMatchesLocal config file remote = pure decision ∧
    decision.isMatch = true

/-- What the row of a file decides, a comparison decides as well. -/
def ResumesSoundly (file : LocalFileEntry) (record : FileStateRecord) : Prop :=
  ∀ config remote, canResumeSyncedFile record file remote config = true →
    MatchesLocal config file remote

section Decisions

variable {record : FileStateRecord} {file : LocalFileEntry} {remote : ResourceMetadata}
  {config : AppConfig}

theorem canResume_synced (h : canResumeSyncedFile record file remote config = true) :
    record.status = .synced := by
  by_contra hstatus
  simp [canResumeSyncedFile,hstatus] at h

/-- A row that is accepted is about the file as it is. -/
theorem canResume_fits (h : canResumeSyncedFile record file remote config = true) :
    record.sizeBytes = u64ToI64 file.sizeBytes ∧ record.mtimeNs = file.mtimeNs ∧
      record.normalizedRemotePath = file.normalizedRemotePath := by
  unfold canResumeSyncedFile at h
  rw [if_neg (not_not.mpr (canResume_synced h))] at h
  split at h
  · cases h
  · rename_i hfits
    simp only [not_or,not_not] at hfits
    exact ⟨hfits.2.2.1,hfits.2.2.2.1,hfits.2.1⟩

/-- If the file has the digest of its row, the row decides as the comparison does. -/
theorem resumesSoundly_of_md5 (h : file.fingerprint.localMd5 = record.remoteMd5) :
    ResumesSoundly file record := by
  intro config remote hresume
  unfold canResumeSyncedFile at hresume
  unfold MatchesLocal MigrationEngine.remoteMatchesLocal
  split at hresume
  · cases hresume
  split at hresume
  · cases hresume
  split at hresume
  · cases hresume
  rename_i hremote
  rw [if_neg hremote]
  by_cases hsize : file.sizeBytes ≤ config.sync.fullHashMaxBytes
  · rw [if_pos hsize] at hresume ⊢
    cases hmd5 : remote.md5 with
    | none =>
      rw [hmd5] at hresume
      cases hresume
    | some remoteMd5 =>
      refine ⟨_,rfl,?_⟩
      simp only [hmd5,← h] at hresume
      cases hlocal : file.fingerprint.localMd5 with
      | none =>
        simp only [hlocal] at hresume
        cases hresume
      | some localMd5 => simpa [hlocal] using hresume
  · rw [if_neg hsize]
    exact ⟨_,rfl,rfl⟩

end Decisions

section Scans

variable {ext : Externals} {oracle : ScanOracle} {context : ScanContext} {faults : ScanFaults}
  {item : LocalItem} {relative : Str} {file : LocalFileEntry} {record : FileStateRecord}

/-- The digest of a file that keeps its row is the one stored with the row. -/
theorem fileEntry_reuse (h : fileEntry ext oracle context faults item relative = .ok (.file file))
    (hrow : reusableState context relative file.normalizedRemotePath item.sizeBytes item.mtimeNs =
      some record) : file.fingerprint.localMd5 = record.remoteMd5 := by
  unfold fileEntry at h
  simp only at h
  split at h
  · cases h
  split at h
  · cases h
  split at h
  · cases h
  split at h
  · rename_i previous hprevious
    cases h
    rw [hprevious] at hrow
    cases hrow
    rfl
  · rename_i hnone
    split at h
    · cases h
    split at h
    · cases h
    · cases h
      rw [hnone] at hrow
      cases hrow

/-- Both engines' conversions of a size agree on the sizes of files. -/
theorem asI64_eq_u64ToI64 {size : Nat} (h : size < 2^63) : asI64 size = u64ToI64 size := by
  rw [asI64_of_lt h,u64ToI64_of_lt h]

/-- What was scanned with the stored rows of a root is resumed soundly by the same rows. -/
theorem scanRoot_resumesSoundly {options : ScanOptions} {root : ScanRoot}
    {previousStates : List FileStateRecord} {tree : LocalTree} {report : ScanReport}
    (hreport : scanRoot ext oracle faults options root previousStates tree = .ok report)
    (hfile : file ∈ report.files)
    (hrecord : previousStateMap previousStates file.relativePath = some record) :
    ResumesSoundly file record := by
  intro config remote hresume
  refine resumesSoundly_of_md5 ?_ config remote hresume
  obtain ⟨hsize,hmtime,hnormalized⟩ := canResume_fits hresume
  unfold scanRoot at hreport
  cases hcontext : scanContext ext options root previousStates with
  | error error =>
    rw [hcontext] at hreport
    cases hreport
  | ok context =>
    rw [hcontext] at hreport
    cases hreport
    obtain ⟨item,_,_,hevent⟩ := mem_scanReport_files.mp hfile
    obtain ⟨_,_,hentry⟩ := handleWalkEntry_file hevent
    have hspec := fileEntry_spec hentry
    rw [hspec.relativePath] at hrecord
    rw [hspec.sizeBytes,← asI64_eq_u64ToI64 item.sizeBytes_lt] at hsize
    rw [hspec.mtimeNs] at hmtime
    refine fileEntry_reuse hentry ?_
    rw [reusableState,(scanContext_spec hcontext).2.2.2.2,hrecord]
    simp [hsize,hmtime,hnormalized]

end Scans

section Rows

variable {repository repository' : Repository} {rootId relativePath : Str}
  {record : FileStateRecord}

/-- The rows a root lists are looked up by their paths. -/
theorem previousStateMap_listed (repository : Repository) (rootId relativePath : Str) :
    previousStateMap (repository.listFileStatesForRoot rootId) relativePath =
      repository.getFileState rootId relativePath := by
  have hlisted : ∀ row, row ∈ (repository.listFileStatesForRoot rootId).reverse ↔
      row ∈ repository.fileStates.rows ∧ row.rootId = rootId := fun row => by
    simp [Repository.listFileStatesForRoot,mem_sortByKey]
  unfold previousStateMap Repository.getFileState
  cases hfound : (repository.listFileStatesForRoot rootId).reverse.find? fun row =>
      row.relativePath == relativePath with
  | some row =>
    obtain ⟨hmem,hroot⟩ := (hlisted row).mp (List.mem_of_find?_eq_some hfound)
    have hpath : row.relativePath = relativePath := by simpa using List.find?_some hfound
    exact (Table.find_eq_some.mpr ⟨hmem,by rw [FileStateRecord.key,hroot,hpath]⟩).symm
  | none =>
    symm
    apply Option.eq_none_iff_forall_ne_some.mpr
    intro row hrow
    obtain ⟨hmem,hkey⟩ := Table.find_eq_some.mp hrow
    obtain ⟨hroot,hpath⟩ := Prod.mk.inj hkey
    have hno := List.find?_eq_none.mp hfound row ((hlisted row).mpr ⟨hmem,hroot⟩)
    simp [hpath] at hno

/-- A call that stores no file as synced leaves the rows of the synced files as they were. -/
theorem getFileState_of_call {call : StateCall} {result : call.Result}
    (hcall : MigrationEngine.storesSynced (.state call) = false)
    (hrun : call.run repository = .ok (result,repository'))
    (hrecord : repository'.getFileState rootId relativePath = some record)
    (hsynced : record.status = .synced) :
    repository.getFileState rootId relativePath = some record := by
  cases hwrites : call.writesFileStates with
  | false => rwa [Repository.getFileState,(StateCall.run_leaves hrun).fileStates hwrites] at hrecord
  | true =>
    cases call with
    | upsertFileState row =>
      cases hrun
      have hput : (if row.key = (rootId,relativePath) then some row
          else repository.fileStates.find (rootId,relativePath)) = some record :=
        (Table.find_put _).symm.trans hrecord
      split at hput
      · cases hput
        simp [MigrationEngine.storesSynced,hsynced] at hcall
      · exact hput
    | upsertFileStates records => cases hcall
    | markDeleted id path remotePath lastRunId =>
      cases hrun
      obtain ⟨hmem,hkey⟩ := Table.find_eq_some.mp hrecord
      rcases Repository.mem_markDeleted hmem with ⟨hold,_⟩ | hdeleted
      · exact Table.find_eq_some.mpr ⟨hold,hkey⟩
      · rw [hsynced] at hdeleted
        cases hdeleted
    | _ => cases hwrites

end Rows

namespace ResumeRun

/-- What a trace tells of scans and of the rows they rest on. -/
structure ScanLog where
  /-- the rows of a root as listed last, if the database was not called since -/
  listed : Option (Str × List FileStateRecord) := none
  /-- the last scan made from the rows of its root, if no rows were listed since -/
  scanned : Option (ScanRoot × ScanReport) := none

def ScanLog.next (log : ScanLog) : Happening MigrationMemory → ScanLog
  | .step (.state (.listFileStatesForRoot rootId)) (.ok states) => { listed := some (rootId,states) }
  | .step (.state _) _ => { log with listed := none }
  | .step (.scan _ root previousStates) (.ok report) => {
      scanned := if log.listed = some (root.id,previousStates) then some (root,report) else none }
  | .step (.scan ..) (.error _) => {}
  | _ => log

def scanLog (trace : List (Happening MigrationMemory)) : ScanLog :=
  trace.foldl ScanLog.next {}

/-- The first rows listed after a scan of their root are those a file is resumed by: where one of
them decides that a file of the scan is synced, a comparison would find that it matches. -/
def ResumesAgree (trace : List (Happening MigrationMemory)) : Prop :=
  ∀ before rootId states after,
    trace = before ++ .step (.state (.listFileStatesForRoot rootId)) (.ok states) :: after →
      ∀ root report, (scanLog before).scanned = some (root,report) → root.id = rootId →
        ∀ file ∈ report.files, ∀ record,
          previousStateMap states file.relativePath = some record → ResumesSoundly file record

section Steps

variable {ρ : Type} {env : Environment ρ} {s s' : Traced ρ MigrationMemory}
  {trace : List (Happening MigrationMemory)} {happening : Happening MigrationMemory}

theorem scanLog_snoc (trace : List (Happening MigrationMemory))
    (happening : Happening MigrationMemory) :
    scanLog (trace ++ [happening]) = (scanLog trace).next happening := by
  simp [scanLog]

theorem ResumesAgree.snoc (h : ResumesAgree trace)
    (hlast : ∀ rootId states,
      happening = .step (.state (.listFileStatesForRoot rootId)) (.ok states) →
        ∀ root report, (scanLog trace).scanned = some (root,report) → root.id = rootId →
          ∀ file ∈ report.files, ∀ record,
            previousStateMap states file.relativePath = some record →
              ResumesSoundly file record) :
    ResumesAgree (trace ++ [happening]) := by
  intro before rootId states after hsplit
  rcases snoc_eq_append_cons hsplit with ⟨rfl,hlisted,_⟩ | ⟨rest,_,htrace⟩
  · exact hlast rootId states hlisted.symm
  · exact h before rootId states rest htrace

/-- What the trace tells is so: the rows are those listed last, and what was scanned with them is
resumed soundly by the rows there are. -/
structure Linked (s : Traced ρ MigrationMemory) : Prop where
  agree : ResumesAgree s.trace
  listed : ∀ rootId states, (scanLog s.trace).listed = some (rootId,states) →
    states = s.world.repository.listFileStatesForRoot rootId
  scanned : ∀ root report, (scanLog s.trace).scanned = some (root,report) →
    ∀ file ∈ report.files, ∀ record,
      s.world.repository.getFileState root.id file.relativePath = some record →
        ResumesSoundly file record

theorem Linked.start (h : s.trace = []) : Linked s where
  agree before rootId states after hsplit := by simp [h] at hsplit
  listed rootId states hlisted := by simp [h,scanLog] at hlisted
  scanned root report hscanned := by simp [h,scanLog] at hscanned

/-- Nothing that is told of rows or scans, and no other rows. -/
theorem Linked.quiet (h : Linked s) (htrace : s'.trace = s.trace ++ [happening])
    (hnext : (scanLog s.trace).next happening = scanLog s.trace)
    (hunlisted : ∀ rootId states,
      happening ≠ .step (.state (.listFileStatesForRoot rootId)) (.ok states))
    (hrepository : s'.world.repository = s.world.repository) : Linked s' where
  agree := by
    rw [htrace]
    exact h.agree.snoc fun rootId states hlisted => absurd hlisted (hunlisted rootId states)
  listed := by
    rw [htrace,scanLog_snoc,hnext,hrepository]
    exact h.listed
  scanned := by
    rw [htrace,scanLog_snoc,hnext,hrepository]
    exact h.scanned

theorem stable_linked : Stable env.TraceDrift (Linked (ρ := ρ)) := by
  intro s s' h hdrift
  have hrepository := hdrift.repository_eq
  rcases hdrift.trace_eq with htrace | ⟨task,outcome,htrace⟩
  · exact ⟨htrace ▸ h.agree,htrace ▸ hrepository ▸ h.listed,htrace ▸ hrepository ▸ h.scanned⟩
  · exact h.quiet htrace rfl (by simp) hrepository

variable {allowed : Traced ρ MigrationMemory → (e : Effect MigrationMemory) → e.Answer → Prop}

/-- A call that lists no rows of files. -/
theorem Linked.calls (h : Linked s) {call : StateCall}
    {answer : Except StateError call.Result} (htrace : s'.trace = s.trace ++ [.step (.state call) answer])
    (hnext : (scanLog s.trace).next (.step (.state call) answer) =
      { scanned := (scanLog s.trace).scanned })
    (hunlisted : ∀ rootId states, (.step (.state call) answer : Happening MigrationMemory) ≠
      .step (.state (.listFileStatesForRoot rootId)) (.ok states))
    (hrows : (scanLog s.trace).scanned ≠ none → ∀ rootId relativePath record,
      s'.world.repository.getFileState rootId relativePath = some record →
        record.status = .synced →
          s.world.repository.getFileState rootId relativePath = some record) : Linked s' where
  agree := by
    rw [htrace]
    exact h.agree.snoc fun rootId states hlisted => absurd hlisted (hunlisted rootId states)
  listed := by
    rw [htrace,scanLog_snoc,hnext]
    intro rootId states hlisted
    cases hlisted
  scanned := by
    rw [htrace,scanLog_snoc,hnext]
    intro root report hscanned file hfile record hrecord config remote hresume
    have hsome : (scanLog s.trace).scanned = some (root,report) := hscanned
    have hkept := hrows (by simp [hsome]) _ _ _ hrecord (canResume_synced hresume)
    exact h.scanned root report hscanned file hfile record hkept config remote hresume

theorem Linked.lists (h : Linked s) {rootId : Str} (htrace : s'.trace = s.trace ++
      [.step (.state (.listFileStatesForRoot rootId))
        (.ok (s.world.repository.listFileStatesForRoot rootId))])
    (hrepository : s'.world.repository = s.world.repository) : Linked s' where
  agree := by
    rw [htrace]
    refine h.agree.snoc fun id states hlisted root report hscanned hid file hfile record hrecord => ?_
    cases hlisted
    rw [previousStateMap_listed,← hid] at hrecord
    exact h.scanned root report hscanned file hfile record hrecord
  listed := by
    rw [htrace,scanLog_snoc,hrepository]
    rintro id states ⟨⟩
    rfl
  scanned := by
    rw [htrace,scanLog_snoc]
    intro root report hscanned
    cases hscanned

/-- A scan that was made from the rows of its root as they are. -/
theorem Linked.scans (h : Linked s) {options : ScanOptions} {root : ScanRoot}
    {previousStates : List FileStateRecord} {answer : Except ScannerError ScanReport}
    (hstep : env.TraceStep allowed s (.scan options root previousStates) answer s') : Linked s' := by
  obtain ⟨-,⟨⟨oracle,faults,tree,-,-,hanswer⟩,hworld⟩,htrace⟩ := hstep
  refine ⟨?_,?_,?_⟩
  · rw [htrace]
    exact h.agree.snoc fun rootId states hlisted => by cases hlisted
  · rw [htrace,scanLog_snoc]
    cases answer <;> exact fun _ _ hlisted => by cases hlisted
  · rw [htrace,scanLog_snoc,hworld]
    intro scanned report hscanned file hfile record hrecord
    cases answer with
    | error error => cases hscanned
    | ok found =>
      simp only [ScanLog.next] at hscanned
      split at hscanned
      · rename_i hlisted
        cases hscanned
        have hrows := h.listed _ _ hlisted
        refine scanRoot_resumesSoundly hanswer.symm hfile ?_
        rw [hrows,previousStateMap_listed]
        exact hrecord
      · cases hscanned

theorem Linked.step (h : Linked s) {e : Effect MigrationMemory} {answer : e.Answer}
    (hspares : MigrationEngine.storesSynced e = true → (scanLog s.trace).scanned = none)
    (hstep : env.TraceStep allowed s e answer s') : Linked s' := by
  have hrows : ∀ call : StateCall, e = .state call → (scanLog s.trace).scanned ≠ none →
      ∀ rootId relativePath record,
        s'.world.repository.getFileState rootId relativePath = some record →
          record.status = .synced →
            s.world.repository.getFileState rootId relativePath = some record := by
    rintro call rfl hscanned rootId relativePath record hrecord hsynced
    have hspared : MigrationEngine.storesSynced (.state call) = false :=
      Bool.eq_false_of_not_eq_true fun hstores => hscanned (hspares hstores)
    cases answer with
    | error error => rwa [hstep.2.1.state_error] at hrecord
    | ok result => exact getFileState_of_call hspared hstep.2.1.state_ok hrecord hsynced
  cases e with
  | scan options root previousStates => exact h.scans hstep
  | state call =>
    cases call with
    | listFileStatesForRoot rootId =>
      cases answer with
      | error error => exact h.calls hstep.2.2 rfl (by simp) (hrows _ rfl)
      | ok states =>
        obtain ⟨rfl,hrepository⟩ := Prod.mk.inj (Except.ok.inj hstep.2.1.state_ok)
        exact h.lists hstep.2.2 hrepository.symm
    | _ => exact h.calls hstep.2.2 rfl (by simp) (hrows _ rfl)
  | _ => exact h.quiet hstep.2.2 rfl (by simp) (hstep.2.1.repository_eq (by simp))

end Steps

section Run

variable {ρ : Type} {env : Environment ρ}

/-- Programs whose every run keeps what the trace tells, up to where it is cut off. -/
abbrev KeepsLinked (env : Environment ρ) ⦃α : Type⦄ (p : Migrator α) : Prop :=
  Keeps (env.TraceStep fun _ _ _ => True) env.TraceDrift Linked Linked p

theorem ask_linked {e : Effect MigrationMemory} (he : MigrationEngine.storesSynced e = false) :
    KeepsLinked env (MigrationEngine.perform e) :=
  Keeps.perform stable_linked (fun _ h => h) fun _ _ _ h hstep =>
    h.step (fun hstores => by rw [he] at hstores; cases hstores) hstep

theorem storesSynced_of_isRoutine {e : Effect MigrationMemory}
    (he : MigrationEngine.isRoutine e = true) : MigrationEngine.storesSynced e = false := by
  cases e with
  | state call => cases call <;> first | rfl | cases he
  | _ => rfl

theorem running_linked : MigrationEngine.Running (KeepsLinked env) where
  toSequential := sequential_keeps fun _ h => h
  routine e he := ask_linked (storesSynced_of_isRoutine he)
  call he := by
    refine TryTriple.bind (ask_linked (storesSynced_of_isRoutine he)) fun answer => ?_
    cases answer with
    | ok result => exact TryTriple.pure fun _ h => h
    | error error => exact TryTriple.throw fun _ h => h
  update f _ := ask_linked rfl
  restart f _ := ask_linked rfl
  acquire owner staleAfter := by
    have hask : ∀ {e : Effect MigrationMemory}, MigrationEngine.storesSynced e = false →
        Keeps (env.TraceStep fun _ _ _ => True) env.TraceDrift Linked Linked
          (liftM (Prog.perform e) : Locking MigrationMemory e.Answer) := fun he =>
      Keeps.perform stable_linked (fun _ h => h) fun _ _ _ h hstep =>
        h.step (fun hstores => by rw [he] at hstores; cases hstores) hstep
    exact (RunLock.tryAcquireRunLock_of (sequential_keeps fun _ h => h) (hask rfl)
      (fun _ => hask rfl) fun _ _ => hask rfl).catch fun _ h => h

theorem sparing_linked : MigrationEngine.Sparing (KeepsLinked env) where
  toSequential := running_linked.toSequential
  sparing h := TryTriple.lift (h.triple stable_linked (fun _ h => h) fun e he _ _ _ hs hstep =>
    hs.step (fun hstores => by
      rw [MigrationEngine.storesSynced_of_isSparing he] at hstores
      cases hstores) hstep)
  update f _ := ask_linked rfl
  register := running_linked.register
  attempt h := h.catch fun _ h => h

/-- Once the rows to resume by are listed, no scan is left that they could be about. -/
def Settled (s : Traced ρ MigrationMemory) : Prop :=
  Linked s ∧ (scanLog s.trace).scanned = none

theorem stable_settled : Stable env.TraceDrift (Settled (ρ := ρ)) := by
  intro s s' h hdrift
  refine ⟨stable_linked s s' h.1 hdrift,?_⟩
  rcases hdrift.trace_eq with htrace | ⟨task,outcome,htrace⟩
  · rw [htrace]
    exact h.2
  · rw [htrace,scanLog_snoc]
    exact h.2

theorem Settled.step {s s' : Traced ρ MigrationMemory} (h : Settled s)
    {e : Effect MigrationMemory} {answer : e.Answer}
    (he : ∀ options root previousStates, e ≠ .scan options root previousStates)
    (hstep : env.TraceStep (fun _ _ _ => True) s e answer s') : Settled s' := by
  refine ⟨h.1.step (fun _ => h.2) hstep,?_⟩
  rw [hstep.2.2,scanLog_snoc]
  cases e with
  | scan options root previousStates => exact absurd rfl (he _ _ _)
  | state call =>
    cases call with
    | listFileStatesForRoot rootId => cases answer <;> first | rfl | exact h.2
    | _ => exact h.2
  | _ => exact h.2

theorem endRules_settled (runId : Int) (baseSummary : SyncRunSummary) :
    MigrationEngine.EndRules runId baseSummary env (fun _ _ _ => True) Linked Settled Settled := by
  have hkept : MigrationEngine.KeptPlain env (fun _ _ _ => True) Linked Settled := {
    stable := stable_settled
    cut := fun _ h => h.1
    keep := fun he h hstep => h.step (fun _ _ _ heq => by subst heq; cases he) hstep
    assign := fun _ h hstep => h.step (fun _ _ _ heq => by cases heq) hstep }
  refine { toKeptPlain := hkept, lost := hkept, ended := fun he _ => hkept.keep he, persist := ?_ }
  refine TryTriple.bind (hkept.ask rfl) fun memory => ?_
  refine TryTriple.bind (TryTriple.perform stable_settled (fun _ h => h.1) fun _ _ _ h hstep =>
    h.step (fun _ _ _ heq => by cases heq) hstep) fun answer => ?_
  cases answer with
  | ok result => exact TryTriple.pure fun _ h => h
  | error error => exact TryTriple.throw fun _ h => h

variable (ext : Externals) (config : AppConfig)

theorem applyAdoptOrUpload_linked (root : SyncRootConfig) (runId : Int)
    (baseSummary : SyncRunSummary) (availableRemoteBytes : Option Nat) :
    KeepsLinked env (MigrationEngine.applyAdoptOrUpload config root runId baseSummary
      availableRemoteBytes) := by
  have hlist : TryTriple (env.TraceStep fun _ _ _ => True) env.TraceDrift Linked
      (MigrationEngine.state (.listFileStatesForRoot root.id)) (fun _ => Settled) Linked Linked := by
    refine TryTriple.bind (Q := fun answer s => Linked s ∧ (answer.isOk = true → Settled s))
      (TryTriple.perform stable_linked (fun _ h => h) fun s answer s' h hstep => ?_) fun answer => ?_
    · have hnext := h.step (by simp [MigrationEngine.storesSynced]) hstep
      refine ⟨hnext,fun hok => ⟨hnext,?_⟩⟩
      rw [hstep.2.2,scanLog_snoc]
      cases answer with
      | ok states => rfl
      | error error => cases hok
    · cases answer with
      | ok states => exact TryTriple.pure fun _ h => h.2 rfl
      | error error => exact TryTriple.throw fun _ h => h.1
  have hrules : MigrationEngine.EndRules runId baseSummary env (fun _ _ _ => True) Linked Settled
      Settled := endRules_settled runId baseSummary
  refine TryTriple.bind hlist fun states => ?_
  refine TryTriple.weaken ?_ (fun _ h => h) (fun _ s (h : Settled s) => h.1) (fun s (h : Settled s) =>
    h.1) fun _ h => h
  have hcount : ∀ file isUpdate, MigrationEngine.Works env (fun _ _ _ => True) Linked Settled Settled
      (MigrationEngine.modifySummary (MigrationEngine.countUpload file isUpdate)) := fun _ _ =>
    TryTriple.perform stable_settled (fun _ h => h.1) fun _ _ _ h hstep =>
      h.step (fun _ _ _ heq => by cases heq) hstep
  exact hrules.reporting.bind hrules.livePlan fun plan =>
    hrules.adoptOrUploadEach config root (hrules.joinMigrationUploads root hcount) _
      availableRemoteBytes plan.files 0

theorem executeScanned_linked (root : SyncRootConfig) (runId : Int) (baseSummary : SyncRunSummary)
    (canonicalRemotePath : Str) (scanReport : ScanReport) (availableRemoteBytes : Option Nat)
    (forceRemoteRescan : Bool) :
    KeepsLinked env (MigrationEngine.executeScanned ext config root runId baseSummary
      canonicalRemotePath scanReport availableRemoteBytes forceRemoteRescan) := by
  have hsparing : MigrationEngine.Sparing (KeepsLinked env) := sparing_linked
  exact running_linked.executeScanned ext config hsparing.loadRemoteSets (fun _ _ => hsparing.state rfl)
    (fun root runId baseSummary scanReport sets available => running_linked.migrateRoot ext config
      (hsparing.recordRemoteResources config root sets) (hsparing.tryTopLevelMove root runId)
      (hsparing.applyMergeMoves ext config root runId baseSummary)
      (applyAdoptOrUpload_linked config root runId baseSummary available)
      (hsparing.applyDeletes root runId baseSummary) scanReport)
    root runId baseSummary canonicalRemotePath scanReport availableRemoteBytes forceRemoteRescan

end Run

end ResumeRun

/-- In every migration, up to where it is cut off, a file that is taken for synced by its stored
row would have matched in a comparison, whatever the remote file and the configuration. -/
theorem MigrationEngine.runOnce_resumesAgree {ρ : Type} (env : Environment ρ) (ext : Externals)
    (config : AppConfig) (options : MigrationRunOptions) {s s' : Traced ρ MigrationMemory}
    {result : Option (Except MigrationError MigrationRunReport)} (hstart : s.trace = [])
    (hrun : Exec (env.TraceStep fun _ _ _ => True) env.TraceDrift
      (MigrationEngine.runOnce ext config options).run s result s') :
    ResumeRun.ResumesAgree s'.trace := by
  have hkeeps : ResumeRun.KeepsLinked env (MigrationEngine.runOnce ext config options) :=
    ResumeRun.running_linked.runOnce ext config (fun h => h.catch fun _ h => h)
      (ResumeRun.sparing_linked.state rfl) (ResumeRun.executeScanned_linked ext config) options
  have hend := hkeeps s result s' (ResumeRun.Linked.start hstart) hrun
  match result with
  | none => exact hend.agree
  | some (.ok report) => exact hend.agree
  | some (.error error) => exact hend.agree

section Resumed

/-! One file whose row is stored with its digest. -/

private def syncedConfig : AppConfig :=
  { defaultConfig with
    roots := [{ id := "r".toList, name := "r".toList, enabled := true, localPath := "/r".toList }] }

private def syncedRow : FileStateRecord where
  rootId := "r".toList
  localPath := "/r/f".toList
  relativePath := "f".toList
  remotePath := "disk:/Backup/r/f".toList
  normalizedRemotePath := "disk:/backup/r/f".toList
  sizeBytes := 4
  mtimeNs := none
  ctimeNs := none
  fingerprintKind := "sha256".toList
  fingerprintValue := some "data".toList
  fullSha256 := some "data".toList
  remoteEtag := none
  remoteMd5 := some "ab12".toList
  lastRunId := none
  status := .synced
  lastError := none

private def syncedItems : List LocalItem :=
  [{ components := ["r".toList], fileType := .dir, sizeBytes_lt := emptySize_lt },
    { components := ["r".toList,"f".toList], fileType := .file, sizeBytes := 4
      sizeBytes_lt := wordSize_lt
      content := "data".toList }]

private def syncedStart : Traced RemoteDisk MigrationMemory where
  world := {
    disk := {
      items := syncedItems
      names_ne := by decide
      nodup := by decide
      closed := by decide +kernel }
    remote := { resources := Inventory.ofResources [.ofDirectory "disk:/Backup/r".toList,
      { ResourceMetadata.ofFile "disk:/Backup/r/f".toList 4 with md5 := some "AB12".toList }] }
    repository := ({} : Repository).upsertFileState syncedRow
    tasks := []
    cancelled := false
    now := 0
    memory := { report := { runId := 1 } } }

private def syncedEnvironment : Environment RemoteDisk :=
  mockEnvironment asciiExternals ⟨none,none⟩ fun _ _ => False

private def syncedOptions : MigrationEngine.MigrationRunOptions :=
  { lockOwner := "a".toList, staleLockAfter := 3600 }

private def syncedRun :
    Except MigrationError MigrationRunReport × Traced RemoteDisk MigrationMemory :=
  syncedStart.play { respond := mockResponder ⟨none,none⟩ } asciiExternals
    (MigrationEngine.runOnce asciiExternals syncedConfig syncedOptions).run

/-- The file is adopted by its row: no adoption is planned, and a comparison would agree. -/
theorem MigrationEngine.syncedFile_resumes :
    syncedRun.1.toOption.map (fun report =>
        (report.roots.map MigrationRootSummary.adoptedFiles,report.plan.length)) =
      some ([1],0) ∧ ResumeRun.ResumesAgree syncedRun.2.trace := by
  have hrun : Exec (syncedEnvironment.TraceStep fun _ _ _ => True) syncedEnvironment.TraceDrift
      (MigrationEngine.runOnce asciiExternals syncedConfig syncedOptions).run syncedStart
      (some syncedRun.1) syncedRun.2 := by
    refine Scenario.exec_play
      { admits := mockEnvironment_admits asciiExternals ⟨none,none⟩ fun _ _ => False
        cancels := fun _ _ hc => ?_ }
      (J := fun _ => True) (fun _ _ _ => trivial) (fun _ _ _ => trivial) _ trivial
    simp at hc
  exact ⟨by decide +kernel,MigrationEngine.runOnce_resumesAgree syncedEnvironment asciiExternals
    syncedConfig syncedOptions rfl hrun⟩

end Resumed

end YaDiskSync
