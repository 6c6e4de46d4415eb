import YaDiskSync.SyncJournal
import YaDiskSync.MigrationJournal

/-! Journal completeness of both engines' runs. -/
namespace YaDiskSync

open Prog

section Complete

variable {ρ μ : Type}

/-- The entries of the journal. -/
def journalIds (s : Traced ρ μ) : List Int :=
  s.world.repository.operationJournal.rows.map OperationJournalRecord.id

/-- Before a run every entry is a known one. -/
theorem books_start {s : Traced ρ μ} (htrace : s.trace = []) : Books (journalIds s) [] s := by
  have hendings : endings s.trace = {} := by rw [htrace]; rfl
  refine ⟨List.nodup_nil,fun id hid => ?_,fun id hopened => ?_,fun _ hid => (nomatch hid),
    fun row hrow hnot _ => ?_⟩
  · obtain ⟨row,hrow,rfl⟩ := List.mem_map.mp hid
    exact ⟨row,hrow,rfl⟩
  · rw [hendings] at hopened
    cases hopened
  · exact absurd (List.mem_map_of_mem hrow) hnot

theorem working_start {waiting : μ → List Int} {kind : Task → Prop} {s : Traced ρ μ}
    (htrace : s.trace = []) (htasks : s.world.tasks = [])
    (hwaiting : waiting s.world.memory = []) :
    Working waiting (journalIds s) kind 0 none .idle s := by
  have hbooks := books_start htrace
  refine ⟨?_,fun _ _ he => (by cases he),?_,crew_nil htasks⟩
  · rw [hwaiting,show taskIds s = [] by simp [taskIds,htasks]]
    exact hbooks
  · rw [htrace]
    exact fun _ he => by cases he

end Complete

/-- Whatever run of an engine: if it is cut short only while no operation is open, waits for tasks
only while every open operation has one or waits for one, and joins none that has found the run
cancelled, then every entry it has made tells how its operation ended. -/
theorem runOnce_journalComplete {ρ : Type} (env : Environment ρ) (config : AppConfig) :
    (∀ (options : SyncEngine.SyncRunOptions) (s s' : Traced ρ SyncMemory)
      (result : Except SyncError SyncEngine.RunOnceResult),
      s.trace = [] → s.world.tasks = [] →
        Exec (env.TraceStep (EndsClosed SyncJournal.waiting)) env.TraceDrift
          (SyncEngine.runOnce env.ext config options).run s (some result) s' →
        JournalComplete (journalIds s) s') ∧
    ∀ (options : MigrationEngine.MigrationRunOptions) (s s' : Traced ρ MigrationMemory)
      (result : Except MigrationError MigrationRunReport),
      s.trace = [] → s.world.tasks = [] → s.world.memory.uploadBatch = [] →
        Exec (env.TraceStep (EndsClosed MigrationJournal.waiting)) env.TraceDrift
          (MigrationEngine.runOnce env.ext config options).run s (some result) s' →
        JournalComplete (journalIds s) s' := by
  refine ⟨fun options s s' result htrace htasks hrun => ?_,
    fun options s s' result htrace htasks hbatch hrun => ?_⟩
  · have hidle : SyncJournal.Idle (journalIds s) s := working_start htrace htasks rfl
    have hend := SyncJournal.runOnce_leads env.ext config options s (some result) s' hidle hrun
    cases result with
    | ok _ => exact hend.books.complete
    | error _ => exact hend.books.complete
  · have hidle : MigrationJournal.Idle (journalIds s) s := by
      refine ⟨working_start htrace htasks (by simp [MigrationJournal.waiting,hbatch]),?_⟩
      rintro _ ⟨⟩
      exact hbatch
    have hend := MigrationJournal.runOnce_leads env.ext config options s (some result) s' hidle hrun
    cases result with
    | ok _ => exact hend.books.complete
    | error _ => exact hend.books.complete

section Stopped

/-! Three files of one root. -/

variable {μ : Type}

private def journalConfig : AppConfig :=
  { defaultConfig with
    roots := [{ id := "r".toList, name := "r".toList, enabled := true, localPath := "/r".toList }] }

private def journalItems : List LocalItem :=
  [{ components := ["r".toList], fileType := .dir, sizeBytes_lt := emptySize_lt },
    { components := ["r".toList,"f".toList], fileType := .file, sizeBytes_lt := emptySize_lt },
    { components := ["r".toList,"g".toList], fileType := .file, sizeBytes_lt := emptySize_lt },
    { components := ["r".toList,"h".toList], fileType := .file, sizeBytes_lt := emptySize_lt }]

private def journalDisk : LocalTree where
  items := journalItems
  names_ne := by decide
  nodup := by decide
  closed := by decide +kernel

private def journalStart (memory : μ) : Traced RemoteDisk μ where
  world := {
    disk := journalDisk
    remote := { resources := Inventory.ofResources [.ofDirectory "disk:/Backup/r".toList] }
    repository := ({} : Repository).upsertDirectoryState {
      rootId := "r".toList, localPath := "/r".toList, relativePath := []
      remotePath := "disk:/Backup/r".toList, normalizedRemotePath := "disk:/backup/r".toList
      lastRunId := none, status := .synced, lastError := none }
    tasks := []
    cancelled := false
    now := 0
    memory }

private def journalScenario (script : ClientCall → Option YandexDiskError) :
    Scenario RemoteDisk μ :=
  { respond := (mockResponder ⟨none,none⟩).failing script }

private def journalEnvironment : Environment RemoteDisk :=
  failingEnvironment asciiExternals ⟨none,none⟩ fun _ _ => False

private def journalOptions : SyncEngine.SyncRunOptions :=
  { lockOwner := "a".toList, staleLockAfter := 3600 }

private theorem journalScenario_allowed (script : ClientCall → Option YandexDiskError) :
    (journalScenario script : Scenario RemoteDisk μ).Allowed journalEnvironment where
  admits := failingEnvironment_admits asciiExternals ⟨none,none⟩ (fun _ _ => False) script
  cancels _ _ hc := by simp [journalScenario] at hc

/-- The disk is full when the first file is uploaded. -/
private def quotaExceeded : ClientCall → Option YandexDiskError
  | .uploadSource path _ =>
    if path = "disk:/Backup/r/f".toList then
      some { kind := .quotaExceeded, message := "quota exceeded".toList }
    else none
  | _ => none

private def stoppedRun : Except SyncError SyncEngine.RunOnceResult × Traced RemoteDisk SyncMemory :=
  (journalStart { report := { runId := 1 } }).play (journalScenario quotaExceeded) asciiExternals
    (SyncEngine.runOnce asciiExternals journalConfig journalOptions).run

theorem stoppedUpload_leaves_running : ¬ ∀ (ext : Externals) (quota : QuotaInfo)
    (config : AppConfig) (options : SyncEngine.SyncRunOptions)
    (s s' : Traced RemoteDisk SyncMemory) (result : SyncEngine.RunOnceResult),
    s.trace = [] → s.world.tasks = [] →
      Exec ((failingEnvironment ext quota fun _ _ => False).TraceStep fun _ _ _ => True)
        (failingEnvironment ext quota fun _ _ => False).TraceDrift
        (SyncEngine.runOnce ext config options).run s (some (.ok result)) s' →
      JournalComplete (journalIds s) s' := by
  intro h
  have hrun : Exec (journalEnvironment.TraceStep fun _ _ _ => True) journalEnvironment.TraceDrift
      (SyncEngine.runOnce asciiExternals journalConfig journalOptions).run
      (journalStart { report := { runId := 1 } }) (some stoppedRun.1) stoppedRun.2 :=
    Scenario.exec_play (journalScenario_allowed quotaExceeded) (J := fun _ => True)
      (fun _ _ _ => trivial) (fun _ _ _ => trivial) _ trivial
  have hopen : ¬ JournalComplete [] stoppedRun.2 := by decide +kernel
  have hok : stoppedRun.1.isOk = true := by decide +kernel
  generalize stoppedRun.1 = answer at hrun hok
  cases answer with
  | error error => cases hok
  | ok result =>
    exact hopen (h asciiExternals ⟨none,none⟩ journalConfig journalOptions (journalStart _) _ result
      rfl rfl hrun)

private def closedCheck (waiting : μ → List Int) (s : Traced RemoteDisk μ) :
    (e : Effect μ) → e.Answer → Bool
  | .state _, .error _ => false
  | .state (.markFailed record), .ok _ => record.operation != "migration_quota_check".toList
  | .client (.download _), .error _ => false
  | .isCancelled, cancelled => !cancelled
  | .dropTasks, _ => false
  | .joinNext, joined => (s.world.repository.operationJournal.rows.all fun row =>
    !(endings s.trace).opened row.id || row.status != .running ||
      (taskIds s ++ waiting s.world.memory).contains row.id) &&
        joined.all fun outcome => !outcome.isCancelled
  | _, _ => true

private theorem endsClosed_of_check {waiting : μ → List Int} {s t : Traced RemoteDisk μ}
    {env : Environment RemoteDisk} {e : Effect μ} {answer : e.Answer}
    (h : closedCheck waiting s e answer = true)
    (hdrift : Relation.ReflTransGen env.TraceDrift s t) : EndsClosed waiting t e answer := by
  have hsame : t.world.repository = s.world.repository ∧ t.world.memory = s.world.memory ∧
      endings t.trace = endings s.trace ∧ taskIds t = taskIds s := by
    induction hdrift with
    | refl => exact ⟨rfl,rfl,rfl,rfl⟩
    | tail _ hlast ih =>
      exact ⟨hlast.repository_eq.trans ih.1,hlast.memory_eq.trans ih.2.1,
        (endings_drift hlast).trans ih.2.2.1,(Working.taskIds_drift hlast).trans ih.2.2.2⟩
  obtain ⟨hrepository,hmemory,hendings,hids⟩ := hsame
  cases e with
  | state call =>
    cases answer with
    | error error => cases call <;> cases h
    | ok result =>
      cases call with
      | markFailed record =>
        intro hquota
        simp [closedCheck,hquota] at h
      | _ => trivial
  | client call =>
    cases call with
    | download path =>
      cases answer with
      | error error => cases h
      | ok content => trivial
    | _ => trivial
  | isCancelled =>
    intro hcancelled
    rw [hcancelled] at h
    cases h
  | dropTasks => cases h
  | joinNext =>
    obtain ⟨hrows,hran⟩ := Bool.and_eq_true_iff.mp h
    refine ⟨fun row hrow hopened hrunning => ?_,fun outcome hjoined => ?_⟩
    · rw [hrepository] at hrow
      rw [hendings] at hopened
      rw [hids,hmemory]
      simpa [hopened,hrunning] using List.all_eq_true.mp hrows row hrow
    · simpa [hjoined] using hran
  | _ => trivial

/-- One upload fails, another one cannot read its file. -/
private def troubled : ClientCall → Option YandexDiskError
  | .uploadSource path _ =>
    if path = "disk:/Backup/r/f".toList then
      some { kind := .transient, message := "connection reset".toList }
    else if path = "disk:/Backup/r/g".toList then
      some { kind := .transient, message := "file is locked".toList
             apiCode := some "LocalUploadSourceUnavailable".toList }
    else none
  | _ => none

private def checkedRun {ε α : Type} (waiting : μ → List Int) (memory : μ)
    (p : ExceptT ε (Prog (Effect μ) Effect.Answer) α) :
    Option (Except ε α × Traced RemoteDisk μ) :=
  runChecked (fun s e => s.answer (journalScenario troubled) asciiExternals e)
    (closedCheck waiting) p.run (journalStart memory)

private theorem exec_checkedRun {ε α : Type} {waiting : μ → List Int} {memory : μ}
    {p : ExceptT ε (Prog (Effect μ) Effect.Answer) α} {result : Except ε α}
    {s : Traced RemoteDisk μ} (h : checkedRun waiting memory p = some (result,s)) :
    Exec (journalEnvironment.TraceStep (EndsClosed waiting)) journalEnvironment.TraceDrift p.run
      (journalStart memory) (some result) s :=
  Scenario.exec_checked (journalScenario_allowed troubled)
    (fun s e hc => endsClosed_of_check hc
      (Scenario.drift_settled (journalScenario_allowed troubled) s e)) h

private def statuses (s : Traced RemoteDisk μ) : List OperationStatus :=
  s.world.repository.operationJournal.rows.map OperationJournalRecord.status

/-- Three uploads by either engine: one fails, one is given up and one succeeds. -/
theorem uploads_journalComplete :
    (∃ result s, checkedRun SyncJournal.waiting { report := { runId := 1 } }
      (SyncEngine.runOnce asciiExternals journalConfig journalOptions) = some (result,s) ∧
        statuses s = [.failed,.cancelled,.succeeded] ∧ JournalComplete [] s) ∧
    ∃ result s, checkedRun MigrationJournal.waiting { report := { runId := 1 } }
      (MigrationEngine.runOnce asciiExternals journalConfig
        { lockOwner := "a".toList, staleLockAfter := 3600 }) = some (result,s) ∧
        statuses s = [.failed,.cancelled,.succeeded] ∧ JournalComplete [] s := by
  have hcomplete := runOnce_journalComplete journalEnvironment journalConfig
  have hsync : (checkedRun SyncJournal.waiting { report := { runId := 1 } }
    (SyncEngine.runOnce asciiExternals journalConfig journalOptions)).map
      (fun run => statuses run.2) = some [.failed,.cancelled,.succeeded] := by decide +kernel
  have hmigration : (checkedRun MigrationJournal.waiting { report := { runId := 1 } }
    (MigrationEngine.runOnce asciiExternals journalConfig
      { lockOwner := "a".toList, staleLockAfter := 3600 })).map
      (fun run => statuses run.2) = some [.failed,.cancelled,.succeeded] := by decide +kernel
  obtain ⟨⟨result,s⟩,hrun,hstatuses⟩ := Option.map_eq_some_iff.mp hsync
  obtain ⟨⟨result',s'⟩,hrun',hstatuses'⟩ := Option.map_eq_some_iff.mp hmigration
  exact ⟨⟨result,s,hrun,hstatuses,hcomplete.1 _ _ _ _ rfl rfl (exec_checkedRun hrun)⟩,
    ⟨result',s',hrun',hstatuses',hcomplete.2 _ _ _ _ rfl rfl rfl (exec_checkedRun hrun')⟩⟩

end Stopped

end YaDiskSync
