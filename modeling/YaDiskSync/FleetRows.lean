import YaDiskSync.Fleet

/-! The rows of the runs and of their operations, over all histories of a fleet. A run that died
leaves its rows open; the next run closes them before it begins, so that a row which is open while
a run is going on is its own. -/
namespace YaDiskSync

open Prog

/-- A run that nobody has finished. -/
def SyncRunRecord.IsOpen (row : SyncRunRecord) : Prop :=
  row.status = .running ∧ row.finished = false

/-- What a phase of a call says of the rows of the runs and of the operations. -/
def RunPhase.Rows (repository : Repository) : RunPhase → Prop
  | .repaired _ => (∀ row ∈ repository.syncRuns.rows, ¬ row.IsOpen) ∧
      ∀ row ∈ repository.operationJournal.rows, row.status ≠ .running
  | .begun _ runId started => (∃ row ∈ repository.syncRuns.rows, row.id = runId) ∧
      (∀ row ∈ repository.syncRuns.rows, row.IsOpen ↔ row.id = runId) ∧
      ∀ row ∈ repository.operationJournal.rows, row.status = .running → row.id ∈ started
  | _ => True

namespace Repository

variable {repository repository' : Repository}

/-- The repair leaves neither a run nor an operation open. -/
theorem repaired_rows (repository : Repository) :
    (∀ row ∈ repository.repairInterruptedRuns.syncRuns.rows, ¬ row.IsOpen) ∧
      ∀ row ∈ repository.repairInterruptedRuns.operationJournal.rows, row.status ≠ .running := by
  constructor
  · intro row hrow
    simp only [repairInterruptedRuns,Table.update,List.mem_map] at hrow
    obtain ⟨old,-,rfl⟩ := hrow
    by_cases hopen : old.status = .running ∧ old.finished = false
    · simp [hopen,SyncRunRecord.IsOpen]
    · simp [hopen,SyncRunRecord.IsOpen]
  · intro row hrow
    simp only [repairInterruptedRuns,Table.update,List.mem_map] at hrow
    obtain ⟨old,-,rfl⟩ := hrow
    by_cases hrunning : old.status = .running
    · simp [hrunning]
    · simp [hrunning]

/-- A run that begins when no other is open is the only one that is. -/
theorem begun_rows {trigger : SyncRunTrigger}
    (h : ∀ row ∈ repository.syncRuns.rows, ¬ row.IsOpen) :
    (∃ row ∈ (repository.beginRun trigger).2.syncRuns.rows,
        row.id = (repository.beginRun trigger).1) ∧
      ∀ row ∈ (repository.beginRun trigger).2.syncRuns.rows,
        row.IsOpen ↔ row.id = (repository.beginRun trigger).1 := by
  constructor
  · exact ⟨_,Table.mem_put.mpr (Or.inl rfl),rfl⟩
  · intro row hrow
    rcases Table.mem_put.mp hrow with rfl | ⟨hold,-⟩
    · exact ⟨fun _ => rfl,fun _ => ⟨rfl,rfl⟩⟩
    · refine ⟨fun hopen => absurd hopen (h row hold),fun hid => ?_⟩
      exact absurd hid (lt_nextId repository.syncRuns hold).ne

/-- Progress is written to the summary of a run only. -/
theorem progress_rows {id : Int} {summary : SyncRunSummary}
    (h : repository.updateRunProgress id summary = .ok repository') {row : SyncRunRecord} :
    row ∈ repository'.syncRuns.rows ↔ ∃ old ∈ repository.syncRuns.rows,
      row = if old.id = id then { old with summary } else old := by
  unfold updateRunProgress updateRun at h
  split at h
  · cases h
    simp [Table.update,eq_comm]
  · cases h

end Repository

namespace RunPhase

variable {repository repository' : Repository} {since runId : Int} {started : List Int}

theorem Rows.of_same {phase : RunPhase} (h : phase.Rows repository)
    (hruns : repository'.syncRuns = repository.syncRuns)
    (hjournal : repository'.operationJournal = repository.operationJournal) :
    phase.Rows repository' := by
  cases phase with
  | repaired since =>
    unfold Rows
    rw [hruns,hjournal]
    exact h
  | begun since runId started =>
    unfold Rows
    rw [hruns,hjournal]
    exact h
  | _ => trivial

theorem Rows.progress (h : (begun since runId started).Rows repository) {id : Int}
    {summary : SyncRunSummary} (hrun : repository.updateRunProgress id summary = .ok repository')
    (hjournal : repository'.operationJournal = repository.operationJournal) :
    (begun since runId started).Rows repository' := by
  have hsame : ∀ old : SyncRunRecord, ∀ row, row = (if old.id = id then { old with summary } else old) →
      row.id = old.id ∧ (row.IsOpen ↔ old.IsOpen) := by
    rintro old row rfl
    by_cases hid : old.id = id
    · rw [if_pos hid]
      exact ⟨rfl,Iff.rfl⟩
    · rw [if_neg hid]
      exact ⟨rfl,Iff.rfl⟩
  obtain ⟨⟨own,hown,hownId⟩,hopen,hrunning⟩ := h
  refine ⟨?_,fun row hrow => ?_,by rwa [hjournal]⟩
  · refine ⟨_,(Repository.progress_rows hrun).mpr ⟨own,hown,rfl⟩,?_⟩
    exact (hsame own _ rfl).1.trans hownId
  · obtain ⟨old,hold,hrow⟩ := (Repository.progress_rows hrun).mp hrow
    obtain ⟨hid,hiff⟩ := hsame old row hrow
    rw [hiff,hid]
    exact hopen old hold

theorem Rows.operationStarted (h : (begun since runId started).Rows repository) (record : OperationRecord) :
    (begun since runId ((repository.appendOperationStarted record).1 :: started)).Rows
      (repository.appendOperationStarted record).2 := by
  refine ⟨h.1,h.2.1,fun row hrow hrunning => ?_⟩
  rcases Repository.mem_appendOperation.mp hrow with rfl | hold
  · exact List.mem_cons_self
  · exact List.mem_cons_of_mem _ (h.2.2 row hold hrunning)

/-- Operations that are appended when they have succeeded are never running. -/
theorem Rows.succeeded (h : (begun since runId started).Rows repository)
    (records : List OperationRecord) :
    (begun since runId started).Rows (repository.appendOperationsSucceeded records) := by
  unfold Repository.appendOperationsSucceeded
  induction records generalizing repository with
  | nil => exact h
  | cons record records ih =>
    refine ih ⟨h.1,h.2.1,fun row hrow hrunning => ?_⟩
    rcases Repository.mem_appendOperation.mp hrow with rfl | hold
    · cases hrunning
    · exact h.2.2 row hold hrunning

theorem Rows.operationFinished (h : (begun since runId started).Rows repository) {id : Int}
    {status : OperationStatus} {errorKind errorMessage : Option Str} (hstatus : status ≠ .running)
    (hrun : repository.finishOperation id status errorKind errorMessage = .ok repository')
    (hruns : repository'.syncRuns = repository.syncRuns) :
    (begun since runId started).Rows repository' := by
  obtain ⟨hown,hopen,hrunning⟩ := h
  refine ⟨by rwa [hruns],by rwa [hruns],fun row hrow hrow' => ?_⟩
  obtain ⟨old,hold,hnew⟩ := (Repository.mem_finishOperation hrun).mp hrow
  by_cases hid : old.id = id
  · rw [if_pos hid] at hnew
    rw [hnew] at hrow'
    exact absurd hrow' hstatus
  · rw [if_neg hid] at hnew
    subst hnew
    exact hrunning row hold hrow'

section Ask

variable {ρ μ : Type} {env : Environment ρ} {w w' : World ρ μ} {owner : Str} {staleAfter : Int}

/-- What a statement of a run that goes on does to the rows. -/
theorem Rows.call (h : (begun since runId started).Rows repository) {call : StateCall}
    (hcall : call.bracketsRun = false) {result : call.Result}
    (hrun : call.run repository = .ok (result,repository')) :
    (nextBegun since runId started (.state call : Effect μ) (.ok result)).Rows repository' := by
  have hspares := StateCall.run_spares hrun
  have hleaves := StateCall.run_leaves hrun
  cases call with
  | updateRunProgress id summary =>
    exact h.progress (StateCall.unitResult_ok hrun) (hleaves.journal rfl)
  | appendOperationStarted record =>
    obtain ⟨rfl,rfl⟩ := Prod.mk.inj (Except.ok.inj hrun)
    exact h.operationStarted record
  | appendOperationsSucceeded records =>
    obtain ⟨-,rfl⟩ := Prod.mk.inj (Except.ok.inj hrun)
    exact h.succeeded records
  | finishOperation id status errorKind errorMessage =>
    have hstatus : status ≠ .running := by simpa [StateCall.bracketsRun] using hcall
    exact h.operationFinished hstatus (StateCall.unitResult_ok hrun) (hspares.runs rfl)
  | beginRun | finishRun | repairInterruptedRuns => cases hcall
  | insertRunLock | replaceStaleRunLock | heartbeatRunLock | releaseRunLock => cases hcall
  | _ => exact h.of_same (hspares.runs rfl) (hleaves.journal rfl)

/-- A statement of a run that goes on, whatever its answer. -/
theorem Rows.run (h : (begun since runId started).Rows w.repository) {e : Effect μ}
    {answer : e.Answer} (hallowed : runCommand runId e) (hstep : env.Perform w e answer w') :
    (nextBegun since runId started e answer).Rows w'.repository := by
  cases e with
  | state call =>
    cases answer with
    | error error =>
      have hsame : (begun since runId started).Rows w'.repository := by
        rwa [hstep.state_error]
      cases call with
      | finishRun => trivial
      | _ => exact hsame
    | ok result =>
      rcases runCommand_state hallowed with ⟨status,summary,rfl⟩ | hinner
      · trivial
      · exact h.call hinner hstep.state_ok
  | _ =>
    have hsame := hstep.repository_eq fun call he => by cases he
    exact h.of_same (congrArg Repository.syncRuns hsame)
      (congrArg Repository.operationJournal hsame)

/-- An allowed statement keeps what the phases say of the rows. -/
theorem Rows.ask {phase : RunPhase} (h : phase.Rows w.repository) {e : Effect μ}
    {answer : e.Answer} (hallowed : phase.allows owner staleAfter e)
    (hstep : env.Perform w e answer w') : (phase.next e answer).Rows w'.repository := by
  cases phase with
  | fresh => cases e <;> trivial
  | timed now =>
    obtain rfl : e = .state (.insertRunLock owner now) := hallowed
    rcases answer with error | inserted
    · trivial
    · cases inserted <;> trivial
  | refused now =>
    obtain rfl : e = .state (.replaceStaleRunLock owner now (now-staleAfter)) := hallowed
    rcases answer with error | replaced
    · trivial
    · cases replaced <;> trivial
  | locked since =>
    obtain rfl : e = .state .repairInterruptedRuns := hallowed
    cases answer with
    | error error => trivial
    | ok _ =>
      obtain ⟨-,hrepository⟩ := Prod.mk.inj (Except.ok.inj hstep.state_ok)
      rw [← hrepository]
      exact Repository.repaired_rows w.repository
  | repaired since =>
    obtain ⟨trigger,rfl⟩ := hallowed
    cases answer with
    | error error => trivial
    | ok runId =>
      obtain ⟨rfl,hrepository⟩ := Prod.mk.inj (Except.ok.inj hstep.state_ok)
      rw [← hrepository]
      obtain ⟨hown,hopen⟩ := Repository.begun_rows h.1
      exact ⟨hown,hopen,fun row hrow hrunning => absurd hrunning (h.2 row hrow)⟩
  | begun since runId started => exact Rows.run h hallowed hstep
  | finished since =>
    obtain rfl : e = .state (.releaseRunLock (runLockGuard owner)) := hallowed
    trivial
  | ended => exact hallowed.elim

/-- Before a call has the lock it changes neither the runs nor the operations. -/
theorem unheld_rows {phase : RunPhase} (hphase : phase.heldSince = none) {e : Effect μ}
    {answer : e.Answer} (hallowed : phase.allows owner staleAfter e)
    (hstep : env.Perform w e answer w') :
    w'.repository.syncRuns = w.repository.syncRuns ∧
      w'.repository.operationJournal = w.repository.operationJournal := by
  have hquiet : ∀ call, e = .state call → call.onRuns = false ∧ call.writesJournal = false := by
    rintro call rfl
    cases phase with
    | fresh => cases call <;> first | exact ⟨rfl,rfl⟩ | cases hallowed
    | timed now => cases hallowed; exact ⟨rfl,rfl⟩
    | refused now => cases hallowed; exact ⟨rfl,rfl⟩
    | ended => exact hallowed.elim
    | _ => cases hphase
  constructor
  · rcases hstep.repository_spares with hsame | ⟨call,hcall,hspares⟩
    · rw [hsame]
    · exact hspares.runs (hquiet call hcall).1
  · rcases hstep.repository_cases with hsame | ⟨call,hcall,hleaves⟩
    · rw [hsame]
    · exact hleaves.journal (hquiet call hcall).2

end Ask

end RunPhase

/-- What a step does to the rows, by the phases before and after it. -/
structure RowsEffect (repository repository' : Repository) (phase phase' : RunPhase) : Prop where
  own : phase.Rows repository → phase'.Rows repository'
  others : phase.heldSince = none → repository'.syncRuns = repository.syncRuns ∧
    repository'.operationJournal = repository.operationJournal

variable {ρ μ α ι : Type} {env : Environment ρ}

theorem EngineCall.Step.rows {owner : Str} {staleAfter : Int} {shared shared' : Shared ρ}
    {call call' : EngineCall μ α} {Q : α → RunPhase → Prop}
    (hstep : EngineCall.Step env shared call shared' call')
    (hcall : Follows (runProtocol μ owner staleAfter) Q call.rest call.phase) :
    RowsEffect shared.repository shared'.repository call.phase call'.phase := by
  cases hstep with
  | ask hrest h =>
    rw [hrest] at hcall
    have hallowed : call.phase.allows owner staleAfter _ := hcall.asked.1
    exact ⟨fun hrows => hrows.ask hallowed h,fun hheld => RunPhase.unheld_rows hheld hallowed h⟩
  | @drift w h =>
    have hsame : w.repository = shared.repository := by cases h <;> rfl
    refine ⟨fun hrows => ?_,fun _ => ?_⟩
    · exact hrows.of_same (congrArg Repository.syncRuns hsame)
        (congrArg Repository.operationJournal hsame)
    · exact ⟨congrArg Repository.syncRuns hsame,congrArg Repository.operationJournal hsame⟩

theorem Process.Step.rows {request : Request} {shared shared' : Shared ρ}
    {process process' : Process} (hstep : Process.Step env request shared process shared' process')
    (h : process.Keeps request) :
    RowsEffect shared.repository shared'.repository process.phase process'.phase := by
  cases hstep with
  | sync hcall => exact hcall.rows h
  | migration hcall => exact hcall.rows h
  | handOver => exact ⟨fun _ => trivial,fun _ => ⟨rfl,rfl⟩⟩
  | die => exact ⟨fun _ => trivial,fun _ => ⟨rfl,rfl⟩⟩

theorem RunPhase.Rows.of_unheld {phase : RunPhase} (h : phase.heldSince = none)
    (repository : Repository) : phase.Rows repository := by
  cases phase with
  | repaired since => cases h
  | begun since runId started => cases h
  | _ => trivial

namespace Fleet

variable [DecidableEq ι] {requests : ι → Request} {start s t : Fleet ι ρ}

/-- The rows are as the phase of every process says. -/
def Rows (s : Fleet ι ρ) : Prop := ∀ i, (s.process i).phase.Rows s.shared.repository

theorem Step.rows (hstep : Step env requests s t) (ho : s.Orderly requests)
    (hg : s.Guarded requests) (h : s.Rows) : t.Rows := by
  cases hstep with
  | outside hnow => exact h
  | @move i shared process hmove =>
    have heffect := hmove.rows (ho.keeps i)
    intro j
    by_cases hj : j = i
    · subst hj
      simpa using heffect.own (h j)
    · simp only [Function.update_of_ne hj]
      cases hheld : (s.process j).phase.heldSince with
      | none => exact RunPhase.Rows.of_unheld hheld _
      | some since =>
        have hidle : (s.process i).phase.heldSince = none := by
          by_contra hwork
          have hat : s.AtWork i := Option.isSome_iff_ne_none.mpr hwork
          exact hj (hg.exclusive j i (atWork_iff.mpr ⟨since,hheld⟩) hat)
        obtain ⟨hruns,hjournal⟩ := heffect.others hidle
        exact (h j).of_same hruns hjournal

theorem Reaches.rows (hrun : Reaches env requests start s) (ho : start.Orderly requests)
    (hg : start.Guarded requests) (h : start.Rows) :
    s.Rows ∨ Overtaken env requests start s := by
  induction hrun with
  | refl => exact Or.inl h
  | @tail s t hrun hstep ih =>
    rcases Reaches.guarded hrun ho hg with hguarded | hover
    · rcases ih with hrows | hover
      · exact Or.inl (hstep.rows (Reaches.orderly hrun ho) hguarded hrows)
      · exact Or.inr (hover.tail hstep)
    · exact Or.inr (hover.tail hstep)

end Fleet

/-- Whatever died before: while a run is going on, it is the only run whose row is open, and every
operation that is still marked as running is one that this run has started. A run that repairs
what it finds leaves nothing open. -/
theorem fleet_rows [DecidableEq ι] {requests : ι → Request} {start s : Fleet ι ρ}
    (hstart : start.Initial env.ext requests) (hrun : Fleet.Reaches env requests start s) :
    (∀ i since,
      (∀ runId started, (s.process i).phase = .begun since runId started →
        (∃ row ∈ s.shared.repository.syncRuns.rows, row.id = runId) ∧
        (∀ row ∈ s.shared.repository.syncRuns.rows, row.IsOpen ↔ row.id = runId) ∧
        ∀ row ∈ s.shared.repository.operationJournal.rows,
          row.status = .running → row.id ∈ started) ∧
      ((s.process i).phase = .repaired since →
        (∀ row ∈ s.shared.repository.syncRuns.rows, ¬ row.IsOpen) ∧
        ∀ row ∈ s.shared.repository.operationJournal.rows, row.status ≠ .running)) ∨
    Fleet.Overtaken env requests start s := by
  obtain ⟨horderly,hguarded⟩ := hstart.orderly
  have hfresh : start.Rows := by
    intro i
    rw [(hstart i).keeps.2]
    trivial
  rcases Fleet.Reaches.rows hrun horderly hguarded hfresh with hrows | hover
  · refine Or.inl fun i since => ⟨fun runId started hphase => ?_,fun hphase => ?_⟩
    · have h := hrows i
      rwa [hphase] at h
    · have h := hrows i
      rwa [hphase] at h
  · exact Or.inr hover

section Leftovers

private def leftConfig : AppConfig :=
  { defaultConfig with
    roots := [{ id := "r".toList, name := "r".toList, enabled := true, localPath := "/r".toList }] }

/-- A run died in an upload. -/
private def leftRepository : Repository :=
  ((({} : Repository).beginRun .cli).2.appendOperationStarted {
    runId := 1, operation := "upload".toList, localPath := none, remotePath := none }).2

private def leftEnvironment : Environment RemoteDisk :=
  mockEnvironment asciiExternals ⟨none,none⟩ fun _ _ => False

private def leftOptions : MigrationEngine.MigrationRunOptions :=
  { lockOwner := "a".toList, staleLockAfter := 3600 }

private def leftRequest (_ : Unit) : Request := .migration leftConfig leftOptions

private def leftStart : Fleet Unit RemoteDisk where
  shared := ⟨.empty,{},leftRepository,0⟩
  process _ := .migration {
    rest := (MigrationEngine.runOnce asciiExternals leftConfig leftOptions).run
    memory := { report := { runId := 0 } } }

private def leftBegun : Fleet Unit RemoteDisk :=
  leftStart.turn (mockResponder ⟨none,none⟩) asciiExternals () 4

/-- The next run is the only one that is open, and the operation of the dead one is closed. -/
theorem fleet_rows_leftovers : ∃ s, Fleet.Reaches leftEnvironment leftRequest leftStart s ∧
    (s.process ()).phase = .begun 0 2 [] ∧
    (∀ row ∈ s.shared.repository.syncRuns.rows, row.IsOpen ↔ row.id = 2) ∧
    (∀ row ∈ s.shared.repository.operationJournal.rows, row.status ≠ .running) ∧
    s.shared.repository.syncRuns.rows.length = 2 := by
  have hstart : leftStart.Initial leftEnvironment.ext leftRequest :=
    fun _ => .migration _ _ false _
  have hrun : Fleet.Reaches leftEnvironment leftRequest leftStart leftBegun :=
    Fleet.reaches_turn (mockEnvironment_admits asciiExternals ⟨none,none⟩ fun _ _ => False) () 4
      leftStart
  have hphase : (leftBegun.process ()).phase = .begun 0 2 [] := by decide +kernel
  rcases fleet_rows hstart hrun with hrows | ⟨_,_,_,_,_,_,_,_,hne,_⟩
  · obtain ⟨-,hopen,hrunning⟩ := (hrows () 0).1 2 [] hphase
    refine ⟨leftBegun,hrun,hphase,hopen,fun row hrow hr => ?_,by decide +kernel⟩
    cases hrunning row hrow hr
  · exact (hne rfl).elim

end Leftovers

end YaDiskSync
