import YaDiskSync.LockedRun
import YaDiskSync.MigrationFrame
import YaDiskSync.StateFrame
import YaDiskSync.Trace

/-! The run lock is given back by every run that gets as far as beginning. -/
namespace YaDiskSync

open Prog

variable {ρ μ : Type}

/-- The statement that took the run lock. -/
def takesLock : Happening μ → Bool
  | .step (.state (.insertRunLock ..)) (.ok inserted) => inserted
  | .step (.state (.replaceStaleRunLock ..)) (.ok replaced) => replaced
  | _ => false

/-- The statement that found the lock taken and not stale. -/
def refusesLock : Happening μ → Bool
  | .step (.state (.replaceStaleRunLock ..)) (.ok replaced) => !replaced
  | _ => false

/-- No row of the run lock is the owner's. -/
def LockReleased (owner : Str) (s : Traced ρ μ) : Prop :=
  ∀ lock ∈ s.world.repository.stateLocks.rows,
    ¬ (lock.name = Repository.runLockName ∧ lock.owner = owner)

instance (owner : Str) (s : Traced ρ μ) : Decidable (LockReleased owner s) :=
  inferInstanceAs (Decidable (∀ lock ∈ s.world.repository.stateLocks.rows, _))

/-- The lock is given back if it has been taken. -/
def LockGivenBack (owner : Str) (s : Traced ρ μ) : Prop :=
  s.trace.any takesLock = true → LockReleased owner s

instance (owner : Str) (s : Traced ρ μ) : Decidable (LockGivenBack owner s) :=
  inferInstanceAs (Decidable (_ → _))

/-- The release statement itself works. -/
def ReleaseWorks (_ : Traced ρ μ) : (e : Effect μ) → e.Answer → Prop
  | .state (.releaseRunLock _), .error _ => False
  | _, _ => True

/-- The release works, and the run gets begun. -/
def RunBegins (s : Traced ρ μ) : (e : Effect μ) → e.Answer → Prop
  | .state .repairInterruptedRuns, .error _ => False
  | .state (.beginRun _), .error _ => False
  | e, answer => ReleaseWorks s e answer

namespace LockRelease

variable {env : Environment ρ} {owner : Str} {s s' : Traced ρ μ}
  {allowed : Traced ρ μ → (e : Effect μ) → e.Answer → Prop}

abbrev Step (env : Environment ρ) (s : Traced ρ μ) (e : Effect μ) (answer : e.Answer)
    (s' : Traced ρ μ) : Prop :=
  env.TraceStep RunBegins s e answer s'

/-- The lock has not been taken. -/
def Untaken (s : Traced ρ μ) : Prop := s.trace.any takesLock = false

theorem stable_untaken : Stable env.TraceDrift (@Untaken ρ μ) := by
  intro s s' h hdrift
  rcases hdrift.trace_eq with ht | ⟨task,outcome,ht⟩
  · unfold Untaken
    rw [ht]
    exact h
  · unfold Untaken
    rw [ht,List.any_append,show s.trace.any takesLock = false from h]
    rfl

theorem Untaken.step (h : Untaken s) {e : Effect μ} {answer : e.Answer}
    (he : takesLock (.step e answer) = false) (hstep : env.TraceStep allowed s e answer s') :
    Untaken s' := by
  unfold Untaken
  rw [hstep.2.2,List.any_append,show s.trace.any takesLock = false from h]
  simpa using he

theorem Untaken.givenBack (h : Untaken s) : LockGivenBack owner s := by
  intro ht
  rw [show s.trace.any takesLock = false from h] at ht
  cases ht

section Acquire

variable {α : Type}

/-- What is left of a lock that could not be had, and the guard of one that could. -/
def Acquired (owner : Str) : Except StateError (Option RunLockGuard) → Traced ρ μ → Prop
  | .ok (some guard), _ => guard = { name := Repository.runLockName, owner }
  | .ok none, s => Untaken s ∧ s.trace.any refusesLock = true
  | .error _, s => Untaken s

theorem state_acquires {call : StateCall} {Q : call.Result → Traced ρ μ → Prop}
    (hok : ∀ s result s', Untaken s → env.TraceStep allowed s (.state call) (.ok result) s' →
      Q result s')
    (herror : ∀ error, takesLock (.step (.state call) (.error error) : Happening μ) = false) :
    TryTriple (env.TraceStep allowed) env.TraceDrift Untaken (RunLock.state (μ := μ) call) Q
      Untaken fun _ => True := by
  refine TryTriple.bind (Q := After Q fun _ => Untaken)
    (TryTriple.perform stable_untaken (fun _ _ => trivial) fun s answer s' h hstep => ?_)
    fun answer => ?_
  · cases answer with
    | ok result => exact hok s result s' h hstep
    | error error => exact h.step (herror error) hstep
  · cases answer with
    | ok result => exact TryTriple.pure fun _ h => h
    | error error => exact TryTriple.throw fun _ h => h

theorem tryAcquireRunLock_acquires (owner : Str) (staleAfter : Int) :
    Triple (env.TraceStep allowed) env.TraceDrift Untaken
      (RunLock.tryAcquireRunLock owner staleAfter : Locking μ (Option RunLockGuard)).run
      (Acquired owner) fun _ => True := by
  have hguard : ∀ (flag : Bool) (P : Traced ρ μ → Prop) (rest : Locking μ (Option RunLockGuard)),
      TryTriple (env.TraceStep allowed) env.TraceDrift P rest
        (fun found => Acquired owner (.ok found)) Untaken (fun _ => True) →
      TryTriple (env.TraceStep allowed) env.TraceDrift (fun s => flag = true ∨ P s)
        (if flag = true then pure (some { name := Repository.runLockName, owner }) else rest)
        (fun found => Acquired owner (.ok found)) Untaken fun _ => True := by
    intro flag P rest hrest
    refine iteInduction (motive := fun p => TryTriple _ _ _ p _ _ _)
      (fun _ => TryTriple.pure fun _ _ => rfl) fun hflag => ?_
    exact hrest.pre fun s h => h.resolve_left hflag
  have hall : TryTriple (env.TraceStep allowed) env.TraceDrift Untaken
      (RunLock.tryAcquireRunLock owner staleAfter : Locking μ (Option RunLockGuard))
      (fun found => Acquired owner (.ok found)) Untaken fun _ => True := by
    refine TryTriple.bind (Q := fun _ => Untaken)
      (TryTriple.perform stable_untaken (fun _ _ => trivial) fun _ _ _ h hstep =>
        h.step rfl hstep) fun now => ?_
    refine TryTriple.bind (state_acquires (Q := fun inserted s => inserted = true ∨ Untaken s)
      (fun s inserted s' h hstep => ?_) fun _ => rfl) fun inserted => hguard inserted _ _ ?_
    · cases inserted with
      | true => exact Or.inl rfl
      | false => exact Or.inr (h.step rfl hstep)
    refine TryTriple.bind (state_acquires (Q := fun replaced s => replaced = true ∨
        Untaken s ∧ s.trace.any refusesLock = true)
      (fun s replaced s' h hstep => ?_) fun _ => rfl) fun replaced => hguard replaced _ _ ?_
    · cases replaced with
      | true => exact Or.inl rfl
      | false =>
        refine Or.inr ⟨h.step rfl hstep,?_⟩
        rw [hstep.2.2,List.any_append,Bool.or_eq_true]
        exact Or.inr rfl
    exact TryTriple.pure fun _ h => h
  refine Triple.post hall fun answer s h => ?_
  cases answer with
  | ok found => exact h
  | error error => exact h

end Acquire

/-- The release deletes the row of the guard. -/
theorem released_of_step {answer : Except StateError Bool}
    (hstep : Step env s (.state (.releaseRunLock { name := Repository.runLockName, owner }))
      answer s') : LockReleased owner s' := by
  cases answer with
  | error error => exact hstep.1.elim
  | ok held =>
    have hrepository : s'.world.repository =
        (s.world.repository.releaseRunLock { name := Repository.runLockName, owner }).2 :=
      (Prod.mk.inj (Except.ok.inj hstep.2.1.state_ok)).2.symm
    intro lock hlock
    rw [hrepository] at hlock
    have hkept := (List.mem_filter.mp hlock).2
    intro hrow
    simp [hrow] at hkept

theorem perform_any {ε : Type} {e : Effect μ} {P D : Traced ρ μ → Prop} :
    TryTriple (Step env) env.TraceDrift P
      (liftM (Prog.perform e) : ExceptT ε (Prog (Effect μ) Effect.Answer) e.Answer)
      (fun _ _ => True) D fun _ => True := by
  have hany : TryTriple (Step env) env.TraceDrift (fun _ : Traced ρ μ => True)
      (liftM (Prog.perform e) : ExceptT ε (Prog (Effect μ) Effect.Answer) e.Answer)
      (fun _ _ => True) D fun _ => True :=
    TryTriple.perform (fun _ _ _ _ => trivial) (fun _ _ => trivial) fun _ _ _ _ _ => trivial
  exact hany.pre fun _ _ => trivial

theorem catch_any {ε ε' α : Type} {p : ExceptT ε' (Prog (Effect μ) Effect.Answer) α}
    {P D : Traced ρ μ → Prop} :
    TryTriple (Step env) env.TraceDrift P
      (liftM p.run : ExceptT ε (Prog (Effect μ) Effect.Answer) (Except ε' α)) (fun _ _ => True) D
      fun _ => True := by
  refine TryTriple.lift fun s o s' _ _ => ?_
  cases o <;> trivial

/-- The statement that gives the lock back. -/
abbrev release (μ : Type) (owner : Str) : Effect μ :=
  .state (.releaseRunLock { name := Repository.runLockName, owner })

theorem release_leads {ε : Type} {P D : Traced ρ μ → Prop} :
    TryTriple (Step env) env.TraceDrift P
      (liftM (Prog.perform (release μ owner)) :
        ExceptT ε (Prog (Effect μ) Effect.Answer) (release μ owner).Answer)
      (fun _ => LockReleased owner) D fun _ => True := by
  have hany : TryTriple (Step env) env.TraceDrift (fun _ : Traced ρ μ => True)
      (liftM (Prog.perform (release μ owner)) :
        ExceptT ε (Prog (Effect μ) Effect.Answer) (release μ owner).Answer)
      (fun _ => LockReleased owner) D fun _ => True :=
    TryTriple.perform (fun _ _ _ _ => trivial) (fun _ _ => trivial) fun _ _ _ _ hstep =>
      released_of_step hstep
  exact hany.pre fun _ _ => trivial

theorem state_begins {ε α : Type} (run : LockedRun μ ε α) {call : StateCall}
    (hcall : ∀ (s : Traced ρ μ) error, ¬ RunBegins s (.state call) (.error error)) :
    TryTriple (Step env) env.TraceDrift (fun _ => True) (run.state call) (fun _ _ => True)
      (LockGivenBack owner) fun _ => True := by
  have hanswer : TryTriple (Step env) env.TraceDrift (fun _ => True) (run.perform (.state call))
      (fun answer _ => answer.isOk = true) (LockGivenBack owner) fun _ => True := by
    refine TryTriple.perform (fun _ _ _ _ => trivial) (fun _ _ => trivial) fun s answer s' _ hstep => ?_
    cases answer with
    | ok result => rfl
    | error error => exact absurd hstep.1 (hcall s error)
  refine TryTriple.bind hanswer fun answer => ?_
  cases answer with
  | ok result => exact TryTriple.pure fun _ _ => trivial
  | error error => exact TryTriple.throw fun _ h => nomatch h

/-- A run that gets as far as beginning gives the lock back, whatever it comes to. -/
theorem program_givesBack {ε α : Type} (run : LockedRun μ ε α) :
    TryTriple (Step env) env.TraceDrift (fun _ => True)
      (run.program { name := Repository.runLockName, owner })
      (fun _ => LockGivenBack owner) (LockGivenBack owner) fun _ => True := by
  refine TryTriple.bind (state_begins run fun _ _ h => h) fun _ => ?_
  refine TryTriple.bind (state_begins run fun _ _ h => h) fun runId => ?_
  refine TryTriple.bind perform_any fun _ => TryTriple.bind catch_any fun execution => ?_
  have hconclude : TryTriple (Step env) env.TraceDrift (fun _ => True) (run.conclude execution)
      (fun _ _ => True) (LockGivenBack owner) fun _ => True := by
    cases execution with
    | error error => exact perform_any
    | ok _ =>
      refine TryTriple.bind perform_any fun cancelled => ?_
      exact iteInduction (motive := fun p => TryTriple _ _ _ p _ _ _) (fun _ => perform_any)
        fun _ => perform_any
  refine TryTriple.bind hconclude fun _ => TryTriple.bind perform_any fun memory => ?_
  refine TryTriple.bind perform_any fun finished => TryTriple.bind release_leads fun released => ?_
  cases finished with
  | error error => exact TryTriple.throw fun _ h _ => h
  | ok _ =>
    cases released with
    | error error => exact TryTriple.throw fun _ h _ => h
    | ok _ => exact TryTriple.pure fun _ h _ => h

/-- Before the lock is asked for. -/
theorem wantsMigration_untaken {allowed : Traced ρ SyncMemory → (e : Effect SyncMemory) → e.Answer → Prop}
    (config : AppConfig) (trigger : SyncRunTrigger) :
    TryTriple (env.TraceStep allowed) env.TraceDrift Untaken (SyncEngine.wantsMigration config trigger)
      (fun _ => Untaken) Untaken fun _ => True := by
  have hany : ∀ roots, TryTriple (env.TraceStep allowed) env.TraceDrift Untaken
      (SyncEngine.shouldMigrateAny roots) (fun _ => Untaken) Untaken fun _ => True := by
    intro roots
    induction roots with
    | nil => exact TryTriple.pure fun _ h => h
    | cons root roots ih =>
      have hdir : TryTriple (env.TraceStep allowed) env.TraceDrift Untaken
          (SyncEngine.perform (.isDir (pathComponents root.localPath))) (fun _ => Untaken) Untaken
          fun _ => True :=
        TryTriple.perform stable_untaken (fun _ _ => trivial) fun _ _ _ h hstep => h.step rfl hstep
      refine TryTriple.bind hdir fun isDir => ?_
      refine iteInduction (motive := fun p => TryTriple _ _ _ p _ _ _) (fun _ => ?_) fun _ => ih
      have hsnapshot : TryTriple (env.TraceStep allowed) env.TraceDrift Untaken
          (SyncEngine.state (.hasSnapshotForRoot root.id)) (fun _ => Untaken) Untaken
          fun _ => True :=
        SyncEngine.state_leads stable_untaken (fun _ _ _ h hstep => h.step rfl hstep)
          fun _ _ _ h hstep => h.step rfl hstep
      refine TryTriple.bind hsnapshot fun snapshot => ?_
      exact iteInduction (motive := fun p => TryTriple _ _ _ p _ _ _) (fun _ => ih)
        fun _ => TryTriple.pure fun _ h => h
  have hauto : TryTriple (env.TraceStep allowed) env.TraceDrift Untaken (SyncEngine.shouldAutoMigrate config)
      (fun _ => Untaken) Untaken fun _ => True := hany (SyncEngine.enabledRoots config)
  unfold SyncEngine.wantsMigration
  exact iteInduction (motive := fun p => TryTriple _ _ _ p _ _ _)
    (fun _ => TryTriple.pure fun _ h => h) fun _ => hauto

theorem syncRunOnce_givesBack (ext : Externals) (config : AppConfig)
    (options : SyncEngine.SyncRunOptions) :
    TryTriple (Step env) env.TraceDrift Untaken (SyncEngine.runOnce ext config options)
      (fun _ => LockGivenBack options.lockOwner) (LockGivenBack options.lockOwner)
      fun _ => True := by
  have hvalid : TryTriple (Step env) env.TraceDrift Untaken
      (SyncEngine.ensureValidConfig ext config) (fun _ => Untaken)
      (LockGivenBack options.lockOwner) fun _ => True := by
    unfold SyncEngine.ensureValidConfig
    generalize (validateConfig ext config).isValid = valid
    cases valid with
    | true => exact TryTriple.pure fun _ h => h
    | false => exact TryTriple.throw fun _ h => h.givenBack
  have hmigrate : TryTriple (Step env) env.TraceDrift Untaken
      (SyncEngine.wantsMigration config options.trigger) (fun _ => Untaken)
      (LockGivenBack options.lockOwner) fun _ => True :=
    (wantsMigration_untaken config options.trigger).weaken (fun _ h => h) (fun _ _ h => h)
      (fun _ h => h.givenBack) fun _ h => h
  refine TryTriple.bind hvalid fun _ => TryTriple.bind hmigrate fun migrate => ?_
  refine iteInduction (motive := fun p => TryTriple _ _ _ p _ _ _)
    (fun _ => TryTriple.pure fun _ h => h.givenBack) fun _ => ?_
  refine TryTriple.bind (TryTriple.lift (tryAcquireRunLock_acquires _ _)) fun acquired => ?_
  match acquired with
  | .error error => exact TryTriple.throw fun _ h => Untaken.givenBack h
  | .ok none => exact TryTriple.throw fun _ h => h.1.givenBack
  | .ok (some guard) =>
    refine TryTriple.of_pure (fun _ h => h) fun hguard => ?_
    have howner : guard = { name := Repository.runLockName, owner := options.lockOwner } := hguard
    have hlocked : TryTriple (Step env) env.TraceDrift (fun _ => True)
        (SyncEngine.runLocked ext config options.trigger options.forceRemoteRescan
          { name := Repository.runLockName, owner := options.lockOwner })
        (fun _ => LockGivenBack options.lockOwner) (LockGivenBack options.lockOwner)
        fun _ => True := by
      rw [SyncEngine.runLocked_eq]
      exact program_givesBack _
    rw [howner]
    exact TryTriple.bind (hlocked.pre fun _ _ => trivial) fun report => TryTriple.pure fun _ h => h


theorem migrationRunOnce_givesBack (ext : Externals) (config : AppConfig)
    (options : MigrationEngine.MigrationRunOptions) :
    TryTriple (Step env) env.TraceDrift Untaken (MigrationEngine.runOnce ext config options)
      (fun _ => LockGivenBack options.lockOwner) (LockGivenBack options.lockOwner)
      fun _ => True := by
  have hvalid : TryTriple (Step env) env.TraceDrift Untaken
      (MigrationEngine.ensureValidConfig ext config) (fun _ => Untaken)
      (LockGivenBack options.lockOwner) fun _ => True := by
    unfold MigrationEngine.ensureValidConfig
    generalize (validateConfig ext config).isValid = valid
    cases valid with
    | true => exact TryTriple.pure fun _ h => h
    | false => exact TryTriple.throw fun _ h => h.givenBack
  refine TryTriple.bind hvalid fun _ => ?_
  refine TryTriple.bind (TryTriple.lift (tryAcquireRunLock_acquires _ _)) fun acquired => ?_
  match acquired with
  | .error error => exact TryTriple.throw fun _ h => Untaken.givenBack h
  | .ok none => exact TryTriple.throw fun _ h => h.1.givenBack
  | .ok (some guard) =>
    refine TryTriple.of_pure (fun _ h => h) fun hguard => ?_
    have howner : guard = { name := Repository.runLockName, owner := options.lockOwner } := hguard
    have hlocked : TryTriple (Step env) env.TraceDrift (fun _ => True)
        (MigrationEngine.runLocked ext config options.forceRemoteRescan
          { name := Repository.runLockName, owner := options.lockOwner })
        (fun _ => LockGivenBack options.lockOwner) (LockGivenBack options.lockOwner)
        fun _ => True := by
      rw [MigrationEngine.runLocked_eq]
      exact program_givesBack _
    rw [howner]
    exact hlocked.pre fun _ _ => trivial

end LockRelease

/-- A run of either engine that takes the lock has given it back at its end, whatever its phases
came to, if the repair and the beginning of the run have worked and the release does. -/
theorem runOnce_lockGivenBack {ρ : Type} (env : Environment ρ) (config : AppConfig) :
    (∀ (options : SyncEngine.SyncRunOptions) (s s' : Traced ρ SyncMemory)
      (result : Except SyncError SyncEngine.RunOnceResult), s.trace = [] →
        Exec (env.TraceStep RunBegins) env.TraceDrift
          (SyncEngine.runOnce env.ext config options).run s (some result) s' →
        LockGivenBack options.lockOwner s') ∧
    ∀ (options : MigrationEngine.MigrationRunOptions) (s s' : Traced ρ MigrationMemory)
      (result : Except MigrationError MigrationRunReport), s.trace = [] →
        Exec (env.TraceStep RunBegins) env.TraceDrift
          (MigrationEngine.runOnce env.ext config options).run s (some result) s' →
        LockGivenBack options.lockOwner s' := by
  refine ⟨fun options s s' result htrace hrun => ?_,fun options s s' result htrace hrun => ?_⟩
  · have huntaken : LockRelease.Untaken s := by rw [LockRelease.Untaken,htrace]; rfl
    have hend := LockRelease.syncRunOnce_givesBack env.ext config options s (some result) s'
      huntaken hrun
    match result with
    | .ok _ => exact hend
    | .error _ => exact hend
  · have huntaken : LockRelease.Untaken s := by rw [LockRelease.Untaken,htrace]; rfl
    have hend := LockRelease.migrationRunOnce_givesBack env.ext config options s (some result) s'
      huntaken hrun
    match result with
    | .ok _ => exact hend
    | .error _ => exact hend

section Leaked

/-! Runs over a root that is not there. -/

private def idleConfig : AppConfig :=
  { defaultConfig with
    roots := [{ id := "r".toList, name := "r".toList, enabled := true, localPath := "/r".toList }] }

private def idleStart (memory : μ) : Traced RemoteDisk μ where
  world := {
    disk := .empty
    remote := {}, repository := {}, tasks := [], cancelled := false, now := 0, memory }

private def idleScenario : Scenario RemoteDisk μ := { respond := mockResponder ⟨none,none⟩ }

private def idleEnvironment : Environment RemoteDisk :=
  { mockEnvironment asciiExternals ⟨none,none⟩ fun _ _ => False with stateFails := True }

private theorem idleScenario_allowed :
    (idleScenario : Scenario RemoteDisk μ).Allowed idleEnvironment where
  admits := ⟨fun _ _ _ => rfl,rfl,fun _ => rfl⟩
  cancels _ _ hc := by simp [idleScenario] at hc

private def idleOptions : MigrationEngine.MigrationRunOptions :=
  { lockOwner := "a".toList, staleLockAfter := 3600 }

/-- The repair of interrupted runs finds the database busy. -/
private def repairBusy : StateCall → Option StateError
  | .repairInterruptedRuns => some (.sqlite "database is locked".toList)
  | _ => none

private def leakedRun : Except MigrationError MigrationRunReport × Traced RemoteDisk MigrationMemory :=
  (idleStart { report := { runId := 1 } }).playFailing repairBusy idleScenario asciiExternals
    (MigrationEngine.runOnce asciiExternals idleConfig idleOptions).run

private theorem leaked_releaseWorks (s : Traced RemoteDisk MigrationMemory)
    (e : Effect MigrationMemory) : ReleaseWorks (s.settled idleScenario e) e
      (s.failingAnswer repairBusy idleScenario asciiExternals e).1 := by
  cases e with
  | state call => cases call <;> trivial
  | _ => trivial

theorem failedRepair_leaks_lock : ¬ ∀ (env : Environment RemoteDisk) (config : AppConfig)
    (options : MigrationEngine.MigrationRunOptions) (s s' : Traced RemoteDisk MigrationMemory)
    (result : Except MigrationError MigrationRunReport), s.trace = [] →
      Exec (env.TraceStep ReleaseWorks) env.TraceDrift
        (MigrationEngine.runOnce env.ext config options).run s (some result) s' →
      LockGivenBack options.lockOwner s' := by
  intro h
  have hrun : Exec (idleEnvironment.TraceStep ReleaseWorks) idleEnvironment.TraceDrift
      (MigrationEngine.runOnce asciiExternals idleConfig idleOptions).run
      (idleStart { report := { runId := 1 } }) (some leakedRun.1) leakedRun.2 :=
    Scenario.exec_playFailing idleScenario_allowed trivial leaked_releaseWorks _ _
  have hheld : ¬ LockGivenBack idleOptions.lockOwner leakedRun.2 := by decide +kernel
  exact hheld (h idleEnvironment idleConfig idleOptions _ _ _ rfl hrun)

private def beginsCheck (_ : Traced RemoteDisk μ) : (e : Effect μ) → e.Answer → Bool
  | .state _, answer => answer.isOk
  | _, _ => true

private theorem runBegins_of_check {s t : Traced RemoteDisk μ} {e : Effect μ} {answer : e.Answer}
    (h : beginsCheck s e answer = true) : RunBegins t e answer := by
  cases e with
  | state call =>
    cases answer with
    | ok result => cases call <;> trivial
    | error error => cases h
  | _ => trivial

private def begunRun {ε α : Type} (memory : μ) (p : ExceptT ε (Prog (Effect μ) Effect.Answer) α) :
    Option (Except ε α × Traced RemoteDisk μ) :=
  runChecked (fun s e => s.answer idleScenario asciiExternals e) beginsCheck p.run
    (idleStart memory)

private theorem exec_begunRun {ε α : Type} {memory : μ}
    {p : ExceptT ε (Prog (Effect μ) Effect.Answer) α} {result : Except ε α}
    {s : Traced RemoteDisk μ} (h : begunRun memory p = some (result,s)) :
    Exec (idleEnvironment.TraceStep RunBegins) idleEnvironment.TraceDrift p.run (idleStart memory)
      (some result) s :=
  Scenario.exec_checked idleScenario_allowed (fun _ _ hc => runBegins_of_check hc) h

/-- Both engines, with a database that works. -/
theorem idleRuns_give_back :
    (∃ result s, begunRun { report := { runId := 1 } }
      (SyncEngine.runOnce asciiExternals idleConfig
        { lockOwner := "a".toList, staleLockAfter := 3600 }) = some (result,s) ∧
        s.trace.any takesLock = true ∧ LockGivenBack "a".toList s) ∧
    ∃ result s, begunRun { report := { runId := 1 } }
      (MigrationEngine.runOnce asciiExternals idleConfig idleOptions) = some (result,s) ∧
        s.trace.any takesLock = true ∧ LockGivenBack "a".toList s := by
  have hback := runOnce_lockGivenBack idleEnvironment idleConfig
  have hsync : (begunRun { report := { runId := 1 } } (SyncEngine.runOnce asciiExternals idleConfig
      { lockOwner := "a".toList, staleLockAfter := 3600 })).any
        (fun run => run.2.trace.any takesLock) = true := by decide +kernel
  have hmigration : (begunRun { report := { runId := 1 } }
      (MigrationEngine.runOnce asciiExternals idleConfig idleOptions)).any
        (fun run => run.2.trace.any takesLock) = true := by decide +kernel
  obtain ⟨⟨result,s⟩,hrun,htakes⟩ := (Option.any_eq_true ..).mp hsync
  obtain ⟨⟨result',s'⟩,hrun',htakes'⟩ := (Option.any_eq_true ..).mp hmigration
  exact ⟨⟨result,s,hrun,htakes,hback.1 _ _ _ _ rfl (exec_begunRun hrun)⟩,
    ⟨result',s',hrun',htakes',hback.2 _ _ _ _ rfl (exec_begunRun hrun')⟩⟩

end Leaked

end YaDiskSync
