import YaDiskSync.LockProtocol
import YaDiskSync.LockedRun
import YaDiskSync.MigrationInner
import YaDiskSync.SyncInner
import YaDiskSync.Typestate

/-! The protocol of one call of `run_once`: what it may ask before it has the run lock, while it
has the lock, and at its end. Both engines keep to it. -/
namespace YaDiskSync

open Prog

/-- How far a call is, by its own statements and their answers. Times are in seconds. -/
inductive RunPhase
  | fresh
  /-- the clock has been read, the row of the lock is to be inserted -/
  | timed (now : Int)
  /-- there was a row already -/
  | refused (now : Int)
  | locked (since : Int)
  | repaired (since : Int)
  /-- the run is begun; `started` are the operations it started so far -/
  | begun (since runId : Int) (started : List Int)
  | finished (since : Int)
  | ended
  deriving DecidableEq

namespace RunPhase

/-- The time of the lock, from a successful acquisition to the statement of the release. -/
def heldSince : RunPhase → Option Int
  | .locked since | .repaired since | .begun since _ _ | .finished since => some since
  | _ => none

/-- The reading of the clock that an acquisition goes by. -/
def acquiringAt : RunPhase → Option Int
  | .timed now | .refused now => some now
  | _ => none

def afterInsert (now : Int) : Except StateError Bool → RunPhase
  | .ok true => .locked now
  | .ok false => .refused now
  | .error _ => .ended

def afterReplace (now : Int) : Except StateError Bool → RunPhase
  | .ok true => .locked now
  | _ => .ended

def afterRepair (since : Int) : Except StateError Unit → RunPhase
  | .ok _ => .repaired since
  | .error _ => .ended

def afterBegin (since : Int) : Except StateError Int → RunPhase
  | .ok runId => .begun since runId []
  | .error _ => .ended

variable {μ : Type}

def nextFresh : (e : Effect μ) → e.Answer → RunPhase
  | .now, time => .timed time
  | _, _ => .fresh

def nextBegun (since runId : Int) (started : List Int) : (e : Effect μ) → e.Answer → RunPhase
  | .state (.appendOperationStarted _), .ok id => .begun since runId (id :: started)
  | .state (.finishRun ..), _ => .finished since
  | _, _ => .begun since runId started

def next : RunPhase → (e : Effect μ) → e.Answer → RunPhase
  | .fresh, e, answer => nextFresh e answer
  | .timed now, .state (.insertRunLock ..), answer => afterInsert now answer
  | .refused now, .state (.replaceStaleRunLock ..), answer => afterReplace now answer
  | .locked since, .state .repairInterruptedRuns, answer => afterRepair since answer
  | .repaired since, .state (.beginRun _), answer => afterBegin since answer
  | .begun since runId started, e, answer => nextBegun since runId started e answer
  | _, _, _ => .ended

/-- Looks for a reason to migrate, and the reading of the clock. -/
def entryCommand : Effect μ → Prop
  | .isDir _ | .now | .state (.hasSnapshotForRoot _) => True
  | _ => False

/-- The end of the run itself, or anything that neither begins nor ends a run nor makes an
operation run again. -/
def runCommand (runId : Int) : Effect μ → Prop
  | .state (.finishRun id ..) => id = runId
  | e => e.bracketsRun = false

def allows (owner : Str) (staleAfter : Int) : RunPhase → Effect μ → Prop
  | .fresh, e => entryCommand e
  | .timed now, e => e = .state (.insertRunLock owner now)
  | .refused now, e => e = .state (.replaceStaleRunLock owner now (now-staleAfter))
  | .locked _, e => e = .state .repairInterruptedRuns
  | .repaired _, e => ∃ trigger, e = .state (.beginRun trigger)
  | .begun _ runId _, e => runCommand runId e
  | .finished _, e => e = .state (.releaseRunLock (runLockGuard owner))
  | .ended, _ => False

end RunPhase

def runProtocol (μ : Type) (owner : Str) (staleAfter : Int) :
    Protocol (Effect μ) Effect.Answer RunPhase where
  allows := RunPhase.allows owner staleAfter
  next := RunPhase.next

namespace RunPhase

variable {μ ε ε' α : Type} {owner : Str} {staleAfter : Int} {phase : RunPhase}

/-- The run is begun and goes on. -/
def Begun (since runId : Int) (phase : RunPhase) : Prop :=
  ∃ started, phase = .begun since runId started

/-- A call that has stopped or not started does not have the lock. -/
def Unlocked (phase : RunPhase) : Prop := phase.heldSince = none

theorem runCommand_inner {runId : Int} {e : Effect μ} (h : e.bracketsRun = false) :
    runCommand runId e := by
  cases e with
  | state call => cases call <;> first | exact h | cases h
  | _ => exact h

theorem runCommand_state {runId : Int} {call : StateCall}
    (h : runCommand runId (.state call : Effect μ)) :
    (∃ status summary, call = .finishRun runId status summary) ∨ call.bracketsRun = false := by
  cases call with
  | finishRun id status summary =>
    obtain rfl : id = runId := h
    exact Or.inl ⟨status,summary,rfl⟩
  | _ => exact Or.inr h

theorem nextBegun_inner {since runId : Int} {started : List Int} {e : Effect μ}
    (answer : e.Answer) (h : e.bracketsRun = false) :
    Begun since runId (nextBegun since runId started e answer) := by
  cases e with
  | state call =>
    cases call with
    | appendOperationStarted record => cases answer <;> exact ⟨_,rfl⟩
    | finishRun => cases h
    | _ => exact ⟨_,rfl⟩
  | _ => exact ⟨_,rfl⟩

/-- The lock is held until its release is asked for. -/
theorem nextBegun_held (since runId : Int) (started : List Int) {e : Effect μ}
    (answer : e.Answer) : (nextBegun since runId started e answer).heldSince = some since ∧
      (nextBegun since runId started e answer).acquiringAt = none := by
  cases e with
  | state call =>
    cases call with
    | appendOperationStarted record => cases answer <;> exact ⟨rfl,rfl⟩
    | _ => exact ⟨rfl,rfl⟩
  | _ => exact ⟨rfl,rfl⟩

/-- What lies between the beginning and the end of a run is allowed there. -/
theorem begun_of_inner {since runId : Int} {p : ExceptT ε (Prog (Effect μ) Effect.Answer) α}
    (hp : Inner p) (hphase : Begun since runId phase) :
    Follows (runProtocol μ owner staleAfter) (fun _ => Begun since runId) p.run phase := by
  apply Only.follows hp
  · rintro phase e ⟨started,rfl⟩ he
    exact runCommand_inner he
  · rintro phase e answer ⟨started,rfl⟩ he
    exact nextBegun_inner answer he
  · exact hphase

/-- A statement whose error ends the acquisition. -/
theorem lock_state_follows {call : StateCall} {Q : call.Result → RunPhase → Prop}
    {D : RunPhase → Prop} (hallowed : allows owner staleAfter phase (.state call : Effect μ))
    (hok : ∀ result, Q result (next phase (.state call : Effect μ) (.ok result)))
    (herror : ∀ error, D (next phase (.state call : Effect μ) (.error error))) :
    TryFollows (runProtocol μ owner staleAfter) Q D (RunLock.state (μ := μ) call) phase := by
  refine TryFollows.bind (Q := fun answer last => last = next phase (.state call : Effect μ) answer)
    (TryFollows.perform hallowed fun _ => rfl) fun answer last hlast => ?_
  subst hlast
  cases answer with
  | ok result => exact TryFollows.pure (hok result)
  | error error => exact TryFollows.throw (herror error)

/-- An acquisition ends with the lock, or with nothing. -/
theorem tryAcquireRunLock_follows (owner : Str) (staleAfter : Int) :
    Follows (runProtocol μ owner staleAfter) (fun result phase => match result with
      | .ok (some guard) => guard = runLockGuard owner ∧ ∃ since, phase = .locked since
      | _ => phase.Unlocked)
      (RunLock.tryAcquireRunLock owner staleAfter : Locking μ (Option RunLockGuard)).run
      .fresh := by
  have hall : TryFollows (runProtocol μ owner staleAfter) (fun found phase => match found with
        | some guard => guard = runLockGuard owner ∧ ∃ since, phase = .locked since
        | none => phase.Unlocked) Unlocked
      (RunLock.tryAcquireRunLock owner staleAfter : Locking μ (Option RunLockGuard)) .fresh := by
    refine TryFollows.bind (Q := fun now phase => phase = .timed now)
      (TryFollows.perform trivial fun _ => rfl) fun now phase hphase => ?_
    subst hphase
    refine TryFollows.bind (Q := fun inserted phase => phase = afterInsert now (.ok inserted))
      (lock_state_follows rfl (fun _ => rfl) fun _ => rfl) fun inserted phase hphase => ?_
    subst hphase
    cases inserted with
    | true => exact TryFollows.pure ⟨rfl,now,rfl⟩
    | false =>
      refine TryFollows.bind (Q := fun replaced phase => phase = afterReplace now (.ok replaced))
        (lock_state_follows rfl (fun _ => rfl) fun _ => rfl) fun replaced phase hphase => ?_
      subst hphase
      cases replaced with
      | true => exact TryFollows.pure ⟨rfl,now,rfl⟩
      | false => exact TryFollows.pure rfl
  refine Follows.mono hall fun result phase h => ?_
  cases result with
  | ok found => cases found <;> exact h
  | error error => exact h

end RunPhase

namespace LockedRun

open RunPhase

variable {μ ε ρ : Type} (run : LockedRun μ ε ρ) {owner : Str} {staleAfter : Int} {phase : RunPhase}

theorem state_follows {call : StateCall} {Q : call.Result → RunPhase → Prop} {D : RunPhase → Prop}
    (hallowed : allows owner staleAfter phase (.state call : Effect μ))
    (hok : ∀ result, Q result (next phase (.state call : Effect μ) (.ok result)))
    (herror : ∀ error, D (next phase (.state call : Effect μ) (.error error))) :
    TryFollows (runProtocol μ owner staleAfter) Q D (run.state call) phase := by
  refine TryFollows.bind (Q := fun answer last => last = next phase (.state call : Effect μ) answer)
    (TryFollows.perform hallowed fun _ => rfl) fun answer last hlast => ?_
  subst hlast
  cases answer with
  | ok result => exact TryFollows.pure (hok result)
  | error error => exact TryFollows.throw (herror error)

theorem perform_begun {since runId : Int} {D : RunPhase → Prop} {e : Effect μ}
    (he : e.bracketsRun = false) (hphase : Begun since runId phase) :
    TryFollows (runProtocol μ owner staleAfter) (fun _ => Begun since runId) D (run.perform e)
      phase :=
  TryFollows.lift (begun_of_inner
    (p := (liftM (Prog.perform e) : ExceptT ε (Prog (Effect μ) Effect.Answer) e.Answer))
    (Inner.perform he) hphase)

theorem conclude_follows (execution : Except ε Unit) {since runId : Int}
    (hphase : Begun since runId phase) :
    TryFollows (runProtocol μ owner staleAfter) (fun _ => Begun since runId) Unlocked
      (run.conclude execution) phase := by
  cases execution with
  | error error => exact run.perform_begun rfl hphase
  | ok _ =>
    refine TryFollows.bind (run.perform_begun rfl hphase) fun cancelled phase hphase => ?_
    exact iteInduction (motive := fun p => TryFollows _ _ _ p phase)
      (fun _ => run.perform_begun rfl hphase) fun _ => run.perform_begun rfl hphase

theorem close_follows {since runId : Int} (hphase : Begun since runId phase) :
    TryFollows (runProtocol μ owner staleAfter) (fun _ => Unlocked) Unlocked
      (run.close runId (runLockGuard owner)) phase := by
  obtain ⟨started,rfl⟩ := hphase
  refine TryFollows.bind (Q := fun _ phase => phase = .begun since runId started)
    (TryFollows.perform rfl fun _ => rfl) fun memory phase hphase => ?_
  subst hphase
  refine TryFollows.bind (Q := fun _ phase => phase = .finished since)
    (TryFollows.perform rfl fun _ => rfl) fun finished phase hphase => ?_
  subst hphase
  refine TryFollows.bind (Q := fun _ phase => phase = .ended)
    (TryFollows.perform rfl fun _ => rfl) fun released phase hphase => ?_
  subst hphase
  cases finished with
  | error error => exact TryFollows.throw rfl
  | ok _ =>
    cases released with
    | error error => exact TryFollows.throw rfl
    | ok _ => exact TryFollows.pure rfl

/-- A run with the lock keeps to the protocol if its execution neither begins nor ends a run. -/
theorem program_follows (hexecute : ∀ runId, Inner (run.execute runId)) (since : Int) :
    TryFollows (runProtocol μ owner staleAfter) (fun _ => Unlocked) Unlocked
      (run.program (runLockGuard owner)) (.locked since) := by
  refine TryFollows.bind (Q := fun _ phase => phase = .repaired since)
    (run.state_follows rfl (fun _ => rfl) fun _ => rfl) fun _ phase hphase => ?_
  subst hphase
  refine TryFollows.bind (Q := fun runId phase => phase = .begun since runId [])
    (run.state_follows ⟨run.trigger,rfl⟩ (fun _ => rfl) fun _ => rfl) fun runId phase hphase => ?_
  subst hphase
  have hbegun : Begun since runId (.begun since runId []) := ⟨[],rfl⟩
  refine TryFollows.bind (run.perform_begun rfl hbegun) fun _ phase hphase => ?_
  refine TryFollows.bind (TryFollows.lift (begun_of_inner (hexecute runId) hphase))
    fun execution phase hphase => ?_
  refine TryFollows.bind (run.conclude_follows execution hphase) fun _ phase hphase => ?_
  exact run.close_follows hphase

end LockedRun

namespace SyncEngine

open RunPhase

variable {config : AppConfig} {owner : Str} {staleAfter : Int}

theorem runLocked_follows (ext : Externals) (config : AppConfig) (trigger : SyncRunTrigger)
    (forceRemoteRescan : Bool) (since : Int) :
    TryFollows (runProtocol SyncMemory owner staleAfter) (fun _ => Unlocked) Unlocked
      (runLocked ext config trigger forceRemoteRescan (runLockGuard owner)) (.locked since) := by
  rw [runLocked_eq]
  exact LockedRun.program_follows _ (fun runId => executeRun_inner runId _) since

theorem snapshot_follows (root : SyncRootConfig) :
    TryFollows (runProtocol SyncMemory owner staleAfter) (fun _ phase => phase = .fresh) Unlocked
      (state (.hasSnapshotForRoot root.id)) .fresh := by
  refine TryFollows.bind (Q := fun _ phase => phase = .fresh)
    (TryFollows.perform trivial fun _ => rfl) fun answer phase hphase => ?_
  subst hphase
  cases answer with
  | ok found => exact TryFollows.pure rfl
  | error error => exact TryFollows.throw rfl

/-- A call leaves the search for a reason to migrate where it began. -/
theorem wantsMigration_follows (config : AppConfig) (trigger : SyncRunTrigger) :
    TryFollows (runProtocol SyncMemory owner staleAfter) (fun _ phase => phase = .fresh) Unlocked
      (wantsMigration config trigger) .fresh := by
  have hany : ∀ roots, TryFollows (runProtocol SyncMemory owner staleAfter)
      (fun _ phase => phase = .fresh) Unlocked (shouldMigrateAny roots) .fresh := by
    intro roots
    induction roots with
    | nil => exact TryFollows.pure rfl
    | cons root roots ih =>
      refine TryFollows.bind (Q := fun _ phase => phase = .fresh)
        (TryFollows.perform trivial fun _ => rfl) fun isDir phase hphase => ?_
      subst hphase
      refine iteInduction (motive := fun p => TryFollows _ _ _ p RunPhase.fresh) (fun _ => ?_) fun _ => ih
      refine TryFollows.bind (Q := fun _ phase => phase = .fresh)
        (snapshot_follows root) fun snapshot phase hphase => ?_
      subst hphase
      exact iteInduction (motive := fun p => TryFollows _ _ _ p RunPhase.fresh) (fun _ => ih)
        fun _ => TryFollows.pure rfl
  unfold wantsMigration
  exact iteInduction (motive := fun p => TryFollows _ _ _ p RunPhase.fresh)
    (fun _ => TryFollows.pure rfl) fun _ => hany (enabledRoots config)

section Whole

attribute [local irreducible] Follows

/-- A sync call keeps to the protocol, and hands the run over before it has taken the lock. -/
theorem runOnce_follows (ext : Externals) (config : AppConfig) (options : SyncRunOptions) :
    TryFollows (runProtocol SyncMemory options.lockOwner options.staleLockAfter)
      (fun result phase => phase.Unlocked ∧ (result = .migrate → phase = .fresh)) Unlocked
      (runOnce ext config options) .fresh := by
  have hvalid : TryFollows (runProtocol SyncMemory options.lockOwner options.staleLockAfter)
      (fun _ phase => phase = .fresh) Unlocked (ensureValidConfig ext config) .fresh := by
    unfold ensureValidConfig
    generalize (validateConfig ext config).isValid = valid
    cases valid with
    | true => exact TryFollows.pure rfl
    | false => exact TryFollows.throw rfl
  refine TryFollows.bind hvalid fun _ phase hphase => ?_
  subst hphase
  refine TryFollows.bind (wantsMigration_follows config options.trigger) fun migrate phase hphase => ?_
  subst hphase
  refine iteInduction (motive := fun p => TryFollows _ _ _ p RunPhase.fresh)
    (fun _ => TryFollows.pure ⟨rfl,fun _ => rfl⟩) fun _ => ?_
  refine TryFollows.bind (TryFollows.lift (tryAcquireRunLock_follows _ _))
    fun acquired phase hphase => ?_
  cases acquired with
  | error error => exact TryFollows.throw hphase
  | ok found =>
    cases found with
    | none => exact TryFollows.throw hphase
    | some guard =>
      obtain ⟨rfl,since,rfl⟩ := hphase
      refine TryFollows.bind (runLocked_follows ext config options.trigger
        options.forceRemoteRescan since) fun report phase hphase => ?_
      exact TryFollows.pure ⟨hphase,fun h => by cases h⟩

end Whole

end SyncEngine

namespace MigrationEngine

open RunPhase

theorem runLocked_follows (ext : Externals) (config : AppConfig) (forceRemoteRescan : Bool)
    {owner : Str} {staleAfter : Int} (since : Int) :
    TryFollows (runProtocol MigrationMemory owner staleAfter) (fun _ => Unlocked) Unlocked
      (runLocked ext config forceRemoteRescan (runLockGuard owner)) (.locked since) := by
  rw [runLocked_eq]
  exact LockedRun.program_follows _ (fun runId => executeRun_inner runId _) since

section Whole

attribute [local irreducible] Follows

/-- A migration call keeps to the protocol. -/
theorem runOnce_follows (ext : Externals) (config : AppConfig) (options : MigrationRunOptions) :
    TryFollows (runProtocol MigrationMemory options.lockOwner options.staleLockAfter)
      (fun _ => Unlocked) Unlocked (runOnce ext config options) .fresh := by
  have hvalid : TryFollows (runProtocol MigrationMemory options.lockOwner options.staleLockAfter)
      (fun _ phase => phase = .fresh) Unlocked (ensureValidConfig ext config) .fresh := by
    unfold ensureValidConfig
    generalize (validateConfig ext config).isValid = valid
    cases valid with
    | true => exact TryFollows.pure rfl
    | false => exact TryFollows.throw rfl
  refine TryFollows.bind hvalid fun _ phase hphase => ?_
  subst hphase
  refine TryFollows.bind (TryFollows.lift (tryAcquireRunLock_follows _ _))
    fun acquired phase hphase => ?_
  cases acquired with
  | error error => exact TryFollows.throw hphase
  | ok found =>
    cases found with
    | none => exact TryFollows.throw hphase
    | some guard =>
      obtain ⟨rfl,since,rfl⟩ := hphase
      exact runLocked_follows ext config options.forceRemoteRescan since

end Whole

end MigrationEngine

end YaDiskSync
