import Mathlib.Logic.Function.Basic
import YaDiskSync.MockClient
import YaDiskSync.RunPhase
import YaDiskSync.RunTables

/-! Any number of calls of `run_once` on one state database. Every statement of a call is a step of
its own, the steps of different calls mix in any order, and a process may die before any of them. -/
namespace YaDiskSync

open Prog

/-- A call in flight: the rest of its program, and what no other process sees. -/
structure EngineCall (μ α : Type) where
  rest : Prog (Effect μ) Effect.Answer α
  phase : RunPhase := .fresh
  tasks : List RunningTask := []
  cancelled : Bool := false
  memory : μ

/-- What all processes see. -/
structure Shared (ρ : Type) where
  disk : LocalTree
  remote : ρ
  repository : Repository
  /-- in seconds -/
  now : Int

/-- The row of the lock as an acquisition writes it. -/
def heldLockRow (owner : Str) (since : Int) : StateLock :=
  { name := Repository.runLockName, owner, heartbeatUnixSeconds := since }

variable {ρ μ α ι : Type}

namespace Shared

def world (shared : Shared ρ) (call : EngineCall μ α) : World ρ μ where
  disk := shared.disk
  remote := shared.remote
  repository := shared.repository
  tasks := call.tasks
  cancelled := call.cancelled
  now := shared.now
  memory := call.memory

def after (w : World ρ μ) : Shared ρ := ⟨w.disk,w.remote,w.repository,w.now⟩

def lockRow (shared : Shared ρ) : Option StateLock :=
  shared.repository.stateLocks.find Repository.runLockName

end Shared

namespace EngineCall

def after (call : EngineCall μ α) (w : World ρ μ) : EngineCall μ α :=
  { call with tasks := w.tasks, cancelled := w.cancelled, memory := w.memory }

/-- A statement of the call with its answer, or what happens around it. -/
inductive Step (env : Environment ρ) :
    Shared ρ → EngineCall μ α → Shared ρ → EngineCall μ α → Prop
  | ask {shared : Shared ρ} {call : EngineCall μ α} {e : Effect μ}
      {k : e.Answer → Prog (Effect μ) Effect.Answer α} {answer : e.Answer} {w : World ρ μ}
      (hrest : call.rest = .ask e k) (h : env.Perform (shared.world call) e answer w) :
      Step env shared call (.after w)
        { call.after w with rest := k answer, phase := call.phase.next e answer }
  | drift {shared : Shared ρ} {call : EngineCall μ α} {w : World ρ μ}
      (h : env.Drift (shared.world call) w) : Step env shared call (.after w) (call.after w)

end EngineCall

/-- A call of an engine, with all it is given. -/
inductive Request
  | sync (config : AppConfig) (options : SyncEngine.SyncRunOptions)
  | migration (config : AppConfig) (options : MigrationEngine.MigrationRunOptions)

namespace Request

def lockOwner : Request → Str
  | .sync _ options => options.lockOwner
  | .migration _ options => options.lockOwner

def staleLockAfter : Request → Int
  | .sync _ options => options.staleLockAfter
  | .migration _ options => options.staleLockAfter

end Request

/-- What a sync call hands to the migration engine. -/
def SyncEngine.SyncRunOptions.handedOver (options : SyncEngine.SyncRunOptions) :
    MigrationEngine.MigrationRunOptions where
  lockOwner := options.lockOwner
  staleLockAfter := options.staleLockAfter
  forceRemoteRescan := options.forceRemoteRescan

/-- The process of a call. A sync call may become a migration; a process that died is gone. -/
inductive Process
  | sync (call : EngineCall SyncMemory (Except SyncError SyncEngine.RunOnceResult))
  | migration (call : EngineCall MigrationMemory (Except MigrationError MigrationRunReport))
  | gone

namespace Process

def phase : Process → RunPhase
  | .sync call => call.phase
  | .migration call => call.phase
  | .gone => .ended

/-- Between the acquisition of the lock and the statement that releases it. -/
def AtWork (process : Process) : Prop := process.phase.heldSince.isSome

/-- The next command is none of those that look for a reason to migrate or take the lock. -/
def AsksWork : Process → Prop
  | .sync call => ∃ e k, call.rest = .ask e k ∧ ¬ RunPhase.entryCommand e ∧
      ∀ owner now staleBefore, e ≠ .state (.insertRunLock owner now) ∧
        e ≠ .state (.replaceStaleRunLock owner now staleBefore)
  | .migration call => ∃ e k, call.rest = .ask e k ∧ ¬ RunPhase.entryCommand e ∧
      ∀ owner now staleBefore, e ≠ .state (.insertRunLock owner now) ∧
        e ≠ .state (.replaceStaleRunLock owner now staleBefore)
  | .gone => False

/-- The process of a call before its first statement. -/
inductive Starts (ext : Externals) : Request → Process → Prop
  | sync (config : AppConfig) (options : SyncEngine.SyncRunOptions) (cancelled : Bool)
      (memory : SyncMemory) : Starts ext (.sync config options)
        (.sync { rest := (SyncEngine.runOnce ext config options).run, cancelled, memory })
  | migration (config : AppConfig) (options : MigrationEngine.MigrationRunOptions)
      (cancelled : Bool) (memory : MigrationMemory) : Starts ext (.migration config options)
        (.migration { rest := (MigrationEngine.runOnce ext config options).run, cancelled, memory })

inductive Step (env : Environment ρ) : Request → Shared ρ → Process → Shared ρ → Process → Prop
  | sync {request : Request} {shared shared' : Shared ρ}
      {call call' : EngineCall SyncMemory (Except SyncError SyncEngine.RunOnceResult)}
      (h : call.Step env shared shared' call') :
      Step env request shared (.sync call) shared' (.sync call')
  | migration {request : Request} {shared shared' : Shared ρ}
      {call call' : EngineCall MigrationMemory (Except MigrationError MigrationRunReport)}
      (h : call.Step env shared shared' call') :
      Step env request shared (.migration call) shared' (.migration call')
  | handOver {config : AppConfig} {options : SyncEngine.SyncRunOptions} {shared : Shared ρ}
      {call : EngineCall SyncMemory (Except SyncError SyncEngine.RunOnceResult)}
      (h : call.rest = .ret (.ok .migrate)) (memory : MigrationMemory) :
      Step env (.sync config options) shared (.sync call) shared (.migration {
        rest := (MigrationEngine.runOnce env.ext config options.handedOver).run
        cancelled := call.cancelled, memory })
  | die {request : Request} {shared : Shared ρ} {process : Process} :
      Step env request shared process shared .gone

end Process

structure Fleet (ι ρ : Type) where
  shared : Shared ρ
  process : ι → Process

namespace Fleet

variable [DecidableEq ι]

inductive Step (env : Environment ρ) (requests : ι → Request) : Fleet ι ρ → Fleet ι ρ → Prop
  | move {s : Fleet ι ρ} (i : ι) {shared : Shared ρ} {process : Process}
      (h : (s.process i).Step env (requests i) s.shared shared process) :
      Step env requests s { shared, process := Function.update s.process i process }
  /-- The clock, the disk and the remote, on which requests of dead processes may still land. -/
  | outside {s : Fleet ι ρ} {disk : LocalTree} {remote : ρ} {now : Int} (h : s.shared.now ≤ now) :
      Step env requests s { s with shared := { s.shared with disk, remote, now } }

def Reaches (env : Environment ρ) (requests : ι → Request) : Fleet ι ρ → Fleet ι ρ → Prop :=
  Relation.ReflTransGen (Step env requests)

/-- No statement of any call has been made. -/
def Initial (ext : Externals) (requests : ι → Request) (s : Fleet ι ρ) : Prop :=
  ∀ i, (s.process i).Starts ext (requests i)

def AtWork (s : Fleet ι ρ) (i : ι) : Prop := (s.process i).AtWork

/-- A step that gives the lock to one process while another one is at work: the other has had the
lock for longer than the first one lets a lock get old. -/
def Overtakes (requests : ι → Request) (s t : Fleet ι ρ) : Prop :=
  ∃ holder taker since, holder ≠ taker ∧ ¬ s.AtWork taker ∧ t.AtWork taker ∧ t.AtWork holder ∧
    (s.process holder).phase.heldSince = some since ∧
    s.shared.lockRow = some (heldLockRow (requests holder).lockOwner since) ∧
    since+(requests taker).staleLockAfter < s.shared.now

end Fleet

/-- What a step does to the row of the lock, by the phases before and after it. -/
structure LockEffect (owner : Str) (staleAfter : Int) (shared shared' : Shared ρ)
    (phase phase' : RunPhase) : Prop where
  clock : shared.now ≤ shared'.now
  timely : ∀ now, phase'.acquiringAt = some now →
    phase.acquiringAt = some now ∨ now = shared.now
  holds : ∀ since, phase'.heldSince = some since →
    (phase.heldSince = some since ∧ shared'.lockRow = shared.lockRow) ∨
    (phase.heldSince = none ∧ phase.acquiringAt = some since ∧
      shared'.lockRow = some (heldLockRow owner since) ∧
      ∀ lock, shared.lockRow = some lock → lock.heartbeatUnixSeconds+staleAfter < since)
  leaves : phase'.heldSince = none → shared'.lockRow = shared.lockRow ∨ phase.heldSince.isSome

namespace LockEffect

variable {owner : Str} {staleAfter : Int} {shared shared' : Shared ρ} {phase phase' : RunPhase}

/-- A step that leaves the row alone, and after which the lock is not held. -/
theorem unheld (hclock : shared.now ≤ shared'.now) (hrow : shared'.lockRow = shared.lockRow)
    (hheld : phase'.heldSince = none)
    (htimely : ∀ now, phase'.acquiringAt = some now → phase.acquiringAt = some now) :
    LockEffect owner staleAfter shared shared' phase phase' where
  clock := hclock
  timely now hnow := Or.inl (htimely now hnow)
  holds since hsince := by
    rw [hheld] at hsince
    cases hsince
  leaves _ := Or.inl hrow

/-- A step that takes a lock that nobody holds, or that is too old. -/
theorem takes {now : Int} (hclock : shared.now ≤ shared'.now) (hphase : phase.heldSince = none)
    (hnow : phase.acquiringAt = some now)
    (hrow : shared'.lockRow = some (heldLockRow owner now))
    (hold : ∀ lock, shared.lockRow = some lock → lock.heartbeatUnixSeconds+staleAfter < now) :
    LockEffect owner staleAfter shared shared' phase (.locked now) where
  clock := hclock
  timely now hnow := by cases hnow
  holds since hsince := by
    obtain rfl : now = since := Option.some.inj hsince
    exact Or.inr ⟨hphase,hnow,hrow,hold⟩
  leaves hnone := by cases hnone

end LockEffect

namespace EngineCall

variable {env : Environment ρ} {owner : Str} {staleAfter : Int} {shared shared' : Shared ρ}
  {call call' : EngineCall μ α}

theorem lockRow_after {w : World ρ μ} (h : w.repository.stateLocks =
    shared.repository.stateLocks) : (Shared.after w).lockRow = shared.lockRow := by
  unfold Shared.lockRow Shared.after
  rw [h]

section Ask

variable {w : World ρ μ} {e : Effect μ} {answer : e.Answer}

theorem now_after (h : env.Perform (shared.world call) e answer w) :
    (Shared.after w).now = shared.now :=
  h.outside_eq.2.2

/-- A command that is no statement on the lock, in a phase that it does not end. -/
theorem lockEffect_quiet (h : env.Perform (shared.world call) e answer w)
    (he : ∀ state, e = .state state → state.onLock = false) {phase phase' : RunPhase}
    (htimely : ∀ now, phase'.acquiringAt = some now → now = shared.now)
    (hheld : ∀ since, phase'.heldSince = some since → phase.heldSince = some since) :
    LockEffect owner staleAfter shared (.after w) phase phase' where
  clock := (now_after h).ge
  timely now hnow := Or.inr (htimely now hnow)
  holds since hsince := Or.inl ⟨hheld since hsince,lockRow_after (h.locks_eq he)⟩
  leaves _ := Or.inl (lockRow_after (h.locks_eq he))

theorem lockEffect_insert {now : Int} {answer : Except StateError Bool}
    (h : env.Perform (shared.world call) (.state (.insertRunLock owner now)) answer w) :
    LockEffect owner staleAfter shared (.after w) (.timed now) (.afterInsert now answer) := by
  cases answer with
  | error error =>
    apply LockEffect.unheld (now_after h).ge _ rfl fun _ hn => by cases hn
    exact lockRow_after (congrArg Repository.stateLocks h.state_error)
  | ok inserted =>
    have hrun : shared.repository.insertRunLock owner now = (inserted,w.repository) :=
      Except.ok.inj h.state_ok
    cases hlock : shared.lockRow with
    | some lock =>
      obtain ⟨rfl,hrepository⟩ := Prod.mk.inj ((insertRunLock_taken hlock).symm.trans hrun)
      apply LockEffect.unheld (now_after h).ge
      · exact lockRow_after (congrArg Repository.stateLocks hrepository.symm)
      · rfl
      · exact fun _ hn => hn
    | none =>
      obtain ⟨hresult,hinserted⟩ := insertRunLock_free owner now hlock
      rw [hrun] at hresult hinserted
      obtain rfl : inserted = true := hresult
      apply LockEffect.takes (now_after h).ge rfl rfl hinserted
      rw [hlock]
      rintro lock ⟨⟩

theorem lockEffect_replace {now : Int} {answer : Except StateError Bool}
    (h : env.Perform (shared.world call) (.state (.replaceStaleRunLock owner now (now-staleAfter)))
      answer w) :
    LockEffect owner staleAfter shared (.after w) (.refused now) (.afterReplace now answer) := by
  cases answer with
  | error error =>
    apply LockEffect.unheld (now_after h).ge _ rfl fun _ hn => by cases hn
    exact lockRow_after (congrArg Repository.stateLocks h.state_error)
  | ok replaced =>
    have hrun : shared.repository.replaceStaleRunLock owner now (now-staleAfter) =
        (replaced,w.repository) := Except.ok.inj h.state_ok
    have hrefused : shared.repository.replaceStaleRunLock owner now (now-staleAfter) =
          (false,shared.repository) →
        LockEffect owner staleAfter shared (.after w) (.refused now)
          (.afterReplace now (.ok replaced)) := by
      intro hfalse
      obtain ⟨rfl,hrepository⟩ := Prod.mk.inj (hfalse.symm.trans hrun)
      apply LockEffect.unheld (now_after h).ge _ rfl fun _ hn => by cases hn
      exact lockRow_after (congrArg Repository.stateLocks hrepository.symm)
    cases hlock : shared.lockRow with
    | none => exact hrefused (replaceStaleRunLock_free hlock)
    | some lock =>
      by_cases hstale : lock.heartbeatUnixSeconds < now-staleAfter
      · obtain ⟨hresult,hreplaced⟩ := replaceStaleRunLock_stale owner now hlock hstale
        rw [hrun] at hresult hreplaced
        obtain rfl : replaced = true := hresult
        apply LockEffect.takes (now_after h).ge rfl rfl hreplaced
        rw [hlock]
        rintro lock ⟨rfl⟩
        omega
      · exact hrefused (replaceStaleRunLock_fresh hlock hstale)

/-- What an allowed statement does to the lock. -/
theorem lockEffect_ask {phase : RunPhase} (hallowed : phase.allows owner staleAfter e)
    (h : env.Perform (shared.world call) e answer w) :
    LockEffect owner staleAfter shared (.after w) phase (phase.next e answer) := by
  cases phase with
  | fresh =>
    refine lockEffect_quiet h (fun state he => ?_) (fun now hnow => ?_) fun since hsince => ?_
    · subst he
      cases state <;> first | rfl | cases hallowed
    · cases e with
      | now => exact (Option.some.inj hnow).symm.trans h.1
      | _ => cases hnow
    · cases e <;> cases hsince
  | timed now =>
    obtain rfl : e = .state (.insertRunLock owner now) := hallowed
    exact lockEffect_insert h
  | refused now =>
    obtain rfl : e = .state (.replaceStaleRunLock owner now (now-staleAfter)) := hallowed
    exact lockEffect_replace h
  | locked since =>
    obtain rfl : e = .state .repairInterruptedRuns := hallowed
    apply lockEffect_quiet h
    · rintro state ⟨rfl⟩
      rfl
    · cases answer <;> rintro now ⟨⟩
    · cases answer with
      | ok _ => exact fun _ hs => hs
      | error error => rintro since ⟨⟩
  | repaired since =>
    obtain ⟨trigger,rfl⟩ := hallowed
    apply lockEffect_quiet h
    · rintro state ⟨rfl⟩
      rfl
    · cases answer <;> rintro now ⟨⟩
    · cases answer with
      | ok _ => exact fun _ hs => hs
      | error error => rintro since ⟨⟩
  | begun since runId started =>
    obtain ⟨hheld,hacquiring⟩ := RunPhase.nextBegun_held since runId started answer
    refine lockEffect_quiet h (fun state he => ?_) (fun now hnow => ?_) fun since' hsince => ?_
    · subst he
      cases state <;> first | rfl | cases hallowed
    · cases hacquiring.symm.trans hnow
    · exact hheld.symm.trans hsince
  | finished since =>
    obtain rfl : e = .state (.releaseRunLock (runLockGuard owner)) := hallowed
    exact ⟨(now_after h).ge,fun _ hn => (nomatch hn),fun _ hs => (nomatch hs),fun _ => Or.inr rfl⟩
  | ended => exact hallowed.elim

/-- A call that does not have the lock gets it or leaves the database as it is. -/
theorem unheld_repository {phase : RunPhase} (hphase : phase.heldSince = none)
    (hallowed : phase.allows owner staleAfter e)
    (h : env.Perform (shared.world call) e answer w) :
    (phase.next e answer).heldSince.isSome ∨ w.repository = shared.repository := by
  cases phase with
  | fresh =>
    apply Or.inr
    cases e with
    | state state =>
      cases answer with
      | error error => exact h.state_error
      | ok result =>
        cases state with
        | hasSnapshotForRoot rootId =>
          exact (Prod.mk.inj (Except.ok.inj h.state_ok)).2.symm
        | _ => cases hallowed
    | _ => exact h.repository_eq fun state he => by cases he
  | timed now =>
    obtain rfl : e = .state (.insertRunLock owner now) := hallowed
    cases answer with
    | error error => exact Or.inr h.state_error
    | ok inserted =>
      cases inserted with
      | true => exact Or.inl rfl
      | false =>
        have hrun : shared.repository.insertRunLock owner now = (false,w.repository) :=
          Except.ok.inj h.state_ok
        cases hlock : shared.lockRow with
        | some lock => exact Or.inr (Prod.mk.inj (hrun.symm.trans (insertRunLock_taken hlock))).2
        | none =>
          have hfree := (insertRunLock_free owner now hlock).1
          rw [hrun] at hfree
          cases hfree
  | refused now =>
    obtain rfl : e = .state (.replaceStaleRunLock owner now (now-staleAfter)) := hallowed
    cases answer with
    | error error => exact Or.inr h.state_error
    | ok replaced =>
      cases replaced with
      | true => exact Or.inl rfl
      | false =>
        have hrun : shared.repository.replaceStaleRunLock owner now (now-staleAfter) =
            (false,w.repository) := Except.ok.inj h.state_ok
        cases hlock : shared.lockRow with
        | none => exact Or.inr (Prod.mk.inj (hrun.symm.trans (replaceStaleRunLock_free hlock))).2
        | some lock =>
          by_cases hstale : lock.heartbeatUnixSeconds < now-staleAfter
          · have htaken := (replaceStaleRunLock_stale owner now hlock hstale).1
            rw [hrun] at htaken
            cases htaken
          · exact Or.inr (Prod.mk.inj (hrun.symm.trans (replaceStaleRunLock_fresh hlock hstale))).2
  | ended => exact hallowed.elim
  | _ => cases hphase

end Ask

/-- The environment leaves the lock alone. -/
theorem lockEffect_drift {w : World ρ μ} (h : env.Drift (shared.world call) w) (phase : RunPhase) :
    LockEffect owner staleAfter shared (.after w) phase phase where
  clock := by
    cases h with
    | tick hnow => exact hnow
    | _ => exact le_rfl
  timely _ hnow := Or.inl hnow
  holds _ hsince := by
    refine Or.inl ⟨hsince,?_⟩
    cases h <;> rfl
  leaves _ := by
    apply Or.inl
    cases h <;> rfl

/-- A step of a call that keeps to the protocol. -/
theorem Step.keeps {Q : α → RunPhase → Prop} (hstep : Step env shared call shared' call')
    (hcall : Follows (runProtocol μ owner staleAfter) Q call.rest call.phase) :
    Follows (runProtocol μ owner staleAfter) Q call'.rest call'.phase ∧
      LockEffect owner staleAfter shared shared' call.phase call'.phase := by
  cases hstep with
  | ask hrest h =>
    rw [hrest] at hcall
    exact ⟨hcall.asked.2 _,lockEffect_ask hcall.asked.1 h⟩
  | drift h => exact ⟨hcall,lockEffect_drift h call.phase⟩

end EngineCall

attribute [local irreducible] Follows

namespace Process

variable {env : Environment ρ} {request : Request} {shared shared' : Shared ρ}
  {process process' : Process}

/-- Every statement of the process is one that its phase allows. -/
def Keeps (request : Request) : Process → Prop
  | .sync call => Follows (runProtocol SyncMemory request.lockOwner request.staleLockAfter)
      (fun result phase => phase.Unlocked ∧ (result = .ok .migrate → phase = .fresh))
      call.rest call.phase
  | .migration call => Follows
      (runProtocol MigrationMemory request.lockOwner request.staleLockAfter)
      (fun _ => RunPhase.Unlocked) call.rest call.phase
  | .gone => True

theorem migration_keeps {request : Request} (ext : Externals) (config : AppConfig)
    (options : MigrationEngine.MigrationRunOptions) (howner : options.lockOwner = request.lockOwner)
    (hstale : options.staleLockAfter = request.staleLockAfter) {cancelled : Bool}
    {memory : MigrationMemory} : Keeps request (.migration {
      rest := (MigrationEngine.runOnce ext config options).run, cancelled, memory }) := by
  have hruns := MigrationEngine.runOnce_follows ext config options
  rw [howner,hstale] at hruns
  refine Follows.mono hruns fun result phase h => ?_
  cases result with
  | ok report => exact h
  | error error => exact h

theorem Starts.keeps {ext : Externals} (h : Starts ext request process) :
    process.Keeps request ∧ process.phase = .fresh := by
  cases h with
  | sync config options cancelled memory =>
    refine ⟨Follows.mono (SyncEngine.runOnce_follows ext config options) fun result phase h => ?_,
      rfl⟩
    cases result with
    | ok result => exact ⟨h.1,fun hresult => h.2 (Except.ok.inj hresult)⟩
    | error error => exact ⟨h,fun hresult => by cases hresult⟩
  | migration config options cancelled memory =>
    exact ⟨migration_keeps ext config options rfl rfl,rfl⟩

/-- What a step of a process does to the lock. -/
theorem Step.keeps (hstep : Step env request shared process shared' process')
    (hprocess : process.Keeps request) : process'.Keeps request ∧
      LockEffect request.lockOwner request.staleLockAfter shared shared' process.phase
        process'.phase := by
  cases hstep with
  | sync h => exact h.keeps hprocess
  | migration h => exact h.keeps hprocess
  | @handOver config options shared call hrest memory =>
    refine ⟨migration_keeps env.ext config options.handedOver rfl rfl,?_⟩
    apply LockEffect.unheld le_rfl rfl rfl
    rintro now ⟨⟩
  | die =>
    refine ⟨trivial,LockEffect.unheld le_rfl rfl rfl ?_⟩
    rintro now ⟨⟩

/-- A process that is not at work gets to work or leaves the database as it is. -/
theorem Step.repository (hstep : Step env request shared process shared' process')
    (hprocess : process.Keeps request) (hidle : ¬ process.AtWork) :
    process'.AtWork ∨ shared'.repository = shared.repository := by
  have hnone : process.phase.heldSince = none := by simpa [AtWork] using hidle
  have hcall : ∀ {μ α : Type} {call call' : EngineCall μ α} {Q : α → RunPhase → Prop},
      Follows (runProtocol μ request.lockOwner request.staleLockAfter) Q call.rest call.phase →
      call.phase.heldSince = none → EngineCall.Step env shared call shared' call' →
      call'.phase.heldSince.isSome ∨ shared'.repository = shared.repository := by
    intro μ α call call' Q hcall hheld hmove
    cases hmove with
    | ask hrest h =>
      rw [hrest] at hcall
      exact EngineCall.unheld_repository hheld hcall.asked.1 h
    | drift h =>
      apply Or.inr
      cases h <;> rfl
  cases hstep with
  | sync h => exact hcall hprocess hnone h
  | migration h => exact hcall hprocess hnone h
  | handOver => exact Or.inr rfl
  | die => exact Or.inr rfl

theorem Keeps.atWork (h : process.Keeps request) (hwork : process.AsksWork) : process.AtWork := by
  have hheld : ∀ {μ : Type} {phase : RunPhase} {e : Effect μ},
      phase.allows request.lockOwner request.staleLockAfter e → ¬ RunPhase.entryCommand e →
      (∀ owner now staleBefore, e ≠ .state (.insertRunLock owner now) ∧
        e ≠ .state (.replaceStaleRunLock owner now staleBefore)) → phase.heldSince.isSome := by
    intro μ phase e hallowed hentry hlock
    cases phase with
    | fresh => exact absurd hallowed hentry
    | timed now => exact absurd hallowed (hlock _ _ 0).1
    | refused now => exact absurd hallowed (hlock _ _ _).2
    | ended => exact hallowed.elim
    | _ => rfl
  cases process with
  | sync call =>
    obtain ⟨e,k,hrest,hentry,hlock⟩ := hwork
    rw [Keeps,hrest] at h
    exact hheld h.asked.1 hentry hlock
  | migration call =>
    obtain ⟨e,k,hrest,hentry,hlock⟩ := hwork
    rw [Keeps,hrest] at h
    exact hheld h.asked.1 hentry hlock
  | gone => exact hwork.elim

end Process

namespace Fleet

variable [DecidableEq ι] {env : Environment ρ} {requests : ι → Request} {start s t : Fleet ι ρ}

/-- Every process keeps to the protocol, and no reading of the clock is ahead of it. -/
structure Orderly (requests : ι → Request) (s : Fleet ι ρ) : Prop where
  keeps : ∀ i, (s.process i).Keeps (requests i)
  timely : ∀ i now, (s.process i).phase.acquiringAt = some now → now ≤ s.shared.now

/-- The process at work has the row of the lock, and there is only one. -/
structure Guarded (requests : ι → Request) (s : Fleet ι ρ) : Prop where
  row : ∀ i since, (s.process i).phase.heldSince = some since →
    s.shared.lockRow = some (heldLockRow (requests i).lockOwner since)
  exclusive : ∀ i j, s.AtWork i → s.AtWork j → i = j

omit [DecidableEq ι] in
theorem Initial.orderly {ext : Externals} (h : start.Initial ext requests) :
    start.Orderly requests ∧ start.Guarded requests := by
  refine ⟨⟨fun i => (h i).keeps.1,fun i now hnow => ?_⟩,fun i since hsince => ?_,
    fun i j hi hj => ?_⟩
  · rw [(h i).keeps.2] at hnow
    cases hnow
  · rw [(h i).keeps.2] at hsince
    cases hsince
  · unfold AtWork Process.AtWork at hi
    rw [(h i).keeps.2] at hi
    cases hi

theorem Step.orderly (hstep : Step env requests s t) (h : s.Orderly requests) :
    t.Orderly requests := by
  cases hstep with
  | @move i shared process hmove =>
    obtain ⟨hkeeps,heffect⟩ := hmove.keeps (h.keeps i)
    refine ⟨fun j => ?_,fun j now hnow => ?_⟩
    · by_cases hj : j = i
      · subst hj
        simpa using hkeeps
      · simpa [hj] using h.keeps j
    · by_cases hj : j = i
      · subst hj
        simp only [Function.update_self] at hnow
        rcases heffect.timely now hnow with hbefore | rfl
        · exact (h.timely j now hbefore).trans heffect.clock
        · exact heffect.clock
      · simp only [Function.update_of_ne hj] at hnow
        exact (h.timely j now hnow).trans heffect.clock
  | outside hnow => exact ⟨h.keeps,fun j now hj => (h.timely j now hj).trans hnow⟩

omit [DecidableEq ι] in
theorem atWork_iff {i : ι} : s.AtWork i ↔ ∃ since, (s.process i).phase.heldSince = some since :=
  Option.isSome_iff_exists

/-- What is known of the moved process and of the others after a step. -/
theorem guarded_move {i : ι} {shared : Shared ρ} {process : Process} (h : s.Guarded requests)
    (hrow : ∀ since, process.phase.heldSince = some since →
      shared.lockRow = some (heldLockRow (requests i).lockOwner since))
    (hothers : ∀ j, j ≠ i → s.AtWork j →
      shared.lockRow = s.shared.lockRow ∧ process.phase.heldSince = none) :
    Guarded requests { shared, process := Function.update s.process i process } := by
  have hother : ∀ {j since}, j ≠ i →
      (Function.update s.process i process j).phase.heldSince = some since →
        (s.process j).phase.heldSince = some since := by
    intro j since hj hsince
    rwa [Function.update_of_ne hj] at hsince
  have hpair : ∀ j, j ≠ i →
      AtWork { shared, process := Function.update s.process i process } j →
        s.AtWork j ∧ process.phase.heldSince = none := by
    intro j hj hwork
    obtain ⟨since,hsince⟩ := atWork_iff.mp hwork
    have hworks : s.AtWork j := atWork_iff.mpr ⟨since,hother hj hsince⟩
    exact ⟨hworks,(hothers j hj hworks).2⟩
  have hmoved : process.phase.heldSince = none →
      ¬ AtWork { shared, process := Function.update s.process i process } i := by
    intro hnone hwork
    obtain ⟨since,hsince⟩ := atWork_iff.mp hwork
    simp only [Function.update_self,hnone] at hsince
    cases hsince
  constructor
  · intro j since hsince
    by_cases hj : j = i
    · subst hj
      simp only [Function.update_self] at hsince
      exact hrow since hsince
    · have hbefore := hother hj hsince
      have hsame := (hothers j hj (atWork_iff.mpr ⟨since,hbefore⟩)).1
      exact hsame.trans (h.row j since hbefore)
  · intro j k hworkj hworkk
    by_cases hj : j = i
    · by_cases hk : k = i
      · exact hj.trans hk.symm
      · subst hj
        exact absurd hworkj (hmoved (hpair k hk hworkk).2)
    · by_cases hk : k = i
      · subst hk
        exact absurd hworkk (hmoved (hpair j hj hworkj).2)
      · exact h.exclusive j k (hpair j hj hworkj).1 (hpair k hk hworkk).1

theorem Step.guarded (hstep : Step env requests s t) (ho : s.Orderly requests)
    (h : s.Guarded requests) (hnone : ¬ Overtakes requests s t) : t.Guarded requests := by
  cases hstep with
  | outside hnow => exact ⟨h.row,h.exclusive⟩
  | @move i shared process hmove =>
    have heffect := (hmove.keeps (ho.keeps i)).2
    cases hheld : process.phase.heldSince with
    | none =>
      refine guarded_move h (fun since hsince => ?_) fun j hj hwork => ⟨?_,hheld⟩
      · rw [hheld] at hsince
        cases hsince
      · rcases heffect.leaves hheld with hsame | hwork'
        · exact hsame
        · exact absurd (h.exclusive j i hwork hwork') hj
    | some since =>
      rcases heffect.holds since hheld with ⟨hbefore,hsame⟩ | ⟨hbefore,hnow,hrow,hold⟩
      · have hrow := h.row i since hbefore
        refine guarded_move h (fun since' hsince => ?_) fun j hj hwork => ?_
        · cases hheld.symm.trans hsince
          exact hsame.trans hrow
        · exact absurd (h.exclusive j i hwork (atWork_iff.mpr ⟨since,hbefore⟩)) hj
      · refine guarded_move h (fun since' hsince => ?_) fun j hj hwork => (hnone ?_).elim
        · cases hheld.symm.trans hsince
          exact hrow
        · obtain ⟨sinceHeld,hsinceHeld⟩ := atWork_iff.mp hwork
          have hlock := h.row j sinceHeld hsinceHeld
          have hlate := (hold _ hlock).trans_le (ho.timely i since hnow)
          refine ⟨j,i,sinceHeld,hj,?_,?_,?_,hsinceHeld,hlock,hlate⟩
          · simp [atWork_iff,hbefore]
          · apply atWork_iff.mpr
            exact ⟨since,by simpa using hheld⟩
          · apply atWork_iff.mpr
            exact ⟨sinceHeld,by simpa [hj] using hsinceHeld⟩

/-- While a process is at work, the others leave the database as it is. -/
theorem Guarded.isolated (h : s.Guarded requests) (ho : s.Orderly requests) {i j : ι}
    {shared : Shared ρ} {process : Process} (hj : s.AtWork j) (hne : i ≠ j)
    (hmove : (s.process i).Step env (requests i) s.shared shared process) :
    shared.repository = s.shared.repository ∨
      Overtakes requests s { shared, process := Function.update s.process i process } := by
  have hidle : ¬ s.AtWork i := fun hi => hne (h.exclusive i j hi hj)
  rcases hmove.repository (ho.keeps i) hidle with hwork | hsame
  · apply Or.inr
    by_contra hnone
    have hguarded := (Step.move i hmove).guarded ho h hnone
    refine hne (hguarded.exclusive i j ?_ ?_)
    · simpa [AtWork] using hwork
    · simpa [AtWork,hne.symm] using hj
  · exact Or.inl hsame

theorem Reaches.orderly (hrun : Reaches env requests start s) (h : start.Orderly requests) :
    s.Orderly requests := by
  induction hrun with
  | refl => exact h
  | tail _ hstep ih => exact hstep.orderly ih

/-- One process was given the lock while another one was at work. -/
def Overtaken (env : Environment ρ) (requests : ι → Request) (start s : Fleet ι ρ) : Prop :=
  ∃ s₁ s₂, Reaches env requests start s₁ ∧ Step env requests s₁ s₂ ∧
    Reaches env requests s₂ s ∧ Overtakes requests s₁ s₂

theorem Overtaken.tail (h : Overtaken env requests start s) (hstep : Step env requests s t) :
    Overtaken env requests start t := by
  obtain ⟨s₁,s₂,hbefore,hover,hafter,hover'⟩ := h
  exact ⟨s₁,s₂,hbefore,hover,hafter.tail hstep,hover'⟩

theorem Reaches.guarded (hrun : Reaches env requests start s) (ho : start.Orderly requests)
    (h : start.Guarded requests) : s.Guarded requests ∨ Overtaken env requests start s := by
  induction hrun with
  | refl => exact Or.inl h
  | @tail s t hrun hstep ih =>
    rcases ih with hguarded | hover
    · by_cases hnone : Overtakes requests s t
      · exact Or.inr ⟨s,t,hrun,hstep,.refl,hnone⟩
      · exact Or.inl (hstep.guarded (Reaches.orderly hrun ho) hguarded hnone)
    · exact Or.inr (hover.tail hstep)

end Fleet

section Turns

/-! A process that makes some statements while nothing else happens. -/

variable {env : Environment ρ} {respond : Responder ρ}

def EngineCall.play (respond : Responder ρ) (ext : Externals) :
    Nat → Shared ρ × EngineCall μ α → Shared ρ × EngineCall μ α
  | 0, s => s
  | n+1, s => match s.2.rest with
    | .ret _ => s
    | .ask e k =>
      let next := (s.1.world s.2).answer respond ext ⟨id,id,fun _ => [],fun _ => []⟩ e
      play respond ext n (.after next.2,{ s.2.after next.2 with
        rest := k next.1, phase := s.2.phase.next e next.1 })

theorem EngineCall.play_steps (hadmits : env.Admits respond) (n : Nat)
    (s : Shared ρ × EngineCall μ α) :
    Relation.ReflTransGen (fun s t => EngineCall.Step env s.1 s.2 t.1 t.2) s
      (EngineCall.play respond env.ext n s) := by
  induction n generalizing s with
  | zero => exact .refl
  | succ n ih =>
    obtain ⟨shared,call⟩ := s
    cases hrest : call.rest with
    | ret a => simp only [play,hrest]; exact .refl
    | ask e k =>
      simp only [play,hrest]
      have hdrifts : ∀ w, Relation.ReflTransGen env.Drift (shared.world call) w →
          Relation.ReflTransGen (fun s t => EngineCall.Step env s.1 s.2 t.1 t.2)
            (shared,call) (Shared.after w,call.after w) := by
        intro w hw
        induction hw with
        | refl => exact .refl
        | tail _ hdrift ih => exact ih.tail (.drift hdrift)
      have hsettled := hdrifts _ ((shared.world call).drift_settle hadmits e)
      generalize hw : (shared.world call).settle respond e = w at hsettled
      have hperform := World.answer_performs ⟨id,id,fun _ => [],fun _ => []⟩ (shared.world call)
        hadmits e
      rw [hw] at hperform
      have hworld : env.Perform ((Shared.after w).world (call.after w)) e _ _ := hperform
      have hrest' : (call.after w).rest = .ask e k := hrest
      have hask := EngineCall.Step.ask hrest' hworld
      exact (hsettled.tail hask).trans (ih _)

namespace Fleet

variable [DecidableEq ι] {requests : ι → Request} {s : Fleet ι ρ}

def turn (respond : Responder ρ) (ext : Externals) (i : ι) (n : Nat) (s : Fleet ι ρ) :
    Fleet ι ρ :=
  match s.process i with
  | .sync call =>
    let next := EngineCall.play respond ext n (s.shared,call)
    { shared := next.1, process := Function.update s.process i (.sync next.2) }
  | .migration call =>
    let next := EngineCall.play respond ext n (s.shared,call)
    { shared := next.1, process := Function.update s.process i (.migration next.2) }
  | .gone => s

theorem reaches_play {i : ι} {wrap : EngineCall μ α → Process}
    (hwrap : ∀ {shared shared' : Shared ρ} {call call'}, EngineCall.Step env shared call shared'
      call' → Process.Step env (requests i) shared (wrap call) shared' (wrap call'))
    {a b : Shared ρ × EngineCall μ α}
    (hsteps : Relation.ReflTransGen (fun s t => EngineCall.Step env s.1 s.2 t.1 t.2) a b)
    (process : ι → Process) (ha : process i = wrap a.2) :
    Reaches env requests { shared := a.1, process }
      { shared := b.1, process := Function.update process i (wrap b.2) } := by
  induction hsteps with
  | refl =>
    rw [← ha,Function.update_eq_self]
    exact .refl
  | @tail b c _ hstep ih =>
    refine ih.tail ?_
    have hmove : Step env requests
        { shared := b.1, process := Function.update process i (wrap b.2) }
        { shared := c.1, process := Function.update (Function.update process i (wrap b.2)) i
            (wrap c.2) } := .move i (by simpa using hwrap hstep)
    rwa [Function.update_idem] at hmove

theorem reaches_turn (hadmits : env.Admits respond) (i : ι) (n : Nat) (s : Fleet ι ρ) :
    Reaches env requests s (s.turn respond env.ext i n) := by
  unfold turn
  cases hprocess : s.process i with
  | sync call =>
    exact reaches_play .sync (EngineCall.play_steps hadmits n (s.shared,call)) s.process hprocess
  | migration call =>
    exact reaches_play .migration (EngineCall.play_steps hadmits n (s.shared,call)) s.process
      hprocess
  | gone => exact .refl

end Fleet

end Turns

/-- Whatever the calls, the order of their statements, the failures and the deaths of processes:
only a call that has the lock asks for anything else than the lock; no two calls have it at once,
and nobody else changes the database while one has it, unless a call had it for longer than another
one lets a lock get old. -/
theorem fleet_exclusive [DecidableEq ι] {env : Environment ρ} {requests : ι → Request}
    {start s : Fleet ι ρ} (hstart : start.Initial env.ext requests)
    (hrun : Fleet.Reaches env requests start s) :
    (∀ i, (s.process i).AsksWork → s.AtWork i) ∧
      ((∀ i j, s.AtWork i → s.AtWork j → i = j) ∨ Fleet.Overtaken env requests start s) ∧
      ∀ i j shared process, s.AtWork j → i ≠ j →
        (s.process i).Step env (requests i) s.shared shared process →
        shared.repository = s.shared.repository ∨ Fleet.Overtaken env requests start
          { shared, process := Function.update s.process i process } := by
  obtain ⟨hordered,hguarded⟩ := hstart.orderly
  have horderly := Fleet.Reaches.orderly hrun hordered
  refine ⟨fun i => (horderly.keeps i).atWork,?_⟩
  rcases Fleet.Reaches.guarded hrun hordered hguarded with hheld | hover
  · refine ⟨Or.inl hheld.exclusive,fun i j shared process hj hne hmove => ?_⟩
    refine (hheld.isolated horderly hj hne hmove).imp id fun hover => ?_
    exact ⟨s,_,hrun,.move i hmove,.refl,hover⟩
  · exact ⟨Or.inr hover,fun i j shared process _ _ hmove => Or.inr (hover.tail (.move i hmove))⟩

section Overtaking

private def pairConfig : AppConfig :=
  { defaultConfig with
    roots := [{ id := "r".toList, name := "r".toList, enabled := true, localPath := "/r".toList }] }

private def pairEnvironment : Environment RemoteDisk :=
  mockEnvironment asciiExternals ⟨none,none⟩ fun _ _ => False

/-- Two migrations; each takes over a lock that is older than an hour. -/
private def pairRequest (second : Bool) : Request :=
  .migration pairConfig {
    lockOwner := (if second then "b" else "a").toList, staleLockAfter := 3600 }

private def pairCall (second : Bool) : Process :=
  .migration {
    rest := (MigrationEngine.runOnce asciiExternals pairConfig {
      lockOwner := (if second then "b" else "a").toList, staleLockAfter := 3600 }).run
    memory := { report := { runId := 0 } } }

private def pairStart : Fleet Bool RemoteDisk where
  shared := ⟨.empty,{},{},0⟩
  process := pairCall

private def pairHeld : Fleet Bool RemoteDisk :=
  pairStart.turn (mockResponder ⟨none,none⟩) asciiExternals false 2

private def pairLate : Fleet Bool RemoteDisk :=
  { pairHeld with shared := { pairHeld.shared with now := 4000 } }

private def pairTaken : Fleet Bool RemoteDisk :=
  pairLate.turn (mockResponder ⟨none,none⟩) asciiExternals true 3

private theorem pairTaken_reached :
    Fleet.Reaches pairEnvironment pairRequest pairStart pairTaken := by
  have hadmits := mockEnvironment_admits asciiExternals ⟨none,none⟩ fun _ _ => False
  have hheld : Fleet.Reaches pairEnvironment pairRequest pairStart pairHeld :=
    Fleet.reaches_turn hadmits false 2 pairStart
  have hlate : Fleet.Step pairEnvironment pairRequest pairHeld pairLate :=
    .outside (by decide +kernel)
  exact (hheld.tail hlate).trans (Fleet.reaches_turn hadmits true 3 pairLate)

/-- After more than an hour the second migration works next to the first one. -/
theorem fleet_overtaken : ∃ s, Fleet.Reaches pairEnvironment pairRequest pairStart s ∧
    s.AtWork false ∧ s.AtWork true ∧
      Fleet.Overtaken pairEnvironment pairRequest pairStart s := by
  have hstart : pairStart.Initial pairEnvironment.ext pairRequest :=
    fun _ => .migration _ _ false _
  have hfirst : pairTaken.AtWork false := by
    have : (pairTaken.process false).phase.heldSince = some 0 := by decide +kernel
    exact Fleet.atWork_iff.mpr ⟨0,this⟩
  have hsecond : pairTaken.AtWork true := by
    have : (pairTaken.process true).phase.heldSince = some 4000 := by decide +kernel
    exact Fleet.atWork_iff.mpr ⟨4000,this⟩
  refine ⟨pairTaken,pairTaken_reached,hfirst,hsecond,?_⟩
  rcases (fleet_exclusive hstart pairTaken_reached).2.1 with hexclusive | hover
  · cases hexclusive false true hfirst hsecond
  · exact hover

end Overtaking

end YaDiskSync
