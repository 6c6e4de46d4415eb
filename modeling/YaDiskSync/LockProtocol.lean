import Mathlib.Logic.Relation
import YaDiskSync.RunLock
import YaDiskSync.ServiceRuntime

/-! The run lock under many acquirers. Every statement of an acquisition, a heartbeat or a release
is a step of its own, and the statements of different acquirers mix in any order. -/
namespace YaDiskSync

open Repository

/-- `unix_timestamp` of a time in nanoseconds. -/
def unixSeconds (nanoseconds : Int) : Int := nanoseconds/10^9

/-- How far one attempt to take the lock is. Times are in nanoseconds; an issued guard keeps the
time of its last acquire or heartbeat. -/
inductive Attempt
  | unborn
  | inserting (now staleAfter : Int)
  | replacing (now staleAfter : Int)
  | issued (stamp : Int)
  | released
  | refused
  deriving DecidableEq, Repr

namespace Attempt

def afterInsert (now staleAfter : Int) (inserted : Bool) : Attempt :=
  if inserted then .issued now else .replacing now staleAfter

def afterReplace (now : Int) (replaced : Bool) : Attempt :=
  if replaced then .issued now else .refused

def afterHeartbeat (attempt : Attempt) (now : Int) (updated : Bool) : Attempt :=
  if updated then .issued now else attempt

/-- The attempt has a guard, also after its release. -/
def HasGuard : Attempt → Prop
  | .issued _ | .released => True
  | _ => False

instance (attempt : Attempt) : Decidable attempt.HasGuard := by
  cases attempt <;> unfold HasGuard <;> infer_instance

end Attempt

def runLockGuard (owner : Str) : RunLockGuard := { name := runLockName, owner }

/-- The database, the clock and the attempts; each attempt has an owner string of its own. -/
structure LockState where
  repository : Repository
  clock : Int
  attempts : Str → Attempt

namespace LockState

def lockRow (s : LockState) : Option StateLock := s.repository.stateLocks.find runLockName

/-- The row of the lock carries the owner string. -/
def Owns (s : LockState) (owner : Str) : Prop := ∃ lock, s.lockRow = some lock ∧ lock.owner = owner

/-- An issued guard that is not released and owns the row. -/
def Current (s : LockState) (owner : Str) : Prop :=
  (∃ stamp, s.attempts owner = .issued stamp) ∧ s.Owns owner

def setAttempt (s : LockState) (owner : Str) (attempt : Attempt) : LockState :=
  { s with attempts := Function.update s.attempts owner attempt }

/-- No acquisition began, and the lock is free or held by a guard issued earlier. -/
def Initial (s : LockState) : Prop :=
  (s.lockRow = none ∧ ∀ owner, s.attempts owner = .unborn) ∨
    ∃ lock stamp, s.lockRow = some lock ∧ lock.heartbeatUnixSeconds = unixSeconds stamp ∧
      s.attempts = Function.update (fun _ => .unborn) lock.owner (.issued stamp)

end LockState

inductive LockEvent
  | tick
  | start (owner : Str)
  | insert (owner : Str)
  | replace (owner : Str)
  | fail (owner : Str)
  | heartbeat (owner : Str) (now : Int)
  | release (owner : Str)
  | elsewhere
  deriving DecidableEq, Repr

/-- One statement of one party, the clock, or a statement on other tables. -/
inductive LockStep : LockState → LockEvent → LockState → Prop
  | tick {s : LockState} {clock : Int} (h : s.clock ≤ clock) : LockStep s .tick { s with clock }
  | start {s : LockState} {owner : Str} {now staleAfter : Int}
      (h : s.attempts owner = .unborn) (hnow : now ≤ s.clock) :
      LockStep s (.start owner) (s.setAttempt owner (.inserting now staleAfter))
  | insert {s : LockState} {owner : Str} {now staleAfter : Int}
      (h : s.attempts owner = .inserting now staleAfter) :
      LockStep s (.insert owner)
        { s.setAttempt owner (.afterInsert now staleAfter
            (s.repository.insertRunLock owner (unixSeconds now)).1) with
          repository := (s.repository.insertRunLock owner (unixSeconds now)).2 }
  | replace {s : LockState} {owner : Str} {now staleAfter : Int}
      (h : s.attempts owner = .replacing now staleAfter) :
      LockStep s (.replace owner)
        { s.setAttempt owner (.afterReplace now (s.repository.replaceStaleRunLock owner
            (unixSeconds now) (unixSeconds now-wholeSeconds staleAfter)).1) with
          repository := (s.repository.replaceStaleRunLock owner (unixSeconds now)
            (unixSeconds now-wholeSeconds staleAfter)).2 }
  | fail {s : LockState} {owner : Str} {now staleAfter : Int}
      (h : s.attempts owner = .inserting now staleAfter ∨
        s.attempts owner = .replacing now staleAfter) :
      LockStep s (.fail owner) (s.setAttempt owner .refused)
  | heartbeat {s : LockState} {owner : Str} {now : Int} (h : (s.attempts owner).HasGuard)
      (hnow : now ≤ s.clock) :
      LockStep s (.heartbeat owner now)
        { s.setAttempt owner ((s.attempts owner).afterHeartbeat now
            (s.repository.heartbeatRunLock (runLockGuard owner) (unixSeconds now)).1) with
          repository :=
            (s.repository.heartbeatRunLock (runLockGuard owner) (unixSeconds now)).2 }
  | release {s : LockState} {owner : Str} (h : (s.attempts owner).HasGuard) :
      LockStep s (.release owner)
        { s.setAttempt owner .released with
          repository := (s.repository.releaseRunLock (runLockGuard owner)).2 }
  | elsewhere {s : LockState} {repository : Repository}
      (h : repository.stateLocks = s.repository.stateLocks) :
      LockStep s .elsewhere { s with repository }

/-- Any number of steps, in any order. -/
def LockRuns : LockState → LockState → Prop :=
  Relation.ReflTransGen fun s t => ∃ event, LockStep s event t

section Statements

variable {repository : Repository} {owner : Str} {now staleBefore : Int} {lock : StateLock}

theorem insertRunLock_free (owner : Str) (now : Int)
    (h : repository.stateLocks.find runLockName = none) :
    (repository.insertRunLock owner now).1 = true ∧
      (repository.insertRunLock owner now).2.stateLocks.find runLockName =
        some { name := runLockName, owner, heartbeatUnixSeconds := now } := by
  simp [insertRunLock,h,Table.find_put]

theorem insertRunLock_taken (h : repository.stateLocks.find runLockName = some lock) :
    repository.insertRunLock owner now = (false,repository) := by
  simp [insertRunLock,h]

theorem replaceStaleRunLock_free (h : repository.stateLocks.find runLockName = none) :
    repository.replaceStaleRunLock owner now staleBefore = (false,repository) := by
  simp [replaceStaleRunLock,h]

theorem replaceStaleRunLock_stale (owner : Str) (now : Int)
    (h : repository.stateLocks.find runLockName = some lock) (hstale : lock.heartbeatUnixSeconds < staleBefore) :
    (repository.replaceStaleRunLock owner now staleBefore).1 = true ∧
      (repository.replaceStaleRunLock owner now staleBefore).2.stateLocks.find runLockName =
        some { name := runLockName, owner, heartbeatUnixSeconds := now } := by
  simp [replaceStaleRunLock,h,hstale,Table.find_put]

theorem replaceStaleRunLock_fresh (h : repository.stateLocks.find runLockName = some lock)
    (hfresh : ¬ lock.heartbeatUnixSeconds < staleBefore) :
    repository.replaceStaleRunLock owner now staleBefore = (false,repository) := by
  simp [replaceStaleRunLock,h,hfresh]

theorem heartbeatRunLock_owned (now : Int)
    (h : repository.stateLocks.find runLockName = some lock) (howner : lock.owner = owner) :
    (repository.heartbeatRunLock (runLockGuard owner) now).1 = true ∧
      (repository.heartbeatRunLock (runLockGuard owner) now).2.stateLocks.find runLockName =
        some { lock with heartbeatUnixSeconds := now } := by
  have hname : lock.name = runLockName := (Table.find_eq_some.mp h).2
  simp [heartbeatRunLock,runLockGuard,h,howner,Table.find_put,hname]

theorem heartbeatRunLock_other
    (h : ∀ lock, repository.stateLocks.find runLockName = some lock → lock.owner ≠ owner) :
    repository.heartbeatRunLock (runLockGuard owner) now = (false,repository) := by
  cases hrow : repository.stateLocks.find runLockName with
  | none => simp [heartbeatRunLock,runLockGuard,hrow]
  | some lock => simp [heartbeatRunLock,runLockGuard,hrow,h lock hrow]

theorem releaseRunLock_other (repository : Repository) (owner : Str)
    (h : ∀ lock, repository.stateLocks.find runLockName = some lock → lock.owner ≠ owner) :
    repository.releaseRunLock (runLockGuard owner) = (false,repository) := by
  have hheld : ((repository.stateLocks.find runLockName).any fun lock => lock.owner = owner) =
      false := by
    cases hrow : repository.stateLocks.find runLockName with
    | none => rfl
    | some lock => simpa using h lock hrow
  have hkept : (repository.stateLocks.deleteWhere fun lock =>
      lock.name = runLockName ∧ lock.owner = owner) = repository.stateLocks := by
    have hrows : repository.stateLocks.rows.filter (fun lock =>
        !decide (lock.name = runLockName ∧ lock.owner = owner)) = repository.stateLocks.rows := by
      apply List.filter_eq_self.mpr
      intro lock hlock
      have hother : ¬ (lock.name = runLockName ∧ lock.owner = owner) := by
        rintro ⟨hname,howner⟩
        exact h lock (Table.find_eq_some.mpr ⟨hlock,hname⟩) howner
      rw [decide_eq_false hother]
      rfl
    unfold Table.deleteWhere
    congr
  exact Prod.ext hheld (congrArg (fun locks => { repository with stateLocks := locks }) hkept)

/-- After a release the owner string is gone from the row. -/
theorem releaseRunLock_gone
    (h : (repository.releaseRunLock (runLockGuard owner)).2.stateLocks.find runLockName =
      some lock) : repository.stateLocks.find runLockName = some lock ∧ lock.owner ≠ owner := by
  obtain ⟨hmem,hname⟩ := Table.find_eq_some.mp h
  obtain ⟨hrow,hother⟩ := Table.mem_deleteWhere.mp hmem
  refine ⟨Table.find_eq_some.mpr ⟨hrow,hname⟩,fun howner => ?_⟩
  simp [runLockGuard,hname,howner] at hother

end Statements

namespace LockState

/-- The row belongs to an issued guard and carries its last stamp; attempts do not run ahead of
the clock. -/
structure Sound (s : LockState) : Prop where
  held : ∀ lock, s.lockRow = some lock → ∃ stamp, s.attempts lock.owner = .issued stamp ∧
    lock.heartbeatUnixSeconds = unixSeconds stamp
  timely : ∀ owner now staleAfter, s.attempts owner = .inserting now staleAfter ∨
    s.attempts owner = .replacing now staleAfter → now ≤ s.clock

theorem Initial.sound {s : LockState} (h : s.Initial) : s.Sound := by
  obtain ⟨hfree,hunborn⟩ | ⟨row,stamp,hrow,hstamp,hattempts⟩ := h
  · constructor
    · intro lock hlock
      rw [hfree] at hlock
      cases hlock
    · intro owner now staleAfter h
      simp [hunborn] at h
  · constructor
    · intro lock hlock
      obtain rfl : row = lock := Option.some.inj (hrow.symm.trans hlock)
      exact ⟨stamp,by rw [hattempts,Function.update_self],hstamp⟩
    · intro owner now staleAfter h
      rw [hattempts] at h
      by_cases howner : owner = row.owner
      · simp [howner] at h
      · simp [howner] at h

variable {s : LockState} {owner : Str}

theorem not_owns_iff : ¬ s.Owns owner ↔ ∀ lock, s.lockRow = some lock → lock.owner ≠ owner := by
  simp [Owns]

theorem Sound.current (h : s.Sound) (howns : s.Owns owner) : s.Current owner := by
  obtain ⟨lock,hlock,rfl⟩ := howns
  obtain ⟨stamp,hstamp,-⟩ := h.held lock hlock
  exact ⟨⟨stamp,hstamp⟩,lock,hlock,rfl⟩

/-- An attempt without the row can change without touching the row's holder. -/
theorem Sound.held_update (h : s.Sound) {attempt : Attempt}
    (hother : ∀ stamp, s.attempts owner ≠ .issued stamp) :
    ∀ lock, s.lockRow = some lock → ∃ stamp,
      Function.update s.attempts owner attempt lock.owner = .issued stamp ∧
        lock.heartbeatUnixSeconds = unixSeconds stamp := by
  intro lock hlock
  obtain ⟨stamp,hstamp,hbeat⟩ := h.held lock hlock
  refine ⟨stamp,?_,hbeat⟩
  rwa [Function.update_of_ne]
  intro howner
  exact hother stamp (howner ▸ hstamp)

theorem Sound.timely_update (h : s.Sound) {attempt : Attempt}
    (hattempt : ∀ now staleAfter, attempt = .inserting now staleAfter ∨
      attempt = .replacing now staleAfter → now ≤ s.clock) :
    ∀ other now staleAfter, Function.update s.attempts owner attempt other =
        .inserting now staleAfter ∨
      Function.update s.attempts owner attempt other = .replacing now staleAfter →
        now ≤ s.clock := by
  intro other now staleAfter hother
  by_cases howner : other = owner
  · rw [howner,Function.update_self] at hother
    exact hattempt now staleAfter hother
  · rw [Function.update_of_ne howner] at hother
    exact h.timely other now staleAfter hother

end LockState

namespace LockStep

open LockState

variable {s t : LockState} {event : LockEvent} {owner : Str}

theorem sound (hstep : LockStep s event t) (h : s.Sound) : t.Sound := by
  cases hstep with
  | tick hclock =>
    exact ⟨h.held,fun owner now staleAfter hattempt =>
      (h.timely owner now staleAfter hattempt).trans hclock⟩
  | elsewhere hlocks =>
    refine ⟨fun lock hlock => h.held lock ?_,h.timely⟩
    rw [lockRow] at hlock ⊢
    rwa [← hlocks]
  | start howner hnow =>
    refine ⟨h.held_update (by simp [howner]),h.timely_update ?_⟩
    rintro now staleAfter (⟨⟨⟩⟩ | ⟨⟨⟩⟩)
    exact hnow
  | fail howner =>
    refine ⟨h.held_update ?_,h.timely_update ?_⟩
    · rintro stamp hissued
      simp [hissued] at howner
    · rintro now staleAfter (⟨⟨⟩⟩ | ⟨⟨⟩⟩)
  | @insert owner now staleAfter howner =>
    have hnow : now ≤ s.clock := h.timely owner now staleAfter (Or.inl howner)
    cases hrow : s.lockRow with
    | none =>
      obtain ⟨hresult,hinserted⟩ := insertRunLock_free owner (unixSeconds now) hrow
      rw [hresult]
      refine ⟨fun lock hlock => ?_,h.timely_update ?_⟩
      · obtain rfl := Option.some.inj (hinserted.symm.trans hlock)
        exact ⟨now,by simp [setAttempt,Attempt.afterInsert],rfl⟩
      · rintro _ _ (⟨⟨⟩⟩ | ⟨⟨⟩⟩)
    | some lock =>
      rw [insertRunLock_taken hrow]
      refine ⟨h.held_update (by simp [howner]),h.timely_update ?_⟩
      rintro _ _ (⟨⟨⟩⟩ | ⟨⟨⟩⟩)
      exact hnow
  | @replace owner now staleAfter howner =>
    have hrefused : ∀ result, s.repository.replaceStaleRunLock owner (unixSeconds now)
        (unixSeconds now-wholeSeconds staleAfter) = (false,s.repository) → result =
          s.repository.replaceStaleRunLock owner (unixSeconds now)
            (unixSeconds now-wholeSeconds staleAfter) →
        Sound { s.setAttempt owner (.afterReplace now result.1) with repository := result.2 } := by
      rintro result hresult rfl
      rw [hresult]
      refine ⟨h.held_update (by simp [howner]),h.timely_update ?_⟩
      rintro _ _ (⟨⟨⟩⟩ | ⟨⟨⟩⟩)
    cases hrow : s.lockRow with
    | none => exact hrefused _ (replaceStaleRunLock_free hrow) rfl
    | some lock =>
      by_cases hstale : lock.heartbeatUnixSeconds < unixSeconds now-wholeSeconds staleAfter
      · obtain ⟨hresult,hreplaced⟩ := replaceStaleRunLock_stale owner (unixSeconds now) hrow hstale
        rw [hresult]
        refine ⟨fun lock hlock => ?_,h.timely_update ?_⟩
        · obtain rfl := Option.some.inj (hreplaced.symm.trans hlock)
          exact ⟨now,by simp [setAttempt,Attempt.afterReplace],rfl⟩
        · rintro _ _ (⟨⟨⟩⟩ | ⟨⟨⟩⟩)
      · exact hrefused _ (replaceStaleRunLock_fresh hrow hstale) rfl
  | @heartbeat owner now howner hnow =>
    by_cases howns : s.Owns owner
    · obtain ⟨lock,hrow,rfl⟩ := howns
      obtain ⟨hresult,hupdated⟩ := heartbeatRunLock_owned (unixSeconds now) hrow rfl
      rw [hresult]
      refine ⟨fun row hlock => ?_,h.timely_update ?_⟩
      · obtain rfl := Option.some.inj (hupdated.symm.trans hlock)
        exact ⟨now,by simp [setAttempt,Attempt.afterHeartbeat],rfl⟩
      · rintro _ _ (⟨⟨⟩⟩ | ⟨⟨⟩⟩)
    · rw [heartbeatRunLock_other (not_owns_iff.mp howns)]
      have hsame : s.setAttempt owner ((s.attempts owner).afterHeartbeat now false) = s := by
        simp [setAttempt,Attempt.afterHeartbeat]
      rw [hsame]
      exact h
  | @release owner howner =>
    refine ⟨fun lock hlock => ?_,h.timely_update ?_⟩
    · obtain ⟨hrow,hother⟩ := releaseRunLock_gone hlock
      obtain ⟨stamp,hstamp,hbeat⟩ := h.held lock hrow
      exact ⟨stamp,by simpa [setAttempt,hother] using hstamp,hbeat⟩
    · rintro _ _ (⟨⟨⟩⟩ | ⟨⟨⟩⟩)

/-- A guard without the row stays without it. -/
theorem lost (hstep : LockStep s event t) (hguard : (s.attempts owner).HasGuard)
    (hlost : ¬ s.Owns owner) : (t.attempts owner).HasGuard ∧ ¬ t.Owns owner := by
  have hapart : ∀ other, ¬ (s.attempts other).HasGuard → ∀ attempt,
      (Function.update s.attempts other attempt owner).HasGuard := by
    intro other hother attempt
    rwa [Function.update_of_ne]
    rintro rfl
    exact hother hguard
  cases hstep with
  | tick hclock => exact ⟨hguard,hlost⟩
  | elsewhere hlocks =>
    refine ⟨hguard,?_⟩
    rintro ⟨lock,hlock,howner⟩
    rw [lockRow,hlocks] at hlock
    exact hlost ⟨lock,hlock,howner⟩
  | @start other now staleAfter hother hnow =>
    exact ⟨hapart other (by simp [hother,Attempt.HasGuard]) _,hlost⟩
  | @fail other now staleAfter hother =>
    refine ⟨hapart other ?_ _,hlost⟩
    obtain hother | hother := hother <;> simp [hother,Attempt.HasGuard]
  | @insert other now staleAfter hother =>
    have hwithout : ¬ (s.attempts other).HasGuard := by simp [hother,Attempt.HasGuard]
    refine ⟨hapart other hwithout _,?_⟩
    rintro ⟨lock,hlock,rfl⟩
    cases hrow : s.lockRow with
    | none =>
      obtain ⟨-,hinserted⟩ := insertRunLock_free other (unixSeconds now) hrow
      obtain rfl := Option.some.inj (hinserted.symm.trans hlock)
      exact hwithout hguard
    | some row =>
      rw [insertRunLock_taken hrow] at hlock
      exact hlost ⟨lock,hlock,rfl⟩
  | @replace other now staleAfter hother =>
    have hwithout : ¬ (s.attempts other).HasGuard := by simp [hother,Attempt.HasGuard]
    refine ⟨hapart other hwithout _,?_⟩
    rintro ⟨lock,hlock,rfl⟩
    cases hrow : s.lockRow with
    | none =>
      rw [replaceStaleRunLock_free hrow] at hlock
      exact hlost ⟨lock,hlock,rfl⟩
    | some row =>
      by_cases hstale : row.heartbeatUnixSeconds < unixSeconds now-wholeSeconds staleAfter
      · obtain ⟨-,hreplaced⟩ := replaceStaleRunLock_stale other (unixSeconds now) hrow hstale
        obtain rfl := Option.some.inj (hreplaced.symm.trans hlock)
        exact hwithout hguard
      · rw [replaceStaleRunLock_fresh hrow hstale] at hlock
        exact hlost ⟨lock,hlock,rfl⟩
  | @heartbeat other now hother hnow =>
    by_cases howns : s.Owns other
    · obtain ⟨row,hrow,rfl⟩ := howns
      have hne : owner ≠ row.owner := fun he => hlost ⟨row,hrow,he.symm⟩
      obtain ⟨-,hupdated⟩ := heartbeatRunLock_owned (unixSeconds now) hrow rfl
      refine ⟨by simpa [setAttempt,hne] using hguard,?_⟩
      rintro ⟨lock,hlock,rfl⟩
      obtain rfl := Option.some.inj (hupdated.symm.trans hlock)
      exact hne rfl
    · rw [heartbeatRunLock_other (not_owns_iff.mp howns)]
      refine ⟨?_,hlost⟩
      simpa [setAttempt,Attempt.afterHeartbeat] using hguard
  | @release other hother =>
    constructor
    · by_cases hne : owner = other
      · simp [setAttempt,hne,Attempt.HasGuard]
      · simpa [setAttempt,hne] using hguard
    · rintro ⟨lock,hlock,howner⟩
      exact hlost ⟨lock,(releaseRunLock_gone hlock).1,howner⟩

theorem current_of_other {other : Str} {attempt : Attempt} (h : s.Current owner)
    (hne : owner ≠ other) (hattempts : t.attempts = Function.update s.attempts other attempt)
    (hrow : t.lockRow = s.lockRow) : t.Current owner := by
  obtain ⟨⟨stamp,hstamp⟩,howns⟩ := h
  refine ⟨⟨stamp,by rwa [hattempts,Function.update_of_ne hne]⟩,?_⟩
  simpa [Owns,hrow] using howns

/-- A heartbeat of the holder answers true and renews the row and the stamp. -/
theorem heartbeat_renews {now : Int} (hcurrent : s.Current owner)
    (hstep : LockStep s (.heartbeat owner now) t) :
    (s.repository.heartbeatRunLock (runLockGuard owner) (unixSeconds now)).1 = true ∧
      t.attempts owner = .issued now ∧
        ∃ lock, t.lockRow = some lock ∧ lock.owner = owner ∧
          lock.heartbeatUnixSeconds = unixSeconds now := by
  obtain ⟨-,row,hrow,howner⟩ := hcurrent
  obtain ⟨hanswer,hrenewed⟩ := heartbeatRunLock_owned (unixSeconds now) hrow howner
  cases hstep with
  | heartbeat hguard hnow =>
    refine ⟨hanswer,?_,_,hrenewed,howner,rfl⟩
    simp [setAttempt,hanswer,Attempt.afterHeartbeat]

/-- The holder loses the row by its own release, or to an attempt that found the row stale. -/
theorem current_lost (hstep : LockStep s event t) (h : s.Sound) (hcurrent : s.Current owner)
    (hlost : ¬ t.Current owner) : event = .release owner ∨
      ∃ other now staleAfter stamp, event = .replace other ∧
        s.attempts other = .replacing now staleAfter ∧ s.attempts owner = .issued stamp ∧
          stamp+wholeSeconds staleAfter*10^9 < now ∧ now ≤ s.clock := by
  obtain ⟨⟨stamp,hstamp⟩,row,hrow,howner⟩ := id hcurrent
  have hapart : ∀ other, (∀ stamp, s.attempts other ≠ .issued stamp) → owner ≠ other := by
    rintro other hother rfl
    exact hother stamp hstamp
  cases hstep with
  | tick hclock => exact absurd hcurrent hlost
  | elsewhere hlocks =>
    refine absurd ⟨⟨stamp,hstamp⟩,row,?_,howner⟩ hlost
    rw [lockRow,hlocks]
    exact hrow
  | @start other now staleAfter hother hnow =>
    exact (hlost (current_of_other hcurrent (hapart other (by simp [hother])) rfl rfl)).elim
  | @fail other now staleAfter hother =>
    refine (hlost (current_of_other hcurrent (hapart other ?_) rfl rfl)).elim
    obtain hother | hother := hother <;> simp [hother]
  | @insert other now staleAfter hother =>
    refine absurd (current_of_other hcurrent (hapart other (by simp [hother])) rfl ?_) hlost
    rw [insertRunLock_taken hrow]
    rfl
  | @replace other now staleAfter hother =>
    have hne : owner ≠ other := hapart other (by simp [hother])
    by_cases hstale : row.heartbeatUnixSeconds < unixSeconds now-wholeSeconds staleAfter
    · apply Or.inr
      refine ⟨other,now,staleAfter,stamp,rfl,hother,hstamp,?_,
        h.timely other now staleAfter (Or.inr hother)⟩
      obtain ⟨held,hheld,hbeat⟩ := h.held row hrow
      obtain rfl : stamp = held := by
        rw [howner] at hheld
        exact Attempt.issued.inj (hstamp.symm.trans hheld)
      rw [hbeat] at hstale
      unfold unixSeconds at hstale
      omega
    · refine absurd (current_of_other hcurrent hne rfl ?_) hlost
      rw [replaceStaleRunLock_fresh hrow hstale]
      rfl
  | @heartbeat other now hother hnow =>
    by_cases howns : s.Owns other
    · obtain ⟨lock,hlock,rfl⟩ := howns
      obtain rfl : row = lock := Option.some.inj (hrow.symm.trans hlock)
      obtain ⟨hresult,hupdated⟩ := heartbeatRunLock_owned (unixSeconds now) hrow rfl
      subst howner
      refine (hlost ⟨⟨now,?_⟩,_,hupdated,rfl⟩).elim
      simp [setAttempt,hresult,Attempt.afterHeartbeat]
    · have hne : owner ≠ other := fun he => howns ⟨row,hrow,howner.trans he⟩
      refine absurd (current_of_other hcurrent hne rfl ?_) hlost
      rw [heartbeatRunLock_other (not_owns_iff.mp howns)]
      rfl
  | @release other hother =>
    by_cases hne : owner = other
    · exact Or.inl (by rw [hne])
    · refine absurd (current_of_other hcurrent hne rfl ?_) hlost
      have hkept := releaseRunLock_other s.repository other (by
        intro lock hlock
        obtain rfl : row = lock := Option.some.inj (hrow.symm.trans hlock)
        rwa [howner])
      rw [hkept]
      rfl

/-- A guard is issued together with the row. -/
theorem issues (hstep : LockStep s event t) (hbefore : ¬ (s.attempts owner).HasGuard)
    (hafter : (t.attempts owner).HasGuard) : t.Current owner := by
  have howner : ∀ other attempt, (Function.update s.attempts other attempt owner).HasGuard →
      owner = other ∧ attempt.HasGuard := by
    intro other attempt h
    by_cases hne : owner = other
    · subst hne
      exact ⟨rfl,by simpa using h⟩
    · rw [Function.update_of_ne hne] at h
      exact absurd h hbefore
  cases hstep with
  | tick hclock => exact absurd hafter hbefore
  | elsewhere hlocks => exact absurd hafter hbefore
  | start hother hnow => exact (howner _ _ hafter).2.elim
  | fail hother => exact (howner _ _ hafter).2.elim
  | @insert other now staleAfter hother =>
    obtain ⟨rfl,hguard⟩ := howner _ _ hafter
    cases hrow : s.lockRow with
    | none =>
      obtain ⟨hresult,hinserted⟩ := insertRunLock_free owner (unixSeconds now) hrow
      exact ⟨⟨now,by simp [setAttempt,hresult,Attempt.afterInsert]⟩,_,hinserted,rfl⟩
    | some row =>
      rw [insertRunLock_taken hrow] at hguard
      exact hguard.elim
  | @replace other now staleAfter hother =>
    obtain ⟨rfl,hguard⟩ := howner _ _ hafter
    cases hrow : s.lockRow with
    | none =>
      rw [replaceStaleRunLock_free hrow] at hguard
      exact hguard.elim
    | some row =>
      by_cases hstale : row.heartbeatUnixSeconds < unixSeconds now-wholeSeconds staleAfter
      · obtain ⟨hresult,hreplaced⟩ := replaceStaleRunLock_stale owner (unixSeconds now) hrow hstale
        exact ⟨⟨now,by simp [setAttempt,hresult,Attempt.afterReplace]⟩,_,hreplaced,rfl⟩
      · rw [replaceStaleRunLock_fresh hrow hstale] at hguard
        exact hguard.elim
  | @heartbeat other now hother hnow =>
    obtain ⟨rfl,-⟩ := howner _ _ hafter
    exact absurd hother hbefore
  | @release other hother =>
    obtain ⟨rfl,-⟩ := howner _ _ hafter
    exact absurd hother hbefore

end LockStep

section Acquisition

variable {μ : Type}

/-- What is left of `try_acquire_run_lock` at each stage of an attempt. -/
def Attempt.rest (owner : Str) : Attempt → Locking μ (Option RunLockGuard)
  | .inserting now staleAfter => do
    let inserted ← RunLock.state (.insertRunLock owner (unixSeconds now))
    if inserted then return some (runLockGuard owner)
    else
      let replaced ← RunLock.state (.replaceStaleRunLock owner (unixSeconds now)
        (unixSeconds now-wholeSeconds staleAfter))
      if replaced then return some (runLockGuard owner) else return none
  | .replacing now staleAfter => do
    let replaced ← RunLock.state (.replaceStaleRunLock owner (unixSeconds now)
      (unixSeconds now-wholeSeconds staleAfter))
    if replaced then return some (runLockGuard owner) else return none
  | .issued _ => return some (runLockGuard owner)
  | _ => return none

/-- An acquisition reads the clock and goes on as an attempt that inserts first. -/
theorem tryAcquireRunLock_starts (owner : Str) (staleAfter : Int) :
    ∃ rest, (RunLock.tryAcquireRunLock owner (wholeSeconds staleAfter) :
        Locking μ (Option RunLockGuard)) = RunLock.perform .now >>= rest ∧
      ∀ now, rest (unixSeconds now) = Attempt.rest owner (.inserting now staleAfter) :=
  ⟨_,rfl,fun _ => rfl⟩

theorem Attempt.rest_inserting (owner : Str) (now staleAfter : Int) :
    (Attempt.rest owner (.inserting now staleAfter) : Locking μ (Option RunLockGuard)) =
      RunLock.state (.insertRunLock owner (unixSeconds now)) >>= fun inserted =>
        Attempt.rest owner (.afterInsert now staleAfter inserted) := by
  rw [Attempt.rest]
  congr
  funext inserted
  cases inserted <;> rfl

theorem Attempt.rest_replacing (owner : Str) (now staleAfter : Int) :
    (Attempt.rest owner (.replacing now staleAfter) : Locking μ (Option RunLockGuard)) =
      RunLock.state (.replaceStaleRunLock owner (unixSeconds now)
          (unixSeconds now-wholeSeconds staleAfter)) >>= fun replaced =>
        Attempt.rest owner (.afterReplace now replaced) := by
  rw [Attempt.rest]
  congr
  funext replaced
  cases replaced <;> rfl

end Acquisition

namespace LockRuns

open LockState

variable {start s t : LockState} {owner : Str}

theorem sound (hrun : LockRuns start s) (h : start.Sound) : s.Sound := by
  induction hrun with
  | refl => exact h
  | tail _ hstep ih =>
    obtain ⟨event,hstep⟩ := hstep
    exact hstep.sound ih

theorem lost (hrun : LockRuns s t) (hguard : (s.attempts owner).HasGuard)
    (hlost : ¬ s.Owns owner) : (t.attempts owner).HasGuard ∧ ¬ t.Owns owner := by
  induction hrun with
  | refl => exact ⟨hguard,hlost⟩
  | tail _ hstep ih =>
    obtain ⟨event,hstep⟩ := hstep
    exact hstep.lost ih.1 ih.2

end LockRuns

open LockState in
/-- In every reachable state the row belongs to an issued guard and to no other; a heartbeat of the
holder answers true and renews its stamp; the holder loses the row by its own release or to an
attempt that finds its last stamp older than the whole seconds of `stale_after`, and a guard
without the row is answered false and changes nothing for good. -/
theorem runLock_exclusive {start s : LockState} (hstart : start.Initial)
    (hrun : LockRuns start s) :
    (∀ owner, s.Owns owner → s.Current owner) ∧
    (∀ owner other, s.Current owner → s.Current other → owner = other) ∧
    (∀ owner now t, s.Current owner → LockStep s (.heartbeat owner now) t →
      (s.repository.heartbeatRunLock (runLockGuard owner) (unixSeconds now)).1 = true ∧
        t.attempts owner = .issued now ∧
          ∃ lock, t.lockRow = some lock ∧ lock.owner = owner ∧
            lock.heartbeatUnixSeconds = unixSeconds now) ∧
    (∀ owner event t, s.Current owner → LockStep s event t → ¬ t.Current owner →
      event = .release owner ∨ ∃ other now staleAfter stamp, event = .replace other ∧
        s.attempts other = .replacing now staleAfter ∧ s.attempts owner = .issued stamp ∧
          stamp+wholeSeconds staleAfter*10^9 < now ∧ now ≤ s.clock) ∧
    ∀ owner, (s.attempts owner).HasGuard → ¬ s.Owns owner → ∀ t, LockRuns s t → ∀ now,
      t.repository.heartbeatRunLock (runLockGuard owner) now = (false,t.repository) ∧
        t.repository.releaseRunLock (runLockGuard owner) = (false,t.repository) := by
  have hsound := hrun.sound hstart.sound
  refine ⟨fun owner => hsound.current,?_,?_,?_,?_⟩
  · rintro owner other ⟨-,row,hrow,rfl⟩ ⟨-,lock,hlock,rfl⟩
    exact congrArg StateLock.owner (Option.some.inj (hrow.symm.trans hlock))
  · exact fun owner now t hcurrent hstep => hstep.heartbeat_renews hcurrent
  · exact fun owner event t hcurrent hstep => hstep.current_lost hsound hcurrent
  · intro owner hguard hlost t hlater now
    have hnever := not_owns_iff.mp (hlater.lost hguard hlost).2
    exact ⟨heartbeatRunLock_other hnever,releaseRunLock_other _ _ hnever⟩

section Takeover

private def holder : Str := "a".toList

private def taker : Str := "b".toList

/-- A guard holds the lock since `stamp`. -/
private def heldLock (stamp : Int) : LockState :=
  ⟨{ stateLocks := Table.empty.put { name := runLockName, owner := holder
                                     heartbeatUnixSeconds := unixSeconds stamp } },
    stamp,Function.update (fun _ => .unborn) holder (.issued stamp)⟩

private def begunLock (stamp now staleAfter : Int) : LockState :=
  { heldLock stamp with clock := now }.setAttempt taker (.inserting now staleAfter)

private def contendedLock (stamp now staleAfter : Int) : LockState :=
  { (begunLock stamp now staleAfter).setAttempt taker (.afterInsert now staleAfter
      ((begunLock stamp now staleAfter).repository.insertRunLock taker (unixSeconds now)).1) with
    repository :=
      ((begunLock stamp now staleAfter).repository.insertRunLock taker (unixSeconds now)).2 }

/-- At `now` another attempt put its name in the row, if it found the row stale. -/
private def takenLock (stamp now staleAfter : Int) : LockState :=
  { (contendedLock stamp now staleAfter).setAttempt taker (.afterReplace now
      ((contendedLock stamp now staleAfter).repository.replaceStaleRunLock taker
        (unixSeconds now) (unixSeconds now-wholeSeconds staleAfter)).1) with
    repository := ((contendedLock stamp now staleAfter).repository.replaceStaleRunLock taker
      (unixSeconds now) (unixSeconds now-wholeSeconds staleAfter)).2 }

private theorem heldLock_initial (stamp : Int) : (heldLock stamp).Initial :=
  Or.inr ⟨_,stamp,rfl,rfl,rfl⟩

private theorem contendedLock_reached {stamp now : Int} (staleAfter : Int) (h : stamp ≤ now) :
    LockRuns (heldLock stamp) (contendedLock stamp now staleAfter) := by
  have hlate : LockRuns (heldLock stamp) { heldLock stamp with clock := now } :=
    .single ⟨_,.tick h⟩
  have hbegun : LockRuns (heldLock stamp) (begunLock stamp now staleAfter) := by
    refine hlate.tail ⟨_,.start ?_ le_rfl⟩
    rfl
  exact hbegun.tail ⟨_,.insert (by simp [begunLock,LockState.setAttempt])⟩

private theorem takenLock_replaces (stamp now staleAfter : Int) :
    LockStep (contendedLock stamp now staleAfter) (.replace taker)
      (takenLock stamp now staleAfter) := by
  refine .replace (by rfl)

/-- After ninety seconds another attempt took the lock over: its heartbeats go through, those of
the guard that lost it do not. -/
theorem takenLock_shut : (takenLock 0 (90*10^9) (60*10^9)).Current taker ∧
    ((takenLock 0 (90*10^9) (60*10^9)).repository.heartbeatRunLock (runLockGuard taker)
      (unixSeconds (90*10^9))).1 = true ∧
    (takenLock 0 (90*10^9) (60*10^9)).repository.heartbeatRunLock (runLockGuard holder) 91 =
      (false,(takenLock 0 (90*10^9) (60*10^9)).repository) := by
  have hreached : LockRuns (heldLock 0) (takenLock 0 (90*10^9) (60*10^9)) :=
    (contendedLock_reached _ (by decide)).tail ⟨_,takenLock_replaces _ _ _⟩
  obtain ⟨hholds,-,hrenews,-,hshut⟩ := runLock_exclusive (heldLock_initial 0) hreached
  have howns : (takenLock 0 (90*10^9) (60*10^9)).Owns taker := ⟨_,rfl,rfl⟩
  have hlost : ¬ (takenLock 0 (90*10^9) (60*10^9)).Owns holder := by
    rintro ⟨lock,hlock,howner⟩
    cases hlock
    exact absurd howner (by decide)
  have hanswer := hrenews taker (90*10^9) _ (hholds taker howns) (.heartbeat (by decide) le_rfl)
  exact ⟨hholds taker howns,hanswer.1,(hshut holder (by decide) hlost _ .refl 91).1⟩

/-- Only the whole seconds count: with a `stale_after` of 1.9 seconds a guard last renewed at
0.9 seconds loses its row at 2.0 seconds. -/
theorem fractionalStale_takenEarly :
    ¬ ∀ start s, LockState.Initial start → LockRuns start s → ∀ owner event t,
      s.Current owner → LockStep s event t → ¬ t.Current owner →
        event = .release owner ∨ ∃ other now staleAfter stamp, event = .replace other ∧
          s.attempts other = .replacing now staleAfter ∧ s.attempts owner = .issued stamp ∧
            stamp+staleAfter < now := by
  intro hclaim
  have hcurrent : (contendedLock 900000000 2000000000 1900000000).Current holder :=
    ⟨⟨_,rfl⟩,_,rfl,rfl⟩
  have hlost : ¬ (takenLock 900000000 2000000000 1900000000).Current holder := by
    rintro ⟨-,lock,hlock,howner⟩
    cases hlock
    exact absurd howner (by decide)
  obtain hrelease | ⟨other,now,staleAfter,stamp,hreplace,hother,hissued,hold⟩ :=
    hclaim _ _ (heldLock_initial 900000000) (contendedLock_reached 1900000000 (by decide))
      holder _ _ hcurrent (takenLock_replaces _ _ _) hlost
  · cases hrelease
  · cases hreplace
    cases hother
    cases hissued
    exact absurd hold (by decide)

end Takeover

end YaDiskSync
