import YaDiskSync.StateFrame

/-! Which statements write the row of the run lock, and which the rows of the runs. -/
namespace YaDiskSync

namespace StateCall

def onLock : StateCall → Bool
  | .insertRunLock .. | .replaceStaleRunLock .. | .heartbeatRunLock .. | .releaseRunLock _ => true
  | _ => false

def onRuns : StateCall → Bool
  | .beginRun _ | .finishRun .. | .updateRunProgress .. | .repairInterruptedRuns => true
  | _ => false

/-- What a call leaves of the lock and of the runs. -/
structure Spares (call : StateCall) (repository repository' : Repository) : Prop where
  locks : call.onLock = false → repository'.stateLocks = repository.stateLocks
  runs : call.onRuns = false → repository'.syncRuns = repository.syncRuns

theorem run_spares {call : StateCall} {repository repository' : Repository} {result : call.Result}
    (h : call.run repository = .ok (result,repository')) : call.Spares repository repository' := by
  cases call with
  | finishRun id status summary =>
    obtain ⟨_,rfl⟩ := Repository.updateRun_eq (unitResult_ok h)
    exact ⟨fun _ => rfl,fun hw => (nomatch hw)⟩
  | updateRunProgress id summary =>
    obtain ⟨_,rfl⟩ := Repository.updateRun_eq (unitResult_ok h)
    exact ⟨fun _ => rfl,fun hw => (nomatch hw)⟩
  | updateSyncRootStatus id lastStatus lastError =>
    obtain ⟨_,rfl⟩ := Repository.updateSyncRootStatus_eq (unitResult_ok h)
    exact ⟨fun _ => rfl,fun _ => rfl⟩
  | finishOperation id status errorKind errorMessage =>
    obtain ⟨_,rfl⟩ := Repository.finishOperation_eq (unitResult_ok h)
    exact ⟨fun _ => rfl,fun _ => rfl⟩
  | replaceRemoteResourcesForRoot rootId records =>
    obtain ⟨_,rfl⟩ := Repository.replaceRemoteResourcesForRoot_eq (unitResult_ok h)
    exact ⟨fun _ => rfl,fun _ => rfl⟩
  | insertRunLock owner now =>
    obtain ⟨_,he⟩ := repository.insertRunLock_eq owner now
    rw [show repository' = _ from (congrArg Prod.snd (Except.ok.inj h)).symm.trans he]
    exact ⟨fun hw => (nomatch hw),fun _ => rfl⟩
  | replaceStaleRunLock owner now staleBefore =>
    obtain ⟨_,he⟩ := repository.replaceStaleRunLock_eq owner now staleBefore
    rw [show repository' = _ from (congrArg Prod.snd (Except.ok.inj h)).symm.trans he]
    exact ⟨fun hw => (nomatch hw),fun _ => rfl⟩
  | heartbeatRunLock guard now =>
    obtain ⟨_,he⟩ := repository.heartbeatRunLock_eq guard now
    rw [show repository' = _ from (congrArg Prod.snd (Except.ok.inj h)).symm.trans he]
    exact ⟨fun hw => (nomatch hw),fun _ => rfl⟩
  | upsertFileStates records =>
    cases h
    have hpart : ∀ {γ : Type} (part : Repository → γ), (∀ r record, part (Repository.upsertFileState r record) = part r) →
        part (repository.upsertFileStates records) = part repository :=
      fun part hp => foldl_part_eq part hp records repository
    exact ⟨fun _ => hpart _ fun _ _ => rfl,fun _ => hpart _ fun _ _ => rfl⟩
  | upsertRemoteResources records =>
    cases h
    have hpart : ∀ {γ : Type} (part : Repository → γ), (∀ r record, part (Repository.upsertRemoteResource r record) = part r) →
        part (repository.upsertRemoteResources records) = part repository :=
      fun part hp => foldl_part_eq part hp records repository
    exact ⟨fun _ => hpart _ fun _ _ => rfl,fun _ => hpart _ fun _ _ => rfl⟩
  | upsertMigrationMaps records =>
    cases h
    have hpart : ∀ {γ : Type} (part : Repository → γ), (∀ r record, part (Repository.upsertMigrationMap r record) = part r) →
        part (repository.upsertMigrationMaps records) = part repository :=
      fun part hp => foldl_part_eq part hp records repository
    exact ⟨fun _ => hpart _ fun _ _ => rfl,fun _ => hpart _ fun _ _ => rfl⟩
  | appendOperationsSucceeded records =>
    cases h
    have hpart : ∀ {γ : Type} (part : Repository → γ), (∀ r record, part (Repository.appendOperation r record .succeeded).2 = part r) →
        part (repository.appendOperationsSucceeded records) = part repository :=
      fun part hp => foldl_part_eq part hp records repository
    exact ⟨fun _ => hpart _ fun _ _ => rfl,fun _ => hpart _ fun _ _ => rfl⟩
  | _ =>
    cases h
    constructor <;> intro hw <;> first | rfl | cases hw

end StateCall

section Perform

variable {ρ μ : Type} {env : Environment ρ} {w w' : World ρ μ} {e : Effect μ} {answer : e.Answer}

/-- The effect of a step on the database: none, or that of a call. -/
theorem Environment.Perform.repository_spares (h : env.Perform w e answer w') :
    w'.repository = w.repository ∨
      ∃ call, e = .state call ∧ call.Spares w.repository w'.repository := by
  cases e with
  | state call =>
    cases answer with
    | ok result => exact Or.inr ⟨call,rfl,StateCall.run_spares h.state_ok⟩
    | error error => exact Or.inl h.state_error
  | _ => exact Or.inl (h.repository_eq fun call he => by cases he)

theorem Environment.Perform.locks_eq (h : env.Perform w e answer w')
    (he : ∀ call, e = .state call → call.onLock = false) :
    w'.repository.stateLocks = w.repository.stateLocks := by
  rcases h.repository_spares with hsame | ⟨call,hcall,hspares⟩
  · rw [hsame]
  · exact hspares.locks (he call hcall)

end Perform

end YaDiskSync
