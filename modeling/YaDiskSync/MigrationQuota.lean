import YaDiskSync.Quota
import YaDiskSync.MigrationWork

/-! The room a migration takes up: each file is checked against what is available before its upload
is put in line, together with what the root has used up and what is in line already. -/
namespace YaDiskSync

open Prog

def candidateBytes (batch : List MigrationUploadCandidate) : Nat :=
  fileBytes (batch.map MigrationUploadCandidate.file)

@[simp] theorem candidateBytes_nil : candidateBytes [] = 0 := rfl

@[simp] theorem candidateBytes_cons (candidate : MigrationUploadCandidate)
    (batch : List MigrationUploadCandidate) :
    candidateBytes (candidate :: batch) = candidate.file.sizeBytes+candidateBytes batch := by
  simp [candidateBytes,fileBytes]

@[simp] theorem candidateBytes_append (batch batch' : List MigrationUploadCandidate) :
    candidateBytes (batch ++ batch') = candidateBytes batch+candidateBytes batch' := by
  simp [candidateBytes,fileBytes]

theorem candidateBytes_perm {batch batch' : List MigrationUploadCandidate} (h : batch.Perm batch') :
    candidateBytes batch = candidateBytes batch' :=
  ((h.map _).map _).sum_eq

/-- A file that is let through fits in, as long as no sum saturates. -/
theorem fits_of_not_exceedsQuota {left bytesUploaded : Nat} {pending : List MigrationUploadCandidate}
    {file : LocalFileEntry} (h : MigrationEngine.exceedsQuota left bytesUploaded pending file = false)
    (hsize : bytesUploaded+candidateBytes pending+file.sizeBytes < 2^64) :
    bytesUploaded+candidateBytes pending+file.sizeBytes ≤ left := by
  have hfold : ∀ (pending : List MigrationUploadCandidate) (bytes : Nat),
      bytes+candidateBytes pending < 2^64 → pending.foldl (fun total candidate =>
        saturatingAdd total candidate.file.sizeBytes) bytes = bytes+candidateBytes pending := by
    intro pending
    induction pending with
    | nil => exact fun _ _ => rfl
    | cons candidate pending ih =>
      intro bytes hbytes
      rw [candidateBytes_cons] at hbytes
      rw [List.foldl_cons,saturatingAdd_eq (by omega),ih _ (by omega),candidateBytes_cons,
        Nat.add_assoc]
  have hinner : saturatingAdd bytesUploaded (candidateBytes pending) =
      bytesUploaded+candidateBytes pending := saturatingAdd_eq (by omega)
  rw [MigrationEngine.exceedsQuota,hfold pending 0 (by omega),Nat.zero_add,hinner,
    saturatingAdd_eq hsize] at h
  simpa using h

namespace MigrationQuota

variable {ρ : Type} {env : Environment ρ} {total available : Option Nat}
  {spent out reserved count : Nat} {batch : List MigrationUploadCandidate}

abbrev Runs (env : Environment ρ) (P : Traced ρ MigrationMemory → Prop) {ε α : Type}
    (p : ExceptT ε (Prog (Effect MigrationMemory) Effect.Answer) α)
    (Q : α → Traced ρ MigrationMemory → Prop) : Prop :=
  Spends Bounded env P p Q Adrift

/-- `I` is kept whatever becomes of the program. -/
abbrev Holds (env : Environment ρ) (I : Traced ρ MigrationMemory → Prop) ⦃α : Type⦄
    (p : Migrator α) : Prop :=
  Spends Bounded env I p (fun _ => I) I

/-- In the work on a root: what is in line, and a plan whose files do not come to too much. -/
structure Holding (total : Option Nat) (spent count out reserved : Nat)
    (batch : List MigrationUploadCandidate) (s : Traced ρ MigrationMemory) : Prop where
  afloat : Afloat total spent out reserved s
  crew : Crew (fun task => ¬ task.IsCreate) count s
  batch : s.world.memory.uploadBatch = batch
  plan : ∀ plan, s.world.memory.livePlan = some plan → fileBytes plan.files < 2^64

section Work

variable {s s' : Traced ρ MigrationMemory}

theorem stable_holding :
    Stable env.TraceDrift (Holding (ρ := ρ) total spent count out reserved batch) :=
  fun _ _ h hdrift => ⟨Afloat.stable _ _ h.afloat hdrift,stable_crew _ _ h.crew hdrift,
    hdrift.memory_eq ▸ h.batch,hdrift.memory_eq ▸ h.plan⟩

theorem Holding.keep (h : Holding total spent count out reserved batch s)
    {e : Effect MigrationMemory} {answer : e.Answer} (he : MigrationEngine.isCalm e = true)
    (hstep : env.TraceStep Bounded s e answer s') :
    Holding total spent count out reserved batch s' := by
  have htasks : e.onTasks = false := by cases e <;> first | rfl | cases he
  have hmemory : s'.world.memory = s.world.memory :=
    hstep.2.1.memory_eq fun f hf => by subst hf; cases he
  exact ⟨h.afloat.keep htasks hstep,h.crew.of_step htasks hstep,hmemory ▸ h.batch,hmemory ▸ h.plan⟩

/-- An assignment that may change what is in line and the plan. -/
theorem Holding.assign {batch' : List MigrationUploadCandidate} {f : MigrationMemory → MigrationMemory}
    {answer : Unit} (h : Holding total spent count out reserved batch s)
    (hbatch : (f s.world.memory).uploadBatch = batch')
    (hplan : ∀ plan, (f s.world.memory).livePlan = some plan → fileBytes plan.files < 2^64)
    (hstep : env.TraceStep Bounded s (.updateMemory f) answer s') :
    Holding total spent count out reserved batch' s' := by
  have hmemory : s'.world.memory = f s.world.memory := hstep.2.1.memory_update
  exact ⟨h.afloat.keep rfl hstep,h.crew.of_step rfl hstep,hmemory ▸ hbatch,hmemory ▸ hplan⟩

theorem Holding.adrift (h : Holding total spent count out reserved batch s) : Adrift s :=
  h.afloat.adrift

theorem Holding.withinQuota (h : Holding total spent count out reserved batch s) : WithinQuota s :=
  h.afloat.withinQuota

theorem calm_holds {ε α : Type} {p : ExceptT ε (Prog (Effect MigrationMemory) Effect.Answer) α}
    (hp : Only (fun e => MigrationEngine.isCalm e = true) p.run) :
    Spends Bounded env (Holding total spent count out reserved batch) p
      (fun _ => Holding total spent count out reserved batch)
      (Holding total spent count out reserved batch) :=
  hp.keeps stable_holding (fun _ h => h.withinQuota) fun _ he _ _ _ h hstep => h.keep he hstep

theorem setLivePlan_holds {plan : LiveScanPlan} (hplan : fileBytes plan.files < 2^64) :
    Holds env (Holding total spent count out reserved batch) (MigrationEngine.setLivePlan plan) :=
  TryTriple.perform stable_holding (fun _ h => h.withinQuota) fun _ _ _ h hstep =>
    h.assign h.batch (fun _ hp => by cases hp; exact hplan) hstep

/-- The plan in memory, with what its files come to. -/
theorem livePlan_runs :
    Spends Bounded env (Holding total spent count out reserved batch) MigrationEngine.livePlan
      (fun plan s => fileBytes plan.files < 2^64 ∧
        Holding total spent count out reserved batch s)
      (Holding total spent count out reserved batch) := by
  refine TryTriple.bind (Q := fun memory s => (∀ plan, memory.livePlan = some plan →
      fileBytes plan.files < 2^64) ∧ Holding total spent count out reserved batch s)
    (TryTriple.perform stable_holding (fun _ h => h.withinQuota)
      fun s memory s' h hstep => ⟨?_,h.keep rfl hstep⟩) fun memory => TryTriple.pure fun s h => ⟨?_,h.2⟩
  · rw [show memory = s.world.memory from hstep.2.1.1]
    exact h.plan
  · cases hplan : memory.livePlan with
    | none => simp [fileBytes]
    | some plan => exact h.1 plan hplan

theorem working_holding :
    MigrationEngine.Working (Holds env (Holding (ρ := ρ) total spent count out reserved batch)) where
  toSequential := sequential_try fun _ h => h
  calm hp := calm_holds hp.lift
  work f hf := TryTriple.perform stable_holding (fun _ h => h.withinQuota) fun s _ _ h hstep =>
    h.assign ((hf _).2.trans h.batch) (by rw [(hf _).1]; exact h.plan) hstep
  register localPath relativePath remotePath := by
    have hasks : Sequential fun ⦃α⦄ (p : Migrator α) =>
        Only (fun e => MigrationEngine.isCalm e = true) p.run := sequential_only
    have hasked : ∀ e, MigrationEngine.isCalm e = true →
        Only (fun e => MigrationEngine.isCalm e = true) (MigrationEngine.perform e).run :=
      fun e he => ⟨he,fun _ => trivial⟩
    refine TryTriple.bind livePlan_runs fun plan =>
      TryTriple.of_pure (fun s h => h.1) fun hplan => TryTriple.pre ?_ fun s h => h.2
    refine TryTriple.bind (Q := fun result s => result.1.files = plan.files ∧
      Holding total spent count out reserved batch s) ?_ fun result =>
        TryTriple.of_pure (fun s h => h.1) fun hfiles => TryTriple.pre ?_ fun s h => h.2
    · refine TryTriple.bind (calm_holds (detectDeletedLocalSubtree_of hasks.toComposable
        (fun path => hasked (.isDir path) rfl) (fun path => hasked (.pathExists path) rfl)
        _ _ _ _ _)) fun subtree => ?_
      cases subtree with
      | none => exact TryTriple.pure fun _ h => ⟨rfl,h⟩
      | some subtree =>
        exact TryTriple.pure fun _ h =>
          ⟨(LiveScanPlan.addDeletedSubtree_entries plan subtree).2.1,h⟩
    · exact TryTriple.bind (setLivePlan_holds (by rw [hfiles]; exact hplan)) fun _ =>
        TryTriple.pure fun _ h => h
  attempt h := TryTriple.lift (Triple.post h fun result s hs => by
    cases result with
    | ok _ => exact hs
    | error _ => exact hs)

theorem Holds.runs {I : Traced ρ MigrationMemory → Prop} (hi : ∀ s, I s → Adrift s) {α : Type}
    {p : Migrator α} (h : Holds env I p) : Runs env I p (fun _ => I) :=
  h.weaken (fun _ h => h) (fun _ _ h => h) hi fun _ h => h

/-- A part of the work on a root that touches no upload. -/
theorem work_runs {α : Type} {p : Migrator α}
    (h : Holds env (Holding total spent count out reserved batch) p) :
    Runs env (Holding total spent count out reserved batch) p
      (fun _ => Holding total spent count out reserved batch) :=
  Holds.runs (fun _ h => h.adrift) h

end Work

section Uploads

variable (config : AppConfig) (root : SyncRootConfig) (runId : Int)
  (baseSummary : SyncRunSummary)

theorem spawnCandidates_runs (started : List MigrationUploadCandidate) :
    Runs env (Holding total spent count out (candidateBytes started+reserved) batch)
      (MigrationEngine.spawnCandidates runId baseSummary started)
      (fun _ => Holding total spent (count+started.length) (out+candidateBytes started) reserved
        batch) := by
  induction started generalizing count out with
  | nil => exact TryTriple.pure fun _ h => { h with afloat := h.afloat.mono (by simp) }
  | cons candidate started ih =>
    have hout : out+candidateBytes (candidate :: started) =
        out+candidate.file.sizeBytes+candidateBytes started := by
      rw [candidateBytes_cons]
      omega
    have hcount : count+(candidate :: started).length = count+1+started.length := by
      simp only [List.length_cons]
      omega
    rw [hout,hcount,candidateBytes_cons,Nat.add_assoc]
    -- a candidate that is dropped leaves what is kept for it
    have hskip : Runs env (Holding total spent count out
        (candidate.file.sizeBytes+(candidateBytes started+reserved)) batch)
        (MigrationEngine.spawnCandidates runId baseSummary started)
        (fun _ => Holding total spent (count+1+started.length)
          (out+candidate.file.sizeBytes+candidateBytes started) reserved batch) :=
      ih.pre fun _ h => { h with afloat := h.afloat.take, crew := h.crew.mono (Nat.le_succ _) }
    have hw : MigrationEngine.Working (Holds env (Holding total spent count out
        (candidate.file.sizeBytes+(candidateBytes started+reserved)) batch)) := working_holding
    refine TryTriple.bind (work_runs hw.reporting.livePlan) fun plan => ?_
    refine iteInduction (motive := fun p => Runs env _ p _) (fun _ => hskip) fun _ => ?_
    refine TryTriple.bind (work_runs (hw.register _ _ _)) fun found => ?_
    cases found with
    | some subtree =>
      exact TryTriple.bind (work_runs (hw.state _)) fun _ =>
        TryTriple.bind (work_runs (hw.reporting.recordDeletedSubtree runId subtree)) fun _ =>
          TryTriple.bind (work_runs (hw.persistRootProgress runId baseSummary)) fun _ => hskip
    | none =>
      refine TryTriple.bind (TryTriple.perform stable_holding (fun _ h => h.withinQuota)
        fun s answer s' h hstep => ?_) fun _ => ih
      have hmemory : s'.world.memory = s.world.memory := hstep.2.1.memory_eq fun _ => by simp
      exact ⟨h.afloat.spawn hstep,h.crew.spawn (by simp [Task.IsCreate]) hstep,hmemory ▸ h.batch,
        hmemory ▸ h.plan⟩

theorem joinNext_runs :
    Runs env (Holding total spent (count+1) out reserved batch) (MigrationEngine.perform .joinNext)
      (fun joined s => match joined with
        | none => Holding total spent 0 0 reserved batch s
        | some (.created ..) => False
        | some (.uploaded outcome) => (TaskOutcome.uploaded outcome).bytes ≤ out ∧
          Holding total (spent+(TaskOutcome.uploaded outcome).bytes) count
            (out-(TaskOutcome.uploaded outcome).bytes) reserved batch s) := by
  refine TryTriple.perform stable_holding (fun _ h => h.withinQuota) fun s joined s' h hstep => ?_
  have hjoin := h.afloat.join hstep
  have hmemory : s'.world.memory = s.world.memory := hstep.2.1.memory_eq fun _ => by simp
  cases h.crew.join hstep with
  | none ht hw =>
    exact ⟨hjoin,crew_nil (by rw [hw]; exact ht),hmemory ▸ h.batch,hmemory ▸ h.plan⟩
  | @some task outcome hkind hyields _ _ hcrew _ _ =>
    cases task with
    | createDirectory => exact absurd trivial hkind
    | upload operationId file isUpdate text =>
      obtain ⟨result,rfl⟩ := hyields
      exact ⟨hjoin.1,hjoin.2,hcrew,hmemory ▸ h.batch,hmemory ▸ h.plan⟩

theorem joinMigrationUploads_runs (fuel : Nat) (result : MigrationUploadResult)
    (hsize : result.bytesUploaded+out < 2^64) :
    Runs env (Holding total (spent+result.bytesUploaded) fuel out reserved batch)
      (MigrationEngine.joinMigrationUploads root runId baseSummary fuel result)
      (fun joined s => Holding total (spent+joined.bytesUploaded) 0 0 reserved batch s ∧
        joined.bytesUploaded ≤ result.bytesUploaded+out) := by
  induction fuel generalizing result out with
  | zero =>
    exact TryTriple.pure fun s h =>
      ⟨{ h with afloat := h.afloat.landed_all h.crew.tasks_nil },Nat.le_add_right _ _⟩
  | succ fuel ih =>
    refine TryTriple.bind joinNext_runs fun joined => ?_
    match joined with
    | none => exact TryTriple.pure fun _ h => ⟨h,Nat.le_add_right _ _⟩
    | some (.created ..) => exact fun s o s' h _ => h.elim
    | some (.uploaded outcome) =>
      refine TryTriple.of_pure (fun s h => h.1) fun hbytes => TryTriple.pre ?_ fun s h => h.2
      dsimp only
      cases hr : outcome.result with
      | ok _ =>
        have hlanded : (TaskOutcome.uploaded outcome).bytes = outcome.file.sizeBytes := by
          simp [TaskOutcome.bytes,hr]
        rw [hlanded] at hbytes ⊢
        refine TryTriple.bind (work_runs
          (working_holding.recordMigrationUploaded root runId baseSummary _ _ _)) fun _ => ?_
        have hsize' : result.bytesUploaded+outcome.file.sizeBytes+(out-outcome.file.sizeBytes) <
            2^64 := by omega
        rw [saturatingAdd_eq (by omega),Nat.add_assoc]
        exact (ih { result with bytesUploaded := result.bytesUploaded+outcome.file.sizeBytes }
          hsize').post fun joined s h => ⟨h.1,h.2.trans (by dsimp only; omega)⟩
      | error failure =>
        have hlanded : (TaskOutcome.uploaded outcome).bytes = 0 := by
          simp [TaskOutcome.bytes,hr]
        rw [hlanded]
        exact TryTriple.bind (work_runs
          (working_holding.recordMigrationUploadFailure root runId baseSummary outcome failure))
          fun stop => ih { result with shouldStop := result.shouldStop || stop } hsize

/-- What is in line in memory. -/
theorem memory_runs :
    Runs env (Holding total spent count out reserved batch) MigrationEngine.memory
      (fun memory s => memory.uploadBatch = batch ∧
        Holding total spent count out reserved batch s) :=
  TryTriple.perform stable_holding (fun _ h => h.withinQuota) fun s memory s' h hstep =>
    ⟨by rw [show memory = s.world.memory from hstep.2.1.1]; exact h.batch,h.keep rfl hstep⟩

/-- What is left in line stays reserved. -/
theorem uploadRounds_runs (fuel : Nat) (result : MigrationUploadResult)
    (hsize : result.bytesUploaded+candidateBytes batch < 2^64) :
    Runs env (Holding total (spent+result.bytesUploaded) 0 0 (candidateBytes batch) batch)
      (MigrationEngine.uploadRounds config root runId baseSummary fuel result)
      (fun final s => ∃ rest, Holding total (spent+final.bytesUploaded) 0 0 (candidateBytes rest)
        rest s ∧ final.bytesUploaded+candidateBytes rest ≤
          result.bytesUploaded+candidateBytes batch) := by
  induction fuel generalizing result batch with
  | zero => exact TryTriple.pure fun s h => ⟨batch,h,le_rfl⟩
  | succ fuel ih =>
    refine TryTriple.bind memory_runs fun memory => TryTriple.of_pure (fun s h => h.1) fun hbatch =>
      TryTriple.pre ?_ fun s h => h.2
    refine iteInduction (motive := fun p => Runs env _ p _)
      (fun _ => TryTriple.pure fun s h => ⟨batch,h,le_rfl⟩) fun _ => ?_
    rw [hbatch]
    dsimp only
    have hperm := takeMigrationUploadBatch_perm (max config.sync.uploadConcurrency 1)
      config.sync.largeFileNameSizeOnlyMinBytes batch 0 false
    generalize takeMigrationUploadBatch _ _ batch 0 false = next at hperm
    have hbytes : candidateBytes next.1+candidateBytes next.2 = candidateBytes batch := by
      rw [← candidateBytes_append]
      exact candidateBytes_perm hperm
    rw [← hbytes] at hsize ⊢
    have hset : Runs env (Holding total (spent+result.bytesUploaded) 0 0
        (candidateBytes next.1+candidateBytes next.2) batch)
        (MigrationEngine.setUploadBatch next.2)
        (fun _ => Holding total (spent+result.bytesUploaded) 0 0
          (candidateBytes next.1+candidateBytes next.2) next.2) :=
      TryTriple.perform stable_holding (fun _ h => h.withinQuota) fun _ _ _ h hstep =>
        h.assign rfl h.plan hstep
    refine TryTriple.bind hset fun _ => ?_
    refine TryTriple.bind (spawnCandidates_runs runId baseSummary next.1) fun _ => ?_
    refine TryTriple.bind ((joinMigrationUploads_runs root runId baseSummary (next.1.length+1) result
      (by omega)).pre fun s h => { h with crew := h.crew.mono (by omega) }) fun joined => ?_
    refine TryTriple.of_pure (fun s h => h.2) fun hle => ?_
    refine (ih joined (by omega)).weaken (fun s h => h.1) (fun final s h => ?_) (fun _ h => h)
      fun _ h => h
    obtain ⟨rest,hrest,hfinal⟩ := h
    exact ⟨rest,hrest,by omega⟩

theorem applyMigrationUploadBatch_runs (hsize : candidateBytes batch < 2^64) :
    Runs env (Holding total spent 0 0 (candidateBytes batch) batch)
      (MigrationEngine.applyMigrationUploadBatch config root runId baseSummary)
      (fun final s => ∃ rest, Holding total (spent+final.bytesUploaded) 0 0 (candidateBytes rest)
        rest s ∧ final.bytesUploaded+candidateBytes rest ≤ candidateBytes batch) := by
  refine TryTriple.bind (work_runs working_holding.memory) fun memory => ?_
  have hsize' : 0+candidateBytes batch < 2^64 := by omega
  have hrounds : Runs env (Holding total (spent+0) 0 0 (candidateBytes batch) batch) _ _ :=
    uploadRounds_runs config root runId baseSummary memory.uploadBatch.length
      { shouldStop := false, bytesUploaded := 0 } hsize'
  simpa only [Nat.add_zero,Nat.zero_add] using hrounds

/-- A file that is let through is put in line. -/
theorem queueUpload_runs (file : LocalFileEntry) (isUpdate : Bool)
    (hfits : ∀ bytes, total = some bytes → spent+(candidateBytes batch+file.sizeBytes) ≤ bytes) :
    Runs env (Holding total spent 0 0 (candidateBytes batch) batch)
      (MigrationEngine.queueUpload runId file isUpdate)
      (fun _ s => ∃ queued, candidateBytes queued = candidateBytes batch+file.sizeBytes ∧
        Holding total spent 0 0 (candidateBytes queued) queued s) := by
  refine TryTriple.bind (work_runs (working_holding.state _)) fun operationId => ?_
  refine TryTriple.bind (work_runs (working_holding.modifyReport _)) fun _ => ?_
  refine TryTriple.perform stable_holding (fun _ h => h.withinQuota) fun s answer s' h hstep => ?_
  have hbytes : candidateBytes (batch ++ [⟨operationId,file,isUpdate⟩]) =
      candidateBytes batch+file.sizeBytes := by simp
  have hassigned : Holding total spent 0 0 (candidateBytes batch)
      (batch ++ [⟨operationId,file,isUpdate⟩]) s' :=
    h.assign (by rw [← h.batch]) h.plan hstep
  refine ⟨_,hbytes,{ hassigned with afloat := { hassigned.afloat with fits := ?_ } }⟩
  intro bytes hb
  have hroom := hfits bytes hb
  omega

theorem adoptOrUploadEach_runs (previous : Str → Option FileStateRecord)
    (hcovers : Covers total available spent) (files : List LocalFileEntry) (bytesUploaded : Nat)
    (hsize : bytesUploaded+candidateBytes batch+fileBytes files < 2^64)
    (hle : ∀ left, available = some left → bytesUploaded+candidateBytes batch ≤ left) :
    Runs env (Holding total (spent+bytesUploaded) 0 0 (candidateBytes batch) batch)
      (MigrationEngine.adoptOrUploadEach config root runId baseSummary previous available files
        bytesUploaded)
      (fun result => Onward total available result.shouldStop (some result.bytesUploaded)) := by
  -- when no upload is in line any more the root has used up what it counts
  have honward : ∀ {s : Traced ρ MigrationMemory} {batch : List MigrationUploadCandidate}
      {bytesUploaded : Nat} (stop : Bool),
      (∀ left, available = some left → bytesUploaded+candidateBytes batch ≤ left) →
      Holding total (spent+bytesUploaded) 0 0 (candidateBytes batch) batch s →
        Onward total available stop (some bytesUploaded) s := fun stop hle h =>
    (h.afloat.mono (Nat.zero_le _)).onward h.crew.tasks_nil hcovers
      (fun left hl => (Nat.le_add_right _ _).trans (hle left hl)) stop
  induction files generalizing bytesUploaded batch with
  | nil =>
    refine TryTriple.bind (work_runs working_holding.flushAdoptions) fun _ => ?_
    refine TryTriple.bind (work_runs working_holding.memory) fun memory => ?_
    refine iteInduction (motive := fun p => Runs env _ p _)
      (fun _ => TryTriple.pure fun s h => honward _ hle h) fun _ => ?_
    refine TryTriple.bind (applyMigrationUploadBatch_runs config root runId baseSummary (by omega))
      fun final => TryTriple.exists_pre fun rest => TryTriple.of_pure (fun s h => h.2) fun hfinal =>
        TryTriple.pure fun s h => ?_
    rw [saturatingAdd_eq (by omega)]
    have hrest : ∀ left, available = some left →
        bytesUploaded+final.bytesUploaded+candidateBytes rest ≤ left := fun left hl => by
      have hroom := hle left hl
      omega
    refine honward _ hrest ?_
    rw [← Nat.add_assoc]
    exact h.1
  | cons file files ih =>
    have hfile : fileBytes (file :: files) = file.sizeBytes+fileBytes files := by
      simp [fileBytes]
    rw [hfile] at hsize
    refine TryTriple.bind (work_runs working_holding.isCancelled) fun cancelled => ?_
    refine iteInduction (motive := fun p => Runs env _ p _) (fun _ => ?_) fun _ => ?_
    · exact TryTriple.bind (work_runs working_holding.flushAdoptions) fun _ =>
        TryTriple.pure fun s h => honward _ hle h
    refine TryTriple.bind (work_runs (working_holding.settleFile config root runId baseSummary
      previous file)) fun settled => ?_
    refine iteInduction (motive := fun p => Runs env _ p _)
      (fun _ => ih bytesUploaded (by omega) hle) fun _ => ?_
    refine TryTriple.bind (work_runs working_holding.flushAdoptions) fun _ => ?_
    refine TryTriple.bind memory_runs fun memory => TryTriple.of_pure (fun s h => h.1) fun hbatch =>
      TryTriple.pre ?_ fun s h => h.2
    rw [hbatch]
    dsimp only
    split
    · exact TryTriple.bind (work_runs (working_holding.reporting.failRootWith _ _ _ _ _)) fun _ =>
        TryTriple.pure fun s h => honward _ hle h
    · rename_i hquota
      have hroom : ∀ left, available = some left →
          bytesUploaded+candidateBytes batch+file.sizeBytes ≤ left := by
        rintro left rfl
        refine fits_of_not_exceedsQuota ?_ (by omega)
        simpa using hquota
      refine TryTriple.bind (queueUpload_runs runId file _ fun bytes hb => ?_) fun _ =>
        TryTriple.exists_pre fun queued => TryTriple.of_pure (fun s h => h.1) fun hqueued =>
          TryTriple.pre ?_ fun s h => h.2
      · obtain ⟨left,hleft,hfits⟩ := hcovers bytes hb
        have hfile := hroom left hleft
        omega
      have hleft : ∀ left, available = some left → bytesUploaded+candidateBytes queued ≤ left :=
        fun left hl => by
          have hfile := hroom left hl
          omega
      refine iteInduction (motive := fun p => Runs env _ p _) (fun _ => ?_)
        fun _ => ih bytesUploaded (by omega) hleft
      refine TryTriple.bind (applyMigrationUploadBatch_runs config root runId baseSummary (by omega))
        fun final => TryTriple.exists_pre fun rest => TryTriple.of_pure (fun s h => h.2) fun hfinal =>
          TryTriple.pre ?_ fun s h => h.1
      have hrest : ∀ left, available = some left →
          bytesUploaded+final.bytesUploaded+candidateBytes rest ≤ left := fun left hl => by
        have hqueue := hleft left hl
        omega
      rw [saturatingAdd_eq (by omega),Nat.add_assoc]
      exact iteInduction (motive := fun p => Runs env _ p _)
        (fun _ => TryTriple.pure fun s h => honward _ hrest h)
        fun _ => ih _ (by omega) hrest

theorem applyAdoptOrUpload_runs (hcovers : Covers total available spent) :
    Runs env (Holding total spent 0 0 0 [])
      (MigrationEngine.applyAdoptOrUpload config root runId baseSummary available)
      (fun result => Onward total available result.shouldStop (some result.bytesUploaded)) := by
  refine TryTriple.bind (work_runs (working_holding.state _)) fun states => ?_
  refine TryTriple.bind (livePlan_runs.weaken (fun _ h => h) (fun _ _ h => h)
    (fun _ h => h.adrift) fun _ h => h) fun plan => TryTriple.of_pure (fun s h => h.1) fun hplan => ?_
  have hempty : Holding (ρ := ρ) total spent 0 0 0 [] =
      Holding total (spent+0) 0 0 (candidateBytes []) [] := by simp
  refine TryTriple.pre ?_ fun s h => h.2
  rw [hempty]
  refine adoptOrUploadEach_runs config root runId baseSummary _ hcovers plan.files 0 ?_ ?_
  · simpa using hplan
  · exact fun left _ => Nat.zero_le _

end Uploads

/-! What has nothing to do with the variables of a root. -/
section Steady

theorem steady_holds {I : Traced ρ MigrationMemory → Prop} (h : Steady Bounded env I) {ε α : Type}
    {p : ExceptT ε (Prog (Effect MigrationMemory) Effect.Answer) α}
    (hp : Only (fun e => e.onTasks = false) p.run) : Spends Bounded env I p (fun _ => I) I :=
  hp.keeps h.stable (fun s hs => (h.adrift s hs).withinQuota) fun _ he _ _ _ hs hstep =>
    h.keep hs he hstep

theorem working_steady {I : Traced ρ MigrationMemory → Prop} (h : Steady Bounded env I) :
    MigrationEngine.Working (Holds env I) where
  toSequential := sequential_try fun _ h => h
  calm hp := steady_holds h (hp.lift.mono fun e he => by cases e <;> first | rfl | cases he)
  work f _ := h.perform rfl
  register localPath relativePath remotePath := by
    have hreporting : MigrationEngine.Reporting (Holds env I) := {
      toComposable := (sequential_try fun _ h => h : Sequential (Holds env I)).toComposable
      report := fun _ => steady_holds h ⟨rfl,fun answer => by cases answer <;> trivial⟩
      readMemory := h.perform rfl
      modifySummary := fun _ _ _ => h.perform rfl
      isCancelled := h.perform rfl }
    exact hreporting.register_of (fun _ => h.perform rfl) (fun _ => h.perform rfl)
      (fun _ => h.perform rfl) localPath relativePath remotePath
  attempt hp := TryTriple.lift (Triple.post hp fun result s hs => by
    cases result with
    | ok _ => exact hs
    | error _ => exact hs)

/-- A part of a run that touches no upload. -/
theorem steady_runs {I : Traced ρ MigrationMemory → Prop} (h : Steady Bounded env I) {α : Type}
    {p : Migrator α} (hp : Holds env I p) : Runs env I p (fun _ => I) :=
  Holds.runs h.adrift hp

end Steady

section Root

variable (ext : Externals) (config : AppConfig) (root : SyncRootConfig) (runId : Int)
  (baseSummary : SyncRunSummary)

theorem migrateRoot_runs (scanReport : ScanReport) (sets : RemoteSets)
    (hcovers : Covers total available spent) :
    Runs env (Holding total spent 0 0 0 [])
      (MigrationEngine.migrateRoot ext config root runId baseSummary scanReport sets available)
      (fun result => Onward total available result.shouldStop result.bytesUploaded) := by
  have hgiveUp : Runs env (Holding total spent 0 0 0 []) (MigrationEngine.giveUpRoot root scanReport)
      (fun result => Onward total available result.shouldStop result.bytesUploaded) :=
    TryTriple.bind (work_runs (working_holding.cleanupStagingFiles _)) fun _ =>
      TryTriple.bind (work_runs (working_holding.reporting.finishRootCancelledOrFailed root))
        fun _ => TryTriple.pure fun _ h => ⟨⟨_,h.afloat⟩,fun hstop => by cases hstop⟩
  refine TryTriple.bind (work_runs (working_holding.modifySets _)) fun _ => ?_
  refine TryTriple.bind (work_runs (working_holding.recordRemoteResources config root sets))
    fun _ => ?_
  refine TryTriple.bind (work_runs (working_holding.tryTopLevelMove root runId)) fun stop => ?_
  refine TryTriple.bind (work_runs working_holding.isCancelled) fun cancelled => ?_
  refine iteInduction (motive := fun p => Runs env _ p _) (fun _ => hgiveUp) fun _ => ?_
  refine TryTriple.bind (work_runs (working_holding.applyMergeMoves ext config root runId
    baseSummary)) fun stop => ?_
  refine TryTriple.bind (work_runs working_holding.isCancelled) fun cancelled => ?_
  refine iteInduction (motive := fun p => Runs env _ p _) (fun _ => hgiveUp) fun _ => ?_
  refine TryTriple.bind (applyAdoptOrUpload_runs config root runId baseSummary hcovers)
    fun uploaded => ?_
  have hs : Steady Bounded env (Onward (ρ := ρ) (μ := MigrationMemory) total available
      uploaded.shouldStop (some uploaded.bytesUploaded)) := steady_onward ..
  have hw := working_steady hs
  refine TryTriple.bind (steady_runs hs (hw.cleanupStagingFiles _)) fun _ => ?_
  refine TryTriple.bind (steady_runs hs hw.isCancelled) fun cancelled => ?_
  refine iteInduction (motive := fun p => Runs env _ p _) (fun _ => ?_) fun hgoing => ?_
  · exact TryTriple.bind (steady_runs hs (hw.reporting.finishRootCancelledOrFailed root))
      fun _ => TryTriple.pure fun _ h => h.stopped
  · have hstop : uploaded.shouldStop = false := by simp_all
    refine TryTriple.bind (steady_runs hs (hw.applyDeletes root runId baseSummary)) fun stop => ?_
    refine TryTriple.bind (steady_runs hs (hw.reporting.finishRootCancelledOrFailed root))
      fun _ => ?_
    refine TryTriple.bind (steady_runs hs (hw.persistRootProgress runId baseSummary)) fun _ => ?_
    rw [hstop]
    exact TryTriple.pure fun _ h => h.of_going stop

/-- The plan of a root lists files of its scan only. -/
theorem planScan_runs (scanReport : ScanReport) (hsize : fileBytes scanReport.files < 2^64) :
    Runs env (Holding total spent 0 0 0 [])
      (MigrationEngine.planScan root runId baseSummary scanReport)
      (fun _ => Holding total spent 0 0 0 []) := by
  refine TryTriple.bind (work_runs (working_holding.reporting.recordScanFindings scanReport))
    fun _ => ?_
  have hkeep : ∀ plan, Holds env (Holding total spent 0 0 0 []) (MigrationEngine.setScanPlan plan) :=
    fun _ => working_holding.work _ fun _ => ⟨rfl,rfl⟩
  have hpush : Holds env (Holding total spent 0 0 0 [])
      (LiveScanPlan.pushScannedDirectories (m := Migrator)
        (fun path => MigrationEngine.perform (.isDir path)) MigrationEngine.setScanPlan
        (sortByKey LiveScanPlan.directoryKey scanReport.directories)
        { rootId := scanReport.rootId, rootLocalPath := pathComponents root.localPath }) :=
    pushScannedDirectories_of working_holding.toComposable
      (fun path => working_holding.perform (.isDir path) rfl) hkeep _ _
  refine TryTriple.bind (Q := fun plan s => plan.files.Sublist scanReport.files ∧
    Holding total spent 0 0 0 [] s) (TryTriple.bind (work_runs hpush) fun plan =>
      TryTriple.pure fun s h => ⟨List.filter_sublist,h⟩) fun plan => ?_
  refine TryTriple.of_pure (fun s h => fileBytes_le_of_sublist h.1) fun hfiles =>
    TryTriple.pre ?_ fun s h => h.2
  refine TryTriple.bind (work_runs (setLivePlan_holds (by omega))) fun _ => ?_
  refine TryTriple.bind (work_runs (working_holding.modifySummary _)) fun _ => ?_
  refine TryTriple.bind (work_runs (working_holding.reporting.recordDeletedSubtrees runId _))
    fun _ => ?_
  exact TryTriple.bind (work_runs (working_holding.persistRootProgress runId baseSummary))
    fun _ => TryTriple.pure fun _ h => h

theorem executeRoot_runs (options : ScanOptions) (canonicalRemotePath : Str)
    (forceRemoteRescan : Bool) (hcovers : Covers total available spent) :
    Runs env (Holding total spent 0 0 0 [])
      (MigrationEngine.executeRoot ext config root runId baseSummary options canonicalRemotePath
        available forceRemoteRescan)
      (fun result => Onward total available result.shouldStop result.bytesUploaded) := by
  have honward : ∀ {s : Traced ρ MigrationMemory} (stop : Bool),
      Holding total spent 0 0 0 [] s → Onward total available stop none s := fun stop h =>
    ⟨⟨_,h.afloat⟩,fun _ => ⟨_,h.afloat,h.crew.tasks_nil,hcovers⟩⟩
  have hfail : ∀ rootStatus operation errorKind errorMessage, Runs env (Holding total spent 0 0 0 [])
      (MigrationEngine.failRootWith root rootStatus operation errorKind errorMessage)
      (fun _ => Holding total spent 0 0 0 []) := fun _ _ _ _ =>
    work_runs (working_holding.reporting.failRootWith _ _ _ _ _)
  have hclean : ∀ files stop, Runs env (Holding total spent 0 0 0 []) (do
      MigrationEngine.cleanupStagingFiles files
      return { shouldStop := stop } : Migrator MigrationRootResult)
      (fun result => Onward total available result.shouldStop result.bytesUploaded) :=
    fun _ stop => TryTriple.bind (work_runs (working_holding.cleanupStagingFiles _)) fun _ =>
      TryTriple.pure fun _ h => honward stop h
  have hscan : Runs env (Holding total spent 0 0 0 [])
      (MigrationEngine.scanRootWithRepository options
        (SyncEngine.scanRootOf root canonicalRemotePath))
      (fun answer s => Holding total spent 0 0 0 [] s ∧
        ∀ report, answer = .ok report → fileBytes report.files < 2^64) := by
    refine TryTriple.bind (work_runs (working_holding.perform _ rfl)) fun states => ?_
    cases states with
    | error error => exact TryTriple.pure fun _ h => ⟨h,fun report hr => by cases hr⟩
    | ok previousStates =>
      exact TryTriple.perform stable_holding (fun _ h => h.withinQuota) fun s answer s' h hstep =>
        ⟨h.keep rfl hstep,fun report hr => fileBytes_lt_of_scan hr hstep⟩
  refine TryTriple.bind hscan fun answer => ?_
  cases answer with
  | error error =>
    exact TryTriple.bind ((hfail _ _ _ _).pre fun _ h => h.1) fun _ =>
      TryTriple.pure fun _ h => honward false h
  | ok scanReport =>
    refine TryTriple.of_pure (fun s h => h.2 scanReport rfl) fun hsize => ?_
    refine TryTriple.bind ((planScan_runs root runId baseSummary scanReport hsize).pre fun _ h => h.1)
      fun plan => ?_
    cases localRemoteCollision plan.directories plan.files with
    | some message => exact TryTriple.bind (hfail _ _ _ _) fun _ => hclean _ false
    | none =>
      refine TryTriple.bind (work_runs (working_holding.loadRemoteSets root canonicalRemotePath plan
        forceRemoteRescan)) fun answer => ?_
      cases answer with
      | error error =>
        refine TryTriple.bind (work_runs (working_holding.state _)) fun _ => ?_
        exact iteInduction (motive := fun p => Runs env _ p _)
          (fun _ => TryTriple.bind (hfail _ _ _ _) fun _ => hclean _ true)
          fun _ => TryTriple.bind (hfail _ _ _ _) fun _ => hclean _ false
      | ok sets =>
        exact migrateRoot_runs ext config root runId baseSummary scanReport sets hcovers

end Root

section Run

variable (ext : Externals) (config : AppConfig) (runId : Int)

theorem executeRunRoot_runs (root : SyncRootConfig) (options : ScanOptions)
    (forceRemoteRescan : Bool) :
    Runs env (Provided total available)
      (MigrationEngine.executeRunRoot ext config root runId options available forceRemoteRescan)
      (fun next s => (∃ spent, Afloat total spent 0 0 s) ∧ (next.1 = true →
        Provided total next.2 s)) := by
  unfold MigrationEngine.executeRunRoot
  cases canonicalRemotePath config.instanceConfig.remoteRoot root.localPath
      root.remotePathOverride with
  | error error => exact TryTriple.throw fun _ h => h.adrift
  | ok canonical =>
    refine TryTriple.exists_pre fun spent => TryTriple.of_pure (fun s h => h.2.2) fun hcovers => ?_
    have hstart : Runs env (fun s => Afloat total spent 0 0 s ∧ s.world.tasks = [] ∧
        Covers total available spent)
        (MigrationEngine.perform (.updateMemory (MigrationEngine.startRoot root canonical)))
        (fun _ => Holding total spent 0 0 0 []) := by
      refine TryTriple.perform (Afloat.stable.and (stable_noTasks.and fun _ _ h _ => h))
        (fun _ h => h.1.withinQuota) fun s answer s' h hstep => ?_
      have hmemory : s'.world.memory = MigrationEngine.startRoot root canonical s.world.memory :=
        hstep.2.1.memory_update
      exact ⟨h.1.keep rfl hstep,crew_nil ((hstep.2.1.tasks_eq rfl).trans h.2.1),by rw [hmemory]; rfl,
        fun plan hp => by rw [hmemory] at hp; cases hp⟩
    refine TryTriple.bind hstart fun _ => TryTriple.bind (work_runs (working_holding.state _))
      fun _ => TryTriple.bind (work_runs (working_holding.perform _ rfl)) fun isDir => ?_
    have hfinish : ∀ {I : Traced ρ MigrationMemory → Prop}, MigrationEngine.Working (Holds env I) →
        Holds env I MigrationEngine.finishRootSummary := fun hw =>
      hw.bind hw.memory fun _ => hw.modifyReport _
    refine iteInduction (motive := fun p => Runs env _ p _) (fun _ => ?_) fun _ => ?_
    · have hskip : ∀ paths, Holds env (Holding total spent 0 0 0 [])
          (MigrationEngine.skipLegacyRoots root canonical paths) := by
        intro paths
        induction paths with
        | nil => exact working_holding.pure ()
        | cons path paths ih => exact working_holding.bind (working_holding.state _) fun _ => ih
      have hmissing : Holds env (Holding total spent 0 0 0 [])
          (MigrationEngine.recordMissingRoot root canonical) :=
        working_holding.bind (working_holding.state _) fun _ =>
          working_holding.bind (working_holding.state _) fun _ =>
            working_holding.bind (hskip _) fun _ => working_holding.modifySummary _
      exact TryTriple.bind (work_runs hmissing) fun _ =>
        TryTriple.bind (work_runs (hfinish working_holding)) fun _ => TryTriple.pure fun _ h =>
          ⟨⟨_,h.afloat⟩,fun _ => ⟨_,h.afloat,h.crew.tasks_nil,hcovers⟩⟩
    · refine TryTriple.bind (work_runs working_holding.memory) fun before => ?_
      refine TryTriple.bind (executeRoot_runs ext config root runId _ options canonical
        forceRemoteRescan hcovers) fun result => ?_
      have hs : Steady Bounded env (Onward (ρ := ρ) (μ := MigrationMemory) total available
          result.shouldStop result.bytesUploaded) := steady_onward ..
      refine TryTriple.bind (steady_runs hs (hfinish (working_steady hs))) fun _ => ?_
      cases hstop : result.shouldStop with
      | true => exact TryTriple.pure fun _ h => ⟨h.idle,fun hgo => by cases hgo⟩
      | false =>
        rw [hstop] at hs
        exact TryTriple.bind (steady_runs hs (working_steady hs).isCancelled) fun cancelled =>
          TryTriple.pure fun _ h => ⟨h.idle,fun _ => h.going rfl⟩

theorem executeRun_runs (forceRemoteRescan : Bool) :
    Runs env Unasked (MigrationEngine.executeRun ext config runId forceRemoteRescan)
      (fun _ => Adrift) := by
  have hroots : ∀ total options roots available, Runs env (Provided total available)
      (MigrationEngine.executeRoots ext config runId options forceRemoteRescan roots available)
      (fun _ => Adrift) := by
    intro total options roots
    induction roots with
    | nil => exact fun _ => TryTriple.pure fun _ h => h.adrift
    | cons root roots ih =>
      intro available
      have hs : Steady Bounded env (Provided (ρ := ρ) (μ := MigrationMemory) total available) :=
        steady_provided ..
      have hw := working_steady hs
      refine TryTriple.bind (steady_runs hs hw.isCancelled) fun cancelled => ?_
      refine iteInduction (motive := fun p => Runs env _ p _)
        (fun _ => (steady_runs hs (hw.modifyReport _)).post fun _ _ h => h.adrift) fun _ => ?_
      refine TryTriple.bind (executeRunRoot_runs ext config runId root options forceRemoteRescan)
        fun next => ?_
      obtain ⟨goesOn,availableNext⟩ := next
      cases goesOn with
      | true => exact (ih availableNext).pre fun _ h => h.2 rfl
      | false => exact TryTriple.pure fun _ h => h.1.elim fun _ h => h.adrift
  have havailable : Runs env Unasked MigrationEngine.availableRemoteBytes
      (fun available => Provided available available) := by
    refine TryTriple.bind ask_provides fun answer => ?_
    cases answer with
    | ok quota => exact TryTriple.pure fun _ h => h
    | error error =>
      have hs : Steady Bounded env (Provided (ρ := ρ) (μ := MigrationMemory) none none) :=
        steady_provided ..
      exact TryTriple.bind (steady_runs hs ((working_steady hs).modifyReport _)) fun _ =>
        TryTriple.pure fun _ h => h
  exact TryTriple.bind havailable fun available => hroots available _ _ available

/-- A migration uploads no more than there is room for when it starts. -/
theorem runOnce_withinQuota (options : MigrationEngine.MigrationRunOptions) :
    Spends Bounded env Unasked (MigrationEngine.runOnce ext config options) (fun _ => WithinQuota)
      WithinQuota := by
  have hseq : Sequential fun ⦃α⦄ (p : Migrator α) =>
      Spends Bounded env Unasked p (fun _ => Unasked) WithinQuota :=
    sequential_try fun _ h => h.withinQuota
  have hvalid : Spends Bounded env Unasked (MigrationEngine.ensureValidConfig ext config)
      (fun _ => Unasked) WithinQuota :=
    iteInduction (motive := fun p => Spends Bounded env Unasked p (fun _ => Unasked) WithinQuota)
      (fun _ => hseq.pure _) fun _ => hseq.throw _
  have hacquire : Only (fun e : Effect MigrationMemory => e.beforeQuota = true)
      (MigrationEngine.acquireRunLock options.lockOwner options.staleLockAfter).run := by
    have htake : Only (fun e : Effect MigrationMemory => e.beforeQuota = true)
        (RunLock.tryAcquireRunLock options.lockOwner options.staleLockAfter :
          Locking MigrationMemory (Option RunLockGuard)).run :=
      RunLock.tryAcquireRunLock_of sequential_only ⟨rfl,fun _ => trivial⟩
        (fun _ => ⟨rfl,fun _ => trivial⟩) fun _ _ => ⟨rfl,fun _ => trivial⟩
    exact htake.lift
  have hasked : ∀ call : StateCall, Only (fun e => e.beforeQuota = true)
      (MigrationEngine.state call).run := fun call =>
    ⟨rfl,fun answer => by cases answer <;> trivial⟩
  have hlocked : ∀ guard, Spends Bounded env Unasked
      (MigrationEngine.runLocked ext config options.forceRemoteRescan guard) (fun _ => WithinQuota)
      WithinQuota := by
    intro guard
    refine TryTriple.bind (unasked_only (hasked _)) fun _ => ?_
    refine TryTriple.bind (unasked_only (hasked _)) fun runId => ?_
    have hstart : Only (fun e : Effect MigrationMemory => e.beforeQuota = true)
        (MigrationEngine.perform (.updateMemory fun _ => { report := { runId } })).run :=
      ⟨rfl,fun _ => trivial⟩
    refine TryTriple.bind (unasked_only hstart) fun _ => ?_
    refine TryTriple.bind (TryTriple.catch (executeRun_runs ext config runId _)) fun execution => ?_
    have hs : Steady Bounded env (Adrift (ρ := ρ) (μ := MigrationMemory)) := steady_adrift
    refine (steady_runs hs ((working_steady hs).endRun runId guard execution)).weaken (fun s h => ?_)
      (fun _ _ h => h.withinQuota) (fun _ h => h.withinQuota) fun _ h => h
    cases execution with
    | ok _ => exact h
    | error _ => exact h
  refine TryTriple.bind hvalid fun _ => TryTriple.bind (unasked_only hacquire) fun acquired => ?_
  match acquired with
  | .error error => exact TryTriple.throw fun _ h => h.withinQuota
  | .ok none => exact TryTriple.throw fun _ h => h.withinQuota
  | .ok (some guard) => exact hlocked guard

end Run

end MigrationQuota

end YaDiskSync
