import YaDiskSync.RunFrame
import YaDiskSync.StateFrame
import YaDiskSync.Trace

/-! What a sync run leaves of the state rows of remote files that are gone. The answers a run
got tell which files those are. -/
namespace YaDiskSync

open Prog SepPath

/-- What the answers of a run tell about the remote. -/
structure Losses where
  /-- the path of a delete that was opened in the step before -/
  opened : Option Str := none
  /-- removed, or found absent by a delete or by the check before one -/
  gone : Str → Bool := fun _ => false

namespace Losses

def bury (losses : Losses) (path : Str) : Losses :=
  { gone := fun q => isAtOrBelow path q || losses.gone q }

/-- After a step with its answer. -/
def asked (losses : Losses) : (e : Effect SyncMemory) → e.Answer → Losses
  | .state (.appendOperationStarted record), _ =>
    { losses with
      opened := if record.operation = "delete_remote".toList then record.remotePath else none }
  | .client (.deletePermanently path), answer =>
    if answer.isOk || isAbsent answer then losses.bury path else { losses with opened := none }
  | .client (.metadata path), answer =>
    if losses.opened = some path ∧ isAbsent answer = true then losses.bury path
    else { losses with opened := none }
  | _, _ => { losses with opened := none }

/-- After the end of a task. -/
def landed (losses : Losses) : Task → TaskOutcome → Losses
  | .upload _ file _ _, .uploaded outcome =>
    if outcome.result.isOk then
      { losses with gone := fun q => q != file.remotePath && losses.gone q }
    else losses
  | _, _ => losses

def observe (losses : Losses) : Happening SyncMemory → Losses
  | .step e answer => losses.asked e answer
  | .landed task outcome => losses.landed task outcome

variable (losses : Losses)

/-- A task that ends brings no loss. -/
theorem landed_le (task : Task) (outcome : TaskOutcome) :
    (losses.landed task outcome).opened = losses.opened ∧
      ∀ q, (losses.landed task outcome).gone q = true → losses.gone q = true := by
  unfold landed
  split
  · split
    · exact ⟨rfl,fun q h => (Bool.and_eq_true_iff.mp h).2⟩
    · exact ⟨rfl,fun _ h => h⟩
  · exact ⟨rfl,fun _ h => h⟩

theorem asked_state (call : StateCall) (answer : Except StateError call.Result) :
    (losses.asked (.state call) answer).gone = losses.gone := by
  cases call <;> rfl

/-- Steps that open no delete and delete nothing. -/
def isQuiet : Effect SyncMemory → Bool
  | .state (.appendOperationStarted record) => record.operation != "delete_remote".toList
  | .client (.deletePermanently _) => false
  | _ => true

theorem asked_quiet {losses : Losses} (hopened : losses.opened = none) {e : Effect SyncMemory}
    (he : isQuiet e = true) (answer : e.Answer) : losses.asked e answer = losses := by
  have hsame : ({ losses with opened := none } : Losses) = losses := by rw [← hopened]
  cases e with
  | state call =>
    cases call with
    | appendOperationStarted record =>
      have hne : record.operation ≠ "delete_remote".toList := by simpa [isQuiet] using he
      simp only [asked,if_neg hne]
      exact hsame
    | _ => exact hsame
  | client call =>
    cases call with
    | deletePermanently path => cases he
    | metadata path =>
      simp only [asked,hopened]
      exact hsame
    | _ => exact hsame
  | _ => exact hsame

end Losses

def losses (trace : List (Happening SyncMemory)) : Losses := trace.foldl Losses.observe {}

@[simp] theorem losses_append (trace : List (Happening SyncMemory))
    (happening : Happening SyncMemory) :
    losses (trace ++ [happening]) = (losses trace).observe happening := by
  simp [losses]

section Rows

variable {ρ : Type} (rootId : Str) (s : Traced ρ SyncMemory)

/-- Every row of the root whose remote file is gone is marked deleted. -/
def DeadRowsMarked : Prop :=
  ∀ row ∈ s.world.repository.fileStates.rows, row.rootId = rootId →
    (losses s.trace).gone row.remotePath = true → row.status = .deleted

instance : Decidable (DeadRowsMarked rootId s) :=
  inferInstanceAs (Decidable (∀ row ∈ s.world.repository.fileStates.rows, row.rootId = rootId →
    (losses s.trace).gone row.remotePath = true → row.status = .deleted))

/-- The rows of the root at or below a path that are not marked. -/
def liveRowsBelow (path : Str) : List FileStateRecord :=
  s.world.repository.fileStates.rows.filter fun row =>
    row.rootId = rootId ∧ row.status ≠ .deleted ∧ isAtOrBelow path row.remotePath = true

/-- The steps that leave no row behind: a delete takes with it no more than the row it marks, a
check before a delete finds nothing absent that has a row, no row is made for a file that is
gone, and the database answers while a mark is due. -/
def LeavesNoRow : (e : Effect SyncMemory) → e.Answer → Prop
  | .state _, .error _ => DeadRowsMarked rootId s
  | .state (.markDeleted id relativePath remotePath _), .ok _ =>
    ∀ row ∈ liveRowsBelow rootId s remotePath, row.key = (id,relativePath)
  | .state (.markDirectoryDeleted _ _ remotePath _), .ok _ =>
    liveRowsBelow rootId s remotePath = []
  | .state (.upsertFileState record), .ok _ => record.rootId = rootId →
    record.status = .skipped → (losses s.trace).gone record.remotePath = false
  | .client (.metadata path), answer => (losses s.trace).opened = some path →
    isAbsent answer = true → liveRowsBelow rootId s path = []
  | _, _ => True

end Rows

namespace DeadRows

variable {ρ : Type} {env : Environment ρ} {rootId : Str}

/-- No row of the root waits for its mark, no delete is open. -/
structure Settled (rootId : Str) (s : Traced ρ SyncMemory) : Prop where
  marked : DeadRowsMarked rootId s
  opened : (losses s.trace).opened = none

theorem marked_of_gone {s s' : Traced ρ SyncMemory} (h : DeadRowsMarked rootId s)
    (hfiles : s'.world.repository.fileStates = s.world.repository.fileStates)
    (hgone : ∀ q, (losses s'.trace).gone q = true → (losses s.trace).gone q = true) :
    DeadRowsMarked rootId s' := by
  intro row hrow hroot hg
  rw [hfiles] at hrow
  exact h row hrow hroot (hgone _ hg)

theorem losses_drift {s s' : Traced ρ SyncMemory} (h : env.TraceDrift s s') :
    (losses s'.trace).opened = (losses s.trace).opened ∧
      ∀ q, (losses s'.trace).gone q = true → (losses s.trace).gone q = true := by
  rcases h.trace_eq with ht | ⟨task,outcome,ht⟩
  · rw [ht]
    exact ⟨rfl,fun _ h => h⟩
  · rw [ht,losses_append]
    exact Losses.landed_le _ _ _

theorem stable_marked : Stable env.TraceDrift (DeadRowsMarked (ρ := ρ) rootId) :=
  fun _ _ h hdrift => marked_of_gone h (congrArg _ hdrift.repository_eq) (losses_drift hdrift).2

theorem stable_settled : Stable env.TraceDrift (Settled (ρ := ρ) rootId) :=
  fun s s' h hdrift => ⟨stable_marked s s' h.marked hdrift,(losses_drift hdrift).1.trans h.opened⟩

abbrev Step (env : Environment ρ) (rootId : Str) (s : Traced ρ SyncMemory)
    (e : Effect SyncMemory) (answer : e.Answer) (s' : Traced ρ SyncMemory) : Prop :=
  env.TraceStep (LeavesNoRow rootId) s e answer s'

/-- A run that is cut off leaves nothing to show; one that ends in an error marked its rows. -/
abbrev Runs (env : Environment ρ) (rootId : Str) (P : Traced ρ SyncMemory → Prop) {α : Type}
    (p : Engine α) (Q : α → Traced ρ SyncMemory → Prop) : Prop :=
  SyncEngine.Leads (Step env rootId) env.TraceDrift (DeadRowsMarked rootId) P p Q

theorem losses_step {s s' : Traced ρ SyncMemory} {e : Effect SyncMemory} {answer : e.Answer}
    (hstep : Step env rootId s e answer s') :
    losses s'.trace = (losses s.trace).asked e answer := by
  rw [hstep.2.2,losses_append]
  rfl

theorem Settled.step {s s' : Traced ρ SyncMemory} (h : Settled rootId s) {e : Effect SyncMemory}
    {answer : e.Answer} (he : Losses.isQuiet e = true)
    (hfiles : ∀ call, e = .state call → call.writesFileStates = false)
    (hstep : Step env rootId s e answer s') : Settled rootId s' := by
  have hlosses : losses s'.trace = losses s.trace := by
    rw [losses_step hstep,Losses.asked_quiet h.opened he]
  have hrows : s'.world.repository.fileStates = s.world.repository.fileStates := by
    rcases hstep.2.1.repository_cases with hr | ⟨call,hcall,hleaves⟩
    · rw [hr]
    · exact hleaves.fileStates (hfiles call hcall)
  exact ⟨marked_of_gone h.marked hrows (by simp [hlosses]),by rw [hlosses]; exact h.opened⟩

/-- A call that fails leaves the rows as they are. -/
theorem marked_of_error {s s' : Traced ρ SyncMemory} {call : StateCall} {error : StateError}
    (hstep : Step env rootId s (.state call) (.error error) s') : DeadRowsMarked rootId s' := by
  have hmarked : DeadRowsMarked rootId s := by
    have hallowed := hstep.1
    cases call <;> exact hallowed
  have hrepository : s'.world.repository = s.world.repository := hstep.2.1.state_error
  refine marked_of_gone hmarked (by rw [hrepository]) fun q hq => ?_
  rwa [losses_step hstep,Losses.asked_state] at hq

theorem isQuiet_of_isRoutine {e : Effect SyncMemory} (he : SyncEngine.isRoutine e = true) :
    Losses.isQuiet e = true ∧ e.onTasks = false ∧
      ∀ call, e = .state call → call.writesFileStates = false := by
  cases e with
  | state call =>
    refine ⟨?_,rfl,fun _ hc => ?_⟩
    · cases call <;> first | rfl | cases he
    · cases hc
      cases call <;> first | rfl | cases he
  | client call =>
    refine ⟨?_,rfl,fun _ hc => nomatch hc⟩
    cases call <;> first | rfl | cases he
  | spawn _ | joinNext | dropTasks => cases he
  | _ => exact ⟨rfl,rfl,fun _ hc => nomatch hc⟩

/-- What rests on the rows, the losses and the tasks alone. -/
structure Held (env : Environment ρ) (rootId : Str) (I : Traced ρ SyncMemory → Prop) : Prop where
  stable : Stable env.TraceDrift I
  settled : ∀ s, I s → Settled rootId s
  kept : ∀ s s', I s → Settled rootId s' → s'.world.tasks = s.world.tasks →
    losses s'.trace = losses s.trace → I s'

namespace Held

variable {I : Traced ρ SyncMemory → Prop} (hi : Held env rootId I)

include hi

theorem step {s s' : Traced ρ SyncMemory} {e : Effect SyncMemory} {answer : e.Answer} (h : I s)
    (hquiet : Losses.isQuiet e = true) (htasks : e.onTasks = false)
    (hfiles : ∀ call, e = .state call → call.writesFileStates = false)
    (hstep : Step env rootId s e answer s') : I s' := by
  refine hi.kept s s' h ((hi.settled s h).step hquiet hfiles hstep) (hstep.2.1.tasks_eq htasks) ?_
  rw [losses_step hstep,Losses.asked_quiet (hi.settled s h).opened hquiet]

theorem running : SyncEngine.Running fun ⦃α⦄ (p : Engine α) =>
    Upholds (Step env rootId) env.TraceDrift I (DeadRowsMarked rootId) p := by
  refine SyncEngine.running_upholds hi.stable (fun e he s answer s' h hstep => ?_)
    fun s h => (hi.settled s h).marked
  obtain ⟨hquiet,htasks,hfiles⟩ := isQuiet_of_isRoutine he
  exact hi.step h hquiet htasks hfiles hstep

theorem call {call : StateCall} (hquiet : Losses.isQuiet (.state call) = true)
    (hfiles : call.writesFileStates = false) :
    Runs env rootId I
      (SyncEngine.state call) fun _ => I := by
  refine SyncEngine.state_leads hi.stable (fun s result s' h hstep => ?_)
    fun s error s' _ hstep => marked_of_error hstep
  refine hi.step h hquiet rfl (fun _ hc => ?_) hstep
  cases hc
  exact hfiles

end Held

/-- The creates of a plan, so many tasks out. -/
def Creating (rootId : Str) (n : Nat) (s : Traced ρ SyncMemory) : Prop :=
  Settled rootId s ∧ Crew Task.IsCreate n s

theorem held_creating (n : Nat) : Held env rootId (Creating (ρ := ρ) rootId n) where
  stable := stable_settled.and stable_crew
  settled _ h := h.1
  kept _ _ h hs ht _ := ⟨hs,h.2.of_tasks ht⟩

/-- The steps on the tasks change neither rows nor losses. -/
theorem Settled.onTasks {s s' : Traced ρ SyncMemory} (h : Settled rootId s) {e : Effect SyncMemory}
    {answer : e.Answer} (he : e.onTasks = true) (hstep : Step env rootId s e answer s') :
    Settled rootId s' ∧ losses s'.trace = losses s.trace := by
  have hquiet : Losses.isQuiet e = true := by
    cases e <;> first | rfl | cases he
  refine ⟨h.step hquiet (fun call hc => ?_) hstep,?_⟩
  · rw [hc] at he
    cases he
  · rw [losses_step hstep,Losses.asked_quiet h.opened hquiet]

theorem creators (runId : Int) : SyncEngine.Creators (Step env rootId) env.TraceDrift
    (DeadRowsMarked rootId) runId (Creating rootId) (fun _ _ => Creating rootId)
    fun _ _ _ => Creating rootId where
  mono n s h := ⟨h.1,h.2.mono (Nat.le_succ n)⟩
  routine n := (held_creating n).running.toRoutine
  opened n directory := (held_creating n).call rfl rfl
  spawned n directory operationId := by
    refine TryTriple.perform (held_creating n).stable (fun _ _ => trivial) fun s _ s' h hstep => ?_
    have hkind : (Task.createDirectory directory operationId).IsCreate := trivial
    exact ⟨(h.1.onTasks rfl hstep).1,h.2.spawn hkind hstep⟩
  joined n := by
    refine TryTriple.perform (held_creating _).stable (fun _ _ => trivial)
      fun s joined s' h hstep => ?_
    have hsettled := (h.1.onTasks rfl hstep).1
    cases h.2.join hstep with
    | none ht hw => exact ⟨hsettled,crew_nil (by rw [hw]; exact ht)⟩
    | @some task outcome hkind hyields _ _ hcrew _ _ =>
      cases task with
      | createDirectory directory operationId =>
        obtain ⟨result,rfl⟩ := hyields
        exact ⟨hsettled,hcrew⟩
      | upload operationId file isUpdate cancelledText => exact hkind.elim
  created n directory operationId :=
    TryTriple.bind ((held_creating n).call rfl rfl) fun _ =>
      TryTriple.bind ((held_creating n).call rfl rfl) fun _ => (held_creating n).call rfl rfl
  failed n directory operationId error := (held_creating n).call rfl rfl
  dropped n := by
    refine TryTriple.perform (held_creating n).stable (fun _ _ => trivial) fun s _ s' h hstep => ?_
    exact ⟨(h.1.onTasks rfl hstep).1,crew_drop hstep⟩

/-- An upload that succeeded found its file's path, or made it. -/
def Landed (outcome : UploadTaskOutcome) (s : Traced ρ SyncMemory) : Prop :=
  outcome.result = .ok () → (losses s.trace).gone outcome.file.remotePath = false

/-- The uploads of a plan, so many tasks out. -/
def Uploading (rootId : Str) (n : Nat) (s : Traced ρ SyncMemory) : Prop :=
  Settled rootId s ∧ Crew (fun task => ¬ task.IsCreate) n s ∧
    ∀ running ∈ s.world.tasks, ∀ outcome, running.outcome = some (.uploaded outcome) →
      Landed outcome s

theorem gone_false_drift {s s' : Traced ρ SyncMemory} (h : env.TraceDrift s s') {q : Str}
    (hg : (losses s.trace).gone q = false) : (losses s'.trace).gone q = false := by
  by_contra hne
  rw [(losses_drift h).2 q (by simpa using hne)] at hg
  cases hg

theorem stable_landed (outcome : UploadTaskOutcome) :
    Stable env.TraceDrift (Landed (ρ := ρ) outcome) :=
  fun _ _ h hdrift hr => gone_false_drift hdrift (h hr)

theorem stable_uploading (n : Nat) : Stable env.TraceDrift (Uploading (ρ := ρ) rootId n) := by
  intro s s' h hdrift
  refine ⟨stable_settled s s' h.1 hdrift,stable_crew s s' h.2.1 hdrift,?_⟩
  have hold : ∀ running ∈ s.world.tasks, ∀ outcome, running.outcome = some (.uploaded outcome) →
      Landed outcome s' := fun running hr outcome ho =>
    stable_landed outcome s s' (h.2.2 running hr outcome ho) hdrift
  cases hdrift with
  | @land before after task outcome remote ht hl =>
    intro running hr out ho
    rcases List.mem_append.mp hr with hr | hr
    · exact hold running (by simp [ht,hr]) out ho
    rcases List.mem_cons.mp hr with rfl | hr
    · -- the task that has just landed
      cases ho
      have hyields := hl.yields
      cases task with
      | createDirectory directory operationId =>
        obtain ⟨_,he⟩ := hyields
        cases he
      | upload operationId file isUpdate cancelledText =>
        obtain ⟨result,he⟩ := hyields
        cases he
        intro hok
        have hisOk : result.isOk = true := by
          rw [show result = .ok () from hok]
          rfl
        simp [losses_append,Losses.observe,Losses.landed,hisOk]
    · exact hold running (by simp [ht,hr]) out ho
  | disk _ => exact hold
  | cancel _ => exact hold
  | tick _ => exact hold

theorem held_uploading (n : Nat) : Held env rootId (Uploading (ρ := ρ) rootId n) where
  stable := stable_uploading n
  settled _ h := h.1
  kept s s' h hs ht hl := by
    refine ⟨hs,h.2.1.of_tasks ht,fun running hr outcome ho hok => ?_⟩
    rw [hl]
    exact h.2.2 running (ht ▸ hr) outcome ho hok

/-- With the outcome of an upload at hand. -/
def Uploaded (rootId : Str) (outcome : UploadTaskOutcome) (n : Nat) (s : Traced ρ SyncMemory) :
    Prop :=
  Uploading rootId n s ∧ Landed outcome s

theorem held_uploaded (outcome : UploadTaskOutcome) (n : Nat) :
    Held env rootId (Uploaded (ρ := ρ) rootId outcome n) where
  stable := (stable_uploading n).and (stable_landed outcome)
  settled _ h := h.1.1
  kept s s' h hs ht hl := by
    have hn : Held env rootId (Uploading (ρ := ρ) rootId n) := held_uploading n
    refine ⟨hn.kept s s' h.1 hs ht hl,fun hok => ?_⟩
    rw [hl]
    exact h.2 hok

/-- A row is written for a file that is not gone, or for another root. -/
theorem upsertFileState_leads {I J : Traced ρ SyncMemory → Prop} (hi : Held env rootId I)
    {record : FileStateRecord}
    (halive : ∀ s s', I s →
      Step env rootId s (.state (.upsertFileState record)) (.ok ()) s' →
        record.rootId = rootId → (losses s.trace).gone record.remotePath = true →
          record.status = .deleted)
    (hkept : ∀ s s', I s → Settled rootId s' → s'.world.tasks = s.world.tasks →
      losses s'.trace = losses s.trace → J s') :
    Runs env rootId I
      (SyncEngine.state (.upsertFileState record)) fun _ => J := by
  refine SyncEngine.state_leads hi.stable (fun s _ s' h hstep => ?_)
    fun s error s' _ hstep => marked_of_error hstep
  have hsettled := hi.settled s h
  have hlosses : losses s'.trace = losses s.trace := by
    rw [losses_step hstep,Losses.asked_quiet hsettled.opened rfl]
  have hrows : s'.world.repository.fileStates = s.world.repository.fileStates.put record := by
    rw [← (Prod.mk.inj (Except.ok.inj hstep.2.1.state_ok)).2]
    rfl
  refine hkept s s' h ⟨fun row hrow hroot hg => ?_,by rw [hlosses]; exact hsettled.opened⟩
    (hstep.2.1.tasks_eq rfl) hlosses
  rw [hlosses] at hg
  rw [hrows,Table.mem_put] at hrow
  rcases hrow with rfl | ⟨hrow,_⟩
  · exact halive s s' h hstep hroot hg
  · exact hsettled.marked row hrow hroot hg

theorem uploaders (runId : Int) (baseSummary : SyncRunSummary) :
    SyncEngine.Uploaders (Step env rootId) env.TraceDrift (DeadRowsMarked rootId) runId baseSummary
      (Uploading rootId) (fun _ _ _ => Uploading rootId)
      (fun outcome _ => Uploaded rootId outcome) where
  mono n s h := ⟨h.1,h.2.1.mono (Nat.le_succ n),h.2.2⟩
  routine n := (held_uploading n).running.toRoutine
  pending n outcome := (held_uploaded outcome n).running.register _ _ _
  opened n file isUpdate := (held_uploading n).call (by cases isUpdate <;> rfl) rfl
  spawned n file isUpdate operationId := by
    refine TryTriple.perform (stable_uploading n) (fun _ _ => trivial) fun s _ s' h hstep => ?_
    obtain ⟨hsettled,hlosses⟩ := h.1.onTasks rfl hstep
    have hkind : ¬ (Task.upload operationId file isUpdate SyncEngine.cancelledText).IsCreate := id
    refine ⟨hsettled,h.2.1.spawn hkind hstep,fun running hr outcome ho hok => ?_⟩
    have hworld : s'.world.tasks = s.world.tasks ++
        [{ task := .upload operationId file isUpdate SyncEngine.cancelledText }] :=
      congrArg World.tasks hstep.2.1
    rw [hworld] at hr
    rw [hlosses]
    rcases List.mem_append.mp hr with hr | hr
    · exact h.2.2 running hr outcome ho hok
    · rw [List.mem_singleton.mp hr] at ho
      cases ho
  joined n := by
    refine TryTriple.perform (stable_uploading _) (fun _ _ => trivial) fun s joined s' h hstep => ?_
    obtain ⟨hsettled,hlosses⟩ := h.1.onTasks rfl hstep
    cases h.2.1.join hstep with
    | none ht hw => exact ⟨hsettled,crew_nil (by rw [hw]; exact ht),by simp [hw,ht]⟩
    | @some task outcome hkind hyields hmem hsub hcrew _ _ =>
      cases task with
      | createDirectory directory operationId => exact (hkind trivial).elim
      | upload operationId file isUpdate cancelledText =>
        obtain ⟨result,rfl⟩ := hyields
        have hkept : ∀ outcome, Landed outcome s → Landed outcome s' := fun outcome hl hok => by
          rw [hlosses]
          exact hl hok
        exact ⟨⟨hsettled,hcrew,fun running hr outcome ho =>
          hkept outcome (h.2.2 running (hsub running hr) outcome ho)⟩,
          hkept _ (h.2.2 _ hmem _ rfl)⟩
  uploaded n outcome hresult := by
    have hu : Held env rootId (Uploaded rootId outcome n) := held_uploaded outcome n
    have hn : Held env rootId (Uploading (ρ := ρ) rootId n) := held_uploading n
    refine TryTriple.bind (hu.call rfl rfl) fun _ => ?_
    have hstatus : Runs env rootId (Uploaded rootId outcome n)
        (SyncEngine.fileStatusAfterUpload outcome.file) fun _ => Uploaded rootId outcome n := by
      refine TryTriple.bind (hu.running.routine (.fileMetadata _) rfl) fun found => ?_
      cases found with
      | none => exact TryTriple.pure fun _ h => h
      | some found =>
        exact iteInduction (motive := fun p => TryTriple _ _ _ p _ _ _)
          (fun _ => TryTriple.pure fun _ h => h) fun _ => TryTriple.pure fun _ h => h
    refine TryTriple.bind hstatus fun status => ?_
    refine TryTriple.bind (upsertFileState_leads (J := Uploading rootId n) hu
      (fun s s' h _ _ hg => ?_) fun s s' h hs ht hl =>
        hn.kept s s' h.1 hs ht hl) fun _ => ?_
    · exact absurd ((h.2 hresult).symm.trans hg) Bool.false_ne_true
    · exact TryTriple.bind (hn.call rfl rfl) fun _ =>
        TryTriple.bind (hn.running.updateMemory _) fun _ =>
          hn.running.persistRootProgress runId baseSummary
  failed n outcome failure gone errorKind errorMessage _ :=
    ((held_uploaded outcome n).call rfl rfl).post fun _ _ h => h.1
  skipped n file errorMessage := by
    have hn : Held env rootId (Uploading (ρ := ρ) rootId n) := held_uploading n
    refine upsertFileState_leads hn (fun s s' _ hstep hroot hg => ?_) hn.kept
    exact absurd ((hstep.1 hroot rfl).symm.trans hg) Bool.false_ne_true
  dropped n := by
    refine TryTriple.perform (stable_uploading n) (fun _ _ => trivial) fun s _ s' h hstep => ?_
    have hcrew : Crew (fun task => ¬ task.IsCreate) 0 s' := crew_drop hstep
    exact ⟨(h.1.onTasks rfl hstep).1,hcrew,by simp [hcrew.tasks_nil]⟩

/-- Between two operations of a run. -/
def Idle (rootId : Str) (s : Traced ρ SyncMemory) : Prop :=
  Settled rootId s ∧ s.world.tasks = []

theorem held_idle : Held env rootId (Idle (ρ := ρ) rootId) where
  stable := stable_settled.and stable_noTasks
  settled _ h := h.1
  kept _ _ h hs ht _ := ⟨hs,ht.trans h.2⟩

/-- A delete that took effect and is not recorded: only rows at or below its path wait. -/
def Pending (rootId path : Str) (s : Traced ρ SyncMemory) : Prop :=
  (∀ row ∈ s.world.repository.fileStates.rows, row.rootId = rootId →
    (losses s.trace).gone row.remotePath = true → row.status ≠ .deleted →
      row ∈ liveRowsBelow rootId s path) ∧
    (losses s.trace).opened = none ∧ s.world.tasks = []

/-- With a delete just opened, or none. -/
def Opened (rootId : Str) (s : Traced ρ SyncMemory) : Prop :=
  DeadRowsMarked rootId s ∧ s.world.tasks = []

section Deletes

variable {root : SyncRootConfig} {runId : Int} {baseSummary : SyncRunSummary}

theorem mem_liveRowsBelow {s : Traced ρ SyncMemory} {path : Str} {row : FileStateRecord} :
    row ∈ liveRowsBelow rootId s path ↔ row ∈ s.world.repository.fileStates.rows ∧
      row.rootId = rootId ∧ row.status ≠ .deleted ∧ isAtOrBelow path row.remotePath = true := by
  simp [liveRowsBelow]

theorem stable_pending (path : Str) : Stable env.TraceDrift (Pending (ρ := ρ) rootId path) := by
  intro s s' h hdrift
  refine ⟨fun row hrow hroot hg hlive => ?_,(losses_drift hdrift).1.trans h.2.1,
    stable_noTasks s s' h.2.2 hdrift⟩
  have hrepository := hdrift.repository_eq
  have hmem := h.1 row (hrepository ▸ hrow) hroot ((losses_drift hdrift).2 _ hg) hlive
  rw [mem_liveRowsBelow] at hmem ⊢
  rwa [hrepository]

/-- The mark of a delete settles its rows. -/
theorem mark_leads {path : Str} {call : StateCall} (hquiet : Losses.isQuiet (.state call) = true)
    (hmarks : ∀ s result s', Pending rootId path s →
      Step env rootId s (.state call) (.ok result) s' →
        ∀ row ∈ s'.world.repository.fileStates.rows, row.rootId = rootId →
          (losses s.trace).gone row.remotePath = true → row.status = .deleted) :
    Runs env rootId (Pending rootId path)
      (SyncEngine.state call) fun _ => Idle rootId := by
  refine SyncEngine.state_leads (stable_pending path) (fun s result s' h hstep => ?_)
    fun s error s' _ hstep => marked_of_error hstep
  have hlosses : losses s'.trace = losses s.trace := by
    rw [losses_step hstep,Losses.asked_quiet h.2.1 hquiet]
  refine ⟨⟨fun row hrow hroot hg => ?_,by rw [hlosses]; exact h.2.1⟩,
    (hstep.2.1.tasks_eq rfl).trans h.2.2⟩
  exact hmarks s result s' h hstep row hrow hroot (hlosses ▸ hg)

theorem finish_pending {path : Str} (operationId : Int) :
    Runs env rootId (Pending rootId path)
      (SyncEngine.state (.finishOperation operationId .succeeded none none))
      fun _ => Pending rootId path := by
  refine SyncEngine.state_leads (stable_pending path) (fun s result s' h hstep => ?_)
    fun s error s' _ hstep => marked_of_error hstep
  have hlosses : losses s'.trace = losses s.trace := by
    rw [losses_step hstep,Losses.asked_quiet h.2.1 rfl]
  have hrows : s'.world.repository.fileStates = s.world.repository.fileStates := by
    rcases hstep.2.1.repository_cases with hr | ⟨call,hcall,hleaves⟩
    · rw [hr]
    · cases hcall
      exact hleaves.fileStates rfl
  refine ⟨fun row hrow hroot hg hlive => ?_,hlosses ▸ h.2.1,(hstep.2.1.tasks_eq rfl).trans h.2.2⟩
  have hmem := h.1 row (hrows ▸ hrow) hroot (hlosses ▸ hg) hlive
  rw [mem_liveRowsBelow] at hmem ⊢
  rwa [hrows]

theorem recordDeleted_leads (operationId : Int) (delete : RemoteDeleteOperation) :
    Runs env rootId (Pending rootId delete.remotePath)
      (SyncEngine.recordDeleted runId operationId delete) fun _ => Idle rootId := by
  refine TryTriple.bind (finish_pending operationId) fun _ => ?_
  have hsubtree : Runs env rootId (Idle rootId)
      (SyncEngine.state (.deleteRemoteResourceSubtree delete.rootId delete.remotePath))
      fun _ => Idle rootId := held_idle.call rfl rfl
  cases delete.resourceType with
  | file =>
    refine TryTriple.bind (mark_leads rfl fun s result s' h hstep row hrow hroot hg => ?_)
      fun _ => hsubtree
    have hallowed : ∀ row ∈ liveRowsBelow rootId s delete.remotePath,
        row.key = (delete.rootId,delete.relativePath) := hstep.1
    have hrows : s'.world.repository = s.world.repository.markDeleted delete.rootId
        delete.relativePath delete.remotePath (some runId) :=
      (Prod.mk.inj (Except.ok.inj hstep.2.1.state_ok)).2.symm
    rw [hrows] at hrow
    rcases Repository.mem_markDeleted hrow with ⟨hrow,hkey⟩ | hmarked
    · by_contra hlive
      exact hkey (hallowed row (h.1 row hrow hroot hg hlive))
    · exact hmarked
  | directory =>
    refine TryTriple.bind (mark_leads rfl fun s result s' h hstep row hrow hroot hg => ?_)
      fun _ => hsubtree
    have hnone : liveRowsBelow rootId s delete.remotePath = [] := hstep.1
    have hrows : s'.world.repository.fileStates = s.world.repository.fileStates := by
      rcases hstep.2.1.repository_cases with hr | ⟨call,hcall,hleaves⟩
      · rw [hr]
      · cases hcall
        exact hleaves.fileStates rfl
    by_contra hlive
    have hmem := h.1 row (hrows ▸ hrow) hroot hg hlive
    rw [hnone] at hmem
    cases hmem

/-- The delete itself, from any state in which no row waits. -/
theorem deleteRemote_leads (operationId : Int) (delete : RemoteDeleteOperation) :
    Runs env rootId (Opened rootId)
      (SyncEngine.deleteRemote root runId baseSummary operationId delete)
      fun _ => Idle rootId := by
  have hidle : Held env rootId (Idle rootId) := held_idle
  have hclient : Runs env rootId (Opened rootId)
      (SyncEngine.client (.deletePermanently delete.remotePath)) fun answer s =>
        if answer.isOk || isAbsent answer then Pending rootId delete.remotePath s
        else Idle rootId s := by
    refine TryTriple.perform (stable_marked.and stable_noTasks) (fun _ _ => trivial)
      fun s answer s' h hstep => ?_
    have hlosses : losses s'.trace = (losses s.trace).asked
        (.client (.deletePermanently delete.remotePath)) answer := losses_step hstep
    have hrows : s'.world.repository = s.world.repository :=
      hstep.2.1.repository_eq fun _ he => nomatch he
    have htasks : s'.world.tasks = [] := (hstep.2.1.tasks_eq rfl).trans h.2
    simp only [Losses.asked] at hlosses
    split at hlosses
    · rename_i htook
      rw [if_pos htook]
      refine ⟨fun row hrow hroot hg hlive => ?_,by rw [hlosses]; rfl,htasks⟩
      rw [hrows] at hrow
      rw [mem_liveRowsBelow,hrows]
      refine ⟨hrow,hroot,hlive,?_⟩
      rw [hlosses] at hg
      rcases Bool.or_eq_true_iff.mp hg with hbelow | hg
      · exact hbelow
      · exact absurd (h.1 row hrow hroot hg) hlive
    · rename_i hnot
      rw [if_neg hnot]
      exact ⟨⟨marked_of_gone h.1 (by rw [hrows]) (by simp [hlosses]),by rw [hlosses]⟩,htasks⟩
  refine TryTriple.bind hclient fun answer => ?_
  cases answer with
  | ok _ =>
    refine TryTriple.bind ((recordDeleted_leads operationId delete).pre fun _ h => h) fun _ => ?_
    exact TryTriple.bind (hidle.running.updateMemory _) fun _ =>
      TryTriple.bind (hidle.running.persistRootProgress runId baseSummary) fun _ =>
        TryTriple.pure fun _ h => h
  | error error =>
    by_cases hne : error.kind = .notFound
    · have hp : ∀ s : Traced ρ SyncMemory, (if Except.isOk (.error error : Except _ Unit) ||
          isAbsent (.error error : Except _ Unit) then Pending rootId delete.remotePath s
          else Idle rootId s) → Pending rootId delete.remotePath s := by
        intro s h
        rwa [if_pos (by simp [isAbsent,hne])] at h
      simp only [hne,if_true]
      exact TryTriple.bind ((recordDeleted_leads operationId delete).pre hp) fun _ =>
        TryTriple.pure fun _ h => h
    · have hp : ∀ s : Traced ρ SyncMemory, (if Except.isOk (.error error : Except _ Unit) ||
          isAbsent (.error error : Except _ Unit) then Pending rootId delete.remotePath s
          else Idle rootId s) → Idle rootId s := by
        intro s h
        rwa [if_neg (by simp [isAbsent,hne,Except.isOk,Except.toBool])] at h
      simp only [hne,if_false]
      exact (SyncEngine.recordClientFailure_leads hidle.running.toRoutine (hidle.call rfl rfl)).pre hp

theorem applyDelete_leads (inventoryFromCache : Bool) (delete : RemoteDeleteOperation) :
    Runs env rootId (Idle rootId)
      (SyncEngine.applyDelete root runId baseSummary inventoryFromCache delete)
      fun _ => Idle rootId := by
  have hidle : Held env rootId (Idle rootId) := held_idle
  have hopen : Runs env rootId (Idle rootId) (SyncEngine.state (.appendOperationStarted {
      runId, operation := "delete_remote".toList, localPath := none
      remotePath := some delete.remotePath })) fun _ s =>
        Opened rootId s ∧ (losses s.trace).opened = some delete.remotePath := by
    refine SyncEngine.state_leads hidle.stable (fun s result s' h hstep => ?_)
      fun s error s' _ hstep => marked_of_error hstep
    have hrows : s'.world.repository.fileStates = s.world.repository.fileStates := by
      rcases hstep.2.1.repository_cases with hr | ⟨call,hcall,hleaves⟩
      · rw [hr]
      · cases hcall
        exact hleaves.fileStates rfl
    refine ⟨⟨marked_of_gone h.1.marked hrows fun q hq => ?_,(hstep.2.1.tasks_eq rfl).trans h.2⟩,?_⟩
    · rwa [losses_step hstep,Losses.asked_state] at hq
    · rw [losses_step hstep]
      rfl
  refine TryTriple.bind hopen fun operationId => ?_
  refine iteInduction (motive := fun p => Runs env rootId _ p fun _ => Idle rootId) (fun _ => ?_)
    fun _ => (deleteRemote_leads operationId delete).pre fun _ h => h.1
  have hcheck : Runs env rootId (fun s => Opened rootId s ∧
      (losses s.trace).opened = some delete.remotePath)
      (SyncEngine.client (.metadata delete.remotePath)) fun _ => Idle rootId := by
    have hstable : Stable env.TraceDrift fun s : Traced ρ SyncMemory => Opened rootId s ∧
        (losses s.trace).opened = some delete.remotePath :=
      fun s s' h hdrift => ⟨(stable_marked.and stable_noTasks) s s' h.1 hdrift,
        (losses_drift hdrift).1.trans h.2⟩
    refine TryTriple.perform hstable (fun _ _ => trivial) fun s answer s' h hstep => ?_
    have hlosses : losses s'.trace = (losses s.trace).asked
        (.client (.metadata delete.remotePath)) answer := losses_step hstep
    have hrows : s'.world.repository = s.world.repository :=
      hstep.2.1.repository_eq fun _ he => nomatch he
    have htasks : s'.world.tasks = [] := (hstep.2.1.tasks_eq rfl).trans h.1.2
    simp only [Losses.asked] at hlosses
    split at hlosses
    · rename_i habsent
      -- nothing that has a row was found absent
      have hnone : liveRowsBelow rootId s delete.remotePath = [] :=
        hstep.1 h.2 habsent.2
      refine ⟨⟨fun row hrow hroot hg => ?_,by rw [hlosses]; rfl⟩,htasks⟩
      rw [hrows] at hrow
      rw [hlosses] at hg
      rcases Bool.or_eq_true_iff.mp hg with hbelow | hg
      · by_contra hlive
        have hmem := mem_liveRowsBelow.mpr ⟨hrow,hroot,hlive,hbelow⟩
        rw [hnone] at hmem
        cases hmem
      · exact h.1.1 row hrow hroot hg
    · exact ⟨⟨marked_of_gone h.1.1 (by rw [hrows]) (by simp [hlosses]),by rw [hlosses]⟩,htasks⟩
  refine TryTriple.bind hcheck fun answer => ?_
  cases answer with
  | ok _ => exact (deleteRemote_leads operationId delete).pre fun _ h => ⟨h.1.marked,h.2⟩
  | error error =>
    refine iteInduction (motive := fun p => Runs env rootId _ p fun _ => Idle rootId)
      (fun _ => ?_) fun _ =>
        SyncEngine.recordClientFailure_leads hidle.running.toRoutine (hidle.call rfl rfl)
    exact TryTriple.bind (hidle.call rfl rfl) fun _ =>
      TryTriple.bind (hidle.call rfl rfl) fun _ => TryTriple.pure fun _ h => h

end Deletes

section Run

/-- The inventory of a root reads and keeps the cache. -/
theorem inventoryCalls_idle : SyncEngine.InventoryCalls fun ⦃α⦄ (p : SyncEngine.Inventorying α) =>
    Upholds (Step env rootId) env.TraceDrift (Idle rootId) (Idle rootId) p := by
  have hask : ∀ e : Effect SyncMemory, Losses.isQuiet e = true → e.onTasks = false →
      (∀ call, e = .state call → call.writesFileStates = false) →
        Upholds (Step env rootId) env.TraceDrift (Idle rootId) (Idle rootId) (SyncEngine.ask e) :=
    fun e hquiet htasks hfiles => Upholds.perform held_idle.stable fun s answer s' h hstep =>
      held_idle.step h hquiet htasks hfiles hstep
  exact {
    toSequential := sequential_upholds fun _ h => h
    now := hask _ rfl rfl fun _ h => nomatch h
    status := fun _ => hask _ rfl rfl fun _ h => by cases h; rfl
    cached := fun _ => hask _ rfl rfl fun _ h => by cases h; rfl
    metadata := fun _ => hask _ rfl rfl fun _ h => nomatch h
    list := fun _ _ => hask _ rfl rfl fun _ h => nomatch h
    replace := fun _ _ => hask _ rfl rfl fun _ h => by cases h; rfl
    setStatus := fun _ => hask _ rfl rfl fun _ h => by cases h; rfl }

theorem executeScanned_leads (ext : Externals) (config : AppConfig) (root : SyncRootConfig)
    (runId : Int) (baseSummary : SyncRunSummary) (canonicalRemotePath : Str)
    (scanReport : ScanReport) (availableRemoteBytes : Option Nat) (forceRemoteRescan : Bool) :
    Upholds (Step env rootId) env.TraceDrift (Idle rootId) (DeadRowsMarked rootId)
      (SyncEngine.executeScanned ext config root runId baseSummary canonicalRemotePath scanReport
        availableRemoteBytes forceRemoteRescan) := by
  have hidle : Held env rootId (Idle rootId) := held_idle
  refine hidle.running.executeScanned ext config (fun root canonical plan force => ?_)
    (fun root error => hidle.call rfl rfl)
    (fun root runId baseSummary canonical report rootPlan snapshot => ?_) root runId baseSummary
    canonicalRemotePath scanReport availableRemoteBytes forceRemoteRescan
  · exact (SyncEngine.remoteInventory_of inventoryCalls_idle config root canonical plan
      force).catch fun _ h => h
  · refine hidle.running.applyPlan config ?_ ?_ (fun delete => applyDelete_leads _ delete) report
    · have hcreate : Runs env rootId (Creating rootId 0)
          (SyncEngine.applyCreateDirectories config root runId baseSummary rootPlan)
          fun _ => Creating rootId 0 := (creators runId).applyCreateDirectories config rootPlan
      exact hcreate.weaken (fun _ h => ⟨h.1,crew_nil h.2⟩) (fun _ _ h => ⟨h.1,h.2.tasks_nil⟩)
        (fun _ h => h) fun _ h => h
    · have hupload : Runs env rootId (Uploading rootId 0)
          (SyncEngine.applyUploads config root runId baseSummary rootPlan)
          fun _ => Uploading rootId 0 := (uploaders runId baseSummary).applyUploads config rootPlan
      exact hupload.weaken (fun _ h => ⟨h.1,crew_nil h.2,by simp [h.2]⟩)
        (fun _ _ h => ⟨h.1,h.2.1.tasks_nil⟩) (fun _ h => h) fun _ h => h

theorem running_marked : SyncEngine.Running fun ⦃α⦄ (p : Engine α) =>
    Upholds (Step env rootId) env.TraceDrift (DeadRowsMarked rootId) (DeadRowsMarked rootId) p := by
  refine SyncEngine.running_upholds stable_marked (fun e he s answer s' h hstep => ?_)
    fun _ h => h
  have hgone : ((losses s.trace).asked e answer).gone = (losses s.trace).gone := by
    cases e with
    | state call => exact Losses.asked_state _ call answer
    | client call => cases call <;> first | rfl | cases he
    | _ => rfl
  refine marked_of_gone h ?_ fun q hq => ?_
  · rcases hstep.2.1.repository_cases with hr | ⟨call,hcall,hleaves⟩
    · rw [hr]
    · exact hleaves.fileStates ((isQuiet_of_isRoutine he).2.2 call hcall)
  · rwa [losses_step hstep,hgone] at hq

theorem runOnce_leads (ext : Externals) (config : AppConfig) (options : SyncEngine.SyncRunOptions) :
    Runs env rootId (Idle rootId) (SyncEngine.runOnce ext config options)
      fun _ => DeadRowsMarked rootId := by
  have hidle : Held env rootId (Idle rootId) := held_idle
  refine SyncEngine.runOnce_upholds hidle.running running_marked (fun _ h => h.1.marked) ?_ ext
    config (executeScanned_leads ext config) options
  exact Upholds.perform hidle.stable fun s answer s' h hstep =>
    hidle.step h rfl rfl (fun _ hc => by cases hc; rfl) hstep

end Run

end DeadRows

/-- A run whose deletes take with them no more than the rows they mark leaves no row of a root
unmarked whose remote file is gone. -/
theorem runOnce_deadRowsMarked {ρ : Type} (env : Environment ρ) (rootId : Str) (config : AppConfig)
    (options : SyncEngine.SyncRunOptions) {s s' : Traced ρ SyncMemory}
    {result : Except SyncError SyncEngine.RunOnceResult} (htrace : s.trace = [])
    (htasks : s.world.tasks = [])
    (hrun : Exec (env.TraceStep (LeavesNoRow rootId)) env.TraceDrift
      (SyncEngine.runOnce env.ext config options).run s (some result) s') :
    DeadRowsMarked rootId s' := by
  have hidle : DeadRows.Idle rootId s := by
    refine ⟨⟨fun row _ _ hg => ?_,?_⟩,htasks⟩
    · simp [htrace,losses] at hg
    · simp [htrace,losses]
  have hend := DeadRows.runOnce_leads env.ext config options s (some result) s' hidle hrun
  match result with
  | .ok _ => exact hend
  | .error _ => exact hend

section Coalesced

/-! A directory that is gone locally is removed by one delete, with a file that has a row. -/

private def deadConfig : AppConfig :=
  { defaultConfig with
    roots := [{ id := "r".toList, name := "r".toList, enabled := true, localPath := "/r".toList }] }

private def trackedRow (relativePath remotePath : Str) : FileStateRecord :=
  { rootId := "r".toList, localPath := "/r/".toList ++ relativePath, relativePath, remotePath
    normalizedRemotePath := remotePath, sizeBytes := 1, mtimeNs := none, ctimeNs := none
    fingerprintKind := "name_size".toList, fingerprintValue := none, fullSha256 := none
    remoteEtag := none, remoteMd5 := none, lastRunId := none, status := .synced, lastError := none }

private def deadDisk : LocalTree where
  items := [{ components := ["r".toList], fileType := .dir, sizeBytes_lt := emptySize_lt }]
  names_ne := by decide
  nodup := by decide
  closed := by decide +kernel

/-- The root is empty; the remote has a file, in a directory or not, and a row for it. -/
private def deadStart (inDirectory : Bool) : Traced RemoteDisk SyncMemory :=
  let relativePath := if inDirectory then "d/f".toList else "f".toList
  let remotePath := "disk:/Backup/r/".toList ++ relativePath
  { world := {
      disk := deadDisk
      remote := { resources := Inventory.ofResources ([.ofDirectory "disk:/Backup/r".toList,
        .ofFile remotePath 1] ++
          if inDirectory then [.ofDirectory "disk:/Backup/r/d".toList] else []) }
      repository := ({} : Repository).upsertFileState (trackedRow relativePath remotePath)
      tasks := []
      cancelled := false
      now := 0
      memory := { report := { runId := 1 } } } }

private def deadScenario : Scenario RemoteDisk SyncMemory :=
  { respond := mockResponder ⟨none,none⟩ }

private def deadEnvironment : Environment RemoteDisk :=
  mockEnvironment asciiExternals ⟨none,none⟩ fun _ _ => False

private def deadOptions : SyncEngine.SyncRunOptions :=
  { lockOwner := "a".toList, staleLockAfter := 3600 }

private def leavesCheck (s : Traced RemoteDisk SyncMemory) :
    (e : Effect SyncMemory) → e.Answer → Bool
  | .state _, .error _ => false
  | .state (.markDeleted id relativePath remotePath _), .ok _ =>
    (liveRowsBelow "r".toList s remotePath).all fun row => row.key == (id,relativePath)
  | .state (.markDirectoryDeleted _ _ remotePath _), .ok _ =>
    (liveRowsBelow "r".toList s remotePath).isEmpty
  | .state (.upsertFileState record), .ok _ => record.status != .skipped
  | .client (.metadata path), _ => (losses s.trace).opened != some path
  | _, _ => true

private theorem leavesNoRow_of_check {s t : Traced RemoteDisk SyncMemory}
    {e : Effect SyncMemory} {answer : e.Answer} (h : leavesCheck s e answer = true)
    (hsame : e = .joinNext ∨
      t.world.repository = s.world.repository ∧ t.trace = s.trace) :
    LeavesNoRow "r".toList t e answer := by
  rcases hsame with rfl | ⟨hrepository,htrace⟩
  · trivial
  have hbelow : ∀ path, liveRowsBelow "r".toList t path = liveRowsBelow "r".toList s path := by
    intro path
    unfold liveRowsBelow
    rw [hrepository]
  cases e with
  | state call =>
    cases answer with
    | error error => cases call <;> cases h
    | ok result =>
      cases call with
      | markDeleted id relativePath remotePath lastRunId =>
        intro row hrow
        rw [hbelow] at hrow
        exact eq_of_beq (List.all_eq_true.mp h row hrow)
      | markDirectoryDeleted id relativePath remotePath lastRunId =>
        exact (hbelow remotePath).trans (List.isEmpty_iff.mp h)
      | upsertFileState record =>
        intro _ hskipped
        exact absurd hskipped (by simpa [leavesCheck] using h)
      | _ => trivial
  | client call =>
    cases call with
    | metadata path =>
      intro hopened
      rw [htrace] at hopened
      exact absurd hopened (by simpa [leavesCheck] using h)
    | _ => trivial
  | _ => trivial

private theorem settled_same (s : Traced RemoteDisk SyncMemory) (e : Effect SyncMemory) :
    e = .joinNext ∨ (s.settled deadScenario e).world.repository = s.world.repository ∧
      (s.settled deadScenario e).trace = s.trace := by
  cases e with
  | joinNext => exact Or.inl rfl
  | _ => exact Or.inr ⟨rfl,rfl⟩

private theorem deadScenario_allowed : deadScenario.Allowed deadEnvironment where
  admits := mockEnvironment_admits asciiExternals ⟨none,none⟩ fun _ _ => False
  cancels _ _ hc := by simp [deadScenario] at hc

private def coalescedRun : Except SyncError SyncEngine.RunOnceResult × Traced RemoteDisk SyncMemory :=
  (deadStart true).play deadScenario asciiExternals
    (SyncEngine.runOnce asciiExternals deadConfig deadOptions).run

/-- Every row that is not marked names a file of the remote. -/
def RowsOnRemote (s : Traced RemoteDisk SyncMemory) : Prop :=
  ∀ row ∈ s.world.repository.fileStates.rows, row.status ≠ .deleted →
    (s.world.remote.resources[row.remotePath]?).any (fun r => r.resourceType == .file) = true

instance (s : Traced RemoteDisk SyncMemory) : Decidable (RowsOnRemote s) :=
  inferInstanceAs (Decidable (∀ row ∈ s.world.repository.fileStates.rows, row.status ≠ .deleted → _))

theorem coalescedDelete_leaves_row : ¬ ∀ (ext : Externals) (quota : QuotaInfo)
    (config : AppConfig) (options : SyncEngine.SyncRunOptions)
    (s s' : Traced RemoteDisk SyncMemory)
    (result : Except SyncError SyncEngine.RunOnceResult) (rootId : Str),
    s.trace = [] → s.world.tasks = [] → RowsOnRemote s →
      Exec ((mockEnvironment ext quota fun _ _ => False).TraceStep fun _ _ _ => True)
        (mockEnvironment ext quota fun _ _ => False).TraceDrift
        (SyncEngine.runOnce ext config options).run s (some result) s' →
      DeadRowsMarked rootId s' := by
  intro h
  have hrun : Exec (deadEnvironment.TraceStep fun _ _ _ => True) deadEnvironment.TraceDrift
      (SyncEngine.runOnce asciiExternals deadConfig deadOptions).run (deadStart true)
      (some coalescedRun.1) coalescedRun.2 :=
    Scenario.exec_play deadScenario_allowed (J := fun _ => True) (fun _ _ _ => trivial)
      (fun _ _ _ => trivial) _ trivial
  have hunmarked : ¬ DeadRowsMarked "r".toList coalescedRun.2 := by decide +kernel
  exact hunmarked (h asciiExternals ⟨none,none⟩ deadConfig deadOptions (deadStart true) _ _ _ rfl
    rfl (by decide +kernel) hrun)

/-- The delete of a file by itself. -/
theorem fileDelete_marked : ∃ result s, runChecked (fun s e =>
      s.answer deadScenario asciiExternals e) leavesCheck
      (SyncEngine.runOnce asciiExternals deadConfig deadOptions).run (deadStart false) =
        some (result,s) ∧ DeadRowsMarked "r".toList s := by
  have hruns : (runChecked (fun s e => s.answer deadScenario asciiExternals e) leavesCheck
      (SyncEngine.runOnce asciiExternals deadConfig deadOptions).run
      (deadStart false)).isSome = true := by decide +kernel
  obtain ⟨⟨result,s⟩,hrun⟩ := Option.isSome_iff_exists.mp hruns
  have hexec := Scenario.exec_checked deadScenario_allowed
    (fun s e hc => leavesNoRow_of_check hc (settled_same s e)) hrun
  exact ⟨result,s,hrun,runOnce_deadRowsMarked deadEnvironment "r".toList deadConfig deadOptions
    rfl rfl hexec⟩

end Coalesced

end YaDiskSync
