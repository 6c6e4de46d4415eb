import YaDiskSync.StateFrame
import YaDiskSync.Trace

/-! The journal of a run, next to what became of the operations it opened. -/
namespace YaDiskSync

open Prog

variable {ρ μ : Type}

section Lookup

variable {σ E ε : Type} {A : E → Type} {step : σ → (e : E) → A e → σ → Prop} {env : σ → σ → Prop}
  {F : Bool → σ → Prop} {D C : σ → Prop} {isDir pathExists : LocalPath → ExceptT ε (Prog E A) Bool}
  (hless : ∀ s, F true s → F false s)
  (hexists : ∀ gone path, TryTriple step env (F gone) (pathExists path)
    (fun there => F (gone || !there)) D C)

include hless hexists

theorem nearestMissingLoop_finds (root : LocalPath) (fuel : Nat) (candidate : LocalPath)
    (nearest : Option LocalPath) :
    TryTriple step env (F nearest.isSome) (nearestMissingLoop pathExists root fuel candidate nearest)
      (fun found => F found.isSome) D C := by
  induction fuel generalizing candidate nearest with
  | zero => exact TryTriple.pure fun _ h => h
  | succ fuel ih =>
    unfold nearestMissingLoop
    refine iteInduction (motive := fun p => TryTriple _ _ _ p _ _ _)
      (fun _ => TryTriple.pure fun _ h => h) fun _ => ?_
    refine TryTriple.bind (hexists _ candidate) fun there => ?_
    cases there with
    | true => exact TryTriple.pure fun s h => by simpa using h
    | false =>
      simp only [Bool.not_false,Bool.or_true,Bool.false_eq_true,if_false]
      cases parent? candidate with
      | none => exact TryTriple.pure hless
      | some parent =>
        refine iteInduction (motive := fun p => TryTriple _ _ _ p _ _ _)
          (fun _ => TryTriple.pure fun _ h => h) fun _ => ?_
        refine TryTriple.bind (hexists true parent) fun there => ?_
        exact iteInduction (motive := fun p => TryTriple _ _ _ p _ _ _)
          (fun _ => TryTriple.pure fun _ h => h) fun _ => ih parent (some candidate)

/-- A subtree is registered only after nothing has been found at a path. -/
theorem registerMissingLocalPath_finds
    (hisDir : ∀ path, TryTriple step env (F false) (isDir path) (fun _ => F false) D C)
    (plan : LiveScanPlan) (localPath : LocalPath) (relativePath remotePath : Str) :
    TryTriple step env (F false)
      (plan.registerMissingLocalPath isDir pathExists localPath relativePath remotePath)
      (fun result => F result.2.isSome) D C := by
  have hnearest : TryTriple step env (F false)
      (nearestMissingDirectory isDir pathExists plan.rootLocalPath localPath)
      (fun found => F found.isSome) D C := by
    refine TryTriple.bind (hisDir localPath) fun there => ?_
    refine iteInduction (motive := fun p => TryTriple _ _ _ p _ _ _)
      (fun _ => nearestMissingLoop_finds hless hexists _ _ _ none) fun _ => ?_
    cases parent? localPath with
    | none => exact TryTriple.pure fun _ h => h
    | some parent => exact nearestMissingLoop_finds hless hexists _ _ _ none
  have hdetect : TryTriple step env (F false)
      (detectDeletedLocalSubtree isDir pathExists plan.rootId plan.rootLocalPath localPath
        relativePath remotePath) (fun found => F found.isSome) D C := by
    refine TryTriple.bind hnearest fun missing => ?_
    cases missing with
    | none => exact TryTriple.pure fun _ h => h
    | some missing =>
      dsimp only
      cases missingRelativePrefix plan.rootLocalPath missing with
      | none => exact TryTriple.pure hless
      | some relativePrefix =>
        exact iteInduction (motive := fun p => TryTriple _ _ _ p _ _ _)
          (fun _ => TryTriple.pure hless) fun _ => TryTriple.pure fun _ h => h
  refine TryTriple.bind hdetect fun subtree => ?_
  cases subtree with
  | none => exact TryTriple.pure fun _ h => h
  | some subtree =>
    dsimp only
    generalize plan.addDeletedSubtree subtree = result
    obtain ⟨plan',added⟩ := result
    cases added with
    | true => exact TryTriple.pure fun _ h => h
    | false => exact TryTriple.pure hless

end Lookup

/-- How an operation ended. -/
inductive Ending
  | succeeded
  | failed
  /-- its file is not there to be read, the remote keeps refusing it, or the run is cancelled -/
  | givenUp
  deriving DecidableEq

namespace Ending

def status : Ending → OperationStatus
  | .succeeded => .succeeded
  | .failed => .failed
  | .givenUp => .cancelled

theorem status_ne_running (ending : Ending) : ending.status ≠ .running := by
  cases ending <;> simp [status]

def ofSuccess (succeeded : Bool) : Ending := if succeeded then .succeeded else .failed

@[simp] theorem ofSuccess_true : ofSuccess true = .succeeded := rfl

@[simp] theorem ofSuccess_false : ofSuccess false = .failed := rfl

/-- A delete that finds nothing did what it was asked for. -/
def ofCall : (call : ClientCall) → Except YandexDiskError call.Result → Ending
  | .deletePermanently _, answer => ofSuccess (answer.isOk || isAbsent answer)
  | .metadata _, answer => ofSuccess (isAbsent answer)
  | _, answer => ofSuccess answer.isOk

end Ending

/-- The upload had not begun when the run was cancelled. -/
def UploadTaskFailure.isCancelled (failure : UploadTaskFailure) : Bool :=
  failure.errorKind == "cancelled".toList

def TaskOutcome.isCancelled : TaskOutcome → Bool
  | .uploaded ⟨_,_,_,.error failure⟩ => failure.isCancelled
  | _ => false

namespace Ending

def ofUpload : Except UploadTaskFailure Unit → Ending
  | .ok _ => .succeeded
  | .error failure =>
    if failure.isCancelled || failure.skipReasonCode.isSome then .givenUp else .failed

/-- An upload the client has answered with an error. -/
theorem ofUpload_uploadFailure (error : YandexDiskError) :
    ofUpload (.error (uploadFailure error)) =
      if error.isPersistentUploaderConflict || error.isLocalUploadSourceUnavailable then .givenUp
      else .failed := by
  have hran : (uploadFailure error).isCancelled = false := by
    simp only [UploadTaskFailure.isCancelled,uploadFailure]
    cases error.kind <;> decide
  simp only [ofUpload,hran,Bool.false_or]
  cases hconflict : error.isPersistentUploaderConflict <;>
    cases hsource : error.isLocalUploadSourceUnavailable <;>
      simp [uploadFailure,hconflict,hsource]

def ofReading (error : IoError) : Ending :=
  if isSkippableLocalIoError error then .givenUp else .failed

def ofDownload (error : YandexDiskError) : Ending :=
  if error.isLocalUploadSourceUnavailable then .givenUp else .failed

end Ending

/-- What a run has just been told. -/
inductive Moment
  | idle
  /-- the operation was opened in the step before, or checked since -/
  | calling (id : Int)
  /-- nothing is at a path -/
  | missing
  /-- a file could not be compared, which ends the operation to be opened for it -/
  | blamed (ending : Ending)
  deriving DecidableEq

namespace Moment

/-- After a step that asks nobody but the database and the run itself. -/
def rest : Moment → Moment
  | .calling _ => .idle
  | moment => moment

def blame : Moment → Option Ending
  | .blamed ending => some ending
  | _ => none

/-- With `idle` for all that is no call. -/
def Meets (moment : Moment) : Moment → Prop
  | .idle => ∀ id, moment ≠ .calling id
  | expected => moment = expected

theorem Meets.rest {moment expected : Moment} (h : moment.Meets expected) :
    moment.rest.Meets expected.rest := by
  cases expected with
  | idle =>
    intro id
    cases moment <;> simp [Moment.rest]
  | calling id =>
    rw [show moment = .calling id from h]
    exact fun _ he => nomatch he
  | missing =>
    rw [show moment = .missing from h]
    rfl
  | blamed ending =>
    rw [show moment = .blamed ending from h]
    rfl

theorem Meets.idle {moment expected : Moment} (h : moment.Meets expected)
    (hcalls : ∀ id, expected ≠ .calling id) : moment.Meets .idle := by
  cases expected with
  | idle => exact h
  | calling id => exact absurd rfl (hcalls id)
  | missing => exact fun id he => nomatch h.symm.trans he
  | blamed ending => exact fun id he => nomatch h.symm.trans he

theorem Meets.blame {moment expected : Moment} (h : moment.Meets expected) {ending : Ending}
    (hblame : expected.blame = some ending) : moment.blame = some ending := by
  cases expected with
  | blamed _ => rwa [show moment = .blamed _ from h]
  | _ => cases hblame

end Moment

/-- What became of the operations of a run. -/
structure Endings where
  opened : Int → Bool := fun _ => false
  /-- an operation may fail and its file be gone as well -/
  ended : Int → List Ending := fun _ => []
  moment : Moment := .idle

namespace Endings

def opens (endings : Endings) (id : Int) : Endings where
  opened i := i == id || endings.opened i
  ended i := if i = id then endings.moment.blame.toList else endings.ended i
  moment := .calling id

def settle (endings : Endings) (id : Int) (ending : Ending) : Endings :=
  { endings with ended := fun i => if i = id then [ending] else endings.ended i, moment := .idle }

/-- An operation that is closed when its path has been found missing is given up. -/
def closes (endings : Endings) (id : Int) : Endings :=
  { endings with
    ended := fun i => if i = id ∧ endings.moment = .missing then .givenUp :: endings.ended i
      else endings.ended i
    moment := .idle }

def rests (endings : Endings) : Endings := { endings with moment := endings.moment.rest }

/-- After a step with its answer. -/
def asked (endings : Endings) : (e : Effect μ) → e.Answer → Endings
  | .state (.appendOperationStarted _), .ok id => endings.opens id
  | .state (.finishOperation id ..), .ok _ => endings.closes id
  -- the check before a delete does not end it
  | .client (.metadata _), .ok _ => endings
  | .client call, answer =>
    match endings.moment with
    | .calling id => endings.settle id (.ofCall call answer)
    | _ => { endings with moment := match call, answer with
      | .download _, .error error => .blamed (.ofDownload error)
      | _, _ => .idle }
  | .readFile _, .error error => { endings with moment := .blamed (.ofReading error) }
  | .isFile _, false => { endings with moment := .blamed .givenUp }
  | .pathExists _, false => { endings with moment := .missing }
  | .joinNext, some (.created _ id result) => endings.settle id (.ofSuccess result.isOk)
  | .joinNext, some (.uploaded outcome) =>
    endings.settle outcome.operationId (.ofUpload outcome.result)
  | .state _, _ | .readMemory, _ | .updateMemory _, _ | .isDir _, _ | .pathExists _, true =>
    endings.rests
  | _, _ => { endings with moment := .idle }

def observe (endings : Endings) : Happening μ → Endings
  | .step e answer => endings.asked e answer
  | .landed _ _ => endings

end Endings

def endings (trace : List (Happening μ)) : Endings := trace.foldl Endings.observe {}

@[simp] theorem endings_append (trace : List (Happening μ)) (happening : Happening μ) :
    endings (trace ++ [happening]) = (endings trace).observe happening := by
  simp [endings]

theorem endings_drift {env : Environment ρ} {s s' : Traced ρ μ} (h : env.TraceDrift s s') :
    endings s'.trace = endings s.trace := by
  rcases h.trace_eq with ht | ⟨task,outcome,ht⟩
  · rw [ht]
  · rw [ht,endings_append]
    rfl

/-- A row that tells how its operation ended. What is entered at one stroke has been done. -/
def OperationJournalRecord.Tells (row : OperationJournalRecord) (endings : Endings) : Prop :=
  if endings.opened row.id = true then
    ∃ ending ∈ endings.ended row.id, row.status = ending.status
  else row.status = .succeeded

instance (row : OperationJournalRecord) (endings : Endings) : Decidable (row.Tells endings) :=
  inferInstanceAs (Decidable (if endings.opened row.id = true then
    ∃ ending ∈ endings.ended row.id, row.status = ending.status else _))

namespace OperationJournalRecord

variable {row : OperationJournalRecord} {endings endings' : Endings}

theorem Tells.ne_running (h : row.Tells endings) : row.status ≠ .running := by
  unfold Tells at h
  split at h
  · obtain ⟨ending,_,hstatus⟩ := h
    rw [hstatus]
    exact ending.status_ne_running
  · rw [h]
    simp

theorem Tells.congr (h : row.Tells endings) (hopened : endings'.opened row.id = endings.opened row.id)
    (hended : endings'.ended row.id = endings.ended row.id) : row.Tells endings' := by
  unfold Tells
  rwa [hopened,hended]

end OperationJournalRecord

namespace Repository

variable {records : List OperationRecord} {repository : Repository} {row : OperationJournalRecord}

theorem mem_appendOperationsSucceeded_of_mem (h : row ∈ repository.operationJournal.rows) :
    row ∈ (repository.appendOperationsSucceeded records).operationJournal.rows := by
  unfold appendOperationsSucceeded
  induction records generalizing repository with
  | nil => exact h
  | cons record records ih => exact ih (mem_appendOperation.mpr (Or.inr h))

/-- A row that was not there before has an id of its own. -/
theorem mem_appendOperationsSucceeded
    (h : row ∈ (repository.appendOperationsSucceeded records).operationJournal.rows) :
    row ∈ repository.operationJournal.rows ∨ row.status = .succeeded ∧
      ∀ old ∈ repository.operationJournal.rows, old.id ≠ row.id := by
  unfold appendOperationsSucceeded at h
  induction records generalizing repository with
  | nil => exact Or.inl h
  | cons record records ih =>
    rcases ih h with hold | ⟨hstatus,hfresh⟩
    · rcases mem_appendOperation.mp hold with rfl | hold
      · exact Or.inr ⟨rfl,fun old ho => (lt_nextId repository.operationJournal ho).ne⟩
      · exact Or.inl hold
    · exact Or.inr ⟨hstatus,fun old ho => hfresh old (mem_appendOperation.mpr (Or.inr ho))⟩

end Repository

/-- Every row but those known before tells how its operation ended. -/
def JournalComplete (known : List Int) (s : Traced ρ μ) : Prop :=
  ∀ row ∈ s.world.repository.operationJournal.rows, row.id ∉ known → row.Tells (endings s.trace)

instance (known : List Int) (s : Traced ρ μ) : Decidable (JournalComplete known s) :=
  inferInstanceAs (Decidable (∀ row ∈ s.world.repository.operationJournal.rows, _))

/-- No operation of the run is open. -/
def NoneOpen (s : Traced ρ μ) : Prop :=
  ∀ row ∈ s.world.repository.operationJournal.rows, (endings s.trace).opened row.id = true →
    row.status ≠ .running

instance (s : Traced ρ μ) : Decidable (NoneOpen s) :=
  inferInstanceAs (Decidable (∀ row ∈ s.world.repository.operationJournal.rows, _))

/-- The journal with the operations `pending` that are not closed yet. -/
structure Books (known pending : List Int) (s : Traced ρ μ) : Prop where
  nodup : pending.Nodup
  knownRows : ∀ id ∈ known, ∃ row ∈ s.world.repository.operationJournal.rows, row.id = id
  openedRows : ∀ id, (endings s.trace).opened id = true →
    ∃ row ∈ s.world.repository.operationJournal.rows, row.id = id
  running : ∀ id ∈ pending, id ∉ known ∧ (endings s.trace).opened id = true ∧
    ∃ row ∈ s.world.repository.operationJournal.rows, row.id = id ∧ row.status = .running
  settled : ∀ row ∈ s.world.repository.operationJournal.rows, row.id ∉ known → row.id ∉ pending →
    row.Tells (endings s.trace)

namespace Books

variable {known pending : List Int} {s s' : Traced ρ μ}

theorem perm {pending' : List Int} (h : Books known pending s) (hp : pending.Perm pending') :
    Books known pending' s :=
  ⟨hp.nodup_iff.mp h.nodup,h.knownRows,h.openedRows,fun id hid => h.running id (hp.mem_iff.mpr hid),
    fun row hrow hk ho => h.settled row hrow hk fun hm => ho (hp.mem_iff.mp hm)⟩

/-- Books do not speak of anything but the journal and the endings. -/
theorem of_same (h : Books known pending s)
    (hjournal : s'.world.repository.operationJournal = s.world.repository.operationJournal)
    (hopened : (endings s'.trace).opened = (endings s.trace).opened)
    (hended : (endings s'.trace).ended = (endings s.trace).ended) :
    Books known pending s' := by
  refine ⟨h.nodup,?_,?_,?_,?_⟩
  · rw [hjournal]
    exact h.knownRows
  · rw [hjournal,hopened]
    exact h.openedRows
  · rw [hjournal,hopened]
    exact h.running
  · intro row hrow hk ho
    rw [hjournal] at hrow
    exact (h.settled row hrow hk ho).congr (congrFun hopened _) (congrFun hended _)

theorem pending_eq_nil (h : Books known pending s) (hnone : NoneOpen s) : pending = [] := by
  refine List.eq_nil_iff_forall_not_mem.mpr fun id hid => ?_
  obtain ⟨_,hopened,row,hrow,rfl,hstatus⟩ := h.running id hid
  exact hnone row hrow hopened hstatus

section Steps

variable {env : Environment ρ} {allowed : Traced ρ μ → (e : Effect μ) → e.Answer → Prop}

theorem endings_step {e : Effect μ} {answer : e.Answer}
    (hstep : env.TraceStep allowed s e answer s') :
    endings s'.trace = (endings s.trace).asked e answer := by
  rw [hstep.2.2,endings_append]
  rfl

theorem journal_eq {e : Effect μ} {answer : e.Answer}
    (hstep : env.TraceStep allowed s e answer s')
    (hcalls : ∀ call, e = .state call → call.writesJournal = false) :
    s'.world.repository.operationJournal = s.world.repository.operationJournal := by
  rcases hstep.2.1.repository_cases with hr | ⟨call,hcall,hleaves⟩
  · rw [hr]
  · exact hleaves.journal (hcalls call hcall)

theorem drift (h : Books known pending s) (hdrift : env.TraceDrift s s') :
    Books known pending s' := by
  have hendings := endings_drift hdrift
  exact h.of_same (congrArg _ hdrift.repository_eq) (by rw [hendings]) (by rw [hendings])

/-- A journal entry is opened. -/
theorem opens (h : Books known pending s) {record : OperationRecord} {id : Int}
    (hstep : env.TraceStep allowed s (.state (.appendOperationStarted record)) (.ok id) s') :
    Books known (id :: pending) s' := by
  have hendings : endings s'.trace = (endings s.trace).opens id := endings_step hstep
  have hrun := hstep.2.1.state_ok
  have hid : id = Repository.nextId s.world.repository.operationJournal :=
    (Prod.mk.inj (Except.ok.inj hrun)).1.symm
  have hrepository : s'.world.repository =
      (s.world.repository.appendOperation record .running).2 :=
    (Prod.mk.inj (Except.ok.inj hrun)).2.symm
  have hfresh : ∀ row ∈ s.world.repository.operationJournal.rows, row.id ≠ id := by
    intro row hrow
    rw [hid]
    exact (Repository.lt_nextId s.world.repository.operationJournal hrow).ne
  have hrows : ∀ row, row ∈ s'.world.repository.operationJournal.rows ↔
      row = { id, record, status := .running } ∨
        row ∈ s.world.repository.operationJournal.rows := by
    intro row
    rw [hrepository,Repository.mem_appendOperation,hid]
  have hnew : id ∉ pending := by
    intro hid'
    obtain ⟨_,_,row,hrow,hrid,_⟩ := h.running id hid'
    exact hfresh row hrow hrid
  refine ⟨List.nodup_cons.mpr ⟨hnew,h.nodup⟩,?_,?_,?_,?_⟩
  · intro k hk
    obtain ⟨row,hrow,hrk⟩ := h.knownRows k hk
    exact ⟨row,(hrows row).mpr (Or.inr hrow),hrk⟩
  · intro k hk
    rw [hendings] at hk
    rcases Bool.or_eq_true_iff.mp hk with hk | hk
    · exact ⟨_,(hrows _).mpr (Or.inl rfl),(eq_of_beq hk).symm⟩
    · obtain ⟨row,hrow,hrk⟩ := h.openedRows k hk
      exact ⟨row,(hrows row).mpr (Or.inr hrow),hrk⟩
  · intro k hk
    rw [hendings]
    rcases List.mem_cons.mp hk with rfl | hk
    · refine ⟨fun hknown => ?_,by simp [Endings.opens],_,(hrows _).mpr (Or.inl rfl),rfl,rfl⟩
      obtain ⟨row,hrow,hrk⟩ := h.knownRows k hknown
      exact hfresh row hrow hrk
    · obtain ⟨hnot,hopened,row,hrow,hrk,hstatus⟩ := h.running k hk
      exact ⟨hnot,by simp [Endings.opens,hopened],row,(hrows row).mpr (Or.inr hrow),hrk,hstatus⟩
  · intro row hrow hk hp
    rcases (hrows row).mp hrow with rfl | hrow
    · exact absurd (List.mem_cons_self ..) hp
    · have hne := hfresh row hrow
      rw [hendings]
      exact (h.settled row hrow hk fun hm => hp (List.mem_cons_of_mem _ hm)).congr
        (by simp [Endings.opens,hne]) (by simp [Endings.opens,hne])

/-- A journal entry is closed with what its operation came to. -/
theorem closes {id : Int} (h : Books known (id :: pending) s) {status : OperationStatus}
    {errorKind errorMessage : Option Str}
    (hstatus : ∃ ending ∈ ((endings s.trace).closes id).ended id, status = ending.status)
    {result : Unit}
    (hstep : env.TraceStep allowed s (.state (.finishOperation id status errorKind errorMessage))
      (.ok result) s') : Books known pending s' := by
  have hendings : endings s'.trace = (endings s.trace).closes id := endings_step hstep
  have hrows : ∀ {row}, row ∈ s'.world.repository.operationJournal.rows ↔
      ∃ old ∈ s.world.repository.operationJournal.rows,
        row = if old.id = id then { old with status, errorKind, errorMessage } else old :=
    Repository.mem_finishOperation (StateCall.unitResult_ok hstep.2.1.state_ok)
  -- closing keeps the ids
  have hids : ∀ k, (∃ row ∈ s.world.repository.operationJournal.rows, row.id = k) →
      ∃ row ∈ s'.world.repository.operationJournal.rows, row.id = k := by
    rintro k ⟨row,hrow,rfl⟩
    refine ⟨_,hrows.mpr ⟨row,hrow,rfl⟩,?_⟩
    split <;> rfl
  have hnodup := List.nodup_cons.mp h.nodup
  refine ⟨hnodup.2,fun k hk => hids k (h.knownRows k hk),fun k hk => ?_,fun k hk => ?_,?_⟩
  · rw [hendings] at hk
    exact hids k (h.openedRows k hk)
  · obtain ⟨hnot,hopened,row,hrow,rfl,hrunning⟩ := h.running k (List.mem_cons_of_mem _ hk)
    refine ⟨hnot,by rw [hendings]; exact hopened,row,hrows.mpr ⟨row,hrow,?_⟩,rfl,hrunning⟩
    exact (if_neg fun he : row.id = id => hnodup.1 (he ▸ hk)).symm
  · intro row hrow hk hp
    obtain ⟨old,hold,rfl⟩ := hrows.mp hrow
    rw [hendings]
    by_cases hid : old.id = id
    · have hopened := (h.running id List.mem_cons_self).2.1
      subst hid
      rw [if_pos rfl]
      exact (if_pos hopened).mpr hstatus
    · rw [if_neg hid] at hk hp ⊢
      refine (h.settled old hold hk fun hm => ?_).congr rfl (by simp [Endings.closes,hid])
      rcases List.mem_cons.mp hm with he | hm
      · exact hid he
      · exact hp hm

/-- What is entered as done needs no closing. -/
theorem enters (h : Books known pending s) {records : List OperationRecord} {result : Unit}
    (hstep : env.TraceStep allowed s (.state (.appendOperationsSucceeded records)) (.ok result) s') :
    Books known pending s' := by
  have hendings : endings s'.trace = (endings s.trace).rests := endings_step hstep
  have hrepository : s'.world.repository =
      s.world.repository.appendOperationsSucceeded records :=
    (Prod.mk.inj (Except.ok.inj hstep.2.1.state_ok)).2.symm
  have hkeep : ∀ row ∈ s.world.repository.operationJournal.rows,
      row ∈ s'.world.repository.operationJournal.rows := by
    intro row hrow
    rw [hrepository]
    exact Repository.mem_appendOperationsSucceeded_of_mem hrow
  refine ⟨h.nodup,fun k hk => ?_,fun k hk => ?_,fun k hk => ?_,fun row hrow hk hp => ?_⟩
  · obtain ⟨row,hrow,hrk⟩ := h.knownRows k hk
    exact ⟨row,hkeep row hrow,hrk⟩
  · rw [hendings] at hk
    obtain ⟨row,hrow,hrk⟩ := h.openedRows k hk
    exact ⟨row,hkeep row hrow,hrk⟩
  · obtain ⟨hnot,hopened,row,hrow,hrk⟩ := h.running k hk
    exact ⟨hnot,by rw [hendings]; exact hopened,row,hkeep row hrow,hrk⟩
  · rw [hrepository] at hrow
    rw [hendings]
    rcases Repository.mem_appendOperationsSucceeded hrow with hold | ⟨hstatus,hfresh⟩
    · exact (h.settled row hold hk hp).congr rfl rfl
    · refine (if_neg fun hopened => ?_).mpr hstatus
      obtain ⟨old,hold,hid⟩ := h.openedRows row.id hopened
      exact hfresh old hold hid

/-- An operation that is open comes to an end. -/
theorem settles {id : Int} {ending : Ending} (h : Books known pending s) (hid : id ∈ pending)
    (hjournal : s'.world.repository.operationJournal = s.world.repository.operationJournal)
    (hendings : endings s'.trace = (endings s.trace).settle id ending) :
    Books known pending s' := by
  refine ⟨h.nodup,?_,?_,?_,fun row hrow hk hp => ?_⟩
  · rw [hjournal]
    exact h.knownRows
  · rw [hjournal,hendings]
    exact h.openedRows
  · rw [hjournal,hendings]
    exact h.running
  · rw [hjournal] at hrow
    have hne : row.id ≠ id := fun he => hp (he ▸ hid)
    rw [hendings]
    exact (h.settled row hrow hk hp).congr rfl (if_neg hne)

/-- Steps that neither write the journal nor end an operation. -/
def isPlain : Effect μ → Bool
  | .state call => !call.writesJournal
  | .joinNext => false
  | _ => true

theorem asked_plain {ends : Endings} (hidle : ends.moment.Meets .idle) {e : Effect μ}
    (he : isPlain e = true) (answer : e.Answer) :
    (ends.asked e answer).opened = ends.opened ∧ (ends.asked e answer).ended = ends.ended ∧
      (ends.asked e answer).moment.Meets .idle := by
  cases e with
  | state call =>
    cases call with
    | appendOperationStarted _ | finishOperation _ _ _ _ => cases he
    | _ => exact ⟨rfl,rfl,hidle.rest⟩
  | client call =>
    cases hmoment : ends.moment with
    | calling id => exact absurd hmoment (hidle id)
    | _ =>
      cases call <;> cases answer <;> simp [Endings.asked,Moment.Meets,hmoment]
  | readMemory | updateMemory _ | isDir _ => exact ⟨rfl,rfl,hidle.rest⟩
  | pathExists path =>
    cases answer with
    | false => exact ⟨rfl,rfl,fun _ he => nomatch he⟩
    | true => exact ⟨rfl,rfl,hidle.rest⟩
  | isFile path => cases answer <;> exact ⟨rfl,rfl,fun _ he => nomatch he⟩
  | readFile path => cases answer <;> exact ⟨rfl,rfl,fun _ he => nomatch he⟩
  | joinNext => cases he
  | _ => exact ⟨rfl,rfl,fun _ he => nomatch he⟩

/-- Between two operations of one task: no call belongs to an operation. -/
theorem plain (h : Books known pending s) (hidle : (endings s.trace).moment.Meets .idle)
    {e : Effect μ} {answer : e.Answer} (he : isPlain e = true)
    (hstep : env.TraceStep allowed s e answer s') :
    Books known pending s' ∧ (endings s'.trace).ended = (endings s.trace).ended ∧
      (endings s'.trace).moment.Meets .idle := by
  have hends : (endings s'.trace).opened = (endings s.trace).opened ∧
      (endings s'.trace).ended = (endings s.trace).ended ∧
        (endings s'.trace).moment.Meets .idle := by
    rw [endings_step hstep]
    exact asked_plain hidle he answer
  refine ⟨h.of_same (journal_eq hstep fun call hcall => ?_) hends.1 hends.2.1,hends.2⟩
  rw [hcall] at he
  simpa [isPlain] using he

end Steps

theorem complete (h : Books known [] s) : JournalComplete known s :=
  fun row hrow hk => h.settled row hrow hk (by simp)

end Books

/-- Nothing is open, and the next call belongs to no operation. -/
structure Closed (known : List Int) (s : Traced ρ μ) : Prop where
  books : Books known [] s
  idle : (endings s.trace).moment.Meets .idle

namespace Closed

variable {env : Environment ρ} {known : List Int} {s s' : Traced ρ μ}
  {allowed : Traced ρ μ → (e : Effect μ) → e.Answer → Prop}

theorem stable : Stable env.TraceDrift (@Closed ρ μ known) := by
  intro s s' h hdrift
  exact ⟨h.books.drift hdrift,by rw [endings_drift hdrift]; exact h.idle⟩

theorem plain (h : Closed known s) {e : Effect μ} {answer : e.Answer}
    (he : Books.isPlain e = true) (hstep : env.TraceStep allowed s e answer s') :
    Closed known s' :=
  ⟨(h.books.plain h.idle he hstep).1,(h.books.plain h.idle he hstep).2.2⟩

/-- Rows entered as done are closed, and a failed call enters none. -/
theorem enters (h : Closed known s) {records : List OperationRecord}
    {answer : Except StateError Unit}
    (hstep : env.TraceStep allowed s (.state (.appendOperationsSucceeded records)) answer s') :
    Closed known s' := by
  have hendings : endings s'.trace = (endings s.trace).rests := Books.endings_step hstep
  refine ⟨?_,by rw [hendings]; exact h.idle.rest⟩
  cases answer with
  | ok result => exact h.books.enters hstep
  | error error =>
    exact h.books.of_same (congrArg _ hstep.2.1.state_error) (by rw [hendings]; rfl)
      (by rw [hendings]; rfl)

/-- The repair closes what earlier runs left open. -/
theorem repair (h : Closed known s) {answer : Except StateError Unit}
    (hstep : env.TraceStep allowed s (.state .repairInterruptedRuns) answer s') :
    Closed known s' := by
  have hendings : endings s'.trace = (endings s.trace).rests := Books.endings_step hstep
  refine ⟨?_,by rw [hendings]; exact h.idle.rest⟩
  cases answer with
  | error error =>
    exact h.books.of_same (congrArg _ hstep.2.1.state_error) (by rw [hendings]; rfl)
      (by rw [hendings]; rfl)
  | ok result =>
    have hrepository : s'.world.repository = s.world.repository.repairInterruptedRuns :=
      (Prod.mk.inj (Except.ok.inj hstep.2.1.state_ok)).2.symm
    have hrows : ∀ {row}, row ∈ s'.world.repository.operationJournal.rows → ∃ old ∈
        s.world.repository.operationJournal.rows, row.id = old.id ∧
          (old.status ≠ .running → row = old) := by
      intro row hrow
      rw [hrepository] at hrow
      obtain ⟨old,hold,rfl⟩ := List.mem_map.mp hrow
      refine ⟨old,hold,by split <;> rfl,fun hstatus => if_neg hstatus⟩
    have hids : ∀ k, (∃ row ∈ s.world.repository.operationJournal.rows, row.id = k) →
        ∃ row ∈ s'.world.repository.operationJournal.rows, row.id = k := by
      rintro k ⟨old,hold,rfl⟩
      rw [hrepository]
      exact ⟨_,List.mem_map_of_mem hold,by split <;> rfl⟩
    refine ⟨List.nodup_nil,fun k hk => hids k (h.books.knownRows k hk),fun k hk => ?_,
      fun _ hk => (nomatch hk),fun row hrow hk _ => ?_⟩
    · rw [hendings] at hk
      exact hids k (h.books.openedRows k hk)
    · obtain ⟨old,hold,hid,hsame⟩ := hrows hrow
      have htells := h.books.settled old hold (hid ▸ hk) List.not_mem_nil
      rw [hsame htells.ne_running,hendings]
      exact htells.congr rfl rfl

end Closed

/-- The journal entry a task works for. -/
def Task.operationId : Task → Int
  | .createDirectory _ operationId => operationId
  | .upload operationId _ _ _ => operationId

def taskIds (s : Traced ρ μ) : List Int := s.world.tasks.map fun running => running.task.operationId

/-- A run at work: its open operations are those of its tasks, those that wait for a task, and
one at hand, of which it may be known how it has ended. -/
structure Working (waiting : μ → List Int) (known : List Int) (kind : Task → Prop) (n : Nat)
    (hand : Option (Int × Option Ending)) (moment : Moment) (s : Traced ρ μ) : Prop where
  books : Books known
    (hand.toList.map Prod.fst ++ (taskIds s ++ waiting s.world.memory)) s
  verdict : ∀ id ending, hand = some (id,some ending) → ending ∈ (endings s.trace).ended id
  moment : (endings s.trace).moment.Meets moment
  crew : Crew kind n s

/-- A run is cut short while none of its operations is open, and it waits for tasks when every
open operation has a task or waits for one. No task finds it cancelled, as that would leave the
operation of the task open. -/
def EndsClosed (waiting : μ → List Int) (s : Traced ρ μ) : (e : Effect μ) → e.Answer → Prop
  | .state _, .error _ => NoneOpen s
  | .state (.markFailed record), .ok _ =>
    record.operation = "migration_quota_check".toList → NoneOpen s
  | .client (.download _), .error error => isStopError error.kind = true → NoneOpen s
  | .isCancelled, cancelled => cancelled = true → NoneOpen s
  | .dropTasks, _ => NoneOpen s
  | .joinNext, joined =>
    (∀ row ∈ s.world.repository.operationJournal.rows,
      (endings s.trace).opened row.id = true → row.status = .running →
        row.id ∈ taskIds s ++ waiting s.world.memory) ∧
      ∀ outcome, joined = some outcome → outcome.isCancelled = false
  | _, _ => True

namespace Working

variable {env : Environment ρ} {waiting : μ → List Int} {known : List Int} {kind : Task → Prop}
  {n : Nat} {hand : Option (Int × Option Ending)} {moment : Moment} {s s' : Traced ρ μ}
  {allowed : Traced ρ μ → (e : Effect μ) → e.Answer → Prop}

theorem taskIds_drift (h : env.TraceDrift s s') : taskIds s' = taskIds s := by
  cases h with
  | land ht _ => simp [taskIds,ht]
  | _ => rfl

theorem stable : Stable env.TraceDrift
    (Working (ρ := ρ) waiting known kind n hand moment) := by
  intro s s' h hdrift
  have hendings := endings_drift hdrift
  refine ⟨?_,?_,?_,stable_crew s s' h.crew hdrift⟩
  · rw [taskIds_drift hdrift,hdrift.memory_eq]
    exact h.books.drift hdrift
  · rw [hendings]
    exact h.verdict
  · rw [hendings]
    exact h.moment

theorem told (h : Working waiting known kind n hand moment s) {moment' : Moment}
    (hmoment : (endings s.trace).moment.Meets moment') :
    Working waiting known kind n hand moment' s :=
  ⟨h.books,h.verdict,hmoment,h.crew⟩

theorem idle (h : Working waiting known kind n hand moment s)
    (hcalls : ∀ id, moment ≠ .calling id) : Working waiting known kind n hand .idle s :=
  h.told (h.moment.idle hcalls)

/-- What changes neither the books nor the tasks nor what waits. -/
theorem of_books (h : Working waiting known kind n hand moment s) {moment' : Moment}
    (hbooks : ∀ pending, Books known pending s → Books known pending s')
    (hended : (endings s'.trace).ended = (endings s.trace).ended)
    (hmoment : (endings s'.trace).moment.Meets moment')
    (htasks : s'.world.tasks = s.world.tasks)
    (hwaiting : waiting s'.world.memory = waiting s.world.memory) :
    Working waiting known kind n hand moment' s' := by
  have hids : taskIds s' = taskIds s := by
    unfold taskIds
    rw [htasks]
  refine ⟨?_,?_,hmoment,h.crew.of_tasks htasks⟩
  · rw [hids,hwaiting]
    exact hbooks _ h.books
  · rw [hended]
    exact h.verdict

theorem plain (h : Working waiting known kind n hand .idle s) {e : Effect μ} {answer : e.Answer}
    (he : Books.isPlain e = true) (htasks : e.onTasks = false)
    (hmemory : ∀ f, e = .updateMemory f → ∀ memory, waiting (f memory) = waiting memory)
    (hstep : env.TraceStep allowed s e answer s') :
    Working waiting known kind n hand .idle s' := by
  refine h.of_books (fun pending hb => (hb.plain h.moment he hstep).1)
    (h.books.plain h.moment he hstep).2.1 (h.books.plain h.moment he hstep).2.2
    (hstep.2.1.tasks_eq htasks) ?_
  by_cases hf : ∃ f, e = .updateMemory f
  · obtain ⟨f,rfl⟩ := hf
    rw [hstep.2.1.memory_update,hmemory f rfl]
  · rw [hstep.2.1.memory_eq fun f he => hf ⟨f,he⟩]

/-- The moment after a look at a path. -/
def looked (gone : Bool) : Moment := if gone then .missing else .idle

/-- A path that is not there is remembered while others are looked at. -/
theorem looks {gone there : Bool} (h : Working waiting known kind n hand (looked gone) s)
    {path : LocalPath} (hstep : env.TraceStep allowed s (.pathExists path) there s') :
    Working waiting known kind n hand (looked (gone || !there)) s' := by
  have hsame : ∀ moment, (endings s'.trace).opened = (endings s.trace).opened →
      (endings s'.trace).ended = (endings s.trace).ended →
        (endings s'.trace).moment.Meets moment →
          Working waiting known kind n hand moment s' := fun moment hopened hended hmoment =>
    h.of_books (fun pending hb => hb.of_same
      (by rw [hstep.2.1.repository_eq fun _ he => nomatch he]) hopened hended) hended hmoment
      (hstep.2.1.tasks_eq rfl) (by rw [hstep.2.1.memory_eq fun _ he => nomatch he])
  have hendings := Books.endings_step hstep
  cases there with
  | false =>
    refine hsame _ (by rw [hendings]; rfl) (by rw [hendings]; rfl) ?_
    rw [hendings]
    simp [looked,Endings.asked,Moment.Meets]
  | true =>
    refine hsame _ (by rw [hendings]; rfl) (by rw [hendings]; rfl) ?_
    rw [hendings]
    have hrest : (looked gone).rest = looked (gone || !true) := by cases gone <;> rfl
    exact hrest ▸ h.moment.rest

/-- A failed call leaves the books as they are. -/
theorem error_closed {waits : μ → List Int} {call : StateCall} {error : StateError}
    (h : Working waiting known kind n hand moment s)
    (hstep : env.TraceStep (EndsClosed waits) s (.state call) (.error error) s') :
    Closed known s' := by
  have hnone : NoneOpen s := by
    have hallowed := hstep.1
    cases call <;> exact hallowed
  have hpending := h.books.pending_eq_nil hnone
  have hbooks : Books known [] s := hpending ▸ h.books
  have hendings : endings s'.trace = (endings s.trace).rests := by
    rw [Books.endings_step hstep]
    cases call <;> rfl
  refine ⟨hbooks.of_same (congrArg _ hstep.2.1.state_error) (by rw [hendings]; rfl)
    (by rw [hendings]; rfl),?_⟩
  rw [hendings]
  intro id
  simp only [Endings.rests]
  cases (endings s.trace).moment <;> simp [Moment.rest]

/-- Rows are entered, or the call fails and none is. -/
theorem enters (h : Working waiting known kind n hand moment s) {records : List OperationRecord}
    {answer : Except StateError Unit}
    (hstep : env.TraceStep allowed s (.state (.appendOperationsSucceeded records)) answer s') :
    Working waiting known kind n hand moment.rest s' := by
  have hendings : endings s'.trace = (endings s.trace).rests := Books.endings_step hstep
  refine h.of_books (fun pending hb => ?_) (by rw [hendings]; rfl)
    (by rw [hendings]; exact h.moment.rest) (hstep.2.1.tasks_eq rfl)
    (by rw [hstep.2.1.memory_eq fun f he => nomatch he])
  cases answer with
  | ok result => exact hb.enters hstep
  | error error =>
    exact hb.of_same (congrArg _ hstep.2.1.state_error) (by rw [hendings]; rfl)
      (by rw [hendings]; rfl)

/-- Steps that ask nobody but the database and the run itself. -/
def isRest : Effect μ → Bool
  | .state (.appendOperationsSucceeded _) => true
  | .state call => !call.writesJournal
  | .readMemory | .updateMemory _ | .isDir _ => true
  | _ => false

/-- What the run has been told stays. -/
theorem rests (h : Working waiting known kind n hand moment s) {e : Effect μ} {answer : e.Answer}
    (he : isRest e = true)
    (hmemory : ∀ f, e = .updateMemory f → ∀ memory, waiting (f memory) = waiting memory)
    (hstep : env.TraceStep allowed s e answer s') :
    Working waiting known kind n hand moment.rest s' := by
  by_cases henters : ∃ records, e = .state (.appendOperationsSucceeded records)
  · obtain ⟨records,rfl⟩ := henters
    exact h.enters hstep
  have hendings : endings s'.trace = (endings s.trace).rests := by
    rw [Books.endings_step hstep]
    cases e with
    | state call =>
      cases call with
      | appendOperationStarted _ | finishOperation _ _ _ _ => cases he
      | _ => rfl
    | readMemory | updateMemory _ | isDir _ => rfl
    | _ => cases he
  have hjournal : s'.world.repository.operationJournal = s.world.repository.operationJournal := by
    refine Books.journal_eq hstep fun call hcall => ?_
    subst hcall
    cases call with
    | appendOperationsSucceeded records => exact absurd ⟨records,rfl⟩ henters
    | _ => first | rfl | cases he
  refine h.of_books (fun pending hb => hb.of_same hjournal (by rw [hendings]; rfl)
    (by rw [hendings]; rfl)) (by rw [hendings]; rfl) (by rw [hendings]; exact h.moment.rest)
    (hstep.2.1.tasks_eq (by cases e <;> first | rfl | cases he)) ?_
  by_cases hf : ∃ f, e = .updateMemory f
  · obtain ⟨f,rfl⟩ := hf
    rw [hstep.2.1.memory_update,hmemory f rfl]
  · rw [hstep.2.1.memory_eq fun f he => hf ⟨f,he⟩]

/-- Steps that leave the open operations alone. -/
def isSteady (e : Effect μ) : Bool :=
  !e.onTasks && (Books.isPlain e || match e with
    | .state (.appendOperationsSucceeded _) => true
    | _ => false)

theorem isSteady_cases {e : Effect μ} (he : isSteady e = true) :
    Books.isPlain e = true ∨ ∃ records, e = .state (.appendOperationsSucceeded records) := by
  rcases Bool.or_eq_true_iff.mp (Bool.and_eq_true_iff.mp he).2 with hplain | henters
  · exact Or.inl hplain
  · split at henters
    · exact Or.inr ⟨_,rfl⟩
    · cases henters

theorem steady (h : Working waiting known kind n hand .idle s) {e : Effect μ} {answer : e.Answer}
    (he : isSteady e = true)
    (hmemory : ∀ f, e = .updateMemory f → ∀ memory, waiting (f memory) = waiting memory)
    (hstep : env.TraceStep allowed s e answer s') :
    Working waiting known kind n hand .idle s' := by
  have htasks : e.onTasks = false := by simpa using (Bool.and_eq_true_iff.mp he).1
  rcases isSteady_cases he with hplain | ⟨records,rfl⟩
  · exact h.plain hplain htasks hmemory hstep
  · exact h.enters hstep

theorem opens (h : Working waiting known kind n none moment s) {record : OperationRecord}
    {id : Int}
    (hstep : env.TraceStep allowed s (.state (.appendOperationStarted record)) (.ok id) s') :
    Working waiting known kind n (some (id,moment.blame)) (.calling id) s' := by
  have hendings : endings s'.trace = (endings s.trace).opens id := Books.endings_step hstep
  have hids : taskIds s' = taskIds s := by
    unfold taskIds
    rw [hstep.2.1.tasks_eq rfl]
  have hmemory : s'.world.memory = s.world.memory :=
    hstep.2.1.memory_eq fun f he => nomatch he
  refine ⟨?_,fun k ending hk => ?_,by rw [hendings]; rfl,h.crew.of_step rfl hstep⟩
  · rw [hids,hmemory]
    exact h.books.opens hstep
  · obtain ⟨rfl,hblame⟩ := Prod.mk.inj (Option.some.inj hk)
    rw [hendings]
    simp [Endings.opens,h.moment.blame hblame]

theorem closes_of {id : Int} {verdict : Option Ending}
    (h : Working waiting known kind n (some (id,verdict)) moment s) {status : OperationStatus}
    {errorKind errorMessage : Option Str}
    (hstatus : ∃ ending ∈ ((endings s.trace).closes id).ended id, status = ending.status)
    {result : Unit}
    (hstep : env.TraceStep allowed s (.state (.finishOperation id status errorKind errorMessage))
      (.ok result) s') : Working waiting known kind n none .idle s' := by
  have hids : taskIds s' = taskIds s := by
    unfold taskIds
    rw [hstep.2.1.tasks_eq rfl]
  have hmemory : s'.world.memory = s.world.memory :=
    hstep.2.1.memory_eq fun f he => nomatch he
  have hendings : endings s'.trace = (endings s.trace).closes id := Books.endings_step hstep
  refine ⟨?_,fun _ _ he => (nomatch he),?_,h.crew.of_step rfl hstep⟩
  · rw [hids,hmemory]
    exact h.books.closes hstatus hstep
  · rw [hendings]
    exact fun _ he => nomatch he

theorem closes {id : Int} {ending : Ending}
    (h : Working waiting known kind n (some (id,some ending)) moment s)
    {errorKind errorMessage : Option Str} {result : Unit}
    (hstep : env.TraceStep allowed s
      (.state (.finishOperation id ending.status errorKind errorMessage)) (.ok result) s') :
    Working waiting known kind n none .idle s' := by
  refine h.closes_of ⟨ending,?_,rfl⟩ hstep
  have hended := h.verdict id ending rfl
  simp only [Endings.closes]
  split
  · exact List.mem_cons_of_mem _ hended
  · exact hended

/-- An operation is given up when its path is missing. -/
theorem givesUp {id : Int} {verdict : Option Ending}
    (h : Working waiting known kind n (some (id,verdict)) .missing s)
    {errorKind errorMessage : Option Str} {result : Unit}
    (hstep : env.TraceStep allowed s
      (.state (.finishOperation id .cancelled errorKind errorMessage)) (.ok result) s') :
    Working waiting known kind n none .idle s' := by
  refine h.closes_of ⟨.givenUp,?_,rfl⟩ hstep
  have hmissing : (endings s.trace).moment = .missing := h.moment
  simp [Endings.closes,hmissing]

/-- The operation at hand ends. -/
theorem settles {id : Int} {verdict : Option Ending} {ending : Ending}
    (h : Working waiting known kind n (some (id,verdict)) moment s)
    (hendings : endings s'.trace = (endings s.trace).settle id ending)
    (hrepository : s'.world.repository = s.world.repository)
    (hmemory : s'.world.memory = s.world.memory) (htasks : s'.world.tasks = s.world.tasks) :
    Working waiting known kind n (some (id,some ending)) .idle s' := by
  have hids : taskIds s' = taskIds s := by
    unfold taskIds
    rw [htasks]
  refine ⟨?_,?_,?_,h.crew.of_tasks htasks⟩
  · rw [hids,hmemory]
    exact h.books.settles (by simp) (by rw [hrepository]) hendings
  · rintro _ _ ⟨⟩
    rw [hendings]
    simp [Endings.settle]
  · rw [hendings]
    exact fun _ he => nomatch he

/-- The call an operation was opened for. -/
theorem ends {id : Int} (h : Working waiting known kind n (some (id,none)) (.calling id) s)
    {call : ClientCall} {answer : Except YandexDiskError call.Result}
    (hcheck : ∀ path, call = .metadata path → answer.isOk = false)
    (hstep : env.TraceStep allowed s (.client call) answer s') :
    Working waiting known kind n (some (id,some (Ending.ofCall call answer))) .idle s' := by
  refine h.settles ?_ (hstep.2.1.repository_eq fun _ he => nomatch he)
    (hstep.2.1.memory_eq fun f he => nomatch he) (hstep.2.1.tasks_eq rfl)
  have hcalling : (endings s.trace).moment = .calling id := h.moment
  rw [Books.endings_step hstep]
  cases call with
  | metadata path =>
    cases answer with
    | ok _ => cases hcheck path rfl
    | error error => simp only [Endings.asked,hcalling]
  | _ => simp only [Endings.asked,hcalling]

/-- The check before a delete leaves its operation open. -/
theorem checks (h : Working waiting known kind n hand moment s) {path : Str}
    {metadata : ResourceMetadata}
    (hstep : env.TraceStep allowed s (.client (.metadata path)) (.ok metadata) s') :
    Working waiting known kind n hand moment s' := by
  have hendings : endings s'.trace = endings s.trace := Books.endings_step hstep
  refine h.of_books (fun pending hb => hb.of_same ?_ (by rw [hendings]) (by rw [hendings]))
    (by rw [hendings]) (by rw [hendings]; exact h.moment) (hstep.2.1.tasks_eq rfl)
    (by rw [hstep.2.1.memory_eq fun f he => nomatch he])
  rw [hstep.2.1.repository_eq fun _ he => nomatch he]

theorem spawns {task : Task} (htask : kind task) {verdict : Option Ending}
    (h : Working waiting known kind n (some (task.operationId,verdict)) moment s) {answer : Unit}
    (hstep : env.TraceStep allowed s (.spawn task) answer s') :
    Working waiting known kind (n+1) none .idle s' := by
  have hendings : endings s'.trace = { endings s.trace with moment := .idle } :=
    Books.endings_step hstep
  have hworld : s'.world = { s.world with tasks := s.world.tasks ++ [{ task }] } := hstep.2.1
  have hbooks : Books known _ s' :=
    h.books.of_same (by rw [hworld]) (by rw [hendings]) (by rw [hendings])
  refine ⟨hbooks.perm ?_,fun _ _ he => (nomatch he),?_,h.crew.spawn htask hstep⟩
  · have hids : taskIds s' = taskIds s ++ [task.operationId] := by
      simp [taskIds,hworld]
    rw [hids,hworld]
    simp only [Option.toList_some,Option.toList_none,List.map_cons,List.map_nil,List.nil_append,
      List.append_assoc,List.cons_append]
    exact List.perm_middle.symm
  · rw [hendings]
    exact fun _ he => nomatch he

/-- A task that is joined puts its operation at hand. -/
theorem joins (h : Working waiting known kind (n+1) none moment s)
    {joined : Option TaskOutcome} (hstep : env.TraceStep allowed s .joinNext joined s') :
    match joined with
    | none => Working waiting known kind 0 none .idle s'
    | some outcome => ∃ task, kind task ∧ task.Yields outcome ∧ match outcome with
      | .created _ id result => id = task.operationId ∧
        Working waiting known kind n (some (id,some (.ofSuccess result.isOk))) .idle s'
      | .uploaded uploaded => uploaded.operationId = task.operationId ∧
        Working waiting known kind n
          (some (uploaded.operationId,some (.ofUpload uploaded.result))) .idle s' := by
  have hmemory : s'.world.memory = s.world.memory :=
    hstep.2.1.memory_eq fun f he => nomatch he
  have hrepository : s'.world.repository = s.world.repository :=
    hstep.2.1.repository_eq fun _ he => nomatch he
  have hends := Books.endings_step hstep
  -- the operation of the joined task ends, the others stay as they are
  have hone : ∀ (before : List RunningTask) (running : RunningTask) (after : List RunningTask)
      (ending : Ending), s.world.tasks = before ++ running :: after →
      s'.world.tasks = before ++ after → Crew kind n s' →
      endings s'.trace = (endings s.trace).settle running.task.operationId ending →
        Working waiting known kind n (some (running.task.operationId,some ending)) .idle s' := by
    intro before running after ending ht ht' hcrew hendings
    have hmem : running.task.operationId ∈ taskIds s := by
      simp [taskIds,ht]
    have hbooks := h.books.settles (by simp [hmem]) (by rw [hrepository]) hendings
    refine ⟨hbooks.perm ?_,?_,?_,hcrew⟩
    · rw [hmemory]
      simp only [taskIds,ht,ht',Option.toList_none,List.map_nil,List.nil_append,
        Option.toList_some,List.map_cons,List.map_append,List.append_assoc,List.cons_append]
      exact List.perm_middle
    · rintro _ _ ⟨⟩
      rw [hendings]
      simp [Endings.settle]
    · rw [hendings]
      exact fun _ he => nomatch he
  have hjoined := h.crew.join hstep
  rcases hstep.2.1 with ⟨rfl,ht,hw⟩ | ⟨before,task,outcome,after,rfl,ht,hw⟩
  · have hendings : endings s'.trace = { endings s.trace with moment := .idle } := hends
    have hbooks : Books known _ s' :=
      h.books.of_same (by rw [hw]) (by rw [hendings]) (by rw [hendings])
    refine ⟨?_,fun _ _ he => (nomatch he),?_,crew_nil (by rw [hw]; exact ht)⟩
    · rw [show taskIds s' = taskIds s by simp [taskIds,hw],hmemory]
      exact hbooks
    · rw [hendings]
      exact fun _ he => nomatch he
  · have hkind : kind task := h.crew.kind { task, outcome := some outcome } (by simp [ht])
    have hyields : task.Yields outcome :=
      h.crew.yields { task, outcome := some outcome } (by simp [ht]) outcome rfl
    have hcrew : Crew kind n s' := by
      cases hjoined with
      | some _ _ _ _ hcrew _ _ => exact hcrew
    refine ⟨task,hkind,hyields,?_⟩
    cases task with
    | createDirectory directory operationId =>
      obtain ⟨result,rfl⟩ := hyields
      exact ⟨rfl,hone before _ after _ ht (by rw [hw]) hcrew hends⟩
    | upload operationId file isUpdate cancelledText =>
      obtain ⟨result,rfl⟩ := hyields
      exact ⟨rfl,hone before _ after _ ht (by rw [hw]) hcrew hends⟩

theorem mono {n' : Nat} (h : Working waiting known kind n hand moment s) (hle : n ≤ n') :
    Working waiting known kind n' hand moment s :=
  ⟨h.books,h.verdict,h.moment,h.crew.mono hle⟩

/-- The order of what waits does not matter. -/
theorem perm {waits : μ → List Int} (h : Working waiting known kind n hand moment s)
    (hp : (waiting s.world.memory).Perm (waits s.world.memory)) :
    Working waits known kind n hand moment s :=
  ⟨h.books.perm ((hp.append_left _).append_left _),h.verdict,h.moment,h.crew⟩

/-- An operation that waits is put at hand. -/
theorem takes {waits : μ → List Int} {id : Int} (h : Working waiting known kind n none moment s)
    (hw : waiting s.world.memory = id :: waits s.world.memory) :
    Working waits known kind n (some (id,none)) moment s := by
  refine ⟨h.books.perm ?_,fun _ _ he => ?_,h.moment,h.crew⟩
  · rw [hw]
    simp
  · cases he

/-- A change of the variables under which the same operations wait. -/
theorem update {waits : μ → List Int} (h : Working waiting known kind n hand moment s) {f : μ → μ}
    (hf : (waiting s.world.memory).Perm (waits (f s.world.memory))) {answer : Unit}
    (hstep : env.TraceStep allowed s (.updateMemory f) answer s') :
    Working waits known kind n hand moment.rest s' := by
  have hendings : endings s'.trace = (endings s.trace).rests := Books.endings_step hstep
  have hmemory : s'.world.memory = f s.world.memory := hstep.2.1.memory_update
  have hbooks : Books known _ s' := h.books.of_same
    (by rw [hstep.2.1.repository_eq fun _ he => nomatch he]) (by rw [hendings]; rfl)
    (by rw [hendings]; rfl)
  have htasks : s'.world.tasks = s.world.tasks := hstep.2.1.tasks_eq rfl
  refine ⟨?_,?_,by rw [hendings]; exact h.moment.rest,h.crew.of_tasks htasks⟩
  · rw [show taskIds s' = taskIds s by simp [taskIds,htasks],hmemory]
    exact hbooks.perm ((hf.append_left _).append_left _)
  · rw [hendings]
    exact h.verdict

/-- The operation at hand is put to those that wait. -/
theorem queues {id : Int} {verdict : Option Ending}
    (h : Working waiting known kind n (some (id,verdict)) moment s)
    {f : μ → μ} (hf : waiting (f s.world.memory) = waiting s.world.memory ++ [id]) {answer : Unit}
    (hstep : env.TraceStep allowed s (.updateMemory f) answer s') :
    Working waiting known kind n none moment.rest s' := by
  have hendings : endings s'.trace = (endings s.trace).rests := Books.endings_step hstep
  have hmemory : s'.world.memory = f s.world.memory := hstep.2.1.memory_update
  have hbooks : Books known _ s' := h.books.of_same
    (by rw [hstep.2.1.repository_eq fun _ he => nomatch he]) (by rw [hendings]; rfl)
    (by rw [hendings]; rfl)
  have htasks : s'.world.tasks = s.world.tasks := hstep.2.1.tasks_eq rfl
  refine ⟨hbooks.perm ?_,fun _ _ he => (nomatch he),by rw [hendings]; exact h.moment.rest,
    h.crew.of_tasks htasks⟩
  rw [show taskIds s' = taskIds s by simp [taskIds,htasks],hmemory,hf]
  have hlast := List.perm_append_singleton id (taskIds s ++ waiting s.world.memory)
  rw [List.append_assoc] at hlast
  exact hlast.symm

/-- Tasks are dropped when nothing is open, so there is none. -/
theorem drops (h : Working waiting known kind n none moment s) {answer : Unit}
    (hstep : env.TraceStep (EndsClosed waiting) s .dropTasks answer s') :
    Working waiting known kind 0 none .idle s' := by
  have hpending := h.books.pending_eq_nil hstep.1
  have hendings : endings s'.trace = { endings s.trace with moment := .idle } :=
    Books.endings_step hstep
  have hworld : s'.world = { s.world with tasks := [] } := hstep.2.1
  simp only [Option.toList_none,List.map_nil,List.nil_append,List.append_eq_nil_iff] at hpending
  have hbooks : Books known _ s' :=
    h.books.of_same (by rw [hworld]) (by rw [hendings]) (by rw [hendings])
  have htasks : s'.world.tasks = [] := by rw [hworld]
  refine ⟨?_,fun _ _ he => (nomatch he),?_,crew_drop hstep⟩
  · rw [hpending.1,hpending.2] at hbooks
    rw [show taskIds s' = [] by simp [taskIds,htasks],hworld]
    simpa [hpending.2] using hbooks
  · rw [hendings]
    exact fun _ he => nomatch he

theorem of_kind {kind' : Task → Prop} (h : Working waiting known kind 0 hand moment s) :
    Working waiting known kind' 0 hand moment s :=
  ⟨h.books,h.verdict,h.moment,crew_nil h.crew.tasks_nil⟩

/-- With no task, nothing waiting and nothing at hand the books are closed. -/
theorem closed (h : Working waiting known kind 0 none .idle s)
    (hwaiting : waiting s.world.memory = []) : Closed known s := by
  have hbooks := h.books
  rw [hwaiting,show taskIds s = [] by simp [taskIds,h.crew.tasks_nil]] at hbooks
  exact ⟨hbooks,h.moment⟩

end Working

theorem Closed.steady {env : Environment ρ} {known : List Int} {s s' : Traced ρ μ}
    {allowed : Traced ρ μ → (e : Effect μ) → e.Answer → Prop} (h : Closed known s) {e : Effect μ}
    {answer : e.Answer} (he : Working.isSteady e = true)
    (hstep : env.TraceStep allowed s e answer s') : Closed known s' := by
  rcases Working.isSteady_cases he with hplain | ⟨records,rfl⟩
  · exact h.plain hplain hstep
  · exact h.enters hstep

end YaDiskSync
