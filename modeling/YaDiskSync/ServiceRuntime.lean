import YaDiskSync.SyncEngine
import Mathlib.Logic.Function.Basic

/-! The service runtime. Its state is behind one mutex: a request, a cancellation and the end
of a run each hold it for their whole body, and come in any order. -/
namespace YaDiskSync

/-- An instant in UTC, in nanoseconds. A timestamp that the source formats for display is kept
as the instant. -/
abbrev OffsetDateTime := Int

/-- `Duration::whole_seconds` rounds towards zero. -/
def wholeSeconds (duration : Int) : Int := duration.tdiv 1000000000

def SyncRunTrigger.asStr : SyncRunTrigger → Str
  | .scheduled => "scheduled".toList
  | .manual => "manual".toList
  | .cli => "cli".toList
  | .migration => "migration".toList

def SyncRunStatus.asStr : SyncRunStatus → Str
  | .running => "running".toList
  | .succeeded => "succeeded".toList
  | .partialFailed => "partial_failed".toList
  | .failed => "failed".toList
  | .cancelled => "cancelled".toList

inductive RuntimeStatus
  | idle | running | cancelling | failed | degraded
  deriving DecidableEq, Repr

/-- `matches!(status, Running | Cancelling)`. -/
def RuntimeStatus.isBusy : RuntimeStatus → Bool
  | .running | .cancelling => true
  | .idle | .failed | .degraded => false

structure CurrentRunSnapshot where
  trigger : Str
  startedAtUtc : OffsetDateTime
  deriving DecidableEq

structure RunSnapshot where
  id : Int
  startedAtUtc : OffsetDateTime
  finishedAtUtc : Option OffsetDateTime
  trigger : Str
  status : Str
  summary : SyncRunSummary
  deriving DecidableEq

structure RuntimeMetrics where
  scannedFiles : Int := 0
  uploadedFiles : Int := 0
  updatedFiles : Int := 0
  deletedFiles : Int := 0
  skippedFiles : Int := 0
  failedFiles : Int := 0
  bytesUploaded : Int := 0
  lastDurationSeconds : Int := 0
  averageUploadSpeedBytesPerSecond : Int := 0
  deriving DecidableEq

def metricsFromReport (report : SyncRunReport) (started finished : OffsetDateTime) :
    RuntimeMetrics :=
  let duration := max (wholeSeconds (finished-started)) 0
  { scannedFiles := report.summary.scannedFiles
    uploadedFiles := report.summary.uploadedFiles
    updatedFiles := report.summary.updatedFiles
    deletedFiles := report.summary.deletedFiles
    skippedFiles := report.summary.skippedFiles
    failedFiles := report.summary.failedFiles
    bytesUploaded := report.summary.bytesUploaded
    lastDurationSeconds := duration
    averageUploadSpeedBytesPerSecond :=
      if duration > 0 then report.summary.bytesUploaded.tdiv duration else 0 }

/-- The clones of a `CancellationToken` share one flag; the token is the flag's address. -/
abbrev CancellationToken := Nat

/-- `scheduled_skips` is an `i64`; fewer than 2^63 requests keep it in range. -/
structure RuntimeState where
  status : RuntimeStatus := .idle
  currentRun : Option CurrentRunSnapshot := none
  latestRun : Option RunSnapshot := none
  latestError : Option Str := none
  metrics : RuntimeMetrics := {}
  cancellation : Option CancellationToken := none
  scheduledSkips : Int := 0
  deriving DecidableEq

structure RuntimeCommandResponse where
  accepted : Bool
  status : RuntimeStatus
  message : Str
  deriving DecidableEq

/-- The block that `request_run` spawns, until it has called `finish_run`. `started` is the time
it reads when it is first polled. -/
structure SpawnedRun where
  trigger : SyncRunTrigger
  cancellation : CancellationToken
  started : Option OffsetDateTime := none
  deriving DecidableEq

/-- The state behind the mutex, the flags of the tokens made so far and the spawned blocks. -/
structure ServiceRuntime where
  state : RuntimeState := {}
  tokens : Nat := 0
  isCancelled : CancellationToken → Bool := fun _ => false
  spawned : List SpawnedRun := []

namespace ServiceRuntime

/-- `latest_run` is what the state database holds when the service starts. -/
def new (latestRun : Option RunSnapshot) : ServiceRuntime := { state := { latestRun } }

def requestRun (runtime : ServiceRuntime) (trigger : SyncRunTrigger) (now : OffsetDateTime) :
    RuntimeCommandResponse × ServiceRuntime :=
  let cancellation := runtime.tokens
  let runtime := { runtime with tokens := runtime.tokens+1 }
  let state := runtime.state
  if state.status.isBusy then
    let scheduledSkips :=
      if trigger = .scheduled then state.scheduledSkips+1 else state.scheduledSkips
    (⟨false,state.status,"already_running".toList⟩,
      { runtime with state := { state with scheduledSkips } })
  else
    (⟨true,.running,"started".toList⟩,
      { runtime with
        state := { state with
          status := .running, currentRun := some ⟨trigger.asStr,now⟩, latestError := none,
          cancellation := some cancellation }
        spawned := runtime.spawned ++ [{ trigger, cancellation }] })

def requestCancel (runtime : ServiceRuntime) : RuntimeCommandResponse × ServiceRuntime :=
  let state := runtime.state
  match state.cancellation with
  | none => (⟨false,state.status,"not_running".toList⟩,runtime)
  | some cancellation =>
    (⟨true,.cancelling,"cancelling".toList⟩,
      { runtime with
        isCancelled := Function.update runtime.isCancelled cancellation true
        state := { state with status := .cancelling } })

/-- What `snapshot` does to the state; its answer is a copy of the state. -/
def snapshot (runtime : ServiceRuntime) (latestFromState : Option RunSnapshot) : ServiceRuntime :=
  if latestFromState.isSome then
    { runtime with state := { runtime.state with latestRun := latestFromState } }
  else runtime

/-- The status of the runtime after a run that has given a report. -/
def statusAfter : SyncRunStatus → RuntimeStatus
  | .succeeded | .cancelled => .idle
  | .partialFailed => .degraded
  | .failed => .failed
  | .running => .running

/-- An error is told by its text. -/
def finishRun (runtime : ServiceRuntime) (trigger : SyncRunTrigger)
    (started finished : OffsetDateTime) (result : Except Str SyncRunReport) : ServiceRuntime :=
  let state := { runtime.state with currentRun := none, cancellation := none }
  match result with
  | .ok report =>
    { runtime with state := { state with
      metrics := metricsFromReport report started finished
      latestRun := some {
        id := report.runId, startedAtUtc := started, finishedAtUtc := some finished,
        trigger := trigger.asStr, status := report.status.asStr, summary := report.summary }
      latestError := report.summary.errorSummary
      status := statusAfter report.status } }
  | .error error =>
    { runtime with state := { state with latestError := some error, status := .failed } }

end ServiceRuntime

/-- What can happen next. A spawned block is first polled, and later its task has a result and
it finishes the run; it is named by the token it was given. -/
inductive RuntimeEvent
  | requestRun (trigger : SyncRunTrigger) (now : OffsetDateTime)
  | requestCancel
  | snapshot (latestFromState : Option RunSnapshot)
  | polled (run : CancellationToken) (started : OffsetDateTime)
  | finishRun (run : CancellationToken) (finished : OffsetDateTime)
      (result : Except Str SyncRunReport)

/-- What the outside sees of a step: the answers to the requests, and the runs that end. -/
inductive RuntimeRecord
  | runAccepted (trigger : SyncRunTrigger) (run : CancellationToken)
  | runRejected (trigger : SyncRunTrigger)
  | cancelAccepted
  | cancelRejected
  | runFinished (run : CancellationToken)
  | unseen
  deriving DecidableEq

namespace ServiceRuntime

/-- One step, if it is possible. -/
def step (runtime : ServiceRuntime) : RuntimeEvent → Option (RuntimeRecord × ServiceRuntime)
  | .requestRun trigger now =>
    let (response,runtime') := runtime.requestRun trigger now
    some (if response.accepted then .runAccepted trigger runtime.tokens else .runRejected trigger,
      runtime')
  | .requestCancel =>
    let (response,runtime') := runtime.requestCancel
    some (if response.accepted then .cancelAccepted else .cancelRejected,runtime')
  | .snapshot latestFromState => some (.unseen,runtime.snapshot latestFromState)
  | .polled run started =>
    some (.unseen,{ runtime with spawned := runtime.spawned.map fun block =>
      if block.cancellation = run ∧ block.started = none then { block with started := some started }
      else block })
  | .finishRun run finished result =>
    match runtime.spawned.find? fun block => block.cancellation = run && block.started.isSome with
    | some ⟨trigger,_,some started⟩ =>
      some (.runFinished run,
        { runtime.finishRun trigger started finished result with
          spawned := runtime.spawned.filter (·.cancellation ≠ run) })
    | _ => none

end ServiceRuntime

/-- A task reports a result whose status is not `Running`. -/
def RuntimeEvent.Reports : RuntimeEvent → Prop
  | .finishRun _ _ (.ok report) => report.status ≠ .running
  | _ => True

/-- The runtimes that an interleaving of steps leads to, with the records of the steps. -/
inductive ServiceRuntime.Reached : List RuntimeRecord → ServiceRuntime → Prop
  | new (latestRun : Option RunSnapshot) : Reached [] (ServiceRuntime.new latestRun)
  | step {records : List RuntimeRecord} {runtime runtime' : ServiceRuntime}
      {event : RuntimeEvent} {record : RuntimeRecord} : Reached records runtime →
      event.Reports → runtime.step event = some (record,runtime') →
      Reached (records ++ [record]) runtime'

/-- The tokens of the runs that were accepted. -/
def acceptedRuns (records : List RuntimeRecord) : List CancellationToken :=
  records.filterMap fun
    | .runAccepted _ run => some run
    | _ => none

def finishedRuns (records : List RuntimeRecord) : List CancellationToken :=
  records.filterMap fun
    | .runFinished run => some run
    | _ => none

/-- The accepted runs that have not been finished. -/
def unfinishedRuns (records : List RuntimeRecord) : List CancellationToken :=
  (acceptedRuns records).filter (· ∉ finishedRuns records)

/-- How many scheduled requests were rejected. -/
def rejectedSchedules (records : List RuntimeRecord) : Nat :=
  records.count (.runRejected .scheduled)

section Records

variable (records : List RuntimeRecord)

theorem unfinishedRuns_quiet {record : RuntimeRecord} (ha : acceptedRuns [record] = [])
    (hf : finishedRuns [record] = []) :
    unfinishedRuns (records ++ [record]) = unfinishedRuns records := by
  have ha' : acceptedRuns (records ++ [record]) = acceptedRuns records := by
    rw [acceptedRuns,List.filterMap_append]
    exact (congrArg _ ha).trans (List.append_nil _)
  have hf' : finishedRuns (records ++ [record]) = finishedRuns records := by
    rw [finishedRuns,List.filterMap_append]
    exact (congrArg _ hf).trans (List.append_nil _)
  rw [unfinishedRuns,unfinishedRuns,ha',hf']

theorem unfinishedRuns_accepted {trigger : SyncRunTrigger} {run : CancellationToken}
    (h : run ∉ finishedRuns records) :
    unfinishedRuns (records ++ [.runAccepted trigger run]) = unfinishedRuns records ++ [run] := by
  have hf : finishedRuns (records ++ [.runAccepted trigger run]) = finishedRuns records := by
    simp [finishedRuns]
  rw [unfinishedRuns,hf]
  simp [unfinishedRuns,acceptedRuns,h]

theorem unfinishedRuns_finished (run : CancellationToken) :
    unfinishedRuns (records ++ [.runFinished run]) =
      (unfinishedRuns records).filter (· ≠ run) := by
  simp [unfinishedRuns,acceptedRuns,finishedRuns,List.filter_filter,and_comm]

end Records

namespace ServiceRuntime

variable {records : List RuntimeRecord} {runtime runtime' : ServiceRuntime}

/-- No run is under way. -/
structure Resting (runtime : ServiceRuntime) : Prop where
  spawned : runtime.spawned = []
  status : runtime.state.status.isBusy = false
  currentRun : runtime.state.currentRun = none
  cancellation : runtime.state.cancellation = none

/-- The one run under way is the block's. -/
structure Executing (runtime : ServiceRuntime) (block : SpawnedRun) : Prop where
  spawned : runtime.spawned = [block]
  status : runtime.state.status.isBusy = true
  currentRun : runtime.state.currentRun.isSome = true
  cancellation : runtime.state.cancellation = some block.cancellation

/-- The state agrees with what the outside has seen. -/
structure Agrees (records : List RuntimeRecord) (runtime : ServiceRuntime) : Prop where
  phase : runtime.Resting ∨ ∃ block, runtime.Executing block
  unfinished : unfinishedRuns records = runtime.spawned.map (·.cancellation)
  accepted : ∀ run ∈ acceptedRuns records, run < runtime.tokens
  finished : ∀ run ∈ finishedRuns records, run < runtime.tokens
  skips : runtime.state.scheduledSkips = rejectedSchedules records

theorem agrees_new (latestRun : Option RunSnapshot) : Agrees [] (new latestRun) where
  phase := .inl ⟨rfl,rfl,rfl,rfl⟩
  unfinished := rfl
  accepted := by simp [acceptedRuns]
  finished := by simp [finishedRuns]
  skips := rfl

/-- A step that neither accepts, rejects nor finishes a run. -/
theorem Agrees.quiet (h : Agrees records runtime) {record : RuntimeRecord}
    (ha : acceptedRuns [record] = []) (hf : finishedRuns [record] = [])
    (hr : rejectedSchedules [record] = 0)
    (hphase : runtime'.Resting ∨ ∃ block, runtime'.Executing block)
    (hspawned : runtime'.spawned.map (·.cancellation) = runtime.spawned.map (·.cancellation))
    (htokens : runtime'.tokens = runtime.tokens)
    (hskips : runtime'.state.scheduledSkips = runtime.state.scheduledSkips) :
    Agrees (records ++ [record]) runtime' where
  phase := hphase
  unfinished := by rw [unfinishedRuns_quiet records ha hf,hspawned,h.unfinished]
  accepted := by
    intro run hm
    rw [acceptedRuns,List.filterMap_append,List.mem_append] at hm
    rw [htokens]
    exact h.accepted run (hm.resolve_right (by rw [← acceptedRuns,ha]; exact List.not_mem_nil))
  finished := by
    intro run hm
    rw [finishedRuns,List.filterMap_append,List.mem_append] at hm
    rw [htokens]
    exact h.finished run (hm.resolve_right (by rw [← finishedRuns,hf]; exact List.not_mem_nil))
  skips := by
    rw [hskips,h.skips,rejectedSchedules,rejectedSchedules,List.count_append]
    rw [rejectedSchedules] at hr
    omega

/-- A request finds the runtime at rest and starts a run, or is rejected. -/
theorem requestRun_cases (h : Agrees records runtime) (trigger : SyncRunTrigger)
    (now : OffsetDateTime) : Agrees
      (records ++ [if (runtime.requestRun trigger now).1.accepted then
        .runAccepted trigger runtime.tokens else .runRejected trigger])
      (runtime.requestRun trigger now).2 := by
  rcases h.phase with hrest | ⟨block,hexec⟩
  · have hfresh : runtime.tokens ∉ finishedRuns records := fun hm =>
      absurd (h.finished _ hm) (lt_irrefl _)
    rw [requestRun]
    simp only [hrest.status,Bool.false_eq_true,if_false,if_true]
    refine ⟨.inr ⟨⟨trigger,runtime.tokens,none⟩,by simp [hrest.spawned],rfl,rfl,rfl⟩,?_,?_,?_,?_⟩
    · rw [unfinishedRuns_accepted records hfresh,h.unfinished]
      simp
    · intro run hm
      have : run ∈ acceptedRuns records ∨ run = runtime.tokens := by
        simpa [acceptedRuns] using hm
      rcases this with hm | rfl
      · exact Nat.lt_succ_of_lt (h.accepted run hm)
      · exact Nat.lt_succ_self _
    · intro run hm
      have : run ∈ finishedRuns records := by simpa [finishedRuns] using hm
      exact Nat.lt_succ_of_lt (h.finished run this)
    · simpa [rejectedSchedules] using h.skips
  · rw [requestRun]
    simp only [hexec.status,Bool.false_eq_true,if_false,if_true]
    refine ⟨.inr ⟨block,hexec.spawned,hexec.status,hexec.currentRun,hexec.cancellation⟩,?_,?_,?_,?_⟩
    · rw [unfinishedRuns_quiet records rfl rfl,h.unfinished]
    · intro run hm
      have : run ∈ acceptedRuns records := by simpa [acceptedRuns] using hm
      exact Nat.lt_succ_of_lt (h.accepted run this)
    · intro run hm
      have : run ∈ finishedRuns records := by simpa [finishedRuns] using hm
      exact Nat.lt_succ_of_lt (h.finished run this)
    · have hs := h.skips
      by_cases ht : trigger = .scheduled
      · simp [rejectedSchedules,ht,hs]
      · simp [rejectedSchedules,ht,hs]

theorem requestCancel_cases (h : Agrees records runtime) : Agrees
    (records ++ [if runtime.requestCancel.1.accepted then .cancelAccepted else .cancelRejected])
    runtime.requestCancel.2 := by
  rcases h.phase with hrest | ⟨block,hexec⟩
  · rw [requestCancel]
    simp only [hrest.cancellation]
    exact h.quiet rfl rfl rfl h.phase rfl rfl rfl
  · rw [requestCancel]
    simp only [hexec.cancellation]
    exact h.quiet rfl rfl rfl
      (.inr ⟨block,hexec.spawned,rfl,hexec.currentRun,rfl⟩) rfl rfl rfl

theorem snapshot_cases (h : Agrees records runtime) (latestFromState : Option RunSnapshot) :
    Agrees (records ++ [.unseen]) (runtime.snapshot latestFromState) := by
  rw [snapshot]
  cases latestFromState.isSome with
  | false => exact h.quiet rfl rfl rfl h.phase rfl rfl rfl
  | true =>
    refine h.quiet rfl rfl rfl ?_ rfl rfl rfl
    rcases h.phase with hrest | ⟨block,hexec⟩
    · exact .inl ⟨hrest.spawned,hrest.status,hrest.currentRun,hrest.cancellation⟩
    · exact .inr ⟨block,hexec.spawned,hexec.status,hexec.currentRun,hexec.cancellation⟩

/-- A block that is polled keeps its token. -/
theorem polled_cases (h : Agrees records runtime) (poll : SpawnedRun → SpawnedRun)
    (hpoll : ∀ block, (poll block).cancellation = block.cancellation) :
    Agrees (records ++ [.unseen]) { runtime with spawned := runtime.spawned.map poll } := by
  refine h.quiet rfl rfl rfl ?_ (by simp [Function.comp_def,hpoll]) rfl rfl
  rcases h.phase with hrest | ⟨block,hexec⟩
  · exact .inl ⟨by simp [hrest.spawned],hrest.status,hrest.currentRun,hrest.cancellation⟩
  · refine .inr ⟨poll block,by simp [hexec.spawned],hexec.status,hexec.currentRun,?_⟩
    rw [hpoll]
    exact hexec.cancellation

/-- A report whose status is not `Running` leaves the runtime at rest, as an error does. -/
theorem finishRun_resting (runtime : ServiceRuntime) (trigger : SyncRunTrigger)
    (started finished : OffsetDateTime) {run : CancellationToken}
    {result : Except Str SyncRunReport}
    (hreports : (RuntimeEvent.finishRun run finished result).Reports) :
    Resting { runtime.finishRun trigger started finished result with spawned := [] } := by
  cases result with
  | error error => exact ⟨rfl,rfl,rfl,rfl⟩
  | ok report =>
    refine ⟨rfl,?_,rfl,rfl⟩
    have hs : report.status ≠ .running := hreports
    change (statusAfter report.status).isBusy = false
    cases hr : report.status with
    | running => exact absurd hr hs
    | succeeded | cancelled | partialFailed | failed => rfl

theorem finishRun_tokens (runtime : ServiceRuntime) (trigger : SyncRunTrigger)
    (started finished : OffsetDateTime) (result : Except Str SyncRunReport) :
    (runtime.finishRun trigger started finished result).tokens = runtime.tokens := by
  cases result <;> rfl

theorem finishRun_skips (runtime : ServiceRuntime) (trigger : SyncRunTrigger)
    (started finished : OffsetDateTime) (result : Except Str SyncRunReport) :
    (runtime.finishRun trigger started finished result).state.scheduledSkips =
      runtime.state.scheduledSkips := by
  cases result <;> rfl

/-- Only a block that is there finishes a run, and it is the one block. -/
theorem finishRun_cases (h : Agrees records runtime) {run : CancellationToken}
    {finished : OffsetDateTime} {result : Except Str SyncRunReport} {record : RuntimeRecord}
    (hreports : (RuntimeEvent.finishRun run finished result).Reports)
    (hstep : runtime.step (.finishRun run finished result) = some (record,runtime')) :
    Agrees (records ++ [record]) runtime' := by
  rw [step] at hstep
  split at hstep
  case h_2 => cases hstep
  case h_1 trigger token started hfind =>
    cases hstep
    have hmem := List.mem_of_find?_eq_some hfind
    have htoken : token = run := by
      have := List.find?_some hfind
      simpa using this
    subst htoken
    rcases h.phase with hrest | ⟨block,hexec⟩
    · rw [hrest.spawned] at hmem
      cases hmem
    · rw [hexec.spawned,List.mem_singleton] at hmem
      subst hmem
      have hnone : runtime.spawned.filter (·.cancellation ≠ token) = [] := by
        simp [hexec.spawned]
      have hopen : unfinishedRuns records = [token] := by
        rw [h.unfinished,hexec.spawned]
        rfl
      have htoken : token < runtime.tokens := by
        refine h.accepted token (List.mem_of_mem_filter (p := (· ∉ finishedRuns records)) ?_)
        rw [← unfinishedRuns,hopen]
        exact List.mem_singleton_self _
      rw [hnone]
      refine ⟨.inl (finishRun_resting runtime trigger started finished hreports),?_,?_,?_,?_⟩
      · rw [unfinishedRuns_finished,hopen]
        simp
      · intro run hm
        have hm : run ∈ acceptedRuns records := by simpa [acceptedRuns] using hm
        rw [finishRun_tokens]
        exact h.accepted run hm
      · intro run hm
        have hm : run ∈ finishedRuns records ∨ run = token := by simpa [finishedRuns] using hm
        rw [finishRun_tokens]
        rcases hm with hm | rfl
        · exact h.finished run hm
        · exact htoken
      · change (runtime.finishRun trigger started finished result).state.scheduledSkips = _
        rw [finishRun_skips,h.skips]
        simp [rejectedSchedules]

/-- What one step preserves. -/
theorem Agrees.step (h : Agrees records runtime) {event : RuntimeEvent} {record : RuntimeRecord}
    (hreports : event.Reports) (hstep : runtime.step event = some (record,runtime')) :
    Agrees (records ++ [record]) runtime' := by
  cases event with
  | requestRun trigger now =>
    cases hstep
    exact requestRun_cases h trigger now
  | requestCancel =>
    cases hstep
    exact requestCancel_cases h
  | snapshot latestFromState =>
    cases hstep
    exact snapshot_cases h latestFromState
  | polled run started =>
    cases hstep
    refine polled_cases h _ fun block => ?_
    split <;> rfl
  | finishRun run finished result => exact finishRun_cases h hreports hstep

/-- What every interleaving preserves. -/
theorem Reached.agrees (h : Reached records runtime) : Agrees records runtime := by
  induction h with
  | new latestRun => exact agrees_new latestRun
  | step _ hreports hstep ih => exact ih.step hreports hstep

/-- After fewer than 2^63 steps the next skip is counted as `i64` addition counts it. -/
theorem Reached.scheduledSkips_i64 (h : Reached records runtime) (hfew : records.length+1 < 2^63) :
    i64Add runtime.state.scheduledSkips 1 = runtime.state.scheduledSkips+1 := by
  have hskips := h.agrees.skips
  have hle : rejectedSchedules records ≤ records.length := List.count_le_length
  exact i64Add_of_lt (by omega) (by omega)

/-- An accepted cancellation finds a run under way and sets the flag of its token. -/
theorem requestCancel_accepted (h : Agrees records runtime)
    (haccepted : runtime.requestCancel.1.accepted = true) :
    ∃ block, runtime.spawned = [block] ∧ unfinishedRuns records = [block.cancellation] ∧
      runtime.requestCancel.2.isCancelled =
        Function.update runtime.isCancelled block.cancellation true := by
  rcases h.phase with hrest | ⟨block,hexec⟩
  · rw [requestCancel] at haccepted
    simp [hrest.cancellation] at haccepted
  · refine ⟨block,hexec.spawned,?_,?_⟩
    · rw [h.unfinished,hexec.spawned]
      rfl
    · rw [requestCancel]
      simp only [hexec.cancellation]

/-- In every reachable state at most one accepted run is unfinished, and the status, the current
run, the cancellation token and the count of skipped schedules agree with it. -/
theorem reached_consistent (h : Reached records runtime) :
    (unfinishedRuns records).length ≤ 1 ∧
    (runtime.state.status = .running ∨ runtime.state.status = .cancelling ↔
      ∃ run, unfinishedRuns records = [run]) ∧
    (runtime.state.currentRun.isSome ↔ ∃ run, unfinishedRuns records = [run]) ∧
    (runtime.state.cancellation.isSome ↔ ∃ run, unfinishedRuns records = [run]) ∧
    (∀ runtime', runtime.step .requestCancel = some (.cancelAccepted,runtime') →
      ∃ block, runtime.spawned = [block] ∧ unfinishedRuns records = [block.cancellation] ∧
        runtime'.isCancelled = Function.update runtime.isCancelled block.cancellation true) ∧
    runtime.state.scheduledSkips = rejectedSchedules records := by
  have hagrees := h.agrees
  have hbusy : runtime.state.status = .running ∨ runtime.state.status = .cancelling ↔
      runtime.state.status.isBusy = true := by
    cases runtime.state.status <;> simp [RuntimeStatus.isBusy]
  have hcancel : ∀ runtime', runtime.step .requestCancel = some (.cancelAccepted,runtime') →
      ∃ block, runtime.spawned = [block] ∧ unfinishedRuns records = [block.cancellation] ∧
        runtime'.isCancelled = Function.update runtime.isCancelled block.cancellation true := by
    intro runtime' hstep
    rw [step,Option.some_inj,Prod.mk.injEq] at hstep
    rw [← hstep.2]
    refine requestCancel_accepted hagrees ?_
    by_contra hrejected
    simp [hrejected] at hstep
  rw [hbusy]
  refine ⟨?_,?_,?_,?_,hcancel,hagrees.skips⟩
  all_goals
    rw [hagrees.unfinished]
    rcases hagrees.phase with hrest | ⟨block,hexec⟩
  · simp [hrest.spawned]
  · simp [hexec.spawned]
  · simp [hrest.spawned,hrest.status]
  · simp [hexec.spawned,hexec.status]
  · simp [hrest.spawned,hrest.currentRun]
  · simp [hexec.spawned,hexec.currentRun]
  · simp [hrest.spawned,hrest.cancellation]
  · simp [hexec.spawned,hexec.cancellation]

/-- A manual run is under way, a scheduled one has been turned away and a cancellation accepted. -/
theorem overlap_consistent : ∃ runtime,
    Reached [.runAccepted .manual 0,.runRejected .scheduled,.cancelAccepted] runtime ∧
    (unfinishedRuns [.runAccepted .manual 0,.runRejected .scheduled,.cancelAccepted]).length ≤ 1 ∧
    (runtime.state.status = .running ∨ runtime.state.status = .cancelling) ∧
    runtime.state.scheduledSkips = 1 := by
  have hnew := Reached.new none
  have hrun := hnew.step (show (RuntimeEvent.requestRun .manual 0).Reports from trivial)
    (show step _ _ = some (.runAccepted .manual 0,_) from rfl)
  have hskip := hrun.step (show (RuntimeEvent.requestRun .scheduled 5).Reports from trivial)
    (show step _ _ = some (.runRejected .scheduled,_) from rfl)
  have hcancel := hskip.step (show RuntimeEvent.requestCancel.Reports from trivial)
    (show step _ _ = some (.cancelAccepted,_) from rfl)
  have hall := reached_consistent hcancel
  exact ⟨_,hcancel,hall.1,hall.2.1.2 ⟨0,rfl⟩,hall.2.2.2.2.2⟩

end ServiceRuntime

end YaDiskSync
