import YaDiskSync.MockClient

/-! Runs with their history: every step with its answer, every task that finishes. Claims about
what a run did are claims about its trace. -/
namespace YaDiskSync

open Prog

/-- A step of the engine with its answer, or the end of a task. -/
inductive Happening (μ : Type)
  | step (e : Effect μ) (answer : e.Answer)
  | landed (task : Task) (outcome : TaskOutcome)

/-- A command of a program of either engine. -/
abbrev asking {μ : Type} (ε : Type) (e : Effect μ) :
    ExceptT ε (Prog (Effect μ) Effect.Answer) e.Answer :=
  liftM (Prog.perform e)

/-- A client's answer that there is no such resource. -/
def isAbsent {α : Type} : Except YandexDiskError α → Bool
  | .ok _ => false
  | .error error => error.kind == .notFound

structure Traced (ρ μ : Type) where
  world : World ρ μ
  trace : List (Happening μ) := []

namespace Environment

variable {ρ μ : Type} (env : Environment ρ)

/-- The steps of a traced run that `allowed` lets pass. -/
def TraceStep (allowed : Traced ρ μ → (e : Effect μ) → e.Answer → Prop) (s : Traced ρ μ)
    (e : Effect μ) (answer : e.Answer) (s' : Traced ρ μ) : Prop :=
  allowed s e answer ∧ env.Perform s.world e answer s'.world ∧
    s'.trace = s.trace ++ [.step e answer]

/-- What may happen between two steps of a traced run. -/
inductive TraceDrift : Traced ρ μ → Traced ρ μ → Prop
  | land {s : Traced ρ μ} {before after : List RunningTask} {task : Task} {outcome : TaskOutcome}
      {remote : ρ} : s.world.tasks = before ++ { task } :: after →
        env.Lands s.world task outcome remote → TraceDrift s {
          world := { s.world with
            remote, tasks := before ++ { task, outcome := some outcome } :: after }
          trace := s.trace ++ [.landed task outcome] }
  | disk {s : Traced ρ μ} {disk : LocalTree} : env.diskStep s.world.disk disk →
      TraceDrift s { s with world := { s.world with disk } }
  | cancel {s : Traced ρ μ} : env.cancels →
      TraceDrift s { s with world := { s.world with cancelled := true } }
  | tick {s : Traced ρ μ} {now : Int} : s.world.now ≤ now →
      TraceDrift s { s with world := { s.world with now } }

variable {env}

theorem TraceDrift.memory_eq {s s' : Traced ρ μ} (h : env.TraceDrift s s') :
    s'.world.memory = s.world.memory := by
  cases h <;> rfl

theorem TraceDrift.repository_eq {s s' : Traced ρ μ} (h : env.TraceDrift s s') :
    s'.world.repository = s.world.repository := by
  cases h <;> rfl

/-- Without changes of the disk and cancellations only tasks land and time passes. -/
theorem TraceDrift.disk_eq {s s' : Traced ρ μ} (h : env.TraceDrift s s')
    (hstatic : ∀ disk disk', ¬ env.diskStep disk disk') : s'.world.disk = s.world.disk := by
  cases h with
  | disk hd => exact absurd hd (hstatic _ _)
  | _ => rfl

theorem TraceDrift.cancelled_eq {s s' : Traced ρ μ} (h : env.TraceDrift s s')
    (hcancels : ¬ env.cancels) : s'.world.cancelled = s.world.cancelled := by
  cases h with
  | cancel hc => exact absurd hc hcancels
  | _ => rfl

/-- A drift makes the trace longer by the task that landed, if one did. -/
theorem TraceDrift.trace_eq {s s' : Traced ρ μ} (h : env.TraceDrift s s') :
    s'.trace = s.trace ∨ ∃ task outcome, s'.trace = s.trace ++ [.landed task outcome] := by
  cases h with
  | land => exact Or.inr ⟨_,_,rfl⟩
  | _ => exact Or.inl rfl

theorem drift_traced {w w' : World ρ μ} (h : env.Drift w w') (trace : List (Happening μ)) :
    ∃ trace', env.TraceDrift ⟨w,trace⟩ ⟨w',trace'⟩ := by
  cases h with
  | disk hd => exact ⟨trace,.disk hd⟩
  | land ht hl => exact ⟨_,.land (s := ⟨w,trace⟩) ht hl⟩
  | cancel hc => exact ⟨trace,.cancel hc⟩
  | tick hn => exact ⟨trace,.tick hn⟩

theorem drifts_traced {w w' : World ρ μ} (h : Relation.ReflTransGen env.Drift w w')
    (trace : List (Happening μ)) :
    ∃ trace', Relation.ReflTransGen env.TraceDrift ⟨w,trace⟩ ⟨w',trace'⟩ := by
  induction h with
  | refl => exact ⟨trace,.refl⟩
  | tail _ hstep ih =>
    obtain ⟨middle,hmiddle⟩ := ih
    obtain ⟨trace',hlast⟩ := drift_traced hstep middle
    exact ⟨trace',hmiddle.tail hlast⟩

/-- Every run has a trace. -/
theorem exec_traced {α : Type} {p : Prog (Effect μ) Effect.Answer α} {w w' : World ρ μ}
    {result : Option α} (h : Exec env.Perform env.Drift p w result w')
    (trace : List (Happening μ)) :
    ∃ trace', Exec (env.TraceStep fun _ _ _ => True) env.TraceDrift p ⟨w,trace⟩ result
      ⟨w',trace'⟩ := by
  induction h generalizing trace with
  | ret a s => exact ⟨trace,.ret a _⟩
  | cut henv =>
    obtain ⟨trace',hd⟩ := drifts_traced henv trace
    exact ⟨trace',.cut hd⟩
  | ask henv hstep _ ih =>
    obtain ⟨middle,hd⟩ := drifts_traced henv trace
    obtain ⟨trace',hrest⟩ := ih (middle ++ [.step _ _])
    exact ⟨trace',.ask hd ⟨trivial,hstep,rfl⟩ hrest⟩

theorem drifts_trace {s s' : Traced ρ μ} (h : Relation.ReflTransGen env.TraceDrift s s') :
    s.trace <+: s'.trace := by
  induction h with
  | refl => exact List.prefix_rfl
  | tail _ hdrift ih =>
    rcases hdrift.trace_eq with htrace | ⟨task,outcome,htrace⟩
    · rwa [htrace]
    · rw [htrace]
      exact ih.trans (List.prefix_append _ _)

/-- A run only adds to its trace. -/
theorem exec_trace {allowed : Traced ρ μ → (e : Effect μ) → e.Answer → Prop} {α : Type}
    {p : Prog (Effect μ) Effect.Answer α} {s s' : Traced ρ μ} {result : Option α}
    (h : Exec (env.TraceStep allowed) env.TraceDrift p s result s') : s.trace <+: s'.trace := by
  induction h with
  | ret a s => exact List.prefix_rfl
  | cut henv => exact drifts_trace henv
  | ask henv hstep _ ih =>
    refine (drifts_trace henv).trans (List.IsPrefix.trans ?_ ih)
    rw [hstep.2.2]
    exact List.prefix_append _ _

/-- What holds of the trace of a run and goes over to shorter ones holds at its every step. -/
theorem exec_of_trace {C : List (Happening μ) → Prop}
    (hc : ∀ trace trace', trace <+: trace' → C trace' → C trace) {α : Type}
    {p : Prog (Effect μ) Effect.Answer α} {s s' : Traced ρ μ} {result : Option α}
    (h : Exec (env.TraceStep fun _ _ _ => True) env.TraceDrift p s result s') (hs : C s'.trace) :
    Exec (env.TraceStep fun s e answer => C (s.trace ++ [.step e answer])) env.TraceDrift p s result
      s' := by
  induction h with
  | ret a s => exact .ret a s
  | cut henv => exact .cut henv
  | ask henv hstep hrest ih =>
    refine .ask henv ⟨hc _ _ ?_ hs,hstep.2⟩ (ih hs)
    rw [← hstep.2.2]
    exact exec_trace hrest

end Environment

section Tasks

variable {ρ μ : Type} {env : Environment ρ}

/-- The client call of a task. -/
def Task.call : Task → ClientCall
  | .createDirectory directory _ => .createDirectory directory.remotePath
  | .upload _ file _ _ => .uploadSource file.remotePath file.uploadSource

def Task.IsCreate : Task → Prop
  | .createDirectory .. => True
  | .upload .. => False

/-- The outcomes a task can have. -/
def Task.Yields : Task → TaskOutcome → Prop
  | .createDirectory directory operationId, outcome =>
    ∃ result, outcome = .created directory operationId result
  | .upload operationId file isUpdate _, outcome =>
    ∃ result, outcome = .uploaded { operationId, file, isUpdate, result }

theorem Environment.Lands.yields {w : World ρ μ} {task : Task} {outcome : TaskOutcome}
    {remote : ρ} (h : env.Lands w task outcome remote) : task.Yields outcome := by
  cases task with
  | createDirectory directory operationId =>
    obtain ⟨answer,_,rfl⟩ := h
    exact ⟨answer,rfl⟩
  | upload operationId file isUpdate cancelledText =>
    rcases h with ⟨_,_,rfl⟩ | ⟨answer,_,rfl⟩
    · exact ⟨_,rfl⟩
    · exact ⟨_,rfl⟩

/-- At most so many tasks, all of a kind. -/
structure Crew (kind : Task → Prop) (count : Nat) (s : Traced ρ μ) : Prop where
  kind : ∀ running ∈ s.world.tasks, kind running.task
  yields : ∀ running ∈ s.world.tasks, ∀ outcome, running.outcome = some outcome →
    running.task.Yields outcome
  length : s.world.tasks.length ≤ count

variable {kind : Task → Prop} {count : Nat} {s s' : Traced ρ μ}

theorem Crew.of_tasks (h : Crew kind count s) (ht : s'.world.tasks = s.world.tasks) :
    Crew kind count s' :=
  ⟨ht ▸ h.kind,ht ▸ h.yields,ht ▸ h.length⟩

theorem Crew.mono {count' : Nat} (h : Crew kind count s) (hle : count ≤ count') :
    Crew kind count' s :=
  ⟨h.kind,h.yields,h.length.trans hle⟩

theorem crew_nil (ht : s.world.tasks = []) : Crew kind 0 s :=
  ⟨by simp [ht],by simp [ht],by simp [ht]⟩

theorem Crew.tasks_nil (h : Crew kind 0 s) : s.world.tasks = [] :=
  List.eq_nil_of_length_eq_zero (Nat.le_zero.mp h.length)

theorem stable_crew : Stable env.TraceDrift (Crew (ρ := ρ) (μ := μ) kind count) := by
  intro s s' h hdrift
  cases hdrift with
  | land ht hl =>
    rename_i before after task outcome remote
    refine ⟨fun running hr => ?_,fun running hr o ho => ?_,?_⟩
    · rcases List.mem_append.mp hr with hr | hr
      · exact h.kind running (by simp [ht,hr])
      rcases List.mem_cons.mp hr with rfl | hr
      · exact h.kind { task } (by simp [ht])
      · exact h.kind running (by simp [ht,hr])
    · rcases List.mem_append.mp hr with hr | hr
      · exact h.yields running (by simp [ht,hr]) o ho
      rcases List.mem_cons.mp hr with rfl | hr
      · cases ho
        exact hl.yields
      · exact h.yields running (by simp [ht,hr]) o ho
    · have hlength := h.length
      simp only [ht,List.length_append,List.length_cons] at hlength ⊢
      exact hlength
  | disk _ => exact h.of_tasks rfl
  | cancel _ => exact h.of_tasks rfl
  | tick _ => exact h.of_tasks rfl

theorem stable_noTasks : Stable env.TraceDrift fun s : Traced ρ μ => s.world.tasks = [] := by
  intro s s' h hdrift
  cases hdrift with
  | land ht hl => simp [ht] at h
  | disk _ => exact h
  | cancel _ => exact h
  | tick _ => exact h

variable {allowed : Traced ρ μ → (e : Effect μ) → e.Answer → Prop}

theorem Crew.of_step (h : Crew kind count s) {e : Effect μ} {answer : e.Answer}
    (he : e.onTasks = false) (hstep : env.TraceStep allowed s e answer s') : Crew kind count s' :=
  h.of_tasks (hstep.2.1.tasks_eq he)

theorem Crew.spawn (h : Crew kind count s) {task : Task} (htask : kind task) {answer : Unit}
    (hstep : env.TraceStep allowed s (.spawn task) answer s') : Crew kind (count+1) s' := by
  have hworld : s'.world = { s.world with tasks := s.world.tasks ++ [{ task }] } := hstep.2.1
  refine ⟨fun running hr => ?_,fun running hr o ho => ?_,?_⟩
  · rw [hworld] at hr
    rcases List.mem_append.mp hr with hr | hr
    · exact h.kind running hr
    · rw [List.mem_singleton.mp hr]
      exact htask
  · rw [hworld] at hr
    rcases List.mem_append.mp hr with hr | hr
    · exact h.yields running hr o ho
    · rw [List.mem_singleton.mp hr] at ho
      cases ho
  · rw [hworld]
    simpa using h.length

/-- What a join may find: no task at all, or a finished one. -/
inductive Joined (kind : Task → Prop) (count : Nat) (s s' : Traced ρ μ) :
    Option TaskOutcome → Prop
  | none : s.world.tasks = [] → s'.world = s.world → Joined kind count s s' none
  | some {task : Task} {outcome : TaskOutcome} : kind task → task.Yields outcome →
      { task, outcome := some outcome } ∈ s.world.tasks →
      (∀ running ∈ s'.world.tasks, running ∈ s.world.tasks) → Crew kind count s' →
      s'.world.repository = s.world.repository → s'.world.remote = s.world.remote →
      Joined kind count s s' (some outcome)

theorem Crew.join (h : Crew kind (count+1) s) {joined : Option TaskOutcome}
    (hstep : env.TraceStep allowed s .joinNext joined s') : Joined kind count s s' joined := by
  rcases hstep.2.1 with ⟨rfl,ht,hw⟩ | ⟨before,task,outcome,after,rfl,ht,hw⟩
  · exact .none ht hw
  · have hmem : ({ task, outcome := some outcome } : RunningTask) ∈ s.world.tasks := by simp [ht]
    have hsub : ∀ running ∈ s'.world.tasks, running ∈ s.world.tasks := fun running hr => by
      rw [hw] at hr
      rw [ht]
      simp only [List.mem_append,List.mem_cons] at hr ⊢
      tauto
    refine .some (h.kind _ hmem) (h.yields _ hmem outcome rfl) hmem hsub
      ⟨fun running hr => h.kind running (hsub running hr),
        fun running hr => h.yields running (hsub running hr),?_⟩ (by rw [hw]) (by rw [hw])
    have hlength := h.length
    rw [ht] at hlength
    rw [hw]
    simp only [List.length_append,List.length_cons] at hlength ⊢
    omega

theorem crew_drop {answer : Unit}
    (hstep : env.TraceStep allowed s .dropTasks answer s') : Crew kind 0 s' := by
  have hworld : s'.world = { s.world with tasks := [] } := hstep.2.1
  exact crew_nil (by rw [hworld])

end Tasks

/-- One course of events: how the client answers, and what happens before a step. -/
structure Scenario (ρ μ : Type) where
  respond : Responder ρ
  oracle : ScanOracle := ⟨id,id,fun _ => [],fun _ => []⟩
  /-- how many tasks finish -/
  lands : Traced ρ μ → Effect μ → Nat := fun _ _ => 0
  /-- what becomes of the disk -/
  disk : Traced ρ μ → Effect μ → LocalTree := fun s _ => s.world.disk
  /-- whether the run gets cancelled -/
  cancels : Traced ρ μ → Effect μ → Bool := fun _ _ => false
  /-- how much time passes -/
  delay : Traced ρ μ → Effect μ → Nat := fun _ _ => 0

namespace Traced

variable {ρ μ : Type} (respond : Responder ρ) (s : Traced ρ μ)

/-- The first task that is still running, between those before and after it. -/
def firstRunning : List RunningTask → Option (List RunningTask × Task × List RunningTask)
  | [] => none
  | { task, outcome := none } :: tasks => some ([],task,tasks)
  | finished :: tasks =>
    (firstRunning tasks).map fun (before,task,after) => (finished :: before,task,after)

theorem firstRunning_eq {tasks before after : List RunningTask} {task : Task}
    (h : firstRunning tasks = some (before,task,after)) :
    tasks = before ++ { task } :: after := by
  induction tasks generalizing before with
  | nil => cases h
  | cons first tasks ih =>
    match first with
    | { task := _, outcome := none } =>
      cases h
      rfl
    | { task := _, outcome := some _ } =>
      simp only [firstRunning,Option.map_eq_some_iff,Prod.exists,Prod.mk.injEq] at h
      obtain ⟨b,t,a,hf,rfl,rfl,rfl⟩ := h
      rw [List.cons_append,← ih hf]

/-- The task that was started first among those still running finishes. -/
def landNext : Traced ρ μ :=
  match firstRunning s.world.tasks with
  | none => s
  | some (before,task,after) =>
    let result := task.run respond s.world.disk s.world.cancelled s.world.remote
    { world := { s.world with
        remote := result.2, tasks := before ++ { task, outcome := some result.1 } :: after }
      trace := s.trace ++ [.landed task result.1] }

def landMany : Nat → Traced ρ μ → Traced ρ μ
  | 0, s => s
  | count+1, s => landMany count (s.landNext respond)

/-- The first task in the list finishes, if it has not yet. -/
def landHead : Traced ρ μ :=
  match s.world.tasks with
  | { outcome := none, .. } :: _ => s.landNext respond
  | _ => s

variable (scenario : Scenario ρ μ) (ext : Externals)

/-- What happens before a step. -/
def settled (e : Effect μ) : Traced ρ μ :=
  let changed := { s.world with
    disk := scenario.disk s e, cancelled := s.world.cancelled || scenario.cancels s e
    now := s.world.now+scenario.delay s e }
  let landed := landMany scenario.respond (scenario.lands s e) { s with world := changed }
  match e with
  | .joinNext => landed.landHead scenario.respond
  | _ => landed

/-- A step of the scenario. -/
def answer (e : Effect μ) : e.Answer × Traced ρ μ :=
  let settled := s.settled scenario e
  let next := settled.world.answer scenario.respond ext scenario.oracle e
  (next.1,{ world := next.2, trace := settled.trace ++ [.step e next.1] })

/-- The run of a program in a scenario. -/
def play {α : Type} (p : Prog (Effect μ) Effect.Answer α) : α × Traced ρ μ :=
  runWith (fun s e => s.answer scenario ext e) p s

/-- Cut off after so many steps. -/
def playFor {α : Type} (n : Nat) (p : Prog (Effect μ) Effect.Answer α) : Option α × Traced ρ μ :=
  runFor (fun s e => s.answer scenario ext e) n p s

end Traced

namespace Scenario

variable {ρ μ : Type}

/-- What an environment has to allow for a scenario to be one of its runs. -/
structure Allowed (scenario : Scenario ρ μ) (env : Environment ρ) : Prop where
  admits : env.Admits scenario.respond
  disk : ∀ s e, scenario.disk s e = s.world.disk ∨
    env.diskStep s.world.disk (scenario.disk s e) := by exact fun _ _ => Or.inl rfl
  cancels : ∀ s e, scenario.cancels s e = true → env.cancels := by simp

variable {scenario : Scenario ρ μ} {env : Environment ρ}

theorem drift_landNext (hadmits : env.Admits scenario.respond) (s : Traced ρ μ) :
    Relation.ReflTransGen env.TraceDrift s (s.landNext scenario.respond) := by
  unfold Traced.landNext
  split
  · exact .refl
  · rename_i before task after hf
    exact .single (.land (Traced.firstRunning_eq hf) (s.world.lands_run hadmits task))

theorem drift_landMany (hadmits : env.Admits scenario.respond) (count : Nat) (s : Traced ρ μ) :
    Relation.ReflTransGen env.TraceDrift s (s.landMany scenario.respond count) := by
  induction count generalizing s with
  | zero => exact .refl
  | succ count ih => exact (drift_landNext hadmits s).trans (ih _)

theorem drift_settled (h : scenario.Allowed env) (s : Traced ρ μ) (e : Effect μ) :
    Relation.ReflTransGen env.TraceDrift s (s.settled scenario e) := by
  have hdisk : Relation.ReflTransGen env.TraceDrift s
      { s with world := { s.world with disk := scenario.disk s e } } := by
    rcases h.disk s e with hsame | hstep
    · rw [hsame]
    · exact .single (.disk hstep)
  have hcancel : ∀ t : Traced ρ μ, Relation.ReflTransGen env.TraceDrift t { t with
      world := { t.world with cancelled := t.world.cancelled || scenario.cancels s e } } := by
    intro t
    cases hc : scenario.cancels s e with
    | false => simp only [Bool.or_false]; exact .refl
    | true => simp only [Bool.or_true]; exact .single (.cancel (h.cancels s e hc))
  have htick : ∀ t : Traced ρ μ, Relation.ReflTransGen env.TraceDrift t { t with
      world := { t.world with now := t.world.now+scenario.delay s e } } :=
    fun t => .single (.tick (by omega))
  have hland := drift_landMany h.admits (scenario.lands s e) { s with world := { s.world with
    disk := scenario.disk s e, cancelled := s.world.cancelled || scenario.cancels s e
    now := s.world.now+scenario.delay s e } }
  have hlanded := ((hdisk.trans (hcancel _)).trans (htick _)).trans hland
  unfold Traced.settled
  dsimp only
  split
  · refine hlanded.trans ?_
    unfold Traced.landHead
    split
    · exact drift_landNext h.admits _
    · exact .refl
  · exact hlanded

theorem settle_settled (s : Traced ρ μ) (e : Effect μ) :
    (s.settled scenario e).world.settle scenario.respond e = (s.settled scenario e).world := by
  cases e with
  | joinNext =>
    unfold Traced.settled
    dsimp only
    generalize Traced.landMany scenario.respond _ _ = t
    -- the head of the list has finished
    unfold World.settle World.landFirst Traced.landHead Traced.landNext
    match ht : t.world.tasks with
    | [] => simp [ht]
    | { task, outcome := none } :: tasks => simp [Traced.firstRunning]
    | { task, outcome := some outcome } :: tasks => simp [ht]
  | _ => rfl

theorem answer_step (h : scenario.Allowed env) {s : Traced ρ μ} {e : Effect μ}
    {allowed : Traced ρ μ → (e : Effect μ) → e.Answer → Prop}
    (hallowed : allowed (s.settled scenario e) e (s.answer scenario env.ext e).1) :
    ∃ s₁, Relation.ReflTransGen env.TraceDrift s s₁ ∧
      env.TraceStep allowed s₁ e (s.answer scenario env.ext e).1
        (s.answer scenario env.ext e).2 := by
  refine ⟨_,drift_settled h s e,hallowed,?_,rfl⟩
  have hperform := World.answer_performs scenario.oracle (s.settled scenario e).world h.admits e
  rwa [settle_settled] at hperform

/-- A scenario that an environment allows is one of its runs. -/
theorem exec_play (h : scenario.Allowed env) {J : Traced ρ μ → Prop}
    {allowed : Traced ρ μ → (e : Effect μ) → e.Answer → Prop}
    (hallowed : ∀ s e, J s → allowed (s.settled scenario e) e (s.answer scenario env.ext e).1)
    (hnext : ∀ s e, J s → J (s.answer scenario env.ext e).2) {α : Type}
    (p : Prog (Effect μ) Effect.Answer α) {s : Traced ρ μ} (hs : J s) :
    Exec (env.TraceStep allowed) env.TraceDrift p s (some (s.play scenario env.ext p).1)
      (s.play scenario env.ext p).2 := by
  have hstep : ∀ s e, J s → (∃ s₁, Relation.ReflTransGen env.TraceDrift s s₁ ∧
      env.TraceStep allowed s₁ e (s.answer scenario env.ext e).1
        (s.answer scenario env.ext e).2) ∧ J (s.answer scenario env.ext e).2 :=
    fun s e hj => ⟨answer_step h (hallowed s e hj),hnext s e hj⟩
  exact exec_runWith hstep p s hs

/-- And so is its start. -/
theorem exec_playFor (h : scenario.Allowed env) (n : Nat) {α : Type}
    (p : Prog (Effect μ) Effect.Answer α) (s : Traced ρ μ) :
    Exec (env.TraceStep fun _ _ _ => True) env.TraceDrift p s
      (s.playFor scenario env.ext n p).1 (s.playFor scenario env.ext n p).2 := by
  have hstep : ∀ (s : Traced ρ μ) (e : Effect μ), ∃ s₁,
      Relation.ReflTransGen env.TraceDrift s s₁ ∧
        env.TraceStep (fun _ _ _ => True) s₁ e (s.answer scenario env.ext e).1
          (s.answer scenario env.ext e).2 := fun s e => answer_step h trivial
  exact exec_runFor hstep n p s

/-- Such a run whose steps pass a check. -/
theorem exec_checked (h : scenario.Allowed env) {check : Traced ρ μ → (e : Effect μ) → e.Answer → Bool}
    {allowed : Traced ρ μ → (e : Effect μ) → e.Answer → Prop}
    (hcheck : ∀ s e, check s e (s.answer scenario env.ext e).1 = true →
      allowed (s.settled scenario e) e (s.answer scenario env.ext e).1) {α : Type}
    {p : Prog (Effect μ) Effect.Answer α} {s s' : Traced ρ μ} {a : α}
    (hrun : runChecked (fun s e => s.answer scenario env.ext e) check p s = some (a,s')) :
    Exec (env.TraceStep allowed) env.TraceDrift p s (some a) s' := by
  have hstep : ∀ s e, check s e (s.answer scenario env.ext e).1 = true →
      ∃ s₁, Relation.ReflTransGen env.TraceDrift s s₁ ∧
        env.TraceStep allowed s₁ e (s.answer scenario env.ext e).1
          (s.answer scenario env.ext e).2 := fun s e hc => answer_step h (hcheck s e hc)
  exact exec_runChecked hstep hrun

end Scenario

section Failing

variable {ρ μ : Type} {scenario : Scenario ρ μ} {env : Environment ρ}

/-- A step of a scenario whose database fails where the script says so. -/
def Traced.failingAnswer (script : StateCall → Option StateError) (scenario : Scenario ρ μ)
    (ext : Externals) (s : Traced ρ μ) : (e : Effect μ) → e.Answer × Traced ρ μ
  | .state call =>
    match script call with
    | some error =>
      let settled := s.settled scenario (.state call)
      (.error error,{ settled with trace := settled.trace ++ [.step (.state call) (.error error)] })
    | none => s.answer scenario ext (.state call)
  | e => s.answer scenario ext e

/-- The run of a program in such a scenario. -/
def Traced.playFailing {α : Type} (script : StateCall → Option StateError)
    (scenario : Scenario ρ μ) (ext : Externals) (s : Traced ρ μ)
    (p : Prog (Effect μ) Effect.Answer α) : α × Traced ρ μ :=
  runWith (fun s e => s.failingAnswer script scenario ext e) p s

theorem Scenario.exec_playFailing {script : StateCall → Option StateError}
    (h : scenario.Allowed env) (hfails : env.stateFails)
    {allowed : Traced ρ μ → (e : Effect μ) → e.Answer → Prop}
    (hallowed : ∀ (s : Traced ρ μ) (e : Effect μ), allowed (s.settled scenario e) e
      (s.failingAnswer script scenario env.ext e).1) {α : Type}
    (p : Prog (Effect μ) Effect.Answer α) (s : Traced ρ μ) :
    Exec (env.TraceStep allowed) env.TraceDrift p s
      (some (s.playFailing script scenario env.ext p).1)
      (s.playFailing script scenario env.ext p).2 := by
  have hstep : ∀ (s : Traced ρ μ) (e : Effect μ), ∃ s₁,
      Relation.ReflTransGen env.TraceDrift s s₁ ∧ env.TraceStep allowed s₁ e
        (s.failingAnswer script scenario env.ext e).1
        (s.failingAnswer script scenario env.ext e).2 := by
    intro s e
    have hok := hallowed s e
    cases e with
    | state call =>
      unfold Traced.failingAnswer at hok ⊢
      cases hscript : script call with
      | some error =>
        simp only [hscript] at hok ⊢
        exact ⟨_,drift_settled h s (.state call),hok,Or.inl ⟨hfails,⟨error,rfl⟩,rfl⟩,rfl⟩
      | none =>
        simp only [hscript] at hok ⊢
        exact answer_step h hok
    | _ => exact answer_step h hok
  exact exec_runWith (J := fun _ => True) (fun s e _ => ⟨hstep s e,trivial⟩) p s trivial

end Failing

end YaDiskSync
