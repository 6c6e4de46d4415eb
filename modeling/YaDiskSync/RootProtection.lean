import YaDiskSync.MockClient
import YaDiskSync.SyncFrame

/-! A root that goes missing during its run. A watch goes along with the run of a root: it
notes the step at which the root's directory is first found gone, the subtrees registered
before, and what is deleted after. -/
namespace YaDiskSync

open Prog

def SyncMemory.registered (memory : SyncMemory) : List DeletedLocalSubtree :=
  ((memory.livePlan.or memory.scanPlan).map LiveScanPlan.deletedSubtrees).getD []

structure RootWatch (ρ : Type) where
  world : World ρ SyncMemory
  rootPath : LocalPath := []
  canonical : Str := []
  /-- the start check has found the root -/
  checked : Bool := false
  /-- the root has been missing at a step since -/
  gone : Bool := false
  registeredBefore : List DeletedLocalSubtree := []
  /-- the root was gone when its scan ended -/
  scannedLate : Bool := false
  deletedAfter : List Str := []

namespace RootWatch

variable {ρ : Type} (s : RootWatch ρ)

def rootMissing : Bool := s.checked && !s.world.disk.isDir s.rootPath

/-- The watch once the root is gone. -/
def lose : RootWatch ρ :=
  if s.gone then s
  else { s with gone := true, registeredBefore := s.world.memory.registered }

/-- A step of the engine happens at a moment; the root is there then or not. -/
def look : RootWatch ρ := if s.rootMissing then s.lose else s

/-- What the watch makes of a step. Memory takes no time, and the scan of a root may last long
enough to `lose` it half way. -/
def observe (lost : Bool) : (e : Effect SyncMemory) → e.Answer → RootWatch ρ
  | .readMemory, _ | .updateMemory _, _ => s
  | .state (.upsertSyncRoot _ localPath _ canonical _), _ =>
    { world := s.world, rootPath := pathComponents localPath, canonical }
  | .isDir path, answer =>
    if s.checked = false ∧ path = s.rootPath then { s with checked := answer } else s.look
  | .scan .., _ =>
    let s := if lost then s.lose else s.look
    { s with scannedLate := s.gone }
  | .client (.deletePermanently path), _ =>
    let s := s.look
    if s.gone then { s with deletedAfter := s.deletedAfter ++ [path] } else s
  | _, _ => s.look

/-- After the root went missing nothing is registered, and what is deleted is what the plan
with the subtrees of before says; the scan the plan is made from was complete by then. -/
structure Protected : Prop where
  registered : s.gone = true → s.world.memory.registered = s.registeredBefore
  deleted : ∀ path ∈ s.deletedAfter, s.scannedLate = false ∧
    ∃ (root : SyncRootConfig) (plan : LiveScanPlan) (inventory : Inventory),
      s.world.memory.livePlan = some plan ∧ ∃ operation ∈ collectCoalescedDeleteOperations root
        s.canonical { plan with deletedSubtrees := s.registeredBefore } inventory,
      operation.remotePath = path

/-- The root is not lost before its scan is over; once it is gone, no directory of the scan is
then found missing, and nothing below the root's own entries is looked for. -/
def LostLate (lost : Bool) : Effect SyncMemory → Prop
  | .scan .. => lost = false ∧ s.look.gone = false
  | .isDir path => s.checked = true → s.world.memory.livePlan = none → s.look.gone = true →
      s.world.disk.isDir path = true
  | .pathExists path => s.rootMissing = false ∧ (s.gone = true → s.world.disk.pathExists path = true)
  | _ => True

instance (lost : Bool) (e : Effect SyncMemory) : Decidable (s.LostLate lost e) := by
  cases e <;> unfold LostLate <;> infer_instance

end RootWatch

namespace Environment

variable {ρ : Type} (env : Environment ρ)

/-- The steps of a watched run that `allowed` lets pass. -/
def WatchStep (allowed : RootWatch ρ → Bool → Effect SyncMemory → Prop) (s : RootWatch ρ)
    (e : Effect SyncMemory) (answer : e.Answer) (s' : RootWatch ρ) : Prop :=
  ∃ lost world, allowed s lost e ∧ env.Perform s.world e answer world ∧
    s' = { s.observe lost e answer with world }

def WatchDrift (s s' : RootWatch ρ) : Prop :=
  ∃ world, env.Drift s.world world ∧ s' = { s with world }

end Environment

namespace RootWatch

variable {ρ : Type} {env : Environment ρ} {s s' : RootWatch ρ} {canonical : Str}

/-- What holds wherever a run under the condition is cut off. -/
structure Guarded (canonical : Str) (s : RootWatch ρ) : Prop extends s.Protected where
  quiet : s.gone = false → s.deletedAfter = []
  checked : s.gone = true → s.checked = true
  scanned : s.scannedLate = false
  canonical : s.canonical = canonical

theorem Guarded.lose (h : Guarded canonical s) (hc : s.checked = true) :
    Guarded canonical s.lose := by
  unfold RootWatch.lose
  split
  · exact h
  · rename_i hg
    have hnone : s.deletedAfter = [] := h.quiet (by simpa using hg)
    exact {
      registered := fun _ => rfl
      deleted := fun path hp => by simp [hnone] at hp
      quiet := fun hf => by simp at hf
      checked := fun _ => hc
      scanned := h.scanned
      canonical := h.canonical }

theorem Guarded.look (h : Guarded canonical s) : Guarded canonical s.look := by
  unfold RootWatch.look
  split
  · rename_i hm
    exact h.lose (by simp [rootMissing] at hm; exact hm.1)
  · exact h

/-- A change of the world that registers nothing. -/
theorem Guarded.of_registered (h : Guarded canonical s) {world : World ρ SyncMemory}
    (hregistered : world.memory.registered = s.world.memory.registered)
    (hplan : ∀ plan, s.world.memory.livePlan = some plan → world.memory.livePlan = some plan) :
    Guarded canonical { s with world } where
  registered hg := hregistered.trans (h.registered hg)
  deleted path hp := by
    obtain ⟨hlate,root,plan,inventory,hlive,hop⟩ := h.deleted path hp
    exact ⟨hlate,root,plan,inventory,hplan plan hlive,hop⟩
  quiet := h.quiet
  checked := h.checked
  scanned := h.scanned
  canonical := h.canonical

theorem Guarded.of_memory (h : Guarded canonical s) {world : World ρ SyncMemory}
    (hscan : world.memory.scanPlan = s.world.memory.scanPlan)
    (hlive : world.memory.livePlan = s.world.memory.livePlan) :
    Guarded canonical { s with world } := by
  refine h.of_registered ?_ fun plan hplan => hlive.trans hplan
  unfold SyncMemory.registered
  rw [hscan,hlive]

/-- While the root is there the plans may change in any way. -/
theorem Guarded.of_not_gone (h : Guarded canonical s) (hg : s.gone = false)
    {world : World ρ SyncMemory} : Guarded canonical { s with world } := by
  have hnone : s.deletedAfter = [] := h.quiet hg
  exact {
    registered := fun ht => by simp [hg] at ht
    deleted := fun path hp => by simp [hnone] at hp
    quiet := fun _ => hnone
    checked := fun ht => by simp [hg] at ht
    scanned := h.scanned
    canonical := h.canonical }

@[simp] theorem look_world : s.look.world = s.world := by
  unfold RootWatch.look RootWatch.lose
  split
  · split <;> rfl
  · rfl

@[simp] theorem lose_world : s.lose.world = s.world := by
  unfold RootWatch.lose
  split <;> rfl

/-- Guarded, with something known about the plans. -/
def GuardedWith (canonical : Str) (φ : Option LiveScanPlan → Option LiveScanPlan → Prop)
    (s : RootWatch ρ) : Prop :=
  Guarded canonical s ∧ φ s.world.memory.scanPlan s.world.memory.livePlan

/-- Steps that leave the plans, the watched root and the remote disk's contents alone. -/
def Calm : Effect SyncMemory → Prop
  | .updateMemory f => ∀ memory,
      (f memory).scanPlan = memory.scanPlan ∧ (f memory).livePlan = memory.livePlan
  | .state (.upsertSyncRoot ..) => False
  | .client (.deletePermanently _) => False
  | _ => True

theorem observe_of_calm {e : Effect SyncMemory} (answer : e.Answer) {lost : Bool}
    (he : Calm e) (hlost : s.LostLate lost e) (h : Guarded canonical s) :
    Guarded canonical (s.observe lost e answer) ∧ (s.observe lost e answer).world = s.world := by
  unfold observe
  split
  · exact ⟨h,rfl⟩
  · exact ⟨h,rfl⟩
  · exact absurd he id
  · split
    · rename_i hc
      exact ⟨{ h with checked := fun hg => by simp [h.checked hg] at hc },rfl⟩
    · exact ⟨h.look,look_world⟩
  · obtain ⟨rfl,hg⟩ := hlost
    have hsame : { s.look with scannedLate := s.look.gone } = s.look := by
      rw [hg,← h.look.scanned]
    exact ⟨hsame.symm ▸ h.look,look_world⟩
  · exact absurd he id
  · exact ⟨h.look,look_world⟩

theorem GuardedWith.step {φ : Option LiveScanPlan → Option LiveScanPlan → Prop}
    {e : Effect SyncMemory} {answer : e.Answer} (he : Calm e) (h : GuardedWith canonical φ s)
    (hstep : env.WatchStep LostLate s e answer s') : GuardedWith canonical φ s' := by
  obtain ⟨lost,world,hlost,hperform,rfl⟩ := hstep
  obtain ⟨hg,hw⟩ := observe_of_calm answer he hlost h.1
  have hplans : world.memory.scanPlan = s.world.memory.scanPlan ∧
      world.memory.livePlan = s.world.memory.livePlan := by
    cases e with
    | updateMemory f =>
      have hworld : world = { s.world with memory := f s.world.memory } := hperform
      rw [hworld]
      exact he s.world.memory
    | _ =>
      rw [hperform.memory_eq (by simp)]
      exact ⟨rfl,rfl⟩
  refine ⟨hg.of_memory (hplans.1.trans (by rw [hw])) (hplans.2.trans (by rw [hw])),?_⟩
  show φ world.memory.scanPlan world.memory.livePlan
  rw [hplans.1,hplans.2]
  exact h.2

theorem stable_guardedWith (φ : Option LiveScanPlan → Option LiveScanPlan → Prop) :
    Stable env.WatchDrift (GuardedWith canonical φ) := by
  rintro s _ h ⟨world,hdrift,rfl⟩
  have hm : world.memory = s.world.memory := hdrift.memory_eq
  refine ⟨h.1.of_memory (by rw [hm]) (by rw [hm]),?_⟩
  show φ world.memory.scanPlan world.memory.livePlan
  rw [hm]
  exact h.2

end RootWatch

namespace RootWatch

section Runs

variable {ρ : Type} {env : Environment ρ} {canonical : Str}
  {φ : Option LiveScanPlan → Option LiveScanPlan → Prop}

/-- Where a run may be cut off. -/
def AnyGuarded (s : RootWatch ρ) : Prop := ∃ canonical, Guarded canonical s

variable (env) in
/-- A triple of the runs whose steps meet the condition. -/
abbrev Safe {ε α : Type} (P : RootWatch ρ → Prop)
    (p : ExceptT ε (Prog (Effect SyncMemory) Effect.Answer) α)
    (Q : α → RootWatch ρ → Prop) : Prop :=
  TryTriple (env.WatchStep LostLate) env.WatchDrift P p Q AnyGuarded AnyGuarded

theorem anyGuarded_of_with {s : RootWatch ρ} (h : GuardedWith canonical φ s) : AnyGuarded s :=
  ⟨canonical,h.1⟩

variable (env) in
/-- A program of such runs that keeps what is known about the plans. -/
abbrev SafeKeeps {ε α : Type} (canonical : Str)
    (φ : Option LiveScanPlan → Option LiveScanPlan → Prop)
    (p : ExceptT ε (Prog (Effect SyncMemory) Effect.Answer) α) : Prop :=
  Keeps (env.WatchStep LostLate) env.WatchDrift AnyGuarded (GuardedWith canonical φ) p

theorem keeps_calm {e : Effect SyncMemory} (he : Calm e) :
    SafeKeeps env canonical φ (SyncEngine.perform e) :=
  Keeps.perform (stable_guardedWith φ) (fun _ => anyGuarded_of_with)
    fun _ _ _ h hstep => h.step he hstep

theorem keeps_state {call : StateCall} (h : Calm (.state call)) :
    SafeKeeps env canonical φ (SyncEngine.state call) :=
  SyncEngine.sequential_state (sequential_keeps fun _ => anyGuarded_of_with) (keeps_calm h)

theorem modifySummary_keeps (f : RootSyncSummary → RootSyncSummary) :
    SafeKeeps env canonical φ (SyncEngine.modifySummary f) :=
  keeps_calm fun _ => ⟨rfl,rfl⟩

theorem reporting_guardedWith :
    SyncEngine.Reporting fun ⦃α⦄ (p : Engine α) => SafeKeeps env canonical φ p where
  toComposable := (sequential_keeps fun _ => anyGuarded_of_with).toComposable
  report h := keeps_state (by cases ‹StateCall› <;> trivial)
  readMemory := keeps_calm trivial
  modifySummary f _ := modifySummary_keeps f
  isCancelled := keeps_calm trivial

theorem quiet_guardedWith (runId : Int) (baseSummary : SyncRunSummary) :
    SyncEngine.Quiet runId baseSummary
      fun ⦃α⦄ (p : Engine α) => SafeKeeps env canonical φ p where
  toReporting := reporting_guardedWith
  state h := keeps_state (by cases ‹StateCall› <;> trivial)
  persistRootProgress := reporting_guardedWith.bind reporting_guardedWith.readMemory
    fun _ => keeps_state trivial
  cleanupStagingFiles := SyncEngine.cleanupStagingFiles_of
    (sequential_keeps fun _ => anyGuarded_of_with) fun _ => keeps_calm trivial
  fileMetadata _ := keeps_calm trivial

theorem modifyReport_keeps (f : SyncRunReport → SyncRunReport) :
    SafeKeeps env canonical φ (SyncEngine.modifyReport f) :=
  keeps_calm fun _ => ⟨rfl,rfl⟩

/-- Guarded, and not gone if something was found missing. -/
def GuardedIf (canonical : Str) (φ : Option LiveScanPlan → Option LiveScanPlan → Prop)
    (missing : Prop) (s : RootWatch ρ) : Prop :=
  GuardedWith canonical φ s ∧ (missing → s.gone = false)

theorem stable_guardedIf (missing : Prop) :
    Stable env.WatchDrift (GuardedIf canonical φ missing) := by
  rintro s s' h hdrift
  refine ⟨stable_guardedWith φ s s' h.1 hdrift,fun hm => ?_⟩
  obtain ⟨world,_,rfl⟩ := hdrift
  exact h.2 hm

theorem pathExists_safe (missing : Prop) (path : LocalPath) :
    Safe env (GuardedIf canonical φ missing) (SyncEngine.perform (.pathExists path))
      fun found => GuardedIf canonical φ (missing ∨ found = false) := by
  refine TryTriple.perform (stable_guardedIf missing) (fun _ h => anyGuarded_of_with h.1) ?_
  intro s found s' h hstep
  refine ⟨GuardedWith.step (e := .pathExists path) trivial h.1 hstep,?_⟩
  obtain ⟨lost,world,⟨hroot,hexists⟩,⟨rfl,rfl⟩,rfl⟩ := hstep
  have hlook : s.look = s := by
    unfold RootWatch.look
    rw [if_neg (by simp [hroot])]
  show _ → s.look.gone = false
  rw [hlook]
  rintro (hm | hf)
  · exact h.2 hm
  · by_contra hg
    have htrue := hexists (by simpa using hg)
    rw [htrue] at hf
    cases hf

theorem nearestMissingLoop_safe (rootPath : LocalPath) (fuel : Nat) (candidate : LocalPath)
    (nearest : Option LocalPath) :
    Safe env (GuardedIf canonical φ (nearest.isSome = true))
      (nearestMissingLoop (m := Engine) (fun path => SyncEngine.perform (.pathExists path))
        rootPath fuel candidate nearest)
      fun found => GuardedIf canonical φ (found.isSome = true) := by
  induction fuel generalizing candidate nearest with
  | zero => exact TryTriple.pure fun _ h => h
  | succ fuel ih =>
    rw [nearestMissingLoop]
    refine iteInduction (motive := fun p => Safe env _ p _) (fun _ => TryTriple.pure fun _ h => h)
      fun _ => ?_
    refine TryTriple.bind (pathExists_safe _ candidate) fun found => ?_
    refine iteInduction (motive := fun p => Safe env _ p _)
      (fun _ => TryTriple.pure fun _ h => ⟨h.1,fun hn => h.2 (Or.inl hn)⟩) fun hf => ?_
    -- the candidate was missing at a moment the root was there
    have hmissing : ∀ s : RootWatch ρ, GuardedIf canonical φ (nearest.isSome = true ∨ found = false) s →
        GuardedIf canonical φ True s := fun s h => ⟨h.1,fun _ => h.2 (Or.inr (by simpa using hf))⟩
    refine TryTriple.pre ?_ hmissing
    cases parent? candidate with
    | none => exact TryTriple.pure fun _ h => ⟨h.1,fun hn => by simp at hn⟩
    | some parent =>
      refine iteInduction (motive := fun p => Safe env _ p _)
        (fun _ => TryTriple.pure fun _ h => ⟨h.1,fun _ => h.2 trivial⟩) fun _ => ?_
      refine TryTriple.bind (pathExists_safe _ parent) fun found => ?_
      exact iteInduction (motive := fun p => Safe env _ p _)
        (fun _ => TryTriple.pure fun _ h => ⟨h.1,fun _ => h.2 (Or.inl trivial)⟩)
        fun _ => (ih parent (some candidate)).pre fun _ h => ⟨h.1,fun _ => h.2 (Or.inl trivial)⟩

theorem isDir_safe (path : LocalPath) : Safe env (GuardedWith canonical φ)
    (SyncEngine.perform (.isDir path)) fun _ => GuardedWith canonical φ :=
  keeps_calm (e := .isDir path) trivial

theorem nearestMissingDirectory_safe (rootPath localPath : LocalPath) :
    Safe env (GuardedWith canonical φ)
      (nearestMissingDirectory (m := Engine) (fun path => SyncEngine.perform (.isDir path))
        (fun path => SyncEngine.perform (.pathExists path)) rootPath localPath)
      fun found => GuardedIf canonical φ (found.isSome = true) := by
  have hstart : ∀ s : RootWatch ρ, GuardedWith canonical φ s →
      GuardedIf canonical φ ((none : Option LocalPath).isSome = true) s :=
    fun s h => ⟨h,fun hn => by simp at hn⟩
  refine TryTriple.bind (isDir_safe localPath) fun isDir => ?_
  refine iteInduction (motive := fun p => Safe env _ p _)
    (fun _ => (nearestMissingLoop_safe _ _ _ _).pre hstart) fun _ => ?_
  cases parent? localPath with
  | none => exact TryTriple.pure fun s h => hstart s h
  | some parent => exact (nearestMissingLoop_safe _ _ _ _).pre hstart

theorem register_safe (plan : LiveScanPlan) (localPath : LocalPath)
    (relativePath remotePath : Str) :
    Safe env (GuardedWith canonical φ)
      (plan.registerMissingLocalPath (m := Engine) (fun path => SyncEngine.perform (.isDir path))
        (fun path => SyncEngine.perform (.pathExists path)) localPath relativePath remotePath)
      fun result => GuardedIf canonical φ (result.1 ≠ plan) := by
  have hsame : ∀ s : RootWatch ρ, GuardedWith canonical φ s → GuardedIf canonical φ (plan ≠ plan) s :=
    fun s h => ⟨h,fun hn => absurd rfl hn⟩
  have hdetect : Safe env (GuardedWith canonical φ)
      (detectDeletedLocalSubtree (m := Engine) (fun path => SyncEngine.perform (.isDir path))
        (fun path => SyncEngine.perform (.pathExists path)) plan.rootId plan.rootLocalPath
        localPath relativePath remotePath)
      fun found => GuardedIf canonical φ (found.isSome = true) := by
    refine TryTriple.bind (nearestMissingDirectory_safe _ _) fun missing => ?_
    cases missing with
    | none => exact TryTriple.pure fun _ h => ⟨h.1,fun hn => by simp at hn⟩
    | some missing =>
      dsimp only
      cases missingRelativePrefix plan.rootLocalPath missing with
      | none => exact TryTriple.pure fun _ h => ⟨h.1,fun _ => h.2 rfl⟩
      | some relativePrefix =>
        exact iteInduction (motive := fun p => Safe env _ p _)
          (fun _ => TryTriple.pure fun _ h => ⟨h.1,fun _ => h.2 rfl⟩)
          fun _ => TryTriple.pure fun _ h => ⟨h.1,fun _ => h.2 rfl⟩
  refine TryTriple.bind hdetect fun subtree => ?_
  cases subtree with
  | none => exact TryTriple.pure fun s h => hsame s h.1
  | some subtree => exact TryTriple.pure fun _ h => ⟨h.1,fun _ => h.2 rfl⟩

/-- A plan is set in the root's run. -/
def HasPlan : Option LiveScanPlan → Option LiveScanPlan → Prop := fun _ live => live.isSome = true

def WithPlan (plan : LiveScanPlan) : Option LiveScanPlan → Option LiveScanPlan → Prop :=
  fun _ live => live = some plan

theorem hasPlan_of_withPlan {plan : LiveScanPlan} {s : RootWatch ρ}
    (h : GuardedWith canonical (WithPlan plan) s) : GuardedWith canonical HasPlan s := by
  refine ⟨h.1,?_⟩
  have hplan : s.world.memory.livePlan = some plan := h.2
  show s.world.memory.livePlan.isSome = true
  simp [hplan]

theorem livePlan_safe : Safe env (GuardedWith canonical HasPlan) SyncEngine.livePlan
    fun plan => GuardedWith canonical (WithPlan plan) := by
  refine TryTriple.bind (Q := fun memory => GuardedWith canonical (WithPlan
      (memory.livePlan.getD { rootId := [], rootLocalPath := [] })))
    (TryTriple.perform (stable_guardedWith _) (fun _ => anyGuarded_of_with) ?_)
    fun memory => TryTriple.pure fun _ h => h
  intro s memory s' h hstep
  have hnext := GuardedWith.step (e := .readMemory) trivial h hstep
  obtain ⟨lost,world,_,⟨rfl,rfl⟩,rfl⟩ := hstep
  obtain ⟨plan,hplan⟩ := Option.isSome_iff_exists.mp h.2
  refine ⟨hnext.1,?_⟩
  show s.world.memory.livePlan = some _
  rw [hplan]
  rfl

/-- Setting a plan is no registration, or happens while the root is there. -/
theorem setLivePlan_safe {plan : LiveScanPlan} (plan' : LiveScanPlan) :
    Safe env (GuardedIf canonical (WithPlan plan) (plan' ≠ plan)) (SyncEngine.setLivePlan plan')
      fun _ => GuardedWith canonical HasPlan := by
  refine TryTriple.perform (stable_guardedIf _) (fun _ h => anyGuarded_of_with h.1) ?_
  intro s _ s' h hstep
  obtain ⟨lost,world,_,rfl,rfl⟩ := hstep
  refine ⟨?_,rfl⟩
  by_cases heq : plan' = plan
  · have hplan : s.world.memory.livePlan = some plan := h.1.2
    exact h.1.1.of_memory rfl (by rw [hplan,heq])
  · exact h.1.1.of_not_gone (h.2 heq)

theorem registerMissing_keeps (localPath : LocalPath) (relativePath remotePath : Str) :
    SafeKeeps env canonical HasPlan
      (SyncEngine.registerMissingLocalPath localPath relativePath remotePath) := by
  refine TryTriple.bind livePlan_safe fun plan => ?_
  refine TryTriple.bind (register_safe plan localPath relativePath remotePath) fun result => ?_
  exact TryTriple.bind (setLivePlan_safe result.1) fun _ => TryTriple.pure fun _ h => h

/-- Nothing but the subtrees of the plan under construction is registered yet. -/
def Scanning (plan : LiveScanPlan) : Option LiveScanPlan → Option LiveScanPlan → Prop :=
  fun scan live => live = none ∧
    (scan.map LiveScanPlan.deletedSubtrees).getD [] = plan.deletedSubtrees

/-- A directory of the scan is only found missing while the root is there. -/
theorem scannedIsDir_safe {plan : LiveScanPlan} (path : LocalPath) :
    Safe env (GuardedWith canonical (Scanning plan)) (SyncEngine.perform (.isDir path))
      fun isDir => GuardedIf canonical (Scanning plan) (isDir = false) := by
  refine TryTriple.perform (stable_guardedWith _) (fun _ => anyGuarded_of_with) ?_
  intro s isDir s' h hstep
  refine ⟨GuardedWith.step (e := .isDir path) trivial h hstep,fun hf => ?_⟩
  obtain ⟨lost,world,hlate,⟨rfl,rfl⟩,rfl⟩ := hstep
  have hunchecked : s.checked = false → s.gone = false := by
    intro hc
    by_contra hg
    rw [h.1.checked (by simpa using hg)] at hc
    cases hc
  show (if s.checked = false ∧ path = s.rootPath then
    { s with checked := s.world.disk.isDir path } else s.look).gone = false
  split
  · rename_i hc
    exact hunchecked hc.1
  · by_contra hg
    have hgone : s.look.gone = true := by simpa using hg
    by_cases hc : s.checked = true
    · rw [hlate hc h.2.1 hgone] at hf
      cases hf
    · -- an unchecked root is not watched yet
      have hlook : s.look = s := by
        unfold RootWatch.look rootMissing
        simp [hc]
      rw [hlook,hunchecked (by simpa using hc)] at hgone
      cases hgone

theorem setScanPlan_safe {plan : LiveScanPlan} (plan' : LiveScanPlan) :
    Safe env (GuardedIf canonical (Scanning plan) (plan'.deletedSubtrees ≠ plan.deletedSubtrees))
      (SyncEngine.setScanPlan plan') fun _ => GuardedWith canonical (Scanning plan') := by
  refine TryTriple.perform (stable_guardedIf _) (fun _ h => anyGuarded_of_with h.1) ?_
  intro s _ s' h hstep
  obtain ⟨lost,world,_,rfl,rfl⟩ := hstep
  have hlive : s.world.memory.livePlan = none := h.1.2.1
  refine ⟨?_,hlive,rfl⟩
  by_cases heq : plan'.deletedSubtrees = plan.deletedSubtrees
  · refine h.1.1.of_registered ?_ fun plan hplan => hplan
    unfold SyncMemory.registered
    rw [hlive,Option.none_or,Option.none_or,h.1.2.2,← heq]
    rfl
  · exact h.1.1.of_not_gone (h.2 heq)

theorem pushScannedDirectories_safe (directories : List LocalDirectoryEntry)
    (plan : LiveScanPlan) :
    Safe env (GuardedWith canonical (Scanning plan))
      (LiveScanPlan.pushScannedDirectories (m := Engine)
        (fun path => SyncEngine.perform (.isDir path)) SyncEngine.setScanPlan directories plan)
      fun plan' => GuardedWith canonical (Scanning plan') := by
  induction directories generalizing plan with
  | nil => exact TryTriple.pure fun _ h => h
  | cons directory directories ih =>
    have hpush : Safe env (GuardedWith canonical (Scanning plan))
        (LiveScanPlan.pushScannedDirectory (m := Engine)
          (fun path => SyncEngine.perform (.isDir path)) plan directory)
        fun plan' => GuardedIf canonical (Scanning plan)
          (plan'.deletedSubtrees ≠ plan.deletedSubtrees) := by
      refine iteInduction (motive := fun p => Safe env _ p _)
        (fun _ => TryTriple.pure fun _ h => ⟨h,fun hn => absurd rfl hn⟩) fun _ => ?_
      refine TryTriple.bind (scannedIsDir_safe directory.localPath) fun isDir => ?_
      exact iteInduction (motive := fun p => Safe env _ p _)
        (fun _ => TryTriple.pure fun _ h => ⟨h.1,fun hn => absurd rfl hn⟩)
        fun hf => TryTriple.pure fun _ h => ⟨h.1,fun _ => h.2 (by simpa using hf)⟩
    refine TryTriple.bind hpush fun plan' => ?_
    exact TryTriple.bind (setScanPlan_safe plan') fun _ => ih plan'

theorem planScan_safe (root : SyncRootConfig) (runId : Int) (baseSummary : SyncRunSummary)
    (scanReport : ScanReport) :
    Safe env (GuardedWith canonical fun scan live => scan = none ∧ live = none)
      (SyncEngine.planScan root runId baseSummary scanReport)
      fun plan => GuardedWith canonical (WithPlan plan) := by
  refine TryTriple.bind (reporting_guardedWith.recordScanFindings scanReport) fun _ => ?_
  have hscan : Safe env (GuardedWith canonical fun scan live => scan = none ∧ live = none)
      (LiveScanPlan.fromScanReport (m := Engine) (fun path => SyncEngine.perform (.isDir path))
        SyncEngine.setScanPlan (pathComponents root.localPath) scanReport)
      fun plan => GuardedWith canonical (Scanning plan) := by
    refine TryTriple.bind ((pushScannedDirectories_safe _ _).pre fun s h => ⟨h.1,h.2.2,?_⟩)
      fun plan => ?_
    · show (s.world.memory.scanPlan.map _).getD [] = []
      rw [h.2.1]
      rfl
    · exact TryTriple.pure fun _ h => h
  refine TryTriple.bind hscan fun plan => ?_
  have hset : Safe env (GuardedWith canonical (Scanning plan)) (SyncEngine.setLivePlan plan)
      fun _ => GuardedWith canonical (WithPlan plan) := by
    refine TryTriple.perform (stable_guardedWith _) (fun _ => anyGuarded_of_with) ?_
    intro s _ s' h hstep
    obtain ⟨lost,world,_,rfl,rfl⟩ := hstep
    have hlive : s.world.memory.livePlan = none := h.2.1
    refine ⟨h.1.of_registered ?_ fun plan hplan => ?_,rfl⟩
    · unfold SyncMemory.registered
      rw [hlive,Option.none_or,h.2.2]
      rfl
    · rw [hlive] at hplan
      cases hplan
  refine TryTriple.bind hset fun _ => ?_
  refine TryTriple.bind (modifySummary_keeps _) fun _ => ?_
  refine TryTriple.bind (reporting_guardedWith.recordDeletedSubtrees _ _) fun _ => ?_
  exact TryTriple.bind (quiet_guardedWith _ _).persistRootProgress fun _ =>
    TryTriple.pure fun _ h => h

/-- A planned delete is a delete of the plan in memory, whenever it is issued. -/
theorem delete_keeps {root : SyncRootConfig} {plan : LiveScanPlan} {inventory : Inventory}
    {delete : RemoteDeleteOperation}
    (hdelete : delete ∈ collectCoalescedDeleteOperations root canonical plan inventory) :
    SafeKeeps env canonical (WithPlan plan)
      (SyncEngine.client (.deletePermanently delete.remotePath)) := by
  refine Keeps.perform (stable_guardedWith _) (fun _ => anyGuarded_of_with) ?_
  intro s answer s' h hstep
  obtain ⟨lost,world,_,hperform,rfl⟩ := hstep
  have hmemory : world.memory = s.world.memory := hperform.memory_eq (by simp)
  have hlive : s.world.memory.livePlan = some plan := h.2
  have hlook := h.1.look
  refine ⟨?_,by show world.memory.livePlan = _; rw [hmemory]; exact hlive⟩
  dsimp only [observe]
  split
  · rename_i hg
    have hregistered : s.look.registeredBefore = plan.deletedSubtrees := by
      rw [← hlook.registered hg,look_world]
      unfold SyncMemory.registered
      rw [hlive]
      rfl
    refine Guarded.of_memory (s := { s.look with
      deletedAfter := s.look.deletedAfter ++ [delete.remotePath] }) { hlook with
        quiet := fun hf => by simp [hg] at hf
        deleted := fun path hp => ?_ }
      (by rw [hmemory]; simp) (by rw [hmemory]; simp)
    rcases List.mem_append.mp hp with hp | hp
    · exact hlook.deleted path hp
    · rw [List.mem_singleton] at hp
      subst hp
      refine ⟨hlook.scanned,root,plan,inventory,?_,delete,?_,rfl⟩
      · show s.look.world.memory.livePlan = some plan
        rw [look_world]
        exact hlive
      · show delete ∈ collectCoalescedDeleteOperations root s.look.canonical
          { plan with deletedSubtrees := s.look.registeredBefore } inventory
        rw [hregistered,hlook.canonical]
        exact hdelete
  · exact hlook.of_memory (by rw [hmemory]; simp) (by rw [hmemory]; simp)

theorem applyDeletes_safe (root : SyncRootConfig) (runId : Int) (baseSummary : SyncRunSummary)
    (inventory : Inventory) (inventoryFromCache : Bool) :
    SafeKeeps env canonical HasPlan
      (SyncEngine.applyDeletes root runId baseSummary canonical inventory inventoryFromCache) := by
  refine TryTriple.bind livePlan_safe fun plan => ?_
  have hk : SyncEngine.Quiet runId baseSummary
      fun ⦃α⦄ (p : Engine α) => SafeKeeps env canonical (WithPlan plan) p :=
    quiet_guardedWith runId baseSummary
  have hdeletes := SyncEngine.deleteEach_of hk root inventoryFromCache
    (collectCoalescedDeleteOperations root canonical plan inventory) fun delete hdelete =>
      SyncEngine.applyDelete_of hk root (delete_keeps hdelete)
        (keeps_calm (e := .client (.metadata delete.remotePath)) trivial)
        (SyncEngine.recordDeleted_of hk
          (fun _ => ⟨keeps_state trivial,keeps_state trivial⟩) (fun _ _ => keeps_state trivial) · delete)
        (keeps_state trivial) inventoryFromCache
  exact hdeletes.post fun _ _ => hasPlan_of_withPlan

theorem phases_hasPlan (runId : Int) (baseSummary : SyncRunSummary) :
    SyncEngine.Phases runId baseSummary
      fun ⦃α⦄ (p : Engine α) => SafeKeeps env canonical HasPlan p where
  toQuiet := quiet_guardedWith runId baseSummary
  register := registerMissing_keeps
  spawn _ := keeps_calm trivial
  joinNext := keeps_calm trivial
  dropTasks := keeps_calm trivial
  upsertDirectoryState _ := keeps_state trivial
  upsertFileState _ := keeps_state trivial
  upsertRemoteResource _ := keeps_state trivial

theorem inventoryCalls_guardedWith : SyncEngine.InventoryCalls fun ⦃α⦄
    (p : SyncEngine.Inventorying α) => Keeps (env.WatchStep LostLate) env.WatchDrift
      (GuardedWith canonical φ) (GuardedWith canonical φ) p := by
  have hcalm : ∀ e : Effect SyncMemory, Calm e → Keeps (env.WatchStep LostLate) env.WatchDrift
      (GuardedWith canonical φ) (GuardedWith canonical φ) (SyncEngine.ask e) := fun e he =>
    Keeps.perform (stable_guardedWith φ) (fun _ h => h) fun _ _ _ h hstep => h.step he hstep
  exact {
    toSequential := sequential_keeps fun _ h => h
    now := hcalm _ trivial
    status := fun _ => hcalm _ trivial
    cached := fun _ => hcalm _ trivial
    metadata := fun _ => hcalm _ trivial
    list := fun _ _ => hcalm _ trivial
    replace := fun _ _ => hcalm _ trivial
    setStatus := fun _ => hcalm _ trivial }

theorem executeRoot_safe (ext : Externals) (config : AppConfig) (root : SyncRootConfig)
    (runId : Int) (baseSummary : SyncRunSummary) (options : ScanOptions)
    (availableRemoteBytes : Option Nat) (forceRemoteRescan : Bool) :
    Safe env (GuardedWith canonical fun scan live => scan = none ∧ live = none)
      (SyncEngine.executeRoot ext config root runId baseSummary options canonical
        availableRemoteBytes forceRemoteRescan) fun _ => AnyGuarded := by
  have hk : ∀ φ, SyncEngine.Quiet runId baseSummary
      fun ⦃α⦄ (p : Engine α) => SafeKeeps env canonical φ p :=
    fun _ => quiet_guardedWith runId baseSummary
  have hscan : SafeKeeps env canonical (fun scan live => scan = none ∧ live = none)
      (SyncEngine.scanRootWithRepository options (SyncEngine.scanRootOf root canonical)) := by
    refine (hk _).bind (keeps_calm trivial) fun answer => ?_
    cases answer with
    | ok previousStates => exact keeps_calm trivial
    | error error => exact (hk _).pure _
  refine TryTriple.bind hscan fun answer => ?_
  cases answer with
  | error error =>
    exact ((hk _).bind ((hk _).failRootWith _ root _ _ _) fun _ => (hk _).pure _).post
      fun _ _ => anyGuarded_of_with
  | ok scanReport =>
    refine TryTriple.bind (planScan_safe root runId baseSummary scanReport) fun plan => ?_
    refine TryTriple.pre (P := GuardedWith canonical HasPlan) ?_ fun _ => hasPlan_of_withPlan
    refine TryTriple.post (Q := fun _ => GuardedWith canonical HasPlan) ?_
      fun _ _ => anyGuarded_of_with
    change SafeKeeps env canonical HasPlan _
    split
    · exact (hk _).bind ((hk _).failRootWith _ root _ _ _) fun _ => (hk _).pure _
    · have hinventory : Keeps (env.WatchStep LostLate) env.WatchDrift (GuardedWith canonical HasPlan)
          (GuardedWith canonical HasPlan)
          (SyncEngine.remoteInventory config root canonical plan forceRemoteRescan) :=
        SyncEngine.remoteInventory_of inventoryCalls_guardedWith config root canonical plan
          forceRemoteRescan
      refine (hk _).bind (Keeps.catch hinventory fun _ => anyGuarded_of_with) fun answer => ?_
      exact SyncEngine.executeInventory_of (hk _) ext config root
        (fun _ => keeps_state trivial)
        (fun snapshot => SyncEngine.applyPlan_of (hk _) config root
          ((phases_hasPlan runId baseSummary).applyCreateDirectories config root _)
          ((phases_hasPlan runId baseSummary).applyUploads config root _ fun _ _ => modifySummary_keeps _)
          (applyDeletes_safe root runId baseSummary _ _) scanReport)
        (fun f _ => modifyReport_keeps f) availableRemoteBytes answer

theorem any_of_safeKeeps {α : Type} {p : Engine α}
    (h : ∀ canonical, SafeKeeps env canonical (fun _ _ => True) p) :
    Safe env AnyGuarded p fun _ => AnyGuarded := by
  have hany := TryTriple.exists_pre fun canonical =>
    (h canonical).post fun _ _ => anyGuarded_of_with
  exact hany.pre fun s ⟨canonical,hg⟩ => ⟨canonical,hg,trivial⟩

theorem stable_anyGuarded : Stable env.WatchDrift (AnyGuarded (ρ := ρ)) := by
  rintro s s' ⟨canonical,h⟩ hdrift
  exact ⟨canonical,(stable_guardedWith (fun _ _ => True) s s' ⟨h,trivial⟩ hdrift).1⟩

/-- The call that announces a root starts a new watch. -/
theorem upsertSyncRoot_safe (id localPath remoteRoot : Str) (enabled : Bool) :
    Safe env AnyGuarded
      (SyncEngine.state (.upsertSyncRoot id localPath remoteRoot canonical enabled))
      fun _ => GuardedIf canonical (fun _ _ => True) True := by
  have hstart : Safe env AnyGuarded
      (SyncEngine.perform (.state (.upsertSyncRoot id localPath remoteRoot canonical enabled)))
      fun _ => GuardedIf canonical (fun _ _ => True) True := by
    refine TryTriple.perform stable_anyGuarded (fun _ h => h) ?_
    intro s answer s' _ hstep
    obtain ⟨lost,world,_,_,rfl⟩ := hstep
    refine ⟨⟨{ registered := ?_, deleted := ?_, quiet := ?_, checked := ?_, scanned := rfl
               canonical := rfl },trivial⟩,fun _ => rfl⟩
    · exact fun hg => by simp [observe] at hg
    · exact fun path hp => by simp [observe] at hp
    · exact fun _ => rfl
    · exact fun hg => by simp [observe] at hg
  refine TryTriple.bind hstart fun answer => ?_
  cases answer with
  | ok _ => exact TryTriple.pure fun _ h => h
  | error error => exact TryTriple.throw fun _ h => anyGuarded_of_with h.1

theorem startRoot_safe (root : SyncRootConfig) :
    Safe env (GuardedIf canonical (fun _ _ => True) True)
      (SyncEngine.perform (.updateMemory fun memory => { memory with
        rootSummary := SyncEngine.initialRootSummary root canonical
        scanPlan := none, livePlan := none }))
      fun _ => GuardedWith canonical fun scan live => scan = none ∧ live = none := by
  refine TryTriple.perform (stable_guardedIf _) (fun _ h => anyGuarded_of_with h.1) ?_
  intro s _ s' h hstep
  obtain ⟨lost,world,_,rfl,rfl⟩ := hstep
  exact ⟨h.1.1.of_not_gone (h.2 trivial),rfl,rfl⟩

theorem executeRunRoot_safe (ext : Externals) (config : AppConfig) (root : SyncRootConfig)
    (runId : Int) (options : ScanOptions) (availableRemoteBytes : Option Nat)
    (forceRemoteRescan : Bool) :
    Safe env AnyGuarded (SyncEngine.executeRunRoot ext config root runId options
      availableRemoteBytes forceRemoteRescan) fun _ => AnyGuarded := by
  have hk : ∀ canonical φ,
      SyncEngine.Reporting fun ⦃α⦄ (p : Engine α) => SafeKeeps env canonical φ p :=
    fun _ _ => reporting_guardedWith
  unfold SyncEngine.executeRunRoot
  split
  · exact TryTriple.throw fun _ h => h
  · rename_i canonical _
    refine TryTriple.bind (upsertSyncRoot_safe _ _ _ _) fun _ => ?_
    refine TryTriple.bind (startRoot_safe root) fun _ => ?_
    refine TryTriple.bind (isDir_safe _) fun isDir => ?_
    refine iteInduction (motive := fun p => Safe env _ p _) (fun _ => ?_) fun _ => ?_
    · refine TryTriple.post ((hk canonical _).bind
        (SyncEngine.recordMissingRoot_of (hk canonical _) root modifySummary_keeps) fun _ => ?_)
        fun _ _ => anyGuarded_of_with
      exact (hk canonical _).bind (SyncEngine.finishRootSummary_of (hk canonical _) modifyReport_keeps)
        fun _ => (hk canonical _).pure _
    · refine TryTriple.bind (hk canonical _).readMemory fun before => ?_
      refine TryTriple.bind (executeRoot_safe ext config root runId _ options _ _) fun result => ?_
      refine any_of_safeKeeps fun canonical => ?_
      refine (hk canonical _).bind (SyncEngine.finishRootSummary_of (hk canonical _) modifyReport_keeps) fun _ => ?_
      refine iteInduction (motive := fun p => SafeKeeps env canonical _ p)
        (fun _ => (hk canonical _).pure _) fun _ => ?_
      exact (hk canonical _).bind (hk canonical _).isCancelled fun _ => (hk canonical _).pure _

theorem executeRoots_safe (ext : Externals) (config : AppConfig) (runId : Int)
    (options : ScanOptions) (forceRemoteRescan : Bool) (roots : List SyncRootConfig)
    (availableRemoteBytes : Option Nat) :
    Safe env AnyGuarded (SyncEngine.executeRoots ext config runId options forceRemoteRescan roots
      availableRemoteBytes) fun _ => AnyGuarded := by
  induction roots generalizing availableRemoteBytes with
  | nil => exact TryTriple.pure fun _ h => h
  | cons root roots ih =>
    refine TryTriple.bind (any_of_safeKeeps fun _ => reporting_guardedWith.isCancelled)
      fun cancelled => ?_
    refine iteInduction (motive := fun p => Safe env _ p _)
      (fun _ => any_of_safeKeeps fun _ => modifyReport_keeps _) fun _ => ?_
    refine TryTriple.bind (executeRunRoot_safe ext config root runId options _ _) fun next => ?_
    exact iteInduction (motive := fun p => Safe env _ p _) (fun _ => ih _)
      fun _ => TryTriple.pure fun _ h => h

theorem executeRun_safe (ext : Externals) (config : AppConfig) (runId : Int)
    (forceRemoteRescan : Bool) :
    Safe env AnyGuarded (SyncEngine.executeRun ext config runId forceRemoteRescan)
      fun _ => AnyGuarded := by
  refine TryTriple.bind (any_of_safeKeeps fun canonical => ?_)
    fun available => executeRoots_safe ext config runId _ _ _ available
  have hk : SyncEngine.Reporting
      fun ⦃α⦄ (p : Engine α) => SafeKeeps env canonical (fun _ _ => True) p :=
    reporting_guardedWith
  refine hk.bind (keeps_calm trivial) fun answer => ?_
  cases answer with
  | ok quota => exact hk.pure _
  | error error => exact hk.bind (modifyReport_keeps _) fun _ => hk.pure _

end Runs

/-- A root that is lost late is protected, at every point of every run. -/
theorem protected_of_lostLate {ρ : Type} (env : Environment ρ) (config : AppConfig) (runId : Int)
    (forceRemoteRescan : Bool) (world : World ρ SyncMemory)
    {result : Option (Except SyncError Unit)} {s : RootWatch ρ}
    (run : Exec (env.WatchStep LostLate) env.WatchDrift
      (SyncEngine.executeRun env.ext config runId forceRemoteRescan).run { world } result s) :
    s.Protected := by
  have hstart : AnyGuarded ({ world } : RootWatch ρ) :=
    ⟨[],{ registered := fun h => by simp at h, deleted := fun _ h => by simp at h
          quiet := fun _ => rfl, checked := fun h => by simp at h, scanned := rfl
          canonical := rfl }⟩
  have hend := executeRun_safe env.ext config runId forceRemoteRescan _ _ _ hstart run
  have hguarded : s.AnyGuarded := by
    match result with
    | none => exact hend
    | some (.ok _) => exact hend
    | some (.error _) => exact hend
  obtain ⟨_,hguarded⟩ := hguarded
  exact hguarded.toProtected

end RootWatch

namespace RootWatch

section Answers

variable (ext : Externals) (oracle : ScanOracle) (quota : QuotaInfo)
  (disturb : Effect SyncMemory → LocalTree → LocalTree) (s : RootWatch RemoteDisk)

/-- The watch when a step is answered; `disturb` is what happens to the disk before. -/
def settled (e : Effect SyncMemory) : RootWatch RemoteDisk :=
  { s with world := { s.world with disk := disturb e s.world.disk }.settle (mockResponder quota) e }

/-- A watched step in the world of the mock client. -/
def answer (e : Effect SyncMemory) : e.Answer × RootWatch RemoteDisk :=
  let next := { s.world with disk := disturb e s.world.disk }.answer (mockResponder quota) ext
    oracle e
  (next.1,{ (s.settled quota disturb e).observe false e next.1 with world := next.2 })

variable {ext quota disturb} {diskStep : LocalTree → LocalTree → Prop}
  {allowed : RootWatch RemoteDisk → Bool → Effect SyncMemory → Prop}

theorem answer_step {e : Effect SyncMemory}
    (hdisturb : ∀ disk, disturb e disk = disk ∨ diskStep disk (disturb e disk))
    (hallowed : allowed (s.settled quota disturb e) false e) :
    ∃ s₁, Relation.ReflTransGen (mockEnvironment ext quota diskStep).WatchDrift s s₁ ∧
      (mockEnvironment ext quota diskStep).WatchStep allowed s₁ e
        (s.answer ext oracle quota disturb e).1 (s.answer ext oracle quota disturb e).2 := by
  have hadmits := mockEnvironment_admits ext quota diskStep
  have hlift : ∀ w w', Relation.ReflTransGen (mockEnvironment ext quota diskStep).Drift w w' →
      Relation.ReflTransGen (mockEnvironment ext quota diskStep).WatchDrift
        { s with world := w } { s with world := w' } := by
    intro w w' h
    refine h.lift (fun w => { s with world := w }) ?_
    exact fun a b hab => ⟨b,hab,rfl⟩
  refine ⟨s.settled quota disturb e,?_,false,_,hallowed,World.answer_performs oracle _ hadmits e,rfl⟩
  refine (hlift s.world { s.world with disk := disturb e s.world.disk } ?_).trans
    (hlift _ _ (World.drift_settle _ hadmits e))
  rcases hdisturb s.world.disk with hsame | hstep
  · rw [hsame]
  · exact .single (.disk hstep)

theorem exec_answer (hdisturb : ∀ e disk, disturb e disk = disk ∨ diskStep disk (disturb e disk))
    {α : Type} (p : Prog (Effect SyncMemory) Effect.Answer α) (s : RootWatch RemoteDisk) :
    Exec ((mockEnvironment ext quota diskStep).WatchStep fun _ _ _ => True)
      (mockEnvironment ext quota diskStep).WatchDrift p s
      (some (runWith (RootWatch.answer ext oracle quota disturb) p s).1)
      (runWith (RootWatch.answer ext oracle quota disturb) p s).2 :=
  exec_runWith (J := fun _ => True)
    (fun s e _ => ⟨s.answer_step oracle (hdisturb e) trivial,trivial⟩) p s trivial

variable (quota disturb) in
/-- The step meets the condition. -/
def lateCheck (s : RootWatch RemoteDisk) (e : Effect SyncMemory) (_ : e.Answer) : Bool :=
  decide ((s.settled quota disturb e).LostLate false e)

/-- Such a run whose steps all meet the condition. -/
theorem exec_lateCheck
    (hdisturb : ∀ e disk, disturb e disk = disk ∨ diskStep disk (disturb e disk)) {α : Type}
    {p : Prog (Effect SyncMemory) Effect.Answer α} {s s' : RootWatch RemoteDisk} {a : α}
    (hrun : runChecked (RootWatch.answer ext oracle quota disturb) (lateCheck quota disturb) p s =
      some (a,s')) :
    Exec ((mockEnvironment ext quota diskStep).WatchStep LostLate)
      (mockEnvironment ext quota diskStep).WatchDrift p s (some a) s' :=
  exec_runChecked (fun s e hc => s.answer_step oracle (hdisturb e) (of_decide_eq_true hc)) hrun

end Answers

end RootWatch

section Unmounted

/-! The root is unmounted between the scan and the check before an upload. -/

private def unmountedConfig : AppConfig :=
  { defaultConfig with
    roots := [{ id := "r".toList, name := "r".toList, enabled := true, localPath := "/r".toList }] }

private def unmountedStart (disk : LocalTree) (resources : List ResourceMetadata) :
    RootWatch RemoteDisk where
  world := {
    disk
    remote := { resources := Inventory.ofResources resources }
    repository := (({} : Repository).beginRun .cli).2
    tasks := []
    cancelled := false
    now := 0
    memory := { report := { runId := 1 } } }

/-- The root goes when the directory check asks for the path. -/
private def unmount (lastSeen : LocalPath) : Effect SyncMemory → LocalTree → LocalTree
  | .isDir path, disk => if path = lastSeen then LocalTree.empty else disk
  | _, disk => disk

private theorem unmount_or (lastSeen : LocalPath) (e : Effect SyncMemory) (disk : LocalTree) :
    unmount lastSeen e disk = disk ∨ unmount lastSeen e disk = LocalTree.empty := by
  unfold unmount
  split
  · split
    · exact Or.inr rfl
    · exact Or.inl rfl
  · exact Or.inl rfl

private def mockOracle : ScanOracle := ⟨id,id,fun _ => [],fun _ => []⟩

private def mountedDisk : LocalTree where
  items := [
    { components := ["r".toList], fileType := .dir, sizeBytes_lt := emptySize_lt },
    { components := ["r".toList,"a".toList], fileType := .dir, sizeBytes_lt := emptySize_lt },
    { components := ["r".toList,"a".toList,"f".toList], fileType := .file
      sizeBytes_lt := emptySize_lt }]
  names_ne := by decide
  nodup := by decide
  closed := by decide +kernel

private def nestedStart : RootWatch RemoteDisk :=
  unmountedStart mountedDisk [.ofDirectory "disk:/Backup/r".toList,
    .ofDirectory "disk:/Backup/r/a".toList]

private def nestedFile : LocalPath := ["r".toList,"a".toList,"f".toList]

private def unmountedRun : RootWatch RemoteDisk :=
  (runWith (RootWatch.answer asciiExternals mockOracle ⟨none,none⟩ (unmount nestedFile))
    (SyncEngine.executeRun asciiExternals unmountedConfig 1 false).run nestedStart).2

theorem lostRoot_unprotected : ¬ ∀ (env : Environment RemoteDisk)
    (accepted : AcceptedConfig env.ext) (runId : Int) (forceRemoteRescan : Bool)
    (world : World RemoteDisk SyncMemory) (result : Option (Except SyncError Unit))
    (s : RootWatch RemoteDisk),
    Exec (env.WatchStep fun _ _ _ => True) env.WatchDrift
      (SyncEngine.executeRun env.ext accepted.config runId forceRemoteRescan).run { world }
      result s → s.Protected := by
  intro h
  have hvalid : (validateConfig asciiExternals unmountedConfig).isValid = true := by decide +kernel
  have hrun := h (mockEnvironment asciiExternals ⟨none,none⟩ fun _ disk => disk = LocalTree.empty)
    ⟨unmountedConfig,hvalid⟩ 1 false nestedStart.world _ _
    (RootWatch.exec_answer mockOracle (unmount_or nestedFile) _ _)
  have hprotected : unmountedRun.Protected := hrun
  have hgone : unmountedRun.gone = true := by decide +kernel
  have hdifferent : unmountedRun.world.memory.registered ≠ unmountedRun.registeredBefore := by
    decide +kernel
  exact hdifferent (hprotected.registered hgone)

private def plainDisk : LocalTree where
  items := [
    { components := ["r".toList], fileType := .dir, sizeBytes_lt := emptySize_lt },
    { components := ["r".toList,"f".toList], fileType := .file, sizeBytes_lt := emptySize_lt }]
  names_ne := by decide
  nodup := by decide
  closed := by decide +kernel

private def plainStart : RootWatch RemoteDisk :=
  unmountedStart plainDisk [.ofDirectory "disk:/Backup/r".toList,
    .ofFile "disk:/Backup/r/old".toList 1]

/-- The root goes before the check of a file right below it: nothing is registered, and only what
the scan had left to delete is deleted. -/
theorem lateRoot_protected : ∃ result s,
    runChecked (RootWatch.answer asciiExternals mockOracle ⟨none,none⟩
        (unmount ["r".toList,"f".toList]))
      (RootWatch.lateCheck ⟨none,none⟩ (unmount ["r".toList,"f".toList]))
      (SyncEngine.executeRun asciiExternals unmountedConfig 1 false).run plainStart =
        some (result,s) ∧
      s.gone = true ∧ s.deletedAfter = ["disk:/Backup/r/old".toList] ∧ s.Protected := by
  have hruns : (runChecked (RootWatch.answer asciiExternals mockOracle ⟨none,none⟩
        (unmount ["r".toList,"f".toList]))
      (RootWatch.lateCheck ⟨none,none⟩ (unmount ["r".toList,"f".toList]))
      (SyncEngine.executeRun asciiExternals unmountedConfig 1 false).run plainStart).any
        (fun run => run.2.gone && run.2.deletedAfter == ["disk:/Backup/r/old".toList]) = true := by
    decide +kernel
  obtain ⟨⟨result,s⟩,hrun,hlate⟩ := (Option.any_eq_true ..).mp hruns
  obtain ⟨hgone,hdeleted⟩ := Bool.and_eq_true_iff.mp hlate
  exact ⟨result,s,hrun,hgone,eq_of_beq hdeleted,
    RootWatch.protected_of_lostLate (mockEnvironment asciiExternals ⟨none,none⟩
      fun _ disk => disk = LocalTree.empty) unmountedConfig 1 false plainStart.world
      (RootWatch.exec_lateCheck mockOracle (unmount_or _) hrun)⟩

end Unmounted

end YaDiskSync
