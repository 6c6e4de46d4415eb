import YaDiskSync.Asks
import YaDiskSync.MigrationWork
import YaDiskSync.ParentExistence

/-! On a strict remote of which fresh inventories tell the truth, a migration makes a directory
before it makes anything in it or moves anything there. -/
namespace YaDiskSync

open Prog
open SepPath

section Paths

variable {c q legacy path source target : Str}

theorem pathSegments_append (s t : Str) :
    pathSegments (s ++ slash :: t) = pathSegments s ++ pathSegments t := by
  rw [pathSegments,List.splitOn_append_cons_self,List.filter_append,pathSegments,pathSegments]

theorem pathSegments_of_forall {t : Str} (h : ∀ x ∈ t, x = slash) : pathSegments t = [] := by
  induction t with
  | nil => rfl
  | cons x t ih =>
    rw [h x List.mem_cons_self,pathSegments_cons_slash]
    exact ih fun y hy => h y (List.mem_cons_of_mem _ hy)

theorem pathSegments_trimEndMatches (path : Str) :
    pathSegments (trimEndMatches slash path) = pathSegments path := by
  have hsplit : trimEndMatches slash path ++ path.rtakeWhile (· == slash) = path := by
    rw [trimEndMatches]
    exact List.rdropWhile_append_rtakeWhile
  have hall : ∀ x ∈ path.rtakeWhile (· == slash), x = slash := by
    intro x hx
    simpa using List.mem_rtakeWhile_imp hx
  cases hrest : path.rtakeWhile (· == slash) with
  | nil => rw [hrest,List.append_nil] at hsplit; rw [hsplit]
  | cons x rest =>
    rw [hrest] at hsplit hall
    have hx : x = slash := hall x List.mem_cons_self
    nth_rewrite 2 [← hsplit]
    rw [hx,pathSegments_append,
      pathSegments_of_forall fun y hy => hall y (List.mem_cons_of_mem _ hy),List.append_nil]

theorem isPrefix_joinRemotePath (legacy relativePath : Str) :
    pathSegments legacy <+: pathSegments (joinRemotePath legacy relativePath) := by
  unfold joinRemotePath
  split
  · exact List.prefix_rfl
  · rw [pathSegments_append,pathSegments_trimEndMatches]
    exact List.prefix_append _ _

theorem pathSegments_intercalate {segments : List Str}
    (h : ∀ segment ∈ segments, slash ∉ segment ∧ segment ≠ []) :
    pathSegments ([slash].intercalate segments) = segments := by
  by_cases hne : segments = []
  · subst hne
    rfl
  · rw [pathSegments,List.splitOn_intercalate slash (fun x hx => (h x hx).1) hne]
    refine List.filter_eq_self.mpr fun segment hs => ?_
    simpa using (h segment hs).2

/-- The paths above one, by how many of its segments they have. -/
private theorem parentRemotePaths_eq {body : Str} :
    parentRemotePaths (remotePrefix ++ body) =
      (List.range' 1 ((pathSegments body).length-1)).map fun count =>
        remotePrefix ++ [slash].intercalate ((pathSegments body).take count) := by
  have hsegments : (body.splitOn slash).filter (· ≠ []) = pathSegments body := by
    refine List.filter_congr fun segment _ => ?_
    cases segment <;> rfl
  rw [parentRemotePaths,stripPrefix_append]
  dsimp only
  rw [hsegments,List.range_eq_range',List.tail_range']

private theorem segments_take {body : Str} (count : Nat) :
    pathSegments ([slash].intercalate ((pathSegments body).take count)) =
      (pathSegments body).take count := by
  refine pathSegments_intercalate fun segment hs => ?_
  have hs := List.take_subset _ _ hs
  exact ⟨slash_notMem_of_mem_pathSegments hs,by simpa using (List.mem_filter.mp hs).2⟩

theorem exists_body (h : parentRemotePaths path ≠ []) : ∃ body, path = remotePrefix ++ body := by
  unfold parentRemotePaths at h
  cases hbody : stripPrefix remotePrefix path with
  | none => rw [hbody] at h; exact absurd rfl h
  | some body => exact ⟨body,stripPrefix_eq_some.mp hbody⟩

/-- What is above a path above another are the paths that come before it. -/
theorem parentRemotePaths_of_append {before after : List Str}
    (h : parentRemotePaths path = before ++ q :: after) : parentRemotePaths q = before := by
  have hne : parentRemotePaths path ≠ [] := by simp [h]
  obtain ⟨body,rfl⟩ := exists_body hne
  rw [parentRemotePaths_eq] at h
  set segments := pathSegments body with hsegments
  obtain ⟨counts,rest,hcounts,hbefore,hrest⟩ := List.map_eq_append_iff.mp h
  obtain ⟨count,others,rfl,hq,-⟩ := List.map_eq_cons_iff.mp hrest
  obtain ⟨k,hk,hleft,hright⟩ := List.range'_eq_append_iff.mp hcounts
  obtain ⟨hcount,hpos,-⟩ := List.range'_eq_cons_iff.mp hright.symm
  rw [← hq,parentRemotePaths_eq,segments_take,← hsegments,← hbefore,hleft,List.length_take]
  have hlength : min count segments.length-1 = k := by omega
  rw [hlength]
  refine List.map_congr_left fun other ho => ?_
  have hother := List.mem_range'_1.mp ho
  rw [List.take_take,min_eq_left (by omega)]

/-- A path above another has the first of its segments. -/
theorem isPrefix_of_mem_parents (h : q ∈ parentRemotePaths path) :
    pathSegments q <+: pathSegments path := by
  have hne : parentRemotePaths path ≠ [] := List.ne_nil_of_mem h
  obtain ⟨body,rfl⟩ := exists_body hne
  rw [parentRemotePaths_eq] at h
  obtain ⟨count,-,rfl⟩ := List.mem_map.mp h
  have hdisk : remotePrefix = "disk:".toList ++ slash :: [] := rfl
  have hsplit : ∀ rest, pathSegments (remotePrefix ++ rest) =
      pathSegments "disk:".toList ++ pathSegments rest := fun rest => by
    rw [hdisk,List.append_assoc,List.cons_append,List.nil_append,pathSegments_append]
  rw [hsplit,hsplit,segments_take]
  exact (List.prefix_append_right_inj _).mpr (List.take_prefix _ _)

/-- Paths on the way to `c` and those below it. -/
def Along (c q : Str) : Prop :=
  pathSegments q <+: pathSegments c ∨ pathSegments c <+: pathSegments q

/-- Neither is the other or lies below it. -/
def Apart (c legacy : Str) : Prop :=
  ¬ pathSegments c <+: pathSegments legacy ∧ ¬ pathSegments legacy <+: pathSegments c

theorem Along.parent (h : Along c target) (hq : q ∈ parentRemotePaths target) : Along c q := by
  have hq := isPrefix_of_mem_parents hq
  rcases h with h | h
  · exact Or.inl (hq.trans h)
  · exact List.prefix_or_prefix_of_prefix hq h

theorem Apart.not_isPrefix (h : Apart c legacy)
    (hsource : pathSegments legacy <+: pathSegments source) (hq : Along c q) :
    ¬ pathSegments source <+: pathSegments q := by
  intro hbelow
  have hbelow := hsource.trans hbelow
  rcases hq with hq | hq
  · exact h.2 (hbelow.trans hq)
  · rcases List.prefix_or_prefix_of_prefix hbelow hq with hle | hle
    · exact h.2 hle
    · exact h.1 hle

end Paths

/-- What a step is about to make, or to move something to. -/
def Effect.target {μ : Type} : Effect μ → Option Str
  | .client (.createDirectory path) => some path
  | .client (.uploadSource path _) => some path
  | .client (.moveResource _ target _) => some target
  | .spawn task => task.call.makes.map Prod.fst
  | _ => none

/-- A step that makes or moves something has a directory for it. -/
def TargetHoused {μ : Type} (e : Effect μ) (s : Traced RemoteDisk μ) : Prop :=
  ∀ target, e.target = some target → s.world.remote.hasParent target = true

/-- A move takes no directory away but what it moves. -/
def ConfinedMoves (env : Environment RemoteDisk) : Prop :=
  ∀ {tree remote source target overwrite answer remote'},
    env.client tree remote (.moveResource source target overwrite) answer remote' → ∀ q : Str,
      ¬ pathSegments source <+: pathSegments q → remote.isDirectory q = true →
        remote'.isDirectory q = true

/-- A live plan below `c` that has the directory of each of its files. -/
structure HousedPlan (c : Str) (plan : LiveScanPlan) : Prop where
  below : ∀ directory ∈ plan.directories, pathSegments c <+: pathSegments directory.remotePath
  housed : ∀ file ∈ plan.files, ∃ parent, (parentRemotePaths file.remotePath).getLast? = some parent ∧
    (parent = c ∨ ∃ directory ∈ plan.directories, directory.remotePath = parent)

/-- A resource that the remote does hold, at a path or below it. -/
def RemoteDisk.Lists (disk : RemoteDisk) (path : Str) (resource : ResourceMetadata) : Prop :=
  pathSegments path <+: pathSegments resource.path ∧
    disk.resources.holds resource.path resource.resourceType = true

theorem HousedPlan.along {c : Str} {plan : LiveScanPlan} (h : HousedPlan c plan)
    {file : LocalFileEntry} (hf : file ∈ plan.files) : Along c file.remotePath := by
  obtain ⟨parent,hlast,hplace⟩ := h.housed file hf
  have habove := isPrefix_of_mem_parents (List.mem_of_getLast? hlast)
  rcases hplace with rfl | ⟨directory,hd,rfl⟩
  · exact Or.inr habove
  · exact Or.inr ((h.below directory hd).trans habove)

namespace MigrationEngine

/-- Steps of runs that take no inventory from the cache and none that is not true of the remote,
and that go on from there with a closed plan. -/
def FreshStep (s : Traced RemoteDisk MigrationMemory) :
    (e : Effect MigrationMemory) → e.Answer → Prop
  | .client (.metadata path), answer => ∀ resource, answer = .ok resource →
    s.world.remote.Lists path resource
  | .client (.listRecursive path _), answer => ∀ listed, answer = .ok listed →
    ∀ resource ∈ listed, s.world.remote.Lists path resource
  | .state (.listRemoteResourcesForRoot _), _ => False
  | .state (.replaceRemoteResourcesForRoot ..), _ => ∀ plan, s.world.memory.livePlan = some plan →
    HousedPlan s.world.memory.rootSummary.canonicalRemotePath plan
  | _, _ => True

/-- What the phases of a root rely on is the same. -/
structure SameWork (s s' : Traced RemoteDisk MigrationMemory) : Prop where
  remote : s'.world.remote = s.world.remote
  tasks : s'.world.tasks = s.world.tasks
  cancelled : s'.world.cancelled = s.world.cancelled
  plan : s'.world.memory.livePlan = s.world.memory.livePlan
  batch : s'.world.memory.uploadBatch = s.world.memory.uploadBatch
  sets : s'.world.memory.remoteSets = s.world.memory.remoteSets
  home : s'.world.memory.rootSummary.canonicalRemotePath =
    s.world.memory.rootSummary.canonicalRemotePath

/-- Changes of the variables that the phases of a root do not rely on. -/
def KeepsSame (f : MigrationMemory → MigrationMemory) : Prop :=
  ∀ memory, (f memory).livePlan = memory.livePlan ∧
    (f memory).uploadBatch = memory.uploadBatch ∧ (f memory).remoteSets = memory.remoteSets ∧
      (f memory).rootSummary.canonicalRemotePath = memory.rootSummary.canonicalRemotePath

/-- Steps that change nothing of it. -/
def isSteady (e : Effect MigrationMemory) : Bool :=
  isCalm e && match e with
    | .client call => call.isRead
    | _ => true

theorem isSteady_of_isReading {e : Effect MigrationMemory} (h : isReading e = true) :
    isSteady e = true := by
  simp only [isReading,Bool.and_eq_true] at h
  simp only [isSteady,Bool.and_eq_true]
  exact ⟨isCalm_of_isSparing h.1,h.2⟩

section Steady

variable {env : Environment RemoteDisk} {s s' : Traced RemoteDisk MigrationMemory}

theorem sameWork_of_isSteady (henv : StrictRemote env) {e : Effect MigrationMemory}
    {answer : e.Answer} (he : isSteady e = true) (hstep : env.TraceStep FreshStep s e answer s') :
    SameWork s s' := by
  simp only [isSteady,Bool.and_eq_true] at he
  have hmemory : s'.world.memory = s.world.memory :=
    hstep.2.1.memory_eq fun f hf => by rw [hf] at he; cases he.1
  refine ⟨?_,hstep.2.1.tasks_eq ?_,hstep.2.1.outside_eq.2.1,by rw [hmemory],by rw [hmemory],
    by rw [hmemory],by rw [hmemory]⟩
  · cases e with
    | client call =>
      obtain ⟨remote,hclient,hw⟩ := hstep.2.1
      rw [hw]
      exact henv.read hclient he.2
    | _ => exact hstep.2.1.remote_eq (by simp)
  · cases e <;> first | rfl | cases he.1

theorem sameWork_of_keepsSame {f : MigrationMemory → MigrationMemory} {answer : Unit}
    (hf : KeepsSame f) (hstep : env.TraceStep FreshStep s (.updateMemory f) answer s') :
    SameWork s s' := by
  have hw : s'.world = { s.world with memory := f s.world.memory } := hstep.2.1
  obtain ⟨hplan,hbatch,hsets,hhome⟩ := hf s.world.memory
  exact ⟨by rw [hw],by rw [hw],by rw [hw],by rw [hw]; exact hplan,by rw [hw]; exact hbatch,
    by rw [hw]; exact hsets,by rw [hw]; exact hhome⟩

/-- No task is out. -/
def Idle (s : Traced RemoteDisk MigrationMemory) : Prop := s.world.tasks = []

/-- What a phase of a root knows: other work does not touch it, and nothing is about to be made
that has no directory. -/
structure Steady (env : Environment RemoteDisk) (B : Traced RemoteDisk MigrationMemory → Prop) :
    Prop where
  stable : Stable env.TraceDrift B
  parents : ∀ s, B s → ParentsExist s
  same : ∀ s s', SameWork s s' → B s → B s'

/-- From `P` to `Q`, or to `D` by an error, while whatever is made or moved has its directory. -/
abbrev HousesTo (env : Environment RemoteDisk) (P : Traced RemoteDisk MigrationMemory → Prop)
    {ε α : Type} (p : ExceptT ε (Prog (Effect MigrationMemory) Effect.Answer) α)
    (Q : α → Traced RemoteDisk MigrationMemory → Prop) (D : Traced RemoteDisk MigrationMemory → Prop) :
    Prop :=
  Heeds (env.TraceStep FreshStep) env.TraceDrift TargetHoused P p Q D ParentsExist

/-- The same, with nothing more known after an error. -/
abbrev Houses (env : Environment RemoteDisk) (P : Traced RemoteDisk MigrationMemory → Prop)
    {ε α : Type} (p : ExceptT ε (Prog (Effect MigrationMemory) Effect.Answer) α)
    (Q : α → Traced RemoteDisk MigrationMemory → Prop) : Prop :=
  HousesTo env P p Q ParentsExist

theorem targetHoused_of_isSteady {e : Effect MigrationMemory} (he : isSteady e = true) :
    TargetHoused e s := by
  intro target htarget
  simp only [isSteady,Bool.and_eq_true] at he
  cases e with
  | client call =>
    cases call with
    | createDirectory | uploadSource | moveResource => cases he.2
    | _ => cases htarget
  | spawn task => cases he.1
  | _ => cases htarget

/-- Without a task out nothing but a cancellation changes what a phase relies on. -/
theorem stable_of_idle {B : Traced RemoteDisk MigrationMemory → Prop}
    (hidle : ∀ s, B s → Idle s) (hsame : ∀ s s', SameWork s s' → B s → B s')
    (hcancel : ∀ s, B s → B { s with world := { s.world with cancelled := true } }) :
    Stable env.TraceDrift B := by
  intro s s' h hdrift
  cases hdrift with
  | land ht hl => exact absurd (hidle s h) (by simp [Idle,ht])
  | disk _ => exact hsame s _ ⟨rfl,rfl,rfl,rfl,rfl,rfl,rfl⟩ h
  | cancel _ => exact hcancel s h
  | tick _ => exact hsame s _ ⟨rfl,rfl,rfl,rfl,rfl,rfl,rfl⟩ h

theorem parentsExist_of_idle (h : Idle s) : ParentsExist s := by
  intro running hr
  rw [show s.world.tasks = [] from h] at hr
  cases hr

namespace Steady

variable {B : Traced RemoteDisk MigrationMemory → Prop} {ε : Type} (hb : Steady env B)
  (henv : StrictRemote env)

include hb

theorem assign {f : MigrationMemory → MigrationMemory} (hf : KeepsSame f) :
    Houses env B (perform (.updateMemory f)) fun _ => B :=
  Heeds.perform hb.stable hb.parents (fun _ _ _ htarget => nomatch htarget)
    fun s _ s' h hstep => hb.same s s' (sameWork_of_keepsSame hf hstep) h

theorem modifyReport (f : MigrationRunReport → MigrationRunReport) :
    Houses env B (modifyReport f) fun _ => B :=
  hb.assign fun _ => ⟨rfl,rfl,rfl,rfl⟩

include henv

theorem asking {D : Traced RemoteDisk MigrationMemory → Prop} {e : Effect MigrationMemory}
    (he : isSteady e = true) : HousesTo env B (asking ε e) (fun _ => B) D :=
  Heeds.perform hb.stable hb.parents (fun _ _ => targetHoused_of_isSteady he)
    fun s _ s' h hstep => hb.same s s' (sameWork_of_isSteady henv he hstep) h

/-- What reads and records, where an error may leave anything that `B` gives. -/
theorem recordingTo {D : Traced RemoteDisk MigrationMemory → Prop} (herror : ∀ s, B s → D s) :
    Recording fun ⦃α⦄ (p : Migrator α) => HousesTo env B p (fun _ => B) D where
  toSequential := Heeds.sequential herror
  reading h := Heeds.only h hb.stable hb.parents
    (fun _ he _ _ => targetHoused_of_isSteady (isSteady_of_isReading he)) fun _ he s _ s' h hstep =>
      hb.same s s' (sameWork_of_isSteady henv (isSteady_of_isReading he) hstep) h
  recordSummary f hf := by
    have hkeeps : KeepsSame fun memory => { memory with rootSummary := f memory.rootSummary } :=
      fun _ => ⟨rfl,rfl,rfl,hf _⟩
    exact Heeds.perform hb.stable hb.parents (fun _ _ _ htarget => nomatch htarget)
      fun s _ s' h hstep => hb.same s s' (sameWork_of_keepsSame hkeeps hstep) h

omit hb henv in
/-- An error that leaves `B` may be looked at. -/
theorem attempted {D : Traced RemoteDisk MigrationMemory → Prop} {α : Type} {p : Migrator α}
    (h : HousesTo env B p (fun _ => B) B) : HousesTo env B (attempt p) (fun _ => B) D :=
  h.caught.post fun result s hs => by
    cases result with
    | ok a => exact hs
    | error error => exact hs

theorem recording : Recording fun ⦃α⦄ (p : Migrator α) => Houses env B p fun _ => B :=
  hb.recordingTo henv hb.parents

theorem stateTo {D : Traced RemoteDisk MigrationMemory → Prop} (herror : ∀ s, B s → D s)
    (call : StateCall) : HousesTo env B (MigrationEngine.state call) (fun _ => B) D := by
  refine Heeds.bind (hb.asking henv rfl) fun answer => ?_
  cases answer with
  | ok result => exact Heeds.pure fun _ h => h
  | error error => exact Heeds.throw herror

theorem state (call : StateCall) : Houses env B (MigrationEngine.state call) fun _ => B :=
  hb.stateTo henv hb.parents call

/-- What is read of the variables is what they are. -/
theorem memory : Houses env B MigrationEngine.memory
    fun memory s => B s ∧ s.world.memory = memory := by
  refine Heeds.perform hb.stable hb.parents (fun _ _ _ htarget => nomatch htarget)
    fun s memory s' h hstep => ?_
  have hsame := sameWork_of_isSteady (e := .readMemory) henv rfl hstep
  obtain ⟨hanswer,hw⟩ := hstep.2.1
  exact ⟨hb.same s s' hsame h,by rw [hw,hanswer]⟩

end Steady

section Charted

variable (c : Str) (legacyRoots : List Str) (plan : LiveScanPlan)

/-- These directories exist. -/
def Built (paths : List Str) (s : Traced RemoteDisk MigrationMemory) : Prop :=
  ∀ q ∈ paths, s.world.remote.isDirectory q = true ∧ Along c q

/-- Before the uploads of a root, with these remote sets: no task is out, and the directories of the
canonical set do exist. -/
structure Surveyed (sets : RemoteSets) (s : Traced RemoteDisk MigrationMemory) : Prop where
  idle : s.world.tasks = []
  queue : s.world.memory.uploadBatch = []
  home : s.world.memory.rootSummary.canonicalRemotePath = c
  live : s.world.memory.livePlan = some plan
  roots : ∀ legacy ∈ sets.legacy, legacy.rootPath ∈ legacyRoots
  known : ∀ q, sets.canonical.holds q .directory = true →
    s.world.remote.isDirectory q = true ∧ Along c q

/-- The same with the sets in memory, and these directories built. -/
def Charted (paths : List Str) (s : Traced RemoteDisk MigrationMemory) : Prop :=
  Surveyed c legacyRoots plan s.world.memory.remoteSets s ∧ Built c paths s

variable {c legacyRoots plan} {sets : RemoteSets} {paths : List Str}
  {s s' : Traced RemoteDisk MigrationMemory}

theorem Built.same (h : Built c paths s) (hsame : SameWork s s') : Built c paths s' := by
  intro q hq
  rw [hsame.remote]
  exact h q hq

theorem Surveyed.same (h : Surveyed c legacyRoots plan sets s) (hsame : SameWork s s') :
    Surveyed c legacyRoots plan sets s' :=
  ⟨hsame.tasks.trans h.idle,hsame.batch.trans h.queue,hsame.home.trans h.home,
    hsame.plan.trans h.live,h.roots,hsame.remote ▸ h.known⟩

theorem Charted.same (h : Charted c legacyRoots plan paths s) (hsame : SameWork s s') :
    Charted c legacyRoots plan paths s' := by
  refine ⟨?_,h.2.same hsame⟩
  rw [hsame.sets]
  exact h.1.same hsame

theorem steady_surveyed {env : Environment RemoteDisk} :
    Steady env (Surveyed c legacyRoots plan sets) where
  stable := stable_of_idle (fun _ h => h.idle) (fun _ _ hsame h => h.same hsame)
    fun _ h => ⟨h.idle,h.queue,h.home,h.live,h.roots,h.known⟩
  parents _ h := parentsExist_of_idle h.idle
  same _ _ hsame h := h.same hsame

theorem steady_charted {env : Environment RemoteDisk} :
    Steady env (Charted c legacyRoots plan paths) where
  stable := stable_of_idle (fun _ h => h.1.idle) (fun _ _ hsame h => h.same hsame)
    fun _ h => ⟨⟨h.1.idle,h.1.queue,h.1.home,h.1.live,h.1.roots,h.1.known⟩,h.2⟩
  parents _ h := parentsExist_of_idle h.1.idle
  same _ _ hsame h := h.same hsame

/-- The remote may change as long as the directories stay that a phase may know of. -/
theorem Charted.of_remote (h : Charted c legacyRoots plan paths s) {remote : RemoteDisk}
    (hw : s'.world = { s.world with remote })
    (hkept : ∀ q, Along c q → s.world.remote.isDirectory q = true → remote.isDirectory q = true) :
    Charted c legacyRoots plan paths s' := by
  have hremote : s'.world.remote = remote := by rw [hw]
  have hmemory : s'.world.memory = s.world.memory := by rw [hw]
  refine ⟨⟨?_,?_,?_,?_,?_,?_⟩,?_⟩
  · rw [hw]
    exact h.1.idle
  · rw [hmemory]
    exact h.1.queue
  · rw [hmemory]
    exact h.1.home
  · rw [hmemory]
    exact h.1.live
  · rw [hmemory]
    exact h.1.roots
  · intro q hq
    rw [hmemory] at hq
    rw [hremote]
    exact ⟨hkept q (h.1.known q hq).2 (h.1.known q hq).1,(h.1.known q hq).2⟩
  · intro q hq
    rw [hremote]
    exact ⟨hkept q (h.2 q hq).2 (h.2 q hq).1,(h.2 q hq).2⟩

theorem built_nil : Built c [] s := fun _ hq => absurd hq List.not_mem_nil

theorem Built.mono {paths' : List Str} (h : Built c paths s) (hsub : paths' ⊆ paths) :
    Built c paths' s := fun q hq => h q (hsub hq)

/-- A path has a directory if the paths above it are built. -/
theorem Built.hasParent {path : Str} (h : Built c paths s)
    (hparents : parentRemotePaths path ⊆ paths) : s.world.remote.hasParent path = true := by
  unfold RemoteDisk.hasParent
  cases hlast : (parentRemotePaths path).getLast? with
  | none => rfl
  | some parent => exact (h parent (hparents (List.mem_of_getLast? hlast))).1

/-- New sets that say no more of the canonical root than is so. -/
theorem modifySets_charted {env : Environment RemoteDisk}
    {P : Traced RemoteDisk MigrationMemory → Prop} (hb : Steady env P) {f : RemoteSets → RemoteSets}
    (hf : ∀ s, P s → Surveyed c legacyRoots plan (f s.world.memory.remoteSets) s ∧ Built c paths s) :
    Houses env P (modifySets f) fun _ => Charted c legacyRoots plan paths := by
  refine Heeds.perform hb.stable hb.parents (fun _ _ _ htarget => nomatch htarget)
    fun s _ s' h hstep => ?_
  have hw : s'.world = { s.world with memory :=
    { s.world.memory with remoteSets := f s.world.memory.remoteSets } } := hstep.2.1
  obtain ⟨hset,hbuilt⟩ := hf s h
  refine ⟨⟨?_,?_,?_,?_,?_,?_⟩,?_⟩
  · rw [hw]
    exact hset.idle
  · rw [hw]
    exact hset.queue
  · rw [hw]
    exact hset.home
  · rw [hw]
    exact hset.live
  · rw [hw]
    exact hset.roots
  · rw [hw]
    exact hset.known
  · rw [Built,hw]
    exact hbuilt

variable {env : Environment RemoteDisk}

/-- A run that is not cancelled yet has built what it would have built unless cancelled. -/
theorem steady_unless (pending : List Str) : Steady env fun s =>
    Charted c legacyRoots plan paths s ∧ (s.world.cancelled = false → Built c pending s) where
  stable := stable_of_idle (fun _ h => h.1.1.idle)
    (fun _ _ hsame h => ⟨h.1.same hsame,fun hc => (h.2 (hsame.cancelled ▸ hc)).same hsame⟩)
    fun _ h => ⟨⟨⟨h.1.1.idle,h.1.1.queue,h.1.1.home,h.1.1.live,h.1.1.roots,h.1.1.known⟩,h.1.2⟩,
      fun hc => nomatch hc⟩
  parents _ h := parentsExist_of_idle h.1.1.idle
  same _ _ hsame h := ⟨h.1.same hsame,fun hc => (h.2 (hsame.cancelled ▸ hc)).same hsame⟩

variable (henv : StrictRemote env)

include henv

/-- What a cancellation answers is so, and a run that was not cancelled then has built what it would
have built unless cancelled. -/
theorem isCancelled_charted (pending : List Str) :
    Houses env (fun s => Charted c legacyRoots plan paths s ∧
        (s.world.cancelled = false → Built c pending s)) isCancelled
      fun cancelled s => Charted c legacyRoots plan paths s ∧
        (cancelled = true → s.world.cancelled = true) ∧
        (cancelled = false → Charted c legacyRoots plan (pending ++ paths) s) := by
  have hb : Steady env fun s => Charted c legacyRoots plan paths s ∧
      (s.world.cancelled = false → Built c pending s) := steady_unless pending
  refine Heeds.perform hb.stable hb.parents
    (fun _ _ _ htarget => nomatch htarget) fun s cancelled s' h hstep => ?_
  have hsame := sameWork_of_isSteady (e := .isCancelled) henv rfl hstep
  have hcharted := h.1.same hsame
  obtain ⟨hanswer,hw⟩ := hstep.2.1
  refine ⟨hcharted,fun hc => ?_,fun hc => ⟨hcharted.1,fun q hq => ?_⟩⟩
  · rw [hw,← hanswer,hc]
  · rcases List.mem_append.mp hq with hq | hq
    · exact (h.2 (by rw [← hanswer,hc])).same hsame q hq
    · exact hcharted.2 q hq

/-- The directory of a path is made where the path has one to go into. -/
theorem createDirectoryOperation_charted (runId : Int) {path : Str} (halong : Along c path)
    (hparents : parentRemotePaths path ⊆ paths) :
    Houses env (Charted c legacyRoots plan paths) (createDirectoryOperation runId path)
      fun _ => Charted c legacyRoots plan (path :: paths) := by
  have hb : Steady env (Charted c legacyRoots plan paths) := steady_charted
  have hb' : Steady env (Charted c legacyRoots plan (path :: paths)) := steady_charted
  have hcreate : Houses env (Charted c legacyRoots plan paths) (client (.createDirectory path))
      fun answer s => Charted c legacyRoots plan paths s ∧
        (answer = .ok () → s.world.remote.isDirectory path = true) := by
    refine Heeds.perform hb.stable hb.parents (fun s h target htarget => ?_)
      fun s answer s' h hstep => ?_
    · cases htarget
      exact h.2.hasParent hparents
    · obtain ⟨remote,hclient,hw⟩ := hstep.2.1
      have hfile : answer = .ok () → s.world.remote.resources.holds path .file = false := by
        intro hok
        refine Bool.eq_false_iff.mpr fun hfile => ?_
        obtain ⟨⟨error,herror⟩,-⟩ := henv.refused hclient rfl hfile
        rw [herror] at hok
        cases hok
      refine ⟨h.of_remote hw fun q _ hq => henv.holds_makes hclient rfl hq,fun hok => ?_⟩
      rw [hw]
      exact (henv.creates hclient (h.2.hasParent hparents) (hfile hok)).2
  refine Heeds.bind (hb.state henv _) fun operationId => Heeds.bind hcreate fun answer => ?_
  cases answer with
  | ok _ =>
    refine Heeds.pre (P := Charted c legacyRoots plan (path :: paths)) ?_ fun s h => ⟨h.1.1,?_⟩
    · exact Heeds.bind (hb'.state henv _) fun _ => hb'.modifyReport _
    · intro q hq
      rcases List.mem_cons.mp hq with rfl | hq
      · exact ⟨h.2 rfl,halong⟩
      · exact h.1.2 q hq
  | error error =>
    refine Heeds.pre (P := Charted c legacyRoots plan paths) ?_ fun s h => h.1
    exact Heeds.bind (hb.state henv _) fun _ =>
      Heeds.bind ((hb.recording henv).recordSummary _ fun _ => rfl) fun _ => Heeds.throw hb.parents

omit henv in
/-- A directory that was just made is added to the sets. -/
theorem insertCanonical_charted {path : Str} (hpath : path ∈ paths) :
    Houses env (Charted c legacyRoots plan paths) (insertCanonical (.ofDirectory path))
      fun _ => Charted c legacyRoots plan paths := by
  refine modifySets_charted steady_charted fun s h => ⟨⟨h.1.idle,h.1.queue,h.1.home,h.1.live,
    h.1.roots,fun q hq => ?_⟩,h.2⟩
  by_cases hq' : path = q
  · subst hq'
    exact h.2 path hpath
  · refine h.1.known q ?_
    rw [Inventory.holds] at hq ⊢
    rwa [Std.TreeMap.getElem?_insert,if_neg (by simpa [ResourceMetadata.ofDirectory] using hq')] at hq

/-- Unless the run is cancelled, all directories above a path are built. -/
theorem ensureParents_charted (runId : Int) {path : Str} (halong : Along c path)
    (before parents : List Str) (hsplit : parentRemotePaths path = before ++ parents)
    (hbefore : before ⊆ paths) :
    Houses env (Charted c legacyRoots plan paths) (ensureParents runId parents)
      fun _ s => Charted c legacyRoots plan paths s ∧
        (s.world.cancelled = false → Built c parents s) := by
  induction parents generalizing before paths with
  | nil => exact Heeds.pure fun s h => ⟨h,fun _ q hq => nomatch hq⟩
  | cons parent parents ih =>
    have hb : Steady env (Charted c legacyRoots plan paths) := steady_charted
    have habove : parent ∈ parentRemotePaths path := by simp [hsplit]
    have hparent : Along c parent := halong.parent habove
    have hrest : Houses env (Charted c legacyRoots plan (parent :: paths)) (ensureParents runId parents)
        fun _ s => Charted c legacyRoots plan paths s ∧
          (s.world.cancelled = false → Built c (parent :: parents) s) := by
      refine (ih (before ++ [parent]) (by simp [hsplit]) ?_).post fun _ s h => ?_
      · intro q hq
        rcases List.mem_append.mp hq with hq | hq
        · exact List.mem_cons_of_mem _ (hbefore hq)
        · exact List.mem_cons.mpr (Or.inl (List.mem_singleton.mp hq))
      · refine ⟨⟨h.1.1,h.1.2.mono (List.subset_cons_self _ _)⟩,fun hc q hq => ?_⟩
        rcases List.mem_cons.mp hq with rfl | hq
        · exact h.1.2 q List.mem_cons_self
        · exact h.2 hc q hq
    refine Heeds.bind ((isCancelled_charted henv []).pre fun s h => ⟨h,fun _ q hq => nomatch hq⟩)
      fun cancelled => ?_
    cases cancelled with
    | true => exact Heeds.pure fun s h => ⟨h.1,fun hc => by rw [h.2.1 rfl] at hc; cases hc⟩
    | false =>
      refine Heeds.bind ((hb.memory henv).pre fun s h => h.1) fun memory => ?_
      refine iteInduction (motive := fun p => Houses env _ p _) (fun hheld => ?_) fun _ => ?_
      · refine hrest.pre fun s h => ⟨h.1.1,fun q hq => ?_⟩
        rcases List.mem_cons.mp hq with rfl | hq
        · exact h.1.1.known q (by rw [h.2]; exact hheld)
        · exact h.1.2 q hq
      · refine Heeds.bind ((createDirectoryOperation_charted henv runId hparent ?_).pre fun s h => h.1)
          fun _ => Heeds.bind (insertCanonical_charted List.mem_cons_self) fun _ => hrest
        rw [parentRemotePaths_of_append hsplit]
        exact hbefore

theorem ensureParentDirectories_charted (runId : Int) {path : Str} (halong : Along c path) :
    Houses env (Charted c legacyRoots plan paths) (ensureParentDirectories runId path)
      fun _ s => Charted c legacyRoots plan paths s ∧
        (s.world.cancelled = false → Built c (parentRemotePaths path) s) :=
  ensureParents_charted henv runId halong [] _ rfl (List.nil_subset _)

theorem ensureDirectory_charted (runId : Int) {path : Str} (halong : Along c path) :
    Houses env (Charted c legacyRoots plan paths) (ensureDirectory runId path)
      fun _ s => Charted c legacyRoots plan paths s ∧
        (s.world.cancelled = false → Built c [path] s) := by
  have hb : Steady env (Charted c legacyRoots plan paths) := steady_charted
  refine Heeds.bind (hb.memory henv) fun memory => ?_
  refine iteInduction (motive := fun p => Houses env _ p _) (fun hheld => ?_) fun _ => ?_
  · refine Heeds.pure fun s h => ⟨h.1,fun _ q hq => ?_⟩
    rw [List.mem_singleton.mp hq]
    exact h.1.1.known path (by rw [h.2]; exact hheld)
  · refine Heeds.bind ((ensureParentDirectories_charted henv runId halong).pre fun s h => h.1)
      fun _ => Heeds.bind (isCancelled_charted henv _) fun cancelled => ?_
    cases cancelled with
    | true => exact Heeds.pure fun s h => ⟨h.1,fun hc => by rw [h.2.1 rfl] at hc; cases hc⟩
    | false =>
      refine Heeds.bind ((createDirectoryOperation_charted henv runId halong
        (List.subset_append_left _ _)).pre fun s h => h.2.2 rfl) fun _ => ?_
      refine (insertCanonical_charted List.mem_cons_self).post fun _ s h => ⟨⟨h.1,h.2.mono ?_⟩,?_⟩
      · exact List.Subset.trans (List.subset_append_right _ _) (List.subset_cons_self _ _)
      · exact fun _ => h.2.mono (by simp)

section Inventories

variable {B : Traced RemoteDisk MigrationMemory → Prop}

omit henv in
/-- As long as no task is out, more may be known of the remote. -/
theorem Steady.knowing (hb : Steady env B) (hidle : ∀ s, B s → Idle s)
    (φ : RemoteDisk → Prop) : Steady env fun s => B s ∧ φ s.world.remote where
  stable s s' h hdrift := by
    refine ⟨hb.stable s s' h.1 hdrift,?_⟩
    cases hdrift with
    | land ht hl => exact absurd (hidle s h.1) (by simp [Idle,ht])
    | _ => exact h.2
  parents s h := hb.parents s h.1
  same s s' hsame h := ⟨hb.same s s' hsame h.1,hsame.remote ▸ h.2⟩

/-- An inventory of what is at a path and below it. -/
def Tells (path : Str) (inventory : Inventory) (disk : RemoteDisk) : Prop :=
  ∀ q, inventory.holds q .directory = true →
    disk.isDirectory q = true ∧ pathSegments path <+: pathSegments q

omit henv in
theorem tells_ofResources {path : Str} {disk : RemoteDisk} {resources : List ResourceMetadata}
    (h : ∀ resource ∈ resources, disk.Lists path resource) :
    Tells path (.ofResources resources) disk := by
  intro q hq
  rw [Inventory.holds] at hq
  obtain ⟨resource,hfound,htype⟩ := (Option.any_eq_true _ _).mp hq
  rcases Inventory.getElem?_foldl_insert hfound with hnone | ⟨hmem,rfl⟩
  · simp at hnone
  · have hlists := h resource hmem
    rw [beq_iff_eq] at htype
    rw [RemoteDisk.Lists,htype] at hlists
    exact ⟨hlists.2,hlists.1⟩

/-- A fresh inventory tells what the remote holds. -/
theorem migrationInventory_tells (hb : Steady env B) (hidle : ∀ s, B s → Idle s)
    (path : Str) (prefixes : List Str) :
    HousesTo env B (migrationInventory path prefixes)
      (fun inventory s => B s ∧ Tells path inventory s.world.remote) Idle := by
  have hempty : ∀ disk, Tells path (.ofResources []) disk := fun disk =>
    tells_ofResources fun _ h => absurd h List.not_mem_nil
  have hmetadata : HousesTo env B (ask (.client (.metadata path))) (fun answer s => B s ∧
      ∀ resource, answer = .ok resource → s.world.remote.Lists path resource) Idle := by
    refine Heeds.perform hb.stable hb.parents (fun _ _ _ htarget => nomatch htarget)
      fun s answer s' h hstep => ?_
    have hsame := sameWork_of_isSteady (e := .client (.metadata path)) henv rfl hstep
    exact ⟨hb.same s s' hsame h,fun resource hanswer => hsame.remote ▸ hstep.1 resource hanswer⟩
  refine Heeds.bind hmetadata fun answer => ?_
  cases answer with
  | error error =>
    exact iteInduction (motive := fun p => HousesTo env _ p _ _)
      (fun _ => Heeds.pure fun s h => ⟨h.1,hempty _⟩) fun _ => Heeds.throw fun s h => hidle s h.1
  | ok rootMetadata =>
    have hlisting : Steady env fun s => B s ∧ s.world.remote.Lists path rootMetadata :=
      hb.knowing hidle fun disk => disk.Lists path rootMetadata
    have hlist : HousesTo env (fun s => B s ∧ s.world.remote.Lists path rootMetadata)
        (ask (.client (.listRecursive path prefixes))) (fun answer s =>
          (B s ∧ s.world.remote.Lists path rootMetadata) ∧ ∀ listed, answer = .ok listed →
            ∀ resource ∈ listed, s.world.remote.Lists path resource) Idle := by
      refine Heeds.perform hlisting.stable hlisting.parents (fun _ _ _ htarget => nomatch htarget)
        fun s answer s' h hstep => ?_
      have hsame := sameWork_of_isSteady (e := .client (.listRecursive path prefixes)) henv rfl hstep
      exact ⟨hlisting.same s s' hsame h,fun listed hanswer => hsame.remote ▸ hstep.1 listed hanswer⟩
    refine Heeds.bind (hlist.pre fun s h => ⟨h.1,h.2 _ rfl⟩) fun answer => ?_
    cases answer with
    | error error =>
      refine iteInduction (motive := fun p => HousesTo env _ p _ _) (fun _ => ?_)
        fun _ => Heeds.throw fun s h => hidle s h.1.1
      refine Heeds.pure fun s h => ⟨h.1.1,tells_ofResources fun resource hr => ?_⟩
      rw [List.mem_singleton.mp hr]
      exact h.1.2
    | ok listed =>
      refine Heeds.pure fun s h => ⟨h.1.1,tells_ofResources fun resource hr => ?_⟩
      rcases List.mem_cons.mp hr with rfl | hr
      · exact h.1.2
      · exact h.2 listed rfl resource hr

end Inventories

/-- The plan that is read is the one made of the scan. -/
theorem livePlan_charted : Houses env (Charted c legacyRoots plan paths) livePlan
    fun live s => Charted c legacyRoots plan paths s ∧ live = plan := by
  have hb : Steady env (Charted c legacyRoots plan paths) := steady_charted
  refine Heeds.bind (hb.memory henv) fun memory => Heeds.pure fun s h => ⟨h.1,?_⟩
  rw [← h.2,h.1.1.live]
  rfl

section Moves

variable (hmoves : ConfinedMoves env) (hapart : ∀ legacy ∈ legacyRoots, Apart c legacy)

omit henv in
/-- Sets of which the legacy part is changed, but not where its roots are. -/
theorem modifyLegacy_charted (hb : Steady env (Charted c legacyRoots plan paths))
    (f : LegacyInventory → LegacyInventory) (hf : ∀ legacy, (f legacy).rootPath = legacy.rootPath)
    (index : Nat) :
    Houses env (Charted c legacyRoots plan paths)
      (modifySets fun sets => { sets with legacy := sets.legacy.modify index f })
      fun _ => Charted c legacyRoots plan paths := by
  refine modifySets_charted hb fun s h => ⟨⟨h.1.idle,h.1.queue,h.1.home,h.1.live,
    fun legacy hl => ?_,h.1.known⟩,h.2⟩
  obtain ⟨k,hk⟩ := List.mem_iff_getElem?.mp hl
  rw [List.getElem?_modify] at hk
  obtain ⟨other,hother,hlegacy⟩ := Option.map_eq_some_iff.mp hk
  have hmem := h.1.roots other (List.mem_of_getElem? hother)
  rw [← hlegacy]
  split
  · rwa [hf]
  · exact hmem

omit henv in
theorem findLegacyFile_some {relativePath path : Str} {resource : ResourceMetadata} {k index : Nat}
    {legacies : List LegacyInventory}
    (h : findLegacyFile relativePath k legacies = some (index,path,resource)) :
    (∃ legacy ∈ legacies, path = joinRemotePath legacy.rootPath relativePath) ∧
      resource.resourceType = .file := by
  induction legacies generalizing k with
  | nil => cases h
  | cons legacy legacies ih =>
    rw [findLegacyFile] at h
    split at h
    · rename_i found hfound
      cases h
      refine ⟨⟨legacy,List.mem_cons_self,rfl⟩,?_⟩
      simpa using (Option.filter_eq_some_iff.mp hfound).2
    · obtain ⟨⟨other,ho,hpath⟩,htype⟩ := ih h
      exact ⟨⟨other,List.mem_cons_of_mem _ ho,hpath⟩,htype⟩

include hmoves hapart

omit henv in
/-- A move of what lies in a legacy root to a place that has a directory. -/
theorem moveResource_charted {legacy source target : Str} (hlegacy : legacy ∈ legacyRoots)
    (hsource : pathSegments legacy <+: pathSegments source)
    (hparents : parentRemotePaths target ⊆ paths) :
    Houses env (Charted c legacyRoots plan paths) (client (.moveResource source target false))
      fun _ => Charted c legacyRoots plan paths := by
  have hb : Steady env (Charted c legacyRoots plan paths) := steady_charted
  refine Heeds.perform hb.stable hb.parents (fun s h path htarget => ?_) fun s answer s' h hstep => ?_
  · cases htarget
    exact h.2.hasParent hparents
  · obtain ⟨remote,hclient,hw⟩ := hstep.2.1
    exact h.of_remote hw fun q hq hdirectory =>
      hmoves hclient q ((hapart legacy hlegacy).not_isPrefix hsource hq) hdirectory

include henv

theorem moveLegacyRoot_charted (root : SyncRootConfig) (runId : Int) (index : Nat) {source : Str}
    (hsource : source ∈ legacyRoots) (hparents : parentRemotePaths c ⊆ paths) :
    Houses env (Charted c legacyRoots plan paths) (moveLegacyRoot root runId index source c)
      fun _ => Charted c legacyRoots plan paths := by
  have hb : Steady env (Charted c legacyRoots plan paths) := steady_charted
  have hk := hb.recording henv
  refine Heeds.bind (hb.state henv _) fun operationId =>
    Heeds.bind (moveResource_charted hmoves hapart hsource List.prefix_rfl hparents) fun answer => ?_
  cases answer with
  | error error => exact hk.bind (hk.recordCallFailure root _ _ _ _ _) fun _ => hk.pure _
  | ok _ =>
    refine Heeds.bind (hb.state henv _) fun _ => Heeds.bind (hb.state henv _) fun _ =>
      Heeds.bind (hb.modifyReport _) fun _ => Heeds.bind (hk.recordSummary _ fun _ => rfl) fun _ => ?_
    refine Heeds.bind (Heeds.caught (migrationInventory_tells henv hb (fun _ h => h.1.idle) c []))
      fun answer => ?_
    cases answer with
    | error error => exact Heeds.throw fun s h => parentsExist_of_idle h
    | ok canonical =>
      refine Heeds.bind (Q := fun _ => Charted c legacyRoots plan paths) ?_ fun _ =>
        Heeds.bind (modifyLegacy_charted hb LegacyInventory.clear (fun _ => rfl) index) fun _ =>
        Heeds.pure fun _ h => h
      refine modifySets_charted (hb.knowing (fun _ h => h.1.idle) (Tells c canonical)) fun s h => ?_
      exact ⟨⟨h.1.1.idle,h.1.1.queue,h.1.1.home,h.1.1.live,h.1.1.roots,
        fun q hq => ⟨(h.2 q hq).1,Or.inr (h.2 q hq).2⟩⟩,h.1.2⟩

theorem tryTopLevelMove_charted (root : SyncRootConfig) (runId : Int) :
    Houses env (Charted c legacyRoots plan []) (tryTopLevelMove root runId)
      fun _ => Charted c legacyRoots plan [] := by
  have hb : Steady env (Charted c legacyRoots plan []) := steady_charted
  refine Heeds.bind (hb.recording henv).isCancelled fun cancelled =>
    Heeds.bind (hb.memory henv) fun memory => ?_
  refine iteInduction (motive := fun p => Houses env _ p _) (fun _ => Heeds.pure fun s h => h.1)
    fun _ => ?_
  cases hindex : memory.remoteSets.legacy.findIdx? LegacyInventory.isPresent with
  | none => exact Heeds.pure fun s h => h.1
  | some index =>
    refine Heeds.of_pure (ψ := memory.rootSummary.canonicalRemotePath = c ∧
      ((memory.remoteSets.legacy[index]?.map LegacyInventory.rootPath).getD []) ∈ legacyRoots)
      (fun s h => ?_) fun hplace => ?_
    · obtain ⟨hcharted,rfl⟩ := h
      refine ⟨hcharted.1.home,?_⟩
      obtain ⟨hlt,-⟩ := List.findIdx?_eq_some_iff_getElem.mp hindex
      rw [List.getElem?_eq_getElem hlt]
      exact hcharted.1.roots _ (List.getElem_mem hlt)
    · dsimp only
      rw [hplace.1]
      refine Heeds.bind ((ensureParentDirectories_charted henv runId (Or.inl List.prefix_rfl)).pre
        fun s h => h.1) fun _ => Heeds.bind (isCancelled_charted henv _) fun cancelled => ?_
      refine iteInduction (motive := fun p => Houses env _ p _) (fun _ => Heeds.pure fun s h => h.1)
        fun hc => ?_
      refine (moveLegacyRoot_charted henv hmoves hapart root runId index hplace.2 ?_).weaken
        (fun s h => h.2.2 (Bool.eq_false_iff.mpr hc)) (fun _ s h => ⟨h.1,fun q hq => nomatch hq⟩)
        (fun _ h => h) fun _ h => h
      exact List.subset_append_left _ _

theorem moveLegacyFile_charted (root : SyncRootConfig) (runId : Int) (file : LocalFileEntry)
    (index : Nat) {legacy legacyPath : Str} {legacyResource : ResourceMetadata}
    (hlegacy : legacy ∈ legacyRoots) (hpath : pathSegments legacy <+: pathSegments legacyPath)
    (htype : legacyResource.resourceType = .file) (hparents : parentRemotePaths file.remotePath ⊆ paths) :
    Houses env (Charted c legacyRoots plan paths)
      (moveLegacyFile root runId file index legacyPath legacyResource)
      fun _ => Charted c legacyRoots plan paths := by
  have hb : Steady env (Charted c legacyRoots plan paths) := steady_charted
  have hk := hb.recording henv
  refine Heeds.bind (hb.state henv _) fun operationId =>
    Heeds.bind (moveResource_charted hmoves hapart hlegacy hpath hparents) fun answer => ?_
  cases answer with
  | error error => exact hk.bind (hk.recordCallFailure root _ _ _ _ _) fun _ => hk.pure _
  | ok _ =>
    refine Heeds.bind (hb.state henv _) fun _ => Heeds.bind (hb.state henv _) fun _ => ?_
    refine Heeds.bind (Q := fun _ => Charted c legacyRoots plan paths) ?_ fun _ =>
      Heeds.bind (modifyLegacy_charted hb (LegacyInventory.forget legacyPath) (fun _ => rfl) index)
        fun _ => Heeds.bind (hb.modifyReport _) fun _ =>
        Heeds.bind (hk.recordSummary _ fun _ => rfl) fun _ => hk.pure _
    refine modifySets_charted hb fun s h => ⟨⟨h.1.idle,h.1.queue,h.1.home,h.1.live,h.1.roots,
      fun q hq => h.1.known q ?_⟩,h.2⟩
    -- a file takes the place of whatever was known there
    rw [Inventory.holds,Std.TreeMap.getElem?_insert] at hq
    split at hq
    · rw [Option.any_some,htype] at hq
      cases hq
    · exact hq

theorem mergeFile_charted (config : AppConfig) (root : SyncRootConfig) (runId : Int)
    {file : LocalFileEntry} (halong : Along c file.remotePath) :
    Houses env (Charted c legacyRoots plan paths) (mergeFile config root runId file)
      fun _ => Charted c legacyRoots plan paths := by
  have hb : Steady env (Charted c legacyRoots plan paths) := steady_charted
  have hk := hb.recording henv
  refine Heeds.bind (hb.memory henv) fun memory => ?_
  refine iteInduction (motive := fun p => Houses env _ p _) (fun _ => Heeds.pure fun s h => h.1)
    fun _ => ?_
  cases hfound : findLegacyFile file.relativePath 0 memory.remoteSets.legacy with
  | none => exact Heeds.pure fun s h => h.1
  | some found =>
    obtain ⟨index,legacyPath,legacyResource⟩ := found
    obtain ⟨⟨legacy,hlegacy,rfl⟩,htype⟩ := findLegacyFile_some hfound
    refine Heeds.of_pure (ψ := legacy.rootPath ∈ legacyRoots)
      (fun s h => h.1.1.roots legacy (h.2 ▸ hlegacy)) fun hroot => ?_
    have hmatch : Houses env (Charted c legacyRoots plan paths)
        (attempt (remoteMatchesLocal config file legacyResource))
        fun _ => Charted c legacyRoots plan paths :=
      Steady.attempted ((hb.recordingTo henv fun _ h => h).remoteMatchesLocal config file _)
    refine Heeds.bind (hmatch.pre fun s h => h.1) fun answer => ?_
    cases answer with
    | error error =>
      exact iteInduction (motive := fun p => Houses env _ p _)
        (fun _ => hk.bind (hk.recordFileProcessingFailure root runId file _ _ _) fun _ => hk.pure _)
        fun _ => hk.throw _
    | ok decision =>
      refine iteInduction (motive := fun p => Houses env _ p _) (fun _ => hk.pure _) fun _ => ?_
      refine Heeds.bind (ensureParentDirectories_charted henv runId halong) fun _ =>
        Heeds.bind (isCancelled_charted henv _) fun cancelled => ?_
      refine iteInduction (motive := fun p => Houses env _ p _) (fun _ => Heeds.pure fun s h => h.1)
        fun hc => ?_
      refine (moveLegacyFile_charted henv hmoves hapart root runId file index hroot
        (isPrefix_joinRemotePath _ _) htype (List.subset_append_left _ paths)).weaken
        (fun s h => h.2.2 (Bool.eq_false_iff.mpr hc))
        (fun _ s h => ⟨h.1,h.2.mono (List.subset_append_right _ _)⟩) (fun _ h => h) fun _ h => h

omit hmoves hapart in
theorem mergeDirectories_charted (runId : Int) (baseSummary : SyncRunSummary)
    (directories : List LocalDirectoryEntry)
    (halong : ∀ directory ∈ directories, Along c directory.remotePath) :
    Houses env (Charted c legacyRoots plan paths) (mergeDirectories runId baseSummary directories)
      fun stop s => Charted c legacyRoots plan paths s ∧
        (stop = false → Built c (directories.map LocalDirectoryEntry.remotePath) s) := by
  induction directories generalizing paths with
  | nil => exact Heeds.pure fun s h => ⟨h,fun _ q hq => nomatch hq⟩
  | cons directory directories ih =>
    have hstable : Steady env (Charted c legacyRoots plan (directory.remotePath :: paths)) :=
      steady_charted
    have hrecord : Houses env (fun s => Charted c legacyRoots plan paths s ∧
          (s.world.cancelled = false → Built c [directory.remotePath] s))
        (state (.upsertDirectoryState (directoryStateRecord directory runId)))
        fun _ s => Charted c legacyRoots plan paths s ∧
          (s.world.cancelled = false → Built c [directory.remotePath] s) :=
      (steady_unless _).state henv _
    refine Heeds.bind (ensureDirectory_charted henv runId (halong _ List.mem_cons_self)) fun _ =>
      Heeds.bind hrecord fun _ => Heeds.bind (isCancelled_charted henv _) fun cancelled => ?_
    refine iteInduction (motive := fun p => Houses env _ p _)
      (fun _ => Heeds.pure fun s h => ⟨h.1,fun hf => nomatch hf⟩) fun hc => ?_
    refine Heeds.bind (((hstable.recording henv).persistRootProgress runId baseSummary).pre
      fun s h => h.2.2 (Bool.eq_false_iff.mpr hc)) fun _ => ?_
    refine (ih fun other ho => halong other (List.mem_cons_of_mem _ ho)).post fun stop s h => ?_
    refine ⟨⟨h.1.1,h.1.2.mono (List.subset_cons_self _ _)⟩,fun hs q hq => ?_⟩
    rcases List.mem_cons.mp hq with rfl | hq
    · exact h.1.2 _ List.mem_cons_self
    · exact h.2 hs q hq

theorem mergeFiles_charted (config : AppConfig) (root : SyncRootConfig) (runId : Int)
    (files : List LocalFileEntry) (halong : ∀ file ∈ files, Along c file.remotePath) :
    Houses env (Charted c legacyRoots plan paths) (mergeFiles config root runId files)
      fun _ => Charted c legacyRoots plan paths := by
  have hb : Steady env (Charted c legacyRoots plan paths) := steady_charted
  have hk := hb.recording henv
  induction files with
  | nil => exact hk.pure _
  | cons file files ih =>
    refine hk.bind hk.isCancelled fun cancelled => ?_
    refine iteInduction (motive := fun p => Houses env _ p _) (fun _ => hk.pure _) fun _ => ?_
    refine hk.bind (mergeFile_charted henv hmoves hapart config root runId
      (halong file List.mem_cons_self)) fun stop => ?_
    exact iteInduction (motive := fun p => Houses env _ p _) (fun _ => hk.pure _)
      fun _ => ih fun other ho => halong other (List.mem_cons_of_mem _ ho)

theorem applyMergeMoves_charted (ext : Externals) (config : AppConfig) (root : SyncRootConfig)
    (runId : Int) (baseSummary : SyncRunSummary) (hplan : HousedPlan c plan) :
    Houses env (Charted c legacyRoots plan []) (applyMergeMoves ext config root runId baseSummary)
      fun stop s => Charted c legacyRoots plan [] s ∧ (stop = false →
        Charted c legacyRoots plan (c :: plan.directories.map LocalDirectoryEntry.remotePath) s) := by
  have hb : Steady env (Charted c legacyRoots plan []) := steady_charted
  have hhome : Steady env (Charted c legacyRoots plan [c]) := steady_charted
  refine Heeds.bind (hb.memory henv) fun start => ?_
  refine Heeds.of_pure (ψ := start.rootSummary.canonicalRemotePath = c)
    (fun s h => h.2 ▸ h.1.1.home) fun hstart => ?_
  rw [hstart]
  refine Heeds.bind ((ensureDirectory_charted henv runId (Or.inl List.prefix_rfl)).pre fun s h => h.1)
    fun _ => Heeds.bind (isCancelled_charted henv _) fun cancelled => ?_
  refine iteInduction (motive := fun p => Houses env _ p _)
    (fun _ => Heeds.pure fun s h => ⟨h.1,fun hf => nomatch hf⟩) fun hc => ?_
  refine Heeds.bind ((hhome.state henv _).pre fun s h => h.2.2 (Bool.eq_false_iff.mpr hc)) fun _ => ?_
  refine Heeds.bind (livePlan_charted henv) fun live => ?_
  refine Heeds.of_pure (ψ := live = plan) (fun s h => h.2) fun hlive => ?_
  subst hlive
  have hbelow : ∀ directory ∈ live.directories, Along c directory.remotePath :=
    fun directory hd => Or.inr (hplan.below directory hd)
  refine Heeds.bind ((mergeDirectories_charted henv runId baseSummary _ hbelow).pre fun s h => h.1)
    fun stop => ?_
  refine iteInduction (motive := fun p => Houses env _ p _)
    (fun _ => Heeds.pure fun s h => ⟨⟨h.1.1,h.1.2.mono (List.nil_subset _)⟩,fun hf => nomatch hf⟩)
    fun hs => ?_
  refine (mergeFiles_charted henv hmoves hapart config root runId live.files
    fun file hf => hplan.along hf).weaken (fun s h => ⟨h.1.1,fun q hq => ?_⟩)
    (fun _ s h => ⟨⟨h.1,h.2.mono (List.nil_subset _)⟩,fun _ => h⟩) (fun _ h => h) fun _ h => h
  rcases List.mem_cons.mp hq with rfl | hq
  · exact h.1.2 q List.mem_cons_self
  · exact h.2 (Bool.eq_false_iff.mpr hs) q hq

end Moves

end Charted

end Steady

end MigrationEngine

end YaDiskSync
