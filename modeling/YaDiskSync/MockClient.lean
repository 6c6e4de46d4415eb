import YaDiskSync.RemoteDisk
import YaDiskSync.World

/-! `MockYandexDiskClient`, and the world that answers every step as it would. -/
namespace YaDiskSync

/-- `tokio::fs::read`. -/
def LocalTree.read (tree : LocalTree) (path : LocalPath) : Option Str :=
  (tree.item? path).bind fun item => if item.fileType = .file then some item.content else none

def LocalTree.readFile (tree : LocalTree) (path : LocalPath) : Except IoError Str :=
  match tree.read path with
  | some content => .ok content
  | none => .error { kind := .notFound }

theorem LocalTree.readFile_ok {tree : LocalTree} {path : LocalPath} {content : Str}
    (h : tree.readFile path = .ok content) {item : LocalItem} (hi : tree.item? path = some item) :
    item.fileType = .file ∧ item.content = content := by
  unfold LocalTree.readFile LocalTree.read at h
  rw [hi,Option.bind_some] at h
  split at h
  · rename_i hr
    split at hr
    · rename_i ht
      cases hr
      cases h
      exact ⟨ht,rfl⟩
    · cases hr
  · cases h

namespace RemoteDisk

variable (disk : RemoteDisk)

def mockNotFound (path : Str) : YandexDiskError :=
  { kind := .notFound, message := "mock resource not found: ".toList ++ path }

def localUploadSourceUnavailable (source : LocalPath) : YandexDiskError :=
  { kind := .permanent
    message := "failed to open upload source ".toList ++ displayPath source ++
      ": No such file or directory (os error 2)".toList
    apiCode := some "LocalUploadSourceUnavailable".toList }

/-- `trim_start_matches` of a text; every round takes one copy off. -/
def trimStartText (pre : Str) : Nat → Str → Str
  | 0, text => text
  | fuel+1, text =>
    match stripPrefix pre text with
    | some rest => trimStartText pre fuel rest
    | none => text

/-- Files what is kept at one path under another. -/
def moveEntry (old new : Str) : RemoteDisk :=
  match disk.resources[old]? with
  | none => disk
  | some resource =>
    { resources := (disk.resources.erase old).insert new
        { resource with path := new, name := lastRemoteSegment new }
      contents := match disk.contents[old]? with
        | none => disk.contents
        | some content => (disk.contents.erase old).insert new content }

/-- `move_resource`; children are moved one after another. -/
def moveResource (source target : Str) : Option RemoteDisk :=
  match disk.resources[source]? with
  | none => none
  | some resource =>
    let moved := disk.moveEntry source target
    if resource.resourceType = .directory then
      some ((moved.resources.keys.filter fun key => (childPrefix source).isPrefixOf key).foldl
        (fun disk old => disk.moveEntry old (trimEndMatches slash target ++
          slash :: trimStartText (childPrefix source) old.length old)) moved)
    else some moved

/-- The client without scripted failures. -/
def mockAnswer (quota : QuotaInfo) (tree : LocalTree) :
    (call : ClientCall) → Except YandexDiskError call.Result × RemoteDisk
  | .diskInfo => (.ok quota,disk)
  | .metadata path =>
    match disk.metadata path with
    | some resource => (.ok resource,disk)
    | none => (.error (mockNotFound path),disk)
  | .listRecursive path pruneRemotePrefixes =>
    (.ok (disk.listRecursive path pruneRemotePrefixes),disk)
  | .createDirectory path => (.ok (),disk.createDirectory path)
  | .uploadSource path source =>
    match tree.read source with
    | some content => (.ok (),disk.uploadSource path content)
    | none => (.error (localUploadSourceUnavailable source),disk)
  | .download path =>
    match disk.resources[path]? with
    | some resource =>
      (.ok ((disk.contents[path]?).getD
        (List.replicate (resource.sizeBytes.getD 0) (Char.ofNat 0))),disk)
    | none => (.error (mockNotFound path),disk)
  | .moveResource source target _ =>
    match disk.moveResource source target with
    | some moved => (.ok (),moved)
    | none => (.error (mockNotFound source),disk)
  | .deletePermanently path => (.ok (),disk.deletePermanently path)

end RemoteDisk

/-- The mock client as the client of an environment. -/
def mockClient (quota : QuotaInfo) (tree : LocalTree) (remote : RemoteDisk) (call : ClientCall)
    (answer : Except YandexDiskError call.Result) (remote' : RemoteDisk) : Prop :=
  (answer,remote') = remote.mockAnswer quota tree call

/-- The mock client, a sound database, a readable disk that changes as `diskStep` allows. -/
def mockEnvironment (ext : Externals) (quota : QuotaInfo)
    (diskStep : LocalTree → LocalTree → Prop) : Environment RemoteDisk :=
  { ext, client := mockClient quota, diskStep, scanned := Eq, faulty := fun faults => faults = {}
    stateFails := False, cancels := False }

/-- The same with a client whose calls may fail without effect. -/
def failingEnvironment (ext : Externals) (quota : QuotaInfo)
    (diskStep : LocalTree → LocalTree → Prop) : Environment RemoteDisk :=
  { mockEnvironment ext quota diskStep with
    client := fun tree remote call answer remote' =>
      mockClient quota tree remote call answer remote' ∨
        (∃ error, answer = .error error) ∧ remote' = remote }

/-- A client that answers in one way. -/
abbrev Responder (ρ : Type) :=
  LocalTree → ρ → (call : ClientCall) → Except YandexDiskError call.Result × ρ

def mockResponder (quota : QuotaInfo) : Responder RemoteDisk :=
  fun tree remote call => remote.mockAnswer quota tree call

/-- A client whose calls fail without effect where the script says so. -/
def Responder.failing {ρ : Type} (respond : Responder ρ)
    (script : ClientCall → Option YandexDiskError) : Responder ρ := fun tree remote call =>
  match script call with
  | some error => (.error error,remote)
  | none => respond tree remote call

section Respond

variable {ρ μ : Type} (respond : Responder ρ)

/-- A task run to its end. -/
def Task.run (tree : LocalTree) (cancelled : Bool) (remote : ρ) : Task → TaskOutcome × ρ
  | .createDirectory directory operationId =>
    let result := respond tree remote (.createDirectory directory.remotePath)
    (.created directory operationId result.1,result.2)
  | .upload operationId file isUpdate cancelledText =>
    if cancelled then
      (.uploaded { operationId, file, isUpdate, result := .error (cancelledFailure cancelledText) },
        remote)
    else
      let result := respond tree remote (.uploadSource file.remotePath file.uploadSource)
      (.uploaded { operationId, file, isUpdate, result := result.1.mapError uploadFailure },result.2)

/-- What an environment has to allow for the client to answer as it does. -/
structure Environment.Admits (env : Environment ρ) (respond : Responder ρ) : Prop where
  client : ∀ tree remote call,
    env.client tree remote call (respond tree remote call).1 (respond tree remote call).2
  faultless : env.faulty {}
  scanned : ∀ tree, env.scanned tree tree

theorem mockEnvironment_admits (ext : Externals) (quota : QuotaInfo)
    (diskStep : LocalTree → LocalTree → Prop) :
    (mockEnvironment ext quota diskStep).Admits (mockResponder quota) :=
  ⟨fun _ _ _ => rfl,rfl,fun _ => rfl⟩

theorem failingEnvironment_admits (ext : Externals) (quota : QuotaInfo)
    (diskStep : LocalTree → LocalTree → Prop) (script : ClientCall → Option YandexDiskError) :
    (failingEnvironment ext quota diskStep).Admits ((mockResponder quota).failing script) where
  client tree remote call := by
    unfold Responder.failing
    cases script call with
    | some error => exact Or.inr ⟨⟨error,rfl⟩,rfl⟩
    | none => exact Or.inl rfl
  faultless := rfl
  scanned _ := rfl

namespace World

variable (ext : Externals) (oracle : ScanOracle) (w : World ρ μ)

/-- The task that was started first finishes. -/
def landFirst : World ρ μ :=
  match w.tasks with
  | { task, outcome := none } :: tasks =>
    let result := task.run respond w.disk w.cancelled w.remote
    { w with remote := result.2, tasks := { task, outcome := some result.1 } :: tasks }
  | _ => w

/-- The moment at which a step is answered: a join waits for a task to finish. -/
def settle : Effect μ → World ρ μ
  | .joinNext => w.landFirst respond
  | _ => w

/-- The answer of a step when tasks finish in the order they were started. -/
def answer : (e : Effect μ) → e.Answer × World ρ μ
  | .client call =>
    let result := respond w.disk w.remote call
    (result.1,{ w with remote := result.2 })
  | .state call =>
    match call.run w.repository with
    | .ok (result,repository) => (.ok result,{ w with repository })
    | .error error => (.error error,w)
  | .isDir path => (w.disk.isDir path,w)
  | .pathExists path => (w.disk.pathExists path,w)
  | .isFile path => (w.disk.isFile path,w)
  | .fileMetadata path => (w.disk.fileMetadata path,w)
  | .readFile path => (w.disk.readFile path,w)
  | .scan options root previousStates =>
    (scanRoot ext oracle {} options root previousStates (w.disk.below root.localPath),w)
  | .removeFile _ => (.ok (),w)
  | .spawn task => ((),{ w with tasks := w.tasks ++ [{ task }] })
  | .joinNext =>
    let landed := w.landFirst respond
    match landed.tasks with
    | { outcome := some outcome, .. } :: tasks => (some outcome,{ landed with tasks })
    | _ => (none,landed)
  | .dropTasks => ((),{ w with tasks := [] })
  | .isCancelled => (w.cancelled,w)
  | .now => (w.now,w)
  | .readMemory => (w.memory,w)
  | .updateMemory f => ((),{ w with memory := f w.memory })

variable {respond} {env : Environment ρ} (hadmits : env.Admits respond)

include hadmits in
theorem lands_run (task : Task) : env.Lands w task
    (task.run respond w.disk w.cancelled w.remote).1
    (task.run respond w.disk w.cancelled w.remote).2 := by
  cases task with
  | createDirectory directory operationId => exact ⟨_,hadmits.client _ _ _,rfl⟩
  | upload operationId file isUpdate cancelledText =>
    cases hc : w.cancelled with
    | true => exact Or.inl ⟨hc,rfl,rfl⟩
    | false => exact Or.inr ⟨_,hadmits.client _ _ _,rfl⟩

include hadmits in
theorem drift_landFirst : Relation.ReflTransGen env.Drift w (w.landFirst respond) := by
  unfold landFirst
  split
  · rename_i task tasks hw
    have hfirst : w.tasks = [] ++ { task } :: tasks := hw
    exact .single (Environment.Drift.land hfirst (w.lands_run hadmits task))
  · exact .refl

@[simp] theorem settle_disk (e : Effect μ) : (w.settle respond e).disk = w.disk := by
  unfold settle landFirst
  split
  · split <;> rfl
  · rfl

@[simp] theorem answer_disk (e : Effect μ) : (w.answer respond ext oracle e).2.disk = w.disk := by
  have hland : (w.landFirst respond).disk = w.disk := w.settle_disk .joinNext
  unfold answer
  split
  · rfl
  · split <;> rfl
  all_goals try rfl
  dsimp only
  split <;> exact hland

include hadmits in
theorem drift_settle (e : Effect μ) :
    Relation.ReflTransGen env.Drift w (w.settle respond e) := by
  cases e with
  | joinNext => exact w.drift_landFirst hadmits
  | _ => exact .refl

include hadmits in
/-- Every answer is one the environment allows. -/
theorem answer_performs (e : Effect μ) : env.Perform (w.settle respond e) e
    (w.answer respond env.ext oracle e).1 (w.answer respond env.ext oracle e).2 := by
  cases e with
  | client call => exact ⟨_,hadmits.client _ _ _,rfl⟩
  | state call =>
    refine Or.inr ?_
    unfold answer settle
    dsimp only
    cases call.run w.repository with
    | ok result => exact ⟨rfl,rfl⟩
    | error error => exact ⟨rfl,rfl⟩
  | scan options root previousStates =>
    exact ⟨⟨oracle,{},w.disk,hadmits.faultless,hadmits.scanned _,rfl⟩,rfl⟩
  | joinNext =>
    have hfirst : ∀ task tasks,
        (w.landFirst respond).tasks ≠ { task, outcome := none } :: tasks := by
      intro task tasks
      unfold landFirst
      split
      · simp
      · rename_i hw
        exact hw task tasks
    unfold answer settle
    dsimp only
    split
    · rename_i task outcome tasks ht
      exact Or.inr ⟨[],task,outcome,tasks,rfl,ht,rfl⟩
    · rename_i hnot
      refine Or.inl ⟨rfl,?_,rfl⟩
      match htasks : (w.landFirst respond).tasks with
      | [] => rfl
      | { task, outcome := none } :: tasks => exact absurd htasks (hfirst task tasks)
      | { task, outcome := some outcome } :: tasks => exact absurd htasks (hnot _ _ _)
  | readFile path => exact ⟨fun _ he _ hi => LocalTree.readFile_ok he hi,rfl⟩
  | removeFile path => exact rfl
  | spawn task => exact rfl
  | dropTasks => exact rfl
  | updateMemory f => exact rfl
  | _ => exact ⟨rfl,rfl⟩

end World

end Respond

end YaDiskSync
