import Mathlib.Algebra.Order.BigOperators.Group.List
import YaDiskSync.Trace
import YaDiskSync.SyncEngine

/-! The bytes a run uploads and the room the remote has for them. What has been uploaded, the tasks
that are out and what is still reserved stay within the room together. -/
namespace YaDiskSync

open Prog

section Bytes

def fileBytes (files : List LocalFileEntry) : Nat := (files.map LocalFileEntry.sizeBytes).sum

theorem fileBytes_le_of_sublist {files files' : List LocalFileEntry} (h : files.Sublist files') :
    fileBytes files ≤ fileBytes files' :=
  (h.map LocalFileEntry.sizeBytes).sum_le_sum fun _ _ => Nat.zero_le _

theorem saturatingAdd_eq {a b : Nat} (h : a+b < 2^64) : saturatingAdd a b = a+b := by
  unfold saturatingAdd
  omega

def Task.bytes : Task → Nat
  | .createDirectory .. => 0
  | .upload _ file _ _ => file.sizeBytes

/-- What an outcome has brought to the remote. -/
def TaskOutcome.bytes : TaskOutcome → Nat
  | .created .. => 0
  | .uploaded outcome => match outcome.result with
    | .ok _ => outcome.file.sizeBytes
    | .error _ => 0

theorem Task.Yields.bytes_le {task : Task} {outcome : TaskOutcome} (h : task.Yields outcome) :
    outcome.bytes ≤ task.bytes := by
  cases task with
  | createDirectory directory operationId =>
    obtain ⟨result,rfl⟩ := h
    exact le_rfl
  | upload operationId file isUpdate cancelledText =>
    obtain ⟨result,rfl⟩ := h
    cases result with
    | ok _ => exact le_rfl
    | error _ => exact Nat.zero_le _

/-- Whether a step starts an upload. -/
def Effect.uploads {μ : Type} : Effect μ → Bool
  | .spawn (.upload ..) => true
  | _ => false

def RunningTask.landedBytes (running : RunningTask) : Nat :=
  (running.outcome.map TaskOutcome.bytes).getD 0

end Bytes

section History

variable {ρ μ : Type}

def Happening.uploaded : Happening μ → Nat
  | .landed _ outcome => outcome.bytes
  | .step .. => 0

/-- The recorded sizes of the files whose uploads have succeeded, together. -/
def uploadedBytes (trace : List (Happening μ)) : Nat := (trace.map Happening.uploaded).sum

def Happening.scanned : Happening μ → Nat
  | .step (.scan ..) (.ok report) => fileBytes report.files
  | _ => 0

/-- The recorded sizes of the files that were scanned, together. -/
def scannedBytes (trace : List (Happening μ)) : Nat := (trace.map Happening.scanned).sum

/-- The room an answer about the disk tells of, if it does. -/
def Happening.quota : Happening μ → Option (Option Nat)
  | .step (.client .diskInfo) (.ok quota) =>
    some (quota.totalSpace.bind fun total => quota.usedSpace.map (total - ·))
  | .step (.client .diskInfo) (.error _) => some none
  | _ => none

/-- The room there was when the run asked for it. -/
def availableAtStart (trace : List (Happening μ)) : Option Nat :=
  (trace.findSome? Happening.quota).join

/-- No more has been uploaded than there was room for. -/
def WithinQuota (s : Traced ρ μ) : Prop :=
  ∀ available, availableAtStart s.trace = some available → uploadedBytes s.trace ≤ available

@[simp] theorem uploadedBytes_append (trace : List (Happening μ)) (happening : Happening μ) :
    uploadedBytes (trace ++ [happening]) = uploadedBytes trace+happening.uploaded := by
  simp [uploadedBytes]

@[simp] theorem scannedBytes_append (trace trace' : List (Happening μ)) :
    scannedBytes (trace ++ trace') = scannedBytes trace+scannedBytes trace' := by
  simp [scannedBytes]

/-- The recorded sizes of all files that are scanned come to less than 2^64 bytes. -/
abbrev Bounded (s : Traced ρ μ) (e : Effect μ) (answer : e.Answer) : Prop :=
  scannedBytes (s.trace ++ [.step e answer]) < 2^64

end History

/-- The room there was is `total`; of it `spent` is used up, `out` is kept for the tasks that are
out, and `reserved` for later. -/
structure Afloat {ρ μ : Type} (total : Option Nat) (spent out reserved : Nat) (s : Traced ρ μ) :
    Prop where
  quoted : s.trace.findSome? Happening.quota = some total
  fits : ∀ available, total = some available → spent+out+reserved ≤ available
  uploaded : uploadedBytes s.trace =
    spent+(s.world.tasks.map RunningTask.landedBytes).sum
  tasks : (s.world.tasks.map fun running => running.task.bytes).sum ≤ out
  landed : ∀ running ∈ s.world.tasks, running.landedBytes ≤ running.task.bytes

namespace Afloat

variable {ρ μ : Type} {env : Environment ρ} {total : Option Nat} {spent out reserved : Nat}
  {s s' : Traced ρ μ}

theorem uploaded_le (h : Afloat total spent out reserved s) :
    uploadedBytes s.trace ≤ spent+out := by
  rw [h.uploaded]
  exact Nat.add_le_add_left ((List.sum_le_sum h.landed).trans h.tasks) spent

theorem withinQuota (h : Afloat total spent out reserved s) : WithinQuota s := by
  intro available havailable
  rw [availableAtStart,h.quoted] at havailable
  exact h.uploaded_le.trans ((Nat.le_add_right _ _).trans (h.fits available havailable))

theorem mono {reserved' : Nat} (h : Afloat total spent out reserved s)
    (hle : reserved' ≤ reserved) : Afloat total spent out reserved' s :=
  { h with fits := fun available ha => (Nat.add_le_add_left hle _).trans (h.fits available ha) }

/-- What happens without a task leaves everything as it is. -/
theorem of_eq (h : Afloat total spent out reserved s) (htasks : s'.world.tasks = s.world.tasks)
    (htrace : s'.trace = s.trace ∨
      ∃ e answer, s'.trace = s.trace ++ [.step e answer]) : Afloat total spent out reserved s' := by
  refine ⟨?_,h.fits,?_,htasks ▸ h.tasks,htasks ▸ h.landed⟩
  · rcases htrace with htrace | ⟨e,answer,htrace⟩
    · rw [htrace]
      exact h.quoted
    · rw [htrace,List.findSome?_append,h.quoted]
      rfl
  · rcases htrace with htrace | ⟨e,answer,htrace⟩
    · rw [htrace,htasks]
      exact h.uploaded
    · rw [htrace,htasks,uploadedBytes_append]
      exact h.uploaded

theorem stable : Stable env.TraceDrift (Afloat (ρ := ρ) (μ := μ) total spent out reserved) := by
  intro s s' h hdrift
  cases hdrift with
  | land ht hl =>
    rename_i before after task outcome remote
    have htasks := h.tasks
    have huploaded := h.uploaded
    rw [ht] at htasks huploaded
    refine ⟨?_,h.fits,?_,?_,fun running hr => ?_⟩
    · rw [List.findSome?_append,h.quoted]
      rfl
    · rw [uploadedBytes_append,huploaded]
      simp only [List.map_append,List.map_cons,List.sum_append,List.sum_cons,RunningTask.landedBytes,
        Option.map_none,Option.map_some,Option.getD_none,Option.getD_some,Happening.uploaded]
      omega
    · simpa using htasks
    · rcases List.mem_append.mp hr with hr | hr
      · exact h.landed running (by simp [ht,hr])
      rcases List.mem_cons.mp hr with rfl | hr
      · exact hl.yields.bytes_le
      · exact h.landed running (by simp [ht,hr])
  | disk _ => exact h.of_eq rfl (Or.inl rfl)
  | cancel _ => exact h.of_eq rfl (Or.inl rfl)
  | tick _ => exact h.of_eq rfl (Or.inl rfl)

variable {allowed : Traced ρ μ → (e : Effect μ) → e.Answer → Prop}

theorem keep (h : Afloat total spent out reserved s) {e : Effect μ} {answer : e.Answer}
    (he : e.onTasks = false) (hstep : env.TraceStep allowed s e answer s') :
    Afloat total spent out reserved s' :=
  h.of_eq (hstep.2.1.tasks_eq he) (Or.inr ⟨e,answer,hstep.2.2⟩)

/-- A task takes its bytes from what is reserved. -/
theorem spawn {task : Task} {answer : Unit}
    (h : Afloat total spent out (task.bytes+reserved) s)
    (hstep : env.TraceStep allowed s (.spawn task) answer s') :
    Afloat total spent (out+task.bytes) reserved s' := by
  have hworld : s'.world = { s.world with tasks := s.world.tasks ++ [{ task }] } := hstep.2.1
  refine ⟨?_,fun available ha => ?_,?_,?_,fun running hr => ?_⟩
  · rw [hstep.2.2,List.findSome?_append,h.quoted]
    rfl
  · have hfits := h.fits available ha
    omega
  · rw [hstep.2.2,uploadedBytes_append,h.uploaded,hworld]
    simp [RunningTask.landedBytes,Happening.uploaded]
  · rw [hworld]
    simpa using h.tasks
  · rw [hworld] at hr
    rcases List.mem_append.mp hr with hr | hr
    · exact h.landed running hr
    · rw [List.mem_singleton.mp hr]
      exact Nat.zero_le _

/-- What a joined task has brought to the remote is used up. -/
theorem join {joined : Option TaskOutcome} (h : Afloat total spent out reserved s)
    (hstep : env.TraceStep allowed s .joinNext joined s') : match joined with
      | none => Afloat total spent 0 reserved s'
      | some outcome => outcome.bytes ≤ out ∧
        Afloat total (spent+outcome.bytes) (out-outcome.bytes) reserved s' := by
  have hquoted : s'.trace.findSome? Happening.quota = some total := by
    rw [hstep.2.2,List.findSome?_append,h.quoted]
    rfl
  have htrace : uploadedBytes s'.trace = uploadedBytes s.trace := by
    rw [hstep.2.2,uploadedBytes_append]
    rfl
  rcases hstep.2.1 with ⟨rfl,ht,hw⟩ | ⟨before,task,outcome,after,rfl,ht,hw⟩
  · refine ⟨hquoted,fun available ha => ?_,?_,by simp [hw,ht],by simp [hw,ht]⟩
    · have hfits := h.fits available ha
      omega
    · rw [htrace,h.uploaded,hw]
  · have htasks := h.tasks
    have huploaded := h.uploaded
    have hlanded : outcome.bytes ≤ task.bytes :=
      h.landed { task, outcome := some outcome } (by simp [ht])
    rw [ht] at htasks huploaded
    simp only [List.map_append,List.map_cons,List.sum_append,List.sum_cons,RunningTask.landedBytes,
      Option.map_some,Option.getD_some] at htasks huploaded
    refine ⟨by omega,hquoted,fun available ha => ?_,?_,?_,fun running hr => ?_⟩
    · have hfits := h.fits available ha
      omega
    · rw [htrace,hw,huploaded]
      simp only [List.map_append,List.sum_append]
      omega
    · rw [hw]
      simp only [List.map_append,List.sum_append]
      omega
    · rw [hw] at hr
      refine h.landed running ?_
      rw [ht]
      rcases List.mem_append.mp hr with hr | hr
      · exact List.mem_append_left _ hr
      · exact List.mem_append_right _ (List.mem_cons_of_mem _ hr)

/-- Tasks that are given up may have brought their bytes to the remote. -/
theorem drop {answer : Unit} (h : Afloat total spent out reserved s)
    (hstep : env.TraceStep allowed s .dropTasks answer s') :
    Afloat total (uploadedBytes s.trace) 0 reserved s' := by
  have hworld : s'.world = { s.world with tasks := [] } := hstep.2.1
  refine ⟨?_,fun available ha => ?_,?_,by simp [hworld],by simp [hworld]⟩
  · rw [hstep.2.2,List.findSome?_append,h.quoted]
    rfl
  · have hfits := h.fits available ha
    have huploaded := h.uploaded_le
    omega
  · rw [hstep.2.2,uploadedBytes_append,hworld]
    rfl

/-- What is reserved is kept for the tasks. -/
theorem take {bytes : Nat} (h : Afloat total spent out (bytes+reserved) s) :
    Afloat total spent (out+bytes) reserved s :=
  { h with
    fits := fun available ha => by
      have hfits := h.fits available ha
      omega
    tasks := h.tasks.trans (Nat.le_add_right _ _) }

/-- Nothing is kept for tasks that are not there. -/
theorem landed_all (h : Afloat total spent out reserved s) (htasks : s.world.tasks = []) :
    Afloat total spent 0 reserved s :=
  { h with
    fits := fun available ha => by
      have hfits := h.fits available ha
      omega
    tasks := by simp [htasks] }

/-- Steps that start no upload keep nothing for one. -/
theorem keep_idle (h : Afloat total spent 0 reserved s) {e : Effect μ} {answer : e.Answer}
    (he : e.uploads = false) (hstep : env.TraceStep allowed s e answer s') :
    Afloat total spent 0 reserved s' := by
  cases e with
  | spawn task =>
    cases task with
    | upload => cases he
    | createDirectory directory operationId =>
      have hbytes : Afloat total spent 0
          (Task.bytes (.createDirectory directory operationId)+reserved) s :=
        h.mono (by simp [Task.bytes])
      exact hbytes.spawn hstep
  | joinNext =>
    have hjoin := h.join hstep
    cases answer with
    | none => exact hjoin
    | some outcome =>
      obtain ⟨hzero,hrest⟩ := hjoin
      simpa [Nat.le_zero.mp hzero] using hrest
  | dropTasks =>
    have hspent : uploadedBytes s.trace = spent :=
      le_antisymm h.uploaded_le (h.uploaded ▸ Nat.le_add_right _ _)
    exact hspent ▸ h.drop hstep
  | _ => exact h.keep rfl hstep

end Afloat

/-! What a run keeps to from one root to the next. -/
section Roots

variable {ρ μ : Type} {env : Environment ρ} {total available : Option Nat} {spent : Nat}
  {s s' : Traced ρ μ}

/-- What the run takes to be available fits with what is used up. -/
def Covers (total available : Option Nat) (spent : Nat) : Prop :=
  ∀ bytes, total = some bytes → ∃ left, available = some left ∧ spent+left ≤ bytes

/-- Before a root: no task is out, and what is available is there. -/
def Provided (total available : Option Nat) (s : Traced ρ μ) : Prop :=
  ∃ spent, Afloat total spent 0 0 s ∧ s.world.tasks = [] ∧ Covers total available spent

/-- What is available after a root that has used up so much. -/
def availableAfter (available consumed : Option Nat) : Option Nat :=
  match consumed with
  | some consumed => available.map (· - consumed)
  | none => available

/-- After a root: the next one is provided for, if there is to be one. -/
structure Onward (total available : Option Nat) (stop : Bool) (consumed : Option Nat)
    (s : Traced ρ μ) : Prop where
  idle : ∃ spent, Afloat total spent 0 0 s
  going : stop = false → Provided total (availableAfter available consumed) s

/-- An error may leave tasks behind. -/
def Adrift (s : Traced ρ μ) : Prop :=
  ∃ total spent out reserved, Afloat total spent out reserved s

/-- Before the run has asked for the room there is. -/
structure Unasked (s : Traced ρ μ) : Prop where
  quoted : s.trace.findSome? Happening.quota = none
  uploaded : uploadedBytes s.trace = 0
  tasks : s.world.tasks = []

theorem Afloat.adrift {out reserved : Nat} (h : Afloat total spent out reserved s) : Adrift s :=
  ⟨_,_,_,_,h⟩

theorem Provided.adrift (h : Provided total available s) : Adrift s :=
  h.elim fun _ h => h.1.adrift

theorem Onward.adrift {stop : Bool} {consumed : Option Nat} (h : Onward total available stop consumed s) :
    Adrift s :=
  h.idle.elim fun _ h => h.adrift

theorem Provided.onward (h : Provided total available s) (stop : Bool) :
    Onward total available stop none s :=
  ⟨h.imp fun _ h => h.1,fun _ => h⟩

/-- A root whose uploads have all been joined. -/
theorem Afloat.onward {consumed : Nat} (h : Afloat total (spent+consumed) 0 0 s)
    (htasks : s.world.tasks = []) (hcovers : Covers total available spent)
    (hle : ∀ left, available = some left → consumed ≤ left) (stop : Bool) :
    Onward total available stop (some consumed) s := by
  refine ⟨⟨_,h⟩,fun _ => ⟨_,h,htasks,fun bytes hb => ?_⟩⟩
  obtain ⟨left,rfl,hfits⟩ := hcovers bytes hb
  have hconsumed := hle left rfl
  exact ⟨left-consumed,rfl,by omega⟩

theorem Onward.stopped {stop : Bool} {consumed consumed' : Option Nat}
    (h : Onward total available stop consumed s) : Onward total available true consumed' s :=
  ⟨h.idle,fun hstop => by cases hstop⟩

theorem Onward.of_going {consumed : Option Nat} (h : Onward total available false consumed s)
    (stop : Bool) : Onward total available stop consumed s :=
  ⟨h.idle,fun _ => h.going rfl⟩

end Roots

/-! Programs of either engine. -/
section Programs

variable {ρ μ ε α : Type} {env : Environment ρ}
  {allowed : Traced ρ μ → (e : Effect μ) → e.Answer → Prop}

/-- From `P` to `Q`, or by an error to `D`; what there was room for is kept to wherever a run is
cut off. -/
abbrev Spends (allowed : Traced ρ μ → (e : Effect μ) → e.Answer → Prop) (env : Environment ρ)
    (P : Traced ρ μ → Prop) {ε α : Type} (p : ExceptT ε (Prog (Effect μ) Effect.Answer) α)
    (Q : α → Traced ρ μ → Prop) (D : Traced ρ μ → Prop) : Prop :=
  TryTriple (env.TraceStep allowed) env.TraceDrift P p Q D WithinQuota

/-- What no step breaks that leaves the tasks alone. -/
structure Steady (allowed : Traced ρ μ → (e : Effect μ) → e.Answer → Prop) (env : Environment ρ)
    (I : Traced ρ μ → Prop) : Prop where
  stable : Stable env.TraceDrift I
  keep : ∀ {s e answer s'}, I s → e.onTasks = false → env.TraceStep allowed s e answer s' → I s'
  adrift : ∀ s, I s → Adrift s

theorem Adrift.withinQuota {s : Traced ρ μ} (h : Adrift s) : WithinQuota s := by
  obtain ⟨_,_,_,_,h⟩ := h
  exact h.withinQuota

theorem Steady.exists_of {ι : Type} {I : ι → Traced ρ μ → Prop}
    (h : ∀ i, Steady allowed env (I i)) : Steady allowed env fun s => ∃ i, I i s where
  stable _ _ hs hdrift := hs.imp fun i hi => (h i).stable _ _ hi hdrift
  keep hs he hstep := hs.imp fun i hi => (h i).keep hi he hstep
  adrift s hs := hs.elim fun i hi => (h i).adrift s hi

theorem steady_afloat (total : Option Nat) (spent out reserved : Nat) :
    Steady allowed env (Afloat total spent out reserved) where
  stable := Afloat.stable
  keep h he hstep := h.keep he hstep
  adrift _ h := h.adrift

theorem steady_adrift : Steady allowed env Adrift :=
  .exists_of fun _ => .exists_of fun _ => .exists_of fun _ => .exists_of fun _ =>
    steady_afloat _ _ _ _

theorem stable_provided (total available : Option Nat) :
    Stable env.TraceDrift (Provided (ρ := ρ) (μ := μ) total available) := by
  rintro s s' ⟨spent,h,htasks,hcovers⟩ hdrift
  exact ⟨spent,Afloat.stable _ _ h hdrift,stable_noTasks _ _ htasks hdrift,hcovers⟩

theorem steady_provided (total available : Option Nat) :
    Steady allowed env (Provided total available) where
  stable := stable_provided total available
  keep := by
    rintro s e answer s' ⟨spent,h,htasks,hcovers⟩ he hstep
    exact ⟨spent,h.keep he hstep,(hstep.2.1.tasks_eq he).trans htasks,hcovers⟩
  adrift _ h := h.adrift

theorem steady_onward (total available : Option Nat) (stop : Bool) (consumed : Option Nat) :
    Steady allowed env (Onward total available stop consumed) where
  stable _ _ h hdrift :=
    ⟨h.idle.imp fun _ hi => Afloat.stable _ _ hi hdrift,fun hstop =>
      stable_provided _ _ _ _ (h.going hstop) hdrift⟩
  keep h he hstep :=
    ⟨h.idle.imp fun _ hi => hi.keep he hstep,fun hstop =>
      (steady_provided _ _).keep (h.going hstop) he hstep⟩
  adrift _ h := h.adrift

namespace Steady

variable {I D : Traced ρ μ → Prop} (h : Steady allowed env I)

include h

theorem perform {e : Effect μ} (he : e.onTasks = false) :
    Spends allowed env I (asking ε e) (fun _ => I) D :=
  TryTriple.perform h.stable (fun s hs => (h.adrift s hs).withinQuota)
    fun _ _ _ hs hstep => h.keep hs he hstep

/-- Programs that leave the tasks alone. -/
theorem only {p : ExceptT ε (Prog (Effect μ) Effect.Answer) α}
    (hp : Only (fun e => e.onTasks = false) p.run) :
    Spends allowed env I p (fun _ => I) Adrift :=
  (hp.keeps h.stable (fun s hs => (h.adrift s hs).withinQuota)
    fun _ he _ _ _ hs hstep => h.keep hs he hstep).weaken (fun _ hs => hs) (fun _ _ hs => hs)
      h.adrift fun _ hs => hs

end Steady

theorem Unasked.withinQuota {s : Traced ρ μ} (h : Unasked s) : WithinQuota s := by
  intro available havailable
  rw [availableAtStart,h.quoted] at havailable
  cases havailable

theorem Unasked.stable : Stable env.TraceDrift (Unasked (ρ := ρ) (μ := μ)) := by
  intro s s' h hdrift
  cases hdrift with
  | land ht hl =>
    have htasks := h.tasks
    simp [ht] at htasks
  | disk _ => exact ⟨h.quoted,h.uploaded,h.tasks⟩
  | cancel _ => exact ⟨h.quoted,h.uploaded,h.tasks⟩
  | tick _ => exact ⟨h.quoted,h.uploaded,h.tasks⟩

/-- Steps before the run asks for the room there is. -/
def Effect.beforeQuota : Effect μ → Bool
  | .client .diskInfo => false
  | e => !e.onTasks

theorem Unasked.keep {s s' : Traced ρ μ} (h : Unasked s) {e : Effect μ} {answer : e.Answer}
    (he : e.beforeQuota = true) (hstep : env.TraceStep allowed s e answer s') : Unasked s' := by
  have htasks : e.onTasks = false := by
    cases e <;> first | rfl | cases he
  refine ⟨?_,?_,(hstep.2.1.tasks_eq htasks).trans h.tasks⟩
  · rw [hstep.2.2,List.findSome?_append,h.quoted]
    cases e with
    | client call => cases call <;> first | rfl | cases he
    | _ => rfl
  · rw [hstep.2.2,uploadedBytes_append,h.uploaded]
    rfl

theorem unasked_only {p : ExceptT ε (Prog (Effect μ) Effect.Answer) α}
    (hp : Only (fun e => e.beforeQuota = true) p.run) :
    Spends allowed env Unasked p (fun _ => Unasked) WithinQuota :=
  (hp.keeps Unasked.stable (fun _ h => h.withinQuota)
    fun _ he _ _ _ h hstep => h.keep he hstep).weaken (fun _ h => h) (fun _ _ h => h)
      (fun _ h => h.withinQuota) fun _ h => h

theorem fileBytes_lt_of_scan {s s' : Traced ρ μ} {options : ScanOptions} {root : ScanRoot}
    {previousStates : List FileStateRecord} {answer : Except ScannerError ScanReport}
    {report : ScanReport} (hr : answer = .ok report)
    (hstep : env.TraceStep Bounded s (.scan options root previousStates) answer s') :
    fileBytes report.files < 2^64 := by
  subst hr
  have hbounded := hstep.1
  rw [Bounded,scannedBytes_append] at hbounded
  simp only [scannedBytes,List.map_cons,List.map_nil,List.sum_cons,List.sum_nil,
    Happening.scanned] at hbounded
  omega

/-- The answer that tells of the room there is. -/
theorem ask_provides {D : Traced ρ μ → Prop} :
    Spends allowed env Unasked (asking ε (.client .diskInfo))
      (fun answer => match answer with
        | .ok quota => Provided (quota.totalSpace.bind fun total => quota.usedSpace.map (total - ·))
          (quota.totalSpace.bind fun total => quota.usedSpace.map (total - ·))
        | .error _ => Provided none none) D := by
  refine TryTriple.perform Unasked.stable (fun _ h => h.withinQuota) fun s answer s' h hstep => ?_
  have htasks : s'.world.tasks = [] := (hstep.2.1.tasks_eq rfl).trans h.tasks
  have huploaded : uploadedBytes s'.trace = 0 := by
    rw [hstep.2.2,uploadedBytes_append,h.uploaded]
    rfl
  have hprovided : ∀ total, (Happening.step (.client .diskInfo) answer : Happening μ).quota =
      some total → Provided total total s' := by
    intro total htotal
    refine ⟨0,⟨?_,fun available _ => Nat.zero_le _,?_,?_,?_⟩,htasks,fun bytes hb => ⟨bytes,hb,?_⟩⟩
    · rw [hstep.2.2,List.findSome?_append,h.quoted]
      simp [htotal]
    · simp [huploaded,htasks]
    · simp [htasks]
    · simp [htasks]
    · omega
  cases answer with
  | ok quota => exact hprovided _ rfl
  | error error => exact hprovided _ rfl

end Programs

end YaDiskSync
