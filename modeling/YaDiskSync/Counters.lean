import YaDiskSync.Trace
import YaDiskSync.MigrationModel

/-! The counters a run stores: with its progress while it works on a root, and at its end. What has
been stored is compared with the ledger the run keeps in its memory. -/
namespace YaDiskSync

open Prog

section Stored

variable {ρ μ : Type}

/-- The counters a step stores for a run. -/
def Happening.stored (runId : Int) : Happening μ → Option Counts
  | .step (.state (.updateRunProgress id summary)) (.ok _) =>
    if id = runId then some summary.counts else none
  | .step (.state (.finishRun id _ summary)) (.ok _) =>
    if id = runId then some summary.counts else none
  | _ => none

/-- The counters stored for a run, one after another. -/
def storedCounts (runId : Int) (trace : List (Happening μ)) : List Counts :=
  trace.filterMap (Happening.stored runId)

theorem storedCounts_append (runId : Int) (trace : List (Happening μ)) (happening : Happening μ) :
    storedCounts runId (trace ++ [happening]) =
      storedCounts runId trace ++ (happening.stored runId).toList := by
  cases hs : happening.stored runId <;> simp [storedCounts,hs]

/-- The bytes of a finished upload, as the run learns of it. -/
def Happening.recorded : Happening μ → Nat
  | .step .joinNext (some (.uploaded outcome)) =>
    if outcome.result.isOk then outcome.file.sizeBytes else 0
  | _ => 0

/-- The bytes a run has recorded, all together. -/
def recordedBytes (trace : List (Happening μ)) : Nat := (trace.map Happening.recorded).sum

@[simp] theorem recordedBytes_append (trace : List (Happening μ)) (happening : Happening μ) :
    recordedBytes (trace ++ [happening]) = recordedBytes trace+happening.recorded := by
  simp [recordedBytes]

/-- No component of what is stored for a run ever decreases. -/
def CountersClimb (s : Traced ρ μ) : Prop :=
  ∀ runId, (storedCounts runId s.trace).Pairwise (· ≤ ·)

/-- What a run stores never decreases, and it has not come to more than `bound`. -/
structure StoredUpTo (bound : Counts) (trace : List (Happening μ)) : Prop where
  climbs : ∀ runId, (storedCounts runId trace).Pairwise (· ≤ ·)
  below : ∀ runId, ∀ counts ∈ storedCounts runId trace, counts ≤ bound

theorem StoredUpTo.mono {bound bound' : Counts} {trace : List (Happening μ)}
    (h : StoredUpTo bound trace) (hle : bound ≤ bound') : StoredUpTo bound' trace :=
  ⟨h.climbs,fun runId counts hc => (h.below runId counts hc).trans hle⟩

theorem StoredUpTo.append {bound : Counts} {trace : List (Happening μ)} {happening : Happening μ}
    (h : StoredUpTo bound trace)
    (hstored : ∀ runId counts, happening.stored runId = some counts → counts = bound) :
    StoredUpTo bound (trace ++ [happening]) := by
  refine ⟨fun runId => ?_,fun runId counts hc => ?_⟩
  · rw [storedCounts_append]
    refine List.pairwise_append.2 ⟨h.climbs runId,?_,fun counts hc last hl => ?_⟩
    · cases happening.stored runId <;> simp
    · rw [hstored runId last (Option.mem_toList.1 hl)]
      exact h.below runId counts hc
  · rw [storedCounts_append] at hc
    rcases List.mem_append.1 hc with hc | hc
    · exact h.below runId counts hc
    · exact (hstored runId counts (Option.mem_toList.1 hc)).le

/-- The two calls that store counters. -/
def Effect.stores : Effect μ → Bool
  | .state (.updateRunProgress ..) | .state (.finishRun ..) => true
  | _ => false

theorem Happening.stored_step {e : Effect μ} (he : e.stores = false) (answer : e.Answer)
    (runId : Int) : (Happening.step e answer).stored runId = none := by
  cases e with
  | state call => cases call <;> first | rfl | cases he
  | _ => rfl

theorem Happening.stored_error {call : StateCall} (error : StateError) (runId : Int) :
    (Happening.step (μ := μ) (.state call) (.error error)).stored runId = none := by
  cases call <;> rfl

end Stored

/-- The counters a run keeps: of the roots it is done with, and of the root it works on. -/
structure Ledger (μ : Type) where
  report : μ → Counts
  root : μ → Counts

def oneFailure : Counts := (0,0,0,0,1,0)

/-- What a step of a run has to meet. An answer ends the work on a root by an error only while no
more than one failed file of the root has been stored, and the bytes that are recorded fit into a
signed 64-bit value. -/
structure Ledger.Lossless {ρ μ : Type} (ledger : Ledger μ)
    (ends : Traced ρ μ → (e : Effect μ) → e.Answer → Bool) (s : Traced ρ μ) (e : Effect μ)
    (answer : e.Answer) : Prop where
  ended : ends s e answer = true → ∀ runId, ∀ counts ∈ storedCounts runId s.trace,
    counts-ledger.report s.world.memory ≤ oneFailure
  fits : recordedBytes (s.trace ++ [.step e answer]) < 2^63

section Told

variable {ρ μ : Type} {env : Environment ρ}

/-- `φ` holds of the memory, what is stored has come to `bound` of it at most, and there are
`room` bytes recorded that do not count yet. -/
structure Told (room : Nat) (φ : μ → Prop) (bound : μ → Counts) (s : Traced ρ μ) : Prop where
  holds : φ s.world.memory
  stored : StoredUpTo (bound s.world.memory) s.trace
  counted : (bound s.world.memory).bytes+room ≤ recordedBytes s.trace
  fits : recordedBytes s.trace < 2^63

variable {room room' : Nat} {φ φ' : μ → Prop} {bound bound' : μ → Counts} {s s' : Traced ρ μ}

theorem Told.climb (h : Told room φ bound s) : CountersClimb s := h.stored.climbs

/-- Seen in another way. -/
theorem Told.weaken (h : Told room φ bound s) (hφ : φ' s.world.memory)
    (hbound : (bound s.world.memory).Grows (bound' s.world.memory)) (hroom : room' ≤ room) :
    Told room' φ' bound' s where
  holds := hφ
  stored := h.stored.mono hbound.1
  counted := by
    have hcounted := h.counted
    rw [hbound.2]
    omega
  fits := h.fits

theorem stable_told : Stable env.TraceDrift (Told (ρ := ρ) room φ bound) := by
  intro s s' h hdrift
  have htrace : StoredUpTo (bound s.world.memory) s'.trace ∧
      recordedBytes s'.trace = recordedBytes s.trace := by
    rcases hdrift.trace_eq with htrace | ⟨task,outcome,htrace⟩
    · rw [htrace]
      exact ⟨h.stored,rfl⟩
    · rw [htrace]
      exact ⟨h.stored.append fun _ _ hs => (nomatch hs),recordedBytes_append ..⟩
  exact {
    holds := hdrift.memory_eq ▸ h.holds
    stored := hdrift.memory_eq ▸ htrace.1
    counted := by
      rw [hdrift.memory_eq,htrace.2]
      exact h.counted
    fits := htrace.2 ▸ h.fits }

theorem stable_told_memory (memory : μ) :
    Stable env.TraceDrift fun s : Traced ρ μ => Told room φ bound s ∧ s.world.memory = memory :=
  stable_told.and (Stable.of_eq (fun _ _ hd => hd.memory_eq) (· = memory))

variable {ledger : Ledger μ} {ends : Traced ρ μ → (e : Effect μ) → e.Answer → Bool}

/-- A step that leaves the memory as it is. -/
theorem Told.step (h : Told room φ bound s) {e : Effect μ} {answer : e.Answer}
    (hstored : StoredUpTo (bound s.world.memory) s'.trace)
    (hmemory : s'.world.memory = s.world.memory)
    (hstep : env.TraceStep (ledger.Lossless ends) s e answer s') :
    Told (room+(Happening.step e answer).recorded) φ bound s' where
  holds := hmemory ▸ h.holds
  stored := hmemory ▸ hstored
  counted := by
    have hcounted := h.counted
    rw [hmemory,hstep.2.2,recordedBytes_append]
    omega
  fits := hstep.2.2 ▸ hstep.1.fits

/-- A step that stores nothing and assigns nothing. -/
theorem Told.keep (h : Told room φ bound s) {e : Effect μ} {answer : e.Answer}
    (he : ∀ runId, (Happening.step e answer).stored runId = none)
    (hassign : ∀ f, e ≠ .updateMemory f)
    (hstep : env.TraceStep (ledger.Lossless ends) s e answer s') :
    Told (room+(Happening.step e answer).recorded) φ bound s' := by
  refine h.step ?_ (hstep.2.1.memory_eq hassign) hstep
  rw [hstep.2.2]
  exact h.stored.append fun runId counts hs => by rw [he] at hs; cases hs

/-- The same, of a room that may have grown. -/
theorem Told.pass (h : Told room φ bound s) {e : Effect μ} {answer : e.Answer}
    (he : ∀ runId, (Happening.step e answer).stored runId = none)
    (hassign : ∀ f, e ≠ .updateMemory f)
    (hstep : env.TraceStep (ledger.Lossless ends) s e answer s') : Told room φ bound s' := by
  have hnext := h.keep he hassign hstep
  exact hnext.weaken hnext.holds (.refl _) (Nat.le_add_right _ _)

/-- An assignment. -/
theorem Told.assign (h : Told room φ bound s) {f : μ → μ} {answer : Unit}
    (hholds : φ' (f s.world.memory))
    (hle : bound s.world.memory ≤ bound' (f s.world.memory))
    (hbytes : (bound' (f s.world.memory)).bytes+room' ≤ (bound s.world.memory).bytes+room)
    (hstep : env.TraceStep (ledger.Lossless ends) s (.updateMemory f) answer s') :
    Told room' φ' bound' s' where
  holds := by
    rw [hstep.2.1.memory_update]
    exact hholds
  stored := by
    rw [hstep.2.1.memory_update,hstep.2.2]
    have hkept : StoredUpTo (bound s.world.memory)
        (s.trace ++ [.step (.updateMemory f) answer]) :=
      h.stored.append fun _ _ hs => by cases hs
    exact hkept.mono hle
  counted := by
    have hcounted := h.counted
    rw [hstep.2.1.memory_update,hstep.2.2,recordedBytes_append]
    omega
  fits := hstep.2.2 ▸ hstep.1.fits

/-- A step that stores what has been counted. -/
theorem Told.store (h : Told room φ bound s) {call : StateCall} {answer : call.Result}
    (hcounts : ∀ runId counts,
      (Happening.step (μ := μ) (.state call) (.ok answer)).stored runId = some counts →
        counts = bound s.world.memory)
    (hstep : env.TraceStep (ledger.Lossless ends) s (.state call) (.ok answer) s') :
    Told room φ bound s' := by
  refine h.step ?_ (hstep.2.1.memory_eq fun _ => by simp) hstep
  rw [hstep.2.2]
  exact h.stored.append hcounts

/-! Programs of either engine. -/

variable {ε : Type} {Q D : Traced ρ μ → Prop}

/-- From `P` to `Q`, or by an error to `D`; counters climb wherever a run is cut off. -/
abbrev Climbs (allowed : Traced ρ μ → (e : Effect μ) → e.Answer → Prop) (env : Environment ρ)
    (P : Traced ρ μ → Prop) {ε α : Type} (p : ExceptT ε (Prog (Effect μ) Effect.Answer) α)
    (Q : α → Traced ρ μ → Prop) (D : Traced ρ μ → Prop) : Prop :=
  TryTriple (env.TraceStep allowed) env.TraceDrift P p Q D CountersClimb

/-- A step that stores nothing and assigns nothing. -/
theorem perform_climbs {e : Effect μ} (he : e.stores = false)
    (hassign : ∀ f, e ≠ .updateMemory f) :
    Climbs (ledger.Lossless ends) env (Told room φ bound) (asking ε e)
      (fun _ => Told room φ bound) D :=
  TryTriple.perform stable_told (fun _ h => h.climb) fun _ _ _ h hstep =>
    h.pass (Happening.stored_step he _) hassign hstep

/-- The run learns of a finished upload. -/
theorem join_climbs :
    Climbs (ledger.Lossless ends) env (Told room φ bound) (asking ε (.joinNext : Effect μ))
      (fun joined => Told (room+(Happening.step (μ := μ) .joinNext joined).recorded) φ bound) D :=
  TryTriple.perform stable_told (fun _ h => h.climb) fun _ joined _ h hstep =>
    h.keep (Happening.stored_step rfl joined) (fun _ => by simp) hstep

theorem assign_climbs {f : μ → μ}
    (hf : ∀ memory, φ memory → φ' (f memory) ∧ (bound memory).Grows (bound' (f memory))) :
    Climbs (ledger.Lossless ends) env (Told room φ bound) (asking ε (.updateMemory f))
      (fun _ => Told room φ' bound') D :=
  TryTriple.perform stable_told (fun _ h => h.climb) fun s _ _ h hstep => by
    have hgrows := (hf _ h.holds).2
    exact h.assign (hf _ h.holds).1 hgrows.1 (by rw [hgrows.2]) hstep

/-- An assignment of what was read before. -/
theorem assign_read_climbs {f : μ → μ} {memory : μ}
    (hf : φ memory → (bound memory).bytes < 2^63 →
      φ' (f memory) ∧ (bound memory).Grows (bound' (f memory))) :
    Climbs (ledger.Lossless ends) env (fun s => Told room φ bound s ∧ s.world.memory = memory)
      (asking ε (.updateMemory f)) (fun _ => Told room φ' bound') D := by
  refine TryTriple.perform (stable_told_memory memory) (fun _ h => h.1.climb) fun s _ _ h hstep => ?_
  obtain ⟨h,rfl⟩ := h
  have hcounted := h.counted
  have hfits := h.fits
  obtain ⟨hholds,hgrows⟩ := hf h.holds (by omega)
  exact h.assign hholds hgrows.1 (by rw [hgrows.2]) hstep

theorem memory_climbs :
    Climbs (ledger.Lossless ends) env (Told room φ bound) (asking ε (.readMemory : Effect μ))
      (fun memory s => Told room φ bound s ∧ s.world.memory = memory) D :=
  TryTriple.perform stable_told (fun _ h => h.climb) fun s answer s' h hstep => by
    obtain ⟨hanswer,hworld⟩ := hstep.2.1
    refine ⟨h.pass (fun _ => rfl) (fun _ => by simp) hstep,?_⟩
    rw [hworld]
    exact hanswer.symm

/-- A repository call that stores nothing, with what its error comes to. -/
theorem ask_climbs {call : StateCall} (he : (Effect.state call : Effect μ).stores = false)
    (herror : ∀ s error s', Told room φ bound s →
      env.TraceStep (ledger.Lossless ends) s (.state call) (.error error) s' → D s') :
    Climbs (ledger.Lossless ends) env (Told room φ bound) (asking ε (.state call))
      (fun answer s => match answer with
        | .ok _ => Told room φ bound s
        | .error _ => D s) D := by
  refine TryTriple.perform stable_told (fun _ h => h.climb) fun s answer s' h hstep => ?_
  cases answer with
  | ok result => exact h.pass (Happening.stored_step he _) (fun _ => by simp) hstep
  | error error => exact herror s error s' h hstep

/-- A repository call that stores what the memory that was read amounts to. -/
theorem store_climbs {call : StateCall} {memory : μ}
    (hcounts : φ memory → (bound memory).bytes < 2^63 → ∀ result runId counts,
      (Happening.step (μ := μ) (.state call) (.ok result)).stored runId = some counts →
        counts = bound memory)
    (herror : ∀ s error s', Told room φ bound s →
      env.TraceStep (ledger.Lossless ends) s (.state call) (.error error) s' → D s') :
    Climbs (ledger.Lossless ends) env (fun s => Told room φ bound s ∧ s.world.memory = memory)
      (asking ε (.state call))
      (fun answer s => match answer with
        | .ok _ => Told room φ bound s
        | .error _ => D s) D := by
  refine TryTriple.perform (stable_told_memory memory) (fun _ h => h.1.climb)
    fun s answer s' h hstep => ?_
  obtain ⟨h,rfl⟩ := h
  have hcounted := h.counted
  have hfits := h.fits
  cases answer with
  | ok result => exact h.store (hcounts h.holds (by omega) result) hstep
  | error error => exact herror s error s' h hstep

end Told

/-! How what is stored and the ledger go together in the course of a run. -/
namespace Ledger

variable {ρ μ : Type} {env : Environment ρ} (ledger : Ledger μ)

/-- Nothing is stored yet. -/
structure Untold (s : Traced ρ μ) : Prop where
  stored : ∀ runId, storedCounts runId s.trace = []

/-- Between two roots: the report covers what is stored. -/
abbrev Between : Traced ρ μ → Prop :=
  Told 0 (fun memory => 0 ≤ (ledger.report memory).bytes) ledger.report

/-- Before anything is counted for a root. -/
abbrev Fresh (base : Counts) : Traced ρ μ → Prop :=
  Told 0 (fun memory => 0 ≤ base.bytes ∧ ledger.report memory = base ∧ ledger.root memory = 0)
    fun _ => base

/-- In the work on a root: what is stored is covered together with what the root counts. -/
abbrev Within (base : Counts) (room : Nat) : Traced ρ μ → Prop :=
  Told room (fun memory => 0 ≤ base.bytes ∧ ledger.report memory = base ∧
    0 ≤ (ledger.root memory).bytes) fun memory => base+ledger.root memory

/-- After an error: the report and the failure that is counted for it cover what is stored. -/
abbrev Lost : Traced ρ μ → Prop :=
  Told 0 (fun memory => 0 ≤ (ledger.report memory).bytes)
    fun memory => ledger.report memory+oneFailure

variable {ledger} {s s' : Traced ρ μ} {base : Counts} {room : Nat}

theorem grows_oneFailure (counts : Counts) : counts.Grows (counts+oneFailure) := by
  refine ⟨le_add_of_nonneg_right (by decide),?_⟩
  rw [Counts.bytes_add]
  exact add_zero _

theorem Between.lost (h : ledger.Between s) : ledger.Lost s :=
  h.weaken h.holds (grows_oneFailure _) le_rfl

theorem Fresh.within (h : ledger.Fresh base s) : ledger.Within base 0 s := by
  obtain ⟨hbase,hreport,hroot⟩ := h.holds
  refine h.weaken ⟨hbase,hreport,?_⟩ ?_ le_rfl
  · rw [hroot,Counts.bytes_zero]
  · rw [hroot,add_zero]
    exact .refl _

theorem Fresh.lost (h : ledger.Fresh base s) : ledger.Lost s := by
  obtain ⟨hbase,hreport,_⟩ := h.holds
  refine h.weaken (hreport ▸ hbase) ?_ le_rfl
  rw [hreport]
  exact grows_oneFailure base

theorem Untold.climb (h : Untold s) : CountersClimb s :=
  fun runId => by rw [h.stored runId]; exact List.Pairwise.nil

variable {ends : Traced ρ μ → (e : Effect μ) → e.Answer → Bool}

theorem Untold.keep {allowed : Traced ρ μ → (e : Effect μ) → e.Answer → Prop} (h : Untold s)
    {e : Effect μ} {answer : e.Answer} (he : e.stores = false)
    (hstep : env.TraceStep allowed s e answer s') : Untold s' := by
  refine ⟨fun runId => ?_⟩
  rw [hstep.2.2,storedCounts_append,h.stored runId,Happening.stored_step he]
  rfl

/-- The report of a run begins with nothing. -/
theorem Untold.between (h : Untold s) {e : Effect μ} {answer : e.Answer} (he : e.stores = false)
    (hzero : ledger.report s'.world.memory = 0)
    (hstep : env.TraceStep (ledger.Lossless ends) s e answer s') : ledger.Between s' := by
  have hnone : ∀ runId, storedCounts runId s'.trace = [] := (h.keep he hstep).stored
  refine ⟨by rw [hzero,Counts.bytes_zero],⟨fun runId => ?_,fun runId counts hc => ?_⟩,?_,
    hstep.2.2 ▸ hstep.1.fits⟩
  · rw [hnone]
    exact List.Pairwise.nil
  · rw [hnone] at hc
    cases hc
  · rw [hzero,Counts.bytes_zero]
    omega

theorem stable_untold : Stable env.TraceDrift (Untold (ρ := ρ) (μ := μ)) := by
  intro s s' h hdrift
  refine ⟨fun runId => ?_⟩
  rcases hdrift.trace_eq with htrace | ⟨task,outcome,htrace⟩
  · rw [htrace]
    exact h.stored runId
  · rw [htrace,storedCounts_append,h.stored runId]
    rfl

/-- The answer that ends the work on a root. -/
theorem Within.ended (h : ledger.Within base room s) {e : Effect μ} {answer : e.Answer}
    (hends : ends s e answer = true)
    (hstored : ∀ runId, (Happening.step e answer).stored runId = none)
    (he : ∀ f, e ≠ .updateMemory f)
    (hstep : env.TraceStep (ledger.Lossless ends) s e answer s') : ledger.Lost s' := by
  obtain ⟨hbase,hreport,hroot⟩ := h.holds
  have hcounted := h.counted
  rw [Counts.bytes_add] at hcounted
  have hlost : ledger.Lost s := {
    holds := hreport ▸ hbase
    stored := ⟨h.stored.climbs,fun runId counts hc =>
      sub_le_iff_le_add'.mp (hstep.1.ended hends runId counts hc)⟩
    counted := by
      rw [(grows_oneFailure _).2,hreport]
      omega
    fits := h.fits }
  exact hlost.pass hstored he hstep

/-- What a finished upload adds to the counts of a root. -/
def uploadCounts (isUpdate : Bool) (bytes : Nat) : Counts :=
  if isUpdate then (0,1,0,0,0,bytes) else (1,0,0,0,0,bytes)

@[simp] theorem bytes_uploadCounts (isUpdate : Bool) (bytes : Nat) :
    (uploadCounts isUpdate bytes).bytes = bytes := by
  cases isUpdate <;> rfl

theorem uploadCounts_nonneg (isUpdate : Bool) (bytes : Nat) : 0 ≤ uploadCounts isUpdate bytes := by
  cases isUpdate <;> simp [uploadCounts,Prod.le_def]

/-- The bytes there is room for are counted. -/
theorem count_climbs {ε : Type} {D : Traced ρ μ → Prop} {f : μ → μ} (isUpdate : Bool)
    (hreport : ∀ memory, ledger.report (f memory) = ledger.report memory)
    (hroot : ∀ memory, 0 ≤ (ledger.root memory).bytes →
      (ledger.root memory).bytes+room < 2^63 →
        ledger.root (f memory) = ledger.root memory+uploadCounts isUpdate room) :
    Climbs (ledger.Lossless ends) env (ledger.Within base room) (asking ε (.updateMemory f))
      (fun _ => ledger.Within base 0) D := by
  refine TryTriple.perform stable_told (fun _ h => h.climb) fun s _ _ h hstep => ?_
  obtain ⟨hbase,hreported,hnonneg⟩ := h.holds
  have hcounted := h.counted
  have hfits := h.fits
  rw [Counts.bytes_add] at hcounted
  have hcount := hroot s.world.memory hnonneg (by omega)
  refine h.assign ⟨hbase,(hreport _).trans hreported,?_⟩ ?_ ?_ hstep
  · rw [hcount,Counts.bytes_add,bytes_uploadCounts]
    omega
  · rw [hcount,← add_assoc]
    exact le_add_of_nonneg_right (uploadCounts_nonneg isUpdate room)
  · rw [hcount,Counts.bytes_add,Counts.bytes_add,Counts.bytes_add,bytes_uploadCounts]
    omega

/-- A run learns of a finished upload. -/
theorem joinNext_climbs {ε : Type} {D : Traced ρ μ → Prop} :
    Climbs (ledger.Lossless ends) env (ledger.Within base 0) (asking ε (.joinNext : Effect μ))
      (fun joined => match joined with
        | some (.uploaded outcome) =>
          ledger.Within base (if outcome.result.isOk then outcome.file.sizeBytes else 0)
        | _ => ledger.Within base 0) D := by
  refine join_climbs.post fun joined s h => ?_
  rw [Nat.zero_add] at h
  match joined with
  | some (.uploaded outcome) => exact h
  | some (.created ..) => exact h
  | none => exact h

/-- What a root has come to can be added to the report. -/
theorem Within.total {memory : μ}
    (h : 0 ≤ base.bytes ∧ ledger.report memory = base ∧ 0 ≤ (ledger.root memory).bytes) :
    0 ≤ (base+ledger.root memory).bytes := by
  rw [Counts.bytes_add]
  exact add_nonneg h.1 h.2.2

/-- The findings of a scan are the first that is counted for a root. -/
theorem begin_climbs {ε : Type} {D : Traced ρ μ → Prop} {f : μ → μ}
    (hreport : ∀ memory, ledger.report (f memory) = ledger.report memory)
    (hroot : ∀ memory, ledger.root memory = 0 → (0 : Counts).Grows (ledger.root (f memory))) :
    Climbs (ledger.Lossless ends) env (ledger.Fresh base) (asking ε (.updateMemory f))
      (fun _ => ledger.Within base 0) D :=
  assign_climbs fun memory h => by
    obtain ⟨hbase,hreported,hzero⟩ := h
    have hgrows := (hroot memory hzero).add_left base
    rw [add_zero] at hgrows
    exact ⟨⟨hbase,(hreport memory).trans hreported,(hroot memory hzero).2.ge⟩,hgrows⟩

end Ledger

theorem perform_untold {ρ μ ε : Type} {env : Environment ρ}
    {allowed : Traced ρ μ → (e : Effect μ) → e.Answer → Prop} {D : Traced ρ μ → Prop}
    {e : Effect μ} (he : e.stores = false) :
    Climbs allowed env Ledger.Untold (asking ε e) (fun _ => Ledger.Untold) D :=
  TryTriple.perform Ledger.stable_untold (fun _ h => h.climb) fun _ _ _ h hstep => h.keep he hstep

end YaDiskSync
