import Mathlib.Order.CompletePartialOrder
import YaDiskSync.Obeys
import YaDiskSync.ResumedFiles

/-! Where digests come from. A digest that goes with a file, in a row or in memory, is known if
some scan computed it from the bytes of a version of the file with the same size and modified time.
Scans, rows and tasks hand on what is known; only the rows of adopted files may bring in more. -/
namespace YaDiskSync

open Prog

/-- What a scan is shown: the digest functions and the staged copies, the faults of the file system
and the tree. -/
structure ScanView where
  oracle : ScanOracle
  faults : ScanFaults
  tree : LocalTree

def ScanView.gives (ext : Externals) (view : ScanView) (options : ScanOptions) (root : ScanRoot)
    (previousStates : List FileStateRecord) : Except ScannerError ScanReport :=
  scanRoot ext view.oracle view.faults options root previousStates (view.tree.below root.localPath)

/-- The bytes a scan reads of a file: those of its staged copy if it is a SQLite file. -/
def ScanOracle.bytes (oracle : ScanOracle) (item : LocalItem) : Str :=
  if isSqliteCandidate item.components then oracle.stagingContent item.components
  else item.content

/-- A version of a file, with the digest of its bytes. -/
structure HashedVersion where
  rootId : Str
  relativePath : Str
  sizeBytes : Nat
  mtimeNs : Option Int
  md5 : Str

/-- The tree has an item at the path of the version, of its size and modified time, whose bytes have
its digest. -/
def ScanView.Hashes (view : ScanView) (root : ScanRoot) (version : HashedVersion) : Prop :=
  version.rootId = root.id ∧ ∃ item ∈ (view.tree.below root.localPath).items,
    relativePathOf item.components = version.relativePath ∧ item.sizeBytes = version.sizeBytes ∧
      item.mtimeNs = version.mtimeNs ∧ view.oracle.md5 (view.oracle.bytes item) = version.md5

/-- The versions whose bytes the scans of a trace have read: whatever a scan was shown to give its
report, it has hashed them. -/
def hashedVersions {μ : Type} (ext : Externals) (trace : List (Happening μ)) :
    Set HashedVersion :=
  {version | ∃ options root previousStates report,
    .step (.scan options root previousStates) (.ok report) ∈ trace ∧
      (∃ view : ScanView, view.gives ext options root previousStates = .ok report) ∧
        ∀ view : ScanView, view.gives ext options root previousStates = .ok report →
          view.Hashes root version}

/-- The digest was computed from the bytes of a version of the file with this size and this modified
time. -/
def ComputedFor (hashed : Set HashedVersion) (rootId relativePath : Str) (sizeBytes : Int)
    (mtimeNs : Option Int) (md5 : Str) : Prop :=
  ∃ version ∈ hashed, version.rootId = rootId ∧ version.relativePath = relativePath ∧
    (version.sizeBytes : Int) = sizeBytes ∧ version.mtimeNs = mtimeNs ∧
      eqIgnoreAsciiCase version.md5 md5 = true

/-- The row of a file no larger than the limit has no digest but a computed one. -/
def FileStateRecord.Sourced (hashed : Set HashedVersion) (limit : Nat) (record : FileStateRecord) :
    Prop :=
  record.sizeBytes ≤ limit → ∀ md5, record.remoteMd5 = some md5 →
    ComputedFor hashed record.rootId record.relativePath record.sizeBytes record.mtimeNs md5

structure LocalFileEntry.Sourced (hashed : Set HashedVersion) (limit : Nat)
    (file : LocalFileEntry) : Prop where
  size : file.sizeBytes < 2^63
  computed : file.sizeBytes ≤ limit → ∀ md5, file.fingerprint.localMd5 = some md5 →
    ComputedFor hashed file.rootId file.relativePath file.sizeBytes file.mtimeNs md5

section Digests

variable {hashed hashed' : Set HashedVersion} {limit limit' : Nat} {file : LocalFileEntry}
  {record : FileStateRecord}

theorem eqIgnoreAsciiCase_trans {a b c : Str} (hab : eqIgnoreAsciiCase a b = true)
    (hbc : eqIgnoreAsciiCase b c = true) : eqIgnoreAsciiCase a c = true := by
  simp only [eqIgnoreAsciiCase,beq_iff_eq] at hab hbc ⊢
  exact hab.trans hbc

theorem ComputedFor.mono {rootId relativePath md5 : Str} {sizeBytes : Int} {mtimeNs : Option Int}
    (h : ComputedFor hashed rootId relativePath sizeBytes mtimeNs md5) (hle : hashed ≤ hashed') :
    ComputedFor hashed' rootId relativePath sizeBytes mtimeNs md5 := by
  obtain ⟨version,hversion,hrest⟩ := h
  exact ⟨version,hle hversion,hrest⟩

/-- A digest that equals a computed one is computed. -/
theorem ComputedFor.congr {rootId relativePath md5 md5' : Str} {sizeBytes : Int}
    {mtimeNs : Option Int} (h : ComputedFor hashed rootId relativePath sizeBytes mtimeNs md5)
    (heq : eqIgnoreAsciiCase md5 md5' = true) :
    ComputedFor hashed rootId relativePath sizeBytes mtimeNs md5' := by
  obtain ⟨version,hversion,hroot,hpath,hsize,hmtime,hown⟩ := h
  exact ⟨version,hversion,hroot,hpath,hsize,hmtime,eqIgnoreAsciiCase_trans hown heq⟩

theorem FileStateRecord.Sourced.mono (h : record.Sourced hashed limit) (hle : hashed ≤ hashed') :
    record.Sourced hashed' limit :=
  fun hsize md5 hmd5 => (h hsize md5 hmd5).mono hle

theorem LocalFileEntry.Sourced.mono (h : file.Sourced hashed limit) (hle : hashed ≤ hashed') :
    file.Sourced hashed' limit :=
  ⟨h.size,fun hsize md5 hmd5 => (h.computed hsize md5 hmd5).mono hle⟩

theorem LocalFileEntry.Sourced.weaken (h : file.Sourced hashed limit) (hle : limit' ≤ limit) :
    file.Sourced hashed limit' :=
  ⟨h.size,fun hsize => h.computed (le_trans hsize hle)⟩

/-- A row without a digest. -/
theorem FileStateRecord.sourced_of_none (h : record.remoteMd5 = none) :
    record.Sourced hashed limit := by
  intro _ md5 hmd5
  rw [h] at hmd5
  cases hmd5

/-- The row of a file is as its file is, whatever digest equal to the file's it gets. -/
theorem LocalFileEntry.Sourced.row (h : file.Sourced hashed limit) {record : FileStateRecord}
    (hroot : record.rootId = file.rootId) (hpath : record.relativePath = file.relativePath)
    (hsize : record.sizeBytes = u64ToI64 file.sizeBytes) (hmtime : record.mtimeNs = file.mtimeNs)
    (hmd5 : ∀ md5, record.remoteMd5 = some md5 → file.sizeBytes ≤ limit →
      ∃ own, file.fingerprint.localMd5 = some own ∧ eqIgnoreAsciiCase own md5 = true) :
    record.Sourced hashed limit := by
  rw [u64ToI64_of_lt h.size] at hsize
  intro hle md5 hrow
  rw [hsize] at hle
  obtain ⟨own,hown,heq⟩ := hmd5 md5 hrow (by exact_mod_cast hle)
  rw [hroot,hpath,hsize,hmtime]
  exact (h.computed (by exact_mod_cast hle) own hown).congr heq

end Digests

section Scans

variable {ext : Externals} {oracle : ScanOracle} {faults : ScanFaults} {options : ScanOptions}
  {root : ScanRoot} {previousStates : List FileStateRecord} {tree : LocalTree}
  {report : ScanReport} {file : LocalFileEntry}

/-- The digest of a file that keeps no row is that of the bytes that were read. -/
theorem fileEntry_digest {context : ScanContext} {item : LocalItem} {relative : Str}
    (h : fileEntry ext oracle context faults item relative = .ok (.file file))
    (hfresh : file.fingerprint.reusedFromState = false) {md5 : Str}
    (hmd5 : file.fingerprint.localMd5 = some md5) : oracle.md5 (oracle.bytes item) = md5 := by
  unfold fileEntry at h
  simp only at h
  split at h
  · cases h
  split at h
  · cases h
  split at h
  · cases h
  split at h
  · cases h
    cases hfresh
  split at h
  · cases h
  split at h
  · cases h
  rename_i staging hstaging _ fingerprint hfingerprint
  cases h
  unfold fingerprintPath at hfingerprint
  split at hfingerprint
  · split at hfingerprint
    · cases hfingerprint
    · cases hfingerprint
      cases hmd5
      rw [ScanOracle.bytes,← sqliteStaging_isSome hstaging]
  · cases hfingerprint
    cases hmd5

/-- A report lists a file with a digest that no row brought: the scan has read its bytes. -/
theorem scan_digest {view : ScanView}
    (hgives : view.gives ext options root previousStates = .ok report)
    (hfile : file ∈ report.files) (hfresh : file.fingerprint.reusedFromState = false) {md5 : Str}
    (hmd5 : file.fingerprint.localMd5 = some md5) :
    view.Hashes root ⟨file.rootId,file.relativePath,file.sizeBytes,file.mtimeNs,md5⟩ := by
  unfold ScanView.gives scanRoot at hgives
  cases hcontext : scanContext ext options root previousStates with
  | error error =>
    rw [hcontext] at hgives
    cases hgives
  | ok context =>
    rw [hcontext] at hgives
    cases hgives
    obtain ⟨item,hitem,_,hevent⟩ := mem_scanReport_files.mp hfile
    obtain ⟨_,_,hentry⟩ := handleWalkEntry_file hevent
    have hspec := fileEntry_spec hentry
    have hroot : file.rootId = root.id := by
      rw [hspec.rootId,show context.root = root from (scanContext_spec hcontext).2.2.2.1]
    exact ⟨hroot,item,hitem,hspec.relativePath.symm,hspec.sizeBytes.symm,hspec.mtimeNs.symm,
      fileEntry_digest hentry hfresh hmd5⟩

/-- A scan reports files with digests it computed itself or found in the rows it was given. -/
theorem scanRoot_sourced {hashed : Set HashedVersion} {limit : Nat}
    (hreport : scanRoot ext oracle faults options root previousStates tree = .ok report)
    (hrows : ∀ record ∈ previousStates, record.rootId = root.id ∧ record.Sourced hashed limit)
    (hfresh : file.fingerprint.reusedFromState = false → ∀ md5,
      file.fingerprint.localMd5 = some md5 →
        ⟨file.rootId,file.relativePath,file.sizeBytes,file.mtimeNs,md5⟩ ∈ hashed)
    (hfile : file ∈ report.files) : file.Sourced hashed limit := by
  unfold scanRoot at hreport
  cases hcontext : scanContext ext options root previousStates with
  | error error =>
    rw [hcontext] at hreport
    cases hreport
  | ok context =>
    rw [hcontext] at hreport
    cases hreport
    obtain ⟨item,_,_,hevent⟩ := mem_scanReport_files.mp hfile
    obtain ⟨_,_,hentry⟩ := handleWalkEntry_file hevent
    have hspec := fileEntry_spec hentry
    have hsize : file.sizeBytes < 2^63 := by
      rw [hspec.sizeBytes]
      exact item.sizeBytes_lt
    refine ⟨hsize,fun hle md5 hmd5 => ?_⟩
    cases hreused : file.fingerprint.reusedFromState with
    | false =>
      exact ⟨_,hfresh hreused md5 hmd5,rfl,rfl,rfl,rfl,by simp [eqIgnoreAsciiCase]⟩
    | true =>
      obtain ⟨record,hrow⟩ := Option.isSome_iff_exists.mp (hspec.reused hreused).1
      rw [fileEntry_reuse hentry hrow] at hmd5
      rw [reusableState,(scanContext_spec hcontext).2.2.2.2] at hrow
      obtain ⟨hfound,hfits⟩ := Option.filter_eq_some_iff.mp hrow
      have hpath : record.relativePath = file.relativePath := by
        rw [hspec.relativePath]
        simpa using List.find?_some hfound
      obtain ⟨hroot,hsourced⟩ := hrows record
        (List.mem_reverse.mp (List.mem_of_find?_eq_some hfound))
      simp only [Bool.and_eq_true,beq_iff_eq] at hfits
      obtain ⟨⟨hrowSize,hmtime⟩,-⟩ := hfits
      rw [asI64_of_lt item.sizeBytes_lt,← hspec.sizeBytes] at hrowSize
      have hcomputed := hsourced (by rw [hrowSize]; exact_mod_cast hle) md5 hmd5
      rw [hroot,hpath,hrowSize,hmtime,← hspec.mtimeNs] at hcomputed
      rwa [hspec.rootId,show context.root = root from (scanContext_spec hcontext).2.2.2.1]

end Scans

section Contract

variable {ρ μ : Type}

/-- What an engine relies on: memory, stored rows and tasks have known digests, and a scan finds no
others than those of the rows it is given and those it computes. -/
def Relied (keeps : Set HashedVersion → μ → Prop) (limit : Nat) (hashed : Set HashedVersion) :
    (e : Effect μ) → e.Answer → Prop
  | .readMemory, memory => keeps hashed memory
  | .state (.listFileStatesForRoot rootId), .ok records =>
    ∀ record ∈ records, record.rootId = rootId ∧ record.Sourced hashed limit
  | .scan _ root previousStates, .ok report => ∀ hashed', hashed ≤ hashed' →
    (∀ record ∈ previousStates, record.rootId = root.id ∧ record.Sourced hashed' limit) →
      ∀ file ∈ report.files, file.Sourced hashed' limit
  | .joinNext, some (.uploaded outcome) => outcome.file.Sourced hashed limit
  | _, _ => True

/-- What an engine has to see to in return. The rows of adopted files are held to a limit of their
own. -/
def Owed (keeps : Set HashedVersion → μ → Prop) (limit adoptionLimit : Nat)
    (hashed : Set HashedVersion) : Effect μ → Prop
  | .state (.upsertFileState record) => record.Sourced hashed limit
  | .state (.upsertFileStates records) => ∀ record ∈ records, record.Sourced hashed adoptionLimit
  | .spawn (.upload _ file _ _) => file.Sourced hashed limit
  | .updateMemory f => ∀ memory, keeps hashed memory → keeps hashed (f memory)
  | _ => True

/-- The files of the tasks that are out. -/
def Task.Sourced (hashed : Set HashedVersion) (limit : Nat) : Task → Prop
  | .upload _ file _ _ => file.Sourced hashed limit
  | .createDirectory .. => True

/-- What has been computed before the run or in it. -/
def knownDigests (ext : Externals) (base : Set HashedVersion) (s : Traced ρ μ) :
    Set HashedVersion :=
  base ∪ hashedVersions ext s.trace

/-- Every digest that is kept is known. -/
structure Grounded (ext : Externals) (keeps : Set HashedVersion → μ → Prop) (limit : Nat)
    (base : Set HashedVersion) (s : Traced ρ μ) : Prop where
  rows : ∀ record ∈ s.world.repository.fileStates.rows,
    record.Sourced (knownDigests ext base s) limit
  tasks : ∃ count, Crew (Task.Sourced (knownDigests ext base s) limit) count s
  memory : keeps (knownDigests ext base s) s.world.memory

variable {ext : Externals} {keeps : Set HashedVersion → μ → Prop}
  {limit adoptionLimit : Nat} {base hashed hashed' : Set HashedVersion} {s s' : Traced ρ μ} {env : Environment ρ}

theorem Task.Sourced.mono {task : Task} (h : task.Sourced hashed limit) (hle : hashed ≤ hashed') :
    task.Sourced hashed' limit := by
  cases task with
  | upload operationId file isUpdate cancelledText => exact LocalFileEntry.Sourced.mono h hle
  | createDirectory directory operationId => trivial

theorem knownDigests_mono (htrace : s.trace <+: s'.trace) :
    knownDigests ext base s ≤ knownDigests ext base s' := by
  obtain ⟨rest,hrest⟩ := htrace
  refine Set.union_subset_union_right base fun version hversion => ?_
  obtain ⟨options,root,previousStates,report,hstep,hgiven⟩ := hversion
  refine ⟨options,root,previousStates,report,?_,hgiven⟩
  rw [← hrest]
  exact List.mem_append_left _ hstep

/-- Later on, if the rows, the tasks and the memory got nothing that is not known. -/
theorem Grounded.carry (hkeeps : ∀ memory, Monotone fun hashed => keeps hashed memory)
    (h : Grounded ext keeps limit base s) (htrace : s.trace <+: s'.trace)
    (hrows : ∀ record ∈ s'.world.repository.fileStates.rows,
      record ∈ s.world.repository.fileStates.rows ∨
        record.Sourced (knownDigests ext base s') limit)
    (htasks : ∃ count, Crew (Task.Sourced (knownDigests ext base s) limit) count s')
    (hmemory : s'.world.memory = s.world.memory ∨
      keeps (knownDigests ext base s) s'.world.memory) : Grounded ext keeps limit base s' where
  rows record hrecord := by
    rcases hrows record hrecord with hold | hnew
    · exact (h.rows record hold).mono (knownDigests_mono htrace)
    · exact hnew
  tasks := by
    obtain ⟨count,hcrew⟩ := htasks
    exact ⟨count,fun running hr => (hcrew.kind running hr).mono (knownDigests_mono htrace),
      hcrew.yields,hcrew.length⟩
  memory := by
    refine hkeeps _ (knownDigests_mono htrace) ?_
    rcases hmemory with hsame | hnew
    · rw [hsame]
      exact h.memory
    · exact hnew

theorem Grounded.carry_rows (hkeeps : ∀ memory, Monotone fun hashed => keeps hashed memory)
    (h : Grounded ext keeps limit base s) (htrace : s.trace <+: s'.trace)
    (hrepository : s'.world.repository = s.world.repository)
    (htasks : ∃ count, Crew (Task.Sourced (knownDigests ext base s) limit) count s')
    (hmemory : s'.world.memory = s.world.memory ∨
      keeps (knownDigests ext base s) s'.world.memory) : Grounded ext keeps limit base s' := by
  refine h.carry hkeeps htrace (fun record hrecord => ?_) htasks hmemory
  rw [hrepository] at hrecord
  exact Or.inl hrecord

/-- What `mark_deleted` leaves in the rows has no digest that was not there. -/
theorem sourced_markDeleted {repository : Repository} {rootId relativePath remotePath : Str}
    {lastRunId : Option Int} {record : FileStateRecord}
    (h : ∀ row ∈ repository.fileStates.rows, row.Sourced hashed limit)
    (hrecord : record ∈
      (repository.markDeleted rootId relativePath remotePath lastRunId).fileStates.rows) :
    record.Sourced hashed limit := by
  have hmem := (@Table.mem_upsert _ _ FileStateRecord.key _ repository.fileStates
    (Repository.deletedFileState rootId relativePath remotePath lastRunId) record
    (fun old => { old with lastRunId, status := .deleted, lastError := none }) fun _ => rfl).mp
      hrecord
  rcases hmem with ⟨hold,_⟩ | ⟨old,hold,_,rfl⟩ | ⟨rfl,_⟩
  · exact h record hold
  · exact h old hold
  · exact FileStateRecord.sourced_of_none rfl

theorem sourced_upsertFileStates {records : List FileStateRecord}
    (hrecords : ∀ record ∈ records, record.Sourced hashed limit) (repository : Repository)
    (h : ∀ row ∈ repository.fileStates.rows, row.Sourced hashed limit) :
    ∀ row ∈ (repository.upsertFileStates records).fileStates.rows, row.Sourced hashed limit := by
  induction records generalizing repository with
  | nil => exact h
  | cons record records ih =>
    refine ih (fun r hr => hrecords r (List.mem_cons_of_mem _ hr)) _ fun row hrow => ?_
    rcases Table.mem_put.mp hrow with rfl | ⟨hold,_⟩
    · exact hrecords _ List.mem_cons_self
    · exact h row hold

/-- A call keeps the digests of the rows known, if it sees to what is owed. -/
theorem sourced_of_call {call : StateCall} {result : call.Result}
    {repository repository' : Repository}
    (hrun : call.run repository = .ok (result,repository'))
    (hsingle : ∀ record, call = .upsertFileState record → record.Sourced hashed limit)
    (hmany : ∀ records, call = .upsertFileStates records →
      ∀ record ∈ records, record.Sourced hashed limit)
    (h : ∀ row ∈ repository.fileStates.rows, row.Sourced hashed limit) :
    ∀ row ∈ repository'.fileStates.rows, row.Sourced hashed limit := by
  cases hwrites : call.writesFileStates with
  | false =>
    rw [(StateCall.run_leaves hrun).fileStates hwrites]
    exact h
  | true =>
    cases call with
    | upsertFileState record =>
      cases hrun
      intro row hrow
      rcases Table.mem_put.mp hrow with rfl | ⟨hold,_⟩
      · exact hsingle _ rfl
      · exact h row hold
    | upsertFileStates records =>
      cases hrun
      exact sourced_upsertFileStates (hmany records rfl) repository h
    | markDeleted id path remotePath lastRunId =>
      cases hrun
      exact fun row hrow => sourced_markDeleted h hrow
    | _ => cases hwrites

end Contract

section World

variable {ρ μ : Type} {keeps : Set HashedVersion → μ → Prop} {limit adoptionLimit : Nat}
  {base : Set HashedVersion} {env : Environment ρ} {s s' : Traced ρ μ}
  {allowed : Traced ρ μ → (e : Effect μ) → e.Answer → Prop}

theorem Grounded.drift (hkeeps : ∀ memory, Monotone fun hashed => keeps hashed memory)
    (h : Grounded env.ext keeps limit base s) (hdrift : env.TraceDrift s s') :
    Grounded env.ext keeps limit base s' := by
  obtain ⟨count,hcrew⟩ := h.tasks
  exact h.carry_rows hkeeps (Environment.drifts_trace (.single hdrift)) hdrift.repository_eq
    ⟨count,stable_crew s s' hcrew hdrift⟩ (Or.inl hdrift.memory_eq)

/-- The files of a scan have digests that are known with the scan. -/
theorem relied_scan {options : ScanOptions} {root : ScanRoot} {states : List FileStateRecord}
    {answer : Except ScannerError ScanReport}
    (hstep : env.TraceStep allowed s (.scan options root states) answer s') :
    Relied keeps limit (knownDigests env.ext base s') (.scan options root states) answer := by
  obtain ⟨-,⟨⟨oracle,faults,tree,-,-,hanswer⟩,-⟩,htrace⟩ := hstep
  cases answer with
  | error error => trivial
  | ok report =>
    intro hashed' hle hrows file hfile
    refine scanRoot_sourced hanswer.symm hrows (fun hfresh md5 hmd5 => hle (Or.inr ?_)) hfile
    refine ⟨options,root,states,report,?_,⟨⟨oracle,faults,tree⟩,hanswer.symm⟩,
      fun view hgives => scan_digest hgives hfile hfresh hmd5⟩
    rw [htrace]
    exact List.mem_append_right _ List.mem_cons_self

theorem step_trace {e : Effect μ} {answer : e.Answer} (hstep : env.TraceStep allowed s e answer s') :
    s.trace <+: s'.trace := by
  rw [hstep.2.2]
  exact List.prefix_append _ _

/-- The rows that a call reads have known digests. -/
theorem Grounded.relied_state (h : Grounded env.ext keeps limit base s) {call : StateCall}
    {answer : Except StateError call.Result}
    (hstep : env.TraceStep allowed s (.state call) answer s') :
    Relied keeps limit (knownDigests env.ext base s') (.state call) answer := by
  cases answer with
  | error error => cases call <;> trivial
  | ok result =>
    cases call with
    | listFileStatesForRoot rootId =>
      obtain ⟨rfl,-⟩ := Prod.mk.inj (Except.ok.inj hstep.2.1.state_ok)
      intro record hrecord
      have hmem : record ∈ s.world.repository.fileStates.rows ∧ record.rootId = rootId := by
        simpa [Repository.listFileStatesForRoot,mem_sortByKey] using hrecord
      exact ⟨hmem.2,(h.rows record hmem.1).mono (knownDigests_mono (step_trace hstep))⟩
    | _ => trivial

/-- A call of the database, if the rows it stores have known digests. -/
theorem Grounded.step_state (hkeeps : ∀ memory, Monotone fun hashed => keeps hashed memory)
    (h : Grounded env.ext keeps limit base s) {call : StateCall}
    {answer : Except StateError call.Result}
    (hsingle : ∀ record, call = .upsertFileState record →
      record.Sourced (knownDigests env.ext base s) limit)
    (hmany : ∀ records, call = .upsertFileStates records →
      ∀ record ∈ records, record.Sourced (knownDigests env.ext base s) limit)
    (hstep : env.TraceStep allowed s (.state call) answer s') :
    Grounded env.ext keeps limit base s' := by
  obtain ⟨count,hcrew⟩ := h.tasks
  have hmemory := hstep.2.1.memory_eq (by simp)
  have htasks : ∃ count, Crew (Task.Sourced (knownDigests env.ext base s) limit) count s' :=
    ⟨count,hcrew.of_step rfl hstep⟩
  cases answer with
  | error error =>
    exact h.carry_rows hkeeps (step_trace hstep) hstep.2.1.state_error htasks (Or.inl hmemory)
  | ok result =>
    have hrows := sourced_of_call hstep.2.1.state_ok hsingle hmany h.rows
    exact h.carry hkeeps (step_trace hstep) (fun record hrecord => Or.inr
      ((hrows record hrecord).mono (knownDigests_mono (step_trace hstep)))) htasks (Or.inl hmemory)

/-- A task that is joined has uploaded a file with a known digest. -/
theorem Grounded.step_joinNext (hkeeps : ∀ memory, Monotone fun hashed => keeps hashed memory)
    (h : Grounded env.ext keeps limit base s) {answer : Option TaskOutcome}
    (hstep : env.TraceStep allowed s .joinNext answer s') :
    Grounded env.ext keeps limit base s' ∧
      Relied (μ := μ) keeps limit (knownDigests env.ext base s') .joinNext answer := by
  obtain ⟨count,hcrew⟩ := h.tasks
  have hcarry := h.carry_rows hkeeps (step_trace hstep) (hstep.2.1.repository_eq (by simp))
  have hmemory := hstep.2.1.memory_eq (by simp)
  cases (hcrew.mono (Nat.le_succ count)).join hstep with
  | none hnone hworld =>
    exact ⟨hcarry ⟨count,hcrew.of_tasks (by rw [hworld])⟩ (Or.inl hmemory),trivial⟩
  | @some task outcome hkind hyields _ _ hcrew' _ _ =>
    refine ⟨hcarry ⟨count,hcrew'⟩ (Or.inl hmemory),?_⟩
    cases task with
    | upload operationId file isUpdate cancelledText =>
      obtain ⟨result,rfl⟩ := hyields
      exact hkind.mono (knownDigests_mono (step_trace hstep))
    | createDirectory directory operationId =>
      obtain ⟨result,rfl⟩ := hyields
      trivial

/-- A step whose program sees to what is owed keeps every digest known, if the rows of adopted
files it stores have known digests up to the limit. -/
theorem Grounded.step (hkeeps : ∀ memory, Monotone fun hashed => keeps hashed memory)
    (h : Grounded env.ext keeps limit base s) {e : Effect μ} {answer : e.Answer}
    (howed : Owed keeps limit adoptionLimit (knownDigests env.ext base s) e)
    (hadopts : ∀ records, e = .state (.upsertFileStates records) → ∀ record ∈ records,
      record.Sourced (knownDigests env.ext base s) adoptionLimit →
        record.Sourced (knownDigests env.ext base s) limit)
    (hstep : env.TraceStep allowed s e answer s') :
    Grounded env.ext keeps limit base s' ∧
      Relied keeps limit (knownDigests env.ext base s') e answer := by
  obtain ⟨count,hcrew⟩ := h.tasks
  have hcarry := h.carry_rows hkeeps (step_trace hstep)
  have hperform := hstep.2.1
  cases e with
  | state call =>
    refine ⟨h.step_state hkeeps (fun record hcall => by subst hcall; exact howed)
      (fun records hcall record hrecord => ?_) hstep,h.relied_state hstep⟩
    exact hadopts records (by rw [hcall]) record hrecord (by subst hcall; exact howed record hrecord)
  | joinNext => exact h.step_joinNext hkeeps hstep
  | spawn task =>
    refine ⟨hcarry (hperform.repository_eq (by simp)) ⟨count+1,hcrew.spawn ?_ hstep⟩
      (Or.inl (hperform.memory_eq (by simp))),trivial⟩
    cases task with
    | upload operationId file isUpdate cancelledText => exact howed
    | createDirectory directory operationId => trivial
  | dropTasks =>
    exact ⟨hcarry (hperform.repository_eq (by simp)) ⟨0,crew_drop hstep⟩
      (Or.inl (hperform.memory_eq (by simp))),trivial⟩
  | updateMemory f =>
    refine ⟨hcarry (hperform.repository_eq (by simp)) ⟨count,hcrew.of_step rfl hstep⟩
      (Or.inr ?_),trivial⟩
    rw [hperform.memory_update]
    exact howed _ h.memory
  | readMemory =>
    refine ⟨hcarry (hperform.repository_eq (by simp)) ⟨count,hcrew.of_step rfl hstep⟩
      (Or.inl (hperform.memory_eq (by simp))),?_⟩
    rw [hperform.1]
    exact hkeeps _ (knownDigests_mono (step_trace hstep)) h.memory
  | scan options root states =>
    exact ⟨hcarry (hperform.repository_eq (by simp)) ⟨count,hcrew.of_step rfl hstep⟩
      (Or.inl (hperform.memory_eq (by simp))),relied_scan hstep⟩
  | _ =>
    exact ⟨hcarry (hperform.repository_eq (by simp)) ⟨count,hcrew.of_step rfl hstep⟩
      (Or.inl (hperform.memory_eq (by simp))),trivial⟩

theorem relied_mono (hkeeps : ∀ memory, Monotone fun hashed => keeps hashed memory)
    {hashed hashed' : Set HashedVersion} {e : Effect μ} {answer : e.Answer}
    (hle : hashed ≤ hashed') (h : Relied keeps limit hashed e answer) :
    Relied keeps limit hashed' e answer := by
  cases e with
  | readMemory => exact hkeeps _ hle h
  | state call =>
    cases call with
    | listFileStatesForRoot rootId =>
      cases answer with
      | ok records => exact fun record hrecord => ⟨(h record hrecord).1,(h record hrecord).2.mono hle⟩
      | error error => trivial
    | _ => trivial
  | scan options root states =>
    cases answer with
    | ok report => exact fun hashed'' hle' => h hashed'' (le_trans hle hle')
    | error error => trivial
  | joinNext =>
    match answer with
    | some (.uploaded outcome) => exact LocalFileEntry.Sourced.mono h hle
    | some (.created ..) => trivial
    | none => trivial
  | _ => trivial

/-- The world of an engine keeps its side of the contract, if what is adopted has known digests. -/
theorem honest_grounded (hkeeps : ∀ memory, Monotone fun hashed => keeps hashed memory)
    (hadopts : ∀ s records answer, allowed s (.state (.upsertFileStates records)) answer →
      ∀ hashed, ∀ record ∈ records, record.Sourced hashed adoptionLimit →
        record.Sourced hashed limit) :
    Honest (env.TraceStep allowed) env.TraceDrift (knownDigests env.ext base) (Relied keeps limit)
      (Owed keeps limit adoptionLimit) (Grounded env.ext keeps limit base) where
  grows _ _ _ _ := relied_mono hkeeps
  drift s s' h hdrift := ⟨h.drift hkeeps hdrift,
    knownDigests_mono (Environment.drifts_trace (.single hdrift))⟩
  answer s e answer s' h howed hstep := by
    have hnext := h.step hkeeps howed (fun records he => by
      subst he
      exact hadopts s records answer hstep.1 _) hstep
    refine ⟨hnext.1,knownDigests_mono ?_,hnext.2⟩
    rw [hstep.2.2]
    exact List.prefix_append _ _

end World

end YaDiskSync
