import YaDiskSync.Interleavings
import YaDiskSync.SyncEngine
import YaDiskSync.Trace

/-! The order of a scan's callbacks. The workers of a walk push what they find into shared lists,
in any order that lets a directory be visited before what is inside it; the lists are sorted by
relative path in the end, and the rows stored for them are kept apart by other columns. -/
namespace YaDiskSync

open SepPath Prog Interleavings

/-- A callback of a walk: where it belongs, and what it records. What the listing of a directory
gives belongs inside the directory. -/
structure WalkCallback where
  place : List Str
  event : ScanEvent
  deriving DecidableEq

section Callbacks

variable (ext : Externals) (oracle : ScanOracle) (context : ScanContext) (faults : ScanFaults)

def callbacksAt (item : LocalItem) : List WalkCallback :=
  (if isVisited ext context faults item.components then
    (handleWalkEntry ext oracle context faults item).toList.map (.mk item.components) else []) ++
  (walkErrors ext context faults item).map fun failure =>
    ⟨item.components ++ [[]],.failed failure⟩

def walkCallbacks (items : List LocalItem) : List WalkCallback :=
  (faults.listing []).toList.map (fun message => ⟨[[]],.failed (walkFailure context message)⟩) ++
    items.flatMap (callbacksAt ext oracle context faults)

/-- What is inside a directory is only known after its visit. -/
def WalkCallback.Precedes (a b : WalkCallback) : Prop := a.place <+: b.place ∧ a.place ≠ b.place

instance (a b : WalkCallback) : Decidable (a.Precedes b) :=
  inferInstanceAs (Decidable (a.place <+: b.place ∧ a.place ≠ b.place))

/-- The report of a walk whose callbacks run in the order given. -/
def walkReport (order : List WalkCallback) : ScanReport :=
  ((order.map WalkCallback.event).foldl ScanReport.push
    { rootId := context.root.id }).sortDeterministically

theorem event_walkCallbacks (items : List LocalItem) :
    (walkCallbacks ext oracle context faults items).map WalkCallback.event =
      walkEvents ext oracle context faults items := by
  have hvisit : ∀ item, (callbacksAt ext oracle context faults item).map WalkCallback.event =
      visitEvents ext oracle context faults item := by
    intro item
    unfold callbacksAt visitEvents
    rw [List.map_append,List.map_map]
    congr 1
    · split
      · simp [Function.comp_def]
      · rfl
  simp [walkCallbacks,walkEvents,List.map_flatMap,hvisit,Function.comp_def]

/-- The order of the items gives the report of the scanner. -/
theorem walkReport_walkCallbacks (tree : LocalTree) :
    walkReport context (walkCallbacks ext oracle context faults tree.items) =
      scanReport ext oracle context faults tree := by
  rw [walkReport,event_walkCallbacks]
  rfl

end Callbacks

namespace ScanEvent

def file? : ScanEvent → Option LocalFileEntry
  | .file entry => some entry
  | _ => none

def directory? : ScanEvent → Option LocalDirectoryEntry
  | .directory entry => some entry
  | _ => none

def skipped? : ScanEvent → Option SkippedScanItem
  | .skipped item => some item
  | _ => none

def failed? : ScanEvent → Option FailedScanItem
  | .failed item => some item
  | _ => none

def relativePath : ScanEvent → Str
  | .file entry => entry.relativePath
  | .directory entry => entry.relativePath
  | .skipped item => item.relativePath
  | .failed item => item.relativePath

/-- An error of the walk itself names no path. -/
def localPath? : ScanEvent → Option LocalPath
  | .file entry => some entry.localPath
  | .directory entry => some entry.localPath
  | .skipped item => some item.localPath
  | .failed item => item.localPath

/-- Two findings that go into one list of the report. -/
def SameList : ScanEvent → ScanEvent → Prop
  | .file _, .file _ | .directory _, .directory _ | .skipped _, .skipped _
  | .failed _, .failed _ => True
  | _, _ => False

end ScanEvent

/-- The lists of a report are the findings of each kind. -/
theorem foldl_push_eq (events : List ScanEvent) (report : ScanReport) :
    events.foldl ScanReport.push report = { report with
      files := report.files ++ events.filterMap ScanEvent.file?
      directories := report.directories ++ events.filterMap ScanEvent.directory?
      skipped := report.skipped ++ events.filterMap ScanEvent.skipped?
      failed := report.failed ++ events.filterMap ScanEvent.failed? } := by
  induction events generalizing report with
  | nil => simp
  | cons event events ih =>
    rw [List.foldl_cons,ih]
    cases event <;>
      simp [ScanReport.push,List.filterMap_cons,ScanEvent.file?,ScanEvent.directory?,
        ScanEvent.skipped?,ScanEvent.failed?]

theorem walkReport_eq (context : ScanContext) (order : List WalkCallback) :
    walkReport context order = {
      rootId := context.root.id
      files := sortByKey LocalFileEntry.relativePath (order.filterMap (·.event.file?))
      directories :=
        sortByKey LocalDirectoryEntry.relativePath (order.filterMap (·.event.directory?))
      skipped := sortByKey SkippedScanItem.relativePath (order.filterMap (·.event.skipped?))
      failed := sortByKey FailedScanItem.relativePath (order.filterMap (·.event.failed?)) } := by
  rw [walkReport,foldl_push_eq]
  simp [ScanReport.sortDeterministically,List.filterMap_map]

section Rows

variable {ρ κ : Type*} {key : ρ → κ} [DecidableEq κ]

theorem mem_foldl_put {rows : List ρ} {table : Table key} (hnodup : (rows.map key).Nodup) :
    ∀ row ∈ rows, row ∈ (rows.foldl Table.put table).rows := by
  induction rows using List.reverseRecOn with
  | nil => simp
  | append_singleton rows last ih =>
    rw [List.map_append,List.nodup_append'] at hnodup
    obtain ⟨hrows,-,hlast⟩ := hnodup
    intro row hrow
    rw [List.foldl_append,List.foldl_cons,List.foldl_nil,Table.mem_put]
    rcases List.mem_append.mp hrow with hrow | hrow
    · refine Or.inr ⟨ih hrows row hrow,fun hk => hlast (List.mem_map_of_mem hrow) ?_⟩
      simp [hk]
    · exact Or.inl (List.mem_singleton.mp hrow)

/-- Rows written one after another are all there in the end, one for each, just when no two share
a key. -/
theorem stored_each_iff {rows : List ρ} (table : Table key) :
    (rows.Nodup ∧ ∀ row ∈ rows, row ∈ (rows.foldl Table.put table).rows) ↔
      (rows.map key).Nodup := by
  constructor
  · rintro ⟨hnodup,hmem⟩
    refine List.Nodup.map_on (fun a ha b hb hk => ?_) hnodup
    exact List.inj_on_of_nodup_map (rows.foldl Table.put table).nodup (hmem a ha) (hmem b hb) hk
  · intro hkeys
    exact ⟨List.Nodup.of_map key hkeys,mem_foldl_put hkeys⟩

end Rows

section Findings

/-- The row of a skipped item. -/
def skippedRow (item : SkippedScanItem) : SkippedItemRecord :=
  { rootId := item.rootId, localPath := pathToStableString item.localPath
    relativePath := some item.relativePath, remotePath := item.remotePath
    reasonCode := item.reasonCode, reasonDetails := item.reasonDetails
    sizeBytes := item.sizeBytes.bind fun size =>
      if (size : Int) ≤ i64Max then some size else none }

/-- The row of a failed item, as it is stored. -/
def failedRow (item : FailedScanItem) : FailedItemRecord :=
  { rootId := item.rootId, localPath := some ((item.localPath.map pathToStableString).getD [])
    remotePath := some (item.remotePath.getD []), operation := "scan".toList
    errorKind := item.errorKind, errorMessage := item.errorMessage }

/-- The database after `record_scan_findings`. -/
def Repository.storeFindings (repository : Repository) (report : ScanReport) : Repository :=
  { repository with
    skippedItems := (report.skipped.map skippedRow).foldl Table.put repository.skippedItems
    failedItems := (report.failed.map failedRow).foldl Table.put repository.failedItems }

variable {ρ : Type} {env : Environment ρ} {allowed : Traced ρ SyncMemory → (e : Effect SyncMemory) →
  e.Answer → Prop}

/-- A call that cannot fail does its work on the database. -/
theorem state_runs (hdb : ¬ env.stateFails) {call : StateCall} {result : call.Result}
    {repository repository' : Repository} (hcall : call.run repository = .ok (result,repository')) :
    TryTriple (env.TraceStep allowed) env.TraceDrift (fun s => s.world.repository = repository)
      (SyncEngine.state call) (fun _ s => s.world.repository = repository') (fun _ => False)
      (fun _ => True) := by
  refine TryTriple.bind (Q := fun answer s => answer = .ok result ∧ s.world.repository = repository')
    (TryTriple.perform (fun _ _ h hdrift => hdrift.repository_eq.trans h) (fun _ _ => trivial)
      fun s answer s' h hstep => ?_) fun answer => ?_
  · have hperform := hstep.2.1.resolve_left fun hfails => hdb hfails.1
    rw [h,hcall] at hperform
    exact ⟨hperform.1,by rw [hperform.2]⟩
  · refine TryTriple.of_pure (fun s h => h.1) fun hanswer => ?_
    subst hanswer
    exact TryTriple.pure fun _ h => h.2

/-- What the engine stores of a scan. -/
theorem recordScanFindings_stores (hdb : ¬ env.stateFails) (repository : Repository)
    (report : ScanReport) :
    TryTriple (env.TraceStep allowed) env.TraceDrift (fun s => s.world.repository = repository)
      (SyncEngine.recordScanFindings report)
      (fun _ s => s.world.repository = repository.storeFindings report) (fun _ => False)
      (fun _ => True) := by
  have hskipped : ∀ (items : List SkippedScanItem) (repository : Repository),
      TryTriple (env.TraceStep allowed) env.TraceDrift (fun s => s.world.repository = repository)
        (SyncEngine.recordScanFindings.recordSkipped items)
        (fun _ s => s.world.repository = { repository with
          skippedItems := (items.map skippedRow).foldl Table.put repository.skippedItems })
        (fun _ => False) (fun _ => True) := by
    intro items
    induction items with
    | nil => exact fun repository => TryTriple.pure fun _ h => h
    | cons item items ih => exact fun repository => TryTriple.bind (state_runs hdb rfl) fun _ => ih _
  have hfailed : ∀ (items : List FailedScanItem) (repository : Repository),
      TryTriple (env.TraceStep allowed) env.TraceDrift (fun s => s.world.repository = repository)
        (SyncEngine.recordScanFindings.recordFailed items)
        (fun _ s => s.world.repository = { repository with
          failedItems := (items.map failedRow).foldl Table.put repository.failedItems })
        (fun _ => False) (fun _ => True) := by
    intro items
    induction items with
    | nil => exact fun repository => TryTriple.pure fun _ h => h
    | cons item items ih => exact fun repository => TryTriple.bind (state_runs hdb rfl) fun _ => ih _
  exact TryTriple.bind (hskipped report.skipped repository) fun _ => hfailed report.failed _

/-- Every skipped and every failed item of a report has a row of its own. -/
structure StoresEach (stored : Repository) (report : ScanReport) : Prop where
  skipped : (report.skipped.map skippedRow).Nodup ∧ ∀ row ∈ report.skipped.map skippedRow,
    row ∈ stored.skippedItems.rows
  failed : (report.failed.map failedRow).Nodup ∧ ∀ row ∈ report.failed.map failedRow,
    row ∈ stored.failedItems.rows

/-- Whatever a sound database holds before it, `record_scan_findings` succeeds, and stores a row
of its own for every skipped and every failed item of the report. -/
def RecordsEach (report : ScanReport) : Prop :=
  ∀ (ρ : Type) (env : Environment ρ), ¬ env.stateFails → ∀ w result w',
    Exec env.Perform env.Drift (SyncEngine.recordScanFindings report).run w (some result) w' →
      result = .ok () ∧ StoresEach w'.repository report

/-- The rows are told apart by their keys. -/
def FindingsApart (report : ScanReport) : Prop :=
  ((report.skipped.map skippedRow).map SkippedItemRecord.key).Nodup ∧
    ((report.failed.map failedRow).map FailedItemRecord.key).Nodup

theorem storesEach_iff {repository : Repository} {report : ScanReport} :
    StoresEach (repository.storeFindings report) report ↔ FindingsApart report := by
  constructor
  · rintro ⟨hs,hf⟩
    exact ⟨(stored_each_iff _).mp hs,(stored_each_iff _).mp hf⟩
  · rintro ⟨hs,hf⟩
    exact ⟨(stored_each_iff _).mpr hs,(stored_each_iff _).mpr hf⟩

/-- A finished run has stored the findings. -/
theorem exec_recordScanFindings {report : ScanReport} {w w' : World ρ SyncMemory}
    {result : Except SyncError Unit} (hdb : ¬ env.stateFails)
    (hrun : Exec env.Perform env.Drift (SyncEngine.recordScanFindings report).run w
      (some result) w') :
    result = .ok () ∧ w'.repository = w.repository.storeFindings report := by
  obtain ⟨trace',htraced⟩ := Environment.exec_traced hrun []
  have hstored := recordScanFindings_stores hdb w.repository report _ _ _ rfl htraced
  cases result with
  | ok _ => exact ⟨rfl,hstored⟩
  | error error => exact hstored.elim

/-- The rows are kept just when no two share a key. -/
theorem recordsEach_iff {report : ScanReport} : RecordsEach report ↔ FindingsApart report := by
  constructor
  · intro h
    -- a run against the mock client, from an empty database
    let env := mockEnvironment asciiExternals ⟨none,none⟩ fun _ _ => False
    have hadmits : env.Admits (mockResponder ⟨none,none⟩) := mockEnvironment_admits _ _ _
    have hstep : ∀ (w : World RemoteDisk SyncMemory) (e : Effect SyncMemory), True →
        (∃ w₁, Relation.ReflTransGen env.Drift w w₁ ∧ env.Perform w₁ e
          (w.answer (mockResponder ⟨none,none⟩) env.ext ⟨id,id,fun _ => [],fun _ => []⟩ e).1
          (w.answer (mockResponder ⟨none,none⟩) env.ext ⟨id,id,fun _ => [],fun _ => []⟩ e).2) ∧
        True := fun w e _ =>
      ⟨⟨_,w.drift_settle hadmits e,World.answer_performs _ w hadmits e⟩,trivial⟩
    have hrun := exec_runWith hstep (SyncEngine.recordScanFindings report).run
      ⟨LocalTree.empty,{},{},[],false,0,⟨⟨0,.running,{},[],[]⟩,{},none,none⟩⟩ trivial
    have hdb : ¬ env.stateFails := id
    have hstored := (h _ env hdb _ _ _ hrun).2
    rw [(exec_recordScanFindings hdb hrun).2] at hstored
    exact storesEach_iff.mp hstored
  · intro h ρ env hdb w result w' hrun
    obtain ⟨hok,hstored⟩ := exec_recordScanFindings hdb hrun
    rw [hstored]
    exact ⟨hok,storesEach_iff.mpr h⟩

end Findings

section Places

variable {ext : Externals} {oracle : ScanOracle} {context : ScanContext} {faults : ScanFaults}
  {item : LocalItem} {tree : LocalTree} {callback : WalkCallback} {components components' : List Str}

/-- A finding of a visit names the path of the item. -/
def ScanEvent.Names (context : ScanContext) (components : List Str) (event : ScanEvent) : Prop :=
  event.localPath? = some (context.root.localPath ++ components) ∧
    event.relativePath = relativePathOf components

theorem fileEntry_skipped {relative : Str} {skipped : SkippedScanItem}
    (h : fileEntry ext oracle context faults item relative = .ok (.skipped skipped)) :
    skipped.localPath = context.root.localPath ++ item.components ∧
      skipped.relativePath = relative := by
  unfold fileEntry at h
  simp only at h
  split at h
  · cases h
  split at h
  · cases h
  split at h
  · cases h
    exact ⟨rfl,rfl⟩
  split at h
  · cases h
  split at h
  · cases h
  split at h <;> cases h

theorem handleWalkEntry_names {event : ScanEvent}
    (h : handleWalkEntry ext oracle context faults item = some event) :
    event.Names context item.components := by
  unfold handleWalkEntry at h
  simp only at h
  split at h
  · cases h
    exact ⟨rfl,rfl⟩
  split at h
  · split at h
    · rename_i hd
      cases h
      obtain ⟨-,hrelative,hlocal,-⟩ := directoryEntry_remotePath hd
      exact ⟨congrArg some hlocal,hrelative⟩
    · cases h
      exact ⟨rfl,rfl⟩
  · split at h
    · rename_i hf
      cases h
      exact ⟨congrArg some (fileEntry_spec hf).localPath,(fileEntry_spec hf).relativePath⟩
    · rename_i hs
      cases h
      exact ⟨congrArg some (fileEntry_skipped hs).1,(fileEntry_skipped hs).2⟩
    · split at h <;> cases h <;> exact ⟨rfl,rfl⟩
  · cases h

theorem walkErrors_eq (ext : Externals) (context : ScanContext) (faults : ScanFaults)
    (item : LocalItem) : walkErrors ext context faults item = [] ∨
    ∃ message, walkErrors ext context faults item = [walkFailure context message] := by
  unfold walkErrors
  split
  · exact Or.inl rfl
  split
  · exact Or.inr ⟨_,rfl⟩
  split
  · cases faults.listing item.components with
    | none => exact Or.inl rfl
    | some message => exact Or.inr ⟨message,rfl⟩
  · exact Or.inl rfl

/-- A callback is the visit of an item or an error of the walk. -/
theorem mem_walkCallbacks {items : List LocalItem}
    (h : callback ∈ walkCallbacks ext oracle context faults items) :
    (∃ item ∈ items, callback.place = item.components ∧
        callback.event.Names context item.components) ∨
      ∃ dir message, callback = ⟨dir ++ [[]],.failed (walkFailure context message)⟩ := by
  rcases List.mem_append.mp h with h | h
  · obtain ⟨message,_,rfl⟩ := List.mem_map.mp h
    exact Or.inr ⟨[],message,rfl⟩
  obtain ⟨item,hitem,h⟩ := List.mem_flatMap.mp h
  rcases List.mem_append.mp h with h | h
  · split at h
    · obtain ⟨event,he,rfl⟩ := List.mem_map.mp h
      exact Or.inl ⟨item,hitem,rfl,handleWalkEntry_names (Option.mem_toList.mp he)⟩
    · cases h
  · obtain ⟨failure,hf,rfl⟩ := List.mem_map.mp h
    rcases walkErrors_eq ext context faults item with hnone | ⟨message,hsome⟩
    · rw [hnone] at hf
      cases hf
    · rw [hsome,List.mem_singleton] at hf
      subst hf
      exact Or.inr ⟨item.components,message,rfl⟩

/-- The places of the callbacks at an item. -/
theorem places_at (item : LocalItem) : ∀ place ∈ (callbacksAt ext oracle context faults item).map
    WalkCallback.place, place = item.components ∨ place = item.components ++ [[]] := by
  intro place h
  obtain ⟨callback,hc,rfl⟩ := List.mem_map.mp h
  rcases List.mem_append.mp hc with hc | hc
  · split at hc
    · obtain ⟨event,_,rfl⟩ := List.mem_map.mp hc
      exact Or.inl rfl
    · cases hc
  · obtain ⟨failure,_,rfl⟩ := List.mem_map.mp hc
    exact Or.inr rfl

theorem places_at_nodup (item : LocalItem) :
    ((callbacksAt ext oracle context faults item).map WalkCallback.place).Nodup := by
  have herrors : ((walkErrors ext context faults item).map fun _ =>
      item.components ++ [[]]).Nodup := by
    rcases walkErrors_eq ext context faults item with hnone | ⟨message,hsome⟩
    · simp [hnone]
    · simp [hsome]
  unfold callbacksAt
  rw [List.map_append,List.map_map]
  split
  · cases handleWalkEntry ext oracle context faults item with
    | none => simpa [Function.comp_def] using herrors
    | some event => simpa [Function.comp_def] using herrors
  · simpa [Function.comp_def] using herrors

/-- No two callbacks belong to one place. -/
theorem places_nodup (tree : LocalTree) :
    ((walkCallbacks ext oracle context faults tree.items).map WalkCallback.place).Nodup := by
  have hplain : ∀ item ∈ tree.items, [] ∉ item.components := fun item hitem h =>
    ((tree.names_ne item hitem).2 [] h).1 rfl
  have hitems := tree.nodup
  rw [List.Nodup,List.pairwise_map] at hitems
  have hflat : ((tree.items.flatMap (callbacksAt ext oracle context faults)).map
      WalkCallback.place).Nodup := by
    rw [List.map_flatMap,List.nodup_flatMap]
    refine ⟨fun item _ => places_at_nodup item,hitems.imp_of_mem fun {a b} ha hb hne => ?_⟩
    intro place hpa hpb
    rcases places_at a place hpa with h | h <;> rcases places_at b place hpb with h' | h'
    · exact hne (h.symm.trans h')
    · exact hplain a ha (by simp [← h,h'])
    · exact hplain b hb (by simp [← h',h])
    · exact hne (List.append_cancel_right (h.symm.trans h'))
  unfold walkCallbacks
  rw [List.map_append,List.nodup_append']
  refine ⟨?_,hflat,fun place hroot hplace => ?_⟩
  · cases faults.listing [] <;> simp
  · have hmark : place = [[]] := by
      cases hl : faults.listing [] with
      | none => simp [hl] at hroot
      | some message => simpa [hl] using hroot
    rw [List.map_flatMap] at hplace
    obtain ⟨item,hitem,hat⟩ := List.mem_flatMap.mp hplace
    rcases places_at item place hat with h | h
    · exact hplain item hitem (by simp [← h,hmark])
    · have hnil : item.components = [] := by
        rw [hmark] at h
        exact List.append_cancel_right h.symm
      exact (tree.names_ne item hitem).1 hnil

end Places

section Texts

variable {base components components' : List Str}

theorem stableString_append (hne : components ≠ []) :
    pathToStableString (base ++ components) =
      replaceChar '\\' slash (extend slash [] base) ++
        slash :: replaceChar '\\' slash ([slash].intercalate components) := by
  have hall : slash :: [slash].intercalate (base ++ components) =
      extend slash [] base ++ slash :: [slash].intercalate components := by
    have hlong : base ++ components ≠ [] := by simp [hne]
    have happend : extend slash [] (base ++ components) = _ := extend_append [] base components
    rwa [extend_eq_intercalate _ hlong,extend_eq_intercalate _ hne,List.nil_append] at happend
  unfold pathToStableString
  rw [hall]
  simp [replaceChar]

/-- Paths whose texts are the same have the same relative text. -/
theorem relativePathOf_of_stableString (hne : components ≠ []) (hne' : components' ≠ [])
    (h : pathToStableString (base ++ components) = pathToStableString (base ++ components')) :
    relativePathOf components = relativePathOf components' := by
  rw [stableString_append hne,stableString_append hne'] at h
  have htail := List.append_cancel_left h
  exact congrArg (trimMatches slash) (List.cons.inj htail).2

/-- The text of a path is shorter than that of a path inside it. -/
theorem stableString_ne_of_isPrefix (hne : components ≠ []) (hpre : components <+: components')
    (hlt : components ≠ components') :
    pathToStableString (base ++ components) ≠ pathToStableString (base ++ components') := by
  obtain ⟨rest,rfl⟩ := hpre
  have hrest : rest ≠ [] := by
    rintro rfl
    exact hlt (by simp)
  intro h
  rw [← List.append_assoc,stableString_append hrest] at h
  have hlength := congrArg List.length h
  have hlong : base ++ components ≠ [] := by simp [hne]
  have htext : slash :: [slash].intercalate (base ++ components) =
      extend slash [] (base ++ components) := by
    rw [extend_eq_intercalate _ hlong]
    rfl
  rw [pathToStableString,htext] at hlength
  simp [replaceChar] at hlength

end Texts

section Independence

variable (ext : Externals) (oracle : ScanOracle) (context : ScanContext) (faults : ScanFaults)
  (tree : LocalTree)

/-- The orders in which the workers may run the callbacks of a walk. -/
abbrev WalkOrder (order : List WalkCallback) : Prop :=
  IsOrder WalkCallback.Precedes (walkCallbacks ext oracle context faults tree.items) order

/-- The walk itself reports at most one error; two findings that go into one list under the same
relative path lie one inside the other. -/
structure WellSeparated (callbacks : List WalkCallback) : Prop where
  errors : ∀ a ∈ callbacks, ∀ b ∈ callbacks, a.event.localPath? = none →
    b.event.localPath? = none → a = b
  apart : ∀ a ∈ callbacks, ∀ b ∈ callbacks, a ≠ b → a.event.SameList b.event →
    a.event.relativePath = b.event.relativePath → a.Precedes b ∨ b.Precedes a

variable {ext oracle context faults tree} {a b : WalkCallback}

theorem precedes_length (a b : WalkCallback) (h : a.Precedes b) :
    a.place.length < b.place.length := by
  refine lt_of_le_of_ne h.1.length_le fun heq => h.2 ?_
  exact h.1.eq_of_length heq

theorem precedes_trans (a b c : WalkCallback) (h : a.Precedes b) (h' : b.Precedes c) :
    a.Precedes c := by
  refine ⟨h.1.trans h'.1,fun heq => ?_⟩
  have hlt := precedes_length a b h
  have hlt' := precedes_length b c h'
  rw [heq] at hlt
  omega

theorem walkCallbacks_nodup : (walkCallbacks ext oracle context faults tree.items).Nodup :=
  List.Nodup.of_map _ (places_nodup tree)

/-- Two callbacks that record the same are one, errors of the walk apart. -/
theorem eq_of_event (ha : a ∈ walkCallbacks ext oracle context faults tree.items)
    (hb : b ∈ walkCallbacks ext oracle context faults tree.items) (heq : a.event = b.event)
    (hpath : a.event.localPath? ≠ none) : a = b := by
  rcases mem_walkCallbacks ha with ⟨item,_,hplace,hnames⟩ | ⟨_,_,rfl⟩
  · rcases mem_walkCallbacks hb with ⟨item',_,hplace',hnames'⟩ | ⟨_,_,rfl⟩
    · have hpaths := hnames.1.symm.trans ((congrArg ScanEvent.localPath? heq).trans hnames'.1)
      have hcomponents := List.append_cancel_left (Option.some.inj hpaths)
      exact List.inj_on_of_nodup_map (places_nodup tree) ha hb
        (hplace.trans (hcomponents.trans hplace'.symm))
    · exact absurd (congrArg ScanEvent.localPath? heq) hpath
  · exact absurd rfl hpath

/-- One list of a report: its findings, and the text it is sorted by. -/
structure ReportList {β : Type} (pick : ScanEvent → Option β) (key : β → Str) : Prop where
  relative : ∀ event x, pick event = some x → key x = event.relativePath
  event : ∀ event event' x, pick event = some x → pick event' = some x → event = event'
  sameList : ∀ event event' x, pick event = some x →
    (event.SameList event' ↔ (pick event').isSome = true)

/-- A list that takes the events made in one way. -/
theorem ReportList.of_make {β : Type} {pick : ScanEvent → Option β} {key : β → Str}
    (make : β → ScanEvent) (hpick : ∀ event x, pick event = some x ↔ event = make x)
    (hkey : ∀ x, key x = (make x).relativePath)
    (hsame : ∀ x event, (make x).SameList event ↔ (pick event).isSome = true) :
    ReportList pick key where
  relative event x h := by rw [(hpick event x).mp h,hkey]
  event event event' x h h' := by rw [(hpick event x).mp h,(hpick event' x).mp h']
  sameList event event' x h := by rw [(hpick event x).mp h,hsame]

theorem reportList_files : ReportList ScanEvent.file? LocalFileEntry.relativePath := by
  refine .of_make .file (fun event x => ?_) (fun _ => rfl) fun x event => ?_
  · cases event <;> simp [ScanEvent.file?]
  · cases event <;> simp [ScanEvent.file?,ScanEvent.SameList]

theorem reportList_directories :
    ReportList ScanEvent.directory? LocalDirectoryEntry.relativePath := by
  refine .of_make .directory (fun event x => ?_) (fun _ => rfl) fun x event => ?_
  · cases event <;> simp [ScanEvent.directory?]
  · cases event <;> simp [ScanEvent.directory?,ScanEvent.SameList]

theorem reportList_skipped : ReportList ScanEvent.skipped? SkippedScanItem.relativePath := by
  refine .of_make .skipped (fun event x => ?_) (fun _ => rfl) fun x event => ?_
  · cases event <;> simp [ScanEvent.skipped?]
  · cases event <;> simp [ScanEvent.skipped?,ScanEvent.SameList]

theorem reportList_failed : ReportList ScanEvent.failed? FailedScanItem.relativePath := by
  refine .of_make .failed (fun event x => ?_) (fun _ => rfl) fun x event => ?_
  · cases event <;> simp [ScanEvent.failed?]
  · cases event <;> simp [ScanEvent.failed?,ScanEvent.SameList]

/-- A list of the report is the same in every order just when its findings with the same relative
path lie one inside the other. -/
theorem ReportList.agrees_iff {β : Type} {pick : ScanEvent → Option β} {key : β → Str}
    (hlist : ReportList pick key)
    (herrors : ∀ a ∈ walkCallbacks ext oracle context faults tree.items,
      ∀ b ∈ walkCallbacks ext oracle context faults tree.items,
        a.event.localPath? = none → b.event.localPath? = none → a = b) :
    (∀ order order', WalkOrder ext oracle context faults tree order →
      WalkOrder ext oracle context faults tree order' →
        sortByKey key (order.filterMap (pick ·.event)) =
          sortByKey key (order'.filterMap (pick ·.event))) ↔
      ∀ a ∈ walkCallbacks ext oracle context faults tree.items,
        ∀ b ∈ walkCallbacks ext oracle context faults tree.items, a ≠ b →
          (pick a.event).isSome = true → a.event.SameList b.event →
            a.event.relativePath = b.event.relativePath → a.Precedes b ∨ b.Precedes a := by
  have hpick : ∀ a ∈ walkCallbacks ext oracle context faults tree.items,
      ∀ b ∈ walkCallbacks ext oracle context faults tree.items,
        ∀ x, pick a.event = some x → pick b.event = some x → a = b := by
    intro a ha b hb x hx hy
    have heq := hlist.event _ _ x hx hy
    by_cases hpath : a.event.localPath? = none
    · exact herrors a ha b hb hpath (heq ▸ hpath)
    · exact eq_of_event ha hb heq hpath
  refine (sorted_reports_agree_iff key (fun callback => callback.place.length) precedes_length
    precedes_trans walkCallbacks_nodup hpick).trans ?_
  constructor
  · intro h a ha b hb hne hsome hsame hrelative
    obtain ⟨x,hx⟩ := Option.isSome_iff_exists.mp hsome
    obtain ⟨y,hy⟩ := Option.isSome_iff_exists.mp ((hlist.sameList _ _ x hx).mp hsame)
    refine h a ha b hb hne x y hx hy ?_
    rw [hlist.relative _ x hx,hlist.relative _ y hy,hrelative]
  · intro h a ha b hb hne x y hx hy hkey
    refine h a ha b hb hne (by simp [hx]) ((hlist.sameList _ _ x hx).mpr (by simp [hy])) ?_
    rw [← hlist.relative _ x hx,← hlist.relative _ y hy,hkey]

/-- The rows of the findings of one list have different keys when the paths they name have
different texts. -/
theorem keys_nodup {β κ : Type} {pick : ScanEvent → Option β} {row : β → κ}
    {order : List WalkCallback} (horder : WalkOrder ext oracle context faults tree order)
    (hrow : ∀ a ∈ walkCallbacks ext oracle context faults tree.items,
      ∀ b ∈ walkCallbacks ext oracle context faults tree.items, a ≠ b →
        ∀ x y, pick a.event = some x → pick b.event = some y → row x ≠ row y) :
    ((order.filterMap (pick ·.event)).map row).Nodup := by
  rw [List.Nodup,List.pairwise_map,List.pairwise_filterMap]
  refine (horder.perm.nodup_iff.mpr walkCallbacks_nodup).imp_of_mem fun ha hb hne x hx y hy => ?_
  exact hrow _ (horder.perm.mem_iff.mp ha) _ (horder.perm.mem_iff.mp hb) hne x y hx hy

/-- Findings of one list that name paths with the same text. -/
theorem WellSeparated.text_ne
    (h : WellSeparated (walkCallbacks ext oracle context faults tree.items))
    (ha : a ∈ walkCallbacks ext oracle context faults tree.items)
    (hb : b ∈ walkCallbacks ext oracle context faults tree.items) (hne : a ≠ b)
    (hsame : a.event.SameList b.event) :
    (a.event.localPath?.map pathToStableString).getD [] ≠
      (b.event.localPath?.map pathToStableString).getD [] := by
  rcases mem_walkCallbacks ha with ⟨item,hitem,hplace,hpath,hrelative⟩ | ⟨dir,message,rfl⟩
  · rcases mem_walkCallbacks hb with ⟨item',hitem',hplace',hpath',hrelative'⟩ | ⟨dir,message,rfl⟩
    · rw [hpath,hpath']
      intro htext
      have hitemNe := (tree.names_ne item hitem).1
      have hitemNe' := (tree.names_ne item' hitem').1
      have hrel := relativePathOf_of_stableString hitemNe hitemNe' htext
      rcases h.apart a ha b hb hne hsame (hrelative.trans (hrel.trans hrelative'.symm)) with
        ⟨hpre,hplaces⟩ | ⟨hpre,hplaces⟩
      · rw [hplace,hplace'] at hpre hplaces
        exact stableString_ne_of_isPrefix hitemNe hpre hplaces htext
      · rw [hplace,hplace'] at hpre hplaces
        exact stableString_ne_of_isPrefix hitemNe' hpre hplaces htext.symm
    · rw [hpath]
      exact List.cons_ne_nil _ _
  · rcases mem_walkCallbacks hb with ⟨item',_,_,hpath',_⟩ | ⟨dir',message',rfl⟩
    · rw [hpath']
      exact (List.cons_ne_nil _ _).symm
    · exact absurd (h.errors _ ha _ hb rfl rfl) hne

theorem map_sortByKey_nodup_iff {β κ : Type} {key : β → Str} {row : β → κ} {xs : List β} :
    ((sortByKey key xs).map row).Nodup ↔ (xs.map row).Nodup :=
  ((sortByKey_perm key xs).map row).nodup_iff

/-- Two errors of the walk itself would share a row. -/
theorem errors_eq_of_findingsApart {order : List WalkCallback}
    (horder : WalkOrder ext oracle context faults tree order)
    (happart : FindingsApart (walkReport context order)) :
    ∀ a ∈ walkCallbacks ext oracle context faults tree.items,
      ∀ b ∈ walkCallbacks ext oracle context faults tree.items,
        a.event.localPath? = none → b.event.localPath? = none → a = b := by
  intro a ha b hb hpa hpb
  by_contra hne
  have hkeys := happart.2
  simp only [walkReport_eq,List.map_map,map_sortByKey_nodup_iff] at hkeys
  rw [List.Nodup,List.pairwise_map,List.pairwise_filterMap] at hkeys
  have hwalk : ∀ c ∈ walkCallbacks ext oracle context faults tree.items,
      c.event.localPath? = none → ∃ message, c.event.failed? =
        some (walkFailure context message) := by
    intro c hc hpath
    rcases mem_walkCallbacks hc with ⟨_,_,_,hnames⟩ | ⟨_,message,rfl⟩
    · rw [hnames.1] at hpath
      cases hpath
    · exact ⟨message,rfl⟩
  obtain ⟨message,hma⟩ := hwalk a ha hpa
  obtain ⟨message',hmb⟩ := hwalk b hb hpb
  rcases pair_sublist_or (horder.perm.mem_iff.mpr ha) (horder.perm.mem_iff.mpr hb) hne with
    hsub | hsub
  · exact List.pairwise_iff_forall_sublist.mp hkeys hsub _ hma _ hmb rfl
  · exact List.pairwise_iff_forall_sublist.mp hkeys hsub _ hmb _ hma rfl

/-- Findings that are told apart by their relative paths have rows of their own. -/
theorem WellSeparated.findingsApart
    (h : WellSeparated (walkCallbacks ext oracle context faults tree.items))
    {order : List WalkCallback} (horder : WalkOrder ext oracle context faults tree order) :
    FindingsApart (walkReport context order) := by
  unfold FindingsApart
  simp only [walkReport_eq,List.map_map,map_sortByKey_nodup_iff]
  constructor
  · refine keys_nodup horder fun a ha b hb hne x y hx hy hkey => ?_
    have htext := h.text_ne ha hb hne
      ((reportList_skipped.sameList _ _ x hx).mpr (by simp [hy]))
    cases hea : a.event <;> rw [hea] at hx <;> cases hx
    cases heb : b.event <;> rw [heb] at hy <;> cases hy
    rw [hea,heb] at htext
    exact htext (congrArg Prod.snd hkey)
  · refine keys_nodup horder fun a ha b hb hne x y hx hy hkey => ?_
    have htext := h.text_ne ha hb hne
      ((reportList_failed.sameList _ _ x hx).mpr (by simp [hy]))
    cases hea : a.event <;> rw [hea] at hx <;> cases hx
    cases heb : b.event <;> rw [heb] at hy <;> cases hy
    rw [hea,heb] at htext
    exact htext (congrArg (fun key => key.2.2.1) hkey)

/-- The reports agree just when the findings of each list are told apart. -/
theorem walkReports_agree_iff
    (herrors : ∀ a ∈ walkCallbacks ext oracle context faults tree.items,
      ∀ b ∈ walkCallbacks ext oracle context faults tree.items,
        a.event.localPath? = none → b.event.localPath? = none → a = b) :
    (∀ order order', WalkOrder ext oracle context faults tree order →
      WalkOrder ext oracle context faults tree order' →
        walkReport context order = walkReport context order') ↔
      WellSeparated (walkCallbacks ext oracle context faults tree.items) := by
  simp only [walkReport_eq,ScanReport.mk.injEq,true_and]
  constructor
  · intro hreport
    have hfiles := (reportList_files.agrees_iff herrors).mp fun o o' h h' => (hreport o o' h h').1
    have hdirectories := (reportList_directories.agrees_iff herrors).mp fun o o' h h' =>
      (hreport o o' h h').2.1
    have hskipped := (reportList_skipped.agrees_iff herrors).mp fun o o' h h' =>
      (hreport o o' h h').2.2.1
    have hfailed := (reportList_failed.agrees_iff herrors).mp fun o o' h h' =>
      (hreport o o' h h').2.2.2
    refine ⟨herrors,fun a ha b hb hne hsame hrelative => ?_⟩
    cases hevent : a.event with
    | file entry => exact hfiles a ha b hb hne (by rw [hevent]; rfl) hsame hrelative
    | directory entry => exact hdirectories a ha b hb hne (by rw [hevent]; rfl) hsame hrelative
    | skipped item => exact hskipped a ha b hb hne (by rw [hevent]; rfl) hsame hrelative
    | failed item => exact hfailed a ha b hb hne (by rw [hevent]; rfl) hsame hrelative
  · intro h order order' horder horder'
    exact ⟨(reportList_files.agrees_iff herrors).mpr
        (fun a ha b hb hne _ => h.apart a ha b hb hne) order order' horder horder',
      (reportList_directories.agrees_iff herrors).mpr
        (fun a ha b hb hne _ => h.apart a ha b hb hne) order order' horder horder',
      (reportList_skipped.agrees_iff herrors).mpr
        (fun a ha b hb hne _ => h.apart a ha b hb hne) order order' horder horder',
      (reportList_failed.agrees_iff herrors).mpr
        (fun a ha b hb hne _ => h.apart a ha b hb hne) order order' horder horder'⟩

/-- A scan gives the same report in every order of the workers, and a row for each finding it
stores, just when at most one error is of the walk itself and the findings of a list are told apart
by their relative paths or lie one inside the other. -/
theorem scan_independent_iff (ext : Externals) (oracle : ScanOracle) (context : ScanContext)
    (faults : ScanFaults) (tree : LocalTree) :
    ((∀ order order', WalkOrder ext oracle context faults tree order →
      WalkOrder ext oracle context faults tree order' →
        walkReport context order = walkReport context order') ∧
      ∀ order, WalkOrder ext oracle context faults tree order →
        RecordsEach (walkReport context order)) ↔
      WellSeparated (walkCallbacks ext oracle context faults tree.items) := by
  constructor
  · rintro ⟨hreport,hrows⟩
    obtain ⟨order,horder⟩ := exists_isOrder (fun callback => callback.place.length)
      precedes_length (walkCallbacks ext oracle context faults tree.items)
    have happart := recordsEach_iff.mp (hrows order horder)
    exact (walkReports_agree_iff (errors_eq_of_findingsApart horder happart)).mp hreport
  · intro h
    exact ⟨(walkReports_agree_iff h.errors).mpr h,fun order horder =>
      recordsEach_iff.mpr (h.findingsApart horder)⟩

end Independence

/-- A root with two directories that cannot be listed. -/
private def lockedTree : LocalTree where
  items := [{ components := ["a".toList], fileType := .dir, sizeBytes_lt := emptySize_lt },
    { components := ["b".toList], fileType := .dir, sizeBytes_lt := emptySize_lt }]
  names_ne := by decide
  nodup := by decide
  closed := by decide

private def lockedContext : ScanContext where
  options := ScanOptions.fromConfig defaultConfig.sync [] [] "/staging".toList
  root := ⟨"r".toList,"/data".toList,"disk:/r".toList,[]⟩
  patternMatcher := ⟨[],[]⟩
  absoluteMatcher := ⟨[],["/staging".toList]⟩
  previousStates := fun _ => none

private def lockedFaults : ScanFaults where
  listing dir := dir.head?.map fun name => "permission denied: ".toList ++ name

private def lockedOracle : ScanOracle := ⟨id,id,fun _ => [],fun _ => []⟩

/-- Two errors of the walk have no path that would order them, and share a row. -/
theorem lockedTree_not_independent : ¬ ∀ ext oracle context faults tree,
    (∀ order order', WalkOrder ext oracle context faults tree order →
      WalkOrder ext oracle context faults tree order' →
        walkReport context order = walkReport context order') ∧
      ∀ order, WalkOrder ext oracle context faults tree order →
        RecordsEach (walkReport context order) := by
  intro h
  obtain ⟨hreport,-⟩ := h asciiExternals lockedOracle lockedContext lockedFaults lockedTree
  let callbacks := walkCallbacks asciiExternals lockedOracle lockedContext lockedFaults
    lockedTree.items
  let swapped := callbacks.take 1 ++ callbacks.drop 2 ++ (callbacks.drop 1).take 1
  have hdiff : walkReport lockedContext callbacks ≠ walkReport lockedContext swapped := by decide
  refine hdiff (hreport callbacks swapped ⟨List.Perm.refl _,?_⟩ ⟨?_,?_⟩)
  · decide
  · decide
  · decide

end YaDiskSync
