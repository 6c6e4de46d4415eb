import YaDiskSync.MigrationEngine

/-! The cached snapshot of a migration. The inventories of a root go into one table keyed by
path; the rows read back are told apart by the roots their paths lie under. -/
namespace YaDiskSync

open SepPath

section Insertion

variable {ρ κ : Type*} [DecidableEq κ] {key : ρ → κ}

theorem Table.find_isSome_iff {table : Table key} {k : κ} :
    (table.find k).isSome = true ↔ k ∈ table.rows.map key := by
  rw [Option.isSome_iff_exists,List.mem_map]
  exact exists_congr fun row => Table.find_eq_some

theorem Table.rows_put_of_absent {table : Table key} {row : ρ}
    (h : key row ∉ table.rows.map key) : (table.put row).rows = table.rows ++ [row] := by
  unfold Table.put
  rw [dif_neg h]

namespace Repository

/-- Rows are inserted if and only if no key is taken, and then they follow those there are. -/
theorem insertRemoteResources_eq (table : Table RemoteResourceRecord.key)
    (records : List RemoteResourceRecord) :
    insertRemoteResources table records =
      if h : ((table.rows ++ records).map RemoteResourceRecord.key).Nodup then
        .ok ⟨table.rows ++ records,h⟩
      else .error (.sqlite "UNIQUE constraint failed".toList) := by
  induction records generalizing table with
  | nil =>
    have h : ((table.rows ++ []).map RemoteResourceRecord.key).Nodup := by
      rw [List.append_nil]
      exact table.nodup
    rw [dif_pos h]
    simp only [List.append_nil]
    rfl
  | cons record records ih =>
    rw [insertRemoteResources]
    by_cases hk : record.key ∈ table.rows.map RemoteResourceRecord.key
    · have hdup : ¬ ((table.rows ++ record :: records).map RemoteResourceRecord.key).Nodup := by
        rw [List.map_append,List.map_cons]
        intro h
        exact (List.disjoint_of_nodup_append h) hk List.mem_cons_self
      rw [if_pos (Table.find_isSome_iff.mpr hk),dif_neg hdup]
    · have hrows : (table.put record).rows ++ records = table.rows ++ record :: records := by
        rw [Table.rows_put_of_absent hk,List.append_assoc]
        rfl
      rw [if_neg fun h => hk (Table.find_isSome_iff.mp h),ih]
      simp only [hrows]

variable {rootId : Str} {records : List RemoteResourceRecord}

theorem replaceRemoteResourcesForRoot_map (repository : Repository) (rootId : Str)
    (records : List RemoteResourceRecord) :
    repository.replaceRemoteResourcesForRoot rootId records =
      (insertRemoteResources (repository.remoteResources.deleteWhere fun row => row.rootId = rootId)
        records).map fun remoteResources => { repository with remoteResources } := rfl

theorem map_key_eq (hid : ∀ record ∈ records, record.rootId = rootId) :
    records.map RemoteResourceRecord.key =
      (records.map RemoteResourceRecord.remotePath).map (Prod.mk rootId) := by
  rw [List.map_map]
  apply List.map_congr_left
  intro record hr
  rw [RemoteResourceRecord.key,hid record hr]
  rfl

theorem keys_nodup_iff (hid : ∀ record ∈ records, record.rootId = rootId) :
    (records.map RemoteResourceRecord.key).Nodup ↔
      (records.map RemoteResourceRecord.remotePath).Nodup := by
  rw [map_key_eq hid,List.nodup_map_iff (Prod.mk_right_injective rootId)]

/-- Records of one root replace its rows if and only if their paths are distinct. -/
theorem replaceRemoteResourcesForRoot_ok_iff (repository : Repository)
    (hid : ∀ record ∈ records, record.rootId = rootId) :
    (∃ repository', repository.replaceRemoteResourcesForRoot rootId records = .ok repository') ↔
      (records.map RemoteResourceRecord.remotePath).Nodup := by
  let kept := repository.remoteResources.deleteWhere fun row => row.rootId = rootId
  have hnodup : ((kept.rows ++ records).map RemoteResourceRecord.key).Nodup ↔
      (records.map RemoteResourceRecord.remotePath).Nodup := by
    rw [List.map_append,List.nodup_append',and_iff_right kept.nodup,keys_nodup_iff hid,
      and_iff_left_iff_imp]
    intro _ key hk hr
    -- what is kept belongs to other roots
    obtain ⟨row,hrow,rfl⟩ := List.mem_map.mp hk
    obtain ⟨record,hrecord,he⟩ := List.mem_map.mp hr
    have hother := (Table.mem_deleteWhere.mp hrow).2
    exact of_decide_eq_false hother ((congrArg Prod.fst he).symm.trans (hid record hrecord))
  rw [← hnodup,replaceRemoteResourcesForRoot_map,insertRemoteResources_eq]
  by_cases h : ((kept.rows ++ records).map RemoteResourceRecord.key).Nodup
  · rw [dif_pos h]
    exact ⟨fun _ => h,fun _ => ⟨_,rfl⟩⟩
  · rw [dif_neg h]
    refine ⟨?_,fun h' => absurd h' h⟩
    rintro ⟨repository',he⟩
    cases he

/-- What is listed after a replacement are the records that replaced. -/
theorem listRemoteResourcesForRoot_replace {repository repository' : Repository}
    (hid : ∀ record ∈ records, record.rootId = rootId)
    (h : repository.replaceRemoteResourcesForRoot rootId records = .ok repository') :
    repository'.listRemoteResourcesForRoot rootId =
      sortByKey RemoteResourceRecord.remotePath records := by
  rw [replaceRemoteResourcesForRoot_map,insertRemoteResources_eq] at h
  split at h
  · cases h
    have hkept : (repository.remoteResources.deleteWhere fun row => row.rootId = rootId).rows.filter
        (fun row => decide (row.rootId = rootId)) = [] := by
      rw [List.filter_eq_nil_iff]
      intro row hrow
      simpa using (Table.mem_deleteWhere.mp hrow).2
    have hnew : records.filter (fun row => decide (row.rootId = rootId)) = records := by
      rw [List.filter_eq_self]
      intro record hr
      exact decide_eq_true (hid record hr)
    rw [listRemoteResourcesForRoot,List.filter_append,hkept,hnew,List.nil_append]
  · cases h

end Repository

end Insertion

/-- The records of all inventories, the canonical one first. -/
def RemoteSets.records (rootId : Str) (sets : RemoteSets) : List RemoteResourceRecord :=
  (sets.canonical.resources ++ sets.legacy.flatMap fun legacy => legacy.resources.resources).map
    (remoteResourceRecord rootId)

theorem recordRemoteResources_eq (config : AppConfig) (root : SyncRootConfig) (sets : RemoteSets) :
    MigrationEngine.recordRemoteResources config root sets = (do
      MigrationEngine.state (.replaceRemoteResourcesForRoot root.id (sets.records root.id))
      let now ← MigrationEngine.perform .now
      MigrationEngine.state (.setRootRemoteInventoryStatus
        (SyncEngine.completeInventoryStatus config root now (sets.records root.id).length))) := rfl

/-- What the cache keeps of a resource: its path, type, md5, time, and a size that fits. -/
def cachedForm (resource : ResourceMetadata) : ResourceMetadata :=
  { resource with
    name := lastRemoteSegment resource.path
    sizeBytes := resource.sizeBytes.filter fun size => (size : Int) ≤ i64Max
    revision := none
    created := none }

@[simp] theorem cachedForm_path (resource : ResourceMetadata) :
    (cachedForm resource).path = resource.path := rfl

theorem recordedMetadata_remoteResourceRecord (rootId : Str) (resource : ResourceMetadata) :
    recordedMetadata (remoteResourceRecord rootId resource) = cachedForm resource := by
  unfold recordedMetadata remoteResourceRecord cachedForm
  cases hs : resource.sizeBytes with
  | none => rfl
  | some size => by_cases hfit : (size : Int) ≤ i64Max <;> simp [Option.filter,hfit]

/-- Inside and outside of the canonical root a record is read in the same way. -/
theorem cachedResourceToMetadata_getD (canonicalRemotePath : Str) (record : RemoteResourceRecord) :
    (cachedResourceToMetadata canonicalRemotePath record).getD (recordedMetadata record) =
      recordedMetadata record := by
  unfold cachedResourceToMetadata
  split <;> rfl

section Split

/-- The resources of a list at or below a root, collected into an inventory. -/
def collectUnder (rootPath : Str) (resources : List ResourceMetadata) (inventory : Inventory) :
    Inventory :=
  (resources.filter fun resource => underRoot rootPath resource.path).foldl
    (fun m resource => m.insert resource.path resource) inventory

theorem collectUnder_cons (rootPath : Str) (resource : ResourceMetadata)
    (resources : List ResourceMetadata) (inventory : Inventory) :
    collectUnder rootPath (resource :: resources) inventory =
      collectUnder rootPath resources (if underRoot rootPath resource.path then
        inventory.insert resource.path resource else inventory) := by
  unfold collectUnder
  rw [List.filter_cons]
  by_cases h : underRoot rootPath resource.path = true
  · rw [if_pos h,if_pos h,List.foldl_cons]
  · rw [if_neg h,if_neg h]

def LegacyInventory.collect (resources : List ResourceMetadata) (legacy : LegacyInventory) :
    LegacyInventory :=
  { legacy with resources := collectUnder legacy.rootPath resources legacy.resources }

/-- A path lies under one of these roots at most. -/
def UnderOne (rootPaths : List Str) (path : Str) : Prop :=
  rootPaths.Pairwise fun a b => ¬ (underRoot a path = true ∧ underRoot b path = true)

theorem insertLegacy_eq_map {resource : ResourceMetadata} {inventories : List LegacyInventory}
    (h : UnderOne (inventories.map LegacyInventory.rootPath) resource.path) :
    insertLegacy resource inventories =
      inventories.map (LegacyInventory.collect [resource]) := by
  induction inventories with
  | nil => rfl
  | cons inventory rest ih =>
    rw [List.map_cons,UnderOne,List.pairwise_cons] at h
    by_cases hu : underRoot inventory.rootPath resource.path = true
    · have hrest : rest.map (LegacyInventory.collect [resource]) = rest := by
        conv_rhs => rw [← List.map_id rest]
        apply List.map_congr_left
        intro other ho
        have hn : ¬ underRoot other.rootPath resource.path = true := fun hother =>
          h.1 other.rootPath (List.mem_map_of_mem ho) ⟨hu,hother⟩
        simp [LegacyInventory.collect,collectUnder,hn]
      simp [insertLegacy,hu,hrest,LegacyInventory.collect,collectUnder]
    · rw [insertLegacy,if_neg hu,ih h.2]
      simp [LegacyInventory.collect,collectUnder,hu]

/-- With every path under one root at most, each inventory collects what lies under its own. -/
theorem foldl_splitStep {canonicalRemotePath : Str} {records : List RemoteResourceRecord}
    {sets : RemoteSets}
    (h : ∀ record ∈ records, UnderOne (canonicalRemotePath ::
      sets.legacy.map LegacyInventory.rootPath) record.remotePath) :
    records.foldl (splitStep canonicalRemotePath) sets =
      { sets with
        canonical := collectUnder canonicalRemotePath (records.map recordedMetadata) sets.canonical
        legacy := sets.legacy.map (LegacyInventory.collect (records.map recordedMetadata)) } := by
  induction records generalizing sets with
  | nil =>
    have hid : LegacyInventory.collect [] = id := rfl
    simp [collectUnder,hid]
  | cons record records ih =>
    have hrecord := h record List.mem_cons_self
    rw [UnderOne,List.pairwise_cons] at hrecord
    have hone : UnderOne (sets.legacy.map LegacyInventory.rootPath) (recordedMetadata record).path :=
      hrecord.2
    have hcollect : ∀ legacy : LegacyInventory,
        LegacyInventory.collect ((record :: records).map recordedMetadata) legacy =
          (legacy.collect [recordedMetadata record]).collect (records.map recordedMetadata) := by
      intro legacy
      simp only [LegacyInventory.collect,List.map_cons,collectUnder_cons]
      rfl
    have hroots : ((insertLegacy (recordedMetadata record) sets.legacy).map
        LegacyInventory.rootPath) = sets.legacy.map LegacyInventory.rootPath := by
      rw [insertLegacy_eq_map hone,List.map_map]
      rfl
    have hnone : underRoot canonicalRemotePath record.remotePath = true →
        insertLegacy (recordedMetadata record) sets.legacy = sets.legacy := by
      intro hu
      rw [insertLegacy_eq_map hone]
      conv_rhs => rw [← List.map_id sets.legacy]
      apply List.map_congr_left
      intro legacy hl
      have hn : ¬ underRoot legacy.rootPath (recordedMetadata record).path = true := fun hother =>
        hrecord.1 legacy.rootPath (List.mem_map_of_mem hl) ⟨hu,hother⟩
      simp [LegacyInventory.collect,collectUnder,hn]
    have hstep : splitStep canonicalRemotePath sets record =
        { sets with
          canonical := if underRoot canonicalRemotePath record.remotePath then
            sets.canonical.insert record.remotePath (recordedMetadata record) else sets.canonical
          legacy := insertLegacy (recordedMetadata record) sets.legacy } := by
      unfold splitStep
      rw [cachedResourceToMetadata_getD]
      by_cases hu : underRoot canonicalRemotePath record.remotePath = true
      · rw [hnone hu]
        simp only [hu]
        exact if_pos hu
      · simp only [hu]
        exact if_neg hu
    rw [List.foldl_cons,hstep,ih fun other ho => by
      rw [hroots]
      exact h other (List.mem_cons_of_mem _ ho)]
    simp only [List.map_cons,collectUnder_cons,insertLegacy_eq_map hone,List.map_map]
    congr 1
    apply List.map_congr_left
    intro legacy _
    exact (hcollect legacy).symm

theorem splitCachedRemoteSets_eq {root : SyncRootConfig} {canonicalRemotePath : Str}
    {records : List RemoteResourceRecord} {fromCache : Bool}
    (h : ∀ record ∈ records, UnderOne (canonicalRemotePath :: root.legacyRemotePaths)
      record.remotePath) :
    splitCachedRemoteSets root canonicalRemotePath records fromCache = {
      canonical := collectUnder canonicalRemotePath (records.map recordedMetadata) ∅
      legacy := root.legacyRemotePaths.map fun rootPath =>
        { rootPath, resources := collectUnder rootPath (records.map recordedMetadata) ∅ }
      fromCache } := by
  have hroots : (root.legacyRemotePaths.map fun rootPath =>
      ({ rootPath, resources := ∅ } : LegacyInventory)).map LegacyInventory.rootPath =
        root.legacyRemotePaths := by
    rw [List.map_map]
    exact List.map_id _
  unfold splitCachedRemoteSets
  rw [foldl_splitStep fun record hr => by
    rw [hroots]
    exact h record hr]
  simp only [List.map_map]
  rfl

end Split

theorem underRoot_iff {rootPath path : Str} (ht : trimEndMatches slash rootPath = rootPath) :
    underRoot rootPath path = true ↔ Covers slash rootPath path := by
  simp [underRoot,ht,Covers,Beneath]

/-- Remote paths without a slash at the end, none at or below another. -/
structure RootsApart (rootPaths : List Str) : Prop where
  trimmed : ∀ rootPath ∈ rootPaths, trimEndMatches slash rootPath = rootPath
  apart : rootPaths.Pairwise fun a b => ¬ Covers slash a b ∧ ¬ Covers slash b a

theorem RootsApart.underOne {rootPaths : List Str} (h : RootsApart rootPaths) (path : Str) :
    UnderOne rootPaths path := by
  refine h.apart.imp_of_mem ?_
  intro a b ha hb hab hpath
  rw [underRoot_iff (h.trimmed a ha),underRoot_iff (h.trimmed b hb)] at hpath
  rcases hpath.1.total hpath.2 with hcovers | hcovers
  · exact hab.1 hcovers
  · exact hab.2 hcovers

/-- Every resource is filed under its own path, at or below the root. -/
structure Inventory.LiesUnder (inventory : Inventory) (rootPath : Str) : Prop where
  keyed : inventory.Keyed
  under : ∀ resource ∈ inventory.resources, Covers slash rootPath resource.path

/-- The canonical inventory and the legacy ones, each with the root it belongs to. -/
def RemoteSets.inventories (canonicalRemotePath : Str) (sets : RemoteSets) :
    List LegacyInventory :=
  { rootPath := canonicalRemotePath, resources := sets.canonical } :: sets.legacy

section Recorded

variable {canonicalRemotePath rootId : Str} {sets : RemoteSets}

theorem records_eq (canonicalRemotePath : Str) : sets.records rootId =
    ((sets.inventories canonicalRemotePath).flatMap fun inventory =>
      inventory.resources.resources).map (remoteResourceRecord rootId) := rfl

/-- The recorded paths are distinct if and only if no two inventories share a path. -/
theorem records_nodup_iff
    (hkeyed : ∀ inventory ∈ sets.inventories canonicalRemotePath, inventory.resources.Keyed) :
    ((sets.records rootId).map RemoteResourceRecord.remotePath).Nodup ↔
      (sets.inventories canonicalRemotePath).Pairwise fun a b =>
        ∀ path : Str, ¬ (path ∈ a.resources ∧ path ∈ b.resources) := by
  have hpaths : (sets.records rootId).map RemoteResourceRecord.remotePath =
      (sets.inventories canonicalRemotePath).flatMap fun inventory =>
        inventory.resources.resources.map ResourceMetadata.path := by
    rw [records_eq canonicalRemotePath,List.map_map]
    exact List.map_flatMap
  have hown : ∀ inventory ∈ sets.inventories canonicalRemotePath,
      (inventory.resources.resources.map ResourceMetadata.path).Nodup :=
    fun inventory hi => Inventory.nodup_paths (hkeyed inventory hi)
  rw [hpaths,List.nodup_flatMap,and_iff_right hown]
  refine List.Pairwise.iff_of_mem ?_
  intro a b ha hb
  simp only [Function.onFun,List.disjoint_left,Inventory.mem_paths (hkeyed a ha),
    Inventory.mem_paths (hkeyed b hb),not_and]

theorem rootId_of_mem_records {record : RemoteResourceRecord} (h : record ∈ sets.records rootId) :
    record.rootId = rootId := by
  obtain ⟨resource,_,rfl⟩ := List.mem_map.mp h
  rfl

/-- What the rows of a root read back as are the cached forms of its resources. -/
theorem mem_map_recordedMetadata (canonicalRemotePath : Str) {resource : ResourceMetadata} :
    resource ∈ (sortByKey RemoteResourceRecord.remotePath (sets.records rootId)).map
        recordedMetadata ↔
      ∃ inventory ∈ sets.inventories canonicalRemotePath,
        ∃ original ∈ inventory.resources.resources, cachedForm original = resource := by
  simp only [records_eq canonicalRemotePath,List.mem_map,mem_sortByKey,List.mem_flatMap]
  constructor
  · rintro ⟨_,⟨original,⟨inventory,hi,ho⟩,rfl⟩,rfl⟩
    exact ⟨inventory,hi,original,ho,(recordedMetadata_remoteResourceRecord _ _).symm⟩
  · rintro ⟨inventory,hi,original,ho,rfl⟩
    exact ⟨_,⟨original,⟨inventory,hi,ho⟩,rfl⟩,recordedMetadata_remoteResourceRecord _ _⟩

/-- An inventory that collects its own resources from a list holds their cached forms. -/
theorem getElem?_collectUnder {inventory : Inventory} {rootPath : Str}
    {resources : List ResourceMetadata} (hkeyed : inventory.Keyed)
    (hown : ∀ resource, resource ∈ resources ∧ underRoot rootPath resource.path = true ↔
      ∃ original ∈ inventory.resources, cachedForm original = resource) (path : Str) :
    (collectUnder rootPath resources ∅)[path]? = inventory[path]?.map cachedForm := by
  have hnamed : ∀ resource ∈ resources.filter fun resource => underRoot rootPath resource.path,
      inventory[resource.path]?.map cachedForm = some resource := by
    intro resource hr
    obtain ⟨original,ho,rfl⟩ := (hown resource).mp (List.mem_filter.mp hr)
    rw [cachedForm_path,(Inventory.mem_resources_iff hkeyed).mp ho]
    rfl
  rw [collectUnder,Inventory.getElem?_foldl_insert_of
    (fun path => inventory[path]?.map cachedForm) ∅ _ hnamed]
  split
  · rfl
  · rename_i hnone
    cases ho : inventory[path]? with
    | none => rfl
    | some original =>
      -- a resource of the inventory is in the list
      have hpath : original.path = path := hkeyed path original ho
      have hmem := (hown (cachedForm original)).mpr
        ⟨original,Inventory.mem_resources.mpr ⟨path,ho⟩,rfl⟩
      exact absurd ⟨_,List.mem_filter.mpr hmem,hpath⟩ hnone

/-- Of roots apart a resource lies under the root of its own inventory only. -/
theorem own_of_underRoot {inventories : List LegacyInventory}
    (hapart : RootsApart (inventories.map LegacyInventory.rootPath))
    (hunder : ∀ inventory ∈ inventories, inventory.resources.LiesUnder inventory.rootPath)
    {inventory other : LegacyInventory} (hi : inventory ∈ inventories) (ho : other ∈ inventories)
    {resource : ResourceMetadata} (hr : resource ∈ other.resources.resources)
    (hu : underRoot inventory.rootPath resource.path = true) :
    resource ∈ inventory.resources.resources := by
  by_cases he : inventory = other
  · rwa [he]
  · have : Std.Symm fun a b : LegacyInventory =>
        ¬ Covers slash a.rootPath b.rootPath ∧ ¬ Covers slash b.rootPath a.rootPath :=
      ⟨fun a b h => h.symm⟩
    have hne := (List.pairwise_map.mp hapart.apart).forall hi ho he
    have hcovers := (underRoot_iff (hapart.trimmed _ (List.mem_map_of_mem hi))).mp hu
    rcases hcovers.total ((hunder other ho).under resource hr) with h | h
    · exact absurd h hne.1
    · exact absurd h hne.2

end Recorded

/-- For roots apart the inventories written to the cache are read back as they were, up to what
the cache does not keep. -/
theorem remoteCache_roundTrips (repository : Repository) (root : SyncRootConfig)
    (canonicalRemotePath : Str) (sets : RemoteSets) (fromCache : Bool)
    (hroots : sets.legacy.map LegacyInventory.rootPath = root.legacyRemotePaths)
    (hapart : RootsApart (canonicalRemotePath :: root.legacyRemotePaths))
    (hunder : ∀ inventory ∈ sets.inventories canonicalRemotePath,
      inventory.resources.LiesUnder inventory.rootPath) :
    ∃ repository', repository.replaceRemoteResourcesForRoot root.id (sets.records root.id) =
        .ok repository' ∧
      let recalled := splitCachedRemoteSets root canonicalRemotePath
        (repository'.listRemoteResourcesForRoot root.id) fromCache
      (∀ path : Str, recalled.canonical[path]? = sets.canonical[path]?.map cachedForm) ∧
      List.Forall₂ (fun recalled legacy : LegacyInventory => recalled.rootPath = legacy.rootPath ∧
          ∀ path : Str, recalled.resources[path]? = legacy.resources[path]?.map cachedForm)
        recalled.legacy sets.legacy := by
  have hapart' : RootsApart
      ((sets.inventories canonicalRemotePath).map LegacyInventory.rootPath) := by
    rw [RemoteSets.inventories,List.map_cons,hroots]
    exact hapart
  have hkeyed : ∀ inventory ∈ sets.inventories canonicalRemotePath, inventory.resources.Keyed :=
    fun inventory hi => (hunder inventory hi).keyed
  have hdistinct : ((sets.records root.id).map RemoteResourceRecord.remotePath).Nodup := by
    rw [records_nodup_iff hkeyed]
    refine (List.pairwise_map.mp hapart'.apart).imp_of_mem ?_
    rintro a b ha hb hab path ⟨hpa,hpb⟩
    have hcover : ∀ inventory ∈ sets.inventories canonicalRemotePath,
        path ∈ inventory.resources → Covers slash inventory.rootPath path := by
      intro inventory hi hpath
      obtain ⟨resource,hr,rfl⟩ := List.mem_map.mp ((Inventory.mem_paths (hkeyed _ hi)).mpr hpath)
      exact (hunder inventory hi).under resource hr
    rcases (hcover a ha hpa).total (hcover b hb hpb) with h | h
    · exact hab.1 h
    · exact hab.2 h
  obtain ⟨repository',hreplaced⟩ := (Repository.replaceRemoteResourcesForRoot_ok_iff repository
    fun _ => rootId_of_mem_records).mpr hdistinct
  refine ⟨repository',hreplaced,?_⟩
  rw [Repository.listRemoteResourcesForRoot_replace (fun _ => rootId_of_mem_records) hreplaced]
  -- every inventory collects its own resources among the rows
  have hown : ∀ inventory ∈ sets.inventories canonicalRemotePath, ∀ path : Str,
      (collectUnder inventory.rootPath ((sortByKey RemoteResourceRecord.remotePath
        (sets.records root.id)).map recordedMetadata) ∅)[path]? =
          inventory.resources[path]?.map cachedForm := by
    intro inventory hi path
    refine getElem?_collectUnder (hkeyed inventory hi) ?_ path
    intro resource
    rw [mem_map_recordedMetadata canonicalRemotePath]
    constructor
    · rintro ⟨⟨other,ho,original,hr,rfl⟩,hu⟩
      exact ⟨original,own_of_underRoot hapart' hunder hi ho hr hu,rfl⟩
    · rintro ⟨original,hr,rfl⟩
      refine ⟨⟨inventory,hi,original,hr,rfl⟩,?_⟩
      rw [underRoot_iff (hapart'.trimmed _ (List.mem_map_of_mem hi))]
      exact (hunder inventory hi).under original hr
  rw [splitCachedRemoteSets_eq fun record _ => hapart.underOne record.remotePath]
  refine ⟨hown _ List.mem_cons_self,?_⟩
  rw [← hroots,List.map_map,List.forall₂_map_left_iff,List.forall₂_same]
  intro legacy hl
  exact ⟨rfl,hown legacy (List.mem_cons_of_mem _ hl)⟩

private def siblingRoot : SyncRootConfig :=
  { id := "r".toList, name := "r".toList, enabled := true, localPath := "/r".toList
    legacyRemotePaths := ["disk:/old".toList,"disk:/older".toList] }

private def siblingSets : RemoteSets where
  canonical := .ofResources [.ofDirectory "disk:/R".toList,.ofFile "disk:/R/a".toList 1]
  legacy := [
    { rootPath := "disk:/old".toList, resources := .ofResources [.ofFile "disk:/old/a".toList 2] },
    { rootPath := "disk:/older".toList
      resources := .ofResources [.ofFile "disk:/older/a".toList 3] }]
  fromCache := false

/-- Names that extend each other do not mix. -/
theorem siblingCache_roundTrips : ∃ repository',
    ({} : Repository).replaceRemoteResourcesForRoot siblingRoot.id
        (siblingSets.records siblingRoot.id) = .ok repository' ∧
      let recalled := splitCachedRemoteSets siblingRoot "disk:/R".toList
        (repository'.listRemoteResourcesForRoot siblingRoot.id) true
      (∀ path : Str, recalled.canonical[path]? = siblingSets.canonical[path]?.map cachedForm) ∧
      List.Forall₂ (fun recalled legacy : LegacyInventory => recalled.rootPath = legacy.rootPath ∧
          ∀ path : Str, recalled.resources[path]? = legacy.resources[path]?.map cachedForm)
        recalled.legacy siblingSets.legacy := by
  refine remoteCache_roundTrips {} siblingRoot "disk:/R".toList siblingSets true rfl
    ⟨by decide,by decide⟩ ?_
  have hunder : ∀ (rootPath : Str) (resources : List ResourceMetadata),
      (∀ resource ∈ resources, Covers slash rootPath resource.path) →
        (Inventory.ofResources resources).LiesUnder rootPath := fun rootPath resources h =>
    ⟨Inventory.keyed_ofResources resources,fun resource hr =>
      h resource (Inventory.mem_of_mem_ofResources hr)⟩
  simp only [RemoteSets.inventories,siblingSets,List.forall_mem_cons]
  exact ⟨hunder _ _ (by decide),hunder _ _ (by decide),hunder _ _ (by decide),by simp⟩

end YaDiskSync
