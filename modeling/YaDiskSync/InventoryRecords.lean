import YaDiskSync.ListingTree
import YaDiskSync.MockClient
import YaDiskSync.RemoteCache

/-! What a migration records of its inventories. The canonical path and the legacy paths are free
configuration values, so their listings may meet; the table then refuses the records. -/
namespace YaDiskSync

open SepPath

/-- A listing that is asked for: the path listed and the prefixes pruned from it. -/
structure ListedRoot where
  path : Str
  pruned : List Str

namespace ListedRoot

variable (a b : ListedRoot)

/-- Strictly below a pruned prefix. -/
def Prunes (path : Str) : Prop :=
  ∃ pruned ∈ a.pruned, Beneath slash (trimEndMatches slash pruned) path

/-- Where a resource has to be to get into the listing. -/
def Reaches (path : Str) : Prop :=
  path = a.path ∨ (Beneath slash (trimEndMatches slash a.path) path ∧ ¬ a.Prunes path)

variable {a b}

theorem trimEndMatches_idem (path : Str) :
    trimEndMatches slash (trimEndMatches slash path) = trimEndMatches slash path :=
  List.rdropWhile_idempotent _ path

theorem covers_trim (path : Str) : Covers slash (trimEndMatches slash path) path :=
  (covers_trimEndMatches_iff (trimEndMatches_idem path) path).mpr (Covers.refl _)

/-- What is pruned with a path is pruned with all that lies below it. -/
theorem Prunes.below {path q : Str} (h : a.Prunes path)
    (hq : Beneath slash (trimEndMatches slash path) q) : a.Prunes q := by
  obtain ⟨pruned,hp,hbeneath⟩ := h
  have hcovers := (covers_trimEndMatches_iff (trimEndMatches_idem pruned) path).mp
    hbeneath.covers
  exact ⟨pruned,hp,hcovers.beneath hq⟩

/-- Listings that meet below a root reach that root as well. -/
theorem reaches_of_covers {q : Str}
    (hcovers : Covers slash (trimEndMatches slash a.path) (trimEndMatches slash b.path))
    (ha : ¬ a.Prunes q) (hbeneath : Beneath slash (trimEndMatches slash b.path) q)
    (hne : trimEndMatches slash a.path ≠ b.path) : a.Reaches b.path := by
  refine Or.inr ⟨(hcovers.trans (covers_trim b.path)).beneath_of_ne hne,?_⟩
  intro hpruned
  exact ha (hpruned.below hbeneath)

/-- Two listings meet if and only if one reaches the root of the other. -/
theorem exists_reaches_iff : (∃ q, a.Reaches q ∧ b.Reaches q) ↔
    a.Reaches b.path ∨ b.Reaches a.path := by
  constructor
  · rintro ⟨q,haq,hbq⟩
    rcases haq with rfl | ⟨haq,hap⟩
    · exact Or.inr hbq
    rcases hbq with rfl | ⟨hbq,hbp⟩
    · exact Or.inl (Or.inr ⟨haq,hap⟩)
    rcases haq.covers.total hbq.covers with h | h
    · by_cases hne : trimEndMatches slash a.path = b.path
      · by_cases he : b.path = a.path
        · exact Or.inl (Or.inl he)
        · -- the two paths differ by slashes at the end of the other
          have hb : trimEndMatches slash b.path = b.path := by
            rw [← hne,trimEndMatches_idem]
          refine Or.inr (reaches_of_covers ?_ hbp haq (by rwa [hb]))
          rw [hb,hne]
          exact Covers.refl _
      · exact Or.inl (reaches_of_covers h hap hbq hne)
    · by_cases hne : trimEndMatches slash b.path = a.path
      · by_cases he : a.path = b.path
        · exact Or.inr (Or.inl he)
        · have ha : trimEndMatches slash a.path = a.path := by
            rw [← hne,trimEndMatches_idem]
          refine Or.inl (reaches_of_covers ?_ hap hbq (by rwa [ha]))
          rw [ha,hne]
          exact Covers.refl _
      · exact Or.inr (reaches_of_covers h hbp haq hne)
  · rintro (h | h)
    · exact ⟨b.path,h,Or.inl rfl⟩
    · exact ⟨a.path,Or.inl rfl,h⟩

end ListedRoot

/-- The listings a migration asks for, the canonical one first. -/
def listedRoots (root : SyncRootConfig) (canonicalRemotePath : Str) (livePlan : LiveScanPlan) :
    List ListedRoot :=
  { path := canonicalRemotePath, pruned := livePlan.pruneRemotePrefixes } ::
    root.legacyRemotePaths.map fun legacyRoot =>
      { path := legacyRoot
        pruned := livePlan.deletedSubtrees.map fun subtree =>
          joinRemotePath legacyRoot subtree.relativePrefix }

/-- Both listed paths are there, and one listing reaches the root of the other. -/
def RemoteDisk.Clashes (disk : RemoteDisk) (a b : ListedRoot) : Prop :=
  a.path ∈ disk.resources ∧ b.path ∈ disk.resources ∧ (a.Reaches b.path ∨ b.Reaches a.path)

section Fresh

variable {disk : RemoteDisk} {listed : ListedRoot}

theorem Inventory.mem_foldl_insert {resources : List ResourceMetadata} {inventory : Inventory}
    {path : Str} : path ∈ resources.foldl (fun m r => m.insert r.path r) inventory ↔
      path ∈ inventory ∨ path ∈ resources.map ResourceMetadata.path := by
  induction resources generalizing inventory with
  | nil => simp
  | cons next resources ih =>
    rw [List.foldl_cons,ih,Std.TreeMap.mem_insert,Std.LawfulEqCmp.compare_eq_iff_eq,
      List.map_cons,List.mem_cons]
    grind

theorem freshInventory_eq (disk : RemoteDisk) (path : Str) (pruned : List Str) :
    disk.freshInventory path pruned = match disk.metadata path with
      | none => ∅
      | some root => .ofResources (root :: disk.listRecursive path pruned) := rfl

theorem keyed_freshInventory (disk : RemoteDisk) (path : Str) (pruned : List Str) :
    (disk.freshInventory path pruned).Keyed := by
  rw [freshInventory_eq]
  split
  · intro key resource h
    simp at h
  · exact Inventory.keyed_ofResources _

theorem stripPrefix_any_slash_iff {pruned path : Str} :
    (decide (path ≠ pruned) && (stripPrefix pruned path).any fun suffix =>
      suffix.head? == some slash) = true ↔ Beneath slash pruned path := by
  rw [beneath_iff,Bool.and_eq_true,decide_eq_true_eq,Option.any_eq_true]
  constructor
  · rintro ⟨-,suffix,hsuffix,hhead⟩
    obtain ⟨rest,rfl⟩ := List.head?_eq_some_iff.mp (beq_iff_eq.mp hhead)
    exact ⟨rest,stripPrefix_eq_some.mp hsuffix⟩
  · rintro ⟨rest,rfl⟩
    exact ⟨by simp,slash :: rest,stripPrefix_append _ _,by simp⟩

theorem mem_paths_listRecursive (hkeyed : disk.Keyed) {path : Str} :
    path ∈ (disk.listRecursive listed.path listed.pruned).map ResourceMetadata.path ↔
      path ∈ disk.resources ∧ Beneath slash (trimEndMatches slash listed.path) path ∧
        ¬ listed.Prunes path := by
  have hkept : ∀ path : Str, (!(listed.pruned.map (trimEndMatches slash)).any fun pruned =>
      decide (path ≠ pruned) && (stripPrefix pruned path).any fun suffix =>
        suffix.head? == some slash) = true ↔ ¬ listed.Prunes path := by
    intro path
    rw [Bool.not_eq_true',← Bool.not_eq_true,List.any_map,List.any_eq_true]
    exact not_congr (exists_congr fun pruned => and_congr_right fun _ => stripPrefix_any_slash_iff)
  rw [← Inventory.mem_paths hkeyed]
  unfold RemoteDisk.listRecursive
  simp only [List.mem_map,List.mem_filter,hkept,RemoteDisk.childPrefix,
    List.isPrefixOf_iff_prefix]
  constructor
  · rintro ⟨resource,⟨⟨hr,hbelow⟩,hspared⟩,rfl⟩
    exact ⟨⟨resource,hr,rfl⟩,hbelow,hspared⟩
  · rintro ⟨⟨resource,hr,rfl⟩,hbelow,hspared⟩
    exact ⟨resource,⟨⟨hr,hbelow⟩,hspared⟩,rfl⟩

/-- A fresh inventory has what is on the disk and in reach, if its root is there. -/
theorem mem_freshInventory (hkeyed : disk.Keyed) {path : Str} :
    path ∈ disk.freshInventory listed.path listed.pruned ↔
      listed.path ∈ disk.resources ∧ path ∈ disk.resources ∧ listed.Reaches path := by
  rw [freshInventory_eq,RemoteDisk.metadata]
  cases hroot : disk.resources[listed.path]? with
  | none =>
    have hnot : listed.path ∉ disk.resources := by
      rw [Std.TreeMap.mem_iff_isSome_getElem?,hroot]
      simp
    simp [hnot]
  | some root =>
    have hin : listed.path ∈ disk.resources := by
      rw [Std.TreeMap.mem_iff_isSome_getElem?,hroot]
      rfl
    have hpath : root.path = listed.path := hkeyed _ _ hroot
    rw [and_iff_right hin]
    unfold Inventory.ofResources
    rw [Inventory.mem_foldl_insert,List.map_cons,List.mem_cons,mem_paths_listRecursive hkeyed,hpath]
    unfold ListedRoot.Reaches
    constructor
    · rintro (h | rfl | h)
      · exact absurd h Std.TreeMap.not_mem_emptyc
      · exact ⟨hin,Or.inl rfl⟩
      · exact ⟨h.1,Or.inr h.2⟩
    · rintro ⟨h,rfl | h'⟩
      · exact Or.inr (Or.inl rfl)
      · exact Or.inr (Or.inr ⟨h,h'⟩)

/-- Two fresh inventories share a path if and only if their listings clash. -/
theorem freshInventory_meet_iff {a b : ListedRoot} (hkeyed : disk.Keyed) :
    (∃ path : Str, path ∈ disk.freshInventory a.path a.pruned ∧
        path ∈ disk.freshInventory b.path b.pruned) ↔ disk.Clashes a b := by
  simp only [mem_freshInventory hkeyed]
  constructor
  · rintro ⟨path,⟨ha,-,hap⟩,hb,-,hbp⟩
    exact ⟨ha,hb,ListedRoot.exists_reaches_iff.mp ⟨path,hap,hbp⟩⟩
  · rintro ⟨ha,hb,h | h⟩
    · exact ⟨b.path,⟨ha,hb,h⟩,hb,hb,Or.inl rfl⟩
    · exact ⟨a.path,⟨ha,ha,Or.inl rfl⟩,hb,ha,h⟩

end Fresh

section Filed

/-- Each resource is filed under its own path, in the first inventory whose root it lies under. -/
structure Filed (inventories : List LegacyInventory) : Prop where
  keyed : ∀ inventory ∈ inventories, inventory.resources.Keyed
  under : ∀ inventory ∈ inventories, ∀ path : Str, path ∈ inventory.resources →
    underRoot inventory.rootPath path = true
  first : inventories.Pairwise fun a b => ∀ path : Str, path ∈ b.resources →
    underRoot a.rootPath path = false

theorem Filed.cons_iff {inventory : LegacyInventory} {rest : List LegacyInventory} :
    Filed (inventory :: rest) ↔ (inventory.resources.Keyed ∧
      (∀ path : Str, path ∈ inventory.resources → underRoot inventory.rootPath path = true) ∧
      ∀ b ∈ rest, ∀ path : Str, path ∈ b.resources →
        underRoot inventory.rootPath path = false) ∧ Filed rest := by
  constructor
  · rintro ⟨hkeyed,hunder,hfirst⟩
    rw [List.forall_mem_cons] at hkeyed hunder
    rw [List.pairwise_cons] at hfirst
    exact ⟨⟨hkeyed.1,hunder.1,hfirst.1⟩,hkeyed.2,hunder.2,hfirst.2⟩
  · rintro ⟨⟨hkeyed,hunder,hfirst⟩,hrest⟩
    exact ⟨List.forall_mem_cons.mpr ⟨hkeyed,hrest.keyed⟩,
      List.forall_mem_cons.mpr ⟨hunder,hrest.under⟩,List.pairwise_cons.mpr ⟨hfirst,hrest.first⟩⟩

theorem Filed.of_empty {inventories : List LegacyInventory}
    (h : ∀ inventory ∈ inventories, inventory.resources = ∅) : Filed inventories := by
  have hnone : ∀ inventory ∈ inventories, ∀ path : Str, path ∉ inventory.resources := by
    intro inventory hi path
    rw [h inventory hi]
    exact Std.TreeMap.not_mem_emptyc
  refine ⟨?_,fun inventory hi path hp => absurd hp (hnone inventory hi path),?_⟩
  · intro inventory hi key resource hr
    rw [h inventory hi] at hr
    simp at hr
  · exact List.pairwise_of_forall_mem_list fun a _ b hb path hp => absurd hp (hnone b hb path)

/-- An insertion adds at most the path of the resource. -/
theorem mem_insertLegacy {resource : ResourceMetadata} {inventories : List LegacyInventory}
    {inventory : LegacyInventory} (h : inventory ∈ insertLegacy resource inventories) {path : Str}
    (hp : path ∈ inventory.resources) :
    path = resource.path ∨ ∃ old ∈ inventories, path ∈ old.resources := by
  induction inventories with
  | nil => cases h
  | cons first rest ih =>
    rw [insertLegacy] at h
    split at h
    · rcases List.mem_cons.mp h with rfl | h
      · rw [Std.TreeMap.mem_insert,Std.LawfulEqCmp.compare_eq_iff_eq] at hp
        rcases hp with rfl | hp
        · exact Or.inl rfl
        · exact Or.inr ⟨first,List.mem_cons_self,hp⟩
      · exact Or.inr ⟨inventory,List.mem_cons_of_mem _ h,hp⟩
    · rcases List.mem_cons.mp h with rfl | h
      · exact Or.inr ⟨inventory,List.mem_cons_self,hp⟩
      · rcases ih h with hpath | ⟨old,ho,hold⟩
        · exact Or.inl hpath
        · exact Or.inr ⟨old,List.mem_cons_of_mem _ ho,hold⟩

theorem Filed.insertLegacy {inventories : List LegacyInventory} (h : Filed inventories)
    (resource : ResourceMetadata) : Filed (insertLegacy resource inventories) := by
  induction inventories with
  | nil => exact h
  | cons inventory rest ih =>
    obtain ⟨⟨hkeyed,hunder,hfirst⟩,hrest⟩ := Filed.cons_iff.mp h
    rw [YaDiskSync.insertLegacy]
    split
    · rename_i hu
      refine Filed.cons_iff.mpr ⟨⟨?_,?_,hfirst⟩,hrest⟩
      · intro key other hother
        rw [Std.TreeMap.getElem?_insert] at hother
        split at hother
        · rename_i he
          cases hother
          exact Std.LawfulEqCmp.eq_of_compare he
        · exact hkeyed key other hother
      · intro path hp
        rw [Std.TreeMap.mem_insert,Std.LawfulEqCmp.compare_eq_iff_eq] at hp
        rcases hp with rfl | hp
        · exact hu
        · exact hunder path hp
    · rename_i hu
      refine Filed.cons_iff.mpr ⟨⟨hkeyed,hunder,?_⟩,ih hrest⟩
      intro b hb path hp
      rcases mem_insertLegacy hb hp with rfl | ⟨old,ho,hold⟩
      · exact Bool.not_eq_true _ ▸ hu
      · exact hfirst old ho path hold

/-- The canonical root is the first of the roots a cached record may go to. -/
theorem inventories_splitStep (canonicalRemotePath : Str) (sets : RemoteSets)
    (record : RemoteResourceRecord) :
    (splitStep canonicalRemotePath sets record).inventories canonicalRemotePath =
      insertLegacy (recordedMetadata record) (sets.inventories canonicalRemotePath) := by
  unfold splitStep RemoteSets.inventories
  rw [cachedResourceToMetadata_getD,insertLegacy]
  dsimp only
  split <;> rfl

/-- Sets read from the cache are filed, whatever the roots and the rows are. -/
theorem filed_splitCachedRemoteSets (root : SyncRootConfig) (canonicalRemotePath : Str)
    (records : List RemoteResourceRecord) (fromCache : Bool) :
    Filed ((splitCachedRemoteSets root canonicalRemotePath records fromCache).inventories
      canonicalRemotePath) := by
  have hfold : ∀ (records : List RemoteResourceRecord) (sets : RemoteSets),
      Filed (sets.inventories canonicalRemotePath) →
        Filed ((records.foldl (splitStep canonicalRemotePath) sets).inventories
          canonicalRemotePath) := by
    intro records
    induction records with
    | nil => exact fun sets h => h
    | cons record records ih =>
      intro sets h
      refine ih _ ?_
      rw [inventories_splitStep]
      exact h.insertLegacy _
  refine hfold records _ (Filed.of_empty ?_)
  rw [RemoteSets.inventories,List.forall_mem_cons]
  refine ⟨rfl,fun inventory hi => ?_⟩
  obtain ⟨rootPath,_,rfl⟩ := List.mem_map.mp hi
  rfl

theorem Filed.records_nodup {sets : RemoteSets} {canonicalRemotePath : Str}
    (h : Filed (sets.inventories canonicalRemotePath)) (rootId : Str) :
    ((sets.records rootId).map RemoteResourceRecord.remotePath).Nodup := by
  rw [records_nodup_iff h.keyed]
  refine h.first.imp_of_mem ?_
  rintro a b ha hb hfirst path ⟨hpa,hpb⟩
  exact Bool.noConfusion ((h.under a ha path hpa).symm.trans (hfirst path hpb))

end Filed

/-- The client answers as the mock does, or a call fails without effect; what is there is never
reported as not found. -/
def Environment.Faithful (env : Environment RemoteDisk) (quota : QuotaInfo) : Prop :=
  ∀ {tree : LocalTree} {remote : RemoteDisk} {call : ClientCall}
    {answer : Except YandexDiskError call.Result} {remote' : RemoteDisk},
    env.client tree remote call answer remote' →
      mockClient quota tree remote call answer remote' ∨
        ((∃ error, answer = .error error ∧ error.kind ≠ .notFound) ∧ remote' = remote)

/-- The sets of a listing of the disk. -/
def freshRemoteSets (disk : RemoteDisk) (root : SyncRootConfig) (canonicalRemotePath : Str)
    (livePlan : LiveScanPlan) : RemoteSets where
  canonical := disk.freshInventory canonicalRemotePath livePlan.pruneRemotePrefixes
  legacy := root.legacyRemotePaths.map fun legacyRoot =>
    { rootPath := legacyRoot
      resources := disk.freshInventory legacyRoot (livePlan.deletedSubtrees.map fun subtree =>
        joinRemotePath legacyRoot subtree.relativePrefix) }
  fromCache := false

theorem inventories_freshRemoteSets (disk : RemoteDisk) (root : SyncRootConfig)
    (canonicalRemotePath : Str) (livePlan : LiveScanPlan) :
    (freshRemoteSets disk root canonicalRemotePath livePlan).inventories canonicalRemotePath =
      (listedRoots root canonicalRemotePath livePlan).map fun listed =>
        { rootPath := listed.path
          resources := disk.freshInventory listed.path listed.pruned } := by
  simp [RemoteSets.inventories,freshRemoteSets,listedRoots,Function.comp_def]

theorem freshRecords_nodup_iff {disk : RemoteDisk} (hkeyed : disk.Keyed) (root : SyncRootConfig)
    (canonicalRemotePath : Str) (livePlan : LiveScanPlan) (rootId : Str) :
    (((freshRemoteSets disk root canonicalRemotePath livePlan).records rootId).map
        RemoteResourceRecord.remotePath).Nodup ↔
      (listedRoots root canonicalRemotePath livePlan).Pairwise fun a b => ¬ disk.Clashes a b := by
  have hinventories := inventories_freshRemoteSets disk root canonicalRemotePath livePlan
  have hkeys : ∀ inventory ∈ (freshRemoteSets disk root canonicalRemotePath livePlan).inventories
      canonicalRemotePath, inventory.resources.Keyed := by
    rw [hinventories]
    intro inventory hi
    obtain ⟨listed,_,rfl⟩ := List.mem_map.mp hi
    exact keyed_freshInventory disk listed.path listed.pruned
  rw [records_nodup_iff hkeys,hinventories,List.pairwise_map]
  refine List.Pairwise.iff fun a b => ?_
  rw [← freshInventory_meet_iff hkeyed,not_exists]

namespace MigrationEngine

open Prog

variable {env : Environment RemoteDisk} {quota : QuotaInfo} {disk : RemoteDisk}

/-- No task runs that could change the remote. -/
def Lists (disk : RemoteDisk) (w : World RemoteDisk MigrationMemory) : Prop :=
  w.remote = disk ∧ w.tasks = []

theorem stable_lists : Stable env.Drift (Lists disk) := by
  rintro w w' ⟨hremote,htasks⟩ hdrift
  cases hdrift with
  | land hw => simp [htasks] at hw
  | _ => exact ⟨hremote,htasks⟩

/-- A call to the client that only reads. -/
theorem ask_client (hclient : env.Faithful quota) (call : ClientCall)
    (hreads : ∀ tree, (disk.mockAnswer quota tree call).2 = disk) :
    TryTriple env.Perform env.Drift (Lists disk) (ask (.client call))
      (fun answer w => Lists disk w ∧ ((∃ tree, answer = (disk.mockAnswer quota tree call).1) ∨
        ∃ error, answer = .error error ∧ error.kind ≠ .notFound))
      (fun _ => True) fun _ => True := by
  refine TryTriple.perform stable_lists (fun _ _ => trivial) ?_
  rintro w answer w' ⟨rfl,htasks⟩ ⟨remote,hanswer,rfl⟩
  rcases hclient hanswer with h | ⟨herror,rfl⟩
  · have hremote : remote = w.remote := (congrArg Prod.snd h).trans (hreads w.disk)
    exact ⟨⟨hremote,htasks⟩,Or.inl ⟨w.disk,congrArg Prod.fst h⟩⟩
  · exact ⟨⟨rfl,htasks⟩,Or.inr herror⟩

theorem mockAnswer_metadata (tree : LocalTree) (path : Str) :
    disk.mockAnswer quota tree (.metadata path) = (match disk.metadata path with
      | some resource => .ok resource
      | none => .error (RemoteDisk.mockNotFound path),disk) := by
  unfold RemoteDisk.mockAnswer
  dsimp only
  cases disk.metadata path <;> rfl

theorem migrationInventory_lists (hclient : env.Faithful quota) (path : Str)
    (pruned : List Str) :
    TryTriple env.Perform env.Drift (Lists disk) (migrationInventory path pruned)
      (fun inventory w => inventory = disk.freshInventory path pruned ∧ Lists disk w)
      (fun _ => True) fun _ => True := by
  refine TryTriple.bind (ask_client hclient (.metadata path) fun tree => by
    rw [mockAnswer_metadata]) fun answer => ?_
  refine TryTriple.of_pure (fun _ h => h.2) fun hanswer => TryTriple.pre ?_ fun _ h => h.1
  simp only [mockAnswer_metadata] at hanswer
  rw [freshInventory_eq]
  rcases hanswer with ⟨_,rfl⟩ | ⟨error,rfl,hkind⟩
  · cases disk.metadata path with
    | none => exact TryTriple.pure fun _ h => ⟨rfl,h⟩
    | some rootMetadata =>
      refine TryTriple.bind (ask_client hclient (.listRecursive path pruned) fun _ => rfl)
        fun listing => ?_
      refine TryTriple.of_pure (fun _ h => h.2) fun hlisting => TryTriple.pre ?_ fun _ h => h.1
      rcases hlisting with ⟨tree,rfl⟩ | ⟨error,rfl,hkind⟩
      · exact TryTriple.pure fun _ h => ⟨rfl,h⟩
      · simp only [if_neg hkind]
        exact TryTriple.throw fun _ _ => trivial
  · simp only [if_neg hkind]
    exact TryTriple.throw fun _ _ => trivial

theorem legacyInventories_lists (hclient : env.Faithful quota) (livePlan : LiveScanPlan)
    (legacyRoots : List Str) :
    TryTriple env.Perform env.Drift (Lists disk) (legacyInventories livePlan legacyRoots)
      (fun legacy w => legacy = legacyRoots.map (fun legacyRoot =>
          { rootPath := legacyRoot
            resources := disk.freshInventory legacyRoot
              (livePlan.deletedSubtrees.map fun subtree =>
                joinRemotePath legacyRoot subtree.relativePrefix) }) ∧ Lists disk w)
      (fun _ => True) fun _ => True := by
  induction legacyRoots with
  | nil => exact TryTriple.pure fun _ h => ⟨rfl,h⟩
  | cons legacyRoot legacyRoots ih =>
    refine TryTriple.bind (migrationInventory_lists hclient _ _) fun resources => ?_
    refine TryTriple.of_pure (fun _ h => h.1) fun hresources => ?_
    refine TryTriple.bind (TryTriple.pre ih fun _ h => h.2) fun rest => ?_
    refine TryTriple.of_pure (fun _ h => h.1) fun hrest => ?_
    refine TryTriple.pure fun w h => ⟨?_,h.2⟩
    rw [hresources,hrest]
    rfl

theorem ask_quiet {e : Effect MigrationMemory} (hclient : ∀ call, e ≠ .client call)
    (htasks : e.onTasks = false) :
    TryTriple env.Perform env.Drift (Lists disk) (ask e) (fun _ => Lists disk)
      (fun _ => True) fun _ => True := by
  refine TryTriple.perform stable_lists (fun _ _ => trivial) ?_
  rintro w answer w' ⟨hremote,hnone⟩ hstep
  exact ⟨(hstep.remote_eq hclient).trans hremote,(hstep.tasks_eq htasks).trans hnone⟩

theorem listingState_lists (call : StateCall) :
    TryTriple env.Perform env.Drift (Lists disk) (listingState call) (fun _ => Lists disk)
      (fun _ => True) fun _ => True := by
  have hask : TryTriple env.Perform env.Drift (Lists disk) (ask (.state call))
      (fun _ => Lists disk) (fun _ => True) fun _ => True :=
    ask_quiet (fun _ h => nomatch h) rfl
  refine TryTriple.bind hask fun answer => ?_
  cases answer with
  | ok result => exact TryTriple.pure fun _ h => h
  | error error => exact TryTriple.throw fun _ _ => trivial

/-- A cached snapshot is one read back from rows. -/
theorem cachedRemoteSets_lists (root : SyncRootConfig) (canonicalRemotePath : Str)
    (forceRemoteRescan : Bool) :
    TryTriple env.Perform env.Drift (Lists disk)
      (cachedRemoteSets root canonicalRemotePath forceRemoteRescan)
      (fun cached w => (∀ sets, cached = some sets → ∃ records,
        sets = splitCachedRemoteSets root canonicalRemotePath records true) ∧ Lists disk w)
      (fun _ => True) fun _ => True := by
  have hnone : TryTriple env.Perform env.Drift (Lists disk)
      (pure none : Listing (Option RemoteSets))
      (fun cached w => (∀ sets, cached = some sets → ∃ records,
        sets = splitCachedRemoteSets root canonicalRemotePath records true) ∧ Lists disk w)
      (fun _ => True) fun _ => True :=
    TryTriple.pure fun _ h => ⟨by simp,h⟩
  unfold cachedRemoteSets
  split
  · exact hnone
  · refine TryTriple.bind (listingState_lists _) fun status => ?_
    cases status with
    | none => exact hnone
    | some status =>
      refine TryTriple.bind (ask_quiet (fun _ h => nomatch h) rfl) fun now => ?_
      split
      · refine TryTriple.bind (listingState_lists _) fun cached => ?_
        refine TryTriple.pure fun _ h => ⟨fun sets hs => ?_,h⟩
        cases hs
        exact ⟨cached,rfl⟩
      · exact hnone

/-- The sets of a migration are read back from rows, or they are those of a fresh listing. -/
theorem loadRemoteSets_lists (hclient : env.Faithful quota) (root : SyncRootConfig)
    (canonicalRemotePath : Str) (livePlan : LiveScanPlan) (forceRemoteRescan : Bool) :
    TryTriple env.Perform env.Drift (Lists disk)
      (loadRemoteSets root canonicalRemotePath livePlan forceRemoteRescan)
      (fun sets _ => (∃ records, sets =
          splitCachedRemoteSets root canonicalRemotePath records true) ∨
        sets = freshRemoteSets disk root canonicalRemotePath livePlan)
      (fun _ => True) fun _ => True := by
  refine TryTriple.bind (cachedRemoteSets_lists root canonicalRemotePath forceRemoteRescan)
    fun cached => ?_
  cases cached with
  | some sets => exact TryTriple.pure fun _ h => Or.inl (h.1 sets rfl)
  | none =>
    refine TryTriple.bind (TryTriple.pre (migrationInventory_lists hclient _ _) fun _ h => h.2)
      fun canonical => TryTriple.of_pure (fun _ h => h.1) fun hcanonical => ?_
    refine TryTriple.bind (TryTriple.pre (legacyInventories_lists hclient _ _) fun _ h => h.2)
      fun legacy => TryTriple.of_pure (fun _ h => h.1) fun hlegacy => ?_
    refine TryTriple.pure fun _ _ => Or.inr ?_
    rw [hcanonical,hlegacy]
    rfl

section Mock

variable {ext : Externals} {diskStep : LocalTree → LocalTree → Prop}
  (w : World RemoteDisk MigrationMemory)

theorem mockEnvironment_faithful : (mockEnvironment ext quota diskStep).Faithful quota := Or.inl

/-- A run of a part that ends in no error, then a run of the rest. -/
theorem exec_next {ε α β : Type} {p : ExceptT ε (Prog (Effect MigrationMemory) Effect.Answer) α}
    {f : α → ExceptT ε (Prog (Effect MigrationMemory) Effect.Answer) β} {a : α}
    {o : Option (Except ε β)} {w₁ w₂ : World RemoteDisk MigrationMemory}
    (hp : Exec env.Perform env.Drift p.run w (some (.ok a)) w₁)
    (hf : Exec env.Perform env.Drift (f a).run w₁ o w₂) :
    Exec env.Perform env.Drift (p >>= f).run w o w₂ :=
  Exec.bind hp hf

theorem migrationInventory_runs (path : Str) (pruned : List Str) :
    Exec (mockEnvironment ext quota diskStep).Perform (mockEnvironment ext quota diskStep).Drift
      (migrationInventory path pruned).run w
      (some (.ok (w.remote.freshInventory path pruned))) w := by
  have hmetadata : mockClient quota w.disk w.remote (.metadata path)
      (w.remote.mockAnswer quota w.disk (.metadata path)).1 w.remote := by
    rw [mockClient,mockAnswer_metadata]
  rw [freshInventory_eq]
  refine Exec.ask .refl ⟨w.remote,hmetadata,rfl⟩ ?_
  rw [mockAnswer_metadata]
  cases w.remote.metadata path with
  | none => exact Exec.ret _ _
  | some rootMetadata =>
    have hlisting : (mockEnvironment ext quota diskStep).Perform w
        (.client (.listRecursive path pruned)) (.ok (w.remote.listRecursive path pruned)) w :=
      ⟨w.remote,rfl,rfl⟩
    exact Exec.ask .refl hlisting (Exec.ret _ _)

/-- With the mock client a forced scan of the remote always ends in fresh sets. -/
theorem loadRemoteSets_runs (root : SyncRootConfig) (canonicalRemotePath : Str)
    (livePlan : LiveScanPlan) :
    Exec (mockEnvironment ext quota diskStep).Perform (mockEnvironment ext quota diskStep).Drift
      (loadRemoteSets root canonicalRemotePath livePlan true).run w
      (some (.ok (freshRemoteSets w.remote root canonicalRemotePath livePlan))) w := by
  have hlegacy : ∀ legacyRoots, Exec (mockEnvironment ext quota diskStep).Perform
      (mockEnvironment ext quota diskStep).Drift (legacyInventories livePlan legacyRoots).run w
      (some (.ok (legacyRoots.map fun legacyRoot =>
        { rootPath := legacyRoot
          resources := w.remote.freshInventory legacyRoot
            (livePlan.deletedSubtrees.map fun subtree =>
              joinRemotePath legacyRoot subtree.relativePrefix) }))) w := by
    intro legacyRoots
    induction legacyRoots with
    | nil => exact Exec.ret _ _
    | cons legacyRoot legacyRoots ih =>
      exact exec_next w (migrationInventory_runs w _ _) (exec_next w ih (Exec.ret _ _))
  have hcached : Exec (mockEnvironment ext quota diskStep).Perform
      (mockEnvironment ext quota diskStep).Drift
      (cachedRemoteSets root canonicalRemotePath true).run w (some (.ok none)) w := Exec.ret _ _
  exact exec_next w hcached (exec_next w (migrationInventory_runs w _ _)
    (exec_next w (hlegacy root.legacyRemotePaths) (Exec.ret _ _)))

end Mock

end MigrationEngine

@[simp] theorem fromCache_splitCachedRemoteSets (root : SyncRootConfig) (canonicalRemotePath : Str)
    (records : List RemoteResourceRecord) (fromCache : Bool) :
    (splitCachedRemoteSets root canonicalRemotePath records fromCache).fromCache = fromCache := by
  have hfold : ∀ (records : List RemoteResourceRecord) (sets : RemoteSets),
      (records.foldl (splitStep canonicalRemotePath) sets).fromCache = sets.fromCache := by
    intro records
    induction records with
    | nil => exact fun _ => rfl
    | cons record records ih =>
      intro sets
      rw [List.foldl_cons,ih]
      unfold splitStep
      dsimp only
      split <;> rfl
  exact hfold records _

open Prog in
/-- The records of a migration's inventories are distinct, and replace those of the root, if and
only if the sets come from the cache or no listing reaches the root of another. -/
theorem inventoryRecords_distinct_iff {env : Environment RemoteDisk} {quota : QuotaInfo}
    (hclient : env.Faithful quota) (root : SyncRootConfig) (canonicalRemotePath : Str)
    (livePlan : LiveScanPlan) (forceRemoteRescan : Bool)
    {w w' : World RemoteDisk MigrationMemory} (hkeyed : w.remote.Keyed) (htasks : w.tasks = [])
    {sets : RemoteSets}
    (hload : Exec env.Perform env.Drift (MigrationEngine.loadRemoteSets root canonicalRemotePath
      livePlan forceRemoteRescan).run w (some (.ok sets)) w') (repository : Repository) :
    let holds := sets.fromCache = true ∨
      (listedRoots root canonicalRemotePath livePlan).Pairwise fun a b => ¬ w.remote.Clashes a b
    (((sets.records root.id).map RemoteResourceRecord.key).Nodup ↔ holds) ∧
      ((∃ repository', repository.replaceRemoteResourcesForRoot root.id (sets.records root.id) =
        .ok repository') ↔ holds) := by
  intro holds
  have hsets := MigrationEngine.loadRemoteSets_lists hclient root canonicalRemotePath livePlan
    forceRemoteRescan w _ w' ⟨rfl,htasks⟩ hload
  have hpaths : ((sets.records root.id).map RemoteResourceRecord.remotePath).Nodup ↔ holds := by
    rcases hsets with ⟨records,rfl⟩ | rfl
    · refine iff_of_true ?_ (Or.inl (fromCache_splitCachedRemoteSets ..))
      exact (filed_splitCachedRemoteSets root canonicalRemotePath records true).records_nodup _
    · rw [freshRecords_nodup_iff hkeyed]
      exact ⟨Or.inr,fun h => h.resolve_left Bool.false_ne_true⟩
  have hid : ∀ record ∈ sets.records root.id, record.rootId = root.id :=
    fun _ => rootId_of_mem_records
  exact ⟨(Repository.keys_nodup_iff hid).trans hpaths,
    (Repository.replaceRemoteResourcesForRoot_ok_iff repository hid).trans hpaths⟩

private def clashRoot : SyncRootConfig :=
  { id := "r".toList, name := "r".toList, enabled := true, localPath := "/data".toList
    legacyRemotePaths := ["disk:/Backup".toList] }

private def clashConfig : AppConfig := { defaultConfig with roots := [clashRoot] }

private def clashPlan : LiveScanPlan := { rootId := "r".toList, rootLocalPath := ["data".toList] }

private def clashDisk : RemoteDisk where
  resources := .ofResources
    [.ofDirectory "disk:/Backup".toList,.ofDirectory "disk:/Backup/data".toList]

private def clashWorld (disk : RemoteDisk) : World RemoteDisk MigrationMemory :=
  { disk := .empty, remote := disk, repository := {}, tasks := [], cancelled := false
    now := 0, memory := { report := { runId := 1 } } }

private def apartRoot : SyncRootConfig :=
  { clashRoot with legacyRemotePaths := ["disk:/Old".toList] }

private def apartDisk : RemoteDisk where
  resources := .ofResources
    [.ofDirectory "disk:/Backup".toList,.ofDirectory "disk:/Backup/data".toList,
      .ofFile "disk:/Backup/data/a".toList 1,.ofDirectory "disk:/Old".toList,
      .ofFile "disk:/Old/a".toList 1,.ofFile "disk:/Old/b".toList 1]

/-- A legacy path beside the canonical one: the five resources of the two listings are recorded. -/
theorem apartDisk_recorded :
    let records :=
      (freshRemoteSets apartDisk apartRoot "disk:/Backup/data".toList clashPlan).records apartRoot.id
    records.map RemoteResourceRecord.remotePath =
        ["disk:/Backup/data".toList,"disk:/Backup/data/a".toList,"disk:/Old".toList,
          "disk:/Old/a".toList,"disk:/Old/b".toList] ∧
      (records.map RemoteResourceRecord.key).Nodup ∧
        ∃ repository', ({} : Repository).replaceRemoteResourcesForRoot apartRoot.id records =
          .ok repository' := by
  have hkeyed : (clashWorld apartDisk).remote.Keyed := Inventory.keyed_ofResources _
  obtain ⟨hdistinct,hreplaced⟩ := inventoryRecords_distinct_iff
    (@MigrationEngine.mockEnvironment_faithful ⟨none,none⟩ asciiExternals fun _ _ => False)
    apartRoot "disk:/Backup/data".toList clashPlan true hkeyed rfl
    (MigrationEngine.loadRemoteSets_runs (clashWorld apartDisk) _ _ _) {}
  have hapart : (listedRoots apartRoot "disk:/Backup/data".toList clashPlan).Pairwise
      fun a b => ¬ (clashWorld apartDisk).remote.Clashes a b := by
    refine List.pairwise_pair.mpr ?_
    rintro ⟨-,-,(h | ⟨h,-⟩) | h | ⟨h,-⟩⟩ <;> exact absurd h (by decide)
  exact ⟨by decide +kernel,hdistinct.mpr (Or.inr hapart),hreplaced.mpr (Or.inr hapart)⟩

open Prog in
/-- With a legacy path above the canonical one the records clash. -/
theorem inventoryRecords_clash : ¬ ∀ (env : Environment RemoteDisk) (quota : QuotaInfo),
    env.Faithful quota → ∀ (accepted : AcceptedConfig env.ext),
    ∀ root ∈ accepted.config.roots, ∀ canonicalRemotePath : Str,
    root.canonicalPath accepted.config = .ok canonicalRemotePath →
    ∀ (livePlan : LiveScanPlan) (forceRemoteRescan : Bool)
      (w w' : World RemoteDisk MigrationMemory), w.remote.Keyed → w.tasks = [] →
    ∀ sets, Exec env.Perform env.Drift (MigrationEngine.loadRemoteSets root canonicalRemotePath
        livePlan forceRemoteRescan).run w (some (.ok sets)) w' →
      ((sets.records root.id).map RemoteResourceRecord.key).Nodup := by
  intro h
  have hkeyed : (clashWorld clashDisk).remote.Keyed := Inventory.keyed_ofResources _
  have hnodup := h (mockEnvironment asciiExternals ⟨none,none⟩ fun _ _ => False) ⟨none,none⟩
    MigrationEngine.mockEnvironment_faithful ⟨clashConfig,by decide +kernel⟩ clashRoot (by decide)
    "disk:/Backup/data".toList (by decide) clashPlan true (clashWorld clashDisk) _ hkeyed rfl _
    (MigrationEngine.loadRemoteSets_runs _ _ _ _)
  rw [Repository.keys_nodup_iff fun _ => rootId_of_mem_records,
    freshRecords_nodup_iff hkeyed] at hnodup
  have hpair := (List.pairwise_cons.mp hnodup).1 _ List.mem_cons_self
  have hin : ∀ path ∈ ["disk:/Backup".toList,"disk:/Backup/data".toList],
      path ∈ clashDisk.resources := by
    intro path hpath
    exact Inventory.mem_foldl_insert.mpr (Or.inr hpath)
  refine hpair ⟨hin _ (by simp),hin _ (by simp),Or.inr (Or.inr ⟨by decide,?_⟩)⟩
  rintro ⟨pruned,hp,-⟩
  simp [clashPlan] at hp

end YaDiskSync
