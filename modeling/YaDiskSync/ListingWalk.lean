import YaDiskSync.ListingTree
import Mathlib.Algebra.BigOperators.Group.List.Basic
import Mathlib.Data.List.Perm.Basic

/-! The walk over the directories of a remote tree lists each resource once. -/
namespace YaDiskSync

open SepPath RemoteDisk Listing

/-- The pages of a path split the entries up somehow: each of them tells how many there are, and
none is empty before the last entry has been given. -/
def ListingEnvironment.PagesOf (env : ListingEnvironment) (path : Str)
    (items : List ResourceMetadata) : Prop :=
  ∀ offset ≤ items.length, ∃ page returned, env.getResourcePage path offset = .ok page ∧
    page.resource.resourceType = .directory ∧
    page.embedded = some ⟨returned,some items.length⟩ ∧ returned <+: items.drop offset ∧
    (offset < items.length → returned ≠ [])

/-- The service tells the tree, each directory in an order of its own, and no task fails. -/
structure ListingEnvironment.Serves (env : ListingEnvironment) (disk : RemoteDisk) (root : Str) :
    Prop where
  pages : ∀ path, disk.IsDirectoryOf root path →
    ∃ items : List ResourceMetadata, items.Perm (disk.children path) ∧ env.PagesOf path items
  completes : ∀ path, env.taskFailure path = none

namespace Listing

variable {env : ListingEnvironment} {disk : RemoteDisk} {root : Str} {prefixes : List Str}

theorem foldl_collectItem (prunePrefixes : List Str) (items : List ResourceMetadata)
    (found : List Str × List ResourceMetadata) :
    items.foldl (collectItem prunePrefixes) found =
      (found.1 ++ subdirectories prunePrefixes items,found.2 ++ items) := by
  induction items generalizing found with
  | nil => simp [subdirectories]
  | cons item items ih =>
    rw [List.foldl_cons,ih,collectItem]
    by_cases h : item.resourceType = .directory ∧ ¬ isPrunedRemotePath item.path prunePrefixes
    · simp [subdirectories,h]
    · rw [if_neg h,subdirectories,subdirectories,List.filter_cons_of_neg (by simpa using h)]
      simp

theorem subdirectories_append (prunePrefixes : List Str) (xs ys : List ResourceMetadata) :
    subdirectories prunePrefixes (xs ++ ys) =
      subdirectories prunePrefixes xs ++ subdirectories prunePrefixes ys := by
  simp [subdirectories]

/-- The pages from an offset on give the rest of the entries. -/
theorem listPages_complete {path : Str} {items : List ResourceMetadata}
    (hpages : env.PagesOf path items) (prunePrefixes : List Str) {fuel offset : Nat}
    (hoffset : offset ≤ items.length)
    (hfuel : items.length-offset < fuel) (found : List Str × List ResourceMetadata) :
    listPages env prunePrefixes path fuel offset found =
      some (.ok (found.1 ++ subdirectories prunePrefixes (items.drop offset),
        found.2 ++ items.drop offset)) := by
  induction fuel generalizing offset found with
  | zero => exact absurd hfuel (Nat.not_lt_zero _)
  | succ fuel ih =>
    obtain ⟨page,returned,hanswer,-,hembedded,hpre,hne⟩ := hpages offset hoffset
    obtain ⟨rest,hrest⟩ := hpre
    have hlen : returned.length+rest.length = items.length-offset := by
      rw [← List.length_append,hrest,List.length_drop]
    have hdrop : items.drop (offset+returned.length) = rest := by
      rw [← List.drop_drop,← hrest,List.drop_left]
    rw [listPages,hanswer]
    simp only [hembedded,Option.bind_some,Option.map_some,Option.getD_some,collectEmbeddedPage,
      foldl_collectItem]
    by_cases hstop : returned.length = 0 ∨ items.length ≤ offset+returned.length
    · have hnil : rest = [] := by
        apply List.length_eq_zero_iff.1
        by_cases hlt : offset < items.length
        · have := List.length_pos_iff.2 (hne hlt)
          omega
        · omega
      rw [if_pos hstop,← hrest,hnil,List.append_nil]
    · rw [if_neg hstop,ih (by omega) (by omega),hdrop,← hrest,subdirectories_append,
        List.append_assoc,List.append_assoc]

theorem directoryTask_complete {path : Str} {items : List ResourceMetadata}
    (hserves : env.Serves disk root) (hpages : env.PagesOf path items) (prunePrefixes : List Str)
    {fuel : Nat} (hfuel : items.length < fuel) :
    directoryTask env prunePrefixes fuel path =
      some (.ok (subdirectories prunePrefixes items,items)) := by
  rw [directoryTask,hserves.completes path,listDirectoryChildren]
  have hfuel : items.length-0 < fuel := hfuel
  simpa using listPages_complete hpages prunePrefixes (Nat.zero_le _) hfuel ([],[])

/-- How many directories there still are to list below a directory, itself included. -/
def weight (disk : RemoteDisk) (prefixes : List Str) (path : Str) : Nat :=
  (disk.listRecursive path prefixes).countP (fun r => r.resourceType == .directory)+1

def load (disk : RemoteDisk) (prefixes : List Str) (frontier : List Str) : Nat :=
  (frontier.map (weight disk prefixes)).sum

/-- What has been listed, and what lies below the directories that are waiting or in progress, is
what lies below the root. -/
structure Walking (disk : RemoteDisk) (root : Str) (prefixes pending active : List Str)
    (listed : List ResourceMetadata) : Prop where
  directories : ∀ path ∈ pending ++ active, disk.IsDirectoryOf root path
  unpruned : ∀ path ∈ active,
    isPrunedRemotePath path (normalizedPrunePrefixes prefixes) = false
  account : (listed ++ (pending ++ active).flatMap fun path =>
    disk.listRecursive path prefixes).Perm (disk.listRecursive root prefixes)

section Walk

variable {pending active : List Str} {listed : List ResourceMetadata}

/-- Tasks are spawned for what is waiting, and what is pruned is dropped: nothing lies below. -/
theorem spawnTasks_walking (h : Walking disk root prefixes pending active listed)
    {pending' active' : List Str}
    (hspawn : spawnTasks (normalizedPrunePrefixes prefixes) pending active = (pending',active')) :
    Walking disk root prefixes pending' active' listed ∧
      load disk prefixes (pending' ++ active') ≤ load disk prefixes (pending ++ active) ∧
      (active' = [] → pending' = []) := by
  induction pending generalizing active with
  | nil =>
    cases hspawn
    exact ⟨h,le_refl _,fun _ => rfl⟩
  | cons path pending ih =>
    rw [spawnTasks] at hspawn
    by_cases hroom : active.length < listDirectoryConcurrency
    · rw [if_pos hroom] at hspawn
      by_cases hpruned : isPrunedRemotePath path (normalizedPrunePrefixes prefixes) = true
      · rw [if_pos hpruned] at hspawn
        have hnone : disk.listRecursive path prefixes = [] :=
          IsTree.listRecursive_pruned hpruned
        have hdropped : Walking disk root prefixes pending active listed :=
          ⟨fun p hp => h.directories p (List.mem_cons_of_mem _ hp),h.unpruned,by
            simpa [hnone] using h.account⟩
        obtain ⟨hw,hload,hstop⟩ := ih hdropped hspawn
        refine ⟨hw,hload.trans ?_,hstop⟩
        simp [load]
      · rw [if_neg hpruned] at hspawn
        have hperm : (pending ++ (active ++ [path])).Perm (path :: pending ++ active) := by
          rw [← List.append_assoc]
          exact List.perm_append_singleton _ _
        have hspawned : Walking disk root prefixes pending (active ++ [path]) listed := by
          refine ⟨fun p hp => h.directories p (hperm.mem_iff.1 hp),?_,?_⟩
          · intro p hp
            rcases List.mem_append.1 hp with hp | hp
            · exact h.unpruned p hp
            · rw [List.mem_singleton.1 hp]
              simpa using hpruned
          · exact ((hperm.flatMap_right _).append_left _).trans h.account
        obtain ⟨hw,hload,hstop⟩ := ih hspawned hspawn
        exact ⟨hw,hload.trans (hperm.map _).sum_nat.le,hstop⟩
    · rw [if_neg hroom] at hspawn
      cases hspawn
      refine ⟨h,le_refl _,fun hnil => ?_⟩
      rw [hnil] at hroom
      exact absurd (by decide) hroom

/-- The directories that a listed directory hands on weigh less than it. -/
theorem load_subdirectories {path : Str} {items : List ResourceMetadata}
    (htree : disk.IsTree root) (hd : disk.IsDirectoryOf root path)
    (hpruned : isPrunedRemotePath path (normalizedPrunePrefixes prefixes) = false)
    (hitems : items.Perm (disk.children path)) :
    load disk prefixes (subdirectories (normalizedPrunePrefixes prefixes) items) <
      weight disk prefixes path := by
  have hcount := (htree.unfold hd hpruned hitems).countP_eq
    (fun r : ResourceMetadata => r.resourceType == .directory)
  rw [List.countP_append,List.countP_flatMap] at hcount
  have hown : (subdirectories (normalizedPrunePrefixes prefixes) items).length ≤
      items.countP (fun r => r.resourceType == .directory) := by
    rw [subdirectories,List.length_map,← List.countP_eq_length_filter]
    refine List.countP_mono_left fun item _ h => ?_
    simp_all
  have hsum : load disk prefixes (subdirectories (normalizedPrunePrefixes prefixes) items) =
      ((subdirectories (normalizedPrunePrefixes prefixes) items).map
        ((List.countP fun r : ResourceMetadata => r.resourceType == .directory) ∘
          fun d => disk.listRecursive d prefixes)).sum +
        (subdirectories (normalizedPrunePrefixes prefixes) items).length := by
    have hw : weight disk prefixes = fun d =>
        ((List.countP fun r : ResourceMetadata => r.resourceType == .directory) ∘
          fun d => disk.listRecursive d prefixes) d+1 := rfl
    rw [load,hw,List.sum_map_add]
    simp
  rw [weight,hcount]
  omega

/-- A directory that completes is replaced by its entries. -/
theorem complete_walking (htree : disk.IsTree root)
    (h : Walking disk root prefixes pending active listed) {next : Nat} {path : Str}
    (hnext : active[next]? = some path) {items : List ResourceMetadata}
    (hitems : items.Perm (disk.children path)) :
    Walking disk root prefixes
        ((subdirectories (normalizedPrunePrefixes prefixes) items).reverse ++ pending)
        (active.eraseIdx next) (listed ++ items) ∧
      load disk prefixes ((subdirectories (normalizedPrunePrefixes prefixes) items).reverse ++
        pending ++ active.eraseIdx next) < load disk prefixes (pending ++ active) := by
  obtain ⟨hlt,hget⟩ := List.getElem?_eq_some_iff.1 hnext
  have hperm : (path :: active.eraseIdx next).Perm active := by
    rw [← hget]
    exact List.getElem_cons_eraseIdx_perm hlt
  have hd : disk.IsDirectoryOf root path :=
    h.directories path (List.mem_append_right _ (hperm.mem_iff.1 List.mem_cons_self))
  have hopen := h.unpruned path (hperm.mem_iff.1 List.mem_cons_self)
  have hunfold := htree.unfold hd hopen hitems
  have hload := load_subdirectories htree hd hopen hitems
  have hbelow : childPrefix root <+: childPrefix path := htree.childPrefix_isPrefix hd
  generalize hsubs : subdirectories (normalizedPrunePrefixes prefixes) items = subs at *
  have hall : (subs.reverse ++ pending ++ active.eraseIdx next).Perm
      (subs ++ (pending ++ active.eraseIdx next)) := by
    rw [List.append_assoc]
    exact (List.reverse_perm subs).append_right _
  have hold : (path :: (pending ++ active.eraseIdx next)).Perm (pending ++ active) :=
    List.perm_middle.symm.trans (hperm.append_left pending)
  refine ⟨⟨?_,fun p hp => h.unpruned p (hperm.mem_iff.1 (List.mem_cons_of_mem _ hp)),?_⟩,?_⟩
  · intro p hp
    rcases List.mem_append.1 (hall.mem_iff.1 hp) with hp | hp
    · rw [← hsubs] at hp
      obtain ⟨item,hi,htype,-,rfl⟩ := mem_subdirectories.1 hp
      obtain ⟨hm,hc⟩ := mem_children.1 (hitems.mem_iff.1 hi)
      exact .inr ⟨item,hm,rfl,htype,hbelow.trans (beneath_of_isChild hc)⟩
    · exact h.directories p (hold.mem_iff.1 (List.mem_cons_of_mem _ hp))
  · refine List.Perm.trans ?_ h.account
    rw [List.append_assoc]
    refine List.Perm.append_left listed ?_
    refine ((hall.flatMap_right _).append_left items).trans ?_
    have hflat := hold.flatMap_right fun path => disk.listRecursive path prefixes
    rw [List.flatMap_cons] at hflat
    rw [List.flatMap_append,← List.append_assoc]
    exact (hunfold.symm.append_right _).trans hflat
  · have hsum : load disk prefixes (pending ++ active) =
        weight disk prefixes path+load disk prefixes (pending ++ active.eraseIdx next) :=
      (hold.map _).sum_nat.symm
    have hsplit : load disk prefixes (subs.reverse ++ pending ++ active.eraseIdx next) =
        load disk prefixes subs+load disk prefixes (pending ++ active.eraseIdx next) := by
      rw [load,(hall.map _).sum_nat,List.map_append,List.sum_append]
      rfl
    omega

/-- From any state of the walk the loop ends, with what lies below the root. -/
theorem walk_complete (htree : disk.IsTree root) (hserves : env.Serves disk root)
    {pageFuel : Nat} (hpages : disk.resources.resources.length < pageFuel) {fuel : Nat}
    (completed : Nat) (h : Walking disk root prefixes pending active listed)
    (hfuel : load disk prefixes (pending ++ active) < fuel) :
    ∃ result, walk env (normalizedPrunePrefixes prefixes) pageFuel fuel completed pending active
        listed = some (.ok result) ∧ result.Perm (disk.listRecursive root prefixes) := by
  induction fuel generalizing completed pending active listed with
  | zero => exact absurd hfuel (Nat.not_lt_zero _)
  | succ fuel ih =>
    rw [walk]
    by_cases hdone : active = [] ∧ pending = []
    · rw [if_pos hdone]
      have hacc := h.account
      rw [hdone.1,hdone.2] at hacc
      exact ⟨listed,rfl,by simpa using hacc⟩
    · rw [if_neg hdone]
      cases hspawn : spawnTasks (normalizedPrunePrefixes prefixes) pending active with
      | mk pending' active' =>
        obtain ⟨hw,hload,hstop⟩ := spawnTasks_walking h hspawn
        dsimp only
        cases hnext : active'[env.order completed % active'.length]? with
        | none =>
          have hnil : active' = [] := by
            by_contra hne
            rw [List.getElem?_eq_none_iff] at hnext
            exact absurd (Nat.mod_lt (env.order completed) (List.length_pos_iff.2 hne))
              (not_lt.2 hnext)
          have hacc := hw.account
          rw [hnil,hstop hnil] at hacc
          exact ⟨listed,rfl,by simpa using hacc⟩
        | some path =>
          have hd := hw.directories path
            (List.mem_append_right _ (List.mem_of_getElem? hnext))
          obtain ⟨items,hitems,hpath⟩ := hserves.pages path hd
          have hlen : items.length < pageFuel :=
            (hitems.length_eq.trans_le (List.length_filter_le _ _)).trans_lt hpages
          obtain ⟨hw',hload'⟩ := complete_walking htree hw hnext hitems
          dsimp only
          rw [directoryTask_complete hserves hpath _ hlen]
          exact ih (completed+1) hw' (by omega)

end Walk

end Listing

theorem sortByPath_eq {disk : RemoteDisk} {root : Str} {prefixes : List Str} (hk : disk.Keyed)
    {listed : List ResourceMetadata} (h : listed.Perm (disk.listRecursive root prefixes)) :
    sortByPath listed = disk.listRecursive root prefixes := by
  have hsorted : (disk.listRecursive root prefixes).Pairwise fun a b => a.path ≤ b.path :=
    (((resources_pairwise hk).filter _).filter _).imp le_of_lt
  have hperm := (sortByKey_perm ResourceMetadata.path listed).trans h
  refine hperm.eq_of_pairwise (fun a b ha hb hab hba => ?_) (sortByKey_pairwise _ _) hsorted
  have ha := (mem_listRecursive_iff.1 (hperm.mem_iff.1 ha)).1
  have hb := (mem_listRecursive_iff.1 hb).1
  exact resources_path_inj hk ha hb (le_antisymm hab hba)

/-- With a service that tells the tree, the recursive listing ends, whatever the pages and the
order of the tasks: it holds each resource strictly below the root and not strictly below a
pruned prefix once and nothing else, and it is the mock's listing. -/
theorem listRecursiveInner_complete {env : ListingEnvironment} {disk : RemoteDisk} {root : Str}
    (htree : disk.IsTree root) (hserves : env.Serves disk root) (prefixes : List Str) :
    ∃ enough, ∀ fuel ≥ enough, ∃ listed,
      listRecursiveInner env fuel root prefixes = some (.ok listed) ∧
      (listed.map (·.path)).Nodup ∧
      (∀ resource, resource ∈ listed ↔ resource ∈ disk.resources.resources ∧
        Beneath slash (trimEndMatches slash root) resource.path ∧
        ∀ p ∈ prefixes, ¬ Beneath slash (trimEndMatches slash p) resource.path) ∧
      listed = disk.listRecursive root prefixes := by
  refine ⟨disk.resources.resources.length+2,fun fuel hfuel =>
    ⟨disk.listRecursive root prefixes,?_,?_,fun resource => mem_listRecursive_iff,rfl⟩⟩
  · obtain ⟨items,-,hpages⟩ := hserves.pages root (.inl rfl)
    obtain ⟨page,-,hanswer,htype,-⟩ := hpages 0 (Nat.zero_le _)
    have hstart : Walking disk root prefixes [root] [] [] := by
      refine ⟨fun path hp => .inl (by simpa using hp),by simp,by simp⟩
    have hload : load disk prefixes ([root] ++ []) < fuel := by
      have hcount := List.countP_le_length (l := disk.listRecursive root prefixes)
        (p := fun r : ResourceMetadata => r.resourceType == .directory)
      have hlen : (disk.listRecursive root prefixes).length ≤ disk.resources.resources.length :=
        (List.length_filter_le _ _).trans (List.length_filter_le _ _)
      simp only [load,weight,List.append_nil,List.map_cons,List.map_nil,List.sum_cons,
        List.sum_nil]
      omega
    have hpage : disk.resources.resources.length < fuel := by omega
    obtain ⟨result,hwalk,hperm⟩ := walk_complete htree hserves hpage 0 hstart hload
    have hsorted := sortByPath_eq htree.keyed hperm
    rw [listRecursiveInner,hanswer]
    simp only [htype,ne_eq,not_true_eq_false,if_false,listRecursiveByDirectoryWalk,hwalk,
      Option.map_some,Except.map,hsorted,sortByPath_eq htree.keyed (List.Perm.refl _)]
  · rw [List.nodup_iff_pairwise_ne,List.pairwise_map]
    exact (((resources_pairwise htree.keyed).filter _).filter _).imp ne_of_lt

/-- A service with pages of one size. -/
def servedBy (disk : RemoteDisk) (pageSize : Nat) (order : Nat → Nat) : ListingEnvironment where
  getResourcePage path offset := .ok
    { resource := .ofDirectory path
      embedded := some
        { items := ((disk.children path).drop offset).take pageSize
          total := some (disk.children path).length } }
  order := order

theorem servedBy_serves (disk : RemoteDisk) (root : Str) {pageSize : Nat} (hsize : 0 < pageSize)
    (order : Nat → Nat) : (servedBy disk pageSize order).Serves disk root where
  pages path _ := ⟨disk.children path,List.Perm.refl _,fun offset _ =>
    ⟨_,_,rfl,rfl,rfl,List.take_prefix _ _,fun hlt hnil => by
      rw [List.take_eq_nil_iff,List.drop_eq_nil_iff] at hnil
      omega⟩⟩
  completes _ := rfl

def backupDisk : RemoteDisk where
  resources := .ofResources [.ofDirectory "disk:/B/d".toList,.ofFile "disk:/B/d/a".toList 3,
    .ofFile "disk:/B/c".toList 5]

theorem backupDisk_isTree : backupDisk.IsTree "disk:/B".toList where
  keyed := Inventory.keyed_ofResources _
  rooted := by decide
  parent := by
    intro resource hm _
    have h := Inventory.mem_of_mem_ofResources hm
    simp only [List.mem_cons,List.not_mem_nil,or_false] at h
    rcases h with rfl | rfl | rfl
    · exact ⟨_,.inl rfl,by decide⟩
    · exact ⟨"disk:/B/d".toList,.inr ⟨.ofDirectory "disk:/B/d".toList,by decide,rfl,rfl,by decide⟩,
        by decide⟩
    · exact ⟨_,.inl rfl,by decide⟩

theorem backupDisk_listed : ∃ enough, ∀ fuel ≥ enough, ∃ listed,
    listRecursiveInner (servedBy backupDisk 1 fun k => k) fuel "disk:/B".toList
      ["disk:/B/d/".toList] = some (.ok listed) ∧ (listed.map (·.path)).Nodup := by
  obtain ⟨enough,h⟩ := listRecursiveInner_complete backupDisk_isTree
    (servedBy_serves backupDisk _ Nat.one_pos fun k => k) ["disk:/B/d/".toList]
  refine ⟨enough,fun fuel hfuel => ?_⟩
  obtain ⟨listed,hrun,hnodup,-⟩ := h fuel hfuel
  exact ⟨listed,hrun,hnodup⟩

example : listRecursiveInner (servedBy backupDisk 1 fun k => k) 5 "disk:/B".toList [] =
    some (.ok [.ofFile "disk:/B/c".toList 5,.ofDirectory "disk:/B/d".toList,
      .ofFile "disk:/B/d/a".toList 3]) := by decide +kernel

end YaDiskSync
