import YaDiskSync.DeletePlan

/-! What the delete planner covers. One round of its loop is described once; from it
follow soundness (every delete is the target of a removable resource) and coverage
(every removable resource ends up at or below some delete). -/
namespace YaDiskSync

open SepPath

/-- A configured root with the canonical path its local path maps to. -/
structure ManagedRoot where
  config : SyncRootConfig
  remoteRoot : Str
  canonical : Str
  mapped : canonicalRemotePath remoteRoot config.localPath config.remotePathOverride =
    .ok canonical

namespace ManagedRoot

theorem isRemotePath (root : ManagedRoot) : IsRemotePath root.canonical :=
  canonicalRemotePath_ok root.mapped

@[simp] theorem trimEnd (root : ManagedRoot) :
    trimEndMatches slash root.canonical = root.canonical :=
  root.isRemotePath.trimEnd

end ManagedRoot

/-- No known path is `p` or lies below it. -/
def Dead (known : List Str) (p : Str) : Prop := ∀ k ∈ known, ¬ Covers slash p k

instance (known : List Str) (p : Str) : Decidable (Dead known p) := by
  unfold Dead; infer_instance

theorem dead_iff {known : List Str} {p : Str} :
    Dead known p ↔ p ∉ known ∧ hasLiveDescendants known (p ++ [slash]) = false := by
  simp only [Dead,Covers,hasLiveDescendants,List.any_eq_false,decide_eq_true_eq,not_or]
  constructor
  · exact fun h => ⟨fun hm => (h p hm).1 rfl,fun k hk => (h k hk).2⟩
  · rintro ⟨hm,hb⟩ k hk
    exact ⟨fun he => hm (he ▸ hk),hb k hk⟩

/-- The search walks the chain of parents and returns the first dead one. -/
theorem firstMissingPrefix_eq (known : List Str) (base : Str) (segments : List Str) :
    firstMissingPrefix known base segments =
      (chain slash base segments).find? fun p => decide (Dead known p) := by
  induction segments generalizing base with
  | nil => rfl
  | cons segment segments ih =>
    rw [firstMissingPrefix,chain,List.find?_cons,ih]
    by_cases hm : base ++ slash :: segment ∈ known
    · have hd : ¬ Dead known (base ++ slash :: segment) := fun h => (dead_iff.mp h).1 hm
      simp [hm,hd]
    · cases hl : hasLiveDescendants known (base ++ slash :: segment ++ [slash]) with
      | true =>
        have hd : ¬ Dead known (base ++ slash :: segment) := by
          rw [dead_iff,hl]
          simp
        simp [hm,hd]
      | false =>
        have hd : Dead known (base ++ slash :: segment) := dead_iff.mpr ⟨hm,hl⟩
        simp [hm,hd]

/-- The non-empty segments of a relative path. -/
def pathSegments (relativePath : Str) : List Str :=
  (relativePath.splitOn slash).filter fun segment => !segment.isEmpty

theorem pathSegments_cons_slash (t : Str) : pathSegments (slash :: t) = pathSegments t := by
  simp [pathSegments,List.splitOn_cons_eq_if_modifyHead]

theorem pathSegments_trimStart (t : Str) :
    pathSegments (trimStartMatches slash t) = pathSegments t := by
  unfold trimStartMatches
  induction t with
  | nil => rfl
  | cons c t ih =>
    rw [List.dropWhile_cons]
    split
    · rename_i hc
      have hs : c = slash := by simpa using hc
      rw [hs,pathSegments_cons_slash,ih]
    · rfl

section Candidates

variable {managedRoot path relativePath : Str}

theorem candidate_ok (h : remoteDeleteCandidateRelativePath managedRoot path = .ok relativePath) :
    path = trimEndMatches slash managedRoot ++ slash :: relativePath ∧ relativePath ≠ [] ∧
      hasPhantomDiskSegment relativePath = false := by
  unfold remoteDeleteCandidateRelativePath at h
  simp only at h
  split at h
  · cases h
  split at h
  · cases h
  · rename_i hs
    split at h
    · cases h
    · rename_i hne
      split at h
      · cases h
      · rename_i hp
        cases h
        rw [stripPrefix_eq_some] at hs
        exact ⟨by simpa using hs,by simpa using hne,by simpa using hp⟩

theorem candidate_of (managedRoot : Str) (hne : relativePath ≠ []) (hp : hasPhantomDiskSegment relativePath = false) :
    remoteDeleteCandidateRelativePath managedRoot
      (trimEndMatches slash managedRoot ++ slash :: relativePath) = .ok relativePath := by
  unfold remoteDeleteCandidateRelativePath
  have hs : stripPrefix (trimEndMatches slash managedRoot ++ [slash])
      (trimEndMatches slash managedRoot ++ slash :: relativePath) = some relativePath := by
    rw [stripPrefix_eq_some]
    simp
  simp [hs,hne,hp]

end Candidates

theorem relativeRemotePath_below {canonical : Str} (ht : trimEndMatches slash canonical = canonical)
    (t : Str) :
    relativeRemotePath canonical (canonical ++ slash :: t) = trimStartMatches slash t := by
  unfold relativeRemotePath
  rw [ht,stripPrefix_append]
  simp [trimStartMatches]

section Cover

variable (root : ManagedRoot) (known : List Str)

/-- A resource the planner may remove: a valid candidate that no live path names. -/
structure Removable (path : Str) : Prop where
  candidate : ∃ relativePath,
    remoteDeleteCandidateRelativePath root.canonical path = .ok relativePath
  notLive : path ∉ known

/-- The path deleted on behalf of a resource. -/
def deleteTarget (path : Str) : Str :=
  (topMissingRemoteDirectoryPrefix root.canonical path known).getD path

variable {root known}

theorem topMissing_eq {path relativePath : Str}
    (h : path = root.canonical ++ slash :: relativePath) :
    topMissingRemoteDirectoryPrefix root.canonical path known =
      (chain slash root.canonical (pathSegments relativePath).dropLast).find?
        fun p => decide (Dead known p) := by
  have hseg : ((relativeRemotePath root.canonical path).splitOn slash).filter
      (fun segment => !segment.isEmpty) = pathSegments relativePath := by
    rw [h,relativeRemotePath_below root.trimEnd]
    exact pathSegments_trimStart relativePath
  unfold topMissingRemoteDirectoryPrefix
  simp only [hseg,root.trimEnd]
  split
  · rename_i hlt
    -- at most one segment: there is no parent between root and resource
    have hnil : (pathSegments relativePath).dropLast = [] := by
      apply List.eq_nil_of_length_eq_zero
      rw [List.length_dropLast]
      omega
    simp [hnil,chain]
  · exact firstMissingPrefix_eq _ _ _

theorem topMissing_some {path m relativePath : Str}
    (hpath : path = root.canonical ++ slash :: relativePath)
    (h : topMissingRemoteDirectoryPrefix root.canonical path known = some m) :
    Dead known m ∧ m ∈ chain slash root.canonical (pathSegments relativePath).dropLast := by
  rw [topMissing_eq hpath] at h
  exact ⟨by simpa using List.find?_some h,List.mem_of_find?_eq_some h⟩

theorem slash_notMem_of_mem_pathSegments {relativePath segment : Str}
    (h : segment ∈ pathSegments relativePath) : slash ∉ segment :=
  not_mem_of_mem_splitOn (List.mem_filter.mp h).1

/-- A rebuilt parent lies strictly below the root and has no phantom segment either. -/
theorem candidate_of_mem_chain {m relativePath : Str}
    (hp : hasPhantomDiskSegment relativePath = false)
    (h : m ∈ chain slash root.canonical (pathSegments relativePath).dropLast) :
    ∃ rel, remoteDeleteCandidateRelativePath root.canonical m = .ok rel := by
  obtain ⟨xs,hne,hpre,rfl⟩ := exists_prefix_of_mem_chain h
  have hmem : ∀ x ∈ xs, x ∈ pathSegments relativePath := fun x hx =>
    List.dropLast_subset _ (hpre.subset hx)
  have hsplit : ([slash].intercalate xs).splitOn slash = xs :=
    List.splitOn_intercalate slash (fun x hx => slash_notMem_of_mem_pathSegments (hmem x hx)) hne
  refine ⟨[slash].intercalate xs,?_⟩
  have hrel : [slash].intercalate xs ≠ [] := by
    intro he
    rw [he] at hsplit
    have hx : ([] : Str) ∈ xs := by rw [← hsplit]; simp
    have hf := (List.mem_filter.mp (hmem _ hx)).2
    simp at hf
  have hphantom : hasPhantomDiskSegment ([slash].intercalate xs) = false := by
    unfold hasPhantomDiskSegment at hp ⊢
    rw [hsplit,List.any_eq_false]
    rw [List.any_eq_false] at hp
    exact fun x hx => hp x (List.mem_filter.mp (hmem x hx)).1
  have hc := candidate_of root.canonical hrel hphantom
  rwa [root.trimEnd,← extend_eq_intercalate _ hne] at hc

theorem Removable.target_candidate {path : Str} (h : Removable root known path) :
    ∃ rel, remoteDeleteCandidateRelativePath root.canonical (deleteTarget root known path) =
      .ok rel := by
  obtain ⟨rel,hrel⟩ := h.candidate
  obtain ⟨hpath,_,hp⟩ := candidate_ok hrel
  rw [root.trimEnd] at hpath
  unfold deleteTarget
  cases ht : topMissingRemoteDirectoryPrefix root.canonical path known with
  | none => exact ⟨rel,hrel⟩
  | some m => exact candidate_of_mem_chain hp (topMissing_some hpath ht).2

theorem collectStep_cases (state : DeletePlanState) (resource : ResourceMetadata) :
    let state' := collectStep root.config root.canonical known state resource
    (¬ Removable root known resource.path ∧ state' = state) ∨
    (Removable root known resource.path ∧ state' = state ∧
      (state.suppresses resource.path = true ∨
        state.suppresses (deleteTarget root known resource.path) = true)) ∨
    (Removable root known resource.path ∧
      state.suppresses (deleteTarget root known resource.path) = false ∧
      Dead known (deleteTarget root known resource.path) ∧
      state' = (state.suppress (deleteTarget root known resource.path)).push
        (deleteOperation root.config root.canonical (deleteTarget root known resource.path)
          .directory)) ∨
    (Removable root known resource.path ∧ state.suppresses resource.path = false ∧
      (resource.resourceType = .directory →
        hasLiveDescendants known (trimEndMatches slash resource.path ++ [slash]) = true) ∧
      deleteTarget root known resource.path = resource.path ∧
      state' = state.push
        (deleteOperation root.config root.canonical resource.path resource.resourceType)) := by
  intro state'
  cases hc : remoteDeleteCandidateRelativePath root.canonical resource.path with
  | error e =>
    refine Or.inl ⟨fun h => ?_,by simp [state',collectStep,hc]⟩
    obtain ⟨rel,hrel⟩ := h.candidate
    rw [hc] at hrel
    cases hrel
  | ok rel =>
    have hpath := (candidate_ok hc).1
    rw [root.trimEnd] at hpath
    by_cases hk : resource.path ∈ known
    · refine Or.inl ⟨fun h => h.notLive hk,?_⟩
      simp [state',collectStep,hc,hk]
    have hrem : Removable root known resource.path := ⟨⟨rel,hc⟩,hk⟩
    cases hs : state.suppresses resource.path with
    | true => exact Or.inr (Or.inl ⟨hrem,by simp [state',collectStep,hc,hs],Or.inl rfl⟩)
    | false =>
      cases ht : topMissingRemoteDirectoryPrefix root.canonical resource.path known with
      | some m =>
        have htarget : deleteTarget root known resource.path = m := by simp [deleteTarget,ht]
        rw [htarget]
        cases hm : state.suppresses m with
        | true =>
          exact Or.inr (Or.inl ⟨hrem,by simp [state',collectStep,hc,hs,hk,ht,hm],Or.inr rfl⟩)
        | false =>
          exact Or.inr (Or.inr (Or.inl ⟨hrem,rfl,(topMissing_some hpath ht).1,
            by simp [state',collectStep,hc,hs,hk,ht,hm]⟩))
      | none =>
        have htarget : deleteTarget root known resource.path = resource.path := by
          simp [deleteTarget,ht]
        rw [htarget]
        by_cases hd : resource.resourceType = .directory ∧
            hasLiveDescendants known (trimEndMatches slash resource.path ++ [slash]) = false
        · refine Or.inr (Or.inr (Or.inl ⟨hrem,hs,?_,by simp [state',collectStep,hc,hs,hk,ht,hd]⟩))
          rw [dead_iff]
          refine ⟨hk,?_⟩
          simp only [hasLiveDescendants,List.any_eq_false,decide_eq_true_eq] at hd ⊢
          -- the trimmed child prefix is a prefix of the untrimmed one
          intro k hkn hpre
          exact hd.2 k hkn ((trimEndMatches_snoc_isPrefix slash resource.path).trans hpre)
        · exact Or.inr (Or.inr (Or.inr ⟨hrem,rfl,fun htype => by simpa [htype] using hd,rfl,
            by simp only [state',collectStep,hc,hs,ht,if_neg hd]; simp [hk]⟩))

/-- The planner's state after some of the resources. -/
structure CollectInv (root : ManagedRoot) (known : List Str)
    (processed : List ResourceMetadata) (state : DeletePlanState) : Prop where
  sound : ∀ operation ∈ state.operations, ∃ resource ∈ processed,
    Removable root known resource.path ∧ ∃ resourceType,
      operation = deleteOperation root.config root.canonical
        (deleteTarget root known resource.path) resourceType ∧
      (resourceType = .file → resource.resourceType = .file ∧
        deleteTarget root known resource.path = resource.path)
  suppressed : ∀ pre ∈ state.suppressedPrefixes, Dead known pre ∧
    ∃ operation ∈ state.operations, operation.remotePath = pre
  settled : ∀ resource ∈ processed, Removable root known resource.path →
    ∃ operation ∈ state.operations, Covers slash operation.remotePath resource.path ∨
      Covers slash operation.remotePath (deleteTarget root known resource.path)

theorem CollectInv.init : CollectInv root known [] {} := by
  constructor <;> simp

theorem suppresses_iff {state : DeletePlanState} {path : Str} :
    state.suppresses path = true ↔ ∃ pre ∈ state.suppressedPrefixes, Covers slash pre path := by
  simp [DeletePlanState.suppresses]

theorem CollectInv.operation_of_suppresses {processed : List ResourceMetadata}
    {state : DeletePlanState} (h : CollectInv root known processed state) {path : Str}
    (hs : state.suppresses path = true) :
    ∃ operation ∈ state.operations, Covers slash operation.remotePath path := by
  obtain ⟨pre,hpre,hc⟩ := suppresses_iff.mp hs
  obtain ⟨_,operation,hop,rfl⟩ := h.suppressed pre hpre
  exact ⟨operation,hop,hc⟩

/-- A delete pushed for the resource at hand keeps the invariant. -/
theorem CollectInv.push {processed : List ResourceMetadata} {state state' : DeletePlanState}
    {resource : ResourceMetadata} (resourceType : ResourceType)
    (h : CollectInv root known processed state) (hrem : Removable root known resource.path)
    (htype : resourceType = .file → resource.resourceType = .file ∧
      deleteTarget root known resource.path = resource.path)
    (hops : state'.operations = state.operations ++ [deleteOperation root.config root.canonical
      (deleteTarget root known resource.path) resourceType])
    (hsup : ∀ pre ∈ state'.suppressedPrefixes, pre ∈ state.suppressedPrefixes ∨
      pre = deleteTarget root known resource.path ∧ Dead known pre) :
    CollectInv root known (processed ++ [resource]) state' := by
  have hnew : deleteOperation root.config root.canonical
      (deleteTarget root known resource.path) resourceType ∈ state'.operations := by simp [hops]
  refine ⟨fun operation hop => ?_,fun pre hpre => ?_,fun r hr hrr => ?_⟩
  · rw [hops] at hop
    rcases List.mem_append.mp hop with hop | hop
    · obtain ⟨r,hr,hrest⟩ := h.sound operation hop
      exact ⟨r,by simp [hr],hrest⟩
    · exact ⟨resource,by simp,hrem,resourceType,List.mem_singleton.mp hop,htype⟩
  · rcases hsup pre hpre with hpre | ⟨rfl,hd⟩
    · obtain ⟨hd,operation,hop,he⟩ := h.suppressed pre hpre
      exact ⟨hd,operation,by simp [hops,hop],he⟩
    · exact ⟨hd,_,hnew,rfl⟩
  · rcases List.mem_append.mp hr with hr | hr
    · obtain ⟨operation,hop,hc⟩ := h.settled r hr hrr
      exact ⟨operation,by simp [hops,hop],hc⟩
    · rw [List.mem_singleton.mp hr]
      exact ⟨_,hnew,Or.inr (Covers.refl _)⟩

theorem CollectInv.step {processed : List ResourceMetadata} {state : DeletePlanState}
    (h : CollectInv root known processed state) (resource : ResourceMetadata) :
    CollectInv root known (processed ++ [resource])
      (collectStep root.config root.canonical known state resource) := by
  rcases collectStep_cases state resource with
    ⟨hrem,he⟩ | ⟨hrem,he,hs⟩ | ⟨hrem,_,hd,he⟩ | ⟨hrem,_,_,ht,he⟩
  · -- not removable: nothing changes and nothing is owed
    rw [he]
    refine ⟨fun operation hop => ?_,h.suppressed,fun r hr hrr => ?_⟩
    · obtain ⟨r,hr,hrest⟩ := h.sound operation hop
      exact ⟨r,by simp [hr],hrest⟩
    · rcases List.mem_append.mp hr with hr | hr
      · exact h.settled r hr hrr
      · exact absurd (List.mem_singleton.mp hr ▸ hrr) hrem
  · -- already below a suppressed prefix
    rw [he]
    refine ⟨fun operation hop => ?_,h.suppressed,fun r hr hrr => ?_⟩
    · obtain ⟨r,hr,hrest⟩ := h.sound operation hop
      exact ⟨r,by simp [hr],hrest⟩
    · rcases List.mem_append.mp hr with hr | hr
      · exact h.settled r hr hrr
      · rw [List.mem_singleton.mp hr]
        rcases hs with hs | hs
        · obtain ⟨operation,hop,hc⟩ := h.operation_of_suppresses hs
          exact ⟨operation,hop,Or.inl hc⟩
        · obtain ⟨operation,hop,hc⟩ := h.operation_of_suppresses hs
          exact ⟨operation,hop,Or.inr hc⟩
  · rw [he]
    refine CollectInv.push .directory h hrem (by simp) rfl fun pre hpre => ?_
    rcases List.mem_append.mp hpre with hpre | hpre
    · exact Or.inl hpre
    · have heq := List.mem_singleton.mp hpre
      exact Or.inr ⟨heq,heq ▸ hd⟩
  · rw [he]
    refine CollectInv.push resource.resourceType h hrem (fun hf => ⟨hf,ht⟩) ?_
      fun pre hpre => Or.inl hpre
    rw [ht]
    rfl

theorem CollectInv.foldl {processed : List ResourceMetadata} {state : DeletePlanState}
    (h : CollectInv root known processed state) (resources : List ResourceMetadata) :
    CollectInv root known (processed ++ resources)
      (resources.foldl (collectStep root.config root.canonical known) state) := by
  induction resources generalizing processed state with
  | nil => simpa using h
  | cons resource resources ih =>
    have hstep := ih (h.step resource)
    rwa [List.append_assoc,List.singleton_append] at hstep

end Cover

section Plan

variable (root : ManagedRoot) (livePlan : LiveScanPlan) (inventory : Inventory)

def livePaths : List Str :=
  knownLiveRemotePaths root.canonical livePlan.directories livePlan.files livePlan.deletedSubtrees

abbrev plannedDeletes : List RemoteDeleteOperation :=
  collectCoalescedDeleteOperations root.config root.canonical livePlan inventory

variable {root livePlan inventory}

theorem collectInv_planned :
    CollectInv root (livePaths root livePlan) (collectResources root.canonical inventory)
      ((collectResources root.canonical inventory).foldl
        (collectStep root.config root.canonical (livePaths root livePlan)) {}) := by
  have h : CollectInv root (livePaths root livePlan) [] {} := CollectInv.init
  simpa using h.foldl (collectResources root.canonical inventory)

theorem mem_plannedDeletes {operation : RemoteDeleteOperation} :
    operation ∈ plannedDeletes root livePlan inventory ↔
      operation ∈ ((collectResources root.canonical inventory).foldl
        (collectStep root.config root.canonical (livePaths root livePlan)) {}).operations := by
  unfold plannedDeletes collectCoalescedDeleteOperations
  exact mem_sortByKey

theorem mem_collectResources {resource : ResourceMetadata} :
    resource ∈ collectResources root.canonical inventory ↔
      resource ∈ inventory.resources ∧ resource.path ≠ root.canonical := by
  simp [collectResources]

theorem Removable.ne_canonical {path : Str} (h : Removable root (livePaths root livePlan) path) :
    path ≠ root.canonical := by
  intro he
  exact h.notLive (by simp [livePaths,knownLiveRemotePaths,he])

/-- Every planned delete is the target of a removable resource of the inventory. -/
theorem plannedDeletes_sound {operation : RemoteDeleteOperation}
    (h : operation ∈ plannedDeletes root livePlan inventory) :
    ∃ resource ∈ inventory.resources, Removable root (livePaths root livePlan) resource.path ∧
      operation.remotePath = deleteTarget root (livePaths root livePlan) resource.path ∧
      operation.rootId = root.config.id ∧
      operation.relativePath = relativeRemotePath root.canonical operation.remotePath ∧
      (operation.resourceType = .file → resource.resourceType = .file ∧
        operation.remotePath = resource.path) := by
  obtain ⟨resource,hr,hrem,resourceType,rfl,htype⟩ :=
    collectInv_planned.sound operation (mem_plannedDeletes.mp h)
  exact ⟨resource,(mem_collectResources.mp hr).1,hrem,rfl,rfl,rfl,htype⟩

/-- Every removable resource is settled by a planned delete. -/
theorem plannedDeletes_settle {resource : ResourceMetadata} (h : resource ∈ inventory.resources)
    (hrem : Removable root (livePaths root livePlan) resource.path) :
    ∃ operation ∈ plannedDeletes root livePlan inventory,
      Covers slash operation.remotePath resource.path ∨
      Covers slash operation.remotePath
        (deleteTarget root (livePaths root livePlan) resource.path) := by
  obtain ⟨operation,hop,hc⟩ := collectInv_planned.settled resource
    (mem_collectResources.mpr ⟨h,hrem.ne_canonical⟩) hrem
  exact ⟨operation,mem_plannedDeletes.mpr hop,hc⟩

/-- No empty segment below the canonical root. -/
def PlainBelow (canonical path : Str) : Prop :=
  ∀ relativePath, path = canonical ++ slash :: relativePath →
    ∀ segment ∈ relativePath.splitOn slash, segment ≠ []

instance (canonical path : Str) : Decidable (PlainBelow canonical path) :=
  decidable_of_iff ((stripPrefix (canonical ++ [slash]) path).all fun relativePath =>
    decide (∀ segment ∈ relativePath.splitOn slash, segment ≠ [])) (by
      simp [PlainBelow,stripPrefix_eq_some,Option.all_eq_true])

theorem PlainBelow.pathSegments {canonical relativePath : Str}
    (h : PlainBelow canonical (canonical ++ slash :: relativePath)) :
    pathSegments relativePath = relativePath.splitOn slash := by
  unfold YaDiskSync.pathSegments
  rw [List.filter_eq_self]
  intro segment hs
  simpa using h relativePath rfl segment hs

/-- A path at or above a plain one does not end in a separator. -/
theorem PlainBelow.trimEnd_of_covers {canonical p q : Str} (h : PlainBelow canonical p)
    (hb : Beneath slash canonical q) (hc : Covers slash q p) : trimEndMatches slash q = q := by
  apply trimEndMatches_of_getLast
  obtain ⟨t,rfl⟩ := beneath_iff.mp hb
  intro hlast
  rw [List.getLast?_append_cons] at hlast
  obtain ⟨s,hs⟩ := List.getLast?_eq_some_iff.mp hlast
  have hempty : [] ∈ t.splitOn slash := by
    cases s with
    | nil =>
      have ht : t = [] := by simpa using hs
      simp [ht]
    | cons c s =>
      have ht : t = s ++ slash :: [] := by
        simp only [List.cons_append,List.cons.injEq] at hs
        exact hs.2
      rw [ht,List.splitOn_append_cons_self]
      simp
  rcases hc with rfl | hc
  · exact h t rfl [] hempty rfl
  · obtain ⟨u,rfl⟩ := beneath_iff.mp hc
    refine h (t ++ slash :: u) (by simp) [] ?_ rfl
    rw [List.splitOn_append_cons_self]
    exact List.mem_append_left _ hempty

section Plain

variable {known : List Str} {path q : Str}

/-- In plain paths the rebuilt parents are the paths strictly between root and resource. -/
theorem topMissing_plain (hrem : Removable root known path)
    (hplain : PlainBelow root.canonical path) :
    ∃ segments, (∀ p, p ∈ chain slash root.canonical segments ↔
        Beneath slash root.canonical p ∧ Beneath slash p path) ∧
      topMissingRemoteDirectoryPrefix root.canonical path known =
        (chain slash root.canonical segments).find? fun p => decide (Dead known p) := by
  obtain ⟨rel,hrel⟩ := hrem.candidate
  have hpath := (candidate_ok hrel).1
  rw [root.trimEnd] at hpath
  subst hpath
  refine ⟨(rel.splitOn slash).dropLast,fun p => ?_,?_⟩
  · rw [mem_chain_dropLast_iff (List.splitOn_ne_nil slash rel)
      (fun seg h => not_mem_of_mem_splitOn h),extend_splitOn]
  · rw [topMissing_eq rfl,hplain.pathSegments]

theorem target_covers (hrem : Removable root known path) (hplain : PlainBelow root.canonical path) :
    Covers slash (deleteTarget root known path) path := by
  obtain ⟨segments,hchain,he⟩ := topMissing_plain hrem hplain
  unfold deleteTarget
  rw [he]
  cases hf : (chain slash root.canonical segments).find? fun p => decide (Dead known p) with
  | none => exact Covers.refl _
  | some m => exact ((hchain m).mp (List.mem_of_find?_eq_some hf)).2.covers

/-- The target is the top-most dead parent: no dead parent lies above it. -/
theorem target_covers_of_dead (hrem : Removable root known path)
    (hplain : PlainBelow root.canonical path) (hd : Dead known q)
    (hq : Beneath slash root.canonical q) (hqp : Beneath slash q path) :
    Covers slash (deleteTarget root known path) q := by
  obtain ⟨segments,hchain,he⟩ := topMissing_plain hrem hplain
  have hmem : q ∈ chain slash root.canonical segments := (hchain q).mpr ⟨hq,hqp⟩
  unfold deleteTarget
  rw [he]
  cases hf : (chain slash root.canonical segments).find? fun p => decide (Dead known p) with
  | none =>
    have hn := List.find?_eq_none.mp hf q hmem
    exact absurd (decide_eq_true hd) hn
  | some m =>
    obtain ⟨_,as,bs,hsplit,has⟩ := List.find?_eq_some_iff_append.mp hf
    rw [hsplit] at hmem
    have hpw : (m :: bs).Pairwise (Beneath slash) :=
      (List.pairwise_append.mp (hsplit ▸ chain_pairwise root.canonical segments)).2.1
    rcases List.mem_append.mp hmem with hm | hm
    · simpa [hd] using has q hm
    · rcases List.mem_cons.mp hm with rfl | hm
      · exact Covers.refl _
      · exact ((List.pairwise_cons.mp hpw).1 q hm).covers

/-- The target of a removable resource is the resource itself or a dead parent. -/
theorem target_cases (hrem : Removable root known path) (hplain : PlainBelow root.canonical path) :
    deleteTarget root known path = path ∨
      (Dead known (deleteTarget root known path) ∧
        Beneath slash root.canonical (deleteTarget root known path) ∧
        Beneath slash (deleteTarget root known path) path) := by
  obtain ⟨segments,hchain,he⟩ := topMissing_plain hrem hplain
  unfold deleteTarget
  rw [he]
  cases hf : (chain slash root.canonical segments).find? fun p => decide (Dead known p) with
  | none => exact Or.inl rfl
  | some m =>
    have hm := (hchain m).mp (List.mem_of_find?_eq_some hf)
    exact Or.inr ⟨by simpa using List.find?_some hf,hm⟩

end Plain

/-- In a plain inventory a settling delete covers the resource's whole target. -/
theorem plannedDeletes_cover_target
    (hplain : ∀ r ∈ inventory.resources, PlainBelow root.canonical r.path)
    {resource : ResourceMetadata} (h : resource ∈ inventory.resources)
    (hrem : Removable root (livePaths root livePlan) resource.path) :
    ∃ operation ∈ plannedDeletes root livePlan inventory,
      Covers slash operation.remotePath
        (deleteTarget root (livePaths root livePlan) resource.path) := by
  obtain ⟨operation,hop,hc⟩ := plannedDeletes_settle h hrem
  refine ⟨operation,hop,?_⟩
  rcases hc with hc | hc
  swap
  · exact hc
  rcases target_cases hrem (hplain _ h) with he | ⟨hd,hb,hbelow⟩
  · rwa [he]
  rcases hc.total hbelow.covers with hcov | hcov
  · exact hcov
  -- the dead target lies above a delete chosen as a top-most target: they are equal
  obtain ⟨r,hr,hrrem,hrt,_⟩ := plannedDeletes_sound hop
  have hcr : Covers slash (deleteTarget root (livePaths root livePlan) r.path) r.path :=
    target_covers hrrem (hplain r hr)
  rw [hrt] at hcov ⊢
  rcases hcov.trans hcr with heq | hbr
  · rw [← heq]
    exact hcr
  · exact target_covers_of_dead hrrem (hplain r hr) hd hb hbr

/-- A path goes in the delete phase exactly when it lies at or below the target of a
removable resource. -/
theorem covered_iff_target
    (hplain : ∀ r ∈ inventory.resources, PlainBelow root.canonical r.path) {q : Str} :
    (∃ operation ∈ plannedDeletes root livePlan inventory, Covers slash operation.remotePath q) ↔
      ∃ resource ∈ inventory.resources, Removable root (livePaths root livePlan) resource.path ∧
        Covers slash (deleteTarget root (livePaths root livePlan) resource.path) q := by
  constructor
  · rintro ⟨operation,hop,hc⟩
    obtain ⟨r,hr,hrem,ht,_⟩ := plannedDeletes_sound hop
    exact ⟨r,hr,hrem,ht ▸ hc⟩
  · rintro ⟨r,hr,hrem,hc⟩
    obtain ⟨operation,hop,ht⟩ := plannedDeletes_cover_target hplain hr hrem
    exact ⟨operation,hop,ht.trans hc⟩

/-- The same in terms of the resources and the dead directories above them. -/
theorem covered_iff
    (hplain : ∀ r ∈ inventory.resources, PlainBelow root.canonical r.path) {q : Str} :
    (∃ operation ∈ plannedDeletes root livePlan inventory, Covers slash operation.remotePath q) ↔
      ∃ resource ∈ inventory.resources, Removable root (livePaths root livePlan) resource.path ∧
        (Covers slash resource.path q ∨ ∃ m, Dead (livePaths root livePlan) m ∧
          Beneath slash root.canonical m ∧ Beneath slash m resource.path ∧ Covers slash m q) := by
  rw [covered_iff_target hplain]
  constructor
  · rintro ⟨r,hr,hrem,hc⟩
    rcases target_cases hrem (hplain r hr) with he | hm
    · exact ⟨r,hr,hrem,Or.inl (he ▸ hc)⟩
    · exact ⟨r,hr,hrem,Or.inr ⟨_,hm.1,hm.2.1,hm.2.2,hc⟩⟩
  · rintro ⟨r,hr,hrem,hc | ⟨m,hd,hb,hbelow,hc⟩⟩
    · exact ⟨r,hr,hrem,(target_covers hrem (hplain r hr)).trans hc⟩
    · exact ⟨r,hr,hrem,(target_covers_of_dead hrem (hplain r hr) hd hb hbelow).trans hc⟩

end Plan

/-- A remote path below the canonical root is a valid candidate without empty segments. -/
theorem candidate_of_isRemotePath {root : ManagedRoot} {path : Str} (h : IsRemotePath path)
    (hb : Beneath slash root.canonical path) :
    (∃ rel, remoteDeleteCandidateRelativePath root.canonical path = .ok rel) ∧
      PlainBelow root.canonical path := by
  obtain ⟨t,rfl⟩ := beneath_iff.mp hb
  have hplain := h.plain_below
  have hne : t ≠ [] := by
    rintro rfl
    exact (hplain [] (by simp)).1 rfl
  have hp : hasPhantomDiskSegment t = false := by
    unfold hasPhantomDiskSegment
    rw [List.any_eq_false]
    intro segment hm
    rw [(hplain segment hm).ne_disk]
    exact Bool.false_ne_true
  have hc := candidate_of root.canonical hne hp
  rw [root.trimEnd] at hc
  refine ⟨⟨t,hc⟩,fun rel he segment hm => ?_⟩
  have ht : t = rel := by simpa using he
  exact (hplain segment (ht ▸ hm)).1

end YaDiskSync
