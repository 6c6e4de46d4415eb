import YaDiskSync.DeletePartition
import YaDiskSync.LegacyDeletes

/-! How the deletes of a legacy layout divide its inventory. Directories come before files and
shallow ones before deep ones, so that a delete is only met below one that has been made. -/
namespace YaDiskSync

open SepPath

variable {legacyRoot canonicalRoot : Str}

/-- Strictly below a root, without a segment named like the disk. -/
def StrictlyBelow (managedRoot path : Str) : Prop :=
  ∃ relativePath, relativePath ≠ [] ∧
    path = trimEndMatches slash managedRoot ++ slash :: relativePath ∧
    ∀ segment ∈ relativePath.splitOn slash, eqIgnoreAsciiCase segment "disk:".toList = false

theorem legacyRemovable_iff {path : Str} :
    LegacyRemovable legacyRoot path ↔ StrictlyBelow legacyRoot path := by
  constructor
  · rintro ⟨rel,hrel⟩
    obtain ⟨hpath,hne,hphantom⟩ := candidate_ok hrel
    exact ⟨rel,hne,hpath,fun segment hs => by simpa using List.any_eq_false.mp hphantom segment hs⟩
  · rintro ⟨rel,hne,rfl,hsegments⟩
    have hphantom : hasPhantomDiskSegment rel = false :=
      List.any_eq_false.mpr fun segment hs => by
        rw [hsegments segment hs]
        exact Bool.false_ne_true
    exact ⟨rel,candidate_of legacyRoot hne hphantom⟩

/-- The delete of a resource. -/
def legacyCandidate (legacyRoot canonicalRoot relativePath : Str) (resource : ResourceMetadata) :
    DeleteCandidate :=
  { remotePath := resource.path, relativePath, resourceType := resource.resourceType
    canonicalPath := legacyToCanonicalPath legacyRoot canonicalRoot resource.path }

theorem legacyStep_cases (state : LegacyDeleteState) (resource : ResourceMetadata) :
    let state' := legacyStep legacyRoot canonicalRoot state resource
    state' = state ∨ ∃ relativePath,
      remoteDeleteCandidateRelativePath legacyRoot resource.path = .ok relativePath ∧
      state.suppresses resource.path = false ∧
      state'.deletes =
        state.deletes ++ [legacyCandidate legacyRoot canonicalRoot relativePath resource] ∧
      (∀ pre ∈ state.suppressedPrefixes, pre ∈ state'.suppressedPrefixes) ∧
      (resource.resourceType = .directory → resource.path ∈ state'.suppressedPrefixes) := by
  unfold legacyStep
  cases hc : remoteDeleteCandidateRelativePath legacyRoot resource.path with
  | error reason => exact Or.inl rfl
  | ok relativePath =>
    cases hs : state.suppresses resource.path with
    | true => exact Or.inl rfl
    | false =>
      refine Or.inr ⟨relativePath,rfl,rfl,rfl,fun pre hpre => ?_,fun htype => ?_⟩
      · by_cases hd : resource.resourceType = .directory
        · simp [hd,hpre]
        · simp [hd,hpre]
      · simp [htype]

/-- The state after some of the resources: no delete is at or below another. -/
structure LegacyApart (legacyRoot canonicalRoot : Str) (processed : List ResourceMetadata)
    (state : LegacyDeleteState) : Prop where
  apart : (state.deletes.map DeleteCandidate.remotePath).Pairwise Incomparable
  told : ∀ delete ∈ state.deletes, ∃ resource ∈ processed, ∃ relativePath,
    remoteDeleteCandidateRelativePath legacyRoot resource.path = .ok relativePath ∧
    delete = legacyCandidate legacyRoot canonicalRoot relativePath resource ∧
    (resource.resourceType = .directory → resource.path ∈ state.suppressedPrefixes)

/-- What comes later in the order is not above what came before. -/
theorem not_above_of_collectKey {first second : ResourceMetadata}
    (horder : collectKey first ≤ collectKey second) (htype : second.resourceType = .directory) :
    ¬ Beneath slash second.path first.path := by
  intro hb
  unfold collectKey at horder
  rw [Prod.Lex.toLex_le_toLex,Prod.Lex.toLex_le_toLex] at horder
  have hcount := hb.count_lt
  rcases horder with hlt | ⟨_,hlt | ⟨heq,_⟩⟩
  · rw [htype] at hlt
    have hbool : ∀ b : Bool, ¬ b < false := by decide
    exact hbool _ hlt
  · omega
  · omega

theorem LegacyApart.step {processed : List ResourceMetadata} {state : LegacyDeleteState}
    {resource : ResourceMetadata} (h : LegacyApart legacyRoot canonicalRoot processed state)
    (hnew : ∀ other ∈ processed, other.path ≠ resource.path)
    (horder : ∀ other ∈ processed, collectKey other ≤ collectKey resource)
    (hleaf : ∀ other ∈ processed, other.resourceType = .file →
      ¬ Beneath slash other.path resource.path)
    (hleaf' : resource.resourceType = .file → ∀ other ∈ processed,
      ¬ Beneath slash resource.path other.path) :
    LegacyApart legacyRoot canonicalRoot (processed ++ [resource])
      (legacyStep legacyRoot canonicalRoot state resource) := by
  rcases legacyStep_cases state resource with he | ⟨rel,hrel,hs,hdeletes,hkeeps,hdirectory⟩
  · rw [he]
    refine ⟨h.apart,fun delete hd => ?_⟩
    obtain ⟨other,ho,hother⟩ := h.told delete hd
    exact ⟨other,by simp [ho],hother⟩
  · refine ⟨?_,fun delete hd => ?_⟩
    · rw [hdeletes,List.map_append,List.map_singleton]
      refine List.pairwise_append.mpr ⟨h.apart,List.pairwise_singleton _ _,fun p hp q hq => ?_⟩
      rw [List.mem_singleton.mp hq]
      obtain ⟨delete,hd,rfl⟩ := List.mem_map.mp hp
      obtain ⟨other,ho,_,_,rfl,hsuppressed⟩ := h.told delete hd
      refine ⟨fun hc => ?_,fun hc => ?_⟩
      · -- a directory would suppress the resource, a file has nothing beneath it
        rcases hc with heq | hbelow
        · exact hnew other ho heq.symm
        · cases htype : other.resourceType with
          | file => exact hleaf other ho htype hbelow
          | directory =>
            have hyes : state.suppresses resource.path = true :=
              List.any_eq_true.mpr ⟨_,hsuppressed htype,isAtOrBelow_iff.mpr hbelow.covers⟩
            rw [hs] at hyes
            cases hyes
      · rcases hc with heq | hbelow
        · exact hnew other ho heq
        · cases htype : resource.resourceType with
          | file => exact hleaf' htype other ho hbelow
          | directory => exact not_above_of_collectKey (horder other ho) htype hbelow
    · rw [hdeletes] at hd
      rcases List.mem_append.mp hd with hd | hd
      · obtain ⟨other,ho,rel',hrel',he,hsuppressed⟩ := h.told delete hd
        exact ⟨other,by simp [ho],rel',hrel',he,fun htype => hkeeps _ (hsuppressed htype)⟩
      · exact ⟨resource,by simp,rel,hrel,List.mem_singleton.mp hd,hdirectory⟩

theorem LegacyApart.foldl {processed resources : List ResourceMetadata} {state : LegacyDeleteState}
    (h : LegacyApart legacyRoot canonicalRoot processed state)
    (hnodup : ((processed ++ resources).map ResourceMetadata.path).Nodup)
    (horder : (processed ++ resources).Pairwise fun a b => collectKey a ≤ collectKey b)
    (hleaf : ∀ file ∈ processed ++ resources, file.resourceType = .file →
      ∀ resource ∈ processed ++ resources, ¬ Beneath slash file.path resource.path) :
    LegacyApart legacyRoot canonicalRoot (processed ++ resources)
      (resources.foldl (legacyStep legacyRoot canonicalRoot) state) := by
  induction resources generalizing processed state with
  | nil => simpa using h
  | cons resource resources ih =>
    have hnew : ∀ other ∈ processed, other.path ≠ resource.path := fun other ho => by
      rw [List.map_append,List.map_cons] at hnodup
      exact (List.nodup_append.mp hnodup).2.2 _ (List.mem_map_of_mem ho) _ (by simp)
    have hstep := h.step hnew
      (fun other ho => (List.pairwise_append.mp horder).2.2 other ho resource (by simp))
      (fun other ho htype => hleaf other (by simp [ho]) htype resource (by simp))
      fun htype other ho => hleaf resource (by simp) htype other (by simp [ho])
    rw [← List.singleton_append,← List.append_assoc] at hnodup horder hleaf ⊢
    exact ih hstep hnodup horder hleaf

/-- The deletes of a legacy layout divide what is strictly below its root. -/
structure LegacyPartition (legacy : LegacyInventory) (canonicalRoot : Str) : Prop where
  incomparable : ((collectLegacyDeleteCandidates legacy canonicalRoot).map
    DeleteCandidate.remotePath).Pairwise Incomparable
  below : ∀ delete ∈ collectLegacyDeleteCandidates legacy canonicalRoot,
    delete.relativePath ≠ [] ∧
      delete.remotePath = trimEndMatches slash legacy.rootPath ++ slash :: delete.relativePath
  once : ∀ resource ∈ legacy.resources.resources, StrictlyBelow legacy.rootPath resource.path →
    ((collectLegacyDeleteCandidates legacy canonicalRoot).map DeleteCandidate.remotePath).countP
      (fun path => Covers slash path resource.path) = 1

/-- The canonical path of a delete repeats its relative path. -/
def RepeatsRelative (canonicalRoot : Str) (delete : DeleteCandidate) : Prop :=
  delete.canonicalPath = trimEndMatches slash canonicalRoot ++ slash :: delete.relativePath

theorem trimStartMatches_of_head {c : Char} {s : Str} (h : s.head? ≠ some c) :
    trimStartMatches c s = s := by
  cases s with
  | nil => rfl
  | cons d s => exact List.dropWhile_cons_of_neg (by simpa using h)

theorem legacyCandidate_repeatsRelative {relativePath : Str} {resource : ResourceMetadata}
    (hrel : remoteDeleteCandidateRelativePath legacyRoot resource.path = .ok relativePath)
    (hhead : relativePath.head? ≠ some slash) :
    RepeatsRelative canonicalRoot
      (legacyCandidate legacyRoot canonicalRoot relativePath resource) := by
  obtain ⟨hpath,hne,_⟩ := candidate_ok hrel
  have hrelative : relativeRemotePath legacyRoot resource.path = relativePath := by
    unfold relativeRemotePath
    rw [hpath,stripPrefix_append,Option.getD_some]
    have hslash : trimStartMatches slash (slash :: relativePath) =
        trimStartMatches slash relativePath := List.dropWhile_cons_of_pos (by simp)
    rw [hslash,trimStartMatches_of_head hhead]
  simp [RepeatsRelative,legacyCandidate,legacyToCanonicalPath,joinRemotePath,hrelative,hne]

theorem legacyApart_collected (legacy : LegacyInventory) (canonicalRoot : Str)
    (hkeyed : legacy.resources.Keyed) (hleaves : FilesAreLeaves legacy.resources) :
    LegacyApart legacy.rootPath canonicalRoot
      (sortByKey collectKey legacy.resources.resources)
      ((sortByKey collectKey legacy.resources.resources).foldl
        (legacyStep legacy.rootPath canonicalRoot) {}) := by
  have hstart : LegacyApart legacy.rootPath canonicalRoot [] {} := ⟨List.Pairwise.nil,by simp⟩
  have hsorted := sortByKey_perm collectKey legacy.resources.resources
  have hpaths : ((sortByKey collectKey legacy.resources.resources).map
      ResourceMetadata.path).Nodup := (hsorted.map _).nodup_iff.mpr (Inventory.nodup_paths hkeyed)
  rw [← List.nil_append (sortByKey collectKey legacy.resources.resources)] at hpaths
  exact hstart.foldl hpaths (sortByKey_pairwise _ _) fun file hf htype resource hr =>
    hleaves file (mem_sortByKey.mp hf) htype resource (mem_sortByKey.mp hr)

/-- Every resource strictly below a legacy root goes with exactly one delete; the canonical path of
a delete repeats its relative path, unless that begins with a separator. -/
theorem legacyDeletes_partition (legacy : LegacyInventory) (canonicalRoot : Str)
    (hkeyed : legacy.resources.Keyed) (hleaves : FilesAreLeaves legacy.resources) :
    LegacyPartition legacy canonicalRoot ∧
      ∀ delete ∈ collectLegacyDeleteCandidates legacy canonicalRoot,
        delete.relativePath.head? ≠ some slash → RepeatsRelative canonicalRoot delete := by
  have hcollected := legacyApart_collected legacy canonicalRoot hkeyed hleaves
  refine ⟨⟨hcollected.apart,fun delete hd => ?_,fun resource hr hbelow => ?_⟩,
    fun delete hd hhead => ?_⟩
  · obtain ⟨resource,_,rel,hrel,rfl,_⟩ := hcollected.told delete hd
    obtain ⟨hpath,hne,_⟩ := candidate_ok hrel
    exact ⟨hne,hpath⟩
  · obtain ⟨delete,hd,hc⟩ := (legacyCovered_iff canonicalRoot).mpr
      ⟨resource,hr,legacyRemovable_iff.mpr hbelow,Covers.refl _⟩
    have hpos : 0 < ((collectLegacyDeleteCandidates legacy canonicalRoot).map
        DeleteCandidate.remotePath).countP fun path => Covers slash path resource.path :=
      List.countP_pos_iff.mpr ⟨_,List.mem_map_of_mem hd,decide_eq_true hc⟩
    have hle := countP_covers_le_one hcollected.apart resource.path
    exact Nat.le_antisymm hle hpos
  · obtain ⟨resource,_,rel,hrel,rfl,_⟩ := hcollected.told delete hd
    exact legacyCandidate_repeatsRelative hrel hhead

section Doubled

private def doubledLegacy : LegacyInventory :=
  ⟨"disk:/old".toList,Inventory.ofResources [.ofFile "disk:/old//a".toList 1]⟩

theorem legacyDeletes_dropSeparator : ¬ ∀ (legacy : LegacyInventory) (canonicalRoot : Str),
    legacy.resources.Keyed → FilesAreLeaves legacy.resources →
      LegacyPartition legacy canonicalRoot ∧
        ∀ delete ∈ collectLegacyDeleteCandidates legacy canonicalRoot,
          RepeatsRelative canonicalRoot delete := by
  intro h
  have hleaves : FilesAreLeaves doubledLegacy.resources := by decide
  have hrepeats := (h doubledLegacy "disk:/B/data".toList (Inventory.keyed_ofResources _) hleaves).2
    ⟨"disk:/old//a".toList,"/a".toList,.file,"disk:/B/data/a".toList⟩ (by decide)
  revert hrepeats
  unfold RepeatsRelative
  decide

private def sortedLegacy : LegacyInventory :=
  ⟨"disk:/old/".toList,Inventory.ofResources [
    .ofDirectory "disk:/old".toList,.ofFile "disk:/old/x/a".toList 1,
    .ofDirectory "disk:/old/x".toList,.ofFile "disk:/old/y/b".toList 1]⟩

/-- What is in a listed directory goes with it, a file in one that is not listed by itself. -/
theorem sortedLegacy_twoDeletes :
    collectLegacyDeleteCandidates sortedLegacy "disk:/B/data".toList =
      [⟨"disk:/old/x".toList,"x".toList,.directory,"disk:/B/data/x".toList⟩,
        ⟨"disk:/old/y/b".toList,"y/b".toList,.file,"disk:/B/data/y/b".toList⟩] ∧
      LegacyPartition sortedLegacy "disk:/B/data".toList ∧
      ∀ delete ∈ collectLegacyDeleteCandidates sortedLegacy "disk:/B/data".toList,
        RepeatsRelative "disk:/B/data".toList delete := by
  have hparts := legacyDeletes_partition sortedLegacy "disk:/B/data".toList
    (Inventory.keyed_ofResources _) (show FilesAreLeaves sortedLegacy.resources by decide)
  exact ⟨by decide,hparts.1,fun delete hd => hparts.2 delete hd (by revert delete; decide)⟩

end Doubled

end YaDiskSync
