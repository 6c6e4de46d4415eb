import YaDiskSync.Listing

/-! A recursive listing of a remote tree gives what the tree holds, whatever the pages are and in
whatever order the tasks complete. -/
namespace YaDiskSync

open SepPath

/-- The order of the keys of a map is the lexicographic one. -/
theorem lt_of_compare {a b : Str} (h : compare a b = .lt) : a < b := by
  induction a generalizing b with
  | nil =>
    cases b with
    | nil => cases h
    | cons y b => exact List.nil_lt_cons y b
  | cons x a ih =>
    cases b with
    | nil => cases h
    | cons y b =>
      rw [List.compare_cons_cons,Ordering.then_eq_lt] at h
      rw [List.cons_lt_cons_iff]
      rcases h with h | ⟨he,h⟩
      · exact .inl (compareOfLessAndEq_eq_lt.1 h)
      · exact .inr ⟨Std.LawfulEqCmp.eq_of_compare he,ih h⟩

theorem beneath_iff_stripPrefix {p q : Str} : Beneath slash p q ↔
    (stripPrefix p q).any (fun suffix => suffix.head? == some slash) = true := by
  constructor
  · intro h
    obtain ⟨t,rfl⟩ := beneath_iff.1 h
    rw [stripPrefix_append]
    simp
  · intro h
    obtain ⟨suffix,hs,hhead⟩ := Option.any_eq_true _ _ |>.1 h
    rw [stripPrefix_eq_some] at hs
    cases suffix with
    | nil => simp at hhead
    | cons c t =>
      have hc : c = slash := by simpa using hhead
      rw [hs,hc]
      exact beneath_append p t

theorem isPrunedRemotePath_iff {path : Str} {prefixes : List Str} :
    isPrunedRemotePath path prefixes = true ↔ ∃ pruned ∈ prefixes, Covers slash pruned path := by
  simp only [isPrunedRemotePath,List.any_eq_true,Bool.or_eq_true,beq_iff_eq,
    ← beneath_iff_stripPrefix]
  rfl

theorem mem_normalizedPrunePrefixes {pruned : Str} {prefixes : List Str} :
    pruned ∈ normalizedPrunePrefixes prefixes ↔
      ∃ p ∈ prefixes, trimEndMatches slash p = pruned ∧ pruned ≠ [] := by
  simp only [normalizedPrunePrefixes,List.mem_filter,List.mem_map,Bool.not_eq_true',
    List.isEmpty_eq_false_iff]
  constructor
  · rintro ⟨⟨p,hp,he⟩,hne⟩
    exact ⟨p,hp,he,hne⟩
  · rintro ⟨p,hp,he,hne⟩
    exact ⟨⟨p,hp,he⟩,hne⟩

/-- Slashes at the end of a path do not change what covers it. -/
theorem covers_trimEndMatches_iff {p : Str} (hp : trimEndMatches slash p = p) (q : Str) :
    Covers slash p q ↔ Covers slash p (trimEndMatches slash q) := by
  induction q using List.reverseRecOn with
  | nil => rfl
  | append_singleton s x ih =>
    by_cases hx : x = slash
    · subst hx
      have htrim : trimEndMatches slash (s ++ [slash]) = trimEndMatches slash s :=
        List.rdropWhile_concat_pos _ _ _ (by simp)
      have hne : s ++ [slash] ≠ p := by
        rintro rfl
        have hlen := (trimEndMatches_isPrefix slash s).length_le
        rw [← htrim,hp,List.length_append,List.length_singleton] at hlen
        omega
      rw [htrim,← ih]
      constructor
      · rintro (h | h)
        · exact absurd h hne
        · rcases List.prefix_concat_iff.1 h with h | h
          · rw [List.append_cancel_right_eq] at h
            exact .inl h.symm
          · exact .inr h
      · rintro (h | h)
        · rw [h]
          exact .inr (List.prefix_refl _)
        · exact .inr (List.IsPrefix.trans h (List.prefix_append _ _))
    · rw [trimEndMatches_of_getLast (by simpa using hx)]

namespace RemoteDisk

variable {disk : RemoteDisk} {root path q : Str} {prefixes : List Str}

/-- `q` names an entry of the directory `path`. -/
def isChild (path q : Str) : Bool :=
  (stripPrefix (childPrefix path) q).any fun name => !name.isEmpty && !name.contains slash

/-- The entries of a directory. -/
def children (disk : RemoteDisk) (path : Str) : List ResourceMetadata :=
  disk.resources.resources.filter fun resource => isChild path resource.path

/-- The root, or a directory below it. -/
def IsDirectoryOf (disk : RemoteDisk) (root path : Str) : Prop :=
  path = root ∨ ∃ directory ∈ disk.resources.resources, directory.path = path ∧
    directory.resourceType = .directory ∧ childPrefix root <+: path

/-- What lies below the root is a directory tree: each resource is an entry of a directory. -/
structure IsTree (disk : RemoteDisk) (root : Str) : Prop where
  keyed : disk.Keyed
  rooted : remotePrefix <+: childPrefix root
  parent : ∀ resource ∈ disk.resources.resources, childPrefix root <+: resource.path →
    ∃ directory, disk.IsDirectoryOf root directory ∧ isChild directory resource.path = true

theorem isChild_iff : isChild path q = true ↔
    ∃ name, name ≠ [] ∧ slash ∉ name ∧ q = trimEndMatches slash path ++ slash :: name := by
  constructor
  · intro h
    obtain ⟨name,hs,hn⟩ := Option.any_eq_true _ _ |>.1 h
    rw [stripPrefix_eq_some,childPrefix] at hs
    rw [Bool.and_eq_true,Bool.not_eq_true',Bool.not_eq_true',List.isEmpty_eq_false_iff] at hn
    exact ⟨name,hn.1,by simpa using hn.2,by simpa using hs⟩
  · rintro ⟨name,hne,hn,rfl⟩
    have hs : stripPrefix (childPrefix path) (trimEndMatches slash path ++ slash :: name) =
        some name := by
      rw [stripPrefix_eq_some,childPrefix]
      simp
    rw [isChild,hs]
    simp [hne,hn]

/-- What is above an entry covers its directory. -/
theorem beneath_child_iff (h : isChild path q = true) {p : Str} :
    Beneath slash p q ↔ Covers slash p (trimEndMatches slash path) := by
  obtain ⟨name,-,hn,rfl⟩ := isChild_iff.1 h
  exact beneath_snoc_iff hn

theorem beneath_of_isChild (h : isChild path q = true) :
    Beneath slash (trimEndMatches slash path) q :=
  (beneath_child_iff h).2 (Covers.refl _)

theorem trimEndMatches_of_isChild (h : isChild path q = true) : trimEndMatches slash q = q := by
  obtain ⟨name,hne,hn,rfl⟩ := isChild_iff.1 h
  apply trimEndMatches_of_getLast
  rw [List.getLast?_append,List.getLast?_cons_of_ne_nil hne,List.getLast?_eq_some_getLast hne]
  intro h
  have hlast : name.getLast hne = slash := by simpa using h
  exact hn (hlast ▸ List.getLast_mem hne)

/-- What the listing of a path is to hold. -/
theorem mem_listRecursive_iff {resource : ResourceMetadata} :
    resource ∈ disk.listRecursive path prefixes ↔ resource ∈ disk.resources.resources ∧
      Beneath slash (trimEndMatches slash path) resource.path ∧
      ∀ p ∈ prefixes, ¬ Beneath slash (trimEndMatches slash p) resource.path := by
  simp only [listRecursive,childPrefix,List.mem_filter,List.isPrefixOf_iff_prefix,
    Bool.not_eq_true',List.any_map,List.any_eq_false,Function.comp_apply,Bool.and_eq_true,
    decide_eq_true_eq,← beneath_iff_stripPrefix,and_assoc]
  refine and_congr_right fun _ => and_congr_right fun _ => forall₂_congr fun p _ => ?_
  exact ⟨fun h hb => h ⟨hb.ne.symm,hb⟩,fun h hb => h hb.2⟩

/-- The paths of a keyed map's values are in order. -/
theorem resources_pairwise (hk : disk.Keyed) :
    disk.resources.resources.Pairwise fun a b => a.path < b.path := by
  rw [Inventory.resources,List.pairwise_map]
  refine Std.TreeMap.ordered_keys_toList.imp_of_mem fun ha hb h => ?_
  rw [hk _ _ (Std.TreeMap.mem_toList_iff_getElem?_eq_some.1 ha),
    hk _ _ (Std.TreeMap.mem_toList_iff_getElem?_eq_some.1 hb)]
  exact lt_of_compare h

theorem resources_nodup (hk : disk.Keyed) : disk.resources.resources.Nodup :=
  (resources_pairwise hk).imp fun h => by
    rintro rfl
    exact lt_irrefl _ h

theorem resources_path_inj (hk : disk.Keyed) {a b : ResourceMetadata}
    (ha : a ∈ disk.resources.resources) (hb : b ∈ disk.resources.resources)
    (h : a.path = b.path) : a = b := by
  obtain ⟨ka,ha⟩ := Inventory.mem_resources.1 ha
  obtain ⟨kb,hb⟩ := Inventory.mem_resources.1 hb
  rw [hk ka a ha,hk kb b hb] at h
  rw [h,hb] at ha
  exact (Option.some_inj.1 ha).symm

namespace IsTree

theorem trimEndMatches_directory (h : disk.IsTree root) {directory : ResourceMetadata}
    (hd : directory ∈ disk.resources.resources) (hb : childPrefix root <+: directory.path) :
    trimEndMatches slash directory.path = directory.path := by
  obtain ⟨_,-,hc⟩ := h.parent directory hd hb
  exact trimEndMatches_of_isChild hc

/-- Below a directory of the tree is below the root. -/
theorem childPrefix_isPrefix (h : disk.IsTree root) (hd : disk.IsDirectoryOf root path) :
    childPrefix root <+: childPrefix path := by
  rcases hd with rfl | ⟨directory,hm,rfl,-,hb⟩
  · exact List.prefix_refl _
  · rw [childPrefix.eq_1 directory.path,h.trimEndMatches_directory hm hb]
    exact hb.trans (List.prefix_append _ _)

/-- A directory of the tree below which a resource lies has it as an entry, or has an entry that
is a directory above it. -/
theorem descend (h : disk.IsTree root) (hd : disk.IsDirectoryOf root path)
    {resource : ResourceMetadata} (hr : resource ∈ disk.resources.resources)
    (hb : Beneath slash (trimEndMatches slash path) resource.path) :
    isChild path resource.path = true ∨ ∃ directory ∈ disk.children path,
      directory.resourceType = .directory ∧ Beneath slash directory.path resource.path := by
  induction hn : resource.path.length using Nat.strong_induction_on generalizing resource with
  | _ n ih =>
    have hroot := (h.childPrefix_isPrefix hd).trans hb
    obtain ⟨parent,hp,hc⟩ := h.parent resource hr hroot
    rcases (beneath_child_iff hc).1 hb with heq | habove
    · exact .inl (by rwa [isChild,childPrefix,← heq])
    · rcases hp with rfl | ⟨directory,hm,rfl,htype,hbelow⟩
      · -- nothing in the tree is above its root
        have hlen := (h.childPrefix_isPrefix hd).length_le
        have hlt := habove.length_lt
        simp only [childPrefix,List.length_append,List.length_singleton] at hlen
        omega
      · rw [h.trimEndMatches_directory hm hbelow] at habove
        have hunder := beneath_of_isChild hc
        rw [h.trimEndMatches_directory hm hbelow] at hunder
        rcases ih _ (hn ▸ hunder.length_lt) hm habove rfl with hchild | ⟨entry,he,ht,hbe⟩
        · exact .inr ⟨directory,List.mem_filter.2 ⟨hm,hchild⟩,htype,hunder⟩
        · exact .inr ⟨entry,he,ht,hbe.trans hunder⟩

/-- An entry of a directory that is not pruned is not strictly below a pruned prefix. -/
theorem not_beneath_of_isChild (h : disk.IsTree root) (hd : disk.IsDirectoryOf root path)
    (hpruned : isPrunedRemotePath path (normalizedPrunePrefixes prefixes) = false)
    (hc : isChild path q = true) {p : Str} (hp : p ∈ prefixes) :
    ¬ Beneath slash (trimEndMatches slash p) q := by
  intro hb
  have hidem : trimEndMatches slash (trimEndMatches slash p) = trimEndMatches slash p :=
    List.rdropWhile_idempotent _ _
  have hne : trimEndMatches slash p ≠ [] := by
    -- paths of the tree begin with the name of the disk
    intro hnil
    rw [hnil] at hb
    have hdisk : remotePrefix <+: q :=
      (h.rooted.trans (h.childPrefix_isPrefix hd)).trans (beneath_of_isChild hc)
    obtain ⟨t,rfl⟩ := hdisk
    have := List.cons_prefix_cons.1 hb
    exact absurd this.1 (by decide)
  rw [beneath_child_iff hc,← covers_trimEndMatches_iff hidem] at hb
  have htrue := isPrunedRemotePath_iff.2 ⟨_,mem_normalizedPrunePrefixes.2 ⟨p,hp,rfl,hne⟩,hb⟩
  rw [htrue] at hpruned
  cases hpruned

/-- Everything below a pruned path is strictly below a pruned prefix. -/
theorem listRecursive_pruned
    (hpruned : isPrunedRemotePath path (normalizedPrunePrefixes prefixes) = true) :
    disk.listRecursive path prefixes = [] := by
  apply List.eq_nil_iff_forall_not_mem.2
  intro resource hr
  obtain ⟨-,hb,hspared⟩ := mem_listRecursive_iff.1 hr
  obtain ⟨pruned,hm,hc⟩ := isPrunedRemotePath_iff.1 hpruned
  obtain ⟨p,hp,rfl,-⟩ := mem_normalizedPrunePrefixes.1 hm
  have hidem : trimEndMatches slash (trimEndMatches slash p) = trimEndMatches slash p :=
    List.rdropWhile_idempotent _ _
  rw [covers_trimEndMatches_iff hidem] at hc
  exact hspared p hp (hc.beneath hb)

end IsTree

/-- The entries of a directory that the walk goes down into. -/
def subdirectories (prunePrefixes : List Str) (items : List ResourceMetadata) : List Str :=
  (items.filter fun item => item.resourceType = .directory ∧
    ¬ isPrunedRemotePath item.path prunePrefixes).map (·.path)

theorem mem_subdirectories {prunePrefixes : List Str} {items : List ResourceMetadata} {d : Str} :
    d ∈ subdirectories prunePrefixes items ↔ ∃ item ∈ items, item.resourceType = .directory ∧
      isPrunedRemotePath item.path prunePrefixes = false ∧ item.path = d := by
  simp [subdirectories,and_assoc]

theorem mem_children {resource : ResourceMetadata} : resource ∈ disk.children path ↔
    resource ∈ disk.resources.resources ∧ isChild path resource.path = true :=
  List.mem_filter

/-- An entry does not cover its own directory. -/
theorem not_covers_of_isChild (h : isChild path q = true) :
    ¬ Covers slash q (trimEndMatches slash path) := fun hc =>
  absurd ((beneath_of_isChild h).trans_covers hc).length_lt (lt_irrefl _)

theorem listRecursive_nodup (hk : disk.Keyed) : (disk.listRecursive path prefixes).Nodup :=
  ((resources_nodup hk).filter _).filter _

section Unfold

variable {items : List ResourceMetadata}

theorem beneath_entry {entry : Str} (hc : isChild path entry = true) {resource : ResourceMetadata}
    (hr : resource ∈ disk.listRecursive entry prefixes) : Beneath slash entry resource.path := by
  have hb := (mem_listRecursive_iff.1 hr).2.1
  rwa [trimEndMatches_of_isChild hc] at hb

/-- What lies below different entries of one directory, and the entries, are all different. -/
theorem unfold_nodup (hk : disk.Keyed) (hitems : items.Perm (disk.children path))
    (prunePrefixes : List Str) :
    (items ++ (subdirectories prunePrefixes items).flatMap fun d =>
      disk.listRecursive d prefixes).Nodup := by
  have hnodup : items.Nodup := hitems.nodup_iff.2 ((resources_nodup hk).filter _)
  have hchild : ∀ item ∈ items, item ∈ disk.resources.resources ∧ isChild path item.path = true :=
    fun item hi => mem_children.1 (hitems.mem_iff.1 hi)
  refine hnodup.append (List.nodup_flatMap.2 ⟨fun d _ => listRecursive_nodup hk,?_⟩) ?_
  · rw [subdirectories,List.pairwise_map]
    refine (hnodup.filter _).imp_of_mem fun {a b} ha hb hne => ?_
    have hca := hchild a (List.mem_of_mem_filter ha)
    have hcb := hchild b (List.mem_of_mem_filter hb)
    have hpath : a.path ≠ b.path := fun he => hne (resources_path_inj hk hca.1 hcb.1 he)
    intro resource hra hrb
    have hba := beneath_entry hca.2 hra
    have hbb := beneath_entry hcb.2 hrb
    rcases hba.covers.total hbb.covers with h | h
    · exact not_covers_of_isChild hca.2 ((beneath_child_iff hcb.2).1 (h.beneath_of_ne hpath))
    · exact not_covers_of_isChild hcb.2 ((beneath_child_iff hca.2).1 (h.beneath_of_ne hpath.symm))
  · intro resource hr hbelow
    obtain ⟨d,hd,hrd⟩ := List.mem_flatMap.1 hbelow
    obtain ⟨item,hi,-,-,rfl⟩ := mem_subdirectories.1 hd
    have hci := (hchild item hi).2
    exact not_covers_of_isChild hci
      ((beneath_child_iff (hchild resource hr).2).1 (beneath_entry hci hrd))

/-- Below a directory that is not pruned lie its entries and what lies below those of them that
the walk goes down into. -/
theorem IsTree.unfold (h : disk.IsTree root) (hd : disk.IsDirectoryOf root path)
    (hpruned : isPrunedRemotePath path (normalizedPrunePrefixes prefixes) = false)
    (hitems : items.Perm (disk.children path)) :
    (disk.listRecursive path prefixes).Perm
      (items ++ (subdirectories (normalizedPrunePrefixes prefixes) items).flatMap fun d =>
        disk.listRecursive d prefixes) := by
  refine (List.perm_ext_iff_of_nodup (listRecursive_nodup h.keyed)
    (unfold_nodup h.keyed hitems _)).2 fun resource => ?_
  rw [List.mem_append,List.mem_flatMap]
  constructor
  · intro hr
    obtain ⟨hm,hb,hspared⟩ := mem_listRecursive_iff.1 hr
    rcases h.descend hd hm hb with hchild | ⟨entry,he,htype,hbe⟩
    · exact .inl (hitems.mem_iff.2 (mem_children.2 ⟨hm,hchild⟩))
    · have hce := (mem_children.1 he).2
      have hre : resource ∈ disk.listRecursive entry.path prefixes :=
        mem_listRecursive_iff.2 ⟨hm,by rwa [trimEndMatches_of_isChild hce],hspared⟩
      have hopen : isPrunedRemotePath entry.path (normalizedPrunePrefixes prefixes) = false := by
        by_contra hnot
        rw [IsTree.listRecursive_pruned (by simpa using hnot)] at hre
        cases hre
      exact .inr ⟨entry.path,
        mem_subdirectories.2 ⟨entry,hitems.mem_iff.2 he,htype,hopen,rfl⟩,hre⟩
  · rintro (hr | ⟨d,hdir,hr⟩)
    · obtain ⟨hm,hc⟩ := mem_children.1 (hitems.mem_iff.1 hr)
      exact mem_listRecursive_iff.2 ⟨hm,beneath_of_isChild hc,
        fun p hp => h.not_beneath_of_isChild hd hpruned hc hp⟩
    · obtain ⟨item,hi,-,-,rfl⟩ := mem_subdirectories.1 hdir
      have hc := (mem_children.1 (hitems.mem_iff.1 hi)).2
      have hspared := mem_listRecursive_iff.1 hr
      exact mem_listRecursive_iff.2
        ⟨hspared.1,(beneath_of_isChild hc).trans (beneath_entry hc hr),hspared.2.2⟩

end Unfold

end RemoteDisk

end YaDiskSync
