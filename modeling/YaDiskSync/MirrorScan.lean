import YaDiskSync.FaultRun
import YaDiskSync.Mirror
import YaDiskSync.PathComposition
import YaDiskSync.PrunedWalk
import YaDiskSync.ScanOrder

/-! What the scan of an unchanged disk hands to the plan of a root. The directory of every reported
entry is reported, and where names map one segment at a time and no two entries map to one path
the report and the remote tree below the root make a static sync. -/
namespace YaDiskSync

open SepPath

/-- An entry maps to its directory's path and one segment more, if it maps at all. -/
def MapsBelow (canonical : Str) (names : List Str) : Prop :=
  ∀ path, remotePathForRelative canonical (relativePathOf names) = .ok path →
    ∃ above segment, PlainSegment segment ∧ path = above ++ slash :: segment ∧
      if names.dropLast = [] then above = canonical
      else remotePathForRelative canonical (relativePathOf names.dropLast) = .ok above

/-- A name the mapping leaves as it is, wherever it stands in a path. -/
structure PlainName (name : Str) : Prop where
  segment : PlainSegment name
  last : ∀ c, name.getLast? = some c → isWhitespace c = false

section Names

variable {canonical : Str} {names : List Str}

theorem getLast?_intercalate (hne : names ≠ []) (h : ∀ name ∈ names, name ≠ []) :
    ([slash].intercalate names).getLast? = (names.getLast hne).getLast? := by
  obtain ⟨front,name,rfl⟩ := (List.eq_nil_or_concat' names).resolve_left hne
  rw [List.getLast_append_singleton]
  by_cases hf : front = []
  · simp [hf]
  · rw [intercalate_snoc hf,List.getLast?_append_of_ne_nil _ (by simp)]
    exact List.getLast?_cons_of_ne_nil (h name (by simp))

theorem head?_intercalate (h : ∀ name ∈ names, PlainSegment name) :
    ([slash].intercalate names).head? ≠ some slash := by
  intro hhead
  cases names with
  | nil => cases hhead
  | cons name names =>
    have hname : PlainSegment name := h name (by simp)
    obtain ⟨c,rest,rfl⟩ := List.exists_cons_of_ne_nil hname.1
    have hc : c = slash := by cases names <;> simpa using hhead
    exact hname.slash_notMem (by simp [hc])

theorem mem_intercalate {c : Char} (hc : c ∈ [slash].intercalate names) :
    c = slash ∨ ∃ name ∈ names, c ∈ name := by
  induction names with
  | nil => cases hc
  | cons name names ih =>
    cases names with
    | nil => exact Or.inr ⟨name,by simp,by simpa using hc⟩
    | cons next names =>
      rw [List.intercalate_cons_cons] at hc
      rcases List.mem_append.mp hc with hc | hc
      · rcases List.mem_append.mp hc with hc | hc
        · exact Or.inr ⟨name,by simp,hc⟩
        · exact Or.inl (by simpa using hc)
      · rcases ih hc with hs | ⟨other,ho,hc⟩
        · exact Or.inl hs
        · exact Or.inr ⟨other,List.mem_cons_of_mem _ ho,hc⟩

theorem relativePathOf_plain (hne : names ≠ []) (h : ∀ name ∈ names, PlainSegment name) :
    relativePathOf names = [slash].intercalate names := by
  have hreplace : replaceChar '\\' slash ([slash].intercalate names) = [slash].intercalate names := by
    refine (List.map_congr_left fun c hc => ?_).trans (List.map_id _)
    refine if_neg ?_
    rintro rfl
    rcases mem_intercalate hc with hc | ⟨name,hn,hc⟩
    · exact absurd hc (by decide)
    · exact absurd ((h name hn).2 _ hc) (by decide)
  rw [relativePathOf,hreplace]
  refine Trimmed.trimMatches ⟨head?_intercalate h,fun hlast => ?_⟩
  rw [getLast?_intercalate hne fun name hn => (h name hn).1] at hlast
  exact (h _ (List.getLast_mem hne)).slash_notMem (List.mem_of_getLast? hlast)

/-- Plain names map to themselves. -/
theorem remotePathForRelative_plain (hc : IsRemotePath canonical) (hne : names ≠ [])
    (h : ∀ name ∈ names, PlainName name) :
    remotePathForRelative canonical (relativePathOf names) = .ok (extend slash canonical names) := by
  have hsegment : ∀ name ∈ names, PlainSegment name := fun name hn => (h name hn).segment
  have hlast := getLast?_intercalate hne fun name hn => (hsegment name hn).1
  have hplain := hsegment _ (List.getLast_mem hne)
  have htrimmed : trimmedSuffix ([slash].intercalate names) = [slash].intercalate names := by
    have hdrop : ([slash].intercalate names).rdropWhile isWhitespace =
        [slash].intercalate names := by
      rw [List.rdropWhile_eq_self_iff]
      intro hl
      rw [Bool.not_eq_true]
      refine (h _ (List.getLast_mem hne)).last _ ?_
      rw [← hlast,List.getLast?_eq_getLast_of_ne_nil hl]
    rw [trimmedSuffix,hdrop]
    refine trimEndMatches_of_getLast fun hs => ?_
    rw [hlast] at hs
    exact hplain.slash_notMem (List.mem_of_getLast? hs)
  have hkept : sanitizedText ([slash].intercalate names) = [slash].intercalate names := by
    refine List.filter_eq_self.mpr fun c hc => ?_
    rcases mem_intercalate hc with rfl | ⟨name,hn,hc⟩
    · rfl
    · rw [(hsegment name hn).2 c hc]
      rfl
  have hnonempty : [slash].intercalate names ≠ [] := by
    intro hnil
    rw [hnil] at hlast
    exact hplain.1 (List.getLast?_eq_none_iff.mp hlast.symm)
  rw [remotePathForRelative_names_iff hc,relativePathOf_plain hne hsegment,htrimmed,if_neg hnonempty,
    hkept]
  refine ⟨fun hempty => ?_,extend_eq_intercalate canonical hne⟩
  rw [splitOn_intercalate_plain hne hsegment] at hempty
  exact (hsegment [] hempty).1 rfl

theorem mapsBelow_plain (hc : IsRemotePath canonical) (h : ∀ name ∈ names, PlainName name)
    (hne : names ≠ []) : MapsBelow canonical names := by
  obtain ⟨front,name,rfl⟩ := (List.eq_nil_or_concat' names).resolve_left hne
  intro path hpath
  rw [remotePathForRelative_plain hc hne h,extend_append] at hpath
  cases hpath
  refine ⟨_,name,(h name (by simp)).segment,rfl,?_⟩
  rw [List.dropLast_concat]
  split
  · rename_i hf
    rw [hf]
    rfl
  · rename_i hf
    exact remotePathForRelative_plain hc hf fun name hn => h name (by simp [hn])

end Names

section Reported

variable {ext : Externals} {oracle : ScanOracle} {context : ScanContext} {tree : LocalTree}
  {components : List Str} {path : Str}

/-- Without faults a visited entry lies in a directory that is visited and not excluded. -/
theorem visited_parent (hv : isVisited ext context {} components = true)
    (hne : components.dropLast ≠ []) :
    isVisited ext context {} components.dropLast = true ∧
      excludedBy ext context components.dropLast true = none := by
  have hcomponents : components ≠ [] := by
    rintro rfl
    exact hne rfl
  have habove : ∀ dir rest, rest ≠ [] → components = dir ++ rest →
      descends ext context {} dir = true := by
    intro dir rest hrest hsplit
    unfold isVisited parentsListed at hv
    rw [Bool.and_eq_true,List.all_eq_true] at hv
    exact (Bool.and_eq_true_iff.mp (hv.1 dir (mem_inits_dropLast.mpr ⟨rest,hrest,hsplit⟩))).1
  have hsplit := List.dropLast_append_getLast hcomponents
  constructor
  · unfold isVisited parentsListed
    rw [Bool.and_eq_true,List.all_eq_true]
    refine ⟨fun dir hdir => ?_,rfl⟩
    obtain ⟨rest,_,hdrop⟩ := mem_inits_dropLast.mp hdir
    rw [habove dir (rest ++ [components.getLast hcomponents]) (by simp)
      (by rw [← List.append_assoc,← hdrop,hsplit])]
    rfl
  · have hd := habove components.dropLast [components.getLast hcomponents] (by simp) hsplit.symm
    unfold descends at hd
    rw [Bool.or_eq_true,List.isEmpty_iff] at hd
    have hboth := Bool.and_eq_true_iff.mp (hd.resolve_left hne)
    exact Option.isNone_iff_eq_none.mp hboth.2

theorem mem_directoryPaths : path ∈ (scanReport ext oracle context {} tree).directories.map
      LocalDirectoryEntry.remotePath ↔
    ∃ item ∈ tree.items, isVisited ext context {} item.components = true ∧
      item.fileType = .dir ∧ excludedBy ext context item.components true = none ∧
        remotePathForRelative context.root.canonicalRemotePath
          (relativePathOf item.components) = .ok path := by
  simp only [List.mem_map,mem_scanReport_directories,← @exists_directory_visit_iff
    ext oracle context {}]
  constructor
  · rintro ⟨entry,⟨item,hi,hv,he⟩,rfl⟩
    exact ⟨item,hi,hv,entry,he,rfl⟩
  · rintro ⟨item,hi,hv,entry,he,rfl⟩
    exact ⟨entry,⟨item,hi,hv,he⟩,rfl⟩

theorem mem_filePaths : path ∈ (scanReport ext oracle context {} tree).files.map
      LocalFileEntry.remotePath ↔
    ∃ item ∈ tree.items, isVisited ext context {} item.components = true ∧
      item.fileType = .file ∧ excludedBy ext context item.components false = none ∧
        remotePathForRelative context.root.canonicalRemotePath
          (relativePathOf item.components) = .ok path ∧
            item.sizeBytes ≤ context.options.maxFileSizeBytes := by
  simp only [List.mem_map,mem_scanReport_files]
  constructor
  · rintro ⟨entry,⟨item,hi,hv,he⟩,hpath⟩
    obtain ⟨htype,hexcluded,hmapped,hreadable⟩ := exists_file_visit_iff.mp ⟨entry,he,hpath⟩
    exact ⟨item,hi,hv,htype,hexcluded,hmapped,hreadable.size_le⟩
  · rintro ⟨item,hi,hv,htype,hexcluded,hmapped,hsize⟩
    -- without faults a file of an allowed size can be read
    have hreadable : FileReadable ext context {} item (relativePathOf item.components) path :=
      ⟨rfl,hsize,Or.inr ⟨fun _ => rfl,fun _ => rfl⟩⟩
    obtain ⟨entry,he,hpath⟩ := (@exists_file_visit_iff ext oracle context {} item path).mpr
      ⟨htype,hexcluded,hmapped,hreadable⟩
    exact ⟨entry,⟨item,hi,hv,he⟩,hpath⟩

/-- The paths of what a scan reports. -/
def reportedPaths (report : ScanReport) : List Str :=
  report.directories.map LocalDirectoryEntry.remotePath ++
    report.files.map LocalFileEntry.remotePath

/-- A reported path is that of a visited entry, of the one type or the other. -/
theorem mem_reportedPaths (h : path ∈ reportedPaths (scanReport ext oracle context {} tree)) :
    ∃ item ∈ tree.items, isVisited ext context {} item.components = true ∧
      remotePathForRelative context.root.canonicalRemotePath
        (relativePathOf item.components) = .ok path := by
  rcases List.mem_append.mp h with h | h
  · obtain ⟨item,hi,hv,_,_,hpath⟩ := mem_directoryPaths.mp h
    exact ⟨item,hi,hv,hpath⟩
  · obtain ⟨entry,he,rfl⟩ := List.mem_map.mp h
    obtain ⟨item,hi,hv,hevent⟩ := mem_scanReport_files.mp he
    exact ⟨item,hi,hv,(fileEntry_spec (handleWalkEntry_file hevent).2.2).remotePath⟩

/-- The directories between the root and a reported path are reported. -/
theorem reportedPaths_closed
    (hmaps : ∀ item ∈ tree.items, MapsBelow context.root.canonicalRemotePath item.components)
    (h : path ∈ reportedPaths (scanReport ext oracle context {} tree)) :
    Beneath slash context.root.canonicalRemotePath path ∧
      ∀ m, Beneath slash context.root.canonicalRemotePath m → Beneath slash m path →
        m ∈ (scanReport ext oracle context {} tree).directories.map
          LocalDirectoryEntry.remotePath := by
  obtain ⟨item,hi,hv,hpath⟩ := mem_reportedPaths h
  clear h
  generalize hn : item.components.length = n
  induction n generalizing item path with
  | zero => exact absurd (List.eq_nil_of_length_eq_zero hn) (tree.names_ne item hi).1
  | succ n ih =>
    obtain ⟨above,segment,hsegment,rfl,habove⟩ := hmaps item hi path hpath
    by_cases htop : item.components.dropLast = []
    · rw [if_pos htop] at habove
      subst habove
      refine ⟨beneath_append _ _,fun m hm hmp => ?_⟩
      have hcovers := (beneath_snoc_iff hsegment.slash_notMem).mp hmp
      exact absurd (hm.trans_covers hcovers).length_lt (Nat.lt_irrefl _)
    · rw [if_neg htop] at habove
      obtain ⟨parent,hp,hcomponents,htype⟩ := tree.closed item hi htop
      obtain ⟨hvisited,hexcluded⟩ := visited_parent hv htop
      rw [← hcomponents] at hvisited hexcluded habove
      have hdirectory : above ∈ (scanReport ext oracle context {} tree).directories.map
          LocalDirectoryEntry.remotePath :=
        mem_directoryPaths.mpr ⟨parent,hp,hvisited,htype,hexcluded,habove⟩
      obtain ⟨hbelow,hbetween⟩ := ih parent hp hvisited habove
        (by rw [hcomponents,List.length_dropLast,hn]; rfl)
      refine ⟨hbelow.trans (beneath_append _ _),fun m hm hmp => ?_⟩
      rcases (beneath_snoc_iff hsegment.slash_notMem).mp hmp with rfl | hma
      · exact hdirectory
      · exact hbetween m hm hma

/-- The remote path of a reported entry. -/
def ScanEvent.remotePath? : ScanEvent → Option Str
  | .file entry => some entry.remotePath
  | .directory entry => some entry.remotePath
  | _ => none

variable (ext oracle context) in
/-- The remote path a scan without faults reports for an item. -/
def reportedPath? (item : LocalItem) : Option Str :=
  if isVisited ext context {} item.components then
    (handleWalkEntry ext oracle context {} item).bind ScanEvent.remotePath?
  else none

theorem reportedPath?_maps {item : LocalItem}
    (h : reportedPath? ext oracle context item = some path) :
    remotePathForRelative context.root.canonicalRemotePath (relativePathOf item.components) =
      .ok path := by
  unfold reportedPath? at h
  split at h
  · obtain ⟨event,hevent,hpath⟩ := Option.bind_eq_some_iff.mp h
    cases event with
    | file entry =>
      cases hpath
      exact (fileEntry_spec (handleWalkEntry_file hevent).2.2).remotePath
    | directory entry =>
      cases hpath
      exact (directoryEntry_remotePath (handleWalkEntry_directory hevent).2.2).1
    | skipped _ => cases hpath
    | failed _ => cases hpath
  · cases h

theorem filterMap_walkEvents (items : List LocalItem) :
    (walkEvents ext oracle context {} items).filterMap ScanEvent.remotePath? =
      items.filterMap (reportedPath? ext oracle context) := by
  have hitem : ∀ item, (visitEvents ext oracle context {} item).filterMap ScanEvent.remotePath? =
      (reportedPath? ext oracle context item).toList := by
    intro item
    have hfailed : ∀ failed : List FailedScanItem,
        (failed.map ScanEvent.failed).filterMap ScanEvent.remotePath? = [] := by
      intro failed
      rw [List.filterMap_map]
      exact List.filterMap_eq_nil_iff.mpr fun _ _ => rfl
    unfold visitEvents reportedPath?
    rw [List.filterMap_append,hfailed,List.append_nil]
    split
    · cases handleWalkEntry ext oracle context {} item with
      | none => rfl
      | some event => cases event <;> rfl
    · rfl
  have hlisting : walkEvents ext oracle context {} items =
      items.flatMap (visitEvents ext oracle context {}) := rfl
  rw [hlisting,List.filterMap_flatMap,List.filterMap_eq_flatMap_toList]
  simp only [hitem]

theorem perm_paths (events : List ScanEvent) :
    ((events.filterMap ScanEvent.directory?).map LocalDirectoryEntry.remotePath ++
      (events.filterMap ScanEvent.file?).map LocalFileEntry.remotePath).Perm
        (events.filterMap ScanEvent.remotePath?) := by
  induction events with
  | nil => rfl
  | cons event events ih =>
    cases event with
    | directory entry => exact ih.cons entry.remotePath
    | file entry => exact List.perm_middle.trans (ih.cons entry.remotePath)
    | skipped _ => exact ih
    | failed _ => exact ih

theorem reportedPaths_perm : (reportedPaths (scanReport ext oracle context {} tree)).Perm
    (tree.items.filterMap (reportedPath? ext oracle context)) := by
  rw [← filterMap_walkEvents,reportedPaths,scanReport,foldl_push_eq]
  refine List.Perm.trans ?_ (perm_paths _)
  exact ((sortByKey_perm _ _).map _).append ((sortByKey_perm _ _).map _)

/-- Where no two items map to one path, whatever the case of its letters, nor do the entries. -/
theorem reportedKeys_nodup
    (hdistinct : ∀ a ∈ tree.items, ∀ b ∈ tree.items, ∀ p q,
      remotePathForRelative context.root.canonicalRemotePath (relativePathOf a.components) = .ok p →
      remotePathForRelative context.root.canonicalRemotePath (relativePathOf b.components) = .ok q →
      ext.toLowercase p = ext.toLowercase q → a = b) :
    ((reportedPaths (scanReport ext oracle context {} tree)).map ext.toLowercase).Nodup := by
  rw [(reportedPaths_perm.map _).nodup_iff,List.Nodup,List.pairwise_map,List.pairwise_filterMap]
  refine (List.Nodup.of_map _ tree.nodup).imp_of_mem ?_
  intro a b ha hb hne p hp q hq he
  exact hne (hdistinct a ha b hb p q (reportedPath?_maps hp) (reportedPath?_maps hq) he)

end Reported

section Collisions

/-- Entries with keys of their own do not collide. -/
theorem firstCollision_of_nodup {entries seen : List (Str × Str)}
    (h : (entries.map Prod.fst ++ seen.map Prod.fst).Nodup) : firstCollision seen entries = none := by
  induction entries generalizing seen with
  | nil => rfl
  | cons entry entries ih =>
    have hnew : entry.1 ∉ seen.map Prod.fst := by
      rw [List.map_cons,List.cons_append,List.nodup_cons] at h
      exact fun hm => h.1 (List.mem_append_right _ hm)
    have hlookup : seen.lookup entry.1 = none := by
      rw [List.lookup_eq_none_iff]
      intro other ho
      have hne : entry.1 ≠ other.1 := fun he => hnew (by rw [he]; exact List.mem_map_of_mem ho)
      simpa using hne
    unfold firstCollision
    rw [hlookup]
    exact ih (by simpa using List.perm_middle.nodup_iff.mpr h)

theorem localRemoteCollision_of_nodup {ext : Externals} {directories : List LocalDirectoryEntry}
    {files : List LocalFileEntry}
    (hd : ∀ d ∈ directories, d.normalizedRemotePath = ext.toLowercase d.remotePath)
    (hf : ∀ f ∈ files, f.normalizedRemotePath = ext.toLowercase f.remotePath)
    (h : ((directories.map LocalDirectoryEntry.remotePath ++
      files.map LocalFileEntry.remotePath).map ext.toLowercase).Nodup) :
    localRemoteCollision directories files = none := by
  unfold localRemoteCollision
  rw [firstCollision_of_nodup ?_]
  · rfl
  · rw [List.map_nil,List.append_nil,List.map_append,List.map_map,List.map_map]
    rw [List.map_append,List.map_map,List.map_map] at h
    have hdirectories : directories.map
        (Prod.fst ∘ fun d => (d.normalizedRemotePath,d.relativePath)) =
          directories.map (ext.toLowercase ∘ LocalDirectoryEntry.remotePath) :=
      List.map_congr_left hd
    have hfiles : files.map (Prod.fst ∘ fun f => (f.normalizedRemotePath,f.relativePath)) =
        files.map (ext.toLowercase ∘ LocalFileEntry.remotePath) := List.map_congr_left hf
    rw [hdirectories,hfiles]
    exact h

end Collisions

/-- The local directory of a root. -/
def ManagedRoot.directory (root : ManagedRoot) : LocalPath := pathComponents root.config.localPath

/-- What of a file can be uploaded. -/
def LocalTree.contentOf (disk : LocalTree) (path : LocalPath) : Str := (disk.read path).getD []

/-- A root whose remote tree can become the mirror of its local one: its rules compile, its names map
one segment at a time and apart from each other, its files are uploaded as they are, and nothing
remote is of another type or badly named. -/
structure Mirrorable (ext : Externals) (options : ScanOptions) (disk : LocalTree)
    (start : RemoteDisk) (root : ManagedRoot) : Prop where
  scans : ∀ previousStates, ∃ context, scanContext ext options
    (SyncEngine.scanRootOf root.config root.canonical) previousStates = .ok context
  maps : ∀ item ∈ (disk.below root.directory).items, MapsBelow root.canonical item.components
  distinct : ∀ a ∈ (disk.below root.directory).items, ∀ b ∈ (disk.below root.directory).items,
    ∀ p q, remotePathForRelative root.canonical (relativePathOf a.components) = .ok p →
      remotePathForRelative root.canonical (relativePathOf b.components) = .ok q →
        ext.toLowercase p = ext.toLowercase q → a = b
  unstaged : ∀ item ∈ (disk.below root.directory).items, item.fileType = .file →
    isSqliteCandidate item.components = false
  rootFree : start.resources.holds root.canonical .file = false
  directoriesFree : ∀ item ∈ (disk.below root.directory).items, item.fileType = .dir →
    ∀ path, remotePathForRelative root.canonical (relativePathOf item.components) = .ok path →
      start.resources.holds path .file = false
  filesFree : ∀ item ∈ (disk.below root.directory).items, item.fileType = .file →
    ∀ path, remotePathForRelative root.canonical (relativePathOf item.components) = .ok path →
      start.resources.holds path .directory = false
  closed : ∀ q ∈ start.resources, ∀ m, SepPath.Covers slash root.canonical m → Beneath slash m q →
    start.isDirectory m = true
  named : ∀ q ∈ start.resources, ∀ relativePath, q = root.canonical ++ slash :: relativePath →
    (∀ segment ∈ relativePath.splitOn slash, segment ≠ []) ∧
      hasPhantomDiskSegment relativePath = false

/-- A sync of a root of the disk, from a remote that agrees with `start` below the root. -/
structure SyncOf (ext : Externals) (options : ScanOptions) (disk : LocalTree) (start : RemoteDisk)
    (sync : StaticSync) : Prop where
  externals : sync.ext = ext
  isDir : sync.isDir = disk.isDir
  read : sync.read = disk.contentOf
  scanned : ∃ oracle previousStates, scanRoot ext oracle {} options
    (SyncEngine.scanRootOf sync.root.config sync.root.canonical) previousStates
      (disk.below sync.root.directory) = .ok sync.report
  agrees : ∀ q, SepPath.Covers slash sync.root.canonical q →
    RemoteDisk.SameAt start sync.remote.disk q
  sources : ∀ file ∈ sync.report.files,
    disk.read file.uploadSource = some (disk.contentOf file.uploadSource)

section Sync

variable {ext : Externals} {options : ScanOptions} {disk : LocalTree} {start remote : RemoteDisk}
  {root : ManagedRoot} {report : ScanReport} {oracle : ScanOracle}
  {previousStates : List FileStateRecord}

/-- The rows of earlier runs are all that two scans of one root may differ in. -/
theorem scanContext_rows {scanRoot' : ScanRoot} {context context' : ScanContext}
    {previousStates' : List FileStateRecord}
    (h : scanContext ext options scanRoot' previousStates = .ok context)
    (h' : scanContext ext options scanRoot' previousStates' = .ok context') :
    context' = { context with previousStates := previousStateMap previousStates' } := by
  obtain ⟨hpattern,habsolute,hoptions,hroot,hrows⟩ := scanContext_spec h
  obtain ⟨hpattern',habsolute',hoptions',hroot',hrows'⟩ := scanContext_spec h'
  have hp := Except.ok.inj (hpattern.symm.trans hpattern')
  have ha := Except.ok.inj (habsolute.symm.trans habsolute')
  cases context
  cases context'
  simp_all

theorem scanRoot_eq {options : ScanOptions} {scanRoot' : ScanRoot} {tree : LocalTree}
    (h : scanRoot ext oracle {} options scanRoot' previousStates tree = .ok report) :
    ∃ context, scanContext ext options scanRoot' previousStates = .ok context ∧
      context.root = scanRoot' ∧ report = scanReport ext oracle context {} tree := by
  unfold scanRoot at h
  cases hcontext : scanContext ext options scanRoot' previousStates with
  | error error =>
    rw [hcontext] at h
    cases h
  | ok context =>
    rw [hcontext] at h
    cases h
    exact ⟨context,rfl,(scanContext_spec hcontext).2.2.2.1,rfl⟩

/-- A file that is not staged is uploaded from where it lies. -/
theorem read_uploadSource {context : ScanContext} {directory : LocalPath}
    (hroot : context.root.localPath = directory)
    (hunstaged : ∀ item ∈ (disk.below directory).items, item.fileType = .file →
      isSqliteCandidate item.components = false) {file : LocalFileEntry}
    (hf : file ∈ (scanReport ext oracle context {} (disk.below directory)).files) :
    disk.read file.uploadSource = some (disk.contentOf file.uploadSource) := by
  obtain ⟨item,hi,_,hevent⟩ := mem_scanReport_files.mp hf
  obtain ⟨htype,_,hentry⟩ := handleWalkEntry_file hevent
  have hspec := fileEntry_spec hentry
  have hsource : file.uploadSource = file.localPath := by
    cases hreused : file.fingerprint.reusedFromState with
    | true => exact (hspec.reused hreused).2
    | false => rw [(hspec.fresh hreused).2,hspec.staging (hunstaged item hi htype)]; rfl
  obtain ⟨whole,hw,hb⟩ := List.mem_filterMap.mp hi
  obtain ⟨rest,_,hc,rfl⟩ := LocalTree.belowItem_eq_some.mp hb
  have hitem := FaultIsolation.item?_of_mem hw
  rw [hc] at hitem
  have hread : disk.read file.uploadSource = some whole.content := by
    rw [hsource,hspec.localPath,hroot,LocalTree.read,hitem,Option.bind_some,if_pos htype]
  rw [LocalTree.contentOf,hread]
  rfl

theorem holds_of_sameAt {path : Str} (h : RemoteDisk.SameAt start remote path)
    (resourceType : ResourceType) :
    remote.resources.holds path resourceType = start.resources.holds path resourceType := by
  unfold Inventory.holds
  rw [h.1]

/-- The remote tree below a root is as good as the one it agrees with. -/
theorem Mirrorable.remoteTree (h : Mirrorable ext options disk start root) (hkeyed : remote.Keyed)
    (hagrees : ∀ q, SepPath.Covers slash root.canonical q → RemoteDisk.SameAt start remote q) :
    ∃ tree : RemoteTree root, tree.disk = remote := by
  have hmem : ∀ q, SepPath.Covers slash root.canonical q → q ∈ remote.resources →
      q ∈ start.resources := by
    intro q hq hm
    rw [Std.TreeMap.mem_iff_isSome_getElem?] at hm ⊢
    rwa [(hagrees q hq).1] at hm
  refine ⟨⟨remote,hkeyed,fun q hq m hm hmq => ?_,fun q hq relativePath he => ?_⟩,rfl⟩
  · have hdir := h.closed q (hmem q (hm.trans hmq.covers) hq) m hm hmq
    unfold RemoteDisk.isDirectory at hdir ⊢
    rwa [(hagrees m hm).1]
  · exact h.named q (hmem q (he ▸ (beneath_append _ _).covers) hq) relativePath he

/-- The scan of a root and the remote it is listed from make a static sync. -/
theorem Mirrorable.exists_sync (h : Mirrorable ext options disk start root)
    (hkeyed : remote.Keyed)
    (hagrees : ∀ q, SepPath.Covers slash root.canonical q → RemoteDisk.SameAt start remote q)
    (hscan : scanRoot ext oracle {} options (SyncEngine.scanRootOf root.config root.canonical)
      previousStates (disk.below root.directory) = .ok report) :
    ∃ sync : StaticSync, sync.root = root ∧ sync.report = report ∧ sync.remote.disk = remote ∧
      SyncOf ext options disk start sync := by
  obtain ⟨context,_,hcontext,rfl⟩ := scanRoot_eq hscan
  have hcanonical : context.root.canonicalRemotePath = root.canonical := by rw [hcontext]; rfl
  have hdirectory : context.root.localPath = root.directory := by rw [hcontext]; rfl
  have hpresent := FaultIsolation.scanned_present hscan
  obtain ⟨tree,htree⟩ := h.remoteTree hkeyed hagrees
  have hmaps : ∀ item ∈ (disk.below root.directory).items,
      MapsBelow context.root.canonicalRemotePath item.components := hcanonical.symm ▸ h.maps
  have hclosed := fun path => @reportedPaths_closed ext oracle context _ path hmaps
  have hdistinct : (reportedPaths (scanReport ext oracle context {}
      (disk.below root.directory))).Nodup := by
    refine List.Nodup.of_map _ (@reportedKeys_nodup ext oracle context _ ?_)
    rw [hcanonical]
    exact h.distinct
  have hfree : ∀ path, SepPath.Covers slash root.canonical path → ∀ resourceType,
      start.resources.holds path resourceType = false →
        tree.disk.resources.holds path resourceType = false := by
    intro path hc resourceType hno
    rw [htree,holds_of_sameAt (hagrees path hc)]
    exact hno
  have hcovers : ∀ path ∈ reportedPaths (scanReport ext oracle context {}
      (disk.below root.directory)), SepPath.Covers slash root.canonical path := fun path hp =>
    (hcanonical ▸ (hclosed path hp).1).covers
  refine ⟨{
    root, ext, remote := tree
    report := scanReport ext oracle context {} (disk.below root.directory)
    isDir := disk.isDir
    read := disk.contentOf
    stays := hpresent.1
    distinct := hdistinct
    below := fun path hp => hcanonical ▸ (hclosed path hp).1
    closed := fun path hp m hm hmp =>
      List.mem_append_left _ ((hclosed path hp).2 m (hcanonical ▸ hm) hmp)
    directoriesFree := fun path hp => ?_
    filesFree := fun path hp => ?_ },rfl,rfl,htree,⟨rfl,rfl,rfl,⟨oracle,previousStates,hscan⟩,?_,?_⟩⟩
  · rcases List.mem_cons.mp hp with rfl | hp
    · exact hfree _ (SepPath.Covers.refl _) _ h.rootFree
    · obtain ⟨item,hi,_,htype,_,hpath⟩ := mem_directoryPaths.mp hp
      exact hfree path (hcovers path (List.mem_append_left _ hp)) _
        (h.directoriesFree item hi htype path (hcanonical ▸ hpath))
  · obtain ⟨entry,he,hpath⟩ := List.mem_map.mp hp
    obtain ⟨item,hi,_,hevent⟩ := mem_scanReport_files.mp he
    obtain ⟨htype,_,hentry⟩ := handleWalkEntry_file hevent
    have hmapped := (fileEntry_spec hentry).remotePath
    rw [hpath] at hmapped
    exact hfree path (hcovers path (List.mem_append_right _ hp)) _
      (h.filesFree item hi htype path (hcanonical ▸ hmapped))
  · intro q hq
    rw [htree]
    exact hagrees q hq
  · exact fun file hf => read_uploadSource hdirectory h.unstaged hf

/-- The plan of a static sync finds no collision. -/
theorem Mirrorable.no_collision (h : Mirrorable ext options disk start root)
    (hscan : scanRoot ext oracle {} options (SyncEngine.scanRootOf root.config root.canonical)
      previousStates (disk.below root.directory) = .ok report) :
    localRemoteCollision (sortByKey LiveScanPlan.directoryKey report.directories) report.files =
      none := by
  obtain ⟨context,_,hcontext,rfl⟩ := scanRoot_eq hscan
  have hcanonical : context.root.canonicalRemotePath = root.canonical := by rw [hcontext]; rfl
  refine @localRemoteCollision_of_nodup ext _ _ (fun d hd => ?_) (fun f hf => ?_) ?_
  · obtain ⟨item,_,_,hevent⟩ := mem_scanReport_directories.mp (mem_sortByKey.mp hd)
    exact (directoryEntry_remotePath (handleWalkEntry_directory hevent).2.2).2.2.2.2
  · obtain ⟨item,_,_,hevent⟩ := mem_scanReport_files.mp hf
    exact (fileEntry_spec (handleWalkEntry_file hevent).2.2).normalized
  · have hkeys := @reportedKeys_nodup ext oracle context (disk.below root.directory)
      (by rw [hcanonical]; exact h.distinct)
    refine (List.Perm.nodup_iff ?_).mpr hkeys
    exact (((sortByKey_perm _ _).map _).append_right _).map _

variable {sync sync' : StaticSync} {start' : RemoteDisk} {path : Str}

/-- What a sync of the disk reports, by the items it stands for. -/
theorem SyncOf.directory_iff (h : SyncOf ext options disk start sync) : ∃ context,
    (∃ previousStates, scanContext ext options (SyncEngine.scanRootOf sync.root.config
      sync.root.canonical) previousStates = .ok context) ∧
    (∀ path, path ∈ sync.directoryPaths ↔ ∃ item ∈ (disk.below sync.root.directory).items,
      isVisited ext context {} item.components = true ∧ item.fileType = .dir ∧
        excludedBy ext context item.components true = none ∧
          remotePathForRelative sync.root.canonical (relativePathOf item.components) = .ok path) ∧
    ∀ path, path ∈ sync.filePaths ↔ ∃ item ∈ (disk.below sync.root.directory).items,
      isVisited ext context {} item.components = true ∧ item.fileType = .file ∧
        excludedBy ext context item.components false = none ∧
          remotePathForRelative sync.root.canonical (relativePathOf item.components) = .ok path ∧
            item.sizeBytes ≤ context.options.maxFileSizeBytes := by
  obtain ⟨oracle,previousStates,hscan⟩ := h.scanned
  obtain ⟨context,hcontext,hroot,hreport⟩ := scanRoot_eq hscan
  have hcanonical : context.root.canonicalRemotePath = sync.root.canonical := by rw [hroot]; rfl
  refine ⟨context,⟨previousStates,hcontext⟩,fun path => ?_,fun path => ?_⟩
  · rw [StaticSync.directoryPaths,hreport,mem_directoryPaths,hcanonical]
  · rw [StaticSync.filePaths,hreport,mem_filePaths,hcanonical]

/-- Two syncs of one root report the same paths, whatever the rows and digests they went by. -/
theorem SyncOf.same_paths (h : SyncOf ext options disk start sync)
    (h' : SyncOf ext options disk start' sync') (hroot : sync'.root = sync.root) :
    (∀ path, path ∈ sync'.directoryPaths ↔ path ∈ sync.directoryPaths) ∧
      ∀ path, path ∈ sync'.filePaths ↔ path ∈ sync.filePaths := by
  obtain ⟨context,⟨rows,hcontext⟩,hdirectories,hfiles⟩ := h.directory_iff
  obtain ⟨context',⟨rows',hcontext'⟩,hdirectories',hfiles'⟩ := h'.directory_iff
  rw [hroot] at hcontext' hdirectories' hfiles'
  obtain rfl := scanContext_rows hcontext hcontext'
  exact ⟨fun path => (hdirectories' path).trans (hdirectories path).symm,
    fun path => (hfiles' path).trans (hfiles path).symm⟩

theorem SyncOf.live_iff (h : SyncOf ext options disk start sync)
    (h' : SyncOf ext options disk start' sync') (hroot : sync'.root = sync.root) :
    sync'.Live path ↔ sync.Live path := by
  obtain ⟨hdirectories,hfiles⟩ := h.same_paths h' hroot
  unfold StaticSync.Live
  rw [hroot,hdirectories path,hfiles path]

/-- What lies between the root and a reported path is a reported directory. -/
theorem SyncOf.parent_directory (h : SyncOf ext options disk start sync)
    (hm : Mirrorable ext options disk start sync.root) (hlive : sync.Live path) {m : Str}
    (hb : Beneath slash sync.root.canonical m) (hmp : Beneath slash m path) :
    m ∈ sync.directoryPaths := by
  obtain ⟨oracle,previousStates,hscan⟩ := h.scanned
  obtain ⟨context,_,hroot,hreport⟩ := scanRoot_eq hscan
  have hcanonical : context.root.canonicalRemotePath = sync.root.canonical := by rw [hroot]; rfl
  have hreported : path ∈ reportedPaths sync.report := by
    rcases hlive with rfl | hp | hp
    · exact absurd (hb.trans hmp).length_lt (Nat.lt_irrefl _)
    · exact List.mem_append_left _ hp
    · exact List.mem_append_right _ hp
  rw [hreport] at hreported
  rw [StaticSync.directoryPaths,hreport]
  exact (reportedPaths_closed (hcanonical.symm ▸ hm.maps) hreported).2 m (hcanonical ▸ hb) hmp

end Sync

end YaDiskSync
