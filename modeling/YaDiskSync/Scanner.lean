import YaDiskSync.Exclusions
import YaDiskSync.StateRecords
import YaDiskSync.Config

/-! The scanner. A local tree is the list of its items below the root; a fault pattern says
which reads of which items fail during one scan. Every item is handled on its own, so the
report of a parallel walk depends on the items it visits and not on their order. -/
namespace YaDiskSync

inductive LocalFileType
  | file | dir | other
  deriving DecidableEq, Repr

/-- One item of a local tree, named by its components below the root. File offsets are
signed 64-bit numbers, which bounds the length of a file. -/
structure LocalItem where
  components : List Str
  fileType : LocalFileType
  sizeBytes : Nat := 0
  sizeBytes_lt : sizeBytes < 2^63 := by decide
  mtimeNs : Option Int := none
  ctimeNs : Option Int := none
  content : Str := []
  deriving DecidableEq

theorem emptySize_lt : 0 < 2^63 := by decide

theorem byteSize_lt : 1 < 2^63 := by decide

theorem wordSize_lt : 4 < 2^63 := by decide

/-- The items below a root: named once, each inside a directory of the tree. -/
structure LocalTree where
  items : List LocalItem
  names_ne : ∀ item ∈ items, item.components ≠ [] ∧
    ∀ name ∈ item.components, name ≠ [] ∧ slash ∉ name
  nodup : (items.map LocalItem.components).Nodup
  closed : ∀ item ∈ items, item.components.dropLast ≠ [] →
    ∃ parent ∈ items, parent.components = item.components.dropLast ∧ parent.fileType = .dir

namespace LocalTree

/-- A root with nothing below it, or no root at all. -/
def empty : LocalTree := ⟨[],by simp,by simp,by simp⟩

variable (tree : LocalTree) (path : LocalPath)

def item? : Option LocalItem := tree.items.find? fun item => item.components == path

/-- `Path::is_dir`; the root of a tree is a directory. -/
def isDir : Bool := path.isEmpty || (tree.item? path).any fun item => item.fileType == .dir

/-- `Path::exists`. -/
def pathExists : Bool := path.isEmpty || (tree.item? path).isSome

/-- `Path::is_file`. -/
def isFile : Bool := (tree.item? path).any fun item => item.fileType == .file

/-- Length and modification time of `fs::metadata`. -/
def fileMetadata : Option (Nat × Option Int) :=
  (tree.item? path).map fun item => (item.sizeBytes,item.mtimeNs)

def belowItem (item : LocalItem) : Option LocalItem :=
  if path <+: item.components ∧ item.components ≠ path then
    some { item with components := item.components.drop path.length }
  else none

variable {tree path}

theorem belowItem_eq_some {item below : LocalItem} : belowItem path item = some below ↔
    ∃ rest, rest ≠ [] ∧ item.components = path ++ rest ∧
      below = { item with components := rest } := by
  unfold belowItem
  constructor
  · intro h
    split at h
    · rename_i hp
      obtain ⟨rest,hrest⟩ := hp.1
      refine ⟨rest,?_,hrest.symm,?_⟩
      · rintro rfl
        exact hp.2 (by simpa using hrest.symm)
      · cases h
        simp [← hrest]
    · cases h
  · rintro ⟨rest,hne,hc,rfl⟩
    rw [if_pos ⟨⟨rest,hc.symm⟩,by rw [hc]; simpa using hne⟩]
    simp [hc]

variable (tree path)

/-- The items below a directory, named from there. -/
def below : LocalTree where
  items := tree.items.filterMap (belowItem path)
  names_ne := by
    intro item hi
    obtain ⟨whole,hw,hb⟩ := List.mem_filterMap.mp hi
    obtain ⟨rest,hne,hc,rfl⟩ := belowItem_eq_some.mp hb
    refine ⟨hne,fun name hn => (tree.names_ne whole hw).2 name ?_⟩
    rw [hc]
    exact List.mem_append_right _ hn
  nodup := by
    refine List.Nodup.of_map (path ++ ·) ?_
    have hmap : ((tree.items.filterMap (belowItem path)).map LocalItem.components).map (path ++ ·) =
        (tree.items.filter fun item => (belowItem path item).isSome).map LocalItem.components := by
      generalize tree.items = items
      induction items with
      | nil => rfl
      | cons item items ih =>
        cases hb : belowItem path item with
        | none => simpa [List.filterMap_cons,List.filter_cons,hb] using ih
        | some below =>
          obtain ⟨rest,_,hc,rfl⟩ := belowItem_eq_some.mp hb
          simpa [List.filterMap_cons,List.filter_cons,hb,hc] using ih
    rw [hmap]
    exact tree.nodup.sublist (List.filter_sublist.map _)
  closed := by
    intro item hi hne
    obtain ⟨whole,hw,hb⟩ := List.mem_filterMap.mp hi
    obtain ⟨rest,hrest,hc,rfl⟩ := belowItem_eq_some.mp hb
    have hdrop : whole.components.dropLast = path ++ rest.dropLast := by
      rw [hc,List.dropLast_append_of_ne_nil hrest]
    have hparent : whole.components.dropLast ≠ [] := by
      rw [hdrop]
      exact fun h => hne (List.append_eq_nil_iff.mp h).2
    obtain ⟨parent,hp,hpc,hpt⟩ := tree.closed whole hw hparent
    refine ⟨{ parent with components := rest.dropLast },?_,rfl,hpt⟩
    exact List.mem_filterMap.mpr
      ⟨parent,hp,belowItem_eq_some.mpr ⟨_,hne,hpc.trans hdrop,rfl⟩⟩

end LocalTree

inductive IoErrorKind
  | notFound | permissionDenied | wouldBlock | other
  deriving DecidableEq, Repr

structure IoError where
  kind : IoErrorKind
  rawOsError : Option Int := none
  text : Str := []
  deriving DecidableEq, Repr

structure SqliteError where
  /-- `SQLITE_BUSY` or `SQLITE_LOCKED` -/
  busyOrLocked : Bool
  text : Str
  deriving DecidableEq, Repr

inductive ScannerError
  | io (path : LocalPath) (source : IoError)
  | exclusion (error : InvalidRule)
  | pathMapping (error : PathMappingError)
  | state (error : StateError)
  | sqliteBackup (path : LocalPath) (source : SqliteError)
  | sqliteBackupTimedOut (path : LocalPath) (elapsedSeconds : Nat)
  deriving DecidableEq, Repr

/-- `Path::display`. -/
def displayPath (path : LocalPath) : Str := slash :: [slash].intercalate path

def ScannerError.message : ScannerError → Str
  | .io path source => "I/O error at ".toList ++ displayPath path ++ ": ".toList ++ source.text
  | .exclusion error => "invalid exclude rules: invalid exclude rule at index ".toList ++
      (toString error.index).toList ++ ": ".toList ++ error.message
  | .pathMapping error => "path mapping error: ".toList ++ error.message
  | .state error => "state error: ".toList ++ error.message
  | .sqliteBackup path source =>
      "SQLite backup error at ".toList ++ displayPath path ++ ": ".toList ++ source.text
  | .sqliteBackupTimedOut path elapsedSeconds => "SQLite backup timed out at ".toList ++
      displayPath path ++ " after ".toList ++ (toString elapsedSeconds).toList ++ "s".toList

/-- What fails while one scan reads the tree; paths are components below the root. -/
structure ScanFaults where
  /-- reading a directory's entries; `[]` is the root -/
  listing : List Str → Option Str := fun _ => none
  /-- obtaining one entry of a directory that is being listed -/
  entry : List Str → Option Str := fun _ => none
  metadata : List Str → Option IoError := fun _ => none
  /-- reading the content to hash it -/
  content : List Str → Option IoError := fun _ => none
  /-- the online backup of a SQLite file -/
  staging : List Str → Option ScannerError := fun _ => none

/-- The names and digests a scan obtains from outside the modelled code. -/
structure ScanOracle where
  sha256 : Str → Str
  md5 : Str → Str
  /-- the backup file of a SQLite source: its generated name and its content -/
  stagingPath : List Str → LocalPath
  stagingContent : List Str → Str

structure ScanOptions where
  globalExcludes : List Str
  absoluteExcludes : List Str
  maxFileSizeBytes : Nat
  fullHashMaxBytes : Nat
  largeFileNameSizeOnlyMinBytes : Nat
  scanConcurrency : Nat
  /-- the text of the path -/
  stagingDir : Str
  deriving DecidableEq, Repr

/-- `Path::components` of a configured absolute path. -/
def pathComponents (path : Str) : LocalPath :=
  (path.splitOn slash).filter fun name => !name.isEmpty && name != ['.']

def ScanOptions.fromConfig (sync : SyncConfig) (globalExcludes absoluteExcludes : List Str)
    (stagingDir : Str) : ScanOptions :=
  { globalExcludes, absoluteExcludes, stagingDir
    maxFileSizeBytes := sync.maxFileSizeBytes
    fullHashMaxBytes := sync.fullHashMaxBytes
    largeFileNameSizeOnlyMinBytes := sync.largeFileNameSizeOnlyMinBytes
    scanConcurrency := sync.scanConcurrency }

structure ScanRoot where
  id : Str
  /-- the text of `local_path` -/
  pathText : Str
  canonicalRemotePath : Str
  excludes : List Str
  deriving DecidableEq, Repr

def ScanRoot.localPath (root : ScanRoot) : LocalPath := pathComponents root.pathText

/-- The text of an entry's path, as the walk joins it to that of the root; a root that ends in a
separator, a drive's backslash too, gets none. -/
def ScanRoot.entryText (root : ScanRoot) (components : List Str) : Str :=
  if root.pathText.getLast?.all isSeparator then
    root.pathText ++ [slash].intercalate components
  else root.pathText ++ slash :: [slash].intercalate components

def remotePathForRelative (canonicalRemotePath relative : Str) : Except PathMappingError Str :=
  sanitizeRemotePath
    (trimEndMatches slash canonicalRemotePath ++ slash :: replaceChar '\\' slash relative)

/-- `relative_path` of an entry below the root. -/
def relativePathOf (components : List Str) : Str :=
  trimMatches slash (replaceChar '\\' slash ([slash].intercalate components))

def isSkippableLocalIoError (error : IoError) : Bool :=
  error.kind == .notFound || error.kind == .permissionDenied || error.kind == .wouldBlock ||
    error.rawOsError == some 32 || error.rawOsError == some 33

def isSkippableScanError : ScannerError → Bool
  | .io _ source => isSkippableLocalIoError source
  | .sqliteBackupTimedOut _ _ => true
  | .sqliteBackup _ source => source.busyOrLocked
  | _ => false

def metadataFingerprintValue (sizeBytes : Nat) (mtimeNs : Option Int) : Str :=
  "size=".toList ++ (toString sizeBytes).toList ++ ";mtime_ns=".toList ++
    (toString (mtimeNs.getD 0)).toList

/-- `Path::extension` of a file name, in ASCII lower case. -/
def lowerExtension (name : Str) : Option Str :=
  match name.reverse.span (· ≠ '.') with
  | (extension,_ :: stem) =>
    if stem.isEmpty then none else some (extension.reverse.map asciiLower)
  | _ => none

def isSqliteCandidate (components : List Str) : Bool :=
  match components.getLast?.bind lowerExtension with
  | some extension => extension == "sqlite".toList || extension == "sqlite3".toList ||
      extension == "db".toList
  | none => false

/-- What every worker of one scan shares. -/
structure ScanContext where
  options : ScanOptions
  root : ScanRoot
  patternMatcher : ExclusionMatcher
  absoluteMatcher : ExclusionMatcher
  /-- `previous_states`, looked up by relative path -/
  previousStates : Str → Option FileStateRecord

variable (ext : Externals) (oracle : ScanOracle) (context : ScanContext) (faults : ScanFaults)

def exclusionDecision (components : List Str) (relative : Str) (isDir : Bool) :
    Option ExclusionDecision :=
  let absolute := context.absoluteMatcher.decisionForPath ext
    (context.root.entryText components) isDir
  if absolute.excluded && absolute.reason == .absolute then some absolute
  else
    let pattern := context.patternMatcher.decisionForPath ext relative isDir
    if pattern.excluded then some pattern else none

def directoryEntry (components : List Str) (relative : Str) :
    Except ScannerError LocalDirectoryEntry :=
  match remotePathForRelative context.root.canonicalRemotePath relative with
  | .error error => .error (.pathMapping error)
  | .ok remotePath => .ok {
      rootId := context.root.id
      localPath := context.root.localPath ++ components
      relativePath := relative
      normalizedRemotePath := ext.toLowercase remotePath
      remotePath }

inductive FileEntryResult
  | file (entry : LocalFileEntry)
  | skipped (item : SkippedScanItem)
  deriving DecidableEq

/-- `fingerprint_path` of the upload source with the given content. -/
def fingerprintPath (source : LocalPath) (content : Str) (readError : Option IoError)
    (sourceSize : Nat) (sourceMtimeNs : Option Int) : Except ScannerError Fingerprint :=
  if sourceSize ≤ context.options.fullHashMaxBytes then
    match readError with
    | some error => .error (.io source error)
    | none => .ok {
        kind := .sha256
        value := oracle.sha256 content
        fullSha256 := some (oracle.sha256 content)
        localMd5 := some (oracle.md5 content)
        reusedFromState := false }
  else .ok {
    kind := .metadata
    value := metadataFingerprintValue sourceSize sourceMtimeNs
    fullSha256 := none, localMd5 := none, reusedFromState := false }

/-- The row of an earlier run that lets a file keep its fingerprint. -/
def reusableState (relative normalizedRemotePath : Str) (sourceSize : Nat)
    (mtimeNs : Option Int) : Option FileStateRecord :=
  (context.previousStates relative).filter fun previous =>
    previous.sizeBytes == asI64 sourceSize && previous.mtimeNs == mtimeNs &&
      previous.normalizedRemotePath == normalizedRemotePath

/-- The backup a SQLite file is uploaded from; other files have none. -/
def sqliteStaging (components : List Str) : Except ScannerError (Option LocalPath) :=
  if isSqliteCandidate components then
    match faults.staging components with
    | some error => .error error
    | none => .ok (some (oracle.stagingPath components))
  else .ok none

def fileEntry (item : LocalItem) (relative : Str) : Except ScannerError FileEntryResult :=
  let path := context.root.localPath ++ item.components
  match faults.metadata item.components with
  | some error => .error (.io path error)
  | none =>
    match remotePathForRelative context.root.canonicalRemotePath relative with
    | .error error => .error (.pathMapping error)
    | .ok remotePath =>
      let normalizedRemotePath := ext.toLowercase remotePath
      if item.sizeBytes > context.options.maxFileSizeBytes then
        .ok (.skipped {
          rootId := context.root.id, localPath := path, relativePath := relative
          remotePath := some remotePath
          reasonCode := "file_too_large".toList
          reasonDetails := some ("file size ".toList ++ (toString item.sizeBytes).toList ++
            " exceeds configured max ".toList ++
            (toString context.options.maxFileSizeBytes).toList)
          sizeBytes := some item.sizeBytes })
      else
        match reusableState context relative normalizedRemotePath item.sizeBytes
            item.mtimeNs with
        | some previous =>
          .ok (.file {
            rootId := context.root.id, localPath := path, relativePath := relative, remotePath
            normalizedRemotePath, uploadSource := path
            sizeBytes := item.sizeBytes, mtimeNs := item.mtimeNs, ctimeNs := item.ctimeNs
            fingerprint := {
              kind := FingerprintKind.fromState previous.fingerprintKind
              value := previous.fingerprintValue.getD []
              fullSha256 := previous.fullSha256
              localMd5 := previous.remoteMd5
              reusedFromState := true }
            sqliteBackupStagingPath := none })
        | none =>
          match sqliteStaging oracle faults item.components with
          | .error error => .error error
          | .ok staging =>
            let content :=
              if staging.isSome then oracle.stagingContent item.components else item.content
            match fingerprintPath oracle context (staging.getD path) content
                (faults.content item.components) item.sizeBytes item.mtimeNs with
            | .error error => .error error
            | .ok fingerprint =>
              .ok (.file {
                rootId := context.root.id, localPath := path, relativePath := relative
                remotePath, normalizedRemotePath, uploadSource := staging.getD path
                sizeBytes := item.sizeBytes, mtimeNs := item.mtimeNs, ctimeNs := item.ctimeNs
                fingerprint, sqliteBackupStagingPath := staging })

/-- Everything the entry of a file is made from can be read, and the file is not too large. -/
structure FileReadable (item : LocalItem) (relative remotePath : Str) : Prop where
  metadata : faults.metadata item.components = none
  size_le : item.sizeBytes ≤ context.options.maxFileSizeBytes
  source : (reusableState context relative (ext.toLowercase remotePath) item.sizeBytes
      item.mtimeNs).isSome = true ∨
    ((isSqliteCandidate item.components = true → faults.staging item.components = none) ∧
      (item.sizeBytes ≤ context.options.fullHashMaxBytes →
        faults.content item.components = none))

/-- What one visit adds to the report. -/
inductive ScanEvent
  | file (entry : LocalFileEntry)
  | directory (entry : LocalDirectoryEntry)
  | skipped (item : SkippedScanItem)
  | failed (item : FailedScanItem)
  deriving DecidableEq

/-- The exclusion that makes the scanner pass an entry over. -/
def excludedBy (components : List Str) (isDir : Bool) : Option ExclusionDecision :=
  (exclusionDecision ext context components (relativePathOf components) isDir).filter
    ExclusionDecision.excluded

/-- `handle_walk_entry` for an entry below the root. -/
def handleWalkEntry (item : LocalItem) : Option ScanEvent :=
  let path := context.root.localPath ++ item.components
  let relative := relativePathOf item.components
  let remotePath := (remotePathForRelative context.root.canonicalRemotePath relative).toOption
  match excludedBy ext context item.components (item.fileType == .dir) with
  | some decision =>
    some (.skipped {
      rootId := context.root.id, localPath := path, relativePath := relative, remotePath
      reasonCode := "excluded".toList
      reasonDetails := some decision.reason.debug
      sizeBytes := none })
  | none =>
    match item.fileType with
    | .dir =>
      match directoryEntry ext context item.components relative with
      | .ok directory => some (.directory directory)
      | .error error => some (.failed {
          rootId := context.root.id, localPath := some path, relativePath := relative
          remotePath := none
          errorKind := "path_mapping".toList
          errorMessage := error.message })
    | .file =>
      match fileEntry ext oracle context faults item relative with
      | .ok (.file file) => some (.file file)
      | .ok (.skipped skipped) => some (.skipped skipped)
      | .error error =>
        if isSkippableScanError error then
          some (.skipped {
            rootId := context.root.id, localPath := path, relativePath := relative, remotePath
            reasonCode := "local_file_unavailable".toList
            reasonDetails := some error.message
            sizeBytes := if (faults.metadata item.components).isSome then none
              else some item.sizeBytes })
        else
          some (.failed {
            rootId := context.root.id, localPath := some path, relativePath := relative
            remotePath
            errorKind := "scan".toList
            errorMessage := error.message })
    | .other => none

/-- The walk lists a directory when its entry was obtained and its visit did not skip it. -/
def descends (components : List Str) : Bool :=
  components.isEmpty ||
    ((faults.entry components).isNone && (excludedBy ext context components true).isNone)

/-- Every directory above an item is listed. -/
def parentsListed (components : List Str) : Bool :=
  components.inits.dropLast.all fun dir =>
    descends ext context faults dir && (faults.listing dir).isNone

def isVisited (components : List Str) : Bool :=
  parentsListed ext context faults components && (faults.entry components).isNone

/-- The item the walker's `Err` callback records. -/
def walkFailure (errorMessage : Str) : FailedScanItem :=
  { rootId := context.root.id, localPath := none, relativePath := [], remotePath := none
    errorKind := "walk".toList, errorMessage }

/-- Errors of the walk at one item: its entry, or the listing of the directory it is. -/
def walkErrors (item : LocalItem) : List FailedScanItem :=
  if !parentsListed ext context faults item.components then []
  else
    match faults.entry item.components with
    | some message => [walkFailure context message]
    | none =>
      if item.fileType == .dir && descends ext context faults item.components then
        (faults.listing item.components).toList.map (walkFailure context)
      else []

def visitEvents (item : LocalItem) : List ScanEvent :=
  (if isVisited ext context faults item.components then
    (handleWalkEntry ext oracle context faults item).toList else []) ++
  (walkErrors ext context faults item).map ScanEvent.failed

/-- All callbacks of a walk over the items in the order given. -/
def walkEvents (items : List LocalItem) : List ScanEvent :=
  (faults.listing []).toList.map (fun message => .failed (walkFailure context message)) ++
    items.flatMap (visitEvents ext oracle context faults)

def ScanReport.push (report : ScanReport) : ScanEvent → ScanReport
  | .file entry => { report with files := report.files ++ [entry] }
  | .directory entry => { report with directories := report.directories ++ [entry] }
  | .skipped item => { report with skipped := report.skipped ++ [item] }
  | .failed item => { report with failed := report.failed ++ [item] }

/-- `previous_state_map`: a later row of one relative path replaces an earlier one. -/
def previousStateMap (previousStates : List FileStateRecord) (relative : Str) :
    Option FileStateRecord :=
  previousStates.reverse.find? fun record => record.relativePath == relative

def scanContext (options : ScanOptions) (root : ScanRoot)
    (previousStates : List FileStateRecord) : Except ScannerError ScanContext := do
  let absoluteExcludes := options.absoluteExcludes ++ [replaceChar '\\' slash options.stagingDir]
  match ExclusionMatcher.new ext options.globalExcludes root.excludes [] with
  | .error error => throw (.exclusion error)
  | .ok patternMatcher =>
    match ExclusionMatcher.new ext [] [] absoluteExcludes with
    | .error error => throw (.exclusion error)
    | .ok absoluteMatcher =>
      return { options, root, patternMatcher, absoluteMatcher
               previousStates := previousStateMap previousStates }

def scanReport (tree : LocalTree) : ScanReport :=
  ((walkEvents ext oracle context faults tree.items).foldl ScanReport.push
    { rootId := context.root.id }).sortDeterministically

def scanRoot (options : ScanOptions) (root : ScanRoot) (previousStates : List FileStateRecord)
    (tree : LocalTree) : Except ScannerError ScanReport := do
  let context ← scanContext ext options root previousStates
  return scanReport ext oracle context faults tree

section Report

variable {ext oracle context faults}

/-- What the workers of a scan share. -/
theorem scanContext_spec {options : ScanOptions} {root : ScanRoot}
    {previousStates : List FileStateRecord}
    (h : scanContext ext options root previousStates = .ok context) :
    ExclusionMatcher.new ext options.globalExcludes root.excludes [] =
        .ok context.patternMatcher ∧
      ExclusionMatcher.new ext [] []
          (options.absoluteExcludes ++ [replaceChar '\\' slash options.stagingDir]) =
        .ok context.absoluteMatcher ∧
      context.options = options ∧ context.root = root ∧
      context.previousStates = previousStateMap previousStates := by
  rw [scanContext] at h
  cases hpattern : ExclusionMatcher.new ext options.globalExcludes root.excludes [] with
  | error error =>
    rw [hpattern] at h
    cases h
  | ok patternMatcher =>
    rw [hpattern] at h
    cases habsolute : ExclusionMatcher.new ext [] []
        (options.absoluteExcludes ++ [replaceChar '\\' slash options.stagingDir]) with
    | error error =>
      rw [habsolute] at h
      cases h
    | ok absoluteMatcher =>
      rw [habsolute] at h
      cases h
      exact ⟨rfl,rfl,rfl,rfl,rfl⟩

theorem directoryEntry_remotePath {components : List Str} {relative : Str}
    {entry : LocalDirectoryEntry} (h : directoryEntry ext context components relative = .ok entry) :
    remotePathForRelative context.root.canonicalRemotePath relative = .ok entry.remotePath ∧
      entry.relativePath = relative ∧ entry.localPath = context.root.localPath ++ components ∧
      entry.rootId = context.root.id ∧
      entry.normalizedRemotePath = ext.toLowercase entry.remotePath := by
  unfold directoryEntry at h
  split at h
  · cases h
  · rename_i hr
    cases h
    exact ⟨hr,rfl,rfl,rfl,rfl⟩

/-- What the entry of a reported file records and where its fingerprint comes from. -/
structure FileEntrySpec (ext : Externals) (oracle : ScanOracle) (context : ScanContext)
    (item : LocalItem) (relative : Str) (entry : LocalFileEntry) : Prop where
  remotePath :
    remotePathForRelative context.root.canonicalRemotePath relative = .ok entry.remotePath
  rootId : entry.rootId = context.root.id
  localPath : entry.localPath = context.root.localPath ++ item.components
  relativePath : entry.relativePath = relative
  normalized : entry.normalizedRemotePath = ext.toLowercase entry.remotePath
  sizeBytes : entry.sizeBytes = item.sizeBytes
  mtimeNs : entry.mtimeNs = item.mtimeNs
  reused : entry.fingerprint.reusedFromState = true → (reusableState context relative
      entry.normalizedRemotePath item.sizeBytes item.mtimeNs).isSome = true ∧
    entry.uploadSource = entry.localPath
  fresh : entry.fingerprint.reusedFromState = false → reusableState context relative
      entry.normalizedRemotePath item.sizeBytes item.mtimeNs = none ∧
    entry.uploadSource = entry.sqliteBackupStagingPath.getD entry.localPath
  staging : isSqliteCandidate item.components = false → entry.sqliteBackupStagingPath = none

theorem fingerprintPath_reused {source : LocalPath} {content : Str} {readError : Option IoError}
    {size : Nat} {mtime : Option Int} {fingerprint : Fingerprint}
    (h : fingerprintPath oracle context source content readError size mtime =
      .ok fingerprint) : fingerprint.reusedFromState = false := by
  unfold fingerprintPath at h
  split at h
  · split at h
    · cases h
    · cases h
      rfl
  · cases h
    rfl

theorem sqliteStaging_isSome {components : List Str} {staging : Option LocalPath}
    (h : sqliteStaging oracle faults components = .ok staging) :
    staging.isSome = isSqliteCandidate components := by
  unfold sqliteStaging at h
  split at h
  · rename_i hs
    split at h
    · cases h
    · cases h
      exact hs.symm
  · rename_i hs
    cases h
    simpa using hs

theorem fileEntry_spec {item : LocalItem} {relative : Str} {entry : LocalFileEntry}
    (h : fileEntry ext oracle context faults item relative = .ok (.file entry)) :
    FileEntrySpec ext oracle context item relative entry := by
  unfold fileEntry at h
  simp only at h
  split at h
  · cases h
  split at h
  · cases h
  rename_i hr
  split at h
  · cases h
  split at h
  · rename_i previous hp
    cases h
    exact ⟨hr,rfl,rfl,rfl,rfl,rfl,rfl,fun _ => ⟨by simp [hp],rfl⟩,fun hf => (nomatch hf),
      fun _ => rfl⟩
  · rename_i hp
    split at h
    · cases h
    rename_i hs
    split at h
    · cases h
    rename_i hf
    cases h
    refine ⟨hr,rfl,rfl,rfl,rfl,rfl,rfl,fun ht => ?_,fun _ => ⟨hp,rfl⟩,fun hno => ?_⟩
    · have hfalse := fingerprintPath_reused hf
      simp only at ht
      rw [ht] at hfalse
      cases hfalse
    · rw [← sqliteStaging_isSome hs] at hno
      exact Option.isNone_iff_eq_none.mp (Option.isSome_eq_false_iff.mp hno)

theorem exists_sqliteStaging_iff {components : List Str} :
    (∃ staging, sqliteStaging oracle faults components = .ok staging) ↔
      (isSqliteCandidate components = true → faults.staging components = none) := by
  unfold sqliteStaging
  split
  · rename_i hs
    cases faults.staging components with
    | none => exact ⟨fun _ _ => rfl,fun _ => ⟨_,rfl⟩⟩
    | some error => exact ⟨fun ⟨_,h⟩ => (nomatch h),fun h => (nomatch h hs)⟩
  · rename_i hs
    exact ⟨fun _ h => absurd h hs,fun _ => ⟨_,rfl⟩⟩

theorem exists_fingerprintPath_iff {source : LocalPath} {content : Str}
    {readError : Option IoError} {size : Nat} {mtime : Option Int} :
    (∃ fingerprint, fingerprintPath oracle context source content readError size mtime =
      .ok fingerprint) ↔ (size ≤ context.options.fullHashMaxBytes → readError = none) := by
  unfold fingerprintPath
  split
  · rename_i hs
    cases readError with
    | none => exact ⟨fun _ _ => rfl,fun _ => ⟨_,rfl⟩⟩
    | some error => exact ⟨fun ⟨_,h⟩ => (nomatch h),fun h => (nomatch h hs)⟩
  · rename_i hs
    exact ⟨fun _ h => absurd h hs,fun _ => ⟨_,rfl⟩⟩

/-- A file is reported exactly when its path can be mapped and everything it needs read. -/
theorem exists_fileEntry_iff {item : LocalItem} {relative remotePath : Str} :
    (∃ entry, fileEntry ext oracle context faults item relative = .ok (.file entry) ∧
      entry.remotePath = remotePath) ↔
      remotePathForRelative context.root.canonicalRemotePath relative = .ok remotePath ∧
        FileReadable ext context faults item relative remotePath := by
  constructor
  · rintro ⟨entry,h,rfl⟩
    have hr := (fileEntry_spec h).remotePath
    refine ⟨hr,?_⟩
    unfold fileEntry at h
    simp only [hr] at h
    split at h
    · cases h
    rename_i hm
    split at h
    · cases h
    rename_i hsize
    refine ⟨hm,Nat.le_of_not_lt hsize,?_⟩
    split at h
    · rename_i hp
      exact Or.inl (by simp [hp])
    split at h
    · cases h
    rename_i hs
    split at h
    · cases h
    rename_i hf
    exact Or.inr ⟨exists_sqliteStaging_iff.mp ⟨_,hs⟩,exists_fingerprintPath_iff.mp ⟨_,hf⟩⟩
  · rintro ⟨hr,hread⟩
    unfold fileEntry
    simp only [hr,hread.metadata,if_neg (Nat.not_lt.mpr hread.size_le)]
    cases hp : reusableState context relative (ext.toLowercase remotePath) item.sizeBytes
        item.mtimeNs with
    | some previous => exact ⟨_,rfl,rfl⟩
    | none =>
      obtain ⟨hs,hc⟩ := hread.source.resolve_left (by simp [hp])
      obtain ⟨staging,hs⟩ : ∃ staging, sqliteStaging oracle faults item.components =
          .ok staging := exists_sqliteStaging_iff.mpr hs
      obtain ⟨fingerprint,hf⟩ : ∃ fingerprint, fingerprintPath oracle context
          (staging.getD (context.root.localPath ++ item.components))
          (if staging.isSome then oracle.stagingContent item.components else item.content)
          (faults.content item.components) item.sizeBytes item.mtimeNs = .ok fingerprint :=
        exists_fingerprintPath_iff.mpr hc
      simp only [hs,hf]
      exact ⟨_,rfl,rfl⟩

theorem foldl_push (events : List ScanEvent) (report : ScanReport) :
    let result := events.foldl ScanReport.push report
    (∀ entry, entry ∈ result.files ↔ entry ∈ report.files ∨ .file entry ∈ events) ∧
    (∀ entry, entry ∈ result.directories ↔
      entry ∈ report.directories ∨ .directory entry ∈ events) ∧
    (∀ item, item ∈ result.skipped ↔ item ∈ report.skipped ∨ .skipped item ∈ events) ∧
    (∀ item, item ∈ result.failed ↔ item ∈ report.failed ∨ .failed item ∈ events) := by
  induction events generalizing report with
  | nil => simp
  | cons event events ih =>
    have h := ih (report.push event)
    cases event <;>
      simpa [ScanReport.push,or_assoc,eq_comm] using h

theorem mem_walkEvents_of_visit {items : List LocalItem} {event : ScanEvent}
    (hne : ∀ item, event ≠ .failed item) :
    event ∈ walkEvents ext oracle context faults items ↔
      ∃ item ∈ items, isVisited ext context faults item.components = true ∧
        handleWalkEntry ext oracle context faults item = some event := by
  have hr : ∀ xs : List FailedScanItem, event ∉ xs.map ScanEvent.failed := by
    intro xs hm
    obtain ⟨item,_,he⟩ := List.mem_map.mp hm
    exact hne item he.symm
  have hl : event ∉ (faults.listing []).toList.map
      (fun message => ScanEvent.failed (walkFailure context message)) := by
    intro hm
    obtain ⟨message,_,he⟩ := List.mem_map.mp hm
    exact hne _ he.symm
  simp only [walkEvents,List.mem_append,hl,false_or,List.mem_flatMap,visitEvents,hr,or_false]
  apply exists_congr
  intro item
  apply and_congr Iff.rfl
  split
  · rename_i hv
    simp [hv]
  · rename_i hv
    simp [hv]

theorem mem_scanReport_files {tree : LocalTree} {entry : LocalFileEntry} :
    entry ∈ (scanReport ext oracle context faults tree).files ↔
      ∃ item ∈ tree.items, isVisited ext context faults item.components = true ∧
        handleWalkEntry ext oracle context faults item = some (.file entry) := by
  rw [← mem_walkEvents_of_visit (by simp)]
  simp only [scanReport,ScanReport.sortDeterministically,mem_sortByKey]
  have h := (foldl_push (walkEvents ext oracle context faults tree.items)
    { rootId := context.root.id }).1 entry
  simpa using h

theorem mem_scanReport_directories {tree : LocalTree} {entry : LocalDirectoryEntry} :
    entry ∈ (scanReport ext oracle context faults tree).directories ↔
      ∃ item ∈ tree.items, isVisited ext context faults item.components = true ∧
        handleWalkEntry ext oracle context faults item = some (.directory entry) := by
  rw [← mem_walkEvents_of_visit (by simp)]
  simp only [scanReport,ScanReport.sortDeterministically,mem_sortByKey]
  have h := (foldl_push (walkEvents ext oracle context faults tree.items)
    { rootId := context.root.id }).2.1 entry
  simpa using h

/-- The entry of a reported directory. -/
theorem handleWalkEntry_directory {item : LocalItem} {entry : LocalDirectoryEntry}
    (h : handleWalkEntry ext oracle context faults item = some (.directory entry)) :
    item.fileType = .dir ∧ excludedBy ext context item.components true = none ∧
      directoryEntry ext context item.components (relativePathOf item.components) =
        .ok entry := by
  unfold handleWalkEntry at h
  simp only at h
  split at h
  · simp at h
  · rename_i hx
    split at h
    · rename_i hd
      rw [hd] at hx
      split at h
      · rename_i he
        simp only [Option.some.injEq,ScanEvent.directory.injEq] at h
        exact ⟨hd,hx,h ▸ he⟩
      · simp at h
    · split at h
      · simp at h
      · simp at h
      · split at h <;> simp at h
    · simp at h

/-- The entry of a reported file. -/
theorem handleWalkEntry_file {item : LocalItem} {entry : LocalFileEntry}
    (h : handleWalkEntry ext oracle context faults item = some (.file entry)) :
    item.fileType = .file ∧ excludedBy ext context item.components false = none ∧
      fileEntry ext oracle context faults item (relativePathOf item.components) =
        .ok (.file entry) := by
  unfold handleWalkEntry at h
  simp only at h
  split at h
  · simp at h
  · rename_i hx
    split at h
    · split at h <;> simp at h
    · rename_i hf
      rw [hf] at hx
      split at h
      · rename_i he
        simp only [Option.some.injEq,ScanEvent.file.injEq] at h
        exact ⟨hf,hx,h ▸ he⟩
      · simp at h
      · split at h <;> simp at h
    · simp at h

theorem exists_directory_visit_iff {item : LocalItem} {remotePath : Str} :
    (∃ entry, handleWalkEntry ext oracle context faults item = some (.directory entry) ∧
      entry.remotePath = remotePath) ↔
      item.fileType = .dir ∧ excludedBy ext context item.components true = none ∧
        remotePathForRelative context.root.canonicalRemotePath
          (relativePathOf item.components) = .ok remotePath := by
  constructor
  · rintro ⟨entry,h,rfl⟩
    obtain ⟨ht,hx,hd⟩ := handleWalkEntry_directory h
    exact ⟨ht,hx,(directoryEntry_remotePath hd).1⟩
  · rintro ⟨ht,hx,hr⟩
    have hx' : excludedBy ext context item.components (LocalFileType.dir == .dir) = none := hx
    simp only [handleWalkEntry,ht,hx',directoryEntry,hr,Option.some.injEq,
      ScanEvent.directory.injEq,exists_eq_left']

theorem exists_file_visit_iff {item : LocalItem} {remotePath : Str} :
    (∃ entry, handleWalkEntry ext oracle context faults item = some (.file entry) ∧
      entry.remotePath = remotePath) ↔
      item.fileType = .file ∧ excludedBy ext context item.components false = none ∧
        remotePathForRelative context.root.canonicalRemotePath
          (relativePathOf item.components) = .ok remotePath ∧
        FileReadable ext context faults item (relativePathOf item.components) remotePath := by
  rw [← exists_fileEntry_iff]
  constructor
  · rintro ⟨entry,h,rfl⟩
    obtain ⟨ht,hx,hf⟩ := handleWalkEntry_file h
    exact ⟨ht,hx,entry,hf,rfl⟩
  · rintro ⟨ht,hx,entry,hf,rfl⟩
    have hx' : excludedBy ext context item.components (LocalFileType.file == .dir) = none := hx
    exact ⟨entry,by simp only [handleWalkEntry,ht,hx',hf],rfl⟩

end Report

end YaDiskSync
