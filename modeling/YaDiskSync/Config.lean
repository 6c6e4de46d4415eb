import YaDiskSync.Exclusions

/-! The configuration and its validation. A report lists every violated rule with
its field; a configuration is accepted when the report is empty. -/
namespace YaDiskSync

structure InstanceConfig where
  name : Str
  remoteRoot : Str
  autoIncludeHostname : Bool
  deriving DecidableEq, Repr

structure PathsConfig where
  stateDb : Str
  logsDir : Str
  stagingDir : Str
  deriving DecidableEq, Repr

structure ScheduleConfig where
  enabled : Bool
  startTimeUtc : Str
  runMissedOnStartup : Bool
  allowManualRun : Bool
  allowContinuousDebugMode : Bool
  deriving DecidableEq, Repr

structure SyncConfig where
  maxFileSizeBytes : Nat
  fullHashMaxBytes : Nat
  largeFileNameSizeOnlyMinBytes : Nat
  uploadConcurrency : Nat
  createDirectoryConcurrency : Nat
  scanConcurrency : Nat
  retryAttempts : Nat
  retryDelaySeconds : Nat
  forceRemoteRescan : Bool
  remoteInventoryCacheTtlHours : Nat
  deleteRemoteExtras : Bool
  deletePermanently : Bool
  deleteAfterUploads : Bool
  dryRunEnabled : Bool
  deriving DecidableEq, Repr

structure YandexDiskConfig where
  oauthScope : Str
  accountAlias : Str
  importYacliAuthIfAvailable : Bool
  clientName : Str
  oauthClientId : Option Str
  deriving DecidableEq, Repr

structure WebUiConfig where
  enabled : Bool
  bindAddress : Str
  port : Nat
  requireAuthWhenNonLoopback : Bool
  deriving DecidableEq, Repr

structure LoggingConfig where
  format : Str
  retentionDays : Nat
  level : Str
  deriving DecidableEq, Repr

structure SyncRootConfig where
  id : Str
  name : Str
  enabled : Bool
  localPath : Str
  remotePathOverride : Option Str := none
  legacyRemotePaths : List Str := []
  excludes : List Str := []
  deriving DecidableEq, Repr

structure AppConfig where
  version : Nat
  instanceConfig : InstanceConfig
  paths : PathsConfig
  schedule : ScheduleConfig
  sync : SyncConfig
  yandexDisk : YandexDiskConfig
  webUi : WebUiConfig
  logging : LoggingConfig
  globalExcludes : List Str
  absoluteExcludes : List Str
  roots : List SyncRootConfig
  deriving DecidableEq, Repr

structure ConfigValidationError where
  field : Str
  message : Str
  rootIndex : Option Nat
  ruleIndex : Option Nat
  deriving DecidableEq, Repr

abbrev ConfigValidationReport := List ConfigValidationError

def ConfigValidationReport.isValid (report : ConfigValidationReport) : Bool := report.isEmpty

/-- One `report.push`, made when the rule is violated. -/
def rejectWhen (violated : Bool) (field message : String) (rootIndex : Option Nat := none) :
    ConfigValidationReport :=
  if violated then [⟨field.toList,message.toList,rootIndex,none⟩] else []

@[simp] theorem rejectWhen_eq_nil {violated : Bool} {field message : String}
    {rootIndex : Option Nat} : rejectWhen violated field message rootIndex = [] ↔
      violated = false := by
  cases violated <;> simp [rejectWhen]

def validateNonEmpty (field : String) (value : Str) : ConfigValidationReport :=
  rejectWhen (trim value).isEmpty field "must not be empty"

/-- `str::parse::<u8>` on the two characters of a clock field. -/
def parseU8 (s : Str) : Option Nat :=
  let digits := if s.head? = some '+' then s.drop 1 else s
  if digits.isEmpty || digits.any fun c => !('0' ≤ c && c ≤ '9') then none
  else
    let value := digits.foldl (fun n c => n*10+(c.toNat - '0'.toNat)) 0
    if value < 256 then some value else none

def isValidUtcTime (value : Str) : Bool :=
  match value.span (· ≠ ':') with
  | (_,[]) => false
  | (hour,_ :: minute) =>
    if hour.length ≠ 2 ∨ minute.length ≠ 2 then false
    else
      match parseU8 hour, parseU8 minute with
      | some hour, some minute => hour < 24 && minute < 60
      | _, _ => false

def isLoopbackBind (value : Str) : Bool :=
  value == "127.0.0.1".toList || value == "localhost".toList || value == "::1".toList

def isValidRemoteRoot (path : Str) : Bool := (sanitizeRemotePath path).isOk

def validateSyncConfig (sync : SyncConfig) : ConfigValidationReport :=
  rejectWhen (sync.maxFileSizeBytes == 0) "sync.max_file_size_bytes" "must be greater than 0" ++
  rejectWhen (sync.fullHashMaxBytes == 0) "sync.full_hash_max_bytes" "must be greater than 0" ++
  rejectWhen (sync.largeFileNameSizeOnlyMinBytes ≤ sync.fullHashMaxBytes)
    "sync.large_file_name_size_only_min_bytes" "must be greater than full_hash_max_bytes" ++
  rejectWhen (sync.uploadConcurrency == 0) "sync.upload_concurrency" "must be greater than 0" ++
  rejectWhen (sync.createDirectoryConcurrency == 0)
    "sync.create_directory_concurrency" "must be greater than 0" ++
  rejectWhen (sync.retryAttempts == 0) "sync.retry_attempts" "must be greater than 0" ++
  rejectWhen (sync.retryDelaySeconds == 0) "sync.retry_delay_seconds" "must be greater than 0" ++
  rejectWhen (sync.remoteInventoryCacheTtlHours == 0)
    "sync.remote_inventory_cache_ttl_hours" "must be greater than 0" ++
  rejectWhen (!sync.deleteRemoteExtras) "sync.delete_remote_extras" "must be true in v1" ++
  rejectWhen (!sync.deletePermanently) "sync.delete_permanently" "must be true in v1" ++
  rejectWhen (!sync.deleteAfterUploads) "sync.delete_after_uploads" "must be true in v1" ++
  rejectWhen sync.dryRunEnabled "sync.dry_run_enabled" "must be false in v1"

def validateTopLevel (config : AppConfig) : ConfigValidationReport :=
  rejectWhen (config.version != 1) "version" "must be 1" ++
  rejectWhen (trim config.instanceConfig.name).isEmpty "instance.name" "must not be empty" ++
  rejectWhen (!isValidRemoteRoot config.instanceConfig.remoteRoot)
    "instance.remote_root" "must be a valid disk:/ remote root" ++
  rejectWhen config.instanceConfig.autoIncludeHostname
    "instance.auto_include_hostname" "must be false in config v1" ++
  validateNonEmpty "paths.state_db" config.paths.stateDb ++
  validateNonEmpty "paths.logs_dir" config.paths.logsDir ++
  validateNonEmpty "paths.staging_dir" config.paths.stagingDir ++
  rejectWhen (!isValidUtcTime config.schedule.startTimeUtc)
    "schedule.start_time_utc" "must use HH:MM UTC format" ++
  rejectWhen config.schedule.runMissedOnStartup
    "schedule.run_missed_on_startup" "must be false in config v1" ++
  validateSyncConfig config.sync ++
  rejectWhen (config.yandexDisk.oauthScope != "disk".toList)
    "yandex_disk.oauth_scope" "must be disk" ++
  validateNonEmpty "yandex_disk.account_alias" config.yandexDisk.accountAlias ++
  validateNonEmpty "yandex_disk.client_name" config.yandexDisk.clientName ++
  (match config.yandexDisk.oauthClientId with
    | some clientId => validateNonEmpty "yandex_disk.oauth_client_id" clientId
    | none => []) ++
  rejectWhen (!isLoopbackBind config.webUi.bindAddress &&
      !config.webUi.requireAuthWhenNonLoopback)
    "web_ui.require_auth_when_non_loopback" "must be true when bind_address is not loopback" ++
  rejectWhen (config.logging.format != "text".toList) "logging.format" "must be text" ++
  rejectWhen (config.logging.retentionDays == 0)
    "logging.retention_days" "must be greater than 0" ++
  rejectWhen (!(["trace","debug","info","warn","error"].map String.toList).contains
      config.logging.level)
    "logging.level" "must be one of trace, debug, info, warn, error"

def validateLegacyPaths (root : SyncRootConfig) (rootIndex : Nat) : ConfigValidationReport :=
  root.legacyRemotePaths.zipIdx.flatMap fun (legacyPath,ruleIndex) =>
    match sanitizeRemotePath legacyPath with
    | .ok _ => []
    | .error error =>
      [⟨"roots[].legacy_remote_paths".toList,error.message,some rootIndex,some ruleIndex⟩]

def SyncRootConfig.canonicalPath (root : SyncRootConfig) (config : AppConfig) :
    Except PathMappingError Str :=
  canonicalRemotePath config.instanceConfig.remoteRoot root.localPath root.remotePathOverride

variable (ext : Externals)

def validateExcludeRules (field : String) (rules : List Str) (rootIndex : Option Nat) :
    ConfigValidationReport :=
  rules.zipIdx.flatMap fun (rule,index) =>
    match ExclusionMatcher.new ext [rule] [] [] with
    | .ok _ => []
    | .error error =>
      [⟨field.toList,"invalid exclude rule at index ".toList ++ (toString error.index).toList ++
        ": ".toList ++ error.message,rootIndex,some index⟩]

def detectRemotePathCollisionKey (remotePath : Str) : Except PathMappingError Str := do
  pure (ext.toLowercase (← sanitizeRemotePath remotePath))

/-- The keys seen so far with the index of the last root that had each. -/
abbrev CanonicalPaths := Std.TreeMap Str Nat

def validateCanonicalPath (config : AppConfig) (root : SyncRootConfig) (rootIndex : Nat)
    (canonicalPaths : CanonicalPaths) : CanonicalPaths × ConfigValidationReport :=
  match root.canonicalPath config >>= detectRemotePathCollisionKey ext with
  | .ok key =>
    (canonicalPaths.insert key rootIndex,
      match canonicalPaths[key]? with
      | some previousIndex =>
        [⟨"roots[].local_path".toList,
          "canonical remote path collides with root index ".toList ++
            (toString previousIndex).toList,some rootIndex,none⟩]
      | none => [])
  | .error error =>
    (canonicalPaths,[⟨"roots[].local_path".toList,error.message,some rootIndex,none⟩])

/-- The loop of `validate_roots` from root `index` on. -/
def validateRootsLoop (config : AppConfig) :
    Nat → List Str → CanonicalPaths → List SyncRootConfig → ConfigValidationReport
  | _, _, _, [] => []
  | index, ids, canonicalPaths, root :: roots =>
    let emptyId := (trim root.id).isEmpty
    let collision := validateCanonicalPath ext config root index canonicalPaths
    rejectWhen emptyId "roots[].id" "must not be empty" (some index) ++
    rejectWhen (!emptyId && ids.contains root.id) "roots[].id" "duplicate root id" (some index) ++
    rejectWhen (trim root.name).isEmpty "roots[].name" "must not be empty" (some index) ++
    rejectWhen (trim root.localPath).isEmpty
      "roots[].local_path" "must not be empty" (some index) ++
    validateExcludeRules ext "roots[].excludes" root.excludes (some index) ++
    validateLegacyPaths root index ++
    collision.2 ++
    validateRootsLoop config (index+1) (if emptyId then ids else root.id :: ids) collision.1 roots

def validateRoots (config : AppConfig) : ConfigValidationReport :=
  if config.roots.isEmpty then
    rejectWhen true "roots" "must contain at least one root"
  else validateRootsLoop ext config 0 [] ∅ config.roots

def validateConfig (config : AppConfig) : ConfigValidationReport :=
  validateTopLevel config ++
  validateExcludeRules ext "global_excludes" config.globalExcludes none ++
  validateRoots ext config

def defaultGlobalExcludes : List Str :=
  ["**/__pycache__/**","**/.pytest_cache/**","**/~$*","**/*.tmp","**/*.temp","**/.DS_Store",
    "**/Thumbs.db","**/*.sqlite-wal","**/*.sqlite-shm","**/*.db-wal","**/*.db-shm"].map
    String.toList

/-- `root` of the configuration module: a disabled root without excludes. -/
def disabledRoot (id name localPath : Str) (legacyRemotePaths : List Str) : SyncRootConfig :=
  { id, name, enabled := false, localPath, legacyRemotePaths }

def defaultExampleRoots : List SyncRootConfig := [
  disabledRoot "projects".toList "Рабочие проекты".toList "C:\\Data\\Projects".toList [],
  disabledRoot "documents".toList "Документы".toList "C:\\Data\\Documents".toList []]

def defaultConfig : AppConfig where
  version := 1
  instanceConfig := ⟨"local-workstation".toList,"disk:/Backup".toList,false⟩
  paths := {
    stateDb := "C:\\ProgramData\\YaDiskSync\\state\\state.sqlite".toList
    logsDir := "C:\\ProgramData\\YaDiskSync\\logs".toList
    stagingDir := "C:\\ProgramData\\YaDiskSync\\staging".toList }
  schedule := ⟨true,"23:00".toList,false,true,true⟩
  sync := {
    maxFileSizeBytes := 50*1024*1024*1024
    fullHashMaxBytes := 10*1024*1024
    largeFileNameSizeOnlyMinBytes := 100*1024*1024
    uploadConcurrency := 2, createDirectoryConcurrency := 8, scanConcurrency := 0
    retryAttempts := 3, retryDelaySeconds := 30
    forceRemoteRescan := false, remoteInventoryCacheTtlHours := 24*7
    deleteRemoteExtras := true, deletePermanently := true, deleteAfterUploads := true
    dryRunEnabled := false }
  yandexDisk := ⟨"disk".toList,"default".toList,true,"ya-disk-sync".toList,none⟩
  webUi := ⟨true,"127.0.0.1".toList,17691,true⟩
  logging := ⟨"text".toList,7,"info".toList⟩
  globalExcludes := defaultGlobalExcludes
  absoluteExcludes := []
  roots := defaultExampleRoots

example : validateConfig asciiExternals defaultConfig = [] := by decide +kernel

/-- A configuration that passes validation. -/
structure AcceptedConfig where
  config : AppConfig
  valid : (validateConfig ext config).isValid = true

/-- The key under which validation files a root's canonical path. -/
def SyncRootConfig.collisionKey (root : SyncRootConfig) (config : AppConfig) :
    Except PathMappingError Str :=
  root.canonicalPath config >>= detectRemotePathCollisionKey ext

section Accepted

variable {ext} {config : AppConfig}

/-- One accepted root: its id is new, its paths map and its key is new. -/
theorem validateRootsLoop_cons {index : Nat} {ids : List Str} {keys : CanonicalPaths}
    {root : SyncRootConfig} {roots : List SyncRootConfig}
    (h : validateRootsLoop ext config index ids keys (root :: roots) = []) :
    root.id ∉ ids ∧ (∀ legacyPath ∈ root.legacyRemotePaths, ∃ path,
        sanitizeRemotePath legacyPath = .ok path) ∧
      ∃ key, root.collisionKey ext config = .ok key ∧ keys[key]? = none ∧
        validateRootsLoop ext config (index+1) (root.id :: ids) (keys.insert key index) roots =
          [] := by
  simp only [validateRootsLoop,List.append_eq_nil_iff,rejectWhen_eq_nil] at h
  obtain ⟨⟨⟨⟨⟨⟨⟨hempty,hdup⟩,_⟩,_⟩,_⟩,hlegacy⟩,hcanonical⟩,hrest⟩ := h
  refine ⟨by simpa [hempty] using hdup,fun legacyPath hm => ?_,?_⟩
  · obtain ⟨n,hn⟩ := List.getElem?_of_mem hm
    have hl := List.flatMap_eq_nil_iff.mp hlegacy _ (List.mk_mem_zipIdx_iff_getElem?.mpr hn)
    cases hs : sanitizeRemotePath legacyPath with
    | ok path => exact ⟨path,rfl⟩
    | error error => simp [hs] at hl
  · cases hk : root.collisionKey ext config with
    | error error =>
      unfold SyncRootConfig.collisionKey at hk
      simp [validateCanonicalPath,hk] at hcanonical
    | ok key =>
      unfold SyncRootConfig.collisionKey at hk
      simp only [validateCanonicalPath,hk] at hcanonical hrest
      refine ⟨key,rfl,?_,by simpa [hempty] using hrest⟩
      cases hp : keys[key]? with
      | none => rfl
      | some previousIndex => simp [hp] at hcanonical

/-- In an accepted list of roots, ids and keys are new to those before and pairwise distinct. -/
theorem validateRootsLoop_nil {roots : List SyncRootConfig} {index : Nat} {ids : List Str}
    {keys : CanonicalPaths} (h : validateRootsLoop ext config index ids keys roots = []) :
    (∀ root ∈ roots, root.id ∉ ids ∧ (∀ legacyPath ∈ root.legacyRemotePaths, ∃ path,
        sanitizeRemotePath legacyPath = .ok path) ∧
      ∃ key, root.collisionKey ext config = .ok key ∧ keys[key]? = none) ∧
    roots.Pairwise fun a b => a.id ≠ b.id ∧
      a.collisionKey ext config ≠ b.collisionKey ext config := by
  induction roots generalizing index ids keys with
  | nil => simp
  | cons root roots ih =>
    obtain ⟨hid,hlegacy,key,hkey,hnew,hrest⟩ := validateRootsLoop_cons h
    obtain ⟨hall,hpw⟩ := ih hrest
    have hkeys : ∀ other ∈ roots, ∃ k, other.collisionKey ext config = .ok k ∧ k ≠ key ∧
        keys[k]? = none := by
      intro other ho
      obtain ⟨_,_,k,hk,hn⟩ := hall other ho
      rw [Std.TreeMap.getElem?_insert] at hn
      split at hn
      · cases hn
      · rename_i hne
        refine ⟨k,hk,fun he => hne ?_,hn⟩
        rw [he]
        exact Std.ReflCmp.compare_self
    refine ⟨fun other ho => ?_,List.pairwise_cons.mpr ⟨fun other ho => ⟨?_,?_⟩,hpw⟩⟩
    · rcases List.mem_cons.mp ho with rfl | ho
      · exact ⟨hid,hlegacy,key,hkey,hnew⟩
      · obtain ⟨k,hk,_,hn⟩ := hkeys other ho
        obtain ⟨hio,hlo,_⟩ := hall other ho
        exact ⟨fun hm => hio (List.mem_cons_of_mem _ hm),hlo,k,hk,hn⟩
    · exact fun he => (hall other ho).1 (by simp [he])
    · obtain ⟨k,hk,hne,_⟩ := hkeys other ho
      rw [hkey,hk]
      exact fun he => hne (Except.ok.inj he).symm

variable (accepted : AcceptedConfig ext)

theorem AcceptedConfig.roots_valid :
    validateRootsLoop ext accepted.config 0 [] ∅ accepted.config.roots = [] := by
  have h := accepted.valid
  simp only [ConfigValidationReport.isValid,List.isEmpty_iff,validateConfig,
    List.append_eq_nil_iff] at h
  have hr := h.2
  unfold validateRoots at hr
  split at hr
  · simp [rejectWhen] at hr
  · exact hr

/-- Every root of an accepted configuration has a canonical path. -/
theorem AcceptedConfig.canonicalPath_ok {root : SyncRootConfig}
    (h : root ∈ accepted.config.roots) :
    ∃ canonical, root.canonicalPath accepted.config = .ok canonical := by
  obtain ⟨_,_,key,hkey,_⟩ := (validateRootsLoop_nil accepted.roots_valid).1 root h
  unfold SyncRootConfig.collisionKey at hkey
  cases hc : root.canonicalPath accepted.config with
  | ok canonical => exact ⟨canonical,rfl⟩
  | error error =>
    rw [hc] at hkey
    cases hkey

/-- Distinct roots of an accepted configuration have distinct canonical paths. -/
theorem AcceptedConfig.canonicalPath_ne {a b : SyncRootConfig}
    (ha : a ∈ accepted.config.roots) (hb : b ∈ accepted.config.roots) (hne : a ≠ b) :
    a.canonicalPath accepted.config ≠ b.canonicalPath accepted.config := by
  intro he
  have hk : a.collisionKey ext accepted.config = b.collisionKey ext accepted.config := by
    unfold SyncRootConfig.collisionKey
    rw [he]
  have hpw := (validateRootsLoop_nil accepted.roots_valid).2
  have : Std.Symm fun x y : SyncRootConfig =>
      x.id ≠ y.id ∧ x.collisionKey ext accepted.config ≠ y.collisionKey ext accepted.config :=
    ⟨fun x y h => ⟨h.1.symm,h.2.symm⟩⟩
  exact (hpw.forall ha hb hne).2 hk

end Accepted

end YaDiskSync
