import YaDiskSync.MigrationModel

/-! The batches in which either engine uploads its files. -/
namespace YaDiskSync

open Batching

variable (largeThreshold : Nat)

def isLargeUpload (upload : LocalFileEntry × Bool) : Bool :=
  decide (largeThreshold ≤ upload.1.sizeBytes)

def isLargeCandidate (candidate : MigrationUploadCandidate) : Bool :=
  decide (largeThreshold ≤ candidate.file.sizeBytes)

/-- What every batch keeps to, and what becomes of a queue that is taken to its end. -/
structure BatchesSoundly {α : Type} (limit : Nat) (isLarge : α → Bool)
    (take : List α → List α × List α) : Prop where
  batch : ∀ queue, IsBatch limit isLarge queue (take queue).1 (take queue).2
  drained : ∀ queue, (takeBatches take queue.length queue).2 = [] ∧
    HandedOut limit isLarge queue (takeBatches take queue.length queue).1

theorem batchesSoundly_of_isBatch {α : Type} {limit : Nat} {isLarge : α → Bool}
    {take : List α → List α × List α}
    (h : ∀ queue, IsBatch limit isLarge queue (take queue).1 (take queue).2) :
    BatchesSoundly limit isLarge take :=
  ⟨h,fun _ => takeBatches_handsOut h le_rfl⟩

/-- Both engines hand out every queued upload once, in batches of at most so many, with at most one
large file each. -/
theorem uploadBatches_sound {limit : Nat} (hlimit : 0 < limit) :
    BatchesSoundly limit (isLargeUpload largeThreshold)
        (fun queue => takeUploadBatch limit largeThreshold queue 0 false) ∧
      BatchesSoundly limit (isLargeCandidate largeThreshold)
        fun queue => takeMigrationUploadBatch limit largeThreshold queue 0 false := by
  refine ⟨batchesSoundly_of_isBatch fun queue => ?_,batchesSoundly_of_isBatch fun queue => ?_⟩
  · rw [takeUploadBatch_eq]
    exact takeBatch_isBatch hlimit queue
  · rw [takeMigrationUploadBatch_eq]
    exact takeBatch_isBatch hlimit queue

private def queuedUpload (name : String) (sizeBytes : Nat) : LocalFileEntry × Bool :=
  ({ rootId := [], localPath := ["r".toList,name.toList], relativePath := name.toList
     remotePath := "disk:/r/".toList ++ name.toList
     normalizedRemotePath := "disk:/r/".toList ++ name.toList
     uploadSource := ["r".toList,name.toList], sizeBytes, mtimeNs := none, ctimeNs := none
     fingerprint := {
       kind := .metadata, value := [], fullSha256 := none, localMd5 := none, reusedFromState := false }
     sqliteBackupStagingPath := none },false)

/-- The second of two large files waits for the next batch. -/
theorem largeUpload_waits :
    (takeBatches (fun queue => takeUploadBatch 3 8 queue 0 false) 3
      [queuedUpload "large-a.bin" 10,queuedUpload "large-b.bin" 10,queuedUpload "small.txt" 4]).1 =
        [[queuedUpload "large-a.bin" 10,queuedUpload "small.txt" 4],[queuedUpload "large-b.bin" 10]] ∧
      BatchesSoundly 3 (isLargeUpload 8) (fun queue => takeUploadBatch 3 8 queue 0 false) ∧
      BatchesSoundly 3 (isLargeCandidate 8) fun queue => takeMigrationUploadBatch 3 8 queue 0 false :=
  ⟨by decide,uploadBatches_sound 8 (by decide)⟩

end YaDiskSync
