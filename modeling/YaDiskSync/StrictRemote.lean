import YaDiskSync.MigrationModel
import YaDiskSync.Trace

/-! A remote that refuses what does not fit in: nothing is made below a missing directory or in
the place of a resource of the other type. -/
namespace YaDiskSync

def ResourceType.other : ResourceType → ResourceType
  | .file => .directory
  | .directory => .file

theorem ResourceType.eq_or_eq_other (a b : ResourceType) : a = b ∨ a = b.other := by
  cases a <;> cases b <;> simp [other]

theorem Inventory.not_holds_both {inventory : Inventory} {path : Str} {resourceType : ResourceType}
    (h : inventory.holds path resourceType.other = true) :
    inventory.holds path resourceType = false := by
  unfold holds at h ⊢
  cases hfound : inventory[path]? with
  | none => rfl
  | some resource =>
    rw [hfound,Option.any_some,beq_iff_eq] at h
    rw [Option.any_some,h]
    cases resourceType <;> rfl

/-- The resource a call makes. -/
def ClientCall.makes : ClientCall → Option (Str × ResourceType)
  | .createDirectory path => some (path,.directory)
  | .uploadSource path _ => some (path,.file)
  | _ => none

/-- What a call does is refused, and leaves no trace. -/
def Refused {α : Type} (remote : RemoteDisk) (answer : Except YandexDiskError α)
    (remote' : RemoteDisk) : Prop :=
  (∃ error, answer = .error error) ∧ remote' = remote

/-- A remote that makes no resource in the place of one of the other type. -/
structure RefusesOtherType (env : Environment RemoteDisk) : Prop where
  refused : ∀ {tree remote call answer remote' path resourceType},
    env.client tree remote call answer remote' → call.makes = some (path,resourceType) →
      remote.resources.holds path resourceType.other = true → Refused remote answer remote'
  made : ∀ {tree remote call answer remote' path resourceType},
    env.client tree remote call answer remote' → call.makes = some (path,resourceType) →
      ∀ q : Str, remote'.resources[q]? = remote.resources[q]? ∨
        q = path ∧ remote'.resources.holds path resourceType = true
  read : ∀ {tree remote call answer remote'}, env.client tree remote call answer remote' →
    call.isRead = true → remote' = remote
  removed : ∀ {tree remote path answer remote'},
    env.client tree remote (.deletePermanently path) answer remote' →
      ∀ q : Str, remote'.resources[q]? = remote.resources[q]? ∨ remote'.resources[q]? = none

/-- The directory a resource is in exists; the disk itself always does. -/
def RemoteDisk.hasParent (disk : RemoteDisk) (path : Str) : Bool :=
  (parentRemotePaths path).getLast?.all disk.isDirectory

/-- One that also makes no resource below a missing directory, and every directory else. -/
structure StrictRemote (env : Environment RemoteDisk) : Prop extends RefusesOtherType env where
  needsParent : ∀ {tree remote call answer remote' path resourceType},
    env.client tree remote call answer remote' → call.makes = some (path,resourceType) →
      remote.hasParent path = false → Refused remote answer remote'
  creates : ∀ {tree remote path answer remote'},
    env.client tree remote (.createDirectory path) answer remote' →
      remote.hasParent path = true → remote.resources.holds path .file = false →
        answer = .ok () ∧ remote'.isDirectory path = true

section Standing

variable {env : Environment RemoteDisk} (henv : RefusesOtherType env)

include henv

/-- Making a resource takes no other away. -/
theorem RefusesOtherType.holds_makes {tree : LocalTree} {remote remote' : RemoteDisk}
    {call : ClientCall} {answer : Except YandexDiskError call.Result} {made : Str × ResourceType}
    (h : env.client tree remote call answer remote') (hmakes : call.makes = some made) {q : Str}
    {resourceType : ResourceType} (hheld : remote.resources.holds q resourceType = true) :
    remote'.resources.holds q resourceType = true := by
  rcases henv.made h hmakes q with heq | ⟨rfl,hmade⟩
  · rwa [Inventory.holds,heq]
  · rcases resourceType.eq_or_eq_other made.2 with rfl | rfl
    · exact hmade
    · rw [(henv.refused h hmakes hheld).2]
      exact hheld

theorem RefusesOtherType.holds_lands {μ : Type} {w : World RemoteDisk μ} {task : Task}
    {outcome : TaskOutcome} {remote' : RemoteDisk} (h : env.Lands w task outcome remote') {q : Str}
    {resourceType : ResourceType} (hheld : w.remote.resources.holds q resourceType = true) :
    remote'.resources.holds q resourceType = true := by
  cases task with
  | createDirectory directory operationId =>
    obtain ⟨answer,hclient,-⟩ := h
    exact henv.holds_makes hclient rfl hheld
  | upload operationId file isUpdate cancelledText =>
    rcases h with ⟨-,rfl,-⟩ | ⟨answer,hclient,-⟩
    · exact hheld
    · exact henv.holds_makes hclient rfl hheld

theorem RefusesOtherType.stable_holds {μ : Type} (q : Str) (resourceType : ResourceType) :
    Prog.Stable env.TraceDrift fun s : Traced RemoteDisk μ =>
      s.world.remote.resources.holds q resourceType = true := by
  intro s s' hheld hdrift
  cases hdrift with
  | land _ hl => exact henv.holds_lands hl hheld
  | disk _ => exact hheld
  | cancel _ => exact hheld
  | tick _ => exact hheld

end Standing

namespace RemoteDisk

variable (disk : RemoteDisk)

def accepts (call : ClientCall) : Bool :=
  call.makes.all fun made => disk.hasParent made.1 && !disk.resources.holds made.1 made.2.other

def pathDoesntExist : YandexDiskError :=
  { kind := .permanent, message := "resource cannot be made".toList }

end RemoteDisk

/-- The mock client on a strict remote. -/
def strictResponder (quota : QuotaInfo) : Responder RemoteDisk := fun tree remote call =>
  if remote.accepts call then remote.mockAnswer quota tree call
  else (.error RemoteDisk.pathDoesntExist,remote)

def strictEnvironment (ext : Externals) (quota : QuotaInfo)
    (diskStep : LocalTree → LocalTree → Prop) : Environment RemoteDisk :=
  { mockEnvironment ext quota diskStep with
    client := fun tree remote call answer remote' =>
      (answer,remote') = strictResponder quota tree remote call }

theorem strictEnvironment_admits (ext : Externals) (quota : QuotaInfo)
    (diskStep : LocalTree → LocalTree → Prop) :
    (strictEnvironment ext quota diskStep).Admits (strictResponder quota) :=
  ⟨fun _ _ _ => rfl,rfl,fun _ => rfl⟩

section Strict

variable {quota : QuotaInfo} {tree : LocalTree} {remote remote' : RemoteDisk} {call : ClientCall}
  {answer : Except YandexDiskError call.Result}

theorem refused_strictResponder (hnot : remote.accepts call = false)
    (h : (answer,remote') = strictResponder quota tree remote call) :
    Refused remote answer remote' := by
  rw [strictResponder,hnot,if_neg Bool.false_ne_true] at h
  obtain ⟨rfl,rfl⟩ := Prod.mk.inj h
  exact ⟨⟨_,rfl⟩,rfl⟩

theorem accepts_of_makes_none (h : call.makes = none) : remote.accepts call = true := by
  rw [RemoteDisk.accepts,h]
  rfl

theorem mockAnswer_made {path : Str} {resourceType : ResourceType}
    (hmakes : call.makes = some (path,resourceType)) (q : Str) :
    (remote.mockAnswer quota tree call).2.resources[q]? = remote.resources[q]? ∨
      q = path ∧ (remote.mockAnswer quota tree call).2.resources.holds path resourceType = true := by
  cases call with
  | createDirectory target =>
    cases hmakes
    by_cases hq : path = q
    · exact Or.inr ⟨hq.symm,by simp [RemoteDisk.mockAnswer,Inventory.holds,
        RemoteDisk.getElem?_createDirectory,ResourceMetadata.ofDirectory]⟩
    · exact Or.inl (by rw [RemoteDisk.mockAnswer,RemoteDisk.getElem?_createDirectory,if_neg hq])
  | uploadSource target source =>
    cases hmakes
    rw [RemoteDisk.mockAnswer]
    cases tree.read source with
    | none => exact Or.inl rfl
    | some content =>
      by_cases hq : path = q
      · exact Or.inr ⟨hq.symm,by simp [Inventory.holds,RemoteDisk.getElem?_uploadSource,
          ResourceMetadata.ofFile]⟩
      · exact Or.inl (by dsimp only; rw [RemoteDisk.getElem?_uploadSource,if_neg hq])
  | _ => cases hmakes

theorem mockAnswer_read (hread : call.isRead = true) :
    (remote.mockAnswer quota tree call).2 = remote := by
  cases call with
  | metadata path =>
    rw [RemoteDisk.mockAnswer]
    split <;> rfl
  | download path =>
    rw [RemoteDisk.mockAnswer]
    split <;> rfl
  | diskInfo => rfl
  | listRecursive => rfl
  | _ => cases hread

end Strict

theorem strictEnvironment_strict (ext : Externals) (quota : QuotaInfo)
    (diskStep : LocalTree → LocalTree → Prop) :
    StrictRemote (strictEnvironment ext quota diskStep) where
  refused h hmakes hholds := refused_strictResponder (by simp [RemoteDisk.accepts,hmakes,hholds]) h
  needsParent h hmakes hparent :=
    refused_strictResponder (by simp [RemoteDisk.accepts,hmakes,hparent]) h
  made := by
    intro tree remote call answer remote' path resourceType h hmakes q
    cases haccepts : remote.accepts call with
    | false => exact Or.inl (by rw [(refused_strictResponder haccepts h).2])
    | true =>
      have heq : (answer,remote') = remote.mockAnswer quota tree call := by
        rw [h,strictResponder,if_pos haccepts]
      rw [show remote' = _ from congrArg Prod.snd heq]
      exact mockAnswer_made hmakes q
  read := by
    intro tree remote call answer remote' h hread
    have hmakes : call.makes = none := by cases call <;> first | rfl | cases hread
    have heq : (answer,remote') = remote.mockAnswer quota tree call := by
      rw [h,strictResponder,if_pos (accepts_of_makes_none hmakes)]
    rw [show remote' = _ from congrArg Prod.snd heq]
    exact mockAnswer_read hread
  removed := by
    intro tree remote path answer remote' h q
    have heq : (answer,remote') = (.ok (),remote.deletePermanently path) := h
    obtain ⟨rfl,rfl⟩ := Prod.mk.inj heq
    rw [RemoteDisk.getElem?_deletePermanently]
    split
    · exact Or.inr rfl
    · exact Or.inl rfl
  creates := by
    intro tree remote path answer remote' h hparent hfile
    have haccepts : remote.accepts (.createDirectory path) = true := by
      simp [RemoteDisk.accepts,ClientCall.makes,ResourceType.other,hparent,hfile]
    have heq : (answer,remote') = (.ok (),remote.createDirectory path) := by
      rw [h,strictResponder,if_pos haccepts]
      rfl
    obtain ⟨rfl,rfl⟩ := Prod.mk.inj heq
    exact ⟨rfl,by simp [RemoteDisk.isDirectory,RemoteDisk.getElem?_createDirectory,
      ResourceMetadata.ofDirectory]⟩

end YaDiskSync
