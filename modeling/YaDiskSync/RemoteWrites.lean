import YaDiskSync.Mirror
import YaDiskSync.MockClient

/-! Changes of the remote disk in any order. Writes of the paths to keep and deletes that spare
those paths do not get in each other's way, so what a tree holds in the end is the same in every
order. -/
namespace YaDiskSync

open SepPath

inductive RemoteWrite
  | createDirectory (path : Str)
  | uploadSource (path content : Str)
  | deletePermanently (path : Str)

namespace RemoteWrite

/-- The path a write fills. -/
def made : RemoteWrite → Option Str
  | .createDirectory path => some path
  | .uploadSource path _ => some path
  | .deletePermanently _ => none

/-- The resource it leaves there. -/
def resource : RemoteWrite → Option ResourceMetadata
  | .createDirectory path => some (.ofDirectory path)
  | .uploadSource path content => some (.ofFile path content.length)
  | .deletePermanently _ => none

/-- The content it leaves there. -/
def content : RemoteWrite → Option Str
  | .uploadSource _ content => some content
  | _ => none

/-- A write that does not reach what is kept at `q`. -/
def Spares (q : Str) : RemoteWrite → Prop
  | .createDirectory path => q ≠ path
  | .uploadSource path _ => q ≠ path
  | .deletePermanently path => ¬ Covers slash path q ∧ trimEndMatches slash path = path

/-- What a write may do at and below `base`: fill a path to keep, or delete below `base` what covers
no such path. One that is about another tree spares this one. -/
def Proper (base : Str) (keep : Str → Prop) : RemoteWrite → Prop
  | .createDirectory path => Covers slash base path → keep path
  | .uploadSource path _ => Covers slash base path → keep path
  | .deletePermanently path => trimEndMatches slash path = path ∧
      ((Beneath slash base path ∧ ∀ q, keep q → ¬ Covers slash path q) ∨
        ∀ q, Covers slash base q → ¬ Covers slash path q)

variable {base q : Str} {keep : Str → Prop} {write : RemoteWrite}

theorem Proper.spares_of_keep (h : write.Proper base keep) (hc : Covers slash base q)
    (hq : keep q) (hmade : write.made ≠ some q) : write.Spares q := by
  cases write with
  | createDirectory path => exact fun he => hmade (congrArg some he.symm)
  | uploadSource path content => exact fun he => hmade (congrArg some he.symm)
  | deletePermanently path =>
    rcases h.2 with ⟨_,hspared⟩ | hapart
    · exact ⟨hspared q hq,h.1⟩
    · exact ⟨hapart q hc,h.1⟩

end RemoteWrite

namespace RemoteDisk

def apply (disk : RemoteDisk) : RemoteWrite → RemoteDisk
  | .createDirectory path => disk.createDirectory path
  | .uploadSource path content => disk.uploadSource path content
  | .deletePermanently path => disk.deletePermanently path

def applyAll (disk : RemoteDisk) (writes : List RemoteWrite) : RemoteDisk :=
  writes.foldl apply disk

variable {disk : RemoteDisk} {base q : Str} {keep : Str → Prop} {write : RemoteWrite}
  {writes : List RemoteWrite}

@[simp] theorem applyAll_append (writes later : List RemoteWrite) :
    disk.applyAll (writes ++ later) = (disk.applyAll writes).applyAll later :=
  List.foldl_append

theorem sameAt_apply (h : write.Spares q) : SameAt disk (disk.apply write) q := by
  cases write with
  | createDirectory path => exact sameAt_createDirectory h
  | uploadSource path content => exact sameAt_uploadSource h
  | deletePermanently path => exact sameAt_deletePermanently h.1 h.2

theorem sameAt_applyAll (h : ∀ write ∈ writes, write.Spares q) :
    SameAt disk (disk.applyAll writes) q := by
  induction writes generalizing disk with
  | nil => exact SameAt.refl _ _
  | cons write writes ih =>
    exact (sameAt_apply (h write (by simp))).trans (ih fun w hw => h w (by simp [hw]))

theorem apply_made (h : write.made = some q) :
    (disk.apply write).resources[q]? = write.resource ∧
      ∀ content, write.content = some content → (disk.apply write).contents[q]? = some content := by
  cases write with
  | createDirectory path =>
    cases h
    exact ⟨by simp [apply,RemoteWrite.resource,getElem?_createDirectory],fun _ hc => nomatch hc⟩
  | uploadSource path text =>
    cases h
    refine ⟨by simp [apply,RemoteWrite.resource,getElem?_uploadSource],fun content hc => ?_⟩
    cases hc
    simp [apply,contents_uploadSource]
  | deletePermanently path => cases h

/-- A path that only one write fills, as often as it may be repeated, ends up as that write leaves
it. -/
theorem applyAll_made (hwrite : write ∈ writes) (hmade : write.made = some q)
    (honly : ∀ other ∈ writes, other = write ∨ other.Spares q) :
    (disk.applyAll writes).resources[q]? = write.resource ∧ ∀ content,
      write.content = some content → (disk.applyAll writes).contents[q]? = some content := by
  induction writes generalizing disk with
  | nil => cases hwrite
  | cons first writes ih =>
    by_cases hlater : write ∈ writes
    · exact ih hlater fun other ho => honly other (by simp [ho])
    · -- no later write reaches the path again
      have hfirst : first = write := ((List.mem_cons.mp hwrite).resolve_right hlater).symm
      have hspared : SameAt (disk.apply first) (disk.applyAll (first :: writes)) q := by
        refine sameAt_applyAll fun other ho => (honly other (by simp [ho])).resolve_left ?_
        rintro rfl
        exact hlater ho
      have hfilled : (disk.apply write).resources[q]? = write.resource ∧
          ∀ content, write.content = some content →
            (disk.apply write).contents[q]? = some content := apply_made hmade
      rw [← hfirst] at hfilled ⊢
      exact ⟨hspared.1.trans hfilled.1,fun content hc => hspared.2.trans (hfilled.2 content hc)⟩

/-- Directories that are not to be kept stay in place as long as there is anything in them. -/
theorem ClosedBelow.apply (h : ClosedBelow base keep disk)
    (hparent : ∀ p, keep p → ∀ m, Beneath slash base m → Beneath slash m p → keep m)
    (hproper : write.Proper base keep) : ClosedBelow base keep (disk.apply write) := by
  have hmade : ∀ path : Str, (Covers slash base path → keep path) → ∀ disk' : RemoteDisk,
      (∀ q, q ≠ path → disk'.resources[q]? = disk.resources[q]?) → ClosedBelow base keep disk' := by
    intro path hkeep disk' hsame q hq m hm hmq hnot
    have hne : q ≠ path := by
      rintro rfl
      exact hnot (hparent q (hkeep (hm.trans hmq).covers) m hm hmq)
    have hnem : m ≠ path := by
      rintro rfl
      exact hnot (hkeep hm.covers)
    rw [Std.TreeMap.mem_iff_isSome_getElem?,hsame q hne,← Std.TreeMap.mem_iff_isSome_getElem?] at hq
    unfold isDirectory
    rw [hsame m hnem]
    exact h q hq m hm hmq hnot
  cases write with
  | createDirectory path =>
    exact hmade path hproper _ fun q hq => (sameAt_createDirectory hq).1
  | uploadSource path content =>
    exact hmade path hproper _ fun q hq => (sameAt_uploadSource hq).1
  | deletePermanently path =>
    rcases hproper.2 with ⟨hb,hspared⟩ | hapart
    · exact h.delete hb (fun hk => hspared path hk (Covers.refl _)) hproper.1
    · have hsame : ∀ q, Covers slash base q →
          (disk.deletePermanently path).resources[q]? = disk.resources[q]? := fun q hc =>
        (sameAt_deletePermanently (hapart q hc) hproper.1).1
      intro q hq m hm hmq hnot
      rw [Std.TreeMap.mem_iff_isSome_getElem?] at hq
      change ((disk.deletePermanently path).resources[q]?).isSome = true at hq
      rw [hsame q (hm.trans hmq).covers,← Std.TreeMap.mem_iff_isSome_getElem?] at hq
      change (disk.deletePermanently path).isDirectory m = true
      unfold isDirectory
      rw [hsame m hm.covers]
      exact h q hq m hm hmq hnot

/-- Nothing comes back that is not to be kept. -/
theorem getElem?_apply_of_none (h : write.Proper base keep) (hq : Covers slash base q)
    (hnot : ¬ keep q) (hgone : disk.resources[q]? = none) :
    (disk.apply write).resources[q]? = none := by
  cases write with
  | createDirectory path =>
    refine (sameAt_createDirectory ?_).1.trans hgone
    rintro rfl
    exact hnot (h hq)
  | uploadSource path content =>
    refine (sameAt_uploadSource ?_).1.trans hgone
    rintro rfl
    exact hnot (h hq)
  | deletePermanently path =>
    refine (getElem?_deletePermanently q).trans ?_
    rw [hgone]
    exact ite_self none

theorem getElem?_applyAll_of_none (hproper : ∀ write ∈ writes, write.Proper base keep)
    (hq : Covers slash base q) (hnot : ¬ keep q) (hgone : disk.resources[q]? = none) :
    (disk.applyAll writes).resources[q]? = none := by
  induction writes generalizing disk with
  | nil => exact hgone
  | cons write writes ih =>
    exact ih (fun w hw => hproper w (by simp [hw]))
      (getElem?_apply_of_none (hproper write (by simp)) hq hnot hgone)

/-- What is not kept and covered by a delete is gone in the end. -/
theorem getElem?_applyAll_deleted (hclosed : ClosedBelow base keep disk)
    (hparent : ∀ p, keep p → ∀ m, Beneath slash base m → Beneath slash m p → keep m)
    (hproper : ∀ write ∈ writes, write.Proper base keep) (hq : Covers slash base q)
    (hnot : ¬ keep q) {path : Str} (hdelete : .deletePermanently path ∈ writes)
    (hc : Covers slash path q) : (disk.applyAll writes).resources[q]? = none := by
  induction writes generalizing disk with
  | nil => cases hdelete
  | cons write writes ih =>
    have hrest : ∀ w ∈ writes, w.Proper base keep := fun w hw => hproper w (by simp [hw])
    by_cases hlater : .deletePermanently path ∈ writes
    · exact ih (hclosed.apply hparent (hproper write (by simp))) hrest hlater
    · have hfirst : write = .deletePermanently path :=
        ((List.mem_cons.mp hdelete).resolve_right hlater).symm
      subst hfirst
      -- gone after this delete, and no later write brings it back
      have hgone : (disk.deletePermanently path).resources[q]? = none := by
        have hproper := hproper _ List.mem_cons_self
        rcases hproper.2 with ⟨hb,hspared⟩ | hapart
        · exact (getElem?_delete_of_closed hclosed hb (fun hk => hspared path hk (Covers.refl _))
            hproper.1 q).trans (if_pos hc)
        · exact absurd hc (hapart q hq)
      change ((disk.deletePermanently path).applyAll writes).resources[q]? = none
      exact getElem?_applyAll_of_none hrest hq hnot hgone

theorem Keyed.apply (h : disk.Keyed) (write : RemoteWrite) : (disk.apply write).Keyed := by
  intro key resource hr
  cases write with
  | createDirectory path =>
    change (disk.createDirectory path).resources[key]? = some resource at hr
    rw [getElem?_createDirectory] at hr
    split at hr
    · rename_i he
      cases hr
      exact he
    · exact h key resource hr
  | uploadSource path content =>
    change (disk.uploadSource path content).resources[key]? = some resource at hr
    rw [getElem?_uploadSource] at hr
    split at hr
    · rename_i he
      cases hr
      exact he
    · exact h key resource hr
  | deletePermanently path =>
    change (disk.deletePermanently path).resources[key]? = some resource at hr
    rw [getElem?_deletePermanently] at hr
    split at hr
    · cases hr
    · exact h key resource hr

theorem Keyed.applyAll (h : disk.Keyed) (writes : List RemoteWrite) :
    (disk.applyAll writes).Keyed := by
  induction writes generalizing disk with
  | nil => exact h
  | cons write writes ih => exact ih (h.apply write)

end RemoteDisk

/-- The change a call makes, the local disk being `tree`. -/
def ClientCall.write (tree : LocalTree) : ClientCall → Option RemoteWrite
  | .createDirectory path => some (.createDirectory path)
  | .uploadSource path source => (tree.read source).map (.uploadSource path)
  | .deletePermanently path => some (.deletePermanently path)
  | _ => none

end YaDiskSync
