import Mathlib.Algebra.BigOperators.Fin
import AsasOs.Vfs.Volumes

/-!
# What the mount operations keep

No operation but opening and closing changes the references that handles hold, and
none takes away a mount that is referenced or moves it to another mount point.
-/
namespace AsasOs.Vfs

open Block CString

variable {W C : Type} {drivers : Drivers W C}

def Filesystems.refs (fs : Filesystems W C) (m : MountId) : Nat :=
  match fs.mounts m with
  | none => 0
  | some mount => mount.referenceCount

def Filesystems.generationOf (fs : Filesystems W C) (m : MountId) : Option Nat :=
  (fs.mounts m).map (·.generation)

/-- Volumes own active mounts, each its own, and a volume without one is not valid. -/
structure TableInv (s : VfsState W C) : Prop where
  owned : ∀ i m, s.mounts i = some m →
    i.val < s.volumeCount ∧ (s.volumes i).valid = true ∧ (s.fs.mounts m).isSome = true
  unique : ∀ i j m, s.mounts i = some m → s.mounts j = some m → i = j
  mounted : ∀ i, (s.volumes i).valid = true → (s.mounts i).isSome = true

/-- A state that other operations than opening and closing can lead to. -/
structure Evolves (s s' : VfsState W C) : Prop where
  table : TableInv s → TableInv s'
  handles : s'.handles = s.handles
  activeFs : s'.activeFs = s.activeFs
  refs : ∀ m, s'.fs.refs m = s.fs.refs m
  referenced : TableInv s → ∀ i m, s.mounts i = some m → s.fs.refs m ≠ 0 →
    s'.mounts i = some m ∧ (s'.volumes i).mountPoint = (s.volumes i).mountPoint ∧
      s'.fs.generationOf m = s.fs.generationOf m

namespace Evolves

theorem refl (s : VfsState W C) : Evolves s s :=
  ⟨id, rfl, rfl, fun _ => rfl, fun _ _ _ here _ => ⟨here, rfl, rfl⟩⟩

theorem trans {s t u : VfsState W C} (first : Evolves s t) (second : Evolves t u) : Evolves s u where
  table := second.table ∘ first.table
  handles := second.handles.trans first.handles
  activeFs := second.activeFs.trans first.activeFs
  refs := fun m => (second.refs m).trans (first.refs m)
  referenced := by
    intro table i m here positive
    obtain ⟨there, point, generation⟩ := first.referenced table i m here positive
    obtain ⟨there', point', generation'⟩ :=
      second.referenced (first.table table) i m there (by rwa [first.refs])
    exact ⟨there', point'.trans point, generation'.trans generation⟩

theorem of_eq {s s' : VfsState W C} (volumes : s'.volumes = s.volumes)
    (mounts : s'.mounts = s.mounts) (count : s'.volumeCount = s.volumeCount)
    (handles : s'.handles = s.handles) (activeFs : s'.activeFs = s.activeFs)
    (table : s'.fs.mounts = s.fs.mounts) : Evolves s s' where
  table := by
    intro inv
    refine ⟨?_, ?_, ?_⟩
    · rw [volumes, mounts, count, table]
      exact inv.owned
    · rw [mounts]
      exact inv.unique
    · rw [volumes, mounts]
      exact inv.mounted
  handles := handles
  activeFs := activeFs
  refs := fun m => by rw [Filesystems.refs, Filesystems.refs, table]
  referenced := by
    intro _ i m here _
    rw [mounts, volumes, Filesystems.generationOf, Filesystems.generationOf, table]
    exact ⟨here, rfl, rfl⟩

end Evolves

/-! ### Single operations -/

theorem setWorld_evolves (s : VfsState W C) (world : W) : Evolves s (s.setWorld world) :=
  .of_eq rfl rfl rfl rfl rfl rfl

theorem selectPrimary_evolves (s : VfsState W C) : Evolves s (selectPrimary drivers s) := by
  simp only [selectPrimary]
  split
  · exact .refl s
  · exact setWorld_evolves s _

variable {s s' : VfsState W C} {device : Device}

theorem probe_evolves {driver : Option DriverId} (probed : s.probe drivers device = (driver, s')) :
    Evolves s s' := by
  cases probed
  exact setWorld_evolves s _

theorem freeSlot_none {fs : Filesystems W C} {slot : MountId} (free : fs.freeSlot = some slot) :
    fs.mounts slot = none := by
  simpa using List.find?_some free

variable {driver : DriverId} {flags : UInt32} {fs fs' : Filesystems W C} {result : Option MountId} {id : Nat}

theorem Filesystems.mount_cases (mounted : fs.mount drivers id device driver flags = (result, fs')) :
    match result with
    | none => fs'.mounts = fs.mounts
    | some m => fs.mounts m = none ∧ ∃ mount : Mount C, mount.referenceCount = 0 ∧
        fs'.mounts = Function.update fs.mounts m (some mount) := by
  unfold Filesystems.mount at mounted
  split at mounted
  · cases mounted
    rfl
  · split at mounted
    · cases mounted
      rfl
    · rename_i slot free
      dsimp only at mounted
      split at mounted
      · cases mounted
        rfl
      · cases mounted
        exact ⟨freeSlot_none free, _, rfl, rfl⟩

theorem mountFilesystem_cases
    (mounted : s.mountFilesystem drivers id device driver flags = (result, s')) :
    ∃ fs', s' = { s with fs := fs' } ∧
      s.fs.mount drivers id device driver flags = (result, fs') := by
  simp only [VfsState.mountFilesystem] at mounted
  cases mounted
  exact ⟨_, rfl, rfl⟩

theorem mountFilesystem_evolves
    (mounted : s.mountFilesystem drivers id device driver flags = (result, s')) :
    Evolves s s' := by
  obtain ⟨fs', rfl, filled⟩ := mountFilesystem_cases mounted
  have table := Filesystems.mount_cases filled
  cases result with
  | none => exact .of_eq rfl rfl rfl rfl rfl table
  | some m =>
    obtain ⟨free, mount, unreferenced, table⟩ := table
    refine ⟨?_, rfl, rfl, ?_, ?_⟩
    · intro inv
      refine ⟨?_, inv.unique, inv.mounted⟩
      intro i m' here
      obtain ⟨bound, valid, active⟩ := inv.owned i m' here
      refine ⟨bound, valid, ?_⟩
      dsimp only
      rw [table]
      by_cases same : m' = m
      · subst same
        rw [Function.update_self]
        rfl
      · rwa [Function.update_of_ne same]
    · intro m'
      simp only [Filesystems.refs, table]
      by_cases same : m' = m
      · subst same
        rw [Function.update_self, free]
        exact unreferenced
      · rw [Function.update_of_ne same]
    · intro inv i m' here _
      have other : m' ≠ m := by
        rintro rfl
        have active := (inv.owned i m' here).2.2
        rw [free] at active
        cases active
      simp only [Filesystems.generationOf, table, Function.update_of_ne other]
      exact ⟨here, trivial, trivial⟩

theorem freeVolume_none {s : VfsState W C} (inv : TableInv s) {i : VolumeId}
    (free : freeVolume s = some i) : s.mounts i = none := by
  have unused := List.find?_some free
  cases here : s.mounts i with
  | none => rfl
  | some m =>
    obtain ⟨bound, valid, _⟩ := inv.owned i m here
    simp only [Bool.or_eq_true, decide_eq_true_eq, Bool.not_eq_true', valid, Bool.true_eq_false,
      or_false] at unused
    omega

variable {i : VolumeId}

theorem freeVolume_le {s : VfsState W C} (free : freeVolume s = some i) : i.val ≤ s.volumeCount := by
  obtain ⟨_, n, bound, here, before⟩ := List.find?_eq_some_iff_getElem.mp free
  rw [List.getElem_finRange] at here
  by_contra beyond
  have value : n = i.val := by
    rw [← here]
    rfl
  have earlier := before s.volumeCount (by omega)
  simp at earlier

variable {m : MountId}

theorem addVolume_evolves {s : VfsState W C} {volume : VolumeInfo}
    (free : freeVolume s = some i) (valid : volume.valid = true)
    (active : (s.fs.mounts m).isSome = true)
    (unowned : TableInv s → ∀ j, s.mounts j ≠ some m) : Evolves s (s.addVolume i m volume) where
  table := by
    intro inv
    have bound := freeVolume_le free
    refine ⟨?_, ?_, ?_⟩
    · intro j m' here
      simp only [VfsState.addVolume] at here ⊢
      by_cases same : j = i
      · subst same
        rw [Function.update_self] at here ⊢
        cases here
        refine ⟨?_, valid, active⟩
        split <;> omega
      · rw [Function.update_of_ne same] at here ⊢
        obtain ⟨below, valid', active'⟩ := inv.owned j m' here
        refine ⟨?_, valid', active'⟩
        split <;> omega
    · intro j k m' herej herek
      simp only [VfsState.addVolume] at herej herek
      by_cases samej : j = i <;> by_cases samek : k = i
      · rw [samej, samek]
      · subst samej
        rw [Function.update_self] at herej
        rw [Function.update_of_ne samek] at herek
        cases herej
        exact absurd herek (unowned inv k)
      · subst samek
        rw [Function.update_self] at herek
        rw [Function.update_of_ne samej] at herej
        cases herek
        exact absurd herej (unowned inv j)
      · rw [Function.update_of_ne samej] at herej
        rw [Function.update_of_ne samek] at herek
        exact inv.unique j k m' herej herek
    · intro j here
      simp only [VfsState.addVolume] at here ⊢
      by_cases same : j = i
      · subst same
        rw [Function.update_self]
        rfl
      · rw [Function.update_of_ne same] at here ⊢
        exact inv.mounted j here
  handles := rfl
  activeFs := rfl
  refs := fun _ => rfl
  referenced := by
    intro inv j m' here _
    have other : j ≠ i := by
      rintro rfl
      rw [freeVolume_none inv free] at here
      cases here
    simp only [VfsState.addVolume, Function.update_of_ne other]
    exact ⟨here, trivial, trivial⟩

theorem Filesystems.unmount_cases {ok : Bool} (unmounted : fs.unmount drivers m = (ok, fs')) :
    if ok then fs.refs m = 0 ∧ fs'.mounts = Function.update fs.mounts m none
    else fs'.mounts = fs.mounts := by
  unfold Filesystems.unmount at unmounted
  split at unmounted
  · cases unmounted
    rfl
  · rename_i mount here
    split at unmounted
    · cases unmounted
      rfl
    · rename_i unreferenced
      split at unmounted
      · cases unmounted
        rfl
      · cases unmounted
        refine ⟨?_, rfl⟩
        simp only [Filesystems.refs, here]
        exact not_not.mp unreferenced

theorem unmountFilesystem_cases {ok : Bool} (unmounted : s.unmountFilesystem drivers m = (ok, s')) :
    ∃ fs', s' = { s with fs := fs' } ∧ s.fs.unmount drivers m = (ok, fs') := by
  simp only [VfsState.unmountFilesystem] at unmounted
  cases unmounted
  exact ⟨_, rfl, rfl⟩

theorem refs_free (unreferenced : fs.refs m = 0)
    (table : fs'.mounts = Function.update fs.mounts m none) (m' : MountId) :
    fs'.refs m' = fs.refs m' := by
  simp only [Filesystems.refs, table] at unreferenced ⊢
  by_cases same : m' = m
  · subst same
    rw [Function.update_self]
    exact unreferenced.symm
  · rw [Function.update_of_ne same]

theorem unmountFilesystem_evolves {ok : Bool} (unowned : TableInv s → ∀ j, s.mounts j ≠ some m)
    (unmounted : s.unmountFilesystem drivers m = (ok, s')) : Evolves s s' := by
  obtain ⟨fs', rfl, freed⟩ := unmountFilesystem_cases unmounted
  have table := Filesystems.unmount_cases freed
  cases ok with
  | false => exact .of_eq rfl rfl rfl rfl rfl table
  | true =>
    obtain ⟨unreferenced, table⟩ : s.fs.refs m = 0 ∧ _ := table
    have other : TableInv s → ∀ i m', s.mounts i = some m' → m' ≠ m := by
      rintro inv i m' here rfl
      exact unowned inv i here
    refine ⟨?_, rfl, rfl, refs_free unreferenced table, ?_⟩
    · intro inv
      refine ⟨?_, inv.unique, inv.mounted⟩
      intro i m' here
      obtain ⟨bound, valid, active⟩ := inv.owned i m' here
      refine ⟨bound, valid, ?_⟩
      dsimp only
      rwa [table, Function.update_of_ne (other inv i m' here)]
    · intro inv i m' here _
      simp only [Filesystems.generationOf, table, Function.update_of_ne (other inv i m' here)]
      exact ⟨here, trivial, trivial⟩

theorem unmountVolume_evolves {ok : Bool} (unmounted : unmountVolume drivers s i = (ok, s')) :
    Evolves s s' := by
  unfold unmountVolume at unmounted
  split at unmounted
  · cases unmounted
    exact .refl s
  · rename_i m owned
    split at unmounted
    · rename_i t refused
      cases unmounted
      obtain ⟨fs', rfl, kept⟩ := unmountFilesystem_cases refused
      exact .of_eq rfl rfl rfl rfl rfl (Filesystems.unmount_cases kept)
    · rename_i t done
      cases unmounted
      obtain ⟨fs', rfl, freed⟩ := unmountFilesystem_cases done
      obtain ⟨unreferenced, table⟩ : s.fs.refs m = 0 ∧ _ := Filesystems.unmount_cases freed
      refine ⟨?_, rfl, rfl, refs_free unreferenced table, ?_⟩
      · intro inv
        refine ⟨?_, ?_, ?_⟩
        · intro j m' here
          simp only [VfsState.dropVolume] at here ⊢
          by_cases same : j = i
          · subst same
            rw [Function.update_self] at here
            cases here
          · rw [Function.update_of_ne same] at here
            have other : m' ≠ m := by
              rintro rfl
              exact same (inv.unique j i m' here owned)
            rw [Function.update_of_ne same, table, Function.update_of_ne other]
            exact inv.owned j m' here
        · intro j k m' herej herek
          simp only [VfsState.dropVolume] at herej herek
          by_cases samej : j = i
          · subst samej
            rw [Function.update_self] at herej
            cases herej
          · by_cases samek : k = i
            · subst samek
              rw [Function.update_self] at herek
              cases herek
            · rw [Function.update_of_ne samej] at herej
              rw [Function.update_of_ne samek] at herek
              exact inv.unique j k m' herej herek
        · intro j here
          simp only [VfsState.dropVolume] at here ⊢
          by_cases same : j = i
          · subst same
            rw [Function.update_self] at here
            cases here
          · rw [Function.update_of_ne same] at here ⊢
            exact inv.mounted j here
      · intro inv j m' here positive
        have other : m' ≠ m := by
          rintro rfl
          exact positive unreferenced
        have same : j ≠ i := by
          rintro rfl
          rw [owned] at here
          cases here
          exact other rfl
        simp only [VfsState.dropVolume, Filesystems.generationOf, table,
          Function.update_of_ne same, Function.update_of_ne other]
        exact ⟨here, trivial, trivial⟩

/-! ### The operations -/

theorem mounted_unowned (mounted : s.mountFilesystem drivers id device driver flags = (some m, s')) :
    (s'.fs.mounts m).isSome = true ∧ (TableInv s → ∀ j, s'.mounts j ≠ some m) := by
  obtain ⟨fs', rfl, filled⟩ := mountFilesystem_cases mounted
  obtain ⟨free, mount, _, table⟩ := Filesystems.mount_cases filled
  refine ⟨by simp [table], ?_⟩
  intro inv j here
  have active := (inv.owned j m here).2.2
  rw [free] at active
  cases active

theorem enterMount_evolves {volume : VolumeInfo}
    (mounted : s.mountFilesystem drivers id device driver flags = (some m, s'))
    (valid : volume.valid = true) {i : VolumeId} (free : freeVolume s' = some i) :
    Evolves s (s'.addVolume i m volume) := by
  obtain ⟨active, unowned⟩ := mounted_unowned mounted
  have grown := mountFilesystem_evolves mounted
  refine ⟨?_, grown.handles, grown.activeFs, grown.refs, ?_⟩
  · intro inv
    exact (addVolume_evolves free valid active fun _ => unowned inv).table (grown.table inv)
  · intro inv j m' here positive
    obtain ⟨there, point, generation⟩ := grown.referenced inv j m' here positive
    obtain ⟨there', point', generation'⟩ :=
      (addVolume_evolves free valid active fun _ => unowned inv).referenced (grown.table inv) j m'
        there (by rwa [grown.refs])
    exact ⟨there', point'.trans point, generation'.trans generation⟩

theorem takeBack_evolves {s s' s'' : VfsState W C} {ok : Bool}
    (mounted : s.mountFilesystem drivers id device driver flags = (some m, s'))
    (taken : s'.unmountFilesystem drivers m = (ok, s'')) : Evolves s s'' := by
  have unowned := (mounted_unowned mounted).2
  have grown := mountFilesystem_evolves mounted
  refine ⟨?_, ?_, ?_, ?_, ?_⟩
  · intro inv
    exact (unmountFilesystem_evolves (fun _ => unowned inv) taken).table (grown.table inv)
  · obtain ⟨fs', rfl, _⟩ := unmountFilesystem_cases taken
    exact grown.handles
  · obtain ⟨fs', rfl, _⟩ := unmountFilesystem_cases taken
    exact grown.activeFs
  · intro m'
    obtain ⟨fs', rfl, freed⟩ := unmountFilesystem_cases taken
    have table := Filesystems.unmount_cases freed
    rw [← grown.refs]
    cases ok with
    | false =>
      have same : fs'.mounts = s'.fs.mounts := table
      simp only [Filesystems.refs, same]
    | true => exact refs_free table.1 table.2 m'
  · intro inv j m' here positive
    obtain ⟨there, point, generation⟩ := grown.referenced inv j m' here positive
    obtain ⟨there', point', generation'⟩ :=
      (unmountFilesystem_evolves (fun _ => unowned inv) taken).referenced (grown.table inv) j m'
        there (by rwa [grown.refs])
    exact ⟨there', point'.trans point, generation'.trans generation⟩

theorem mountVolumes_evolves (ids : List Nat) :
    ∀ s : VfsState W C, Evolves s (mountVolumes drivers ids s) := by
  induction ids with
  | nil => exact .refl
  | cons id rest ih =>
    intro s
    rw [mountVolumes]
    split
    · exact ih s
    · rename_i device _
      split
      · exact ih s
      · split
        · exact ih s
        · split
          · rename_i t probed
            exact (probe_evolves probed).trans (ih t)
          · rename_i driver t probed
            have first := probe_evolves probed
            split
            · rename_i u mounted
              exact (first.trans (mountFilesystem_evolves mounted)).trans (ih u)
            · rename_i m u mounted
              split
              · exact first.trans (takeBack_evolves mounted rfl)
              · rename_i i free
                exact (first.trans (enterMount_evolves mounted rfl free)).trans (ih _)

theorem vfsMountAllVolumes_evolves (s : VfsState W C) : Evolves s (vfsMountAllVolumes drivers s) :=
  (mountVolumes_evolves _ s).trans (selectPrimary_evolves _)

theorem vfsRescanDevices_evolves (s : VfsState W C) (devices : List Device)
    (partitions : List PartitionInfo) (world : W) :
    Evolves s (vfsRescanDevices drivers s devices partitions world) := by
  unfold vfsRescanDevices
  refine .trans ?_ (vfsMountAllVolumes_evolves _)
  exact .of_eq rfl rfl rfl rfl rfl rfl

theorem vfsMountDevice_evolves (s : VfsState W C) (name mountPoint : CString) (flags : UInt32) :
    Evolves s (vfsMountDevice drivers s name mountPoint flags).2 := by
  unfold vfsMountDevice
  split
  · exact .refl s
  · split
    · exact .refl s
    · split
      · exact .refl s
      · rename_i device _
        split
        · exact .refl s
        · split
          · rename_i t probed
            exact probe_evolves probed
          · rename_i driver t probed
            have first := probe_evolves probed
            split
            · rename_i u mounted
              exact first.trans (mountFilesystem_evolves mounted)
            · rename_i m u mounted
              split
              · exact first.trans (takeBack_evolves mounted rfl)
              · rename_i i free
                exact first.trans (enterMount_evolves mounted rfl free)

theorem vfsUnmount_evolves (s : VfsState W C) (mountPoint : CString) :
    Evolves s (vfsUnmount drivers s mountPoint).2 := by
  unfold vfsUnmount
  split
  · exact .refl s
  · split
    · exact .refl s
    · exact unmountVolume_evolves rfl

theorem vfsRemount_evolves (s : VfsState W C) (mountPoint : CString) (flags : UInt32) :
    Evolves s (vfsRemount drivers s mountPoint flags).2 := by
  unfold vfsRemount
  split
  · exact .refl s
  · split
    · exact .refl s
    · rename_i i _
      have first : Evolves s (vfsUnmount drivers s mountPoint).2 := vfsUnmount_evolves s mountPoint
      dsimp only
      split
      · rename_i t unmounted
        rw [unmounted] at first
        exact first
      · rename_i t unmounted
        rw [unmounted] at first
        have second : Evolves s
            (vfsMountDevice drivers t (s.volumes i).deviceName (s.volumes i).mountPoint flags).2 :=
          first.trans (vfsMountDevice_evolves t _ _ flags)
        split
        · rename_i u mounted
          rw [mounted] at second
          exact second
        · rename_i u refused
          rw [refused] at second
          exact second.trans (vfsMountDevice_evolves u _ _ _)

theorem lockVolume_evolves {s : VfsState W C} {slot : MountId} {mount : Mount C}
    (here : s.fs.mounts slot = some mount) (flags : UInt32) :
    Evolves s { s with
      fs := s.fs.setMount slot (some { mount with flags := flags })
      volumes := Function.update s.volumes i
        { s.volumes i with readOnly := true, noExec := true } } := by
  have volume (j : VolumeId) :
      (Function.update s.volumes i { s.volumes i with readOnly := true, noExec := true } j).valid =
        (s.volumes j).valid ∧
      (Function.update s.volumes i
        { s.volumes i with readOnly := true, noExec := true } j).mountPoint =
          (s.volumes j).mountPoint := by
    by_cases same : j = i
    · subst same
      rw [Function.update_self]
      exact ⟨rfl, rfl⟩
    · rw [Function.update_of_ne same]
      exact ⟨rfl, rfl⟩
  have entry (m : MountId) :
      (s.fs.setMount slot (some { mount with flags := flags })).refs m = s.fs.refs m ∧
      (s.fs.setMount slot (some { mount with flags := flags })).generationOf m = s.fs.generationOf m ∧
      ((s.fs.setMount slot (some { mount with flags := flags })).mounts m).isSome =
        (s.fs.mounts m).isSome := by
    simp only [Filesystems.refs, Filesystems.generationOf, Filesystems.setMount]
    by_cases same : m = slot
    · subst same
      rw [Function.update_self, here]
      exact ⟨rfl, rfl, rfl⟩
    · rw [Function.update_of_ne same]
      exact ⟨rfl, rfl, rfl⟩
  refine ⟨?_, rfl, rfl, fun m => (entry m).1, ?_⟩
  · intro inv
    refine ⟨?_, inv.unique, ?_⟩
    · intro j m owned
      obtain ⟨bound, valid, active⟩ := inv.owned j m owned
      exact ⟨bound, (volume j).1.trans valid, (entry m).2.2.trans active⟩
    · intro j valid
      exact inv.mounted j ((volume j).1.symm.trans valid)
  · intro _ j m owned _
    exact ⟨owned, (volume j).2, (entry m).2.1⟩

theorem removeVolume_evolves {s : VfsState W C} {slot : MountId} {mount : Mount C}
    (here : s.fs.mounts slot = some mount) : Evolves s (removeVolume drivers s i slot mount) := by
  have locked := lockVolume_evolves (i := i) here
    (mount.flags ||| FILESYSTEM_FLAG_READ_ONLY ||| FILESYSTEM_FLAG_NO_EXEC)
  unfold removeVolume
  dsimp only
  split
  · split
    · exact locked.trans (unmountVolume_evolves rfl)
    · exact (locked.trans (setWorld_evolves _ _)).trans (unmountVolume_evolves rfl)
  · split
    · exact locked
    · exact locked.trans (setWorld_evolves _ _)

theorem removeDevice_evolves (id : Nat) (volumes : List VolumeId) :
    ∀ s : VfsState W C, Evolves s (removeDevice drivers id volumes s) := by
  induction volumes with
  | nil => exact .refl
  | cons i rest ih =>
    intro s
    rw [removeDevice]
    split
    · split
      · exact ih s
      · split
        · exact ih s
        · rename_i slot _ mount here
          split
          · exact (removeVolume_evolves here).trans (ih _)
          · exact ih s
    · exact ih s

theorem vfsHandleDeviceRemoved_evolves (s : VfsState W C) (name : CString) :
    Evolves s (vfsHandleDeviceRemoved drivers s name) := by
  unfold vfsHandleDeviceRemoved
  split
  · exact .refl s
  · exact (removeDevice_evolves _ _ s).trans (.of_eq rfl rfl rfl rfl rfl rfl)

end AsasOs.Vfs
