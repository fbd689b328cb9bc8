import AsasOs.Vfs.References

/-!
# What the VFS does to the mount table

The operations of the VFS change the table of `filesystem.c` only through its functions, and by
the flags of an entry. So what these preserve holds in every state of every run.
-/
namespace AsasOs.Vfs

open Block CString

variable {W C : Type} {drivers : Drivers W C}

/-- What the functions of `filesystem.c` preserve. -/
structure Steady (drivers : Drivers W C) (P : Filesystems W C → Prop) : Prop where
  world : ∀ fs world, P fs → P { fs with world := world }
  mount : ∀ fs id device driver flags, P fs → P (fs.mount drivers id device driver flags).2
  unmount : ∀ fs m, P fs → P (fs.unmount drivers m).2
  entry : ∀ (fs : Filesystems W C) m mount, P fs → P (fs.setMount m (some mount))

namespace Steady

variable {P : Filesystems W C → Prop} (steady : Steady drivers P)
include steady

variable {fs : Filesystems W C}

theorem acquire (holds : P fs) (m : MountId) : P (fs.acquire m).2 := by
  unfold Filesystems.acquire
  split
  · exact holds
  · exact steady.entry _ _ _ holds

theorem release (holds : P fs) (m : MountId) : P (fs.release m) := by
  unfold Filesystems.release
  split
  · exact holds
  · split
    · exact steady.entry _ _ _ holds
    · exact holds

theorem stat (holds : P fs) (m : MountId) (path : CString) : P (fs.stat drivers m path).2 := by
  unfold Filesystems.stat
  split
  · exact holds
  · exact steady.world _ _ holds

theorem read (holds : P fs) (m : MountId) (path : CString) (size : Nat) :
    P (fs.read drivers m path size).2 := by
  unfold Filesystems.read
  split
  · exact holds
  · exact steady.world _ _ holds

variable {s : VfsState W C}

theorem selectPrimary (holds : P s.fs) : P (selectPrimary drivers s).fs := by
  unfold Vfs.selectPrimary
  split
  · exact holds
  · exact steady.world _ _ holds

theorem openMount (holds : P s.fs) (path : CString) : P (openMount drivers s path).2.fs := by
  unfold Vfs.openMount
  split
  · rename_i mount relative _
    have found := steady.stat holds mount relative
    split
    · rename_i fs missing
      rw [missing] at found
      exact found
    · rename_i stat fs present
      rw [present] at found
      dsimp only
      split
      · exact found
      · have acquired := steady.acquire found mount
        split
        · rename_i fs' refused
          rw [refused] at acquired
          exact acquired
        · rename_i fs' done
          rw [done] at acquired
          exact acquired
  · dsimp only
    split
    · exact steady.world _ _ (steady.selectPrimary holds)
    · exact steady.world _ _ (steady.selectPrimary holds)

theorem vfsOpen (holds : P s.fs) (path : CString) : P (vfsOpen drivers s path).2.fs := by
  unfold Vfs.vfsOpen
  split
  · exact holds
  · have opened := steady.openMount holds path
    split
    · rename_i t missing
      rw [missing] at opened
      exact opened
    · rename_i mount t found
      rw [found] at opened
      split
      · exact opened
      · split
        · exact steady.release opened _
        · exact opened

theorem vfsRead (holds : P s.fs) (handle size : Nat) : P (vfsRead drivers s handle size).2.fs := by
  unfold Vfs.vfsRead
  split
  · rename_i k _
    unfold vfsReadDisk
    dsimp only
    split
    · exact holds
    · split
      · exact steady.read holds _ _ _
      · exact steady.world _ _ (steady.selectPrimary holds)
  · split
    · exact holds
    · exact holds

theorem vfsClose (holds : P s.fs) (handle : Nat) : P (vfsClose s handle).2.fs := by
  unfold Vfs.vfsClose
  split
  · exact holds
  · split
    · unfold closeHandle
      split
      · exact steady.release holds _
      · exact holds
    · exact holds

theorem mountFilesystem (holds : P s.fs) (id : Nat) (device : Device) (driver : DriverId)
    (flags : UInt32) :
    P (s.mountFilesystem drivers id device driver flags).2.fs := steady.mount _ _ _ _ _ holds

theorem mountVolumes (ids : List Nat) : ∀ {s : VfsState W C}, P s.fs →
    P (mountVolumes drivers ids s).fs := by
  induction ids with
  | nil => exact fun holds => holds
  | cons id rest ih =>
    intro s holds
    rw [Vfs.mountVolumes]
    split
    · exact ih holds
    · rename_i device _
      split
      · exact ih holds
      · split
        · exact ih holds
        · have probed : P (s.probe drivers device).2.fs := steady.world _ _ holds
          split
          · rename_i t missing
            rw [missing] at probed
            exact ih probed
          · rename_i driver t found
            rw [found] at probed
            have mounted := steady.mountFilesystem probed id device driver 0
            split
            · rename_i u refused
              rw [refused] at mounted
              exact ih mounted
            · rename_i m u done
              rw [done] at mounted
              split
              · exact steady.unmount _ _ mounted
              · exact ih mounted

theorem vfsMountAllVolumes (holds : P s.fs) : P (vfsMountAllVolumes drivers s).fs :=
  steady.selectPrimary (steady.mountVolumes _ holds)

theorem vfsMountDevice (holds : P s.fs) (name point : CString) (flags : UInt32) :
    P (vfsMountDevice drivers s name point flags).2.fs := by
  unfold Vfs.vfsMountDevice
  split
  · exact holds
  · split
    · exact holds
    · rename_i id _
      split
      · exact holds
      · rename_i device _
        split
        · exact holds
        · have probed : P (s.probe drivers device).2.fs := steady.world _ _ holds
          split
          · rename_i t missing
            rw [missing] at probed
            exact probed
          · rename_i driver t found
            rw [found] at probed
            have mounted := steady.mountFilesystem probed id device driver flags
            split
            · rename_i u refused
              rw [refused] at mounted
              exact mounted
            · rename_i m u done
              rw [done] at mounted
              split
              · exact steady.unmount _ _ mounted
              · exact mounted

theorem unmountVolume (holds : P s.fs) (i : VolumeId) : P (unmountVolume drivers s i).2.fs := by
  unfold Vfs.unmountVolume
  split
  · exact holds
  · rename_i m _
    have unmounted : P (s.unmountFilesystem drivers m).2.fs := steady.unmount _ _ holds
    split
    · rename_i t refused
      rw [refused] at unmounted
      exact unmounted
    · rename_i t done
      rw [done] at unmounted
      exact unmounted

theorem vfsUnmount (holds : P s.fs) (point : CString) : P (vfsUnmount drivers s point).2.fs := by
  unfold Vfs.vfsUnmount
  split
  · exact holds
  · split
    · exact holds
    · exact steady.unmountVolume holds _

theorem vfsRemount (holds : P s.fs) (point : CString) (flags : UInt32) :
    P (vfsRemount drivers s point flags).2.fs := by
  unfold Vfs.vfsRemount
  split
  · exact holds
  · split
    · exact holds
    · rename_i i _
      have unmounted := steady.vfsUnmount holds point
      dsimp only
      split
      · rename_i t refused
        rw [refused] at unmounted
        exact unmounted
      · rename_i t done
        rw [done] at unmounted
        have mounted := steady.vfsMountDevice unmounted (s.volumes i).deviceName (s.volumes i).mountPoint flags
        split
        · rename_i u again
          rw [again] at mounted
          exact mounted
        · rename_i u refused
          rw [refused] at mounted
          exact steady.vfsMountDevice mounted _ _ _

theorem removeVolume (holds : P s.fs) (i : VolumeId) (m : MountId) (mount : Mount C) :
    P (removeVolume drivers s i m mount).fs := by
  have locked := steady.entry s.fs m
    { mount with flags := mount.flags ||| FILESYSTEM_FLAG_READ_ONLY ||| FILESYSTEM_FLAG_NO_EXEC } holds
  unfold Vfs.removeVolume
  dsimp only
  split
  · split
    · exact steady.unmountVolume locked _
    · refine steady.unmountVolume ?_ i
      exact steady.world _ _ locked
  · split
    · exact locked
    · exact steady.world _ _ locked

theorem vfsHandleDeviceRemoved (holds : P s.fs) (name : CString) :
    P (vfsHandleDeviceRemoved drivers s name).fs := by
  have removed : ∀ id (volumes : List VolumeId) {s : VfsState W C}, P s.fs → P (removeDevice drivers id volumes s).fs := by
    intro id volumes
    induction volumes with
    | nil => exact fun holds => holds
    | cons i rest ih =>
      intro s holds
      rw [removeDevice]
      split
      · split
        · exact ih holds
        · split
          · exact ih holds
          · split
            · exact ih (steady.removeVolume holds _ _ _)
            · exact ih holds
      · exact ih holds
  unfold Vfs.vfsHandleDeviceRemoved
  split
  · exact holds
  · exact removed _ _ holds

theorem step {run : Run W C} (holds : P run.vfs.fs) (op : VfsOp W) :
    P (vfsStep drivers run op).vfs.fs := by
  cases op with
  | openFile path =>
    have opened := steady.vfsOpen holds path
    simp only [vfsStep]
    split
    · exact opened
    · exact opened
  | read handle size => exact steady.vfsRead holds handle size
  | close handle => exact steady.vfsClose holds handle
  | mountDevice name point flags => exact steady.vfsMountDevice holds name point flags
  | rescan devices partitions world => exact steady.vfsMountAllVolumes (steady.world _ _ holds)
  | unmount point => exact steady.vfsUnmount holds point
  | remount point flags => exact steady.vfsRemount holds point flags
  | removeDevice name => exact steady.vfsHandleDeviceRemoved holds name
  | external world => exact steady.world _ _ holds

theorem runs (devices : List Device) (partitions : List PartitionInfo) (world : W)
    (empty : P (Filesystems.filesystemInitialize world)) (ops : List (VfsOp W)) :
    P (runOps drivers (initialRun drivers devices partitions world) ops).vfs.fs := by
  refine runOps_preserves (P := fun run => P run.vfs.fs) (fun run op holds => steady.step holds op) ops _ ?_
  have mounted : P (Vfs.vfsMountAllVolumes drivers (VfsState.reset devices partitions world)).fs :=
    steady.vfsMountAllVolumes empty
  unfold initialRun vfsInitialize
  dsimp only
  split
  · exact mounted
  · exact steady.world _ _ mounted

end Steady

theorem mountCount_steady : Steady drivers fun fs => fs.mountCount ≤ FILESYSTEM_MAX_MOUNTS := by
  refine ⟨fun _ _ holds => holds, fun fs id device driver flags holds => ?_, fun fs m holds => ?_, fun _ _ _ holds => holds⟩
  · unfold Filesystems.mount
    split
    · exact holds
    · rename_i room
      split
      · exact holds
      · dsimp only
        split
        · exact holds
        · exact Nat.lt_of_not_ge room
  · unfold Filesystems.unmount
    split
    · exact holds
    · split
      · exact holds
      · split
        · exact holds
        · exact (Nat.sub_le _ _).trans holds

end AsasOs.Vfs
