import AsasOs.ExFat.Calls

/-!
# exFAT: the calls on a disk

What the calls of `exfat.c` do to a disk whose operations may fail, with the journal of
a context. A sector is saved in the journal before it is first written; the clusters of
file contents are written past it.

## Main results

- `run_looked`: code that only looks leaves the medium and the journal as they are.
- `wp_writeSector`: what a write of one sector does.
-/
namespace AsasOs.ExFat

open Block Bytes Prog

/-! ### The journal -/

/-- A disk with the journal of a context, the newest entry first. -/
structure ExfatState (size : Nat) where
  disk : Disk size
  journal : List (Nat × List UInt8)
  transactionActive : Bool

section Journal

variable {size : Nat} (device : Device)

/-- A context between two operations. -/
def ExfatState.idle (disk : Disk size) : ExfatState size := ⟨disk, [], false⟩

def ExfatState.setDisk (s : ExfatState size) (disk : Disk size) : ExfatState size :=
  { s with disk := disk }

/-- `journal_sector`, for a sector of the volume. -/
def journalSector (lba : Nat) (s : ExfatState size) : Bool × ExfatState size :=
  if s.journal.any (·.1 == lba) then (true, s)
  else if !s.transactionActive || s.journal.length ≥ EXFAT_MAX_TRANSACTION_SECTORS then (false, s)
  else
    match s.disk.kmalloc device.logicalBlockSize with
    | (false, disk) => (false, s.setDisk disk)
    | (true, disk) =>
      match disk.read device lba 1 with
      | (none, disk) => (false, s.setDisk disk)
      | (some before, disk) => (true, { s.setDisk disk with journal := (lba, before) :: s.journal })

/-- The second half of `write_sector`. -/
def journaledWrite (lba : Nat) (sector : List UInt8) (s : ExfatState size) : Bool × ExfatState size :=
  match journalSector device lba s with
  | (false, s) => (false, s)
  | (true, s) =>
    match s.disk.write device lba 1 sector with
    | (ok, disk) => (ok, s.setDisk disk)

/-- What the calls of the code do. -/
def handle : (op : ExfatOp) → ExfatState size → op.Response × ExfatState size
  | .read lba, s =>
    match s.disk.read device lba 1 with
    | (sector, disk) => (sector, s.setDisk disk)
  | .write lba sector, s => journaledWrite device lba sector s
  | .writeDirect lba sector, s =>
    match s.disk.write device lba 1 sector with
    | (ok, disk) => (ok, s.setDisk disk)
  | .flush, s =>
    match s.disk.flush with
    | (ok, disk) => (ok, s.setDisk disk)
  | .kmalloc bytes, s =>
    match s.disk.kmalloc bytes with
    | (ok, disk) => (ok, s.setDisk disk)

end Journal

section Code

variable {size : Nat} (context : Context)

def runCode {α : Type} (code : ExfatCode α) (s : ExfatState size) : Option α × ExfatState size :=
  Prog.run (handle context.device) code.run s

end Code

/-! ### A medium on which nothing fails -/

/-- The answers of a device that holds a medium, when nothing fails. -/
def answer (device : Device) (medium : Nat → List UInt8) : (op : ExfatOp) → op.Response
  | .read lba => if requestInBounds device lba 1 then some (medium lba) else none
  | .write _ _ => true
  | .writeDirect _ _ => true
  | .flush => true
  | .kmalloc bytes => bytes != 0

theorem eval_blockDeviceRead (device : Device) (medium : Nat → List UInt8) (lba : Nat) :
    eval (answer device medium) (blockDeviceRead lba).run =
      if requestInBounds device lba 1 then some (medium lba) else none := rfl

/-! ### Code that only looks -/

variable {size : Nat} {device : Device} {s s' : ExfatState size}

/-- States that differ only in the outcomes that are used up. -/
structure Looked (s s' : ExfatState size) : Prop where
  disk : Disk.Untouched s.disk s'.disk
  journal : s'.journal = s.journal
  active : s'.transactionActive = s.transactionActive

theorem Looked.refl (s : ExfatState size) : Looked s s := ⟨.refl _, rfl, rfl⟩

theorem Looked.trans {t : ExfatState size} (first : Looked s t) (second : Looked t s') :
    Looked s s' where
  disk := first.disk.trans second.disk
  journal := second.journal.trans first.journal
  active := second.active.trans first.active

theorem handle_looked {low : Nat} (op : ExfatOp) (s : ExfatState size) (looks : Looks low op) :
    Looked s (handle device op s).2 := by
  cases op with
  | read lba => exact ⟨Disk.read_untouched device lba 1 s.disk, rfl, rfl⟩
  | kmalloc bytes => exact ⟨Disk.kmalloc_untouched bytes s.disk, rfl, rfl⟩
  | write lba sector => exact looks.elim
  | writeDirect lba sector => exact looks.elim
  | flush => exact looks.elim

theorem run_looked (device : Device) {low : Nat} {α : Type} {p : ExfatProg α}
    (looks : Uses (Looks low) p)
    (s : ExfatState size) : Looked s (run (handle device) p s).2 := by
  have step : ∀ (op : ExfatOp) (t : ExfatState size), Looks low op → Looked s t →
      Looked s (handle device op t).2 :=
    fun op t permitted looked => looked.trans (handle_looked op t permitted)
  exact run_preserves_of_uses step looks s (.refl s)

/-! ### A write of one sector -/

/-- Saving a sector in the journal changes nothing on the medium. -/
theorem journalSector_untouched (device : Device) (lba : Nat) (s : ExfatState size) :
    Disk.Untouched s.disk (journalSector device lba s).2.disk := by
  unfold journalSector
  split
  · exact .refl _
  · split
    · exact .refl _
    · have allocated := Disk.kmalloc_untouched device.logicalBlockSize s.disk
      split
      · rename_i disk refused
        rw [refused] at allocated
        exact allocated
      · rename_i disk granted
        rw [granted] at allocated
        have reads := Disk.read_untouched device lba 1 disk
        split
        · rename_i disk' unread
          rw [unread] at reads
          exact allocated.trans reads
        · rename_i saved disk' found
          rw [found] at reads
          exact allocated.trans reads

theorem journaledWrite_cases (device : Device) (lba : Nat) (sector : List UInt8)
    (s : ExfatState size) : ∃ disk, Disk.Untouched s.disk disk ∧
      ((journaledWrite device lba sector s).2.disk = disk ∧ (journaledWrite device lba sector s).1 = false ∨
        (journaledWrite device lba sector s).2.disk = (disk.write device lba 1 sector).2 ∧
          (journaledWrite device lba sector s).1 = (disk.write device lba 1 sector).1) := by
  have untouched := journalSector_untouched device lba s
  refine ⟨_, untouched, ?_⟩
  unfold journaledWrite
  split
  · rename_i t refused
    rw [refused]
    exact Or.inl ⟨rfl, rfl⟩
  · rename_i t ready
    rw [ready]
    exact Or.inr ⟨rfl, rfl⟩

theorem wp_writeSector {context : Context} {lba : Nat} {sector : List UInt8}
    {post : Option Unit → ExfatState size → Prop} :
    wp (handle device) (writeSector context lba sector) post s ↔ if lba < context.volumeLength then
        post (if (journaledWrite device lba sector s).1 then some () else none)
          (journaledWrite device lba sector s).2
      else post none s := by
  unfold writeSector
  rw [wp_guard]
  split
  · unfold attempt
    rw [wp_lift, wp_guard_last]
    change (if (journaledWrite device lba sector s).1 = true then _ else _) ↔ _
    split
    · exact Iff.rfl
    · exact Iff.rfl
  · rfl

theorem journaledWrite_stored {lba : Nat} {sector : List UInt8}
    (success : (journaledWrite device lba sector s).1 = true) :
    (journaledWrite device lba sector s).2.disk.medium =
      Function.update s.disk.medium lba (Disk.chunk size sector 0) := by
  obtain ⟨disk, untouched, ⟨_, failed⟩ | ⟨same, result⟩⟩ := journaledWrite_cases device lba sector s
  · rw [failed] at success
    cases success
  · obtain ⟨block, written, stored⟩ := Disk.write_one device lba sector disk
    rw [result] at success
    rw [same, written, stored success, untouched.medium]

/-! ### A small volume

Forty sectors with four clusters: the bitmap, the up-case table, the root directory and
an empty directory `d` in it. -/

def sectorWith (fields : List (Nat × List UInt8)) : List UInt8 :=
  fields.foldl (fun sector field => put sector field.1 field.2) (List.replicate 512 0)

def exfatName : List UInt8 := [0x45, 0x58, 0x46, 0x41, 0x54, 0x20, 0x20, 0x20]

def smallBoot : List UInt8 :=
  sectorWith [(0, [0xEB, 0x76, 0x90]), (3, exfatName), (72, [40]), (80, [24]), (84, [1]),
    (88, [25]), (92, [4]), (96, [4]), (108, [9, 0, 1]), (510, [0x55, 0xAA])]

def smallVolume : Nat → List UInt8
  | 0 | 12 => smallBoot
  | 11 | 23 => (List.replicate 128 [0x0A, 0xAD, 0x98, 0x12]).flatten
  | 24 => sectorWith [(0, 0xF8 :: List.replicate 23 0xFF)]
  | 25 => sectorWith [(0, [0x0F])]
  | 26 => sectorWith [(0, List.replicate 6 0xFF)]
  | 27 => sectorWith [(0, [0x81]), (20, [2]), (24, [1]), (32, [0x82]), (36, [0xF6, 1, 0, 8]),
      (52, [3]), (56, [6]), (64, [0x85, 2, 0x1A, 0x1D, 0x10]), (96, [0xC0, 0, 0, 1]),
      (104, [0, 2]), (116, [5]), (120, [0, 2]), (128, [0xC1, 0, 0x64])]
  | _ => List.replicate 512 0

theorem smallVolume_sized (lba : Nat) : (smallVolume lba).length = 512 := by
  unfold smallVolume
  split <;> decide +kernel

def smallDevice : Device :=
  { id := 1, name := ['d', 'i', 's', 'k', '0'], logicalBlockSize := 512, physicalBlockSize := 512
    blockCount := 40, flags := 0, target := 0, lun := 0, startLba := 0, parent := none
    ops := .driver }

def smallContext : Context :=
  { volumeLength := 40, fatOffset := 24, fatLength := 1, clusterHeapOffset := 25
    clusterCount := 4, rootCluster := 4, sectorSize := 512, sectorsPerCluster := 1
    device := smallDevice, accepted := by decide
    upcase := decodeUpcase (List.replicate 6 0xFF) 0 fun _ => 0
    bitmapFirstCluster := 2, bitmapLength := 1 }

end AsasOs.ExFat
