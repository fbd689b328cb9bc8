import AsasOs.Block.Device
import AsasOs.Lib.Bytes
import AsasOs.Lib.Prog

/-!
# Virtual disks

`virtual_disk.c`: a file is attached as a block device. A read takes its blocks out of the
whole file, a write reads the whole file, replaces the blocks and writes it back, and a flush
of a fixed VHD computes the checksum of its footer anew. The file system below is what it is
called for: files that are read and written as a whole, by calls that may fail.
-/
namespace AsasOs.VirtualDisk

open Block Bytes CString

def VDISK_SECTOR_SIZE : Nat := 512
def VDISK_MAX_COUNT : Nat := 8
def VDISK_FLAG_READ_ONLY : UInt32 := 0x01

/-! ### Files -/

/-- A call of the file system or of the heap. A handle stands for the path that was opened. -/
inductive FileOp where
  | fileSize (path : CString)
  | kmalloc (size : Nat)
  | openFile (path : CString)
  | read (handle : CString) (size : Nat)
  | close (handle : CString)
  | writeFile (path : CString) (data : List UInt8)

abbrev FileOp.Response : FileOp → Type
  | .fileSize _ => Nat
  | .kmalloc _ => Bool
  | .openFile _ => Option CString
  | .read _ _ => List UInt8
  | .close _ => Unit
  | .writeFile _ _ => Bool

abbrev FileProg := Prog FileOp FileOp.Response
abbrev FileCode := Prog.Fallible FileOp FileOp.Response

def vfsFileSize (path : CString) : FileProg Nat := Prog.perform (FileOp.fileSize path)

def kmalloc (size : Nat) : FileProg Bool := Prog.perform (FileOp.kmalloc size)

def vfsOpen (path : CString) : FileCode CString := OptionT.mk (Prog.perform (FileOp.openFile path))

def vfsRead (handle : CString) (size : Nat) : FileProg (List UInt8) :=
  Prog.perform (FileOp.read handle size)

def vfsClose (handle : CString) : FileProg Unit := Prog.perform (FileOp.close handle)

def vfsWriteFile (path : CString) (data : List UInt8) : FileProg Bool :=
  Prog.perform (FileOp.writeFile path data)

/-- The bytes of a file, whose number fits 64 bits. -/
abbrev File := {bytes : List UInt8 // bytes.length < 2 ^ 64}

/-- How a call ends: a read that fails has transferred some bytes. -/
structure FileOutcome where
  fails : Bool
  transferred : Nat

/-- A faithful file system: its files, and the outcomes of the calls to come. -/
structure Files where
  contents : CString → Option File
  outcomes : List FileOutcome

namespace Files

def nextOutcome (files : Files) : FileOutcome × Files :=
  match files.outcomes with
  | [] => (⟨false, 0⟩, files)
  | outcome :: rest => (outcome, { files with outcomes := rest })

/-- The bytes behind a path, none where there is no file. -/
def bytes (files : Files) (path : CString) : List UInt8 :=
  match files.contents path with
  | none => []
  | some file => file.1

def store (files : Files) (path : CString) (file : File) : Files :=
  { files with contents := Function.update files.contents path (some file) }

def handle : (op : FileOp) → Files → op.Response × Files
  | .fileSize path, files =>
    match files.nextOutcome with
    | (outcome, files) => (if outcome.fails then 0 else (files.bytes path).length, files)
  | .kmalloc size, files =>
    match files.nextOutcome with
    | (outcome, files) => (size != 0 && !outcome.fails, files)
  | .openFile path, files =>
    match files.nextOutcome with
    | (outcome, files) =>
      (if outcome.fails || (files.contents path).isNone then none else some path, files)
  | .read path size, files =>
    match files.nextOutcome with
    | (outcome, files) =>
      ((files.bytes path).take (if outcome.fails then min outcome.transferred size else size), files)
  | .close _, files => ((), files)
  | .writeFile path data, files =>
    match files.nextOutcome with
    | (outcome, files) =>
      if fits : data.length < 2 ^ 64 then
        if outcome.fails then (false, files) else (true, files.store path ⟨data, fits⟩)
      else (false, files)

end Files

/-! ### Images -/

/-- `ASAS_VDISK_INFO`, with the registry index of the device. -/
structure VdiskInfo where
  active : Bool
  readOnly : Bool
  name : CString
  format : CString
  path : CString
  size : Nat
  fileSize : Nat
  device : Option Nat

/-- A whole file, read into a buffer of the heap. -/
def readImage (path : CString) (imageSize : Nat) : FileCode (List UInt8) := do
  let allocated ← kmalloc imageSize
  guard allocated
  let handle ← vfsOpen path
  let image ← vfsRead handle imageSize
  vfsClose handle
  guard (¬image.length < imageSize)
  return image

/-- `image_read_all`: the image and its size. -/
def imageReadAll (path : CString) : FileCode (List UInt8 × Nat) := do
  let imageSize ← vfsFileSize path
  guard (imageSize ≠ 0)
  let image ← readImage path imageSize
  return (image, imageSize)

/-- The sum of the bytes that count, in 32 bits. -/
def footerSum (counts : Nat → Bool) (footer : List UInt8) : Nat :=
  (List.range VDISK_SECTOR_SIZE).foldl
    (fun sum index => if counts index then (sum + (byteAt footer index).toNat) % 2 ^ 32 else sum) 0

/-- "conectix". -/
def vhdCookie : List UInt8 := [0x63, 0x6F, 0x6E, 0x65, 0x63, 0x74, 0x69, 0x78]

/-- `validate_fixed_vhd_footer`: the size of the data. -/
def validateFixedVhdFooter (footer : List UInt8) (fileSize : Nat) : Option Nat :=
  if fileSize ≤ VDISK_SECTOR_SIZE then none
  else if slice footer 0 8 ≠ vhdCookie then none
  else if getBE footer 60 4 ≠ 2 then none
  else if 2 ^ 32 - 1 - footerSum (fun index => !(index ≥ 64 && index < 68)) footer ≠
      getBE footer 64 4 then none
  else
    let currentSize := getBE footer 48 8
    if currentSize = 0 ∨ (currentSize + VDISK_SECTOR_SIZE) % 2 ^ 64 ≠ fileSize ∨
        currentSize % VDISK_SECTOR_SIZE ≠ 0 then none
    else some currentSize

/-- The footer of a file, its last sector. -/
def footerOf (image : List UInt8) (fileSize : Nat) : List UInt8 :=
  slice image (fileSize - VDISK_SECTOR_SIZE) VDISK_SECTOR_SIZE

/-- The footer with its checksum computed anew. -/
def rewrittenFooter (footer : List UInt8) : List UInt8 :=
  let cleared := put footer 64 [0, 0, 0, 0]
  putBE cleared 64 4 (2 ^ 32 - 1 - footerSum (fun _ => true) cleared)

def rewriteFixedVhdFooter (path : CString) : FileCode Unit := do
  let (image, fileSize) ← imageReadAll path
  let footer := footerOf image fileSize
  guard (validateFixedVhdFooter footer fileSize ≠ none)
  let stored ← vfsWriteFile path
    (put image (fileSize - VDISK_SECTOR_SIZE) (rewrittenFooter footer))
  guard stored

/-! ### The operations of the device -/

/-- The place of a request in the image. The product of the block number wraps. -/
def requestPlace (slot : VdiskInfo) (imageSize lba count : Nat) : Option (Nat × Nat) :=
  let offset := lba * VDISK_SECTOR_SIZE % 2 ^ 64
  let length := count * VDISK_SECTOR_SIZE
  if imageSize = 0 ∨ imageSize ≠ slot.fileSize ∨ offset > slot.size ∨ length > slot.size - offset then
    none
  else some (offset, length)

def rawReadBlocks (slot : VdiskInfo) (lba count : Nat) : FileCode (List UInt8) := do
  guard slot.active
  let imageSize ← vfsFileSize slot.path
  let (offset, length) ← Prog.ofOption (requestPlace slot imageSize lba count)
  let image ← readImage slot.path imageSize
  return slice image offset length

def rawWriteBlocks (slot : VdiskInfo) (lba count : Nat) (buffer : Buffer) : FileCode Unit := do
  guard (slot.active ∧ ¬slot.readOnly)
  let imageSize ← vfsFileSize slot.path
  let (offset, length) ← Prog.ofOption (requestPlace slot imageSize lba count)
  let image ← readImage slot.path imageSize
  let stored ← vfsWriteFile slot.path (put image offset (buffer.block 0 length))
  guard stored

def rawFlush (slot : VdiskInfo) : FileCode Unit := do
  guard slot.active
  if slot.format = "vhd-fixed".toList ∧ ¬slot.readOnly then rewriteFixedVhdFooter slot.path
  else return ()

/-! ### Attaching -/

abbrev Vdisks := Fin VDISK_MAX_COUNT → VdiskInfo

/-- The state of `virtual_disk.c` and of `block_device.c`. -/
structure Attachments where
  layer : BlockLayer
  vdisks : Vdisks

/-- `attach_virtual_disk`: the registry index of the new device and its slot. -/
def attachVirtualDisk (s : Attachments) (path : CString) (flags : UInt32) (format : CString)
    (dataSize fileSize : Nat) : Attachments × Option (Nat × Fin VDISK_MAX_COUNT) :=
  if path = [] ∨ dataSize = 0 ∨ fileSize = 0 ∨ dataSize % VDISK_SECTOR_SIZE ≠ 0 then (s, none)
  else if (List.finRange VDISK_MAX_COUNT).any
      fun i => (s.vdisks i).active && (s.vdisks i).path == path then (s, none)
  else
    match (List.finRange VDISK_MAX_COUNT).find? fun i => !(s.vdisks i).active with
    | none => (s, none)
    | some index =>
      let info : VdiskInfo :=
        { active := true
          readOnly := flags &&& VDISK_FLAG_READ_ONLY != 0
          name := "vdisk".toList ++ [Char.ofNat (0x30 + index)]
          format := copyString format 12
          path := copyString path 256
          size := dataSize
          fileSize := fileSize
          device := none }
      let description : Device :=
        { id := 0
          name := info.name
          logicalBlockSize := VDISK_SECTOR_SIZE
          physicalBlockSize := VDISK_SECTOR_SIZE
          blockCount := dataSize / VDISK_SECTOR_SIZE
          flags := if info.readOnly then BLOCK_DEVICE_FLAG_READ_ONLY else 0
          target := 0
          lun := 0
          startLba := 0
          parent := none
          ops := .driver }
      match blockDeviceRegister s.layer description with
      | (layer, some id) =>
        (⟨layer, Function.update s.vdisks index { info with device := some id }⟩, some (id, index))
      | (layer, none) =>
        (⟨layer, Function.update s.vdisks index { info with active := false }⟩, none)

def virtualDiskAttachRaw (s : Attachments) (path : CString) (flags : UInt32) :
    FileProg (Attachments × Option (Nat × Fin VDISK_MAX_COUNT)) := do
  if path = [] then return (s, none)
  let size ← vfsFileSize path
  return attachVirtualDisk s path flags "raw".toList size size

def fixedVhdSizes (path : CString) : FileCode (Nat × Nat) := do
  let fileSize ← vfsFileSize path
  guard (¬fileSize ≤ VDISK_SECTOR_SIZE)
  let image ← readImage path fileSize
  let dataSize ← Prog.ofOption (validateFixedVhdFooter (footerOf image fileSize) fileSize)
  return (dataSize, fileSize)

def virtualDiskAttachFixedVhd (s : Attachments) (path : CString) (flags : UInt32) :
    FileProg (Attachments × Option (Nat × Fin VDISK_MAX_COUNT)) := do
  if path = [] then return (s, none)
  match ← (fixedVhdSizes path).run with
  | none => return (s, none)
  | some (dataSize, fileSize) =>
    return attachVirtualDisk s path flags "vhd-fixed".toList dataSize fileSize

def validateQcow2Image (image : List UInt8) (size : Nat) : Bool :=
  let version := getBE image 4 4
  let backingOffset := getBE image 8 8
  let backingSize := getBE image 16 4
  let clusterBits := getBE image 20 4
  let l1Size := getBE image 36 4
  let l1Offset := getBE image 40 8
  let refcountOffset := getBE image 48 8
  let refcountClusters := getBE image 56 4
  !(size < 104) && slice image 0 4 == [0x51, 0x46, 0x49, 0xFB] &&
  !(version < 2 || version > 3) && !(clusterBits < 9 || clusterBits > 21) &&
  !(l1Size == 0 || l1Offset == 0 || refcountOffset == 0 || refcountClusters == 0) &&
  !(l1Offset ≥ size || refcountOffset ≥ size) &&
  !(backingOffset != 0 && (backingOffset ≥ size || backingSize == 0 ||
    (backingOffset + backingSize) % 2 ^ 64 > size))

def validateVhdxImage (image : List UInt8) (size : Nat) : Bool :=
  let found (offset : Nat) (signature : List UInt8) : Bool :=
    offset + 4 ≤ size && slice image offset 4 == signature
  !(size < 4 * 1024 * 1024) &&
  slice image 0 8 == [0x76, 0x68, 0x64, 0x78, 0x66, 0x69, 0x6C, 0x65] &&
  [64 * 1024, 128 * 1024].any (found · [0x68, 0x65, 0x61, 0x64]) &&
  [192 * 1024, 256 * 1024].any (found · [0x72, 0x65, 0x67, 0x69])

def lowerChar (value : Char) : Char :=
  if 'A' ≤ value ∧ value ≤ 'Z' then Char.ofNat (value.toNat - 0x41 + 0x61) else value

/-- `has_suffix`, for a suffix that is not empty. -/
def hasSuffix (name suffix : CString) : Bool :=
  suffix.length ≤ name.length &&
    (name.drop (name.length - suffix.length)).map lowerChar == suffix.map lowerChar

def virtualDiskAttachAuto (s : Attachments) (path : CString) (flags : UInt32) :
    FileProg (Attachments × Option (Nat × Fin VDISK_MAX_COUNT)) := do
  if path = [] then return (s, none)
  let size ← vfsFileSize path
  if size = 0 then return (s, none)
  match ← (imageReadAll path).run with
  | none => return (s, none)
  | some (image, imageSize) =>
    if imageSize > VDISK_SECTOR_SIZE ∧
        validateFixedVhdFooter (footerOf image imageSize) imageSize ≠ none then
      virtualDiskAttachFixedVhd s path flags
    else if validateQcow2Image image imageSize || validateVhdxImage image imageSize then
      return (s, none)
    else if hasSuffix path ".qcow2".toList || hasSuffix path ".vhdx".toList then return (s, none)
    else virtualDiskAttachRaw s path flags

/-- The three ways to attach an image. -/
inductive AttachKind where
  | auto
  | raw
  | fixedVhd

def virtualDiskAttach (kind : AttachKind) (s : Attachments) (path : CString) (flags : UInt32) :
    FileProg (Attachments × Option (Nat × Fin VDISK_MAX_COUNT)) :=
  match kind with
  | .auto => virtualDiskAttachAuto s path flags
  | .raw => virtualDiskAttachRaw s path flags
  | .fixedVhd => virtualDiskAttachFixedVhd s path flags

/-- The size of the buffers in which the shell, the only caller that passes long paths on, makes a path. -/
def SHELL_PATH_CAPACITY : Nat := 256

/-! ### Requests of the block layer

What `block_device.c` passes on to the driver: `raw_read_with_retry` and
`raw_write_with_retry`, behind `request_in_bounds`. Its reads ask for one block at a time, its
writes for all of a request. -/

/-- A call of the driver, again while it fails. -/
def withRetry {α : Type} (call : FileCode α) : Nat → FileCode α
  | 0 => failure
  | attempts + 1 => call <|> withRetry call attempts

def requestRead (device : Device) (slot : VdiskInfo) (lba count : Nat) : FileCode (List UInt8) := do
  guard (requestInBounds device lba count)
  withRetry (rawReadBlocks slot lba count) (retryBudget device + 1)

def requestWrite (device : Device) (slot : VdiskInfo) (lba count : Nat) (buffer : Buffer) :
    FileCode Unit := do
  guard (requestInBounds device lba count ∧ device.hasFlag BLOCK_DEVICE_FLAG_READ_ONLY = false)
  withRetry (rawWriteBlocks slot lba count buffer) (retryBudget device + 1)

end AsasOs.VirtualDisk
