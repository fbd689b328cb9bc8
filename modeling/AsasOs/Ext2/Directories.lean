import AsasOs.Ext2.Volume
import AsasOs.Lib.Components

/-!
# ext2 directories

The directories of `ext2.c`, its paths, and what the filesystem drivers call. A call that returns zero is refused here.
-/
namespace AsasOs.Ext2

open Bytes Checked Filling

def SLASH : UInt8 := 0x2F

abbrev Name := List UInt8

def lowerChar (value : UInt8) : UInt8 := if 0x41 ≤ value ∧ value ≤ 0x5A then value + 32 else value

/-- `strings_equal_ci`, of strings without their terminators. -/
def stringsEqualCi (left right : Name) : Bool := left.map lowerChar == right.map lowerChar

def cString (buffer : List UInt8) : Name := buffer.takeWhile (· != 0)

structure Entry where
  number : Nat
  name : Name
  deriving DecidableEq

/-- What is at a cursor in a chunk of a directory: nothing more, something to skip, or an entry. -/
inductive Slot where
  | last
  | skip (next : Nat)
  | entry (entry : Entry) (next : Nat)

/-- A round of the loops over a chunk, in `find_in_directory` and in `ext2_context_list_directory`. -/
def entryAt (chunk : Nat) (block : Memory) (cursor : Nat) : Run Slot :=
  if cursor + 8 ≤ chunk then do
    let number ← peek EXT2_MAX_BLOCK_SIZE block cursor 4
    let recLen ← peek EXT2_MAX_BLOCK_SIZE block (cursor + 4) 2
    let nameLen ← peek EXT2_MAX_BLOCK_SIZE block (cursor + 6) 1
    if recLen < 8 ∨ cursor + recLen > chunk then pure .last
    else if number ≠ 0 ∧ nameLen ≠ 0 ∧ nameLen ≤ EXT2_NAME_LEN ∧ 8 + nameLen ≤ recLen then do
      access EXT2_MAX_BLOCK_SIZE (cursor + 8) nameLen
      access 256 0 (nameLen + 1)
      pure (.entry ⟨number, cString (window block (cursor + 8) nameLen)⟩ (cursor + recLen))
    else pure (.skip (cursor + recLen))
  else pure .last

def chunkSize (c : Context) (directory : Inode) (offset : Nat) :
    Nat := min c.blockSize (directory.size - offset)

/-! ### Lookups -/

/-- The loop of `find_in_directory` over a chunk, from a cursor on. -/
def findBody (steps : Nat) (c : Context) (name : Name) (chunk : Nat) (block : Memory) (cursor : Nat) :
    Run (Nat ⊕ Option Inode) := do
  match ← entryAt chunk block cursor with
  | .last => pure (.inr none)
  | .skip next => pure (.inl next)
  | .entry entry next =>
    if stringsEqualCi entry.name name then do
      let inode ← readInode steps c entry.number
      pure (.inr (some inode))
    else pure (.inl next)

/-- The loop of `find_in_directory` over the chunks, from an offset on. -/
def findChunk (steps : Nat) (c : Context) (leftover : Leftover) (directory : Inode) (name : Name)
    (offset : Nat) :
    Run (Nat ⊕ Inode) :=
  if offset < directory.size then do
    let chunk := chunkSize c directory offset
    let block ← readInodeBytes steps c (leftover.under offset) directory EXT2_MAX_BLOCK_SIZE offset chunk fun _ => 0
    match ← iterate (findBody steps c name chunk block) steps 0 with
    | some inode => pure (.inr inode)
    | none => pure (.inl (offset + chunk))
  else .error .refused

def findInDirectory (steps : Nat) (c : Context) (leftover : Leftover) (directory : Inode) (name : Name) : Run Inode := do
  demand (directory.type = EXT2_S_IFDIR)
  iterate (findChunk steps c leftover directory name) steps 0

/-- `next_path_component`: a component, in a buffer of 256 bytes, and what follows it. -/
def nextPathComponent (path : Name) : Option (Name × Name) := Components.next SLASH 255 path

/-- Where `find_inode` is: the rest of the path, the inode that it has come to, and how many components it has taken. -/
structure Walk where
  cursor : Name
  current : Inode
  depth : Nat

/-- The loop of `find_inode`. -/
def walkBody (steps : Nat) (c : Context) (leftover : Leftover) (s : Walk) : Run (Walk ⊕ Inode) :=
  match nextPathComponent s.cursor with
  | none => pure (.inr s.current)
  | some (component, cursor) => do
    let next ← findInDirectory steps c (leftover.under s.depth) s.current component
    pure (.inl ⟨cursor, next, s.depth + 1⟩)

def findInode (steps : Nat) (c : Context) (leftover : Leftover) (path : Name) : Run Inode := do
  let root ← readInode steps c EXT2_ROOT_INODE
  iterate (walkBody steps c leftover) steps ⟨path, root, 0⟩

/-! ### Listings -/

/-- `EXT2_FILE_INFO` -/
structure FileInfo where
  name : Name
  isDirectory : Bool
  size : Nat
  readOnly : Bool

def fileInfo (c : Context) (name : Name) (child : Inode) : FileInfo where
  name
  isDirectory := child.type = EXT2_S_IFDIR
  size := if child.type = EXT2_S_IFDIR then 0 else child.size
  readOnly := c.readOnlyReason

/-- The loop of `ext2_context_list_directory` over a chunk: a cursor, and the entries that are listed. -/
def listBody (steps : Nat) (c : Context) (capacity chunk : Nat) (block : Memory)
    (s : Nat × List FileInfo) :
    Run ((Nat × List FileInfo) ⊕ List FileInfo) :=
  if s.2.length < capacity then do
    match ← entryAt chunk block s.1 with
    | .last => pure (.inr s.2)
    | .skip next => pure (.inl (next, s.2))
    | .entry entry next => do
      access capacity s.2.length 1
      match ← tried (readInode steps c entry.number) with
      | some child => pure (.inl (next, s.2 ++ [fileInfo c entry.name child]))
      | none => pure (.inl (next, s.2))
  else pure (.inr s.2)

/-- The loop of `ext2_context_list_directory` over the chunks: an offset, and the entries that are listed. -/
def listChunk (steps : Nat) (c : Context) (leftover : Leftover) (directory : Inode) (capacity : Nat)
    (s : Nat × List FileInfo) : Run ((Nat × List FileInfo) ⊕ List FileInfo) :=
  if s.1 < directory.size ∧ s.2.length < capacity then do
    let chunk := chunkSize c directory s.1
    match ← tried
        (readInodeBytes steps c (leftover.under s.1) directory EXT2_MAX_BLOCK_SIZE s.1 chunk fun _ => 0) with
    | none => pure (.inr s.2)
    | some block => do
      let infos ← iterate (listBody steps c capacity chunk block) steps (0, s.2)
      pure (.inl (s.1 + chunk, infos))
  else pure (.inr s.2)

/-! ### The interface -/

def ext2Probe (steps : Nat) (device : Ext2Device) : Run Unit := do
  demand (¬device.logicalBlockSize < 512 ∧ ¬device.logicalBlockSize > 4096)
  let _ ← loadSuper steps device
  pure ()

/-- `ext2_context_create`, where the heap gives memory for the context or not. -/
def ext2ContextCreate (steps : Nat) (device : Ext2Device) (allocated : Bool) : Run Context := do
  demand (allocated = true)
  loadSuper steps device

def ext2ContextExists (steps : Nat) (c : Context) (leftover : Leftover) (path : Name) : Run Unit := do
  let _ ← findInode steps c leftover path
  pure ()

def ext2ContextIsDirectory (steps : Nat) (c : Context) (leftover : Leftover) (path : Name) : Run Unit := do
  let inode ← findInode steps c leftover path
  demand (inode.type = EXT2_S_IFDIR)

def ext2ContextFileSize (steps : Nat) (c : Context) (leftover : Leftover) (path : Name) : Run Nat := do
  let inode ← findInode steps c leftover path
  demand (inode.type ≠ EXT2_S_IFDIR)
  pure inode.size

/-- `ext2_context_read_file`, into a buffer of `capacity` bytes: how many, and the buffer. -/
def ext2ContextReadFile (steps : Nat) (c : Context) (leftover : Leftover) (path : Name) (capacity : Nat)
    (buffer : Memory) : Run (Nat × Memory) := do
  let inode ← findInode steps c leftover path
  demand (inode.type = EXT2_S_IFREG)
  let bytes := min capacity inode.size
  demand (bytes ≠ 0)
  let buffer ← readInodeBytes steps c (leftover.under path.length) inode capacity 0 bytes buffer
  pure (bytes, buffer)

/-- `ext2_context_list_directory`, into a buffer of `capacity` entries. -/
def ext2ContextListDirectory (steps : Nat) (c : Context) (leftover : Leftover) (path : Name)
    (capacity : Nat) :
    Run (List FileInfo) := do
  demand (capacity ≠ 0)
  let directory ← findInode steps c leftover path
  demand (directory.type = EXT2_S_IFDIR)
  iterate (listChunk steps c (leftover.under path.length) directory capacity) steps (0, [])

end AsasOs.Ext2
