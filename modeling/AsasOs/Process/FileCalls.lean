import AsasOs.Lib.Footprint
import AsasOs.Vfs.Volumes
import Mathlib.Data.FinEnum

/-!
# What the file calls read and store

`vfs_open` and `vfs_read` of `vfs.c` with the user memory that they touch. A path is read
byte by byte: by the comparisons of `vfs_open`, by the routing to a volume, by the driver
that looks the path up, and by the copy into the handle. A read of a file stores its bytes
piece by piece. What the drivers find on their volumes is a parameter: the lookups of a
path's components, and the pieces in which a file is read.

## Main results

- `vfsOpen_cases`: when `vfs_open` reads no byte of its path but the first.
- `vfsRead_stored`: `vfs_read` stores at most as many bytes as it was asked for.
-/
namespace AsasOs.Process

open Footprint Vfs

/-- The bytes of a path, from the pointer on. -/
abbrev Path := Nat → UInt8

abbrev PathCode := Reads Nat

def slash : UInt8 := 0x2F

/-- After as many bytes, every address has been read; a string without an end makes the
code go around for ever. -/
def stringSteps : Nat := 2 ^ 64

/-- What a lookup finds: whether it is a directory, and whether it is empty. -/
structure Found where
  directory : Bool
  empty : Bool

/-- What a driver finds for the components of a path so far. Without a component that is
the root, when it can be read. -/
abbrev Lookups := List (List Nat) → Option Found

section Code

variable (path : Path)

def peek (offset : Nat) : PathCode UInt8 := ⟨path offset, [offset]⟩

/-! ### Comparing and copying -/

/-- The loop of `strings_equal` and `paths_equal`, which fold the letters first. -/
def sameText (fold : UInt8 → UInt8) : List UInt8 → Nat → PathCode Bool
  | [], i => do return (← peek path i) == 0
  | c :: rest, i => do
    if fold (← peek path i) = fold c then sameText fold rest (i + 1) else return false

/-- `to_lower`. -/
def toLower (value : UInt8) : UInt8 := if 0x41 ≤ value ∧ value ≤ 0x5A then value + 0x20 else value

def stringsEqual (text : List UInt8) : PathCode Bool := sameText path id text 0

def pathsEqual (text : List UInt8) : PathCode Bool := sameText path toLower text 0

/-- `path_has_prefix`, from an offset on. -/
def pathStarts : List UInt8 → Nat → PathCode Bool
  | [], i => do
    let c ← peek path i
    return c == 0 || c == slash
  | c :: rest, i => do
    if (← peek path i) = c then pathStarts rest (i + 1) else return false

/-- `copy_string`, with room for so many bytes and the terminator. -/
def copyPath : Nat → Nat → PathCode Unit
  | 0, _ => return ()
  | room + 1, i => do
    if (← peek path i) = 0 then return () else copyPath room (i + 1)

/-- `while (*p == '/') p++`. -/
def skipSlashes : Nat → Nat → PathCode Nat
  | 0, p => return p
  | steps + 1, p => do
    if (← peek path p) = slash then skipSlashes steps (p + 1) else return p

/-- The bytes of a path up to its end or a slash, at most `limit` of them. -/
def component (limit : Nat) : Nat → Nat → List Nat → PathCode (List Nat × Nat)
  | 0, p, name => return (name, p)
  | steps + 1, p, name => do
    let c ← peek path p
    if c = 0 ∨ c = slash ∨ limit ≤ name.length then return (name, p)
    else component limit steps (p + 1) (name ++ [c.toNat])

/-! ### The lookups of the drivers -/

section Resolving

variable (find : Lookups)

/-- The loop of `fat32_resolve`. -/
def fat32Components : Nat → List (List Nat) → Nat → PathCode (Option Found)
  | 0, _, _ => return none
  | steps + 1, before, p => do
    let (name, p) ← component path 255 stringSteps p []
    let c ← peek path p
    if c ≠ 0 ∧ c ≠ slash then return none
    else
      let p ← skipSlashes path stringSteps p
      match find (before ++ [name]) with
      | none => return none
      | some found =>
        if (← peek path p) = 0 then return some found
        else if found.directory then fat32Components steps (before ++ [name]) p
        else return none

def fat32Resolve (p : Nat) : PathCode (Option Found) := do
  let p ← skipSlashes path stringSteps p
  if (← peek path p) = 0 then return some ⟨true, false⟩
  else fat32Components path find stringSteps [] p

/-- The loop of `ntfs_resolve`. A longer name is looked up in parts. -/
def ntfsComponents : Nat → List (List Nat) → Nat → PathCode (Option Found)
  | 0, _, _ => return none
  | steps + 1, before, p => do
    let (name, p) ← component path 255 stringSteps p []
    let p ← skipSlashes path stringSteps p
    match find (before ++ [name]) with
    | none => return none
    | some found =>
      if (← peek path p) = 0 then return some found
      else if found.directory then ntfsComponents steps (before ++ [name]) p
      else return none

def ntfsResolve (p : Nat) : PathCode (Option Found) := do
  let p ← skipSlashes path stringSteps p
  if (← peek path p) = 0 then return find []
  else
    match find [] with
    | none => return none
    | some _ => ntfsComponents path find stringSteps [] p

/-- The loop of `utf8_component`: the UTF-16 units of a component. -/
def utf8Units : Nat → Nat → List Nat → PathCode (Option (List Nat × Nat))
  | 0, _, _ => return none
  | steps + 1, p, name => do
    let c ← peek path p
    if c = 0 ∨ c = slash then return if name = [] then none else some (name, p)
    else if c < 0x80 then
      if 255 ≤ name.length then return none else utf8Units steps (p + 1) (name ++ [c.toNat])
    else if c &&& 0xE0 = 0xC0 then
      let d ← peek path (p + 1)
      let code := (c &&& 0x1F).toNat * 64 + (d &&& 0x3F).toNat
      if d &&& 0xC0 ≠ 0x80 ∨ code < 0x80 ∨ 255 ≤ name.length then return none
      else utf8Units steps (p + 2) (name ++ [code])
    else if c &&& 0xF0 = 0xE0 then
      let d ← peek path (p + 1)
      if d &&& 0xC0 ≠ 0x80 then return none
      else
        let e ← peek path (p + 2)
        let code := (c &&& 0x0F).toNat * 4096 + (d &&& 0x3F).toNat * 64 + (e &&& 0x3F).toNat
        if e &&& 0xC0 ≠ 0x80 ∨ code < 0x800 ∨ 0xD800 ≤ code ∧ code ≤ 0xDFFF ∨ 255 ≤ name.length then
          return none
        else utf8Units steps (p + 3) (name ++ [code])
    else return none

/-- The loop of `resolve_path` of `exfat.c`. -/
def exfatComponents : Nat → List (List Nat) → Found → Nat → PathCode (Option Found)
  | 0, _, _, _ => return none
  | steps + 1, before, current, p => do
    if (← peek path p) = 0 then return some current
    else if !current.directory then return none
    else
      let p ← skipSlashes path stringSteps p
      match ← utf8Units path stringSteps p [] with
      | none => return none
      | some (name, p) =>
        match find (before ++ [name]) with
        | none => return none
        | some found =>
          let p ← skipSlashes path stringSteps p
          exfatComponents steps (before ++ [name]) found p

def exfatResolve (p : Nat) : PathCode (Option Found) := do
  let p ← skipSlashes path stringSteps p
  if (← peek path p) = 0 then return some ⟨true, false⟩
  else exfatComponents path find stringSteps [] ⟨true, false⟩ p

/-- `next_path_component` of `iso9660.c`, `udf.c` and `ext2.c`. -/
def nextPathComponent (p : Nat) : PathCode (Option (List Nat) × Nat) := do
  let p ← skipSlashes path stringSteps p
  if (← peek path p) = 0 then return (none, p)
  else
    let (name, p) ← component path stringSteps stringSteps p []
    return (some (name.take 255), p)

/-- The loop of `find_record`, `find_node` and `find_inode`. -/
def descend : Nat → List (List Nat) → Found → Nat → PathCode (Option Found)
  | 0, _, _, _ => return none
  | steps + 1, before, current, p => do
    match ← nextPathComponent path p with
    | (none, _) => return some current
    | (some name, p) =>
      match find (before ++ [name]) with
      | none => return none
      | some found => descend steps (before ++ [name]) found p

def findFromRoot (p : Nat) : PathCode (Option Found) :=
  match find [] with
  | none => return none
  | some root => descend path find stringSteps [] root p

/-- The loop of `resolve_path` of `fat16.c`, behind a slash. -/
def fat16Components : Nat → List (List Nat) → Nat → PathCode (Option Found)
  | 0, _, _ => return none
  | steps + 1, before, p => do
    if (← peek path p) = 0 then return none
    else
      let (name, p) ← component path stringSteps stringSteps p []
      match find (before ++ [name]) with
      | none => return none
      | some found =>
        if (← peek path p) ≠ slash then return some found
        else if !found.directory then return none
        else if (← peek path (p + 1)) = 0 then return some found
        else fat16Components steps (before ++ [name]) (p + 1)

def fat16Resolve : PathCode (Option Found) := do
  if (← peek path 0) ≠ slash then return none
  else fat16Components path find stringSteps [] 1

end Resolving

end Code

/-! ### Opening -/

/-- A mounted filesystem: what its driver finds at the first, second and later times that
a path is looked up. -/
structure MountView where
  active : Bool
  driver : DriverId
  answers : Nat → Lookups

/-- An entry of the volume table. The mount points of its valid entries begin with a
slash: `vfs_mount_device` checks that, and the automatic ones do. -/
structure VolumeEntry where
  valid : Bool
  mountPoint : List UInt8
  mount : Option MountView
  rooted : valid = true → ∃ rest, mountPoint = slash :: rest

/-- A file of the boot loader, under an absolute path. -/
structure BootNode where
  path : List UInt8
  size : Nat
  rooted : ∃ rest, path = slash :: rest

/-- The files that the single-volume code serves when no volume is mounted. -/
structure LegacyView where
  activeFs : FsType
  initialized : Bool
  answers : Nat → Lookups

def VFS_BOOT_HANDLE_BASE : Nat := 100

/-- "/welcome.txt". -/
def welcomeName : List UInt8 :=
  [0x2F, 0x77, 0x65, 0x6C, 0x63, 0x6F, 0x6D, 0x65, 0x2E, 0x74, 0x78, 0x74]

/-- "/system". -/
def systemName : List UInt8 := [0x2F, 0x73, 0x79, 0x73, 0x74, 0x65, 0x6D]

/-- "/disk". -/
def diskName : List UInt8 := [0x2F, 0x64, 0x69, 0x73, 0x6B]

section Open

variable (path : Path)

/-- The path on a volume: the constant "/", or the rest of the caller's path. -/
inductive Relative where
  | root
  | rest (offset : Nat)

/-- The rest of a path behind a mount point of so many bytes. -/
def relativeTo (length : Nat) : PathCode Relative := do
  if (← peek path length) = 0 then return .root else return .rest length

/-- The loop of `vfs_select_volume_for_path`. -/
def bestEntry : List VolumeEntry → Option VolumeEntry → PathCode (Option VolumeEntry)
  | [], best => return best
  | entry :: rest, best => do
    if !entry.valid ∨ entry.mountPoint.length ≤ (best.map (·.mountPoint.length)).getD 0 then
      bestEntry rest best
    else if ← pathStarts path entry.mountPoint 0 then bestEntry rest (some entry)
    else bestEntry rest best

/-- The text is at the beginning of the path. -/
def begins : List UInt8 → Nat → PathCode Bool
  | [], _ => return true
  | c :: rest, i => do
    if (← peek path i) = c then begins rest (i + 1) else return false

/-- The number in `/disk0` to `/disk7`. -/
def diskNumber : PathCode (Option Nat) := do
  if !(← begins path diskName 0) then return none
  else
    let digit ← peek path 5
    if digit < 0x30 ∨ 0x37 < digit then return none
    else
      let next ← peek path 6
      if next = 0 ∨ next = slash then return some (digit.toNat - 0x30) else return none

/-- `vfs_select_volume_for_path`. -/
def selectEntry (volumes : List VolumeEntry) : PathCode (Option (VolumeEntry × Relative)) := do
  match ← bestEntry path volumes none with
  | some best => return some (best, ← relativeTo path best.mountPoint.length)
  | none =>
    match ← diskNumber path with
    | none => return none
    | some i =>
      match volumes[i]? with
      | none => return none
      | some entry => if entry.valid then return some (entry, ← relativeTo path 6) else return none

/-- `vfs_mount_for_path`. -/
def mountFor (volumes : List VolumeEntry) : PathCode (Option MountView × Relative) := do
  match ← selectEntry path volumes with
  | some (entry, relative) => return (entry.mount, relative)
  | none =>
    let primary := volumes.head?.bind (·.mount)
    if (← pathStarts path systemName 0) ∧ volumes ≠ [] then return (primary, ← relativeTo path 7)
    else return (primary, .rest 0)

/-- The lookup of a driver. The bytes of the constant "/" are not the caller's. -/
def resolveWith (driver : DriverId) (find : Lookups) (path : Path) (p : Nat) : PathCode (Option Found) :=
  match driver with
  | .fat32 => fat32Resolve path find p
  | .ntfs => ntfsResolve path find p
  | .exfat => exfatResolve path find p
  | .ext2 | .udf | .iso9660 => findFromRoot path find p

def resolveRelative (driver : DriverId) (find : Lookups) : Relative → PathCode (Option Found)
  | .root => return (resolveWith driver find (fun i => if i = 0 then slash else 0) 0).value
  | .rest p => resolveWith driver find path p

/-- One more lookup of the path, for another field of the result. -/
def lookAgain (wanted : Bool) (mount : MountView) (time : Nat) (relative : Relative) : PathCode Unit := do
  if wanted then
    let _ ← resolveRelative path mount.driver (mount.answers time) relative
    return ()
  else return ()

/-- `filesystem_stat`: the path is looked up for its existence, its kind, its size when it
is a file, and by `iso9660.c` for its permissions. -/
def statPath (mount : MountView) (relative : Relative) : PathCode (Option Bool) := do
  if !mount.active then return none
  else
    match ← resolveRelative path mount.driver (mount.answers 0) relative with
    | none => return none
    | some _ =>
      let kind ← resolveRelative path mount.driver (mount.answers 1) relative
      let directory := kind.any (·.directory)
      lookAgain path (!directory) mount 2 relative
      lookAgain path (mount.driver = .iso9660) mount 3 relative
      return some directory

/-- `fat16_is_directory`. -/
def fat16IsDirectory (find : Lookups) : PathCode Bool := do
  let first ← peek path 0
  let root ← if first = slash then (· == 0) <$> peek path 1 else pure false
  if root then return true else return (← fat16Resolve path find).any (·.directory)

/-- `fat32_exists`, `ntfs_exists`, or `fat16_file_size` and `fat16_is_directory`. -/
def legacyExists (legacy : LegacyView) : PathCode Bool :=
  match legacy.activeFs with
  | .fat32 => do
    if !legacy.initialized then return false
    else return (← fat32Resolve path (legacy.answers 0) 0).isSome
  | .ntfs => do
    if !legacy.initialized then return false
    else return (← ntfsResolve path (legacy.answers 0) 0).isSome
  | .fat16 => do
    if (← fat16Resolve path (legacy.answers 0)).any fun found => !found.directory && !found.empty then
      return true
    else fat16IsDirectory path (legacy.answers 1)

/-- What a read through an open disk handle meets. -/
structure FileRead where
  /-- the driver, none for `fat16.c` -/
  driver : Option DriverId
  size : Nat
  validSize : Nat
  /-- the pieces in which the file is read, up to a read that fails -/
  pieces : List (Option Nat)

/-- The static state of `vfs.c` with what lies behind it. A disk handle that is in use
may lead to no file any more. -/
structure VfsView where
  bootNodes : Option (List BootNode)
  volumes : List VolumeEntry
  legacy : LegacyView
  handles : Fin VFS_DISK_HANDLE_COUNT → Option (Option FileRead)

variable (vfs : VfsView)

/-- The loop of `vfs_open` over the files of the boot loader. -/
def openBootNode : List BootNode → Nat → PathCode Nat
  | [], _ => return 0
  | node :: rest, index => do
    if ← pathsEqual path node.path then return VFS_BOOT_HANDLE_BASE + index
    else openBootNode rest (index + 1)

/-- The checks of `vfs_open` that there is such a file. -/
def fileExists : PathCode Bool := do
  match ← mountFor path vfs.volumes with
  | (some mount, relative) => return (← statPath path mount relative) = some false
  | (none, _) => legacyExists path vfs.legacy

def vfsOpen : PathCode Nat := do
  if ← stringsEqual path welcomeName then return 1
  else
    match vfs.bootNodes with
    | some nodes => openBootNode path nodes 0
    | none =>
      if !(← fileExists path vfs) then return 0
      else
        match (List.finRange VFS_DISK_HANDLE_COUNT).find? fun k => (vfs.handles k).isNone with
        | none => return 0
        | some k =>
          copyPath path (VFS_PATH_CAPACITY - 1) 0
          return k.val + 2

end Open

/-! ### Reading -/

/-- The bytes stored when a file is read piece by piece into so much room, and whether a
read has failed. -/
def storePieces : Nat → List (Option Nat) → Nat × Bool
  | 0, _ | _, [] => (0, false)
  | _ + 1, none :: _ => (0, true)
  | room + 1, some piece :: rest =>
    let chunk := min piece (room + 1)
    let stored := storePieces (room + 1 - chunk) rest
    (chunk + stored.1, stored.2)

/-- The read function of a driver: what it returns, and how many bytes it has stored. The
file system exFAT stores zeros behind the valid part. -/
def FileRead.into (file : FileRead) (capacity : Nat) : Nat × Nat :=
  let capacity := min capacity file.size
  match file.driver with
  | some .exfat =>
    let valid := min capacity file.validSize
    let stored := (storePieces valid file.pieces).1
    if stored = valid then (capacity, capacity) else (stored, stored)
  | some .fat32 | some .ntfs =>
    let stored := (storePieces capacity file.pieces).1
    (stored, stored)
  | some .ext2 | some .udf | some .iso9660 =>
    let stored := (storePieces capacity file.pieces).1
    (if stored = capacity then capacity else 0, stored)
  | none =>
    let (stored, failed) := storePieces capacity file.pieces
    (if failed then 0 else stored, stored)

theorem handle_bound {handle : Nat} (bound : 2 ≤ handle ∧ handle - 2 < VFS_DISK_HANDLE_COUNT) :
    handle - 2 < VFS_DISK_HANDLE_COUNT :=
  bound.2

/-- `vfs_read`: what it returns, and how many bytes it stores in the buffer. -/
def vfsRead (vfs : VfsView) (handle size : Nat) : Nat × Nat :=
  let bootNode := vfs.bootNodes.bind fun nodes =>
    if VFS_BOOT_HANDLE_BASE ≤ handle then nodes[handle - VFS_BOOT_HANDLE_BASE]? else none
  match bootNode with
  | some node => (min size node.size, min size node.size)
  | none =>
    let open_ := if bound : 2 ≤ handle ∧ handle - 2 < VFS_DISK_HANDLE_COUNT then
      vfs.handles ⟨handle - 2, handle_bound bound⟩ else none
    match open_ with
    | some (some file) => file.into size
    | some none => (0, 0)
    | none =>
      if handle = 1 then (min size welcomeText.length, min size welcomeText.length) else (0, 0)

/-! ### Paths as strings -/

section Strings

variable {path : Path}

@[simp] theorem value_peek (offset : Nat) : (peek path offset).value = path offset := rfl

@[simp] theorem trace_peek (offset : Nat) : (peek path offset).trace = [offset] := rfl

/-- The bytes of a C string. -/
def bytesOf (text : CString) : List UInt8 := text.map fun c => UInt8.ofNat c.toNat

/-- The path goes on with a C string from an offset on. -/
def SpellsAt (path : Path) : Nat → CString → Prop
  | i, [] => path i = 0
  | i, c :: rest => path i = UInt8.ofNat c.toNat ∧ SpellsAt path (i + 1) rest

/-- A character that is one byte, and not the terminator. -/
def OneByte (c : Char) : Prop := 0 < c.toNat ∧ c.toNat < 256

theorem byte_inj {c d : Char} (hc : OneByte c) (hd : OneByte d) :
    UInt8.ofNat c.toNat = UInt8.ofNat d.toNat ↔ c = d := by
  constructor
  · intro same
    have numbers := congrArg UInt8.toNat same
    rw [UInt8.toNat_ofNat', UInt8.toNat_ofNat', Nat.mod_eq_of_lt hc.2, Nat.mod_eq_of_lt hd.2] at numbers
    exact Char.toNat_inj.mp numbers
  · rintro rfl
    rfl

theorem slash_oneByte : OneByte '/' := ⟨by decide, by decide⟩

theorem byte_ne_zero {c : Char} (hc : OneByte c) : UInt8.ofNat c.toNat ≠ 0 := by
  intro zero
  have number := congrArg UInt8.toNat zero
  rw [UInt8.toNat_ofNat', Nat.mod_eq_of_lt hc.2] at number
  exact absurd number (Nat.ne_of_gt hc.1)

/-- On the bytes of a string, the comparison with a mount point gives what it gives on the
string. -/
theorem pathStarts_value {before : CString} (narrow : ∀ c ∈ before, OneByte c) :
    ∀ {i : Nat} {text : CString}, SpellsAt path i text → (∀ c ∈ text, OneByte c) →
      (pathStarts path (bytesOf before) i).value = pathHasPrefix text before := by
  induction before with
  | nil =>
    intro i text spelled oneByte
    cases text with
    | nil =>
      have ends : path i = 0 := spelled
      simp [bytesOf, pathStarts, pathHasPrefix, peek, ends]
    | cons c rest =>
      have here : path i = UInt8.ofNat c.toNat := spelled.1
      have nonzero := byte_ne_zero (oneByte c List.mem_cons_self)
      have slashed := byte_inj (oneByte c List.mem_cons_self) slash_oneByte
      simpa [bytesOf, pathStarts, pathHasPrefix, peek, slash, here, nonzero, Bool.beq_eq_decide_eq] using slashed
  | cons b bs ih =>
    intro i text spelled oneByte
    cases text with
    | nil =>
      have ends : path i = 0 := spelled
      have nonzero := byte_ne_zero (narrow b List.mem_cons_self)
      simp [bytesOf, pathStarts, pathHasPrefix, peek, ends, nonzero.symm]
    | cons c rest =>
      have here : path i = UInt8.ofNat c.toNat := spelled.1
      have same := byte_inj (oneByte c List.mem_cons_self) (narrow b List.mem_cons_self)
      have later := ih (fun d member => narrow d (List.mem_cons_of_mem _ member)) spelled.2
        fun d member => oneByte d (List.mem_cons_of_mem _ member)
      rw [bytesOf, List.map_cons, pathStarts, value_bind, value_peek, here]
      by_cases equal : c = b
      · rw [if_pos (same.mpr equal)]
        subst equal
        refine later.trans ?_
        simp [pathHasPrefix]
      · rw [if_neg (mt same.mp equal)]
        simp [pathHasPrefix, Ne.symm equal]

end Strings

/-! ### The first byte of a path -/

/-- The first bytes at which `utf8_component` gives up. -/
def NoUtf8Lead (first : UInt8) : Prop := 0x80 ≤ first.toNat ∧ first.toNat < 0xC0 ∨ 0xF0 ≤ first.toNat

instance (first : UInt8) : Decidable (NoUtf8Lead first) := inferInstanceAs (Decidable (_ ∨ _))

/-- A driver that looks no further than at the first byte: the path is no UTF-8, or the
root cannot be read. -/
def Overlooks (driver : DriverId) (find : Lookups) (first : UInt8) : Prop :=
  match driver with
  | .fat32 => False
  | .exfat => NoUtf8Lead first
  | .ntfs | .ext2 | .udf | .iso9660 => find [] = none

/-- The files that a path without a slash can lead to are looked for without a look at its
second byte. -/
def LooksNoFurther (vfs : VfsView) (first : UInt8) : Prop :=
  match vfs.volumes.head?.bind (·.mount) with
  | some mount => mount.active = false ∨ Overlooks mount.driver (mount.answers 0) first
  | none =>
    match vfs.legacy.activeFs with
    | .fat16 => True
    | .fat32 => vfs.legacy.initialized = false
    | .ntfs => vfs.legacy.initialized = false ∨ vfs.legacy.answers 0 [] = none

section First

variable {path : Path} {find : Lookups} {vfs : VfsView}

/-- Only the first byte is read. -/
abbrev OnFirst {α : Type} (code : PathCode α) : Prop := Within {0} code

theorem onFirst_pure {α : Type} (value : α) : OnFirst (pure value : PathCode α) := within_pure value

theorem onFirst_bind {α β : Type} {code : PathCode α} {next : α → PathCode β} :
    OnFirst (code >>= next) ↔ OnFirst code ∧ OnFirst (next code.value) := within_bind

theorem onFirst_single {α : Type} (value : α) : OnFirst (⟨value, [0]⟩ : PathCode α) :=
  fun _ member => List.mem_singleton.mp member

theorem stringSteps_two : ∃ n, stringSteps = n + 2 := ⟨2 ^ 64 - 2, rfl⟩

/-! ### Paths that do not begin with a slash -/

section NoSlash

variable (other : path 0 ≠ slash)

include other

theorem pathStarts_other (rest : List UInt8) : pathStarts path (slash :: rest) 0 = ⟨false, [0]⟩ := by
  unfold pathStarts
  simp only [bind, peek, other, if_false, pure, List.append_nil]

theorem begins_other (rest : List UInt8) : begins path (slash :: rest) 0 = ⟨false, [0]⟩ := by
  unfold begins
  simp only [bind, peek, other, if_false, pure, List.append_nil]

theorem stringsEqual_other (rest : List UInt8) : stringsEqual path (slash :: rest) = ⟨false, [0]⟩ := by
  unfold stringsEqual sameText
  simp only [bind, peek, id, other, if_false, pure, List.append_nil]

theorem toLower_other : toLower (path 0) ≠ toLower slash := by
  intro same
  unfold toLower slash at same
  apply other
  unfold slash
  split at same
  · rename_i letter
    simp only [UInt8.le_iff_toNat_le, ← UInt8.toNat_inj, UInt8.toNat_add] at letter same ⊢
    simp at letter same
    omega
  · simpa using same

theorem pathsEqual_other (rest : List UInt8) : pathsEqual path (slash :: rest) = ⟨false, [0]⟩ := by
  unfold pathsEqual sameText
  simp only [bind, peek, toLower_other other, if_false, pure, List.append_nil]

theorem skipSlashes_other : skipSlashes path stringSteps 0 = ⟨0, [0]⟩ := by
  obtain ⟨n, steps⟩ := stringSteps_two
  rw [steps]
  unfold skipSlashes
  simp only [bind, peek, other, if_false, pure, List.append_nil]

theorem bestEntry_other (volumes : List VolumeEntry) (best : Option VolumeEntry) :
    OnFirst (bestEntry path volumes best) ∧ (bestEntry path volumes best).value = best := by
  induction volumes with
  | nil => exact ⟨onFirst_pure _, rfl⟩
  | cons entry rest ih =>
    unfold bestEntry
    split
    · exact ih
    · rename_i eligible
      obtain ⟨valid, _⟩ := not_or.mp eligible
      obtain ⟨text, here⟩ := entry.rooted (by simpa using valid)
      rw [here, pathStarts_other other]
      exact ⟨onFirst_bind.mpr ⟨onFirst_single _, ih.1⟩, ih.2⟩

/-- Such a path is routed to the first volume, as it is. -/
theorem mountFor_other (volumes : List VolumeEntry) : OnFirst (mountFor path volumes) ∧
    (mountFor path volumes).value = (volumes.head?.bind (·.mount), .rest 0) := by
  have best := bestEntry_other other volumes none
  have number : diskNumber path = ⟨none, [0]⟩ := by
    unfold diskNumber diskName
    rw [show (0x2F : UInt8) = slash from rfl, begins_other other]
    rfl
  have selected : OnFirst (selectEntry path volumes) ∧ (selectEntry path volumes).value = none := by
    unfold selectEntry
    rw [value_bind, onFirst_bind, best.2, number]
    exact ⟨⟨best.1, onFirst_bind.mpr ⟨onFirst_single _, onFirst_pure _⟩⟩, rfl⟩
  unfold mountFor systemName
  rw [value_bind, onFirst_bind, selected.2, show (0x2F : UInt8) = slash from rfl,
    pathStarts_other other]
  exact ⟨⟨selected.1, onFirst_bind.mpr ⟨onFirst_single _, onFirst_pure _⟩⟩, rfl⟩

theorem fat16Resolve_other : fat16Resolve path find = ⟨none, [0]⟩ := by
  unfold fat16Resolve
  simp only [bind, peek, other, ne_eq, not_false_eq_true, if_true, pure, List.append_nil]

theorem openBootNode_other (nodes : List BootNode) (index : Nat) :
    OnFirst (openBootNode path nodes index) := by
  induction nodes generalizing index with
  | nil => exact onFirst_pure _
  | cons node rest ih =>
    obtain ⟨text, here⟩ := node.rooted
    unfold openBootNode
    rw [here, pathsEqual_other other]
    exact onFirst_bind.mpr ⟨onFirst_single _, ih _⟩

end NoSlash

/-! ### The empty path -/

section Empty

variable (empty : path 0 = 0)

include empty

theorem empty_other : path 0 ≠ slash := by
  rw [empty]
  decide

theorem copyPath_empty (room : Nat) : OnFirst (copyPath path room 0) := by
  cases room with
  | zero => exact onFirst_pure _
  | succ room =>
    unfold copyPath
    rw [onFirst_bind, value_peek, if_pos empty]
    exact ⟨onFirst_single _, onFirst_pure _⟩

theorem resolveWith_empty (driver : DriverId) : OnFirst (resolveWith driver find path 0) := by
  have skipped := skipSlashes_other (empty_other empty)
  have atEnd {α : Type} {ended going : PathCode α} (within : OnFirst ended) :
      OnFirst (do if (← peek path 0) = 0 then ended else going) := by
    rw [onFirst_bind, value_peek, if_pos empty]
    exact ⟨onFirst_single _, within⟩
  have descends : OnFirst (findFromRoot path find 0) := by
    unfold findFromRoot
    split
    · exact onFirst_pure _
    · obtain ⟨n, steps⟩ := stringSteps_two
      have next : nextPathComponent path 0 = ⟨(none, 0), [0, 0]⟩ := by
        unfold nextPathComponent
        rw [skipped]
        simp only [bind, peek, empty, if_true, pure, List.append_nil, List.singleton_append]
      rw [steps, descend, onFirst_bind, next]
      refine ⟨?_, onFirst_pure _⟩
      intro i member
      simpa using member
  cases driver with
  | fat32 =>
    unfold resolveWith fat32Resolve
    rw [onFirst_bind, skipped]
    exact ⟨onFirst_single _, atEnd (onFirst_pure _)⟩
  | ntfs =>
    unfold resolveWith ntfsResolve
    rw [onFirst_bind, skipped]
    exact ⟨onFirst_single _, atEnd (onFirst_pure _)⟩
  | exfat =>
    unfold resolveWith exfatResolve
    rw [onFirst_bind, skipped]
    exact ⟨onFirst_single _, atEnd (onFirst_pure _)⟩
  | ext2 => exact descends
  | udf => exact descends
  | iso9660 => exact descends

theorem resolveRelative_empty (driver : DriverId) :
    OnFirst (resolveRelative path driver find (.rest 0)) := resolveWith_empty empty driver

theorem lookAgain_empty (wanted : Bool) (mount : MountView) (time : Nat) :
    OnFirst (lookAgain path wanted mount time (.rest 0)) := by
  unfold lookAgain
  split
  · exact onFirst_bind.mpr ⟨resolveRelative_empty empty _, onFirst_pure _⟩
  · exact onFirst_pure _

theorem statPath_empty (mount : MountView) : OnFirst (statPath path mount (.rest 0)) := by
  unfold statPath
  split
  · exact onFirst_pure _
  · refine onFirst_bind.mpr ⟨resolveRelative_empty empty _, ?_⟩
    split
    · exact onFirst_pure _
    · refine onFirst_bind.mpr ⟨resolveRelative_empty empty _, ?_⟩
      refine onFirst_bind.mpr ⟨lookAgain_empty empty _ _ _, ?_⟩
      exact onFirst_bind.mpr ⟨lookAgain_empty empty _ _ _, onFirst_pure _⟩

end Empty

/-! ### What stops at the first byte -/

section Further

variable (more : path 0 ≠ 0) (other : path 0 ≠ slash)

include more other

theorem component_second {limit : Nat} (room : 0 < limit) :
    1 ∈ (component path limit stringSteps 0 []).trace := by
  obtain ⟨n, steps⟩ := stringSteps_two
  have going : ¬(path 0 = 0 ∨ path 0 = slash ∨ limit ≤ ([] : List Nat).length) := by
    simp only [more, other, List.length_nil, Nat.le_zero, Nat.ne_of_gt room, or_self,
      not_false_eq_true]
  rw [steps, component, trace_bind, value_peek, if_neg going, component]
  exact List.mem_append_right _ (mem_bind_left List.mem_cons_self)

theorem fat32Resolve_second : 1 ∈ (fat32Resolve path find 0).trace := by
  obtain ⟨n, steps⟩ := stringSteps_two
  unfold fat32Resolve
  refine mem_bind_right (mem_bind_right ?_)
  rw [skipSlashes_other other, value_peek, if_neg more, steps, fat32Components]
  exact mem_bind_left (component_second more other (by decide))

omit more other in
theorem utf8Lead_cases : ∀ first : UInt8, (first < 0x80 ∧ ¬NoUtf8Lead first) ∨
    (¬first < 0x80 ∧ first &&& 0xE0 = 0xC0 ∧ ¬NoUtf8Lead first) ∨
    (¬first < 0x80 ∧ first &&& 0xE0 ≠ 0xC0 ∧ first &&& 0xF0 = 0xE0 ∧ ¬NoUtf8Lead first) ∨
    (¬first < 0x80 ∧ first &&& 0xE0 ≠ 0xC0 ∧ first &&& 0xF0 ≠ 0xE0 ∧ NoUtf8Lead first) := by
  decide +kernel

theorem utf8Units_second (lead : ¬NoUtf8Lead (path 0)) :
    1 ∈ (utf8Units path stringSteps 0 []).trace := by
  obtain ⟨n, steps⟩ := stringSteps_two
  have going : ¬(path 0 = 0 ∨ path 0 = slash) := not_or.mpr ⟨more, other⟩
  rw [steps, utf8Units]
  refine mem_bind_right ?_
  rw [value_peek, if_neg going]
  obtain ⟨ascii, _⟩ | ⟨ascii, two, _⟩ | ⟨ascii, two, three, _⟩ | ⟨_, _, _, no⟩ :=
    utf8Lead_cases (path 0)
  · rw [if_pos ascii, if_neg (by decide), utf8Units]
    exact mem_bind_left List.mem_cons_self
  · rw [if_neg ascii, if_pos two]
    exact mem_bind_left List.mem_cons_self
  · rw [if_neg ascii, if_neg two, if_pos three]
    exact mem_bind_left List.mem_cons_self
  · exact absurd no lead

theorem utf8Units_gives_up (lead : NoUtf8Lead (path 0)) :
    utf8Units path stringSteps 0 [] = ⟨none, [0]⟩ := by
  obtain ⟨n, steps⟩ := stringSteps_two
  have going : ¬(path 0 = 0 ∨ path 0 = slash) := not_or.mpr ⟨more, other⟩
  obtain ⟨_, no⟩ | ⟨_, _, no⟩ | ⟨_, _, _, no⟩ | ⟨ascii, two, three, _⟩ := utf8Lead_cases (path 0)
  · exact absurd lead no
  · exact absurd lead no
  · exact absurd lead no
  · rw [steps, utf8Units]
    simp only [bind, peek, going, ascii, two, three, if_false, pure, List.append_nil]

theorem ntfsResolve_second (root : find [] ≠ none) : 1 ∈ (ntfsResolve path find 0).trace := by
  obtain ⟨n, steps⟩ := stringSteps_two
  obtain ⟨found, here⟩ := Option.ne_none_iff_exists'.mp root
  unfold ntfsResolve
  refine mem_bind_right (mem_bind_right ?_)
  rw [skipSlashes_other other, value_peek, if_neg more, here, steps]
  dsimp only
  rw [ntfsComponents]
  exact mem_bind_left (component_second more other (by decide))

theorem findFromRoot_second (root : find [] ≠ none) : 1 ∈ (findFromRoot path find 0).trace := by
  obtain ⟨n, steps⟩ := stringSteps_two
  obtain ⟨found, here⟩ := Option.ne_none_iff_exists'.mp root
  unfold findFromRoot
  rw [here, steps]
  dsimp only
  rw [descend]
  refine mem_bind_left ?_
  unfold nextPathComponent
  refine mem_bind_right (mem_bind_right ?_)
  rw [skipSlashes_other other, value_peek, if_neg more]
  exact mem_bind_left (component_second more other (by omega))

theorem exfatResolve_second (lead : ¬NoUtf8Lead (path 0)) : 1 ∈ (exfatResolve path find 0).trace := by
  obtain ⟨n, steps⟩ := stringSteps_two
  unfold exfatResolve
  refine mem_bind_right (mem_bind_right ?_)
  rw [skipSlashes_other other, value_peek, if_neg more]
  rw [steps, exfatComponents]
  refine mem_bind_right ?_
  rw [value_peek, if_neg more, if_neg (by decide), skipSlashes_other other]
  exact mem_bind_right (mem_bind_left (utf8Units_second more other lead))

/-- The path is read on to its second byte, but by the drivers that overlook the rest. -/
theorem resolveWith_second {driver : DriverId} (looks : ¬Overlooks driver find (path 0)) :
    1 ∈ (resolveWith driver find path 0).trace := by
  cases driver with
  | fat32 => exact fat32Resolve_second more other
  | ntfs => exact ntfsResolve_second more other looks
  | exfat => exact exfatResolve_second more other looks
  | ext2 => exact findFromRoot_second more other looks
  | udf => exact findFromRoot_second more other looks
  | iso9660 => exact findFromRoot_second more other looks

theorem resolveWith_overlooks {driver : DriverId} (overlooks : Overlooks driver find (path 0)) :
    OnFirst (resolveWith driver find path 0) ∧ (resolveWith driver find path 0).value = none := by
  have skipped := skipSlashes_other other
  have unread (root : find [] = none) :
      OnFirst (findFromRoot path find 0) ∧ (findFromRoot path find 0).value = none := by
    unfold findFromRoot
    rw [root]
    exact ⟨onFirst_pure _, rfl⟩
  cases driver with
  | fat32 => exact overlooks.elim
  | ntfs =>
    have root : find [] = none := overlooks
    unfold resolveWith ntfsResolve
    simp only [onFirst_bind, skipped, value_bind, value_peek, more, if_false, root]
    exact ⟨⟨onFirst_single _, onFirst_single _, onFirst_pure _⟩, rfl⟩
  | exfat =>
    obtain ⟨n, steps⟩ := stringSteps_two
    have units := utf8Units_gives_up more other overlooks
    unfold resolveWith exfatResolve
    simp only [onFirst_bind, skipped, value_bind, value_peek, more, if_false]
    rw [steps, exfatComponents]
    simp only [onFirst_bind, value_bind, value_peek, more, if_false, Bool.not_true,
      Bool.false_eq_true, skipped, units]
    exact ⟨⟨onFirst_single _, onFirst_single _, onFirst_single _, onFirst_single _, onFirst_single _,
      onFirst_pure _⟩, rfl⟩
  | ext2 => exact unread overlooks
  | udf => exact unread overlooks
  | iso9660 => exact unread overlooks

theorem statPath_second {mount : MountView} (active : mount.active = true)
    (looks : ¬Overlooks mount.driver (mount.answers 0) (path 0)) :
    1 ∈ (statPath path mount (.rest 0)).trace := by
  unfold statPath
  rw [active, if_neg (by decide)]
  exact mem_bind_left (resolveWith_second more other looks)

theorem statPath_overlooks {mount : MountView} (overlooks : mount.active = false ∨
      Overlooks mount.driver (mount.answers 0) (path 0)) :
    OnFirst (statPath path mount (.rest 0)) ∧ (statPath path mount (.rest 0)).value = none := by
  unfold statPath
  rcases overlooks with inactive | overlooks
  · rw [inactive]
    exact ⟨onFirst_pure _, rfl⟩
  · split
    · exact ⟨onFirst_pure _, rfl⟩
    · have resolved := resolveWith_overlooks more other overlooks
      unfold resolveRelative
      rw [onFirst_bind, value_bind, resolved.2]
      exact ⟨⟨resolved.1, onFirst_pure _⟩, rfl⟩

omit more in
theorem legacy_fat16 {legacy : LegacyView} (active : legacy.activeFs = .fat16) :
    OnFirst (legacyExists path legacy) ∧ (legacyExists path legacy).value = false := by
  unfold legacyExists fat16IsDirectory
  rw [active]
  simp only [fat16Resolve_other other, onFirst_bind, value_bind, value_peek, other, if_false,
    Option.any_none, value_pure, Bool.false_eq_true]
  exact ⟨⟨onFirst_single _, onFirst_single _, onFirst_pure _, onFirst_single _, onFirst_pure _⟩, trivial⟩

/-- A path without a slash that is not empty is looked for at its first byte alone, or its
second byte is read. -/
theorem fileExists_cases : LooksNoFurther vfs (path 0) ∧ OnFirst (fileExists path vfs) ∧
      (fileExists path vfs).value = false ∨
    ¬LooksNoFurther vfs (path 0) ∧ 1 ∈ (fileExists path vfs).trace := by
  obtain ⟨within, routed⟩ := mountFor_other other vfs.volumes
  unfold fileExists LooksNoFurther
  rw [onFirst_bind, value_bind, trace_bind, routed]
  cases primary : vfs.volumes.head?.bind (·.mount) with
  | some mount =>
    dsimp only
    by_cases overlooks : mount.active = false ∨ Overlooks mount.driver (mount.answers 0) (path 0)
    · obtain ⟨read, missing⟩ := statPath_overlooks more other overlooks
      refine .inl ⟨overlooks, ⟨within, onFirst_bind.mpr ⟨read, onFirst_pure _⟩⟩, ?_⟩
      rw [value_bind, missing]
      rfl
    · obtain ⟨active, looks⟩ := not_or.mp overlooks
      have read := statPath_second more other (by simpa using active) looks
      exact .inr ⟨overlooks, List.mem_append_right _ (mem_bind_left read)⟩
  | none =>
    dsimp only
    cases active : vfs.legacy.activeFs with
    | fat16 =>
      obtain ⟨read, missing⟩ := legacy_fat16 other active
      exact .inl ⟨trivial, ⟨within, read⟩, missing⟩
    | fat32 =>
      unfold legacyExists
      rw [active]
      dsimp only
      cases ready : vfs.legacy.initialized with
      | false => exact .inl ⟨rfl, ⟨within, onFirst_pure _⟩, rfl⟩
      | true =>
        have read : 1 ∈ (fat32Resolve path (vfs.legacy.answers 0) 0).trace :=
          fat32Resolve_second more other
        exact .inr ⟨Bool.noConfusion, List.mem_append_right _ (mem_bind_left read)⟩
    | ntfs =>
      unfold legacyExists
      rw [active]
      dsimp only
      cases ready : vfs.legacy.initialized with
      | false => exact .inl ⟨.inl rfl, ⟨within, onFirst_pure _⟩, rfl⟩
      | true =>
        by_cases root : vfs.legacy.answers 0 [] = none
        · obtain ⟨read, missing⟩ := @resolveWith_overlooks path _ more other .ntfs root
          refine .inl ⟨.inr root, ⟨within, onFirst_bind.mpr ⟨read, onFirst_pure _⟩⟩, ?_⟩
          change (ntfsResolve path (vfs.legacy.answers 0) 0).value = none at missing
          rw [if_neg (by decide), value_bind, missing]
          rfl
        · have read := ntfsResolve_second more other root
          refine .inr ⟨?_, List.mem_append_right _ (mem_bind_left read)⟩
          simpa using root

end Further

theorem fileExists_empty (empty : path 0 = 0) : OnFirst (fileExists path vfs) := by
  have other := empty_other empty
  obtain ⟨within, routed⟩ := mountFor_other other vfs.volumes
  unfold fileExists
  rw [onFirst_bind, routed]
  refine ⟨within, ?_⟩
  cases vfs.volumes.head?.bind (·.mount) with
  | some mount => exact onFirst_bind.mpr ⟨statPath_empty empty mount, onFirst_pure _⟩
  | none =>
    dsimp only
    cases active : vfs.legacy.activeFs with
    | fat16 => exact (legacy_fat16 other active).1
    | fat32 =>
      unfold legacyExists
      rw [active]
      dsimp only
      split
      · exact onFirst_pure _
      · exact onFirst_bind.mpr ⟨resolveWith_empty empty .fat32, onFirst_pure _⟩
    | ntfs =>
      unfold legacyExists
      rw [active]
      dsimp only
      split
      · exact onFirst_pure _
      · exact onFirst_bind.mpr ⟨resolveWith_empty empty .ntfs, onFirst_pure _⟩

/-- The paths of which `vfs_open` reads the first byte alone: the empty path, and those that
begin with no slash when the files that they can lead to are looked for without a look at
their second byte. -/
def FirstByteOnly (vfs : VfsView) (first : UInt8) : Prop :=
  first = 0 ∨ first ≠ slash ∧ (vfs.bootNodes ≠ none ∨ LooksNoFurther vfs first)

theorem vfsOpen_absolute (absolute : path 0 = slash) : 1 ∈ (vfsOpen path vfs).trace := by
  refine mem_bind_left ?_
  unfold stringsEqual welcomeName sameText
  refine mem_bind_right ?_
  rw [value_peek, absolute, if_pos (show id slash = id 0x2F from rfl), sameText]
  exact mem_bind_left List.mem_cons_self

/-- The first byte of a path decides whether `vfs_open` reads the second one. -/
theorem vfsOpen_cases : FirstByteOnly vfs (path 0) ∧ OnFirst (vfsOpen path vfs) ∨
    ¬FirstByteOnly vfs (path 0) ∧ 1 ∈ (vfsOpen path vfs).trace := by
  unfold FirstByteOnly
  by_cases absolute : path 0 = slash
  · refine .inr ⟨?_, vfsOpen_absolute absolute⟩
    rintro (empty | ⟨other, _⟩)
    · exact empty_other empty absolute
    · exact other absolute
  · have compared := stringsEqual_other absolute welcomeName.tail
    unfold vfsOpen
    rw [onFirst_bind, trace_bind, show welcomeName = slash :: welcomeName.tail from rfl, compared,
      and_iff_right (onFirst_single _), and_iff_right absolute, if_neg (by decide)]
    cases booting : vfs.bootNodes with
    | some nodes =>
      exact .inl ⟨.inr (.inl (Option.some_ne_none _)), openBootNode_other absolute _ _⟩
    | none =>
      have notBooting : ¬(none : Option (List BootNode)) ≠ none := not_not.mpr rfl
      dsimp only
      rw [onFirst_bind, trace_bind, or_iff_right notBooting]
      by_cases empty : path 0 = 0
      · refine .inl ⟨.inl empty, fileExists_empty empty, ?_⟩
        split
        · exact onFirst_pure _
        · split
          · exact onFirst_pure _
          · exact onFirst_bind.mpr ⟨copyPath_empty empty _, onFirst_pure _⟩
      · rw [or_iff_right empty]
        obtain ⟨no, read, missing⟩ | ⟨further, read⟩ := @fileExists_cases path vfs empty absolute
        · rw [missing]
          exact .inl ⟨no, read, onFirst_pure _⟩
        · exact .inr ⟨further, List.mem_append_right _ (List.mem_append_left _ read)⟩

end First

/-! ### The bytes that a read stores -/

theorem storePieces_fits (pieces : List (Option Nat)) :
    ∀ room, (storePieces room pieces).1 ≤ room := by
  induction pieces with
  | nil =>
    intro room
    cases room <;> exact Nat.zero_le _
  | cons piece rest ih =>
    intro room
    cases room with
    | zero => exact Nat.zero_le _
    | succ room =>
      cases piece with
      | none => exact Nat.zero_le _
      | some piece =>
        have later := ih (room + 1 - min piece (room + 1))
        simp only [storePieces]
        omega

theorem FileRead.into_fits (file : FileRead) (capacity : Nat) : (file.into capacity).2 ≤ capacity := by
  have pieces := storePieces_fits file.pieces (min capacity file.size)
  have valid := storePieces_fits file.pieces (min (min capacity file.size) file.validSize)
  unfold FileRead.into
  dsimp only
  split
  · split
    · exact Nat.min_le_left _ _
    · dsimp only
      omega
  all_goals
    dsimp only
    omega

/-- `vfs_read` stores no more bytes than it was asked for. -/
theorem vfsRead_stored (vfs : VfsView) (handle size : Nat) : (vfsRead vfs handle size).2 ≤ size := by
  unfold vfsRead
  dsimp only
  split
  · exact Nat.min_le_left _ _
  · split
    · exact FileRead.into_fits _ _
    · exact Nat.zero_le _
    · split
      · exact Nat.min_le_left _ _
      · exact Nat.zero_le _

end AsasOs.Process
