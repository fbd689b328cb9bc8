import AsasOs.Optical.Names

/-!
# ISO 9660 volumes

`iso9660.c`. Directories have records of one byte for their length, which do not cross the border of a sector. A
record has a name, and behind it fields of the system use area (Rock Ridge) with another name, a mode and the text of
a symbolic link. Consecutive records of one name are the extents of a file.

## Model

- Sectors have 2048 bytes, and a record is at a position of one. Each access is checked.
- A buffer of 256 bytes for a name has what was stored in it so far.
- What is not surfaced is left out, such as the positions of the path tables.
-/
namespace AsasOs.Iso9660

open Bytes Checked Optical

/-- A device, and what `block_device_read` gives for a block. -/
structure Device where
  blockSize : Nat
  read : Nat → Option Memory

/-! ### Sectors -/

/-- The loop of `read_bytes`: what has been copied, and the output. -/
def readBody (device : Device) (byteOffset size : Nat) (s : Nat × Memory) :
    Run ((Nat × Memory) ⊕ Memory) :=
  if s.1 < size then do
    let position := byteOffset + s.1
    let skip := position % device.blockSize
    let chunk := min (device.blockSize - skip) (size - s.1)
    let block ← supplied (device.read (position / device.blockSize))
    access 4096 skip chunk
    access size s.1 chunk
    pure (.inl (s.1 + chunk, fun i => if s.1 ≤ i ∧ i < s.1 + chunk then block (skip + (i - s.1)) else s.2 i))
  else pure (.inr s.2)

/-- `read_bytes`. Each round copies something. -/
def readBytes (device : Device) (byteOffset size : Nat) : Run Memory := do
  demand (512 ≤ device.blockSize ∧ device.blockSize ≤ 4096)
  iterate (readBody device byteOffset size) (size + 1) (0, fun _ => 0)

def readIsoSector (device : Device) (sector : Nat) : Run Memory := readBytes device (sector * 2048) 2048

def peek (sector : Memory) (i : Nat) : Run UInt8 := do
  access 2048 i 1
  pure (sector i)

def peekWord (sector : Memory) (i width : Nat) : Run Nat := do
  access 2048 i width
  pure (wordAt sector i width)

/-! ### Names -/

/-- `copy_name`, for the bytes from a position on. -/
def copyName (sector : Memory) : Nat → Nat → Name → Run Name
  | 0, _, out => pure out
  | length + 1, position, out =>
    if out.length + 1 < 256 then do
      let value ← peek sector position
      if value = SEMICOLON then pure out
      else do
        let out ← append out [value]
        copyName sector length (position + 1) out
    else pure out

/-- `copy_joliet_name`, for the units from a position on. -/
def copyJolietName (sector : Memory) : Nat → Nat → Name → Run Name
  | 0, _, out => pure out
  | units + 1, position, out =>
    if out.length + 1 < 256 then do
      let high ← peek sector position
      let low ← peek sector (position + 1)
      let value := high.toNat * 256 + low.toNat
      if value = SEMICOLON.toNat then pure out
      else do
        let out ← appendUnit out value
        copyJolietName sector units (position + 2) out
    else pure out

/-- A dot at the end of a name is left out, and the terminator is stored. -/
def trimmed (out : Name) : Run Name := terminated (if out.getLast? = some DOT then out.dropLast else out)

def recordNameToUtf8 (joliet : Bool) (sector : Memory) (position length : Nat) : Run Name := do
  let out ← if joliet then copyJolietName sector (length / 2) position [] else copyName sector length position []
  trimmed out

/-- The loop over the fields of the system use area, with what is done with one of them. -/
def fieldBody {σ ρ : Type} (sector : Memory) (start recordLength : Nat)
    (visit : σ → Nat → Nat → UInt8 → Run (σ ⊕ ρ))
    (last : σ → ρ) (s : Nat × σ) : Run ((Nat × σ) ⊕ ρ) :=
  if s.1 + 4 ≤ recordLength then do
    let length ← peek sector (start + s.1 + 2)
    let version ← peek sector (start + s.1 + 3)
    if length.toNat < 4 ∨ s.1 + length.toNat > recordLength then pure (.inr (last s.2))
    else do
      let next ← visit s.2 (start + s.1) length.toNat version
      pure (next.map (fun t => (s.1 + length.toNat, t)) id)
  else pure (.inr (last s.2))

/-- The fields of a record. A field has at least 4 bytes. -/
def fields {σ ρ : Type} (sector : Memory) (start : Nat)
    (visit : σ → Nat → Nat → UInt8 → Run (σ ⊕ ρ)) (last : σ → ρ)
    (init : σ) : Run ρ := do
  let recordLength ← peek sector start
  let nameLength ← peek sector (start + 32)
  let first := 33 + nameLength.toNat + if nameLength.toNat % 2 = 0 then 1 else 0
  iterate (fieldBody sector start recordLength.toNat visit last) 64 (first, init)

def isField (sector : Memory) (position : Nat) (first second : UInt8) : Run Bool := do
  let here ← peek sector position
  let next ← peek sector (position + 1)
  pure (here == first && next == second)

def visitName (sector : Memory) (_ : Unit) (position length : Nat) (version : UInt8) : Run (Unit ⊕ Option Name) := do
  let named ← isField sector position 0x4E 0x4D
  if named = true ∧ version = 1 ∧ length ≥ 5 then do
    let count := min (length - 5) 255
    access 2048 (position + 5) count
    let name ← terminated (window sector (position + 5) count)
    pure (.inr (if count ≠ 0 then some name else none))
  else pure (.inl ())

def rockRidgeName (sector : Memory) (start : Nat) : Run (Option Name) := do
  let recordLength ← peek sector start
  if recordLength < 34 then pure none else fields sector start (visitName sector) (fun _ => none) ()

def directoryRecordName (joliet : Bool) (sector : Memory) (start : Nat) : Run Name := do
  let found ← rockRidgeName sector start
  match found with
  | some name => pure name
  | none => do
    let length ← peek sector (start + 32)
    recordNameToUtf8 joliet sector (start + 33) length.toNat

/-! ### Records -/

/-- `ISO9660_RECORD`. The extents are with their sizes, and the record has a mode if `rr_has_mode`. -/
structure Record where
  extents : List (Nat × Nat)
  extent : Nat
  size : Nat
  flags : UInt8
  mode : Option Nat
  symlink : Name
  timestamp : Option Name
  deriving DecidableEq

def Record.isDirectory (record : Record) : Bool := record.flags &&& 0x02 != 0

def Record.isMultiExtent (record : Record) : Bool := record.flags &&& 0x80 != 0

/-- `rr_is_symlink` -/
def Record.isSymlink (record : Record) : Bool := record.symlink != []

def rockRidgeParsePx (sector : Memory) (position length : Nat) (record : Record) : Run Record :=
  if length < 12 then pure record
  else do
    let mode ← peekWord sector (position + 4) 4
    pure { record with mode := some mode }

def rockRidgeParseTf (sector : Memory) (position length : Nat) (record : Record) : Run Record :=
  if length < 12 then pure record
  else do
    let flags ← peek sector (position + 4)
    if flags &&& 0x80 ≠ 0 ∨ flags &&& 0x01 = 0 then pure record
    else do
      access 2048 (position + 5) 7
      pure { record with timestamp := some (window sector (position + 5) 7) }

/-- The separator in front of a component. -/
def separated (out : Name) : Run Name := if out ≠ [] ∧ out.length + 1 < 256 then append out [SLASH] else pure out

/-- A component of a symbolic link, in the loop of `rock_ridge_parse_sl`. -/
def symlinkComponent (sector : Memory) (position : Nat) (flags : UInt8) (length : Nat) (out : Name) : Run Name := do
  let out ← separated out
  if flags &&& 0x02 ≠ 0 then append out [DOT]
  else if flags &&& 0x04 ≠ 0 then if out.length + 2 < 256 then append out [DOT, DOT] else pure out
  else if flags &&& 0x08 ≠ 0 then append out [SLASH]
  else do
    let count := min length (255 - out.length)
    access 2048 position count
    append out (window sector position count)

def symlinkBody (sector : Memory) (position length : Nat) (s : Nat × Name) : Run ((Nat × Name) ⊕ Name) :=
  if s.1 + 2 ≤ length ∧ s.2.length + 1 < 256 then do
    let flags ← peek sector (position + s.1)
    let count ← peek sector (position + s.1 + 1)
    if s.1 + 2 + count.toNat > length then pure (.inr s.2)
    else do
      let out ← symlinkComponent sector (position + s.1 + 2) flags count.toNat s.2
      pure (.inl (s.1 + 2 + count.toNat, out))
  else pure (.inr s.2)

/-- The text of a symbolic link, up to its terminator. A component has at least 2 bytes. -/
def symlinkText (sector : Memory) (position length : Nat) : Run Name :=
  iterate (symlinkBody sector position length) 128 (5, [])

def rockRidgeParseSl (sector : Memory) (position length : Nat) (record : Record) : Run Record :=
  if length < 7 then pure record
  else do
    let out ← symlinkText sector position length
    let text ← terminated out
    pure { record with symlink := text }

/-- What is done with a field, by its tag. -/
def parseField (sector : Memory) (record : Record) (position length : Nat) (px sl tf : Bool) :
    Run Record :=
  if px = true then rockRidgeParsePx sector position length record
  else if sl = true then rockRidgeParseSl sector position length record
  else if tf = true then rockRidgeParseTf sector position length record
  else pure record

def visitMetadata (sector : Memory) (record : Record) (position length : Nat) (version : UInt8) :
    Run (Record ⊕ Record) := do
  let px ← isField sector position 0x50 0x58
  let sl ← isField sector position 0x53 0x4C
  let tf ← isField sector position 0x54 0x46
  let record ← parseField sector record position length (version == 1 && px) (version == 1 && sl) (version == 1 && tf)
  pure (.inl record)

/-- `parse_record`, with `rock_ridge_metadata`. -/
def parseRecord (sector : Memory) (start : Nat) : Run Record := do
  let length ← peek sector start
  demand (¬length < 34)
  let extent ← peekWord sector (start + 2) 4
  let size ← peekWord sector (start + 10) 4
  let flags ← peek sector (start + 25)
  fields sector start (visitMetadata sector) id ⟨[(extent, size)], extent, size, flags, none, [], none⟩

def appendExtent (output part : Record) : Option Record :=
  if output.extents.length ≥ 16 then none
  else
    some
      { output with
        extents := output.extents ++ [(part.extent, part.size)]
        size := (output.size + part.size) % 2 ^ 32
        flags := part.flags }

/-! ### Mounting -/

structure Context where
  device : Device
  root : Record
  joliet : Bool

/-- `sector[1] == 'C' && ... && sector[5] == '1'` -/
def isStandard (sector : Memory) : Bool := window sector 1 5 == [0x43, 0x44, 0x30, 0x30, 0x31]

def iso9660Probe (device : Device) : Run Unit := do
  demand (512 ≤ device.blockSize ∧ device.blockSize ≤ 4096)
  let sector ← readIsoSector device 16
  demand (sector 0 = 1 ∧ isStandard sector = true ∧ sector 6 = 1 ∧ wordAt sector 128 2 = 2048)

def isJoliet (sector : Memory) : Bool :=
  sector 0 == 2 && window sector 88 2 == [0x25, 0x2F] && [0x40, 0x43, 0x45].contains (sector 90) &&
    wordAt sector 128 2 == 2048

/-- The loop over the descriptors in `iso9660_context_create`. -/
def findJoliet (device : Device) (root : Record) : List Nat → Run Context
  | [] => pure ⟨device, root, false⟩
  | descriptor :: rest => do
    let read ← tried (readIsoSector device descriptor)
    match read with
    | none => pure ⟨device, root, false⟩
    | some sector =>
      if isStandard sector = false ∨ sector 0 = 255 then pure ⟨device, root, false⟩
      else if isJoliet sector = true then do
        let parsed ← tried (parseRecord sector 156)
        match parsed with
        | some root => pure ⟨device, root, true⟩
        | none => findJoliet device root rest
      else findJoliet device root rest

def iso9660ContextCreate (device : Device) : Run Context := do
  iso9660Probe device
  let sector ← readIsoSector device 16
  let root ← parseRecord sector 156
  findJoliet device root (List.range' 17 47)

/-! ### Directories -/

/-- What a loop over the records of a directory does: with a record, when a sector cannot be read or a record is not
well formed, and at the end. -/
structure Visitor (σ ρ : Type) where
  more : σ → Bool
  visit : Memory → Nat → σ → Run (σ ⊕ ρ)
  stop : σ → Run ρ
  last : σ → Run ρ

section Walk

variable {σ ρ : Type} (visitor : Visitor σ ρ)

/-- The records of the directory and its parent are passed over. -/
def visitRecord (sector : Memory) (start : Nat) (nameLength first : UInt8) (s : σ) : Run (σ ⊕ ρ) :=
  if nameLength ≠ 1 ∨ (first ≠ 0 ∧ first ≠ 1) then visitor.visit sector start s else pure (.inl s)

/-- A record in the inner loops of `find_in_directory` and `iso9660_context_list_directory`: the offset, the position
in the sector, and what the loop has found. -/
def sectorBody (size : Nat) (sector : Memory) (s : Nat × Nat × σ) :
    Run ((Nat × Nat × σ) ⊕ ((Nat × σ) ⊕ ρ)) :=
  if s.2.1 < 2048 ∧ s.1 < size ∧ visitor.more s.2.2 = true then do
    let length ← peek sector s.2.1
    if length = 0 then pure (.inr (.inl ((s.1 + (2048 - s.2.1)) % 2 ^ 32, s.2.2)))
    else if s.2.1 + length.toNat > 2048 ∨ length < 34 then do
      let result ← visitor.stop s.2.2
      pure (.inr (.inr result))
    else do
      let nameLength ← peek sector (s.2.1 + 32)
      let first ← peek sector (s.2.1 + 33)
      let next ← visitRecord visitor sector s.2.1 nameLength first s.2.2
      pure (next.map (fun t => ((s.1 + length.toNat) % 2 ^ 32, s.2.1 + length.toNat, t)) .inr)
  else pure (.inr (.inl (s.1, s.2.2)))

/-- A sector in the outer loops. A record has at least 34 bytes. -/
def walkBody (device : Device) (directory : Record) (s : Nat × σ) : Run ((Nat × σ) ⊕ ρ) :=
  if s.1 < directory.size ∧ visitor.more s.2 = true then do
    let read ← tried (readIsoSector device ((directory.extent + s.1 / 2048) % 2 ^ 32))
    match read with
    | none => do
      let result ← visitor.stop s.2
      pure (.inr result)
    | some sector => iterate (sectorBody visitor directory.size sector) 64 (s.1, s.1 % 2048, s.2)
  else do
    let result ← visitor.last s.2
    pure (.inr result)

def walk (steps : Nat) (device : Device) (directory : Record) (init : σ) : Run ρ :=
  iterate (walkBody visitor device directory) steps (0, init)

end Walk

def findVisitor (joliet : Bool) (wanted : Name) : Visitor (Option (Name × Record)) Record where
  more := fun _ => true
  visit sector start collecting := do
    let name ← directoryRecordName joliet sector start
    match collecting with
    | some (collected, result) => do
      demand (stringsEqualCi name collected = true)
      let part ← parseRecord sector start
      let result ← supplied (appendExtent result part)
      pure (if part.isMultiExtent then .inl (some (collected, result)) else .inr result)
    | none =>
      if stringsEqualCi name wanted = true then do
        let result ← parseRecord sector start
        pure (if result.isMultiExtent then .inl (some (name, result)) else .inr result)
      else pure (.inl none)
  stop := fun _ => .error .refused
  last
    | some (_, result) => do
      demand (result.isMultiExtent = false)
      pure result
    | none => .error .refused

def findInDirectory (steps : Nat) (context : Context) (directory : Record) (name : Name) : Run Record := do
  demand (directory.isDirectory = true)
  walk (findVisitor context.joliet name) steps context.device directory none

def findRecord (steps : Nat) (context : Context) (path : Name) : Run Record :=
  followPath (findInDirectory steps context) path context.root

/-! ### Calls -/

def iso9660ContextFileSize (steps : Nat) (context : Context) (path : Name) : Run Nat := do
  let found ← tried (findRecord steps context path)
  match found with
  | some record =>
    pure (if record.isDirectory then 0 else if record.isSymlink then record.symlink.length else record.size)
  | none => pure 0

/-- An extent in `iso9660_context_read_file`: what has been written, and what remains. -/
def readExtent (device : Device) (capacity : Nat) (s : Nat × Nat) (extent : Nat × Nat) :
    Run (Nat × Nat) :=
  if s.2 ≠ 0 then do
    let chunk := min extent.2 s.2
    access capacity s.1 chunk
    let _ ← readBytes device (extent.1 * 2048) chunk
    pure (s.1 + chunk, s.2 - chunk)
  else pure s

/-- `iso9660_context_read_file`: the number of bytes that it gives. -/
def iso9660ContextReadFile (steps : Nat) (context : Context) (path : Name) (capacity : Nat) : Run Nat := do
  let record ← findRecord steps context path
  demand (record.isDirectory = false)
  if record.isSymlink = true then do
    let copy := min capacity record.symlink.length
    access capacity 0 copy
    pure copy
  else do
    let bytes := min capacity record.size
    let s ← record.extents.foldlM (readExtent context.device capacity) (0, bytes)
    demand (s.1 = bytes)
    pure bytes

/-- `ISO9660_FILE_INFO` -/
structure FileInfo where
  name : Name
  size : Nat
  isDirectory : Bool
  readOnly : Bool
  deriving DecidableEq

def fileInfo (name : Name) (record : Record) : FileInfo where
  name := name
  size := if record.isSymlink then record.symlink.length else record.size
  isDirectory := record.isDirectory
  readOnly := match record.mode with
    | some mode => mode &&& 0o222 == 0
    | none => true

/-- The entries of a listing, and the name of the file whose records are passed over. -/
def listVisitor (joliet : Bool) (capacity : Nat) :
    Visitor (List FileInfo × Option Name) (List FileInfo) where
  more s := decide (s.1.length < capacity)
  visit sector start s := do
    let parsed ← tried (parseRecord sector start)
    match parsed with
    | none => pure (.inl s)
    | some record => do
      let name ← directoryRecordName joliet sector start
      let collecting := if record.isMultiExtent then some name else none
      if s.2.any (stringsEqualCi name) = true then pure (.inl (s.1, if record.isMultiExtent then s.2 else none))
      else pure (.inl (s.1 ++ [fileInfo name record], collecting))
  stop s := pure s.1
  last s := pure s.1

def iso9660ContextListDirectory (steps : Nat) (context : Context) (path : Name) (capacity : Nat) :
    Run (List FileInfo) := do
  demand (capacity ≠ 0)
  let directory ← findRecord steps context path
  demand (directory.isDirectory = true)
  walk (listVisitor context.joliet capacity) steps context.device directory ([], none)

end AsasOs.Iso9660
