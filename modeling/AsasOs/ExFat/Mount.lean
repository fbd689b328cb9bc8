import AsasOs.ExFat.Directory

/-!
# exFAT: the up-case table and the listing

The table of upper-case letters that a mount of `exfat.c` decodes, and the function that
lists a directory.
-/
namespace AsasOs.ExFat

open Block Bytes

/-! ### The up-case table -/

/-- The table of `load_upcase` with the bytes that are left, from `code` on. A run is
stored as 0xFFFF and its length. -/
def decodeUpcase : List UInt8 → Nat → (Nat → Nat) → Option (Nat → Nat)
  | low :: high :: rest, code, table =>
    if code ≥ 65536 then some table
    else
      let value := low.toNat + 256 * high.toNat
      match rest with
      | low' :: high' :: rest' =>
        if value = 0xFFFF then
          let next := min (code + (low'.toNat + 256 * high'.toNat)) 65536
          decodeUpcase rest' next fun c => if code ≤ c ∧ c < next then c else table c
        else
          decodeUpcase (low' :: high' :: rest') (code + 1) fun c =>
            if c = code then value else table c
      | short => decodeUpcase short (code + 1) fun c => if c = code then value else table c
  | _, code, table => if code = 65536 then some table else none

/-! ### Listing -/

section Queries

variable (context : Context)

/-- `EXFAT_FILE_INFO`. -/
structure FileInfo where
  name : List UInt8
  size : Nat
  isDirectory : Bool
  readOnly : Bool
  deriving DecidableEq, Repr

def EXFAT_NAME_CAPACITY : Nat := 256

def listVisitor (capacity : Nat) : Visitor (List FileInfo) := fun node entries =>
  if entries.length ≥ capacity then (false, entries)
  else
    match utf16ToUtf8 node.name with
    | none => (true, entries)
    | some name =>
      if name.length = 0 ∨ name.length ≥ EXFAT_NAME_CAPACITY then (true, entries)
      else
        let entries := entries ++ [⟨name, node.dataLength, node.isDirectory, true⟩]
        (decide (entries.length < capacity), entries)

def exfatContextListDirectory (path : Path) (capacity : Nat) : ExfatProg (List FileInfo) := do
  let listing : ExfatCode (List FileInfo) := do
    guard (capacity ≠ 0)
    let node ← resolvePath context path
    guard node.isDirectory
    visitDirectory context node (listVisitor capacity) []
  let entries ← listing.run
  return entries.getD []

end Queries

end AsasOs.ExFat
