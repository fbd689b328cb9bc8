import AsasOs.Lib.Bytes

/-!
# FAT32: names

The part of `fat32.c` that works on names alone: directory entries of 32 bytes, their short
names, the accumulator that puts a long name together from its entries, and the conversions
between UTF-8 and UTF-16.

## Model

- A C string is the list of its bytes before the terminating zero.
- A UTF-16 unit is a number below `2 ^ 16`, and a buffer of units is a function of the index.
- A directory entry is the list of its 32 bytes.
-/
namespace AsasOs.Fat32

open Bytes

def FAT32_ATTR_READ_ONLY : UInt8 := 0x01
def FAT32_ATTR_VOLUME_ID : UInt8 := 0x08
def FAT32_ATTR_LFN : UInt8 := 0x0F
def FAT32_ATTR_DIRECTORY : UInt8 := 0x10
def FAT32_ATTR_ARCHIVE : UInt8 := 0x20
def FAT32_MAX_LFN_ENTRIES : Nat := 20

/-- The bytes of a C string. -/
abbrev Text := List UInt8

/-- What a buffer holds as a C string. -/
def Text.ofBuffer (buffer : List UInt8) : Text := buffer.takeWhile (· != 0)

/-! ### Directory entries -/

/-- The bytes of a `FAT32_DIR_ENTRY` or a `FAT32_LFN_ENTRY`. -/
abbrev Slot := List UInt8

namespace Slot

def name (slot : Slot) : List UInt8 := slice slot 0 11
def attributes (slot : Slot) : UInt8 := byteAt slot 11
def firstCluster (slot : Slot) : Nat := getLE slot 20 2 * 2 ^ 16 + getLE slot 26 2
def fileSize (slot : Slot) : Nat := getLE slot 28 4

def has (slot : Slot) (flag : UInt8) : Bool := slot.attributes &&& flag != 0

/-- The entry behind the last one in use. -/
def isEnd (slot : Slot) : Bool := byteAt slot 0 == 0
def isDeleted (slot : Slot) : Bool := byteAt slot 0 == 0xE5
def isLfn (slot : Slot) : Bool := slot.attributes &&& FAT32_ATTR_LFN == FAT32_ATTR_LFN

def order (slot : Slot) : UInt8 := byteAt slot 0
def lfnType (slot : Slot) : UInt8 := byteAt slot 12
def lfnChecksum (slot : Slot) : UInt8 := byteAt slot 13

/-- The unit of a long-name entry: `name1`, `name2` and `name3`. -/
def lfnUnit (slot : Slot) (index : Nat) : Nat :=
  getLE slot (if index < 5 then 1 + 2 * index else if index < 11 then 14 + 2 * (index - 5)
    else 28 + 2 * (index - 11)) 2

end Slot

/-! ### Characters -/

/-- A letter as a capital. -/
def upper (value : UInt8) : UInt8 := if 0x61 ≤ value ∧ value ≤ 0x7A then value - 32 else value

def f32IcharEq (a b : UInt8) : Bool := upper a == upper b

def fat32ShortChecksum (name : List UInt8) : UInt8 :=
  (List.range 11).foldl (fun sum index => ((sum &&& 1) <<< 7) + (sum >>> 1) + byteAt name index) 0

/-! ### The accumulator -/

/-- `long_name`, `lfn_checksum` and `lfn_valid`. -/
structure Lfn where
  name : Nat → Nat
  checksum : UInt8
  valid : Bool

def lfnReset : Lfn := ⟨fun _ => 0xFFFF, 0, false⟩

def Lfn.store (lfn : Lfn) (base : Nat) (entry : Slot) : Lfn :=
  { lfn with name := fun index =>
      if base ≤ index ∧ index < base + 13 ∧ index < 255 then entry.lfnUnit (index - base)
      else lfn.name index }

def lfnAccept (entry : Slot) (lfn : Lfn) : Option Lfn :=
  let ordinal := entry.order.toNat % 32
  let base := (ordinal - 1) * 13
  if ordinal = 0 ∨ ordinal > 20 ∨ entry.lfnType ≠ 0 ∨ getLE entry 26 2 ≠ 0 then none
  else if entry.order &&& 0x40 ≠ 0 then
    some (Lfn.store ⟨lfnReset.name, entry.lfnChecksum, true⟩ base entry)
  else if !lfn.valid || entry.lfnChecksum != lfn.checksum then none
  else some (lfn.store base entry)

/-! ### From UTF-16 to UTF-8 -/

/-- The bytes of a code point, as far as they fit an output that has `out` bytes already. -/
def utf8Bytes (cp out : Nat) : List UInt8 :=
  if cp < 0x80 then [UInt8.ofNat cp]
  else if cp < 0x800 ∧ out + 2 < 256 then
    [UInt8.ofNat (0xC0 ||| cp >>> 6), UInt8.ofNat (0x80 ||| cp &&& 0x3F)]
  else if cp < 0x10000 ∧ out + 3 < 256 then
    [UInt8.ofNat (0xE0 ||| cp >>> 12), UInt8.ofNat (0x80 ||| cp >>> 6 &&& 0x3F),
      UInt8.ofNat (0x80 ||| cp &&& 0x3F)]
  else if cp ≤ 0x10FFFF ∧ out + 4 < 256 then
    [UInt8.ofNat (0xF0 ||| cp >>> 18), UInt8.ofNat (0x80 ||| cp >>> 12 &&& 0x3F),
      UInt8.ofNat (0x80 ||| cp >>> 6 &&& 0x3F), UInt8.ofNat (0x80 ||| cp &&& 0x3F)]
  else [0x3F]

/-- The code point at an index, and how many units it takes. -/
def codePointAt (name : Nat → Nat) (input : Nat) : Nat × Nat :=
  let first := name input
  let second := name (input + 1)
  if 0xD800 ≤ first ∧ first ≤ 0xDBFF ∧ input + 1 < 255 ∧ 0xDC00 ≤ second ∧ second ≤ 0xDFFF then
    (0x10000 + (first - 0xD800) * 2 ^ 10 + (second - 0xDC00), 2)
  else (first, 1)

/-- The loop of `utf16_name_to_utf8`; every round reads a unit. -/
def utf16Loop (name : Nat → Nat) : Nat → Nat → Text → Text
  | 0, _, output => output
  | rounds + 1, input, output =>
    if input < 255 ∧ name input ≠ 0 ∧ name input ≠ 0xFFFF ∧ output.length + 1 < 256 then
      let (cp, units) := codePointAt name input
      utf16Loop name rounds (input + units) (output ++ utf8Bytes cp output.length)
    else output

def utf16NameToUtf8 (name : Nat → Nat) : Text := utf16Loop name 255 0 []

/-! ### From UTF-8 to UTF-16 -/

def continues (byte : UInt8) : Bool := byte &&& 0xC0 == 0x80

/-- The code point that a string starts with, and the number of its bytes. -/
def firstCodePoint (input : Text) : Option (Nat × Nat) :=
  let first := byteAt input 0
  let b₁ := byteAt input 1
  let b₂ := byteAt input 2
  let b₃ := byteAt input 3
  let low (byte : UInt8) : Nat := byte.toNat % 64
  if first < 0x80 then some (first.toNat, 1)
  else if first &&& 0xE0 = 0xC0 ∧ continues b₁ then
    let cp := first.toNat % 32 * 64 + low b₁
    if cp < 0x80 then none else some (cp, 2)
  else if first &&& 0xF0 = 0xE0 ∧ continues b₁ ∧ continues b₂ then
    let cp := first.toNat % 16 * 4096 + low b₁ * 64 + low b₂
    if cp < 0x800 ∨ (0xD800 ≤ cp ∧ cp ≤ 0xDFFF) then none else some (cp, 3)
  else if first &&& 0xF8 = 0xF0 ∧ continues b₁ ∧ continues b₂ ∧ continues b₃ then
    let cp := first.toNat % 8 * 2 ^ 18 + low b₁ * 4096 + low b₂ * 64 + low b₃
    if cp < 0x10000 ∨ cp > 0x10FFFF then none else some (cp, 4)
  else none

/-- A code point that no name has: a control character, or one of `"*/:<>?\|`. -/
def forbidden (cp : Nat) : Bool :=
  cp < 0x20 || cp ∈ [0x22, 0x2A, 0x2F, 0x3A, 0x3C, 0x3E, 0x3F, 0x5C, 0x7C]

/-- The units of a code point. -/
def utf16Units (cp : Nat) : List Nat :=
  if cp < 0x10000 then [cp]
  else [0xD800 + (cp - 0x10000) / 2 ^ 10, 0xDC00 + (cp - 0x10000) % 2 ^ 10]

/-- The loop of `utf8_name_to_utf16`; every round reads a byte. -/
def utf8Loop : Nat → Text → List Nat → Option (List Nat)
  | 0, _, output => some output
  | rounds + 1, input, output =>
    if input.isEmpty then some output
    else
      match firstCodePoint input with
      | none => none
      | some (cp, width) =>
        if forbidden cp then none
        else if output.length + (utf16Units cp).length > 255 then none
        else utf8Loop rounds (input.drop width) (output ++ utf16Units cp)

/-- `utf8_name_to_utf16`: the units of a name that may be given. -/
def utf8NameToUtf16 (input : Text) : Option (List Nat) :=
  match utf8Loop input.length input [] with
  | none => none
  | some output =>
    if output = [] ∨ output.getLast? = some 0x20 ∨ output.getLast? = some 0x2E then none
    else some output

/-! ### Comparisons -/

/-- `utf8_name_matches`; a slash ends the string on the right. -/
def utf8NameMatches : Text → Text → Bool
  | [], [] => true
  | [], b :: _ => b == 0x2F
  | _ :: _, [] => false
  | a :: left, b :: right =>
    if b = 0x2F then false
    else (if a < 0x80 && b < 0x80 then f32IcharEq a b else a == b) && utf8NameMatches left right

def formatName (source : List UInt8) : Text :=
  let base := (slice source 0 8).takeWhile (· != 0x20)
  let extension := (slice source 8 3).takeWhile (· != 0x20)
  Text.ofBuffer (base ++ if byteAt source 8 = 0x20 then [] else 0x2E :: extension)

/-- The comparison in `entry_matches`. -/
def nameMatches : Text → Text → Bool
  | [], [] => true
  | [], b :: _ => b == 0x2F
  | _ :: _, [] => false
  | a :: name, b :: component => f32IcharEq a b && nameMatches name component

def entryMatches (slot : Slot) (component : Text) : Bool :=
  nameMatches (formatName slot.name) component

/-- The loop of `component_to_name`: the characters of the base and of the extension so far. -/
def componentLoop : Text → Bool → List UInt8 → List UInt8 → Option (List UInt8 × List UInt8)
  | [], _, base, extension => some (base, extension)
  | byte :: rest, inExtension, base, extension =>
    let value := upper byte
    if value = 0x2E then
      if inExtension then none else componentLoop rest true base extension
    else if value = 0x2F ∨ value = 0x5C ∨ (!inExtension ∧ base.length ≥ 8) ∨
        (inExtension ∧ extension.length ≥ 3) then none
    else if inExtension then componentLoop rest inExtension base (extension ++ [value])
    else componentLoop rest inExtension (base ++ [value]) extension

/-- Characters, and spaces up to a width. -/
def padded (width : Nat) (bytes : List UInt8) : List UInt8 :=
  bytes ++ List.replicate (width - bytes.length) 0x20

def componentToName (component : Text) : Option (List UInt8) :=
  match componentLoop component false [] [] with
  | none => none
  | some (base, extension) =>
    if base = [] then none else some (padded 8 base ++ padded 3 extension)

/-! ### New names -/

/-- A character that an alias keeps. -/
def aliasChar (byte : UInt8) : Option UInt8 :=
  let value := upper byte
  if (0x41 ≤ value ∧ value ≤ 0x5A) ∨ (0x30 ≤ value ∧ value ≤ 0x39) ∨ value = 0x5F then some value
  else none

/-- The name before its last dot, and what follows the dot. -/
def splitAtDot (leaf : Text) : Text × Option Text :=
  match leaf.reverse.findIdx? (· = 0x2E) with
  | none => (leaf, none)
  | some behind => (leaf.take (leaf.length - behind - 1), some (leaf.drop (leaf.length - behind)))

def aliasBase (leaf : Text) : List UInt8 :=
  match ((splitAtDot leaf).1.filterMap aliasChar).take 6 with
  | [] => [0x5F]
  | base => base

def aliasExtension (leaf : Text) : List UInt8 :=
  match (splitAtDot leaf).2 with
  | none => []
  | some extension => (extension.filterMap aliasChar).take 3

/-- The decimal digits of a number below 1000. -/
def aliasDigits (number : Nat) : List UInt8 :=
  let digit (value : Nat) : UInt8 := UInt8.ofNat (0x30 + value % 10)
  if number ≥ 100 then [digit (number / 100), digit (number / 10), digit number]
  else if number ≥ 10 then [digit (number / 10), digit number]
  else [digit number]

/-- The alias with a numeric tail that `fat32_make_short_alias` tries. -/
def numberedAlias (leaf : Text) (number : Nat) : List UInt8 :=
  let digits := aliasDigits number
  padded 8 ((aliasBase leaf).take (8 - digits.length - 1) ++ 0x7E :: digits) ++ padded 3 (aliasExtension leaf)

/-- The name that a leaf spells as it is, if it has a short form that is read back. -/
def exactAlias (leaf : Text) : Option (List UInt8) :=
  match componentToName leaf with
  | none => none
  | some name => if utf8NameMatches (formatName name) leaf then some name else none

def fat32BuildLfnEntry (name : List Nat) (ordinal total : Nat) (checksum : UInt8) : Slot :=
  let unit (index : Nat) : Nat :=
    let nameIndex := (ordinal - 1) * 13 + index
    if nameIndex < name.length then name.getD nameIndex 0
    else if nameIndex = name.length then 0 else 0xFFFF
  let units (start count : Nat) : List UInt8 :=
    (List.range count).flatMap fun index => digits 2 (unit (start + index))
  [if ordinal = total then UInt8.ofNat ordinal ||| 0x40 else UInt8.ofNat ordinal] ++ units 0 5 ++
    [FAT32_ATTR_LFN, 0, checksum] ++ units 5 6 ++ [0, 0] ++ units 11 2

end AsasOs.Fat32
