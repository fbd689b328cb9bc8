import AsasOs.Lib.Bytes
import AsasOs.Lib.Components
import AsasOs.Lib.Termination
import AsasOs.Lib.Outcomes

/-!
# Names and paths on optical media

What `iso9660.c` and `udf.c` have in common: names in buffers of 256 bytes, the comparison of names, and the
components of a path. A string is the bytes in front of its terminator.

## Main results

- `appendUnit_safe`: what is appended to a name fits in the buffer.
- `followPath_eq`: following a path is one lookup after the other.
-/
namespace AsasOs.Optical

open Bytes Checked

abbrev Memory := Nat → UInt8

abbrev Name := List UInt8

def SLASH : UInt8 := 0x2F
def DOT : UInt8 := 0x2E
def SEMICOLON : UInt8 := 0x3B

def lowerChar (value : UInt8) : UInt8 := if 0x41 ≤ value ∧ value ≤ 0x5A then value + 32 else value

/-- `strings_equal_ci`, of strings without their terminators. -/
def stringsEqualCi (left right : Name) : Bool := left.map lowerChar == right.map lowerChar

def cString (buffer : Name) : Name := buffer.takeWhile (· != 0)

/-! ### Buffers for names -/

def append (out bytes : Name) : Run Name := do
  access 256 out.length bytes.length
  pure (out ++ bytes)

/-- The terminator is stored, and the buffer has a string. -/
def terminated (out : Name) : Run Name := do
  access 256 out.length 1
  pure (cString out)

/-- A unit of 16 bits in UTF-8, in `copy_joliet_name` and `decode_cs0`. -/
def appendUnit (out : Name) (value : Nat) : Run Name :=
  if value < 0x80 then append out [UInt8.ofNat value]
  else if value < 0x800 ∧ out.length + 2 < 256 then
    append out [UInt8.ofNat (0xC0 ||| value >>> 6), UInt8.ofNat (0x80 ||| value &&& 0x3F)]
  else if out.length + 3 < 256 then
    append out [UInt8.ofNat (0xE0 ||| value >>> 12), UInt8.ofNat (0x80 ||| (value >>> 6) &&& 0x3F),
      UInt8.ofNat (0x80 ||| value &&& 0x3F)]
  else pure out

section Buffers

variable {out bytes : Name} {value : Nat}

theorem append_eq (room : out.length + bytes.length ≤ 256) : append out bytes = .ok (out ++ bytes) := by
  rw [append, access_inside room]
  rfl

theorem terminated_eq (room : out.length < 256) : terminated out = .ok (cString out) := by
  rw [terminated, access_inside room]
  rfl

/-- What is appended to a name leaves room for the terminator. -/
theorem appendUnit_safe (room : out.length + 1 < 256) :
    ∃ out', appendUnit out value = .ok out' ∧ out'.length < 256 := by
  unfold appendUnit
  split
  next => exact ⟨_, append_eq (by simpa using by omega), by simpa using room⟩
  next =>
    split
    next two => exact ⟨_, append_eq (by simpa using by omega), by simpa using two.2⟩
    next =>
      split
      next three => exact ⟨_, append_eq (by simpa using by omega), by simpa using three⟩
      next => exact ⟨out, rfl, by omega⟩

end Buffers

/-! ### Paths -/

/-- `next_path_component`: a component, and the rest of the path. -/
def nextPathComponent (path : Name) : Option (Name × Name) := Components.next SLASH 255 path

/-- The loop that follows a path with one lookup after the other, in `find_record` and `find_node`. -/
def followPath {σ : Type} (find : σ → Name → Run σ) (path : Name) (root : σ) : Run σ :=
  iterate (fun s : Name × σ =>
    match nextPathComponent s.1 with
    | none => pure (.inr s.2)
    | some (component, rest) => do
      let child ← find s.2 component
      pure (.inl (rest, child))) (path.length + 1) (path, root)

/-- A name that a path can have. -/
abbrev Component (name : Name) : Prop := Components.IsComponent SLASH 255 name

abbrev components (path : Name) : List Name := Components.split SLASH 255 path

/-- Following a path is one lookup after the other. -/
theorem followPath_eq {σ : Type} (find : σ → Name → Run σ) (path : Name) (root : σ) :
    followPath find path root = (components path).foldlM find root := by
  have rounds (more : Nat) (path : Name) (s : σ) (enough : path.length < more) :
      iterate (fun s : Name × σ =>
        match nextPathComponent s.1 with
        | none => pure (.inr s.2)
        | some (component, rest) => do
          let child ← find s.2 component
          pure (.inl (rest, child))) more (path, s) = (components path).foldlM find s := by
    induction more generalizing path s with
    | zero => omega
    | succ more ih =>
      rw [iterate_succ]
      dsimp only [nextPathComponent]
      cases next : Components.next SLASH 255 path with
      | none =>
        rw [components, Components.split_none next]
        rfl
      | some pair =>
        obtain ⟨component, rest⟩ := pair
        rw [components, Components.split_next next, List.foldlM_cons]
        dsimp only
        cases find s component with
        | error stop => rfl
        | ok child =>
          have shorter := Components.next_shorter next
          exact ih rest child (by omega)
  exact rounds _ path root (Nat.lt_succ_self _)

end AsasOs.Optical
