import AsasOs.ExFat.Paths

/-!
# exFAT: names as they are listed and as they are resolved

`utf16_to_utf8` writes the names of a listing, and `utf8_component` reads the components of a
path. The reader takes sequences of at most three bytes and stops at a slash, so that it
understands the names without surrogates, slashes and zeros, and no others.

## Main results

- `spells_plain`: a plain name is read as it is.
- `spells_short`: of any other name, components of fewer units are read.
-/
namespace AsasOs.ExFat

variable {name front back : List Nat} {unit : Nat} {bytes : Path} {names : List (List Nat)}

/-! ### The bytes of a unit -/

def Surrogate (unit : Nat) : Prop := 0xD800 ≤ unit ∧ unit ≤ 0xDFFF

instance (unit : Nat) : Decidable (Surrogate unit) := inferInstanceAs (Decidable (_ ∧ _))

def unitBytes (unit : Nat) : Path :=
  if unit < 0x80 then [UInt8.ofNat unit]
  else if unit < 0x800 then
    [UInt8.ofNat (0xC0 + unit / 64), UInt8.ofNat (0x80 + unit % 64)]
  else
    [UInt8.ofNat (0xE0 + unit / 4096), UInt8.ofNat (0x80 + unit / 64 % 64), UInt8.ofNat (0x80 + unit % 64)]

theorem utf16ToUtf8_cons (single : ¬Surrogate unit) (rest : List Nat) :
    utf16ToUtf8 (unit :: rest) = (utf16ToUtf8 rest).map (unitBytes unit ++ ·) := by
  have alone : ¬(0xD800 ≤ unit ∧ unit ≤ 0xDFFF) := single
  rw [utf16ToUtf8.eq_def]
  dsimp only
  rw [if_neg alone]
  unfold unitBytes
  cases utf16ToUtf8 rest with
  | none => rfl
  | some after =>
    change (if unit < 0x80 then some (UInt8.ofNat unit :: after)
      else if unit < 0x800 then _ else _) = _
    rw [Option.map_some]
    split_ifs <;> rfl

theorem utf16ToUtf8_append (single : ∀ unit ∈ front, ¬Surrogate unit) :
    utf16ToUtf8 (front ++ back) = (utf16ToUtf8 back).map (front.flatMap unitBytes ++ ·) := by
  induction front with
  | nil =>
    rw [List.nil_append, List.flatMap_nil]
    cases utf16ToUtf8 back <;> rfl
  | cons unit front ih =>
    rw [List.cons_append, utf16ToUtf8_cons (single unit List.mem_cons_self),
      ih fun other member => single other (List.mem_cons_of_mem _ member), List.flatMap_cons,
      Option.map_map]
    congr 1
    funext bytes
    exact (List.append_assoc _ _ _).symm

theorem utf16ToUtf8_single (single : ∀ unit ∈ name, ¬Surrogate unit) :
    utf16ToUtf8 name = some (name.flatMap unitBytes) := by
  have whole : utf16ToUtf8 (name ++ []) = _ := utf16ToUtf8_append single
  rw [List.append_nil] at whole
  rw [whole, utf16ToUtf8, Option.map_some, List.append_nil]

def nameBytes (name : List Nat) : Nat := (name.flatMap unitBytes).length

theorem length_le_nameBytes (name : List Nat) : name.length ≤ nameBytes name := by
  induction name with
  | nil => exact Nat.le_refl _
  | cons unit name ih =>
    have some_bytes : 1 ≤ (unitBytes unit).length := by
      unfold unitBytes
      split_ifs
      all_goals simp only [List.length_cons, List.length_nil]
      all_goals omega
    unfold nameBytes at ih ⊢
    rw [List.flatMap_cons, List.length_append, List.length_cons]
    omega

theorem continuation_bits : ∀ value < 64, UInt8.ofNat (0x80 + value) &&& 0xC0 = 0x80 ∧
    (UInt8.ofNat (0x80 + value) &&& 0x3F).toNat = value ∧ UInt8.ofNat (0x80 + value) ≠ 0 := by
  decide

theorem two_bits : ∀ value < 32, UInt8.ofNat (0xC0 + value) &&& 0xE0 = 0xC0 ∧
    (UInt8.ofNat (0xC0 + value) &&& 0x1F).toNat = value ∧ ¬UInt8.ofNat (0xC0 + value) < 0x80 ∧
    UInt8.ofNat (0xC0 + value) ≠ SLASH ∧ UInt8.ofNat (0xC0 + value) ≠ 0 := by
  decide

theorem three_bits : ∀ value < 16, UInt8.ofNat (0xE0 + value) &&& 0xF0 = 0xE0 ∧
    UInt8.ofNat (0xE0 + value) &&& 0xE0 ≠ 0xC0 ∧
    (UInt8.ofNat (0xE0 + value) &&& 0x0F).toNat = value ∧ ¬UInt8.ofNat (0xE0 + value) < 0x80 ∧
    UInt8.ofNat (0xE0 + value) ≠ SLASH ∧ UInt8.ofNat (0xE0 + value) ≠ 0 := by
  decide

theorem ascii_bits : ∀ value < 128, UInt8.ofNat value < 0x80 ∧ (UInt8.ofNat value).toNat = value ∧
    (UInt8.ofNat value = SLASH ↔ value = SLASH.toNat) ∧ (UInt8.ofNat value = 0 ↔ value = 0) := by
  decide

theorem utf8Units_unitBytes (single : ¬Surrogate unit) (small : unit < 2 ^ 16)
    (notSlash : unit ≠ SLASH.toNat) (rest : Path) :
    utf8Units (unitBytes unit ++ rest) = (utf8Units rest).map fun read => (unit :: read.1, read.2) := by
  have alone : ¬(0xD800 ≤ unit ∧ unit ≤ 0xDFFF) := single
  unfold unitBytes
  split_ifs with ascii two
  · obtain ⟨low, same, slash, -⟩ := ascii_bits unit ascii
    rw [List.singleton_append, utf8Units.eq_def]
    dsimp only
    rw [if_neg (fun here => notSlash (slash.mp here)), if_pos low, same]
    cases utf8Units rest <;> rfl
  · have whole := Nat.div_add_mod unit 64
    obtain ⟨kind, high, notAscii, other, -⟩ := two_bits (unit / 64) (by omega)
    obtain ⟨kind', low, -⟩ := continuation_bits (unit % 64) (Nat.mod_lt _ (by decide))
    rw [utf8Units.eq_def]
    dsimp only [List.cons_append, List.nil_append]
    rw [if_neg other, if_neg notAscii, if_pos ⟨kind, kind'⟩, high, low, if_neg (by omega)]
    have value : unit / 64 * 64 + unit % 64 = unit := by omega
    rw [value]
    cases utf8Units rest <;> rfl
  · obtain ⟨kind, notTwo, high, notAscii, other, -⟩ := three_bits (unit / 4096) (by omega)
    obtain ⟨kind', middle, -⟩ := continuation_bits (unit / 64 % 64) (Nat.mod_lt _ (by decide))
    obtain ⟨kind'', low, -⟩ := continuation_bits (unit % 64) (Nat.mod_lt _ (by decide))
    have value : unit / 4096 * 4096 + unit / 64 % 64 * 64 + unit % 64 = unit := by omega
    rw [utf8Units.eq_def]
    dsimp only [List.cons_append, List.nil_append]
    rw [if_neg other, if_neg notAscii, if_neg fun both => notTwo both.1, if_pos ⟨kind, kind', kind''⟩,
      high, middle, low, value, if_neg (by omega)]
    cases utf8Units rest <;> rfl

theorem zero_unitBytes (some_unit : unit ≠ 0) (small : unit < 2 ^ 16) :
    (0 : UInt8) ∉ unitBytes unit := by
  unfold unitBytes
  split_ifs with ascii two
  · have zero := (ascii_bits unit ascii).2.2.2
    rw [List.mem_singleton]
    exact fun here => some_unit (zero.mp here.symm)
  · have first := (two_bits (unit / 64) (by omega)).2.2.2.2
    have second := (continuation_bits (unit % 64) (Nat.mod_lt _ (by decide))).2.2
    simp only [List.mem_cons, List.not_mem_nil, or_false, not_or]
    exact ⟨first.symm, second.symm⟩
  · have first := (three_bits (unit / 4096) (by omega)).2.2.2.2.2
    have second := (continuation_bits (unit / 64 % 64) (Nat.mod_lt _ (by decide))).2.2
    have third := (continuation_bits (unit % 64) (Nat.mod_lt _ (by decide))).2.2
    simp only [List.mem_cons, List.not_mem_nil, or_false, not_or]
    exact ⟨first.symm, second.symm, third.symm⟩

/-! ### PlainName names -/

/-- The bytes in front of a terminating zero. -/
def cString (bytes : Path) : Path := bytes.takeWhile (· != 0)

/-- A unit that is written and read alike within a component. -/
def PlainUnit (unit : Nat) : Prop := unit ≠ 0 ∧ unit ≠ SLASH.toNat ∧ ¬Surrogate unit

instance (unit : Nat) : Decidable (PlainUnit unit) := inferInstanceAs (Decidable (_ ∧ _))

def PlainName (name : List Nat) : Prop := ∀ unit ∈ name, PlainUnit unit

instance (name : List Nat) : Decidable (PlainName name) :=
  inferInstanceAs (Decidable (∀ unit ∈ name, PlainUnit unit))

theorem cString_zero (noZero : (0 : UInt8) ∉ bytes) (rest : Path) :
    cString (bytes ++ 0 :: rest) = bytes := by
  have all : ∀ byte ∈ bytes, (byte != 0) = true := by
    intro byte member
    exact bne_iff_ne.mpr fun zero => noZero (zero ▸ member)
  rw [cString, List.takeWhile_append_of_pos all, List.takeWhile_cons_of_neg (by decide), List.append_nil]

theorem cString_append (noZero : (0 : UInt8) ∉ bytes) (rest : Path) :
    cString (bytes ++ rest) = bytes ++ cString rest := by
  refine List.takeWhile_append_of_pos fun byte member => ?_
  exact bne_iff_ne.mpr fun zero => noZero (zero ▸ member)

theorem cString_cons {byte : UInt8} (notZero : byte ≠ 0) (rest : Path) :
    cString (byte :: rest) = byte :: cString rest := by
  rw [cString, List.takeWhile_cons, if_pos (bne_iff_ne.mpr notZero)]
  rfl

theorem cString_self (noZero : (0 : UInt8) ∉ bytes) : cString bytes = bytes := by
  have whole : cString (bytes ++ []) = bytes ++ [] := cString_append noZero []
  rwa [List.append_nil] at whole

section Names

variable (plain : PlainName name) (small : ∀ unit ∈ name, unit < 2 ^ 16)
include plain small

theorem plain_zero : (0 : UInt8) ∉ name.flatMap unitBytes := by
  intro zero
  obtain ⟨unit, member, inside⟩ := List.mem_flatMap.mp zero
  exact zero_unitBytes (plain unit member).1 (small unit member) inside

theorem utf8Units_plain (rest : Path) : utf8Units (name.flatMap unitBytes ++ rest) =
      (utf8Units rest).map fun read => (name ++ read.1, read.2) := by
  induction name with
  | nil =>
    rw [List.flatMap_nil, List.nil_append]
    cases utf8Units rest <;> rfl
  | cons unit name ih =>
    have single := plain unit List.mem_cons_self
    rw [List.flatMap_cons, List.append_assoc,
      utf8Units_unitBytes single.2.2 (small unit List.mem_cons_self) single.2.1,
      ih (fun other member => plain other (List.mem_cons_of_mem _ member))
        fun other member => small other (List.mem_cons_of_mem _ member), Option.map_map]
    rfl

theorem skipSlashes_plain (some_units : name ≠ []) (rest : Path) :
    skipSlashes (name.flatMap unitBytes ++ rest) = name.flatMap unitBytes ++ rest := by
  cases name with
  | nil => exact absurd rfl some_units
  | cons unit name =>
    have single := plain unit List.mem_cons_self
    have low := small unit List.mem_cons_self
    have begins : ∃ first others, unitBytes unit = first :: others ∧ first ≠ SLASH := by
      unfold unitBytes
      split_ifs with ascii two
      · exact ⟨_, _, rfl, fun here => single.2.1 ((ascii_bits unit ascii).2.2.1.mp here)⟩
      · exact ⟨_, _, rfl, (two_bits (unit / 64) (by omega)).2.2.2.1⟩
      · exact ⟨_, _, rfl, (three_bits (unit / 4096) (by omega)).2.2.2.2.1⟩
    obtain ⟨first, others, same, notSlash⟩ := begins
    rw [List.flatMap_cons, same]
    exact skipSlashes_other notSlash

end Names

theorem utf8Units_of_component {path after : Path} (read : utf8Component path = some (name, after)) :
    utf8Units (skipSlashes path) = some (name, after) := by
  obtain ⟨⟨units, after'⟩, here, later⟩ := Option.bind_eq_some_iff.mp read
  obtain ⟨⟨⟩, -, same⟩ := Option.bind_eq_some_iff.mp later
  cases same
  exact here

theorem utf8Units_name (plain : PlainName name) (small : ∀ unit ∈ name, unit < 2 ^ 16) :
    utf8Units (name.flatMap unitBytes) = some (name, []) := by
  have read := utf8Units_plain plain small []
  rw [List.append_nil] at read
  rw [read, utf8Units, Option.map_some, List.append_nil]

/-- A plain name is read as it is. -/
theorem spells_plain (plain : PlainName name) (small : ∀ unit ∈ name, unit < 2 ^ 16)
    (some_units : name ≠ []) (short : name.length ≤ 255) :
    Spells (name.flatMap unitBytes) [name] := by
  have skipped := skipSlashes_plain plain small some_units []
  rw [List.append_nil] at skipped
  have lengths : name.length ≤ 255 ∧ name.length ≠ 0 :=
    ⟨short, fun empty => some_units (List.eq_nil_of_length_eq_zero empty)⟩
  have component : utf8Component (name.flatMap unitBytes) = some (name, []) := by
    rw [utf8Component, skipped, utf8Units_name plain small]
    change (guard _ >>= fun _ => some (name, [])) = _
    rw [guard, if_pos lengths]
    rfl
  exact .name component (.done rfl)

theorem mem_of_spells_plain (plain : PlainName name) (small : ∀ unit ∈ name, unit < 2 ^ 16)
    (spells : Spells (name.flatMap unitBytes) names) : ∀ other ∈ names, other = name := by
  cases spells with
  | done slashes => exact nofun
  | name component rest =>
    rename_i after first others
    by_cases empty : name = []
    · rw [empty] at component
      cases component
    · have read := utf8Units_of_component component
      have skipped := skipSlashes_plain plain small empty []
      rw [List.append_nil] at skipped
      rw [skipped, utf8Units_name plain small] at read
      cases read
      intro other member
      rcases List.mem_cons.mp member with rfl | later
      · rfl
      · cases rest with
        | done slashes => cases later
        | name component' rest' => cases component'

/-! ### Other names -/

theorem split_of_not_plain (notPlain : ¬PlainName name) :
    ∃ front unit back, name = front ++ unit :: back ∧ PlainName front ∧ ¬PlainUnit unit := by
  induction name with
  | nil => exact absurd nofun notPlain
  | cons unit name ih =>
    by_cases first : PlainUnit unit
    · have later : ¬PlainName name := by
        intro plain
        refine notPlain fun other member => ?_
        rcases List.mem_cons.mp member with rfl | inside
        · exact first
        · exact plain other inside
      obtain ⟨front, other, back, rfl, plain, found⟩ := ih later
      refine ⟨unit :: front, other, back, rfl, fun u member => ?_, found⟩
      rcases List.mem_cons.mp member with rfl | inside
      · exact first
      · exact plain u inside
    · exact ⟨[], unit, name, rfl, nofun, first⟩

theorem four_bits : ∀ value < 5, ¬UInt8.ofNat (0xF0 + value) < 0x80 ∧
    UInt8.ofNat (0xF0 + value) &&& 0xE0 ≠ 0xC0 ∧ UInt8.ofNat (0xF0 + value) &&& 0xF0 ≠ 0xE0 ∧
    UInt8.ofNat (0xF0 + value) ≠ SLASH ∧ UInt8.ofNat (0xF0 + value) ≠ 0 := by
  decide

theorem utf16ToUtf8_surrogate (surrogate : Surrogate unit) (small : ∀ unit ∈ back, unit < 2 ^ 16)
    (written : utf16ToUtf8 (unit :: back) = some bytes) :
    ∃ value < 5, ∃ after, bytes = UInt8.ofNat (0xF0 + value) :: after := by
  have pair : 0xD800 ≤ unit ∧ unit ≤ 0xDFFF := surrogate
  rw [utf16ToUtf8.eq_def] at written
  dsimp only at written
  rw [if_pos pair] at written
  cases back with
  | nil => cases written
  | cons low rest =>
    dsimp only at written
    split at written
    · rename_i partner
      obtain ⟨after, -, same⟩ := Option.bind_eq_some_iff.mp written
      cases same
      refine ⟨_, ?_, _, rfl⟩
      have bound : (unit - 0xD800) * 1024 ≤ 0x3FF * 1024 := Nat.mul_le_mul_right _ (by omega)
      omega
    · cases written

theorem utf8Units_four {value : Nat} (few : value < 5) (after : Path) :
    utf8Units (UInt8.ofNat (0xF0 + value) :: after) = none := by
  obtain ⟨notAscii, notTwo, notThree, notSlash, -⟩ := four_bits value few
  rw [utf8Units.eq_def]
  dsimp only
  rw [if_neg notSlash, if_neg notAscii]
  cases after with
  | nil => rfl
  | cons second after =>
    dsimp only
    rw [if_neg fun both => notTwo both.1]
    cases after with
    | nil => rfl
    | cons third after =>
      dsimp only
      rw [if_neg fun all => notThree all.1]

/-- Of a name that is not plain, components of fewer units are read, if any. -/
theorem spells_short {count : Nat} : ∀ {name : List Nat} {bytes : Path} {names : List (List Nat)},
    name.length ≤ count → (∀ unit ∈ name, unit < 2 ^ 16) → utf16ToUtf8 name = some bytes →
    Spells (cString bytes) names →
    ∀ other ∈ names, other.length ≤ name.length ∧ (other.length = name.length → PlainName name) := by
  induction count with
  | zero =>
    intro name bytes names short small written spells other member
    obtain rfl : name = [] := List.eq_nil_of_length_eq_zero (by omega)
    cases written
    have empty : PlainName [] := nofun
    rw [mem_of_spells_plain empty small spells other member]
    exact ⟨Nat.le_refl _, fun _ => empty⟩
  | succ count ih =>
    intro name bytes names short small written spells other member
    by_cases plain : PlainName name
    · refine ⟨?_, fun _ => plain⟩
      have bytes' : bytes = name.flatMap unitBytes := by
        have whole := utf16ToUtf8_single fun unit inside => (plain unit inside).2.2
        rw [written] at whole
        exact Option.some.inj whole
      rw [bytes', cString_self (plain_zero plain small)] at spells
      rw [mem_of_spells_plain plain small spells other member]
    · obtain ⟨front, unit, back, rfl, plainFront, notPlain⟩ := split_of_not_plain plain
      have smallFront : ∀ unit ∈ front, unit < 2 ^ 16 :=
        fun unit inside => small unit (List.mem_append_left _ inside)
      have smallBack : ∀ unit ∈ back, unit < 2 ^ 16 := fun unit inside =>
        small unit (List.mem_append_right _ (List.mem_cons_of_mem _ inside))
      have length : (front ++ unit :: back).length = front.length + back.length + 1 := by
        rw [List.length_append, List.length_cons]
        omega
      rw [utf16ToUtf8_append fun unit inside => (plainFront unit inside).2.2] at written
      obtain ⟨tail, later, rfl⟩ := Option.map_eq_some_iff.mp written
      rw [length] at short ⊢
      by_cases surrogate : Surrogate unit
      · -- the reader stops at a sequence of four bytes
        obtain ⟨value, few, after, rfl⟩ := utf16ToUtf8_surrogate surrogate smallBack later
        obtain ⟨-, -, -, notSlash, notZero⟩ := four_bits value few
        rw [cString_append (plain_zero plainFront smallFront), cString_cons notZero] at spells
        cases spells with
        | done slashes => cases member
        | name component rest =>
          have read := utf8Units_of_component component
          have skipped : skipSlashes (front.flatMap unitBytes ++
              UInt8.ofNat (0xF0 + value) :: cString after) =
                front.flatMap unitBytes ++ UInt8.ofNat (0xF0 + value) :: cString after := by
            by_cases empty : front = []
            · rw [empty]
              exact skipSlashes_other notSlash
            · exact skipSlashes_plain plainFront smallFront empty _
          rw [skipped, utf8Units_plain plainFront smallFront, utf8Units_four few] at read
          cases read
      · rw [utf16ToUtf8_cons surrogate] at later
        obtain ⟨rest, after, rfl⟩ := Option.map_eq_some_iff.mp later
        by_cases zero : unit = 0
        · -- what lies behind a zero is not seen
          rw [zero, show unitBytes 0 = [0] from rfl, List.singleton_append,
            cString_zero (plain_zero plainFront smallFront)] at spells
          rw [mem_of_spells_plain plainFront smallFront spells other member]
          omega
        · -- a slash ends a component
          have slash : unit = SLASH.toNat := by
            by_contra notSlash
            exact notPlain ⟨zero, notSlash, surrogate⟩
          rw [slash, show unitBytes SLASH.toNat = [SLASH] from rfl, List.singleton_append,
            cString_append (plain_zero plainFront smallFront), cString_cons (by decide)] at spells
          obtain ⟨before, behind, rfl, spellsFront, spellsBack⟩ := spells.split
          rcases List.mem_append.mp member with inFront | inBack
          · rw [mem_of_spells_plain plainFront smallFront spellsFront other inFront]
            omega
          · have shorter := (ih (by omega) smallBack after spellsBack other inBack).1
            omega

end AsasOs.ExFat
