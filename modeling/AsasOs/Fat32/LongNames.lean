import AsasOs.Fat32.Names
import AsasOs.Lib.Unicode
import Mathlib.Data.FinEnum
import Mathlib.Data.List.GetD

/-!
# FAT32: long names

A name that the driver accepts is a text in UTF-8, and what it stores of the name are the
UTF-16 units of that text, thirteen to an entry. The entries give the units back, and the
units the text, up to the first unit that is a padding value.
-/
namespace AsasOs.Fat32

open Bytes Unicode

/-! ### Bytes of UTF-8 -/

section Bits

theorem continues_iff (byte : UInt8) : continues byte = true ↔ 0x80 ≤ byte.toNat ∧
    byte.toNat < 0xC0 := by
  revert byte
  decide +kernel

theorem leads_iff (byte : UInt8) :
    (byte &&& 0xE0 = 0xC0 ↔ 0xC0 ≤ byte.toNat ∧ byte.toNat < 0xE0) ∧
    (byte &&& 0xF0 = 0xE0 ↔ 0xE0 ≤ byte.toNat ∧ byte.toNat < 0xF0) ∧
    (byte &&& 0xF8 = 0xF0 ↔ 0xF0 ≤ byte.toNat ∧ byte.toNat < 0xF8) := by
  revert byte
  decide +kernel

theorem or_high (high width low : Nat) (small : low < 2 ^ width) :
    2 ^ width * high ||| low = 2 ^ width * high + low :=
  (Nat.two_pow_add_eq_or_of_lt small high).symm

theorem and_low (number : Nat) : number &&& 0x3F = number % 64 :=
  Nat.and_two_pow_sub_one_eq_mod number 6

end Bits

theorem continues_inside {input : Text} {index : Nat}
    (here : continues (byteAt input index) = true) : index < input.length := by
  by_contra outside
  have zero : byteAt input index = 0 := by simp [byteAt, List.getD, Nat.le_of_not_lt outside]
  rw [zero] at here
  exact absurd here (by decide)

/-! ### From UTF-8 to UTF-16 -/

section Accepted

variable {c : Char} {cp width rounds : Nat} {input rest : Text} {output units : List Nat}

theorem utf16Units_toNat (c : Char) : utf16Units c.toNat = utf16EncodeChar c := rfl

theorem three_more {first : UInt8} {rest : Text} (inside : 3 < (first :: rest).length) :
    ∃ second third fourth more, rest = second :: third :: fourth :: more := by
  rcases rest with _ | ⟨second, _ | ⟨third, _ | ⟨fourth, more⟩⟩⟩ <;> simp at inside ⊢

theorem firstCodePoint_sound (first : UInt8) (rest : Text)
    (found : firstCodePoint (first :: rest) = some (cp, width)) :
    ∃ c : Char, c.toNat = cp ∧
    first :: rest = String.utf8EncodeChar c ++ (first :: rest).drop width := by
  have value (c : Char) : c.val.toNat = c.toNat := rfl
  simp only [firstCodePoint, leads_iff, byteAt, List.getD_cons_zero] at found
  split at found
  · -- one byte
    rename_i ascii
    have small : first.toNat < 0x80 := ascii
    simp only [Option.some.injEq, Prod.mk.injEq] at found
    obtain ⟨c, same⟩ := exists_char first.toNat (.inl (by omega))
    refine ⟨c, by omega, ?_⟩
    simp [← found.2, String.utf8EncodeChar, value, same, show first.toNat ≤ 0x7F by omega]
  split at found
  · -- two bytes
    rename_i leads
    have inside := continues_inside leads.2
    rw [continues_iff] at leads
    rcases rest with _ | ⟨second, rest⟩
    · simp at inside
    · simp only [List.getD_cons_succ, List.getD_cons_zero] at found leads
      split at found
      · cases found
      simp only [Option.some.injEq, Prod.mk.injEq] at found
      obtain ⟨c, same⟩ := exists_char cp (.inl (by omega))
      refine ⟨c, same, ?_⟩
      simp only [String.utf8EncodeChar, value, same, ← found.2, if_neg (show ¬cp ≤ 0x7F by omega),
        if_pos (show cp ≤ 0x7FF by omega), List.drop_succ_cons, List.drop_zero, List.cons_append,
        List.nil_append, List.cons.injEq, ← UInt8.toNat_inj, UInt8.toNat_ofNat', and_true]
      omega
  split at found
  · -- three bytes
    rename_i leads
    have inside := continues_inside leads.2.2
    simp only [continues_iff] at leads
    rcases rest with _ | ⟨second, _ | ⟨third, rest⟩⟩
    · simp at inside
    · simp at inside
    · simp only [List.getD_cons_succ, List.getD_cons_zero] at found leads
      split at found
      · cases found
      simp only [Option.some.injEq, Prod.mk.injEq] at found
      obtain ⟨c, same⟩ := exists_char cp (by omega)
      refine ⟨c, same, ?_⟩
      simp only [String.utf8EncodeChar, value, same, ← found.2, if_neg (show ¬cp ≤ 0x7F by omega),
        if_neg (show ¬cp ≤ 0x7FF by omega), if_pos (show cp ≤ 0xFFFF by omega),
        List.drop_succ_cons, List.drop_zero, List.cons_append,
        List.nil_append, List.cons.injEq, ← UInt8.toNat_inj, UInt8.toNat_ofNat', and_true]
      omega
  split at found
  · -- four bytes
    rename_i leads
    have inside := continues_inside leads.2.2.2
    simp only [continues_iff] at leads
    obtain ⟨second, third, fourth, rest, rfl⟩ := three_more inside
    simp only [List.getD_cons_succ, List.getD_cons_zero] at found leads
    split at found
    · cases found
    simp only [Option.some.injEq, Prod.mk.injEq] at found
    obtain ⟨c, same⟩ := exists_char cp (.inr (by omega))
    refine ⟨c, same, ?_⟩
    simp only [String.utf8EncodeChar, value, same, ← found.2, if_neg (show ¬cp ≤ 0x7F by omega),
      if_neg (show ¬cp ≤ 0x7FF by omega), if_neg (show ¬cp ≤ 0xFFFF by omega),
      List.drop_succ_cons, List.drop_zero, List.cons_append,
      List.nil_append, List.cons.injEq, ← UInt8.toNat_inj, UInt8.toNat_ofNat', and_true]
    omega
  · cases found

theorem utf8Loop_sound (enough : input.length ≤ rounds)
    (accepted : utf8Loop rounds input output = some units) :
    ∃ text, input = utf8 text ∧ units = output ++ utf16 text := by
  induction rounds generalizing input output with
  | zero =>
    simp only [utf8Loop, Option.some.injEq] at accepted
    have empty : input = [] := by simpa using enough
    exact ⟨[], empty, by simp [accepted]⟩
  | succ rounds ih =>
    rw [utf8Loop] at accepted
    split at accepted
    · rename_i empty
      simp only [List.isEmpty_iff] at empty
      exact ⟨[], empty, by simpa using accepted.symm⟩
    · rename_i more
      obtain ⟨first, rest, rfl⟩ := List.exists_cons_of_ne_nil (by simpa using more)
      split at accepted
      · cases accepted
      · rename_i cp width found
        split at accepted
        · cases accepted
        split at accepted
        · cases accepted
        obtain ⟨c, same, whole⟩ := firstCodePoint_sound first rest found
        -- the encoding of a character is not empty, so there is a round less to go
        have shorter : ((first :: rest).drop width).length ≤ rounds := by
          have sizes := congrArg List.length whole
          have positive := c.utf8Size_pos
          rw [List.length_append, String.length_utf8EncodeChar] at sizes
          omega
        obtain ⟨text, left, units_eq⟩ := ih shorter accepted
        refine ⟨c :: text, ?_, ?_⟩
        · rw [utf8_cons, ← left, ← whole]
        · rw [units_eq, utf16_cons, List.append_assoc, ← same, utf16Units_toNat]

theorem utf8NameToUtf16_sound (accepted : utf8NameToUtf16 input = some units) :
    ∃ text, input = utf8 text ∧ units = utf16 text ∧ units ≠ [] := by
  rw [utf8NameToUtf16] at accepted
  split at accepted
  · cases accepted
  · rename_i output run
    split at accepted
    · cases accepted
    · rename_i fine
      obtain ⟨text, left, units_eq⟩ := utf8Loop_sound le_rfl run
      simp only [Option.some.injEq] at accepted
      subst accepted
      exact ⟨text, left, by simpa using units_eq, fun empty => fine (.inl empty)⟩

theorem utf8Loop_forbidden (accepted : utf8Loop rounds input output = some units)
    (before : ∀ unit ∈ output, unit ≠ 0) : ∀ unit ∈ units, unit ≠ 0 := by
  induction rounds generalizing input output with
  | zero =>
    simp only [utf8Loop, Option.some.injEq] at accepted
    exact accepted ▸ before
  | succ rounds ih =>
    rw [utf8Loop] at accepted
    split at accepted
    · simp only [Option.some.injEq] at accepted
      exact accepted ▸ before
    · split at accepted
      · cases accepted
      · rename_i cp width found
        split at accepted
        · cases accepted
        split at accepted
        · cases accepted
        rename_i allowed _
        refine ih accepted fun unit member => ?_
        rcases List.mem_append.mp member with old | new
        · exact before unit old
        · have printable : 0x20 ≤ cp := by
            simp only [forbidden, Bool.or_eq_true, decide_eq_true_eq, not_or] at allowed
            omega
          unfold utf16Units at new
          split at new <;> simp at new <;> omega

theorem utf8NameToUtf16_nonzero (accepted : utf8NameToUtf16 input = some units) :
    ∀ unit ∈ units, unit ≠ 0 := by
  rw [utf8NameToUtf16] at accepted
  split at accepted
  · cases accepted
  · rename_i output run
    split at accepted
    · cases accepted
    · simp only [Option.some.injEq] at accepted
      exact accepted ▸ utf8Loop_forbidden run (by simp)

end Accepted

/-! ### The entries of a name -/

/-- The last entries of a name in the order in which they are stored: `n`, `n - 1`, ..., 1. -/
def lastEntries (units : List Nat) (total : Nat) (checksum : UInt8) (n : Nat) : List Slot :=
  (List.range n).map fun index => fat32BuildLfnEntry units (n - index) total checksum

def longNameEntries (units : List Nat) (checksum : UInt8) : List Slot :=
  let count := (units.length + 12) / 13
  lastEntries units count checksum count

/-- Feed entries to `lfn_accept`. -/
def acceptAll (entries : List Slot) (lfn : Lfn) : Option Lfn :=
  entries.foldlM (fun lfn entry => lfnAccept entry lfn) lfn

/-- The unit that is stored at an index: of the name, its terminator, or padding. -/
def storedUnit (units : List Nat) (index : Nat) : Nat :=
  if index < units.length then units.getD index 0 else if index = units.length then 0 else 0xFFFF

section Entries

variable {units : List Nat} {ordinal total : Nat} {checksum : UInt8} {lfn : Lfn}

theorem getLE_pairs (f : Nat → Nat) (before behind : List UInt8) (count index : Nat)
    (below : index < count) (small : f index < 2 ^ 16) :
    getLE (before ++ ((List.range count).flatMap fun i => digits 2 (f i)) ++ behind)
      (before.length + 2 * index) 2 = f index := by
  let blocks := (List.range count).map fun i => digits 2 (f i)
  have sized : ∀ block ∈ blocks, block.length = 2 := by simp [blocks]
  have total : blocks.flatten.length = count * 2 := by simp [flatten_length sized, blocks]
  have inside : index < blocks.length := by simpa [blocks] using below
  have cut := slice_flatten sized inside
  change (List.map (fun i => digits 2 (f i)) (List.range count)).flatten.length = _ at total
  rw [List.flatMap_def, List.append_assoc, getLE_append_right, getLE_append_left (by omega),
    getLE, Nat.mul_comm, cut]
  simp only [blocks, List.getElem_map, List.getElem_range, value_digits]
  exact Nat.mod_eq_of_lt small

theorem storedUnit_lt (small : ∀ unit ∈ units, unit < 2 ^ 16) (index : Nat) :
    storedUnit units index < 2 ^ 16 := by
  unfold storedUnit
  split
  · rename_i inside
    rw [List.getD_eq_getElem?_getD, List.getElem?_eq_getElem inside, Option.getD_some]
    exact small _ (List.getElem_mem inside)
  · split <;> omega

theorem built_type (units : List Nat) (ordinal total : Nat) (checksum : UInt8) :
    (fat32BuildLfnEntry units ordinal total checksum).lfnType = 0 := by
  simp [fat32BuildLfnEntry, Slot.lfnType, byteAt, List.range_succ, digits]

theorem built_cluster (units : List Nat) (ordinal total : Nat) (checksum : UInt8) :
    getLE (fat32BuildLfnEntry units ordinal total checksum) 26 2 = 0 := by
  simp [fat32BuildLfnEntry, getLE, slice, List.range_succ, digits, value]

theorem built_checksum (units : List Nat) (ordinal total : Nat) (checksum : UInt8) :
    (fat32BuildLfnEntry units ordinal total checksum).lfnChecksum = checksum := by
  simp [fat32BuildLfnEntry, Slot.lfnChecksum, byteAt, List.range_succ, digits]

theorem built_order (units : List Nat) (ordinal total : Nat) (checksum : UInt8) :
    (fat32BuildLfnEntry units ordinal total checksum).order =
      if ordinal = total then UInt8.ofNat ordinal ||| 0x40 else UInt8.ofNat ordinal := by
  simp [fat32BuildLfnEntry, Slot.order, byteAt]

/-- A row of units of a name. -/
def pieces (units : List Nat) (base start count : Nat) : List UInt8 :=
  (List.range count).flatMap fun i => digits 2 (storedUnit units (base + (start + i)))

theorem built_eq (units : List Nat) (ordinal total : Nat) (checksum : UInt8) :
    fat32BuildLfnEntry units ordinal total checksum =
      [(fat32BuildLfnEntry units ordinal total checksum).order] ++
        pieces units ((ordinal - 1) * 13) 0 5 ++ [FAT32_ATTR_LFN, 0, checksum] ++
        pieces units ((ordinal - 1) * 13) 5 6 ++ [0, 0] ++
        pieces units ((ordinal - 1) * 13) 11 2 := rfl

@[simp] theorem pieces_length (units : List Nat) (base start count : Nat) :
    (pieces units base start count).length = count * 2 := by
  simp [pieces, List.length_flatMap]

theorem getLE_pieces (small : ∀ unit ∈ units, unit < 2 ^ 16) {base start count index : Nat}
    (before behind : List UInt8) (low : start ≤ index) (high : index < start + count) {offset : Nat}
    (here : offset = before.length + 2 * (index - start)) :
    getLE (before ++ pieces units base start count ++ behind) offset 2 =
    storedUnit units (base + index) := by
  have read := getLE_pairs (fun i => storedUnit units (base + (start + i))) before behind
    count (index - start) (by omega) (storedUnit_lt small _)
  rw [here]
  refine read.trans ?_
  simp only [Nat.add_sub_cancel' low]

theorem built_unit (small : ∀ unit ∈ units, unit < 2 ^ 16) {index : Nat} (below : index < 13) :
    (fat32BuildLfnEntry units ordinal total checksum).lfnUnit index =
      storedUnit units ((ordinal - 1) * 13 + index) := by
  rw [Slot.lfnUnit, built_eq]
  by_cases first : index < 5
  · rw [if_pos first]
    simp only [List.append_assoc]
    rw [← List.append_assoc [_] (pieces units ((ordinal - 1) * 13) 0 5)]
    exact getLE_pieces small _ _ (Nat.zero_le _) (by omega) (by simp)
  · rw [if_neg first]
    by_cases second : index < 11
    · rw [if_pos second, List.append_assoc _ [0, 0]]
      exact getLE_pieces small _ _ (by omega) (by omega) (by simp)
    · rw [if_neg second, ← List.append_nil (_ ++ pieces units _ 11 2)]
      exact getLE_pieces small _ _ (by omega) (by omega) (by simp)

/-! ### Feeding the entries -/

theorem lastEntries_succ (units : List Nat) (total : Nat) (checksum : UInt8) (n : Nat) :
    lastEntries units total checksum (n + 1) =
      fat32BuildLfnEntry units (n + 1) total checksum :: lastEntries units total checksum n := by
  simp only [lastEntries, List.range_succ_eq_map, List.map_cons, List.map_map]
  simp [Function.comp_def]

theorem store_built (small : ∀ unit ∈ units, unit < 2 ^ 16) (lfn : Lfn) (index : Nat) :
    (lfn.store ((ordinal - 1) * 13) (fat32BuildLfnEntry units ordinal total checksum)).name index =
      if (ordinal - 1) * 13 ≤ index ∧ index < (ordinal - 1) * 13 + 13 ∧ index < 255 then
        storedUnit units index
      else lfn.name index := by
  simp only [Lfn.store]
  split
  · rename_i inside
    rw [built_unit small (by omega), Nat.add_sub_cancel' inside.1]
  · rfl

theorem order_flagged : ∀ ordinal < 32, (UInt8.ofNat ordinal ||| 0x40).toNat % 32 = ordinal := by
  decide

theorem order_flag : ∀ ordinal < 32, (UInt8.ofNat ordinal ||| 0x40) &&& 0x40 ≠ 0 := by
  decide

theorem order_plain : ∀ ordinal < 32, UInt8.ofNat ordinal &&& 0x40 = 0 := by
  decide

theorem accept_first (units : List Nat) (checksum : UInt8) (ordinal : Nat) (few : ordinal ≤ 20)
    (positive : 0 < ordinal) (lfn : Lfn) :
    lfnAccept (fat32BuildLfnEntry units ordinal ordinal checksum) lfn =
      some (Lfn.store ⟨lfnReset.name, checksum, true⟩ ((ordinal - 1) * 13)
        (fat32BuildLfnEntry units ordinal ordinal checksum)) := by
  have order : (fat32BuildLfnEntry units ordinal ordinal checksum).order.toNat % 32 = ordinal := by
    rw [built_order, if_pos rfl, order_flagged ordinal (by omega)]
  have flag : (fat32BuildLfnEntry units ordinal ordinal checksum).order &&& 0x40 ≠ 0 := by
    rw [built_order, if_pos rfl]
    exact order_flag ordinal (by omega)
  simp only [lfnAccept, order, built_type, built_cluster, built_checksum, if_pos flag]
  rw [if_neg (by simp; omega)]

theorem accept_next (units : List Nat) (below : ordinal < total) (few : total ≤ 20)
    (positive : 0 < ordinal)
    (valid : lfn.valid = true) (sum : lfn.checksum = checksum) :
    lfnAccept (fat32BuildLfnEntry units ordinal total checksum) lfn =
      some (lfn.store ((ordinal - 1) * 13) (fat32BuildLfnEntry units ordinal total checksum)) := by
  have plain := order_plain ordinal (by omega)
  have order : (fat32BuildLfnEntry units ordinal total checksum).order = UInt8.ofNat ordinal := by
    rw [built_order, if_neg (by omega)]
  have number : (UInt8.ofNat ordinal).toNat % 32 = ordinal := by
    rw [UInt8.toNat_ofNat']
    omega
  simp only [lfnAccept, order, number, plain, built_type, built_cluster, built_checksum, valid, sum]
  rw [if_neg (by simp; omega)]
  simp

theorem acceptAll_last (lfn : Lfn) (small : ∀ unit ∈ units, unit < 2 ^ 16) (few : total ≤ 20)
    (n : Nat) (below : n < total) (valid : lfn.valid = true) (sum : lfn.checksum = checksum) :
    ∃ lfn', acceptAll (lastEntries units total checksum n) lfn = some lfn' ∧ lfn'.valid = true ∧
      lfn'.checksum = checksum ∧
      ∀ index, lfn'.name index =
        if index < n * 13 ∧ index < 255 then storedUnit units index else lfn.name index := by
  induction n generalizing lfn with
  | zero => exact ⟨lfn, rfl, valid, sum, fun index => by simp⟩
  | succ n ih =>
    have accepted := accept_next units below few n.succ_pos valid sum
    obtain ⟨lfn', fed, valid', sum', name⟩ := @ih (lfn.store ((n + 1 - 1) * 13)
      (fat32BuildLfnEntry units (n + 1) total checksum)) (by omega) valid sum
    refine ⟨lfn', ?_, valid', sum', fun index => ?_⟩
    · rw [lastEntries_succ, acceptAll, List.foldlM_cons, accepted]
      exact fed
    · rw [name, store_built small]
      -- the piece of this entry lies behind those of the others
      split_ifs <;> first | rfl | omega

theorem acceptAll_longName (checksum : UInt8) (small : ∀ unit ∈ units, unit < 2 ^ 16)
    (some_ : units ≠ [])
    (few : units.length ≤ 255) (lfn : Lfn) :
    ∃ lfn', acceptAll (longNameEntries units checksum) lfn = some lfn' ∧ lfn'.valid = true ∧
      lfn'.checksum = checksum ∧ (∀ index < units.length, lfn'.name index = units.getD index 0) ∧
      (lfn'.name units.length = 0 ∨ lfn'.name units.length = 0xFFFF) := by
  have positive := List.length_pos_of_ne_nil some_
  obtain ⟨n, count⟩ : ∃ n, (units.length + 12) / 13 = n + 1 := ⟨(units.length + 12) / 13 - 1, by omega⟩
  have first := accept_first units checksum (n + 1) (by omega) (by omega) lfn
  obtain ⟨lfn', fed, valid, sum, name⟩ := acceptAll_last
    (Lfn.store ⟨lfnReset.name, checksum, true⟩ ((n + 1 - 1) * 13)
      (fat32BuildLfnEntry units (n + 1) (n + 1) checksum)) small (by omega) n (Nat.lt_succ_self n)
    rfl rfl
  have held (index : Nat) : lfn'.name index =
      if index < (n + 1) * 13 ∧ index < 255 then storedUnit units index else 0xFFFF := by
    rw [name, store_built small]
    simp only [lfnReset]
    split_ifs <;> first | rfl | omega
  refine ⟨lfn', ?_, valid, sum, fun index below => ?_, ?_⟩
  · simp only [longNameEntries, count, lastEntries_succ, acceptAll, List.foldlM_cons, first]
    exact fed
  · rw [held, if_pos (by omega), storedUnit, if_pos below]
  · rw [held, storedUnit]
    split_ifs <;> simp_all

end Entries

/-! ### From UTF-16 to UTF-8 -/

section Decoding

variable {c : Char} {text : List Char} {name : Nat → Nat} {input rounds : Nat} {output : Text}

theorem utf8Bytes_char (fits : output.length + c.utf8Size < 256) :
    utf8Bytes c.toNat output.length = String.utf8EncodeChar c := by
  have value : c.val.toNat = c.toNat := rfl
  have valid := scalar c
  have size : (String.utf8EncodeChar c).length = c.utf8Size := String.length_utf8EncodeChar c
  unfold utf8Bytes
  unfold String.utf8EncodeChar at size ⊢
  simp only [value, Nat.shiftRight_eq_div_pow, and_low] at size ⊢
  by_cases one : c.toNat < 0x80
  · rw [if_pos one, if_pos (show c.toNat ≤ 0x7F by omega)]
  rw [if_neg one, if_neg (show ¬c.toNat ≤ 0x7F by omega)]
  rw [if_neg (show ¬c.toNat ≤ 0x7F by omega)] at size
  by_cases two : c.toNat < 0x800
  · rw [if_pos (show c.toNat ≤ 0x7FF by omega)] at size ⊢
    simp only [List.length_cons, List.length_nil] at size
    rw [if_pos ⟨two, by omega⟩]
    have lead := or_high 6 5 (c.toNat / 2 ^ 6) (by omega)
    have last := or_high 2 6 (c.toNat % 64) (by omega)
    simp only [Nat.reducePow, Nat.reduceMul] at lead last ⊢
    rw [lead, last]
    simp only [List.cons.injEq, ← UInt8.toNat_inj, UInt8.toNat_ofNat', and_true]
    omega
  rw [if_neg (fun both => two both.1), if_neg (show ¬c.toNat ≤ 0x7FF by omega)]
  rw [if_neg (show ¬c.toNat ≤ 0x7FF by omega)] at size
  by_cases three : c.toNat < 0x10000
  · rw [if_pos (show c.toNat ≤ 0xFFFF by omega)] at size ⊢
    simp only [List.length_cons, List.length_nil] at size
    rw [if_pos ⟨three, by omega⟩]
    have lead := or_high 14 4 (c.toNat / 2 ^ 12) (by omega)
    have middle := or_high 2 6 (c.toNat / 2 ^ 6 % 64) (by omega)
    have last := or_high 2 6 (c.toNat % 64) (by omega)
    simp only [Nat.reducePow, Nat.reduceMul] at lead middle last ⊢
    rw [lead, middle, last]
    simp only [List.cons.injEq, ← UInt8.toNat_inj, UInt8.toNat_ofNat', and_true]
    omega
  · rw [if_neg (show ¬c.toNat ≤ 0xFFFF by omega)] at size ⊢
    simp only [List.length_cons, List.length_nil] at size
    rw [if_neg (fun both => three both.1), if_pos ⟨by omega, by omega⟩]
    have lead := or_high 30 3 (c.toNat / 2 ^ 18) (by omega)
    have second := or_high 2 6 (c.toNat / 2 ^ 12 % 64) (by omega)
    have third := or_high 2 6 (c.toNat / 2 ^ 6 % 64) (by omega)
    have last := or_high 2 6 (c.toNat % 64) (by omega)
    simp only [Nat.reducePow, Nat.reduceMul] at lead second third last ⊢
    rw [lead, second, third, last]
    simp only [List.cons.injEq, ← UInt8.toNat_inj, UInt8.toNat_ofNat', and_true]
    omega

theorem utf16EncodeChar_pos (c : Char) : 0 < (utf16EncodeChar c).length := by
  unfold utf16EncodeChar
  split <;> simp

theorem codePointAt_char (room : input + (utf16EncodeChar c).length ≤ 255)
    (held : ∀ i < (utf16EncodeChar c).length, name (input + i) = (utf16EncodeChar c).getD i 0) :
    codePointAt name input = (c.toNat, (utf16EncodeChar c).length) := by
  have valid := scalar c
  have first := held 0 (utf16EncodeChar_pos c)
  unfold codePointAt
  by_cases small : c.toNat < 2 ^ 16
  · simp only [utf16EncodeChar, if_pos small, Nat.add_zero, List.getD_cons_zero,
      List.length_singleton] at first ⊢
    -- a single unit is no surrogate
    rw [first, if_neg (by omega)]
  · simp only [utf16EncodeChar, if_neg small, List.length_cons, List.length_nil] at held first room ⊢
    have second := held 1 (by omega)
    simp only [Nat.add_zero, List.getD_cons_zero, List.getD_cons_succ] at first second
    rw [first, second, if_pos (by omega)]
    simp only [Prod.mk.injEq, and_true]
    omega

theorem utf16Loop_text (input : Nat)
    (held : ∀ i < (utf16 text).length, name (input + i) = (utf16 text).getD i 0)
    (plain : ∀ unit ∈ utf16 text, unit ≠ 0 ∧ unit ≠ 0xFFFF)
    (stops : name (input + (utf16 text).length) = 0 ∨ name (input + (utf16 text).length) = 0xFFFF)
    (room : input + (utf16 text).length ≤ 255) (fits : output.length + (utf8 text).length ≤ 254)
    (enough : (utf16 text).length ≤ rounds) :
    utf16Loop name rounds input output = output ++ utf8 text := by
  induction text generalizing input output rounds with
  | nil =>
    simp only [utf16_nil, List.length_nil, Nat.add_zero] at stops
    cases rounds with
    | zero => simp [utf16Loop]
    | succ rounds =>
      rw [utf16Loop, if_neg (by omega)]
      simp
  | cons c rest ih =>
    have positive := utf16EncodeChar_pos c
    have size := String.length_utf8EncodeChar c
    have bytes := c.utf8Size_pos
    simp only [utf16_cons, utf8_cons, List.length_append] at held stops room fits enough plain ⊢
    have here : ∀ i < (utf16EncodeChar c).length,
        name (input + i) = (utf16EncodeChar c).getD i 0 := by
      intro i below
      rw [held i (by omega), List.getD_append _ _ _ _ below]
    have later : ∀ i < (utf16 rest).length,
        name (input + (utf16EncodeChar c).length + i) = (utf16 rest).getD i 0 := by
      intro i below
      rw [Nat.add_assoc, held _ (by omega), List.getD_append_right _ _ _ _ (by omega),
        Nat.add_sub_cancel_left]
    have start : name input ≠ 0 ∧ name input ≠ 0xFFFF := by
      have unit := here 0 positive
      rw [Nat.add_zero, List.getD_eq_getElem?_getD, List.getElem?_eq_getElem positive,
        Option.getD_some] at unit
      rw [unit]
      exact plain _ (List.mem_append_left _ (List.getElem_mem positive))
    obtain ⟨rounds, rfl⟩ : ∃ n, rounds = n + 1 := ⟨rounds - 1, by omega⟩
    rw [utf16Loop, if_pos ⟨by omega, start.1, start.2, by omega⟩,
      codePointAt_char (by omega) here]
    simp only
    rw [utf8Bytes_char (by omega), ih _ later (fun unit member => plain unit
      (List.mem_append_right _ member)) (by rwa [Nat.add_assoc]) (by omega)
      (by rw [List.length_append]; omega) (by omega), List.append_assoc]

end Decoding

/-! ### The round trip -/

theorem unit_padding {c : Char} (member : 0xFFFF ∈ utf16EncodeChar c) : c.toNat = 0xFFFF := by
  have valid := scalar c
  unfold utf16EncodeChar at member
  split at member <;> simp at member <;> omega

/-- The character `U+FFFF`. -/
def paddingChar : Char := Char.ofNat 0xFFFF

theorem paddingChar_bytes : String.utf8EncodeChar paddingChar = [0xEF, 0xBF, 0xBF] := by decide

theorem eq_paddingChar {c : Char} (same : c.toNat = 0xFFFF) : c = paddingChar := by
  apply Char.ext
  apply UInt32.toNat_inj.mp
  exact same

theorem mem_of_unit {text : List Char} (member : 0xFFFF ∈ utf16 text) : paddingChar ∈ text := by
  obtain ⟨c, inside, unit⟩ := List.mem_flatMap.mp member
  exact eq_paddingChar (unit_padding unit) ▸ inside

/-- A name is read back from its entries exactly when the bytes of `U+FFFF`, whose unit is
the padding of a name, do not occur in it. -/
theorem longName_read_back_iff {leaf : Text} {units : List Nat} (short : leaf.length ≤ 254)
    (accepted : utf8NameToUtf16 leaf = some units) (shortName : List UInt8) (lfn : Lfn) :
    (∃ lfn', acceptAll (longNameEntries units (fat32ShortChecksum shortName)) lfn = some lfn' ∧
      utf16NameToUtf8 lfn'.name = leaf ∧ lfn'.valid = true ∧
      lfn'.checksum = fat32ShortChecksum shortName) ↔ ¬[0xEF, 0xBF, 0xBF] <:+: leaf := by
  obtain ⟨text, rfl, rfl, some_⟩ := utf8NameToUtf16_sound accepted
  have nonzero := utf8NameToUtf16_nonzero accepted
  have few := utf16_length_le text
  obtain ⟨lfn', fed, valid, sum, held, stop⟩ := acceptAll_longName
    (fat32ShortChecksum shortName) (fun _ => utf16_unit_lt) some_ (by omega) lfn
  rw [← paddingChar_bytes]
  constructor
  · rintro ⟨lfn'', fed', decoded, -, -⟩ inside
    cases fed.symm.trans fed'
    -- the text before the first `U+FFFF` is all that is decoded
    obtain ⟨before, behind, rfl, first⟩ := List.eq_append_cons_of_mem (mem_of_bytes_occur inside)
    have plain : ∀ unit ∈ utf16 before, unit ≠ 0 ∧ unit ≠ 0xFFFF := fun unit member =>
      ⟨nonzero unit (by simp [member]), fun padding =>
        first (mem_of_unit (padding ▸ member))⟩
    have unit : utf16EncodeChar paddingChar = [0xFFFF] := by decide
    simp only [utf16_append, utf16_cons, utf8_append, utf8_cons, List.length_append, unit,
      paddingChar_bytes, List.length_cons, List.length_nil] at held stop short few decoded
    have decoded' : utf16NameToUtf8 lfn'.name = utf8 before := by
      refine utf16Loop_text 0 (fun i below => ?_) plain (.inr ?_) (by omega) ?_ (by omega)
      · rw [Nat.zero_add, held i (by omega), List.getD_append _ _ _ _ below]
      · rw [Nat.zero_add, held _ (by omega), List.getD_append_right _ _ _ _ le_rfl, Nat.sub_self]
        rfl
      · simp only [List.length_nil]
        omega
    have sizes := congrArg List.length (decoded'.symm.trans decoded)
    simp only [List.length_append, List.length_cons] at sizes
    omega
  · intro absent
    refine ⟨lfn', fed, ?_, valid, sum⟩
    have plain : ∀ unit ∈ utf16 text, unit ≠ 0 ∧ unit ≠ 0xFFFF := by
      refine fun unit member => ⟨nonzero unit member, ?_⟩
      rintro rfl
      obtain ⟨before, behind, rfl⟩ := List.append_of_mem (mem_of_unit member)
      exact absent ⟨utf8 before, utf8 behind, by simp⟩
    exact utf16Loop_text 0 (by simpa using held) plain (by simpa using stop) (by omega)
      (by simpa using short) (by omega)

/-- A name of two entries, the second of which holds one unit. -/
theorem longName_read_back_iff_two :
    let leaf : Text := [0xE3, 0x81, 0x82] ++ List.replicate 13 0x61
    let units := 0x3042 :: List.replicate 13 0x61
    (∃ lfn', acceptAll (longNameEntries units (fat32ShortChecksum [0x41])) lfnReset = some lfn' ∧
      utf16NameToUtf8 lfn'.name = leaf ∧ lfn'.valid = true ∧
      lfn'.checksum = fat32ShortChecksum [0x41]) ↔ ¬[0xEF, 0xBF, 0xBF] <:+: leaf :=
  longName_read_back_iff (by decide) (by decide +kernel) [0x41] lfnReset

/-- The name `a`, `U+FFFF`, `b` is accepted and read back as `a`. -/
theorem padding_cuts_name : ∃ (leaf : Text) (units : List Nat)
    (shortName : List UInt8), leaf.length ≤ 254 ∧
      utf8NameToUtf16 leaf = some units ∧ shortName.length = 11 ∧
      ¬∃ lfn', acceptAll (longNameEntries units (fat32ShortChecksum shortName)) lfnReset =
        some lfn' ∧ utf16NameToUtf8 lfn'.name = leaf := by
  refine ⟨[0x61, 0xEF, 0xBF, 0xBF, 0x62], [0x61, 0xFFFF, 0x62],
    [0x41, 0x42, 0x7E, 0x31, 0x20, 0x20, 0x20, 0x20, 0x20, 0x20, 0x20], by decide,
    by decide +kernel, by decide, ?_⟩
  rintro ⟨lfn', fed, decoded⟩
  have read : (acceptAll (longNameEntries [0x61, 0xFFFF, 0x62] (fat32ShortChecksum
      [0x41, 0x42, 0x7E, 0x31, 0x20, 0x20, 0x20, 0x20, 0x20, 0x20, 0x20])) lfnReset).map
        (fun lfn => utf16NameToUtf8 lfn.name) = some [0x61] := by decide +kernel
  rw [fed, Option.map_some, decoded] at read
  exact absurd read (by decide)

end AsasOs.Fat32
