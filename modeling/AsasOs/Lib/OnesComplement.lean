import Mathlib.Data.Nat.ModEq

/-!
# Checksums in one's complement

Words are added, and what does not fit into a word is added again until nothing is left over. The sum
keeps its residue modulo the largest word, so a checksum that completes the sum to the largest word
can be checked by adding once more.

## Main results

- `fold_complete`: words and their checksum add up to the largest word.
- `wordSum_append`: the sum of two parts, of which the first has whole words.
-/
namespace OnesComplement

/-- Add what is left over to the word, until nothing is left over. -/
def fold (base sum : Nat) : Nat :=
  if 2 ≤ base ∧ base ≤ sum then fold base (sum % base + sum / base) else sum
termination_by sum
decreasing_by
  have split := Nat.mod_add_div sum base
  have quotient : 0 < sum / base := Nat.div_pos (by omega) (by omega)
  have twice := Nat.mul_le_mul_right (sum / base) (show 2 ≤ base by omega)
  omega

variable {base : Nat}

theorem fold_lt (two : 2 ≤ base) (sum : Nat) : fold base sum < base := by
  induction sum using fold.induct base with
  | case1 sum more ih =>
    rw [fold, if_pos more]
    exact ih
  | case2 sum last =>
    rw [fold, if_neg last]
    omega

theorem fold_modEq (sum : Nat) : fold base sum ≡ sum [MOD base - 1] := by
  induction sum using fold.induct base with
  | case1 sum more ih =>
    rw [fold, if_pos more]
    refine ih.trans ?_
    -- A multiple of the base has the residue of its factor.
    have residue : base * (sum / base) ≡ sum / base [MOD base - 1] := by
      have one : base ≡ 1 [MOD base - 1] := (Nat.modEq_iff_dvd' (by omega)).mpr dvd_rfl |>.symm
      simpa using one.mul_right (sum / base)
    calc sum % base + sum / base ≡ sum % base + base * (sum / base) [MOD base - 1] := residue.symm.add_left _
      _ = sum := Nat.mod_add_div sum base
  | case2 sum last => rw [fold, if_neg last]

theorem fold_pos {sum : Nat} (positive : 0 < sum) : 0 < fold base sum := by
  induction sum using fold.induct base with
  | case1 sum more ih =>
    rw [fold, if_pos more]
    have quotient : 0 < sum / base := Nat.div_pos (by omega) (by omega)
    exact ih (by omega)
  | case2 sum last =>
    rw [fold, if_neg last]
    exact positive

/-- Words and the number that completes their sum add up to the largest word. -/
theorem fold_complete (two : 2 ≤ base) (sum : Nat) :
    fold base (sum + (base - 1 - fold base sum)) = base - 1 := by
  have below := fold_lt two sum
  have whole : fold base (sum + (base - 1 - fold base sum)) ≡ 0 [MOD base - 1] := by
    calc fold base (sum + (base - 1 - fold base sum))
        ≡ sum + (base - 1 - fold base sum) [MOD base - 1] := fold_modEq _
      _ ≡ fold base sum + (base - 1 - fold base sum) [MOD base - 1] := (fold_modEq sum).symm.add_right _
      _ = base - 1 := by omega
      _ ≡ 0 [MOD base - 1] := (Nat.modEq_zero_iff_dvd).mpr dvd_rfl
  obtain ⟨factor, multiple⟩ := Nat.modEq_zero_iff_dvd.mp whole
  have some : 0 < sum + (base - 1 - fold base sum) := by
    rcases Nat.eq_zero_or_pos sum with rfl | positive
    · rw [fold, if_neg (by omega)]
      omega
    · omega
  have positive := @fold_pos base _ some
  have last := fold_lt two (sum + (base - 1 - fold base sum))
  -- The only positive multiple that is a word.
  match factor with
  | 0 => omega
  | 1 => omega
  | factor + 2 =>
    have large := Nat.mul_le_mul_left (base - 1) (show 2 ≤ factor + 2 by omega)
    omega

/-! ### Words of two bytes -/

/-- The sum of words of two bytes, the high one first. A last byte is a high one. -/
def wordSum : List UInt8 → Nat
  | high :: low :: rest => high.toNat * 2 ^ 8 + low.toNat + wordSum rest
  | [last] => last.toNat * 2 ^ 8
  | [] => 0

theorem wordSum_append {first second : List UInt8} (even : first.length % 2 = 0) :
    wordSum (first ++ second) = wordSum first + wordSum second := by
  induction first using wordSum.induct with
  | case1 high low rest ih =>
    have fewer : rest.length % 2 = 0 := by
      simp only [List.length_cons] at even
      omega
    simp [wordSum, ih fewer]
    omega
  | case2 last => simp at even
  | case3 => simp [wordSum]

theorem wordSum_le (bytes : List UInt8) : wordSum bytes ≤ (2 ^ 16 - 1) * ((bytes.length + 1) / 2) := by
  induction bytes using wordSum.induct with
  | case1 high low rest ih =>
    have top := high.toNat_lt
    have bottom := low.toNat_lt
    have count : ((high :: low :: rest).length + 1) / 2 = (rest.length + 1) / 2 + 1 := by
      simp only [List.length_cons]
      omega
    rw [wordSum, count, Nat.mul_succ]
    omega
  | case2 last =>
    have top := last.toNat_lt
    simp [wordSum]
    omega
  | case3 => simp [wordSum]

end OnesComplement
