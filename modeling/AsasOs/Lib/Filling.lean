import AsasOs.Lib.Bytes
import AsasOs.Lib.Outcomes

/-!
# Filling a buffer

A source gives bytes, not necessarily at every position. What is gathered from it is a
row of bytes, if all of them are there. A loop fills a buffer piece by piece. If the
pieces are those of a source, the loop ends with what is gathered from it; it leaves a
buffer that is too small unless a byte is missing before.
-/
namespace Filling

open Bytes Checked

abbrev Source := Nat → Option UInt8

/-- The `count` bytes of a source from `start` on. -/
def gather (source : Source) : Nat → Nat → Option (List UInt8)
  | _, 0 => some []
  | start, count + 1 => do
    let byte ← source start
    let later ← gather source (start + 1) count
    some (byte :: later)

/-- `while (done < size) { piece; copy; done += chunk; }`, into a buffer of `room` bytes. -/
def fillBody (room size : Nat) (piece : Nat → Run (List UInt8)) (s : Nat × (Nat → UInt8)) :
    Run ((Nat × (Nat → UInt8)) ⊕ (Nat → UInt8)) :=
  if s.1 < size then do
    let data ← piece s.1
    access room s.1 data.length
    pure (.inl (s.1 + data.length, patch s.2 s.1 data))
  else pure (.inr s.2)

variable {source source' : Source} {start count : Nat} {data : List UInt8}

theorem gather_length (gathered : gather source start count = some data) : data.length = count := by
  induction count generalizing start data with
  | zero =>
    cases gathered
    rfl
  | succ count ih =>
    rw [gather] at gathered
    obtain ⟨byte, -, gathered⟩ := Option.bind_eq_some_iff.mp gathered
    obtain ⟨later, rest, gathered⟩ := Option.bind_eq_some_iff.mp gathered
    cases gathered
    rw [List.length_cons, ih rest]

theorem gather_byte (gathered : gather source start count = some data) {i : Nat} (inside : i < count) :
    source (start + i) = some (byteAt data i) := by
  induction count generalizing start data i with
  | zero => exact absurd inside (Nat.not_lt_zero _)
  | succ count ih =>
    rw [gather] at gathered
    obtain ⟨byte, here, gathered⟩ := Option.bind_eq_some_iff.mp gathered
    obtain ⟨later, rest, gathered⟩ := Option.bind_eq_some_iff.mp gathered
    cases gathered
    cases i with
    | zero => exact here
    | succ i =>
      have there := ih rest (Nat.lt_of_succ_lt_succ inside)
      rw [Nat.add_assoc, Nat.add_comm 1] at there
      exact there

theorem gather_isSome : (gather source start count).isSome ↔
    ∀ i < count, (source (start + i)).isSome := by
  induction count generalizing start with
  | zero => exact ⟨fun _ _ none => absurd none (Nat.not_lt_zero _), fun _ => rfl⟩
  | succ count ih =>
    have split : (gather source start (count + 1)).isSome ↔
        (source start).isSome ∧ (gather source (start + 1) count).isSome := by
      rw [gather]
      cases source start with
      | none => exact ⟨nofun, nofun⟩
      | some byte =>
        cases gather source (start + 1) count with
        | none => exact ⟨nofun, fun both => nomatch both.2⟩
        | some later => exact ⟨fun _ => ⟨rfl, rfl⟩, fun _ => rfl⟩
    rw [split, ih]
    constructor
    · rintro ⟨first, later⟩ i inside
      cases i with
      | zero => exact first
      | succ i =>
        have there := later i (Nat.lt_of_succ_lt_succ inside)
        rwa [Nat.add_assoc, Nat.add_comm 1] at there
    · refine fun all => ⟨all 0 (Nat.zero_lt_succ _), fun i inside => ?_⟩
      rw [Nat.add_assoc, Nat.add_comm 1]
      exact all (i + 1) (Nat.succ_lt_succ inside)

theorem gather_none {i : Nat} (inside : i < count) (missing : source (start + i) = none) :
    gather source start count = none := by
  rw [← Option.not_isSome_iff_eq_none, gather_isSome]
  intro all
  have there := all i inside
  rw [missing] at there
  cases there

theorem gather_congr {start' : Nat} (same : ∀ i < count, source (start + i) = source' (start' + i)) :
    gather source start count = gather source' start' count := by
  induction count generalizing start start' with
  | zero => rfl
  | succ count ih =>
    have later : gather source (start + 1) count = gather source' (start' + 1) count :=
      ih fun i inside => by
        have there := same (i + 1) (Nat.succ_lt_succ inside)
        rwa [Nat.add_comm i, ← Nat.add_assoc, ← Nat.add_assoc] at there
    rw [gather, gather, later, show source start = source' start' from same 0 (Nat.zero_lt_succ _)]

theorem gather_eq_iff : gather source start count = gather source' start count ↔
    (∀ i < count, source (start + i) = source' (start + i)) ∨
      (∃ i < count, source (start + i) = none) ∧ ∃ i < count, source' (start + i) = none := by
  have lacks {source : Source} (none : gather source start count = none) : ∃ i < count, source (start + i) = .none := by
    by_contra all
    rw [← Option.not_isSome_iff_eq_none, gather_isSome] at none
    refine none fun i inside => Option.isSome_iff_ne_none.mpr fun missing => all ⟨i, inside, missing⟩
  constructor
  · intro same
    cases gathered : gather source start count with
    | none => exact Or.inr ⟨lacks gathered, lacks (same ▸ gathered)⟩
    | some data =>
      have gathered' : gather source' start count = some data := by rw [← same, gathered]
      refine Or.inl fun i inside => ?_
      rw [gather_byte gathered inside, gather_byte gathered' inside]
  · rintro (same | ⟨⟨i, inside, missing⟩, j, below, none⟩)
    · exact gather_congr same
    · rw [gather_none inside missing, gather_none below none]

theorem gather_add (source : Source) (start first second : Nat) : gather source start (first + second) =
      (gather source start first).bind fun data => (gather source (start + first) second).map (data ++ ·) := by
  induction first generalizing start with
  | zero =>
    rw [Nat.zero_add, gather, Option.bind_some, Nat.add_zero]
    cases gather source start second <;> rfl
  | succ first ih =>
    rw [Nat.add_right_comm, gather, gather, ih, Nat.add_assoc start 1, Nat.add_comm 1]
    cases source start with
    | none => rfl
    | some byte =>
      cases gather source (start + 1) first with
      | none => rfl
      | some data => cases gather source (start + (first + 1)) second <;> rfl

theorem gather_content (content : Nat → UInt8) (start count : Nat) :
    gather (fun i => some (content i)) start count = some (window content start count) := by
  induction count generalizing start with
  | zero => rfl
  | succ count ih =>
    rw [gather, ih, Nat.add_comm count, window_add]
    rfl

theorem patch_inj {content : Nat → UInt8} {offset : Nat} {data' : List UInt8}
    (same : data.length = data'.length)
    (patched : patch content offset data = patch content offset data') : data = data' := by
  rw [← window_patch content offset data, patched, same, window_patch]

theorem map_patch_inj {content : Nat → UInt8} {offset start' : Nat}
    (patched : (gather source start count).map (patch content offset) =
      (gather source' start' count).map (patch content offset)) :
    gather source start count = gather source' start' count := by
  cases gathered : gather source start count with
  | none =>
    rw [gathered] at patched
    exact (Option.map_eq_none_iff.mp patched.symm).symm
  | some data =>
    rw [gathered, Option.map_some] at patched
    obtain ⟨data', gathered', same⟩ := Option.map_eq_some_iff.mp patched.symm
    rw [gathered', patch_inj ((gather_length gathered').trans (gather_length gathered).symm) same]

theorem patch_zero (data : List UInt8) : patch (fun _ => 0) 0 data = byteAt data := by
  funext i
  unfold patch
  split
  · rw [Nat.sub_zero]
  · rw [byteAt, List.getD_eq_getElem?_getD, List.getElem?_eq_none (by omega), Option.getD_none]

theorem patch_append (content : Nat → UInt8) (offset : Nat) (first second : List UInt8) :
    patch (patch content offset first) (offset + first.length) second =
    patch content offset (first ++ second) := by
  have both := patch_patch content offset (first ++ second) first.length (by rw [List.length_append]; omega)
  rwa [List.take_left, List.drop_left] at both

/-! ### The loop -/

section Fill

variable {room size : Nat} {piece : Nat → Run (List UInt8)} {good : Nat → Prop}

/-- A place that the loop comes to has a piece, which the source gives. -/
def Pieces (source : Source) (size : Nat) (piece : Nat → Run (List UInt8)) (good : Nat → Prop) : Prop :=
  ∀ done, good done → done < size → ∃ chunk, 0 < chunk ∧ done + chunk ≤ size ∧
    (done + chunk < size → good (done + chunk)) ∧ piece done = supplied (gather source done chunk)

theorem fill_eq (pieces : Pieces source size piece good) :
    ∀ steps done buffer, (done < size → good done) → done ≤ size → size - done < steps →
      (size ≤ room ∨ ∃ k, done ≤ k ∧ k ≤ room ∧ k < size ∧ source k = none) →
      iterate (fillBody room size piece) steps (done, buffer) =
        supplied ((gather source done (size - done)).map (patch buffer done)) := by
  intro steps
  induction steps with
  | zero => exact fun _ _ _ _ none => absurd none (Nat.not_lt_zero _)
  | succ steps ih =>
    intro done buffer here within enough fits
    rw [iterate]
    by_cases more : done < size
    · obtain ⟨chunk, positive, inside, next, given⟩ := pieces done (here more) more
      have fewer : size - (done + chunk) < steps := by
        clear fits
        omega
      have whole : size - done = chunk + (size - (done + chunk)) := by
        clear fits
        omega
      rw [whole, gather_add]
      simp only [fillBody, if_pos more, given]
      cases gathered : gather source done chunk with
      | none => rfl
      | some data =>
        have length := gather_length gathered
        -- The byte that is missing is not in the piece.
        have later : size ≤ room ∨ ∃ k, done + chunk ≤ k ∧ k ≤ room ∧ k < size ∧ source k = none := by
          refine fits.imp_right ?_
          rintro ⟨k, after, reached, below, missing⟩
          refine ⟨k, ?_, reached, below, missing⟩
          by_contra early
          have none : gather source done chunk = none :=
            gather_none (show k - done < chunk by omega) (by rwa [Nat.add_sub_cancel' after])
          rw [none] at gathered
          cases gathered
        have accessed : access room done data.length = .ok () := by
          refine if_pos (Or.inr ?_)
          rcases later with large | ⟨k, after, reached, -, -⟩
          · omega
          · omega
        rw [supplied, ok_bind, accessed, ok_bind, length]
        change iterate (fillBody _ size piece) steps (done + chunk, patch buffer done data) = _
        rw [ih (done + chunk) _ next inside fewer later, Option.bind_some, Option.map_map]
        congr 2
        funext later
        rw [← length, patch_append]
        rfl
    · have finished : size - done = 0 := by omega
      simp only [fillBody, if_neg more]
      rw [finished, gather, Option.map_some, patch_nil]
      rfl

theorem fill_outside (pieces : Pieces source size piece good) (small : room < size)
    (there : ∀ k ≤ room, source k ≠ none)
    (supply : ∀ done, good done → done < size → source done ≠ none → piece done ≠ .error .refused) :
    ∀ steps done buffer, good done → done ≤ room →
      ¬Safe (iterate (fillBody room size piece) steps (done, buffer)) fun _ => True := by
  intro steps
  induction steps with
  | zero => exact fun _ _ _ _ safe => Stop.noConfusion safe
  | succ steps ih =>
    intro done buffer here reached
    obtain ⟨chunk, positive, inside, next, given⟩ := pieces done here (by omega)
    have supply := supply done here (by omega) (there done reached)
    rw [iterate]
    simp only [fillBody, if_pos (show done < size by omega)]
    rw [given] at supply ⊢
    cases gathered : gather source done chunk with
    | none =>
      rw [gathered] at supply
      exact absurd rfl supply
    | some data =>
    have length := gather_length gathered
    rw [supplied, ok_bind]
    by_cases fits : done + chunk ≤ room
    · rw [access, if_pos (by omega), ok_bind, length]
      exact ih (done + chunk) _ (next (by omega)) fits
    · rw [access, if_neg (by omega), error_bind]
      exact fun safe => Stop.noConfusion safe

end Fill

end Filling
