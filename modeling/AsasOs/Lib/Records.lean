import Mathlib.Data.List.Basic

/-!
# Records in a list of slots

A directory of the kind that many filesystems have is a list of slots: a record takes
one or more of them, other slots are in use for something else or are free, and from
the end mark on there is nothing. `Layout` says which records a list of slots holds.
A record that starts at an index is the only one that does.
-/
namespace Records

variable {σ : Type}

/-- What slots and records look like. -/
structure Format (σ : Type) where
  ends : σ → Prop
  free : σ → Prop
  heads : σ → Prop
  record : List σ → Prop
  ends_free : ∀ slot, ends slot → free slot
  free_not_heads : ∀ slot, free slot → ¬heads slot
  record_some : ∀ slots, record slots → slots ≠ []
  record_used : ∀ slots, record slots → ∀ slot ∈ slots, ¬free slot

variable (F : Format σ)

/-- The slots, the first of which has the given index, hold these records. -/
inductive Layout : Nat → List σ → List (Nat × List σ) → Prop
  | ends {i : Nat} {slots : List σ} (all : ∀ slot ∈ slots, F.ends slot) : Layout i slots []
  | skip {i : Nat} {slot : σ} {rest : List σ} {records : List (Nat × List σ)}
      (more : ¬F.ends slot) (other : ¬F.heads slot) (layout : Layout (i + 1) rest records) :
      Layout i (slot :: rest) records
  | record {i : Nat} {record rest : List σ} {records : List (Nat × List σ)}
      (whole : F.record record) (layout : Layout (i + record.length) rest records) :
      Layout i (record ++ rest) ((i, record) :: records)

variable {F} {i k : Nat} {slots more record new : List σ} {records : List (Nat × List σ)}

namespace Layout

theorem mem_bounds (layout : Layout F i slots records) (member : (k, record) ∈ records) :
    i ≤ k ∧ F.record record ∧ ∃ before after, slots = before ++ record ++ after ∧
    before.length = k - i := by
  induction layout with
  | ends all => cases member
  | skip more other layout ih =>
    rename_i i slot rest records
    obtain ⟨low, whole, before, after, split, place⟩ := ih member
    refine ⟨by omega, whole, slot :: before, after, ?_, ?_⟩
    · rw [split]
      rfl
    · rw [List.length_cons]
      omega
  | record whole layout ih =>
    rename_i i first rest records
    rcases List.mem_cons.mp member with here | later
    · cases here
      exact ⟨Nat.le_refl _, whole, [], rest, rfl, (Nat.sub_self _).symm⟩
    · obtain ⟨low, whole', before, after, split, place⟩ := ih later
      refine ⟨by omega, whole', first ++ before, after, ?_, ?_⟩
      · rw [split]
        simp only [List.append_assoc]
      · rw [List.length_append]
        omega

theorem unique (layout : Layout F i slots records) (member : (k, record) ∈ records)
    (member' : (k, new) ∈ records) : record = new := by
  induction layout with
  | ends all => cases member
  | skip more other layout ih => exact ih member member'
  | record whole layout ih =>
    rename_i i first rest records
    have some := List.length_pos_of_ne_nil (F.record_some first whole)
    rcases List.mem_cons.mp member with here | later
    · rcases List.mem_cons.mp member' with here' | later'
      · cases here
        cases here'
        rfl
      · have low := (layout.mem_bounds later').1
        cases here
        omega
    · rcases List.mem_cons.mp member' with here' | later'
      · have low := (layout.mem_bounds later).1
        cases here'
        omega
      · exact ih later later'

end Layout

end Records
