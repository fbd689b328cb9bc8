import Mathlib.Data.List.Rotate
import Mathlib.Data.List.FinRange
import Mathlib.Algebra.GroupWithZero.Nat

/-!
# Rings of slots

Slots numbered around a ring. A search walks the ring from a slot until a predicate
holds; a whole round without a hit means that the search would never end. The slots
that satisfy a predicate, read in ring order, do not depend on the starting point as
long as only other slots are passed over.
-/
namespace Ring

variable {n : Nat} [NeZero n]

/-- The slot `k` places behind `start`. -/
def slot (start : Fin n) (k : Nat) : Fin n :=
  Fin.ofNat n (start.val + k)

/-- How many places `i` lies behind `start`. -/
def offset (start i : Fin n) : Nat :=
  (i.val + (n - start.val)) % n

/-- All slots, in ring order from `start`. -/
def round (start : Fin n) : List (Fin n) :=
  (List.range n).map (slot start)

/-- The first slot from `i` on that satisfies `p`, looking at `fuel` slots. -/
def seek (p : Fin n → Bool) : Nat → Fin n → Option (Fin n)
  | 0, _ => none
  | fuel + 1, i => if p i then some i else seek p fuel (slot i 1)

/-! ### Slots and offsets -/

@[simp] theorem slot_zero (start : Fin n) : slot start 0 = start :=
  Fin.ext (Nat.mod_eq_of_lt start.isLt)

theorem slot_slot (start : Fin n) (k m : Nat) : slot (slot start k) m = slot start (k + m) := by
  apply Fin.ext
  simp only [slot, Fin.val_ofNat, Nat.mod_add_mod, Nat.add_assoc]

theorem slot_mod (start : Fin n) (k : Nat) : slot start (k % n) = slot start k := by
  apply Fin.ext
  simp only [slot, Fin.val_ofNat, Nat.add_mod_mod]

theorem offset_lt (start i : Fin n) : offset start i < n :=
  Nat.mod_lt _ (Nat.pos_of_ne_zero (NeZero.ne n))

theorem slot_offset (start i : Fin n) : slot start (offset start i) = i := by
  apply Fin.ext
  have inside := start.isLt
  have whole : start.val + (i.val + (n - start.val)) = i.val + n := by omega
  simp only [slot, offset, Fin.val_ofNat, Nat.add_mod_mod, whole, Nat.add_mod_right]
  exact Nat.mod_eq_of_lt i.isLt

theorem offset_slot (start : Fin n) {k : Nat} (inside : k < n) : offset start (slot start k) = k := by
  have bound := start.isLt
  have whole : start.val + k + (n - start.val) = k + n := by omega
  simp only [slot, offset, Fin.val_ofNat, Nat.mod_add_mod, whole, Nat.add_mod_right]
  exact Nat.mod_eq_of_lt inside

/-! ### A whole round -/

@[simp] theorem round_length (start : Fin n) : (round start).length = n := by
  simp [round]

theorem round_map_offset (start : Fin n) : (round start).map (offset start) = List.range n := by
  rw [round, List.map_map]
  refine (List.map_congr_left fun k inside => ?_).trans (List.map_id _)
  exact offset_slot start (List.mem_range.mp inside)

theorem mem_round (start i : Fin n) : i ∈ round start :=
  List.mem_map.mpr ⟨offset start i, List.mem_range.mpr (offset_lt start i), slot_offset start i⟩

theorem round_nodup (start : Fin n) : (round start).Nodup := by
  refine List.Nodup.of_map (offset start) ?_
  rw [round_map_offset]
  exact List.nodup_range

theorem round_perm (start : Fin n) : (round start).Perm (List.finRange n) :=
  (List.perm_ext_iff_of_nodup (round_nodup start) (List.nodup_finRange n)).mpr fun i =>
    ⟨fun _ => List.mem_finRange i, fun _ => mem_round start i⟩

theorem round_slot (start : Fin n) (k : Nat) : round (slot start k) = (round start).rotate k := by
  apply List.ext_getElem
  · simp
  · intro i _ _
    rw [List.getElem_rotate]
    simp only [round, List.getElem_map, List.getElem_range, List.length_map, List.length_range]
    rw [slot_slot, slot_mod, Nat.add_comm]

variable {front back : List (Fin n)} {start j : Fin n}

theorem round_split (cut : round start = front ++ j :: back) :
    front.length = offset start j ∧ round j = j :: back ++ front := by
  have bound : front.length < (round start).length := by
    rw [cut, List.length_append, List.length_cons]
    omega
  have here : (round start)[front.length] = j := by
    simp [cut]
  have there : slot start front.length = j := by
    rw [← here]
    simp [round]
  rw [round_length] at bound
  constructor
  · rw [← there, offset_slot start bound]
  · rw [← there, round_slot, there, cut, List.rotate_append_length_eq]

theorem mem_front {start i j : Fin n} (cut : round start = front ++ j :: back) :
    i ∈ front ↔ offset start i < offset start j := by
  have ordered : (List.range n).Pairwise (· < ·) := List.pairwise_lt_range
  rw [← round_map_offset start, cut, List.map_append, List.map_cons,
    List.pairwise_append, List.pairwise_cons] at ordered
  obtain ⟨-, ⟨behind, -⟩, before⟩ := ordered
  constructor
  · intro member
    exact before _ (List.mem_map_of_mem member) _ List.mem_cons_self
  · intro closer
    have member := mem_round start i
    rw [cut, List.mem_append, List.mem_cons] at member
    rcases member with front | rfl | back
    · exact front
    · exact absurd closer (Nat.lt_irrefl _)
    · exact absurd (behind _ (List.mem_map_of_mem back)) (Nat.lt_asymm closer)

/-! ### The search -/

theorem seek_eq_find (p : Fin n → Bool) (fuel : Nat) (i : Fin n) :
    seek p fuel i = ((List.range fuel).map (slot i)).find? p := by
  induction fuel generalizing i with
  | zero => rfl
  | succ fuel ih =>
    have shifted : (slot i ∘ Nat.succ) = slot (slot i 1) := by
      funext k
      rw [Function.comp_apply, slot_slot, Nat.succ_eq_add_one, Nat.add_comm]
    rw [seek, ih, List.range_succ_eq_map, List.map_cons, List.map_map, shifted, slot_zero]
    cases hit : p i with
    | true => rw [if_pos rfl, List.find?_cons_of_pos hit]
    | false =>
      rw [if_neg Bool.false_ne_true, List.find?_cons_of_neg (by rw [hit]; exact Bool.false_ne_true)]

variable {p : Fin n → Bool}

theorem seek_eq_none {i : Fin n} : seek p n i = none ↔ ∀ j, p j = false := by
  rw [seek_eq_find, List.find?_eq_none]
  constructor
  · intro missed j
    exact Bool.eq_false_iff.mpr (missed j (mem_round i j))
  · intro missed j _
    rw [missed j]
    exact Bool.false_ne_true

theorem seek_cut {i j : Fin n} (found : seek p n i = some j) :
    p j = true ∧ ∃ front back, round i = front ++ j :: back ∧ ∀ k ∈ front, p k = false := by
  rw [seek_eq_find, List.find?_eq_some_iff_append] at found
  obtain ⟨hit, front, back, cut, passed⟩ := found
  refine ⟨hit, front, back, cut, fun k member => ?_⟩
  simpa using passed k member

theorem seek_closest {i j k : Fin n} (found : seek p n i = some j)
    (closer : offset i k < offset i j) : p k = false := by
  obtain ⟨-, front, back, cut, passed⟩ := seek_cut found
  exact passed k ((mem_front cut).mpr closer)

theorem filter_round_seek {i j : Fin n} (found : seek p n i = some j) :
    (round j).filter p = (round i).filter p := by
  obtain ⟨-, front, back, cut, passed⟩ := seek_cut found
  have skipped : front.filter p = [] :=
    List.filter_eq_nil_iff.mpr fun k member => by rw [passed k member]; exact Bool.false_ne_true
  rw [(round_split cut).2, cut, List.filter_append, List.filter_append, skipped, List.append_nil,
    List.nil_append]

/-! ### Taking turns -/

/-- The slots that satisfy a predicate, in ring order from a slot on. -/
def turns (p : Fin n → Bool) (i : Fin n) : List (Fin n) := (round i).filter p

/-- The slot that satisfies the predicate next, behind `i`. -/
def next (p : Fin n → Bool) (i : Fin n) : Fin n := (seek p n (slot i 1)).getD i

section Turns

variable {p : Fin n → Bool} {i j : Fin n}

theorem mem_turns : j ∈ turns p i ↔ p j = true := by
  rw [turns, List.mem_filter]
  exact and_iff_right (mem_round i j)

theorem turns_nodup : (turns p i).Nodup := (round_nodup i).filter _

theorem round_cons (i : Fin n) : ∃ rest, round i = i :: rest := by
  obtain ⟨m, size⟩ := Nat.exists_eq_succ_of_ne_zero (NeZero.ne n)
  have whole : List.range n = 0 :: (List.range m).map Nat.succ := by
    rw [size, Nat.succ_eq_add_one, List.range_succ_eq_map]
  refine ⟨((List.range m).map Nat.succ).map (slot i), ?_⟩
  rw [round, whole, List.map_cons, slot_zero]

theorem turns_head (here : p i = true) : (turns p i).head? = some i := by
  obtain ⟨rest, cut⟩ := round_cons i
  rw [turns, cut, List.filter_cons_of_pos here, List.head?_cons]

theorem turns_next (here : p i = true) : p (next p i) = true ∧
    turns p (next p i) = (turns p i).rotate 1 := by
  obtain ⟨rest, cut⟩ := round_cons i
  cases found : seek p n (slot i 1) with
  | none =>
    have missed := seek_eq_none.mp found i
    rw [here] at missed
    cases missed
  | some j =>
    have hit := (seek_cut found).1
    rw [next, found, Option.getD_some]
    refine ⟨hit, ?_⟩
    rw [turns, filter_round_seek found, round_slot, turns, cut, List.rotate_cons_succ, List.rotate_zero,
      List.filter_append, List.filter_cons_of_pos here, List.filter_cons_of_pos here, List.rotate_cons_succ,
      List.rotate_zero, List.filter_nil]

theorem turns_iterate (here : p i = true) (k : Nat) :
    p ((next p)^[k] i) = true ∧ turns p ((next p)^[k] i) = (turns p i).rotate k := by
  induction k with
  | zero => exact ⟨here, (List.rotate_zero _).symm⟩
  | succ k ih =>
    have step := turns_next ih.1
    rw [Function.iterate_succ_apply']
    refine ⟨step.1, ?_⟩
    rw [step.2, ih.2, List.rotate_rotate]

theorem iterate_eq (here : p i = true) {k : Nat} (below : k < (turns p i).length) :
    (turns p i)[k]? = some ((next p)^[k] i) := by
  have after := turns_iterate here k
  have first := turns_head after.1
  rw [after.2, List.head?_rotate below] at first
  exact first

theorem iterate_length (here : p i = true) : (next p)^[(turns p i).length] i = i := by
  have after := turns_iterate here (turns p i).length
  have first := turns_head after.1
  rw [after.2, List.rotate_length, turns_head here] at first
  exact (Option.some.inj first).symm

theorem turn_of_each (here : p i = true) (satisfies : p j = true) :
    ∃! k, k < (turns p i).length ∧ (next p)^[k + 1] i = j := by
  have shifted : turns p (next p i) = (turns p i).rotate 1 := (turns_next here).2
  have member : j ∈ turns p (next p i) := mem_turns.mpr satisfies
  obtain ⟨k, below, same⟩ := List.mem_iff_getElem.mp member
  have length : (turns p (next p i)).length = (turns p i).length := by rw [shifted, List.length_rotate]
  have turn : ∀ m < (turns p i).length, (turns p (next p i))[m]? = some ((next p)^[m + 1] i) := fun m inside => by
    rw [Function.iterate_succ_apply]
    exact iterate_eq (turns_next here).1 (by omega)
  refine ⟨k, ⟨by omega, ?_⟩, fun m ⟨inside, reached⟩ => ?_⟩
  · have at_k := turn k (by omega)
    rw [List.getElem?_eq_getElem below, same] at at_k
    exact (Option.some.inj at_k).symm
  · have at_m := turn m inside
    rw [reached, ← same, ← List.getElem?_eq_getElem below] at at_m
    exact (List.getElem?_inj (by omega) turns_nodup).mp at_m

end Turns

/-! ### Marking one slot -/

theorem filter_update_front (cut : round start = front ++ j :: back) (mark : Bool) :
    front.filter (Function.update p j mark) = front.filter p ∧
      back.filter (Function.update p j mark) = back.filter p := by
  have distinct := round_nodup start
  rw [cut, List.nodup_append, List.nodup_cons] at distinct
  obtain ⟨-, ⟨absent, -⟩, apart⟩ := distinct
  constructor
  · refine List.filter_congr fun k member => ?_
    rw [Function.update_of_ne (apart k member j List.mem_cons_self)]
  · refine List.filter_congr fun k member => ?_
    rw [Function.update_of_ne fun same : k = j => absent (same ▸ member)]

theorem filter_mark (cut : round start = front ++ j :: back) :
    (round start).filter (Function.update p j true) = front.filter p ++ j :: back.filter p := by
  obtain ⟨before, behind⟩ := filter_update_front (p := p) cut true
  rw [cut, List.filter_append, List.filter_cons_of_pos (Function.update_self ..), before, behind]

theorem filter_clear (cut : round start = front ++ j :: back) :
    (round start).filter (Function.update p j false) = front.filter p ++ back.filter p := by
  obtain ⟨before, behind⟩ := filter_update_front (p := p) cut false
  have cleared : ¬Function.update p j false j = true := by
    rw [Function.update_self]
    exact Bool.false_ne_true
  rw [cut, List.filter_append, List.filter_cons_of_neg cleared, before, behind]

end Ring
