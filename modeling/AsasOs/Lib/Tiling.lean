import Mathlib.Data.List.Perm.Basic
import Mathlib.Data.List.Pairwise
import Mathlib.Data.List.Chain

/-!
# Tilings of a region

A region is tiled by blocks, each behind a header of a fixed size. Blocks are used or
free. The module develops what an allocator needs: cutting the first free block that is
large enough, marking a block as free, and joining free neighbours in one pass.
-/
namespace Tiling

structure Tile where
  size : Nat
  free : Bool
  deriving DecidableEq

/-- The bytes that tiles take, their headers included. -/
def span (header : Nat) : List Tile → Nat
  | [] => 0
  | t :: rest => header + t.size + span header rest

/-- The used blocks of a tiling that starts at `a`: where each begins, and its size. -/
def used (header a : Nat) : List Tile → List (Nat × Nat)
  | [] => []
  | t :: rest =>
    (if t.free then [] else [(a + header, t.size)]) ++ used header (a + header + t.size) rest

/-- No two free blocks are neighbours. -/
def Coalesced (tiles : List Tile) : Prop :=
  tiles.IsChain fun t u => ¬(t.free = true ∧ u.free = true)

/-- One pass that joins free neighbours, from `t` on. -/
def coalesce (header : Nat) (t : Tile) : List Tile → List Tile
  | [] => [t]
  | u :: rest =>
    if t.free && u.free then coalesce header ⟨t.size + (header + u.size), t.free⟩ rest
    else t :: coalesce header u rest

/-- A block of `want` bytes cut off a free block, when a header and `spare` more bytes
remain; the whole block otherwise. -/
def cut (header spare want : Nat) (t : Tile) : List Tile :=
  if want + header + spare ≤ t.size then [⟨want, false⟩, ⟨t.size - want - header, true⟩]
  else [⟨t.size, false⟩]

/-- The first free block of at least `want` bytes is taken. -/
def allot (header spare want a : Nat) : List Tile → Option (Nat × List Tile)
  | [] => none
  | t :: rest =>
    if t.free && decide (want ≤ t.size) then some (a + header, cut header spare want t ++ rest)
    else (allot header spare want (a + header + t.size) rest).map fun r => (r.1, t :: r.2)

/-- The block that begins at `p` is marked as free. -/
def release (header p a : Nat) : List Tile → List Tile
  | [] => []
  | t :: rest =>
    ⟨t.size, t.free || a + header == p⟩ :: release header p (a + header + t.size) rest

variable {header spare want a p : Nat} {t : Tile} {tiles rest : List Tile}

theorem length_le_span : header * tiles.length ≤ span header tiles := by
  induction tiles with
  | nil => exact Nat.le_refl _
  | cons t rest ih =>
    rw [List.length_cons, span, Nat.mul_succ]
    omega

/-! ### Where the used blocks lie -/

theorem used_bounds {block : Nat × Nat} (member : block ∈ used header a tiles) :
    a + header ≤ block.1 ∧ block.1 + block.2 ≤ a + span header tiles := by
  induction tiles generalizing a with
  | nil => exact nomatch member
  | cons t rest ih =>
    rw [used, List.mem_append] at member
    rw [span]
    rcases member with here | later
    · cases free : t.free with
      | true => rw [free] at here; exact nomatch here
      | false =>
        rw [free] at here
        rw [List.mem_singleton.mp here]
        dsimp only
        omega
    · have bounds := ih later
      omega

theorem used_apart : (used header a tiles).Pairwise fun x y => x.1 + x.2 + header ≤ y.1 := by
  induction tiles generalizing a with
  | nil => exact .nil
  | cons t rest ih =>
    rw [used, List.pairwise_append]
    refine ⟨?_, ih, fun x here y later => ?_⟩
    · split
      · exact .nil
      · exact List.pairwise_singleton _ _
    · have bounds := (used_bounds later).1
      cases free : t.free with
      | true => rw [free] at here; exact nomatch here
      | false =>
        rw [free] at here
        rw [List.mem_singleton.mp here]
        exact bounds

theorem used_disjoint {x y : Nat × Nat} (memberx : x ∈ used header a tiles)
    (membery : y ∈ used header a tiles) (distinct : x.1 ≠ y.1) :
    x.1 + x.2 ≤ y.1 ∨ y.1 + y.2 ≤ x.1 := by
  have apart : (used header a tiles).Pairwise fun x y => x.1 + x.2 ≤ y.1 ∨ y.1 + y.2 ≤ x.1 :=
    used_apart.imp fun apart => .inl (by omega)
  have : Std.Symm fun x y : Nat × Nat => x.1 + x.2 ≤ y.1 ∨ y.1 + y.2 ≤ x.1 := ⟨fun _ _ => Or.symm⟩
  exact apart.forall memberx membery fun same => distinct (congrArg Prod.fst same)

theorem used_nodup (positive : 0 < header) : ((used header a tiles).map Prod.fst).Nodup := by
  rw [List.Nodup, List.pairwise_map]
  exact used_apart.imp fun apart same => by omega

theorem free_of_unused (unused : used header a tiles = []) : ∀ t ∈ tiles, t.free = true := by
  induction tiles generalizing a with
  | nil => exact fun t member => nomatch member
  | cons t rest ih =>
    rw [used, List.append_eq_nil_iff] at unused
    obtain ⟨here, later⟩ := unused
    intro u member
    rcases List.mem_cons.mp member with rfl | member
    · cases free : u.free with
      | true => rfl
      | false => rw [free] at here; exact nomatch here
    · exact ih later u member

theorem single_of_unused (coalesced : Coalesced tiles) (unused : used header a tiles = [])
    (some_tiles : tiles ≠ []) : tiles = [⟨span header tiles - header, true⟩] := by
  have free := free_of_unused unused
  match tiles, some_tiles with
  | [t], _ =>
    rw [span, span, Nat.add_zero, Nat.add_sub_cancel_left, ← free t List.mem_cons_self]
  | t :: u :: rest, _ =>
    obtain ⟨apart, -⟩ := List.isChain_cons_cons.mp coalesced
    refine absurd ⟨free t List.mem_cons_self, free u ?_⟩ apart
    exact List.mem_cons_of_mem _ List.mem_cons_self

/-! ### Joining neighbours -/

theorem coalesce_ne_nil : coalesce header t rest ≠ [] := by
  induction rest generalizing t with
  | nil => exact List.cons_ne_nil _ _
  | cons u rest ih =>
    rw [coalesce]
    split
    · exact ih
    · exact List.cons_ne_nil _ _

theorem span_coalesce : span header (coalesce header t rest) = span header (t :: rest) := by
  induction rest generalizing t with
  | nil => rfl
  | cons u rest ih =>
    rw [coalesce]
    split
    · rw [ih, span, span, span]
      dsimp only
      omega
    · rw [span, ih]
      rfl

theorem used_coalesce : used header a (coalesce header t rest) = used header a (t :: rest) := by
  induction rest generalizing t a with
  | nil => rfl
  | cons u rest ih =>
    rw [coalesce]
    split
    next both =>
      -- two free blocks and their joint block use nothing
      obtain ⟨freet, freeu⟩ := Bool.and_eq_true_iff.mp both
      rw [ih, used, used, used, if_pos freet, if_pos freet, if_pos freeu]
      simp only [List.nil_append, Nat.add_assoc]
    next =>
      rw [used, ih]
      rfl

theorem coalesced_coalesce : Coalesced (coalesce header t rest) := by
  -- the pass keeps the flag of the block it stands on
  suffices all : ∃ size later, coalesce header t rest = ⟨size, t.free⟩ :: later ∧
      Coalesced (⟨size, t.free⟩ :: later) by
    obtain ⟨size, later, same, coalesced⟩ := all
    rw [same]
    exact coalesced
  induction rest generalizing t with
  | nil => exact ⟨t.size, [], rfl, List.IsChain.singleton _⟩
  | cons u rest ih =>
    rw [coalesce]
    split
    · obtain ⟨size, later, same, coalesced⟩ := @ih ⟨t.size + (header + u.size), t.free⟩
      exact ⟨size, later, same, coalesced⟩
    next apart =>
      obtain ⟨size, later, same, coalesced⟩ := @ih u
      refine ⟨t.size, coalesce header u rest, rfl, ?_⟩
      rw [same]
      refine List.IsChain.cons_cons (fun both => apart ?_) coalesced
      exact Bool.and_eq_true_iff.mpr both

/-! ### Marking a block as free -/

@[simp] theorem release_length : (release header p a tiles).length = tiles.length := by
  induction tiles generalizing a with
  | nil => rfl
  | cons t rest ih => rw [release, List.length_cons, List.length_cons, ih]

theorem span_release : span header (release header p a tiles) = span header tiles := by
  induction tiles generalizing a with
  | nil => rfl
  | cons t rest ih => rw [release, span, span, ih]

theorem release_of_lt (behind : p < a + header) : release header p a tiles = tiles := by
  induction tiles generalizing a with
  | nil => rfl
  | cons t rest ih =>
    have other : (a + header == p) = false := beq_eq_false_iff_ne.mpr (Nat.ne_of_gt behind)
    rw [release, other, Bool.or_false, ih (by omega)]

theorem used_release : used header a (release header p a tiles) =
      (used header a tiles).filter fun block => block.1 != p := by
  induction tiles generalizing a with
  | nil => rfl
  | cons t rest ih =>
    rw [release, used, used, List.filter_append, ih]
    congr 1
    cases free : t.free with
    | true => rfl
    | false =>
      by_cases here : a + header = p
      · simp [here]
      · simp [here]

/-! ### Taking a block -/

theorem span_cut : span header (cut header spare want t ++ rest) = span header (t :: rest) := by
  unfold cut
  split
  · simp only [List.cons_append, List.nil_append, span]
    omega
  · rfl

variable {tiles' : List Tile}

theorem span_allot (taken : allot header spare want a tiles = some (p, tiles')) :
    span header tiles' = span header tiles := by
  induction tiles generalizing a tiles' with
  | nil => exact nomatch taken
  | cons t rest ih =>
    rw [allot] at taken
    split at taken
    next =>
      obtain ⟨rfl, rfl⟩ := Prod.mk.inj (Option.some.inj taken)
      exact span_cut
    next =>
      obtain ⟨⟨q, later⟩, found, same⟩ := Option.map_eq_some_iff.mp taken
      obtain ⟨rfl, rfl⟩ := Prod.mk.inj same
      rw [span, span, ih found]

theorem used_allot (taken : allot header spare want a tiles = some (p, tiles')) :
    ∃ size, want ≤ size ∧ (used header a tiles').Perm ((p, size) :: used header a tiles) := by
  induction tiles generalizing a tiles' with
  | nil => exact nomatch taken
  | cons t rest ih =>
    rw [allot] at taken
    split at taken
    next fit =>
      obtain ⟨rfl, rfl⟩ := Prod.mk.inj (Option.some.inj taken)
      obtain ⟨free, large⟩ := Bool.and_eq_true_iff.mp fit
      replace large := of_decide_eq_true large
      rw [used, if_pos free, List.nil_append]
      unfold cut
      split
      · refine ⟨want, Nat.le_refl _, List.Perm.of_eq ?_⟩
        have behind : a + header + want + header + (t.size - want - header) =
            a + header + t.size := by omega
        simp only [List.cons_append, List.nil_append, used, Bool.false_eq_true, if_false, if_true, behind]
      · exact ⟨t.size, large, List.Perm.of_eq rfl⟩
    next =>
      obtain ⟨⟨q, later⟩, found, same⟩ := Option.map_eq_some_iff.mp taken
      obtain ⟨rfl, rfl⟩ := Prod.mk.inj same
      obtain ⟨size, large, perm⟩ := ih found
      refine ⟨size, large, ?_⟩
      rw [used, used]
      exact (perm.append_left _).trans List.perm_middle

theorem coalesced_allot_cons {before : Tile} (taken : allot header spare want a tiles = some (p, tiles'))
    (coalesced : Coalesced (before :: tiles)) : Coalesced (before :: tiles') := by
  induction tiles generalizing a tiles' before with
  | nil => exact nomatch taken
  | cons t rest ih =>
    obtain ⟨apart, inner⟩ := List.isChain_cons_cons.mp coalesced
    rw [allot] at taken
    split at taken
    next fit =>
      obtain ⟨rfl, rfl⟩ := Prod.mk.inj (Option.some.inj taken)
      obtain ⟨free, -⟩ := Bool.and_eq_true_iff.mp fit
      unfold cut
      split
      · -- what remains of the block is free as the block was
        refine List.IsChain.cons_cons (fun both => nomatch both.2) ?_
        refine List.IsChain.cons_cons (fun both => nomatch both.1) ?_
        exact List.IsChain.cons_of_imp (fun u apart both => apart ⟨free, both.2⟩) inner
      · refine List.IsChain.cons_cons (fun both => nomatch both.2) ?_
        exact List.IsChain.cons_of_imp (fun u _ both => nomatch both.1) inner
    next =>
      obtain ⟨⟨q, later⟩, found, same⟩ := Option.map_eq_some_iff.mp taken
      obtain ⟨rfl, rfl⟩ := Prod.mk.inj same
      exact List.IsChain.cons_cons apart (ih found inner)

theorem coalesced_allot (taken : allot header spare want a tiles = some (p, tiles'))
    (coalesced : Coalesced tiles) :
    Coalesced tiles' := by
  have guarded : Coalesced (⟨0, false⟩ :: tiles) := by
    cases tiles with
    | nil => exact nomatch taken
    | cons t rest => exact List.IsChain.cons_cons (fun both => nomatch both.1) coalesced
  exact List.IsChain.of_cons (coalesced_allot_cons taken guarded)

theorem allot_ne_nil (taken : allot header spare want a tiles = some (p, tiles')) : tiles' ≠ [] := by
  rintro rfl
  obtain ⟨size, -, perm⟩ := used_allot taken
  exact absurd perm.length_eq (by simp [used])

end Tiling
