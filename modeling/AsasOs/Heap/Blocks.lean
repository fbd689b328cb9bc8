import AsasOs.Lib.Tiling
import Mathlib.Tactic.Ring

/-!
# The kernel heap

The heap is a list of blocks threaded through the memory it manages: each block begins
with a header that holds its size, a free flag and the address of the next header.
Memory is read and written in words of eight bytes at their addresses; the flag shares
its word with a reserved half. The loops follow the `next` pointers, so they carry fuel
and `none` stands for a loop that does not end.

The module translates the functions and shows what each does to the tiling that the
headers describe.
-/
namespace AsasOs.Heap

open Tiling

/-- The words of memory by the address of their first byte. -/
abbrev Memory := Nat → Nat

abbrev heapBase : Nat := 0xFFFF900000000000

abbrev heapSize : Nat := 2048 * 4096

/-- `sizeof(HEAP_BLOCK)` -/
abbrev headerSize : Nat := 24

/-- Sums of `UINTN` values. -/
def wrap (n : Nat) : Nat := n % 2 ^ 64

namespace Memory

/-! ### Header fields -/

def size (m : Memory) (block : Nat) : Nat := m block

def free (m : Memory) (block : Nat) : Nat := m (block + 8) % 2 ^ 32

def next (m : Memory) (block : Nat) : Nat := m (block + 16)

def setSize (m : Memory) (block value : Nat) : Memory :=
  Function.update m block value

def setFree (m : Memory) (block value : Nat) : Memory :=
  Function.update m (block + 8) (m (block + 8) / 2 ^ 32 * 2 ^ 32 + value)

def setReserved (m : Memory) (block value : Nat) : Memory :=
  Function.update m (block + 8) (m (block + 8) % 2 ^ 32 + value * 2 ^ 32)

def setNext (m : Memory) (block value : Nat) : Memory :=
  Function.update m (block + 16) value

variable (m : Memory) (block value : Nat)

@[simp] theorem size_setSize : (m.setSize block value).size block = value := by
  simp [size, setSize]

@[simp] theorem size_setFree : (m.setFree block value).size block = m.size block := by
  simp [size, setFree]

@[simp] theorem size_setReserved : (m.setReserved block value).size block = m.size block := by
  simp [size, setReserved]

@[simp] theorem size_setNext : (m.setNext block value).size block = m.size block := by
  simp [size, setNext]

@[simp] theorem free_setSize : (m.setSize block value).free block = m.free block := by
  simp [free, setSize]

@[simp] theorem free_setFree {value : Nat} (small : value < 2 ^ 32) :
    (m.setFree block value).free block = value := by
  simp only [free, setFree, Function.update_self]
  omega

@[simp] theorem free_setReserved : (m.setReserved block value).free block = m.free block := by
  simp only [free, setReserved, Function.update_self]
  omega

@[simp] theorem free_setNext : (m.setNext block value).free block = m.free block := by
  simp [free, setNext]

@[simp] theorem next_setSize : (m.setSize block value).next block = m.next block := by
  simp [next, setSize]

@[simp] theorem next_setFree : (m.setFree block value).next block = m.next block := by
  simp [next, setFree]

@[simp] theorem next_setNext : (m.setNext block value).next block = value := by
  simp [next, setNext]

end Memory

/-- The memories agree outside the header of a block. -/
def SameBeside (block : Nat) (m m' : Memory) : Prop :=
  ∀ x, x < block ∨ block + headerSize ≤ x → m' x = m x

theorem SameBeside.trans {block : Nat} {m m' m'' : Memory} (first : SameBeside block m m')
    (second : SameBeside block m' m'') : SameBeside block m m'' :=
  fun x apart => (second x apart).trans (first x apart)

theorem sameBeside_update {block word : Nat} (inside : block ≤ word ∧ word < block + headerSize)
    (m : Memory) (value : Nat) : SameBeside block m (Function.update m word value) := by
  intro x apart
  refine Function.update_of_ne ?_ _ _
  omega

theorem sameBeside_setSize (m : Memory) (block value : Nat) :
    SameBeside block m (m.setSize block value) :=
  sameBeside_update (by simp only [headerSize]; omega) m _

theorem sameBeside_setFree (m : Memory) (block value : Nat) :
    SameBeside block m (m.setFree block value) :=
  sameBeside_update (by simp only [headerSize]; omega) m _

theorem sameBeside_setReserved (m : Memory) (block value : Nat) :
    SameBeside block m (m.setReserved block value) :=
  sameBeside_update (by simp only [headerSize]; omega) m _

theorem sameBeside_setNext (m : Memory) (block value : Nat) :
    SameBeside block m (m.setNext block value) :=
  sameBeside_update (by simp only [headerSize]; omega) m _

theorem SameBeside.fields {block other : Nat} {m m' : Memory} (beside : SameBeside block m m')
    (apart : other + headerSize ≤ block ∨ block + headerSize ≤ other) :
    m'.size other = m.size other ∧ m'.free other = m.free other ∧ m'.next other = m.next other := by
  have header : headerSize = 24 := rfl
  refine ⟨beside other (by omega), ?_, beside (other + 16) (by omega)⟩
  rw [Memory.free, beside (other + 8) (by omega)]
  rfl

/-! ### The functions -/

/-- The sum with 15 may wrap; then the low four bits are cleared. -/
def alignSize (size : UInt64) : Nat :=
  wrap (size.toNat + 15) / 16 * 16

/-- The header that `heap_initialize` writes once the pages of the heap are mapped. -/
def heapInitialize (m : Memory) : Memory :=
  (((m.setSize heapBase (heapSize - headerSize)).setFree heapBase 1).setReserved heapBase 0).setNext
    heapBase 0

/-- The block that a split leaves behind `alignedSize` bytes. -/
def splitBlock (m : Memory) (block alignedSize : Nat) : Memory :=
  let next := block + headerSize + alignedSize
  -- the block is no smaller than `alignedSize`: only the header could be borrowed for
  let m := m.setSize next (wrap (2 ^ 64 + m.size block - alignedSize - headerSize))
  let m := m.setFree next 1
  let m := m.setReserved next 0
  let m := m.setNext next (m.next block)
  let m := m.setNext block next
  m.setSize block alignedSize

/-- The search of `kmalloc` from `block` on: the pointer it returns, and the memory. -/
def kmallocFrom (alignedSize : Nat) : Nat → Memory → Nat → Option (Nat × Memory)
  | 0, _, _ => none
  | fuel + 1, m, block =>
    if block = 0 then some (0, m)
    else if m.free block ≠ 0 ∧ m.size block ≥ alignedSize then
      let m :=
        if m.size block ≥ wrap (alignedSize + headerSize + 16) then splitBlock m block alignedSize
        else m
      some (block + headerSize, m.setFree block 0)
    else kmallocFrom alignedSize fuel m (m.next block)

/-- More steps than the heap has room for headers. -/
def heapFuel : Nat := heapSize

def kmalloc (m : Memory) (size : UInt64) : Option (Nat × Memory) :=
  if alignSize size = 0 then some (0, m)
  else kmallocFrom (alignSize size) heapFuel m heapBase

/-- The coalescing pass of `kfree` from `current` on. -/
def coalesceFrom : Nat → Memory → Nat → Option Memory
  | 0, _, _ => none
  | fuel + 1, m, current =>
    if current = 0 then some m
    else if m.next current = 0 then some m
    else if m.free current ≠ 0 ∧ m.free (m.next current) ≠ 0 then
      let m := m.setSize current (wrap (m.size current + (headerSize + m.size (m.next current))))
      let m := m.setNext current (m.next (m.next current))
      coalesceFrom fuel m current
    else coalesceFrom fuel m (m.next current)

def kfree (m : Memory) (pointer : Nat) : Option Memory :=
  if pointer = 0 then some m
  else coalesceFrom heapFuel (m.setFree (pointer - headerSize) 1) heapBase

/-- The sum of `heap_free_bytes` from `block` on. -/
def freeBytesFrom : Nat → Memory → Nat → Nat → Option Nat
  | 0, _, _, _ => none
  | fuel + 1, m, total, block =>
    if block = 0 then some total
    else freeBytesFrom fuel m (if m.free block ≠ 0 then wrap (total + m.size block) else total)
      (m.next block)

def heapFreeBytes (m : Memory) : Option Nat :=
  freeBytesFrom heapFuel m 0 heapBase

/-! ### Laid out tilings -/

/-- The pointer to the first of `tiles`, which would lie at `a`. -/
def link (tiles : List Tile) (a : Nat) : Nat :=
  match tiles with
  | [] => 0
  | _ :: _ => a

/-- From `a` on the headers describe the tiling. -/
def Laid (m : Memory) : Nat → List Tile → Prop
  | _, [] => True
  | a, t :: rest =>
    m.size a = t.size ∧ (m.free a ≠ 0 ↔ t.free = true) ∧
      m.next a = link rest (a + headerSize + t.size) ∧ Laid m (a + headerSize + t.size) rest

theorem link_eq {tiles tiles' : List Tile} (alike : tiles = [] ↔ tiles' = []) (a : Nat) :
    link tiles a = link tiles' a := by
  cases tiles with
  | nil => rw [alike.mp rfl]
  | cons t rest =>
    cases tiles' with
    | nil => exact absurd (alike.mpr rfl) (List.cons_ne_nil _ _)
    | cons u later => rfl

variable {tiles : List Tile}

theorem Laid.congr {m m' : Memory} {a : Nat} (laid : Laid m a tiles)
    (same : ∀ x, a ≤ x → x < a + span headerSize tiles → m' x = m x) : Laid m' a tiles := by
  induction tiles generalizing a with
  | nil => trivial
  | cons t rest ih =>
    obtain ⟨size, free, next, later⟩ := laid
    have header : headerSize = 24 := rfl
    rw [span] at same
    refine ⟨?_, ?_, ?_, ih later fun x low high => same x (by omega) (by omega)⟩
    · exact (same a (by omega) (by omega)).trans size
    · rw [Memory.free, same (a + 8) (by omega) (by omega)]
      exact free
    · exact (same (a + 16) (by omega) (by omega)).trans next

/-- The words that a walk from `a` on must leave alone. -/
def SameBefore (a : Nat) (m m' : Memory) : Prop :=
  ∀ x < a, m' x = m x

variable {m : Memory}

theorem laid_cut {a want : Nat} {t : Tile} {rest : List Tile}
    (laid : Laid m a (t :: rest)) (bound : a + span headerSize (t :: rest) + 16 ≤ 2 ^ 64)
    (positive : 0 < a) (large : want ≤ t.size) :
    ∃ m', (if m.size a ≥ wrap (want + headerSize + 16) then splitBlock m a want else m).setFree a 0 =
        m' ∧ Laid m' a (cut headerSize 16 want t ++ rest) ∧ SameBefore a m m' := by
  obtain ⟨size, -, next, later⟩ := laid
  have header : headerSize = 24 := rfl
  rw [span] at bound
  have exact_sum : wrap (want + headerSize + 16) = want + headerSize + 16 :=
    Nat.mod_eq_of_lt (by omega)
  refine ⟨_, rfl, ?_⟩
  rw [exact_sum, size]
  by_cases split : want + headerSize + 16 ≤ t.size
  · rw [if_pos split, cut, if_pos split]
    -- the header behind the cut, and then the block's own
    obtain ⟨n, here⟩ : ∃ n, n = a + headerSize + want := ⟨_, rfl⟩
    obtain ⟨m₁, written⟩ : ∃ m₁, m₁ =
        ((m.setSize n (wrap (2 ^ 64 + m.size a - want - headerSize))).setFree n 1).setReserved n 0 :=
      ⟨_, rfl⟩
    obtain ⟨m₂, linked⟩ : ∃ m₂, m₂ = m₁.setNext n (m₁.next a) := ⟨_, rfl⟩
    obtain ⟨m₃, cutOff⟩ : ∃ m₃, m₃ = ((m₂.setNext a n).setSize a want).setFree a 0 := ⟨_, rfl⟩
    have same : (splitBlock m a want).setFree a 0 = m₃ := by
      subst here written linked cutOff
      rfl
    have beside₁ : SameBeside n m m₁ := by
      rw [written]
      exact ((sameBeside_setSize _ _ _).trans (sameBeside_setFree _ _ _)).trans
        (sameBeside_setReserved _ _ _)
    have beside₂ : SameBeside n m m₂ := by
      rw [linked]
      exact beside₁.trans (sameBeside_setNext _ _ _)
    have beside₃ : SameBeside a m₂ m₃ := by
      rw [cutOff]
      exact ((sameBeside_setNext _ _ _).trans (sameBeside_setSize _ _ _)).trans
        (sameBeside_setFree _ _ _)
    have remainder : wrap (2 ^ 64 + m.size a - want - headerSize) = t.size - want - headerSize := by
      rw [size, wrap]
      omega
    have kept : m₃.size n = m₂.size n ∧ m₃.free n = m₂.free n ∧ m₃.next n = m₂.next n :=
      beside₃.fields (.inr (by omega))
    have untouched : m₁.size a = m.size a ∧ m₁.free a = m.free a ∧ m₁.next a = m.next a :=
      beside₁.fields (.inl (by omega))
    rw [same]
    refine ⟨⟨?_, ?_, ?_, ?_, ?_, ?_, ?_⟩, fun x low => ?_⟩
    · rw [cutOff]
      simp
    · rw [cutOff, Memory.free_setFree _ _ (by decide)]
      simp
    · rw [cutOff]
      simp [here, link]
    · dsimp only
      rw [← here, kept.1, linked, Memory.size_setNext, written, ← remainder]
      simp
    · dsimp only
      rw [← here, kept.2.1, linked, Memory.free_setNext, written, Memory.free_setReserved,
        Memory.free_setFree _ _ (by decide)]
      simp
    · dsimp only
      rw [← here, kept.2.2, linked, Memory.next_setNext, untouched.2.2, next]
      exact congrArg (link rest) (by omega)
    · have behind : a + headerSize + want + headerSize + (t.size - want - headerSize) =
          a + headerSize + t.size := by omega
      dsimp only
      rw [behind]
      refine later.congr fun x low _ => ?_
      rw [beside₃ x (.inr (by omega)), beside₂ x (.inr (by omega))]
    · rw [beside₃ x (.inl low), beside₂ x (.inl (by omega))]
  · rw [if_neg split, cut, if_neg split]
    have beside := sameBeside_setFree m a 0
    refine ⟨⟨?_, ?_, ?_, ?_⟩, fun x low => beside x (.inl low)⟩
    · rw [Memory.size_setFree, size]
    · rw [Memory.free_setFree _ _ (by decide)]
      simp
    · rw [Memory.next_setFree]
      exact next
    · exact later.congr fun x low _ => beside x (.inr (by omega))

/-! ### The loops -/

theorem link_ne_zero {a : Nat} (positive : 0 < a) (t : Tile) (rest : List Tile) :
    link (t :: rest) a ≠ 0 :=
  Nat.pos_iff_ne_zero.mp positive

theorem fits_iff {a want : Nat} {t : Tile} (size : m.size a = t.size)
    (free : m.free a ≠ 0 ↔ t.free = true) :
    (m.free a ≠ 0 ∧ m.size a ≥ want) ↔ (t.free && decide (want ≤ t.size)) = true := by
  rw [Bool.and_eq_true, decide_eq_true_eq, free, size]

theorem kmallocFrom_none {a want fuel : Nat} (positive : 0 < a)
    (laid : Laid m a tiles) (fueled : tiles.length < fuel)
    (missed : allot headerSize 16 want a tiles = none) :
    kmallocFrom want fuel m (link tiles a) = some (0, m) := by
  induction tiles generalizing a fuel with
  | nil =>
    obtain ⟨fuel, rfl⟩ := Nat.exists_eq_add_of_lt fueled
    rfl
  | cons t rest ih =>
    match fuel with
    | fuel + 1 =>
      obtain ⟨size, free, next, later⟩ := laid
      rw [allot] at missed
      split at missed
      · cases missed
      next unfit =>
        rw [Option.map_eq_none_iff] at missed
        rw [kmallocFrom, if_neg (link_ne_zero positive t rest), link,
          if_neg (mt (fits_iff size free).mp unfit), next]
        exact ih (by omega) later (Nat.lt_of_succ_lt_succ fueled) missed

theorem kmallocFrom_some {a want p fuel : Nat} {tiles tiles' : List Tile}
    (positive : 0 < a) (laid : Laid m a tiles) (bound : a + span headerSize tiles + 16 ≤ 2 ^ 64)
    (fueled : tiles.length < fuel) (taken : allot headerSize 16 want a tiles = some (p, tiles')) :
    ∃ m', kmallocFrom want fuel m (link tiles a) = some (p, m') ∧ Laid m' a tiles' ∧
    SameBefore a m m' := by
  induction tiles generalizing a fuel tiles' with
  | nil => exact nomatch taken
  | cons t rest ih =>
    match fuel with
    | fuel + 1 =>
      have whole := laid
      obtain ⟨size, free, next, later⟩ := laid
      have header : headerSize = 24 := rfl
      rw [allot] at taken
      split at taken
      next fit =>
        obtain ⟨rfl, rfl⟩ := Prod.mk.inj (Option.some.inj taken)
        have large : want ≤ t.size := of_decide_eq_true (Bool.and_eq_true_iff.mp fit).2
        obtain ⟨m', done, laid', before⟩ := laid_cut whole bound positive large
        refine ⟨m', ?_, laid', before⟩
        rw [kmallocFrom, if_neg (link_ne_zero positive t rest), link, if_pos ((fits_iff size free).mpr fit)]
        exact congrArg (fun m => some (a + headerSize, m)) done
      next unfit =>
        obtain ⟨⟨q, later'⟩, found, same⟩ := Option.map_eq_some_iff.mp taken
        obtain ⟨rfl, rfl⟩ := Prod.mk.inj same
        rw [span] at bound
        obtain ⟨m', done, laid', before⟩ :=
          ih (by omega) later (by omega) (Nat.lt_of_succ_lt_succ fueled) found
        refine ⟨m', ?_, ⟨?_, ?_, ?_, laid'⟩, fun x low => before x (by omega)⟩
        · rw [kmallocFrom, if_neg (link_ne_zero positive t rest), link,
            if_neg (mt (fits_iff size free).mp unfit), next]
          exact done
        · rw [Memory.size, before a (by omega)]
          exact size
        · rw [Memory.free, before (a + 8) (by omega)]
          exact free
        · rw [Memory.next, before (a + 16) (by omega)]
          refine next.trans (link_eq ⟨?_, ?_⟩ _)
          · rintro rfl
            cases found
          · exact fun none_left => absurd none_left (allot_ne_nil found)

theorem coalesceFrom_laid {a fuel : Nat} {t : Tile} {rest : List Tile}
    (positive : 0 < a) (laid : Laid m a (t :: rest))
    (bound : a + span headerSize (t :: rest) ≤ 2 ^ 64) (fueled : rest.length < fuel) :
    ∃ m', coalesceFrom fuel m a = some m' ∧ Laid m' a (coalesce headerSize t rest) ∧
    SameBefore a m m' := by
  have header : headerSize = 24 := rfl
  induction rest generalizing m a t fuel with
  | nil =>
    match fuel with
    | fuel + 1 =>
      have last : m.next a = 0 := laid.2.2.1
      refine ⟨m, ?_, laid, fun x _ => rfl⟩
      rw [coalesceFrom, if_neg (Nat.pos_iff_ne_zero.mp positive), if_pos last]
  | cons u rest ih =>
    match fuel with
    | fuel + 1 =>
      obtain ⟨size, free, next, sizeu, freeu, nextu, later⟩ := laid
      have linked : m.next a = a + headerSize + t.size := next
      simp only [span] at bound
      rw [coalesceFrom, if_neg (Nat.pos_iff_ne_zero.mp positive), linked,
        if_neg (by omega : ¬a + headerSize + t.size = 0), coalesce]
      by_cases both : (t.free && u.free) = true
      · -- the joint block takes the place of the first
        rw [if_pos both, if_pos (by rw [free, freeu]; exact Bool.and_eq_true_iff.mp both)]
        have sum : wrap (m.size a + (headerSize + m.size (a + headerSize + t.size))) =
            t.size + (headerSize + u.size) := by
          rw [size, sizeu]
          exact Nat.mod_eq_of_lt (by omega)
        obtain ⟨m₁, resized⟩ : ∃ m₁, m₁ = m.setSize a (t.size + (headerSize + u.size)) := ⟨_, rfl⟩
        have beside₁ : SameBeside a m m₁ := resized ▸ sameBeside_setSize _ _ _
        obtain ⟨m₂, joined⟩ : ∃ m₂, m₂ = m₁.setNext a (m₁.next (m₁.next a)) := ⟨_, rfl⟩
        have beside₂ : SameBeside a m m₂ := beside₁.trans (joined ▸ sameBeside_setNext _ _ _)
        have linked₁ : m₁.next a = a + headerSize + t.size := by
          rw [resized, Memory.next_setSize, linked]
        have behind : m₁.next (a + headerSize + t.size) = m.next (a + headerSize + t.size) :=
          (beside₁.fields (.inr (by omega))).2.2
        have place : a + headerSize + (t.size + (headerSize + u.size)) =
            a + headerSize + t.size + headerSize + u.size := by omega
        have laid₂ : Laid m₂ a (⟨t.size + (headerSize + u.size), t.free⟩ :: rest) := by
          refine ⟨?_, ?_, ?_, ?_⟩
          · rw [joined, Memory.size_setNext, resized, Memory.size_setSize]
          · rw [joined, Memory.free_setNext, resized, Memory.free_setSize]
            exact free
          · dsimp only
            rw [joined, Memory.next_setNext, linked₁, behind, nextu, place]
          · dsimp only
            rw [place]
            exact later.congr fun x low _ => beside₂ x (.inr (by omega))
        obtain ⟨m', done, laid', before⟩ := ih positive laid₂
          (by simp only [span]; omega) (Nat.lt_of_succ_lt_succ fueled)
        refine ⟨m', ?_, laid', fun x low => (before x low).trans (beside₂ x (.inl low))⟩
        rw [sum, ← resized]
        dsimp only
        rw [← joined]
        exact done
      · rw [if_neg both, if_neg (by rw [free, freeu]; exact mt Bool.and_eq_true_iff.mpr both)]
        obtain ⟨m', done, laid', before⟩ := ih (by omega) ⟨sizeu, freeu, nextu, later⟩
          (by simp only [span]; omega) (Nat.lt_of_succ_lt_succ fueled)
        refine ⟨m', done, ⟨?_, ?_, ?_, laid'⟩, fun x low => before x (by omega)⟩
        · rw [Memory.size, before a (by omega)]
          exact size
        · rw [Memory.free, before (a + 8) (by omega)]
          exact free
        · rw [Memory.next, before (a + 16) (by omega)]
          refine linked.trans ?_
          cases left : coalesce headerSize u rest with
          | nil => exact absurd left coalesce_ne_nil
          | cons _ _ => rfl

/-- The free bytes of a tiling. -/
def freeTotal : List Tile → Nat
  | [] => 0
  | t :: rest => (if t.free then t.size else 0) + freeTotal rest

theorem freeBytesFrom_laid {a total fuel : Nat} (positive : 0 < a)
    (laid : Laid m a tiles) (bound : total + span headerSize tiles < 2 ^ 64)
    (fueled : tiles.length < fuel) :
    freeBytesFrom fuel m total (link tiles a) = some (total + freeTotal tiles) := by
  induction tiles generalizing a total fuel with
  | nil =>
    obtain ⟨fuel, rfl⟩ := Nat.exists_eq_add_of_lt fueled
    rfl
  | cons t rest ih =>
    match fuel with
    | fuel + 1 =>
      obtain ⟨size, free, next, later⟩ := laid
      rw [span] at bound
      rw [freeBytesFrom, if_neg (link_ne_zero positive t rest), link, next, freeTotal, size]
      by_cases isFree : t.free = true
      · have sum : wrap (total + t.size) = total + t.size := Nat.mod_eq_of_lt (by omega)
        rw [if_pos (free.mpr isFree), if_pos isFree, sum,
          ih (by omega) later (by omega) (Nat.lt_of_succ_lt_succ fueled), Nat.add_assoc]
      · rw [if_neg (mt free.mp isFree), if_neg isFree,
          ih (by omega) later (by omega) (Nat.lt_of_succ_lt_succ fueled), Nat.zero_add]

/-! ### Marking a block and writing into it -/

theorem Laid.setFree {a : Nat} {block : Nat × Nat}
    (laid : Laid m a tiles) (member : block ∈ used headerSize a tiles) :
    Laid (m.setFree (block.1 - headerSize) 1) a (release headerSize block.1 a tiles) := by
  have header : headerSize = 24 := rfl
  induction tiles generalizing a with
  | nil => exact nomatch member
  | cons t rest ih =>
    obtain ⟨size, free, next, later⟩ := laid
    have alike : ∀ p, link (release headerSize p (a + headerSize + t.size) rest)
        (a + headerSize + t.size) = link rest (a + headerSize + t.size) := by
      intro p
      cases rest <;> rfl
    rw [used, List.mem_append] at member
    rcases member with here | behind
    · -- the header of this tile
      have same : block = (a + headerSize, t.size) := by
        split at here
        · cases here
        · exact List.mem_singleton.mp here
      rw [same, Nat.add_sub_cancel]
      have beside := sameBeside_setFree m a 1
      refine ⟨?_, ?_, ?_, ?_⟩
      · rw [Memory.size_setFree, size]
      · rw [Memory.free_setFree _ _ (by decide)]
        simp
      · rw [Memory.next_setFree, alike, next]
      · dsimp only
        rw [release_of_lt (by omega)]
        exact later.congr fun x low _ => beside x (.inr (by omega))
    · have bounds := (used_bounds behind).1
      have beside := sameBeside_setFree m (block.1 - headerSize) 1
      obtain ⟨size', free', next'⟩ := beside.fields (.inl (by omega) : a + headerSize ≤ _ ∨ _)
      have other : (a + headerSize == block.1) = false := beq_eq_false_iff_ne.mpr (by omega)
      refine ⟨size'.trans size, ?_, ?_, ih later behind⟩
      · rw [free', free, other, Bool.or_false]
      · rw [next', alike, next]

theorem Laid.store {a x : Nat} {block : Nat × Nat} (laid : Laid m a tiles)
    (member : block ∈ used headerSize a tiles)
    (inside : block.1 ≤ x ∧ x < block.1 + block.2) (value : Nat) :
    Laid (Function.update m x value) a tiles := by
  have header : headerSize = 24 := rfl
  induction tiles generalizing a with
  | nil => exact nomatch member
  | cons t rest ih =>
    obtain ⟨size, free, next, later⟩ := laid
    have fields : a + headerSize ≤ x → ∀ y < a + headerSize, Function.update m x value y = m y :=
      fun behind y low => Function.update_of_ne (by omega) _ _
    rw [used, List.mem_append] at member
    have behind : a + headerSize ≤ x := by
      rcases member with here | there
      · split at here
        · cases here
        · rw [List.mem_singleton.mp here] at inside
          exact inside.1
      · have bounds := (used_bounds there).1
        omega
    refine ⟨?_, ?_, ?_, ?_⟩
    · rw [Memory.size, fields behind a (by omega)]
      exact size
    · rw [Memory.free, fields behind (a + 8) (by omega)]
      exact free
    · rw [Memory.next, fields behind (a + 16) (by omega)]
      exact next
    · rcases member with here | there
      · refine later.congr fun y low _ => Function.update_of_ne ?_ _ _
        split at here
        · cases here
        · rw [List.mem_singleton.mp here] at inside
          have last := inside.2
          dsimp only at last
          omega
      · exact ih later there

end AsasOs.Heap
