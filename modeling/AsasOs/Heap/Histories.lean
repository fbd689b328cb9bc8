import AsasOs.Heap.Blocks

/-!
# Histories of the heap

A history is a sequence of allocations of any size, frees of live pointers and stores
by the owners into their allocations. The used blocks are the live allocations at every
point, so the properties of the heap are those of a coalesced tiling.
-/
namespace AsasOs.Heap

open Tiling

/-- The headers describe a coalesced tiling of the whole heap. -/
structure Tiled (m : Memory) (tiles : List Tile) : Prop where
  laid : Laid m heapBase tiles
  whole : span headerSize tiles = heapSize
  coalesced : Coalesced tiles

variable {tiles : List Tile} {m : Memory}

theorem Tiled.ne_nil (tiled : Tiled m tiles) : tiles ≠ [] := by
  rintro rfl
  exact absurd tiled.whole (by decide)

theorem Tiled.fueled (tiled : Tiled m tiles) : tiles.length < heapFuel := by
  have bound : headerSize * tiles.length ≤ span headerSize tiles := length_le_span
  rw [tiled.whole] at bound
  change 24 * tiles.length ≤ 8388608 at bound
  change tiles.length < 8388608
  omega

theorem Tiled.link (tiled : Tiled m tiles) : link tiles heapBase = heapBase := by
  cases tiles with
  | nil => exact absurd rfl tiled.ne_nil
  | cons t rest => rfl

theorem Tiled.bound (tiled : Tiled m tiles) : heapBase + span headerSize tiles + 16 ≤ 2 ^ 64 := by
  rw [tiled.whole]
  decide

/-- The single free block that the heap starts with. -/
abbrev freshTiles : List Tile := [⟨heapSize - headerSize, true⟩]

theorem tiled_fresh (boot : Memory) : Tiled (heapInitialize boot) freshTiles := by
  refine ⟨⟨?_, ?_, ?_, trivial⟩, rfl, List.IsChain.singleton _⟩
  · simp [heapInitialize]
  · rw [heapInitialize, Memory.free_setNext, Memory.free_setReserved,
      Memory.free_setFree _ _ (by decide)]
    simp
  · simp [heapInitialize, link]

/-! ### The calls on a tiled heap -/

theorem alignSize_ge {size : UInt64} (some_bytes : alignSize size ≠ 0) :
    size.toNat ≤ alignSize size := by
  have bound := size.toNat_lt
  rw [alignSize, wrap] at some_bytes ⊢
  omega

theorem Tiled.kmalloc (tiled : Tiled m tiles) (size : UInt64) : kmalloc m size = some (0, m) ∨
      ∃ p m' tiles' bytes, kmalloc m size = some (p, m') ∧ p ≠ 0 ∧ Tiled m' tiles' ∧ size.toNat ≤ bytes ∧
        (used headerSize heapBase tiles').Perm ((p, bytes) :: used headerSize heapBase tiles) := by
  by_cases none_wanted : alignSize size = 0
  · exact .inl (if_pos none_wanted)
  · have called : Heap.kmalloc m size =
        kmallocFrom (alignSize size) heapFuel m (Heap.link tiles heapBase) := by
      rw [Heap.kmalloc, if_neg none_wanted, tiled.link]
    rw [called]
    cases taken : allot headerSize 16 (alignSize size) heapBase tiles with
    | none => exact .inl (kmallocFrom_none (by decide) tiled.laid tiled.fueled taken)
    | some result =>
      obtain ⟨p, tiles'⟩ := result
      obtain ⟨m', done, laid, -⟩ :=
        kmallocFrom_some (by decide) tiled.laid tiled.bound tiled.fueled taken
      obtain ⟨bytes, large, joins⟩ := used_allot taken
      have inside := (used_bounds (joins.mem_iff.mpr List.mem_cons_self)).1
      refine .inr ⟨p, m', tiles', bytes, done, ?_, ⟨laid, ?_, coalesced_allot taken tiled.coalesced⟩,
        (alignSize_ge none_wanted).trans large, joins⟩
      · exact Nat.pos_iff_ne_zero.mp (Nat.lt_of_lt_of_le (by decide) inside)
      · rw [span_allot taken, tiled.whole]

theorem Tiled.kfree {block : Nat × Nat} (tiled : Tiled m tiles)
    (member : block ∈ used headerSize heapBase tiles) :
    ∃ m' tiles', kfree m block.1 = some m' ∧ Tiled m' tiles' ∧ used headerSize heapBase tiles' =
        (used headerSize heapBase tiles).filter fun other => other.1 != block.1 := by
  have inside := (used_bounds member).1
  have positive : block.1 ≠ 0 := Nat.pos_iff_ne_zero.mp (Nat.lt_of_lt_of_le (by decide) inside)
  have marked := tiled.laid.setFree member
  have fueled := tiled.fueled
  have bound := tiled.bound
  match tiles, tiled.ne_nil with
  | t :: rest, _ =>
    have whole : span headerSize (release headerSize block.1 heapBase (t :: rest)) = heapSize := by
      rw [span_release, tiled.whole]
    have length : (release headerSize block.1 (heapBase + headerSize + t.size) rest).length <
        heapFuel := by
      rw [release_length]
      exact Nat.lt_of_succ_lt fueled
    obtain ⟨m', done, laid, -⟩ := coalesceFrom_laid (by decide) marked
      (by
        change heapBase + span headerSize (release headerSize block.1 heapBase (t :: rest)) ≤ 2 ^ 64
        rw [whole]
        decide) length
    refine ⟨m', _, ?_, ⟨laid, ?_, coalesced_coalesce⟩, ?_⟩
    · rw [Heap.kfree, if_neg positive, done]
    · rw [span_coalesce]
      exact whole
    · rw [used_coalesce]
      change used headerSize heapBase (release headerSize block.1 heapBase (t :: rest)) = _
      exact used_release

theorem Tiled.freeBytes (tiled : Tiled m tiles) : heapFreeBytes m = some (freeTotal tiles) := by
  have sum := freeBytesFrom_laid (by decide) tiled.laid
    (by rw [tiled.whole]; decide : 0 + span headerSize tiles < 2 ^ 64) tiled.fueled
  rw [tiled.link, Nat.zero_add] at sum
  exact sum

/-! ### Histories -/

inductive Call where
  | kmalloc (size : UInt64)
  | kfree (pointer : Nat)
  | store (address value : Nat)

/-- The memory, and the live allocations with their requested sizes. -/
structure World where
  memory : Memory
  live : List (Nat × Nat)

/-- One call; `none` when a walk of the block list does not end. -/
def step (w : World) : Call → Option World
  | .kmalloc size =>
    (kmalloc w.memory size).map fun result =>
      ⟨result.2, if result.1 = 0 then w.live else (result.1, size.toNat) :: w.live⟩
  | .kfree pointer =>
    (kfree w.memory pointer).map fun m => ⟨m, w.live.filter fun block => block.1 != pointer⟩
  | .store address value => some ⟨Function.update w.memory address value, w.live⟩

/-- Only live pointers are freed, and stores stay inside live allocations. -/
def Call.Allowed (w : World) : Call → Prop
  | .kmalloc _ => True
  | .kfree pointer => pointer ∈ w.live.map Prod.fst
  | .store address _ => ∃ block ∈ w.live, block.1 ≤ address ∧ address + 8 ≤ block.1 + block.2

def run (w : World) : List Call → Option World
  | [] => some w
  | call :: rest => (step w call).bind fun w' => run w' rest

/-- Every call of the history is allowed where it is made. -/
def Allowed (w : World) : List Call → Prop
  | [] => True
  | call :: rest =>
    call.Allowed w ∧
      match step w call with
      | none => True
      | some w' => Allowed w' rest

def fresh (boot : Memory) : World := ⟨heapInitialize boot, []⟩

/-- The used blocks are the live allocations. -/
structure Sound (w : World) (tiles : List Tile) : Prop where
  tiled : Tiled w.memory tiles
  owners : (w.live.map Prod.fst).Perm ((used headerSize heapBase tiles).map Prod.fst)
  large : ∀ block ∈ w.live, ∃ bytes, block.2 ≤ bytes ∧ (block.1, bytes) ∈ used headerSize heapBase tiles

theorem sound_fresh (boot : Memory) : Sound (fresh boot) freshTiles :=
  ⟨tiled_fresh boot, List.Perm.refl _, fun _ member => nomatch member⟩

variable {w : World}

theorem Sound.kmalloc (sound : Sound w tiles) (size : UInt64) :
    ∃ w' tiles', step w (.kmalloc size) = some w' ∧ Sound w' tiles' := by
  rcases sound.tiled.kmalloc size with failed | ⟨p, m', tiles', bytes, done, positive, tiled, enough, joins⟩
  · refine ⟨w, tiles, ?_, sound⟩
    rw [step, failed]
    rfl
  · refine ⟨⟨m', (p, size.toNat) :: w.live⟩, tiles', ?_, tiled, ?_, fun block member => ?_⟩
    · rw [step, done, Option.map_some, if_neg positive]
    · exact (sound.owners.cons p).trans (joins.map Prod.fst).symm
    · rcases List.mem_cons.mp member with rfl | old
      · exact ⟨bytes, enough, joins.mem_iff.mpr List.mem_cons_self⟩
      · obtain ⟨size', fits, held⟩ := sound.large block old
        exact ⟨size', fits, joins.mem_iff.mpr (List.mem_cons_of_mem _ held)⟩

theorem Sound.kfree {pointer : Nat} (sound : Sound w tiles) (live : pointer ∈ w.live.map Prod.fst) :
    ∃ w' tiles', step w (.kfree pointer) = some w' ∧ Sound w' tiles' ∧
      w'.live = w.live.filter fun block => block.1 != pointer := by
  obtain ⟨block, member, rfl⟩ := List.mem_map.mp (sound.owners.mem_iff.mp live)
  obtain ⟨m', tiles', done, tiled, left⟩ := sound.tiled.kfree member
  refine ⟨⟨m', w.live.filter fun other => other.1 != block.1⟩, tiles', ?_,
    ⟨tiled, ?_, fun other kept => ?_⟩, rfl⟩
  · rw [step, done]
    rfl
  · have unmapped : ∀ blocks : List (Nat × Nat),
        (blocks.filter fun other => other.1 != block.1).map Prod.fst =
          (blocks.map Prod.fst).filter fun p => p != block.1 := by
      intro blocks
      rw [List.filter_map]
      rfl
    dsimp only
    rw [left, unmapped, unmapped]
    exact sound.owners.filter _
  · obtain ⟨inside, apart⟩ := List.mem_filter.mp kept
    obtain ⟨bytes, fits, held⟩ := sound.large other inside
    refine ⟨bytes, fits, ?_⟩
    rw [left]
    exact List.mem_filter.mpr ⟨held, apart⟩

theorem Sound.store {address value : Nat} (sound : Sound w tiles)
    (allowed : (Call.store address value).Allowed w) :
    Sound ⟨Function.update w.memory address value, w.live⟩ tiles := by
  obtain ⟨block, member, low, high⟩ := allowed
  obtain ⟨bytes, fits, held⟩ := sound.large block member
  exact ⟨⟨sound.tiled.laid.store held ⟨low, by dsimp only; omega⟩ value, sound.tiled.whole,
    sound.tiled.coalesced⟩, sound.owners, sound.large⟩

theorem Sound.step {call : Call} (sound : Sound w tiles)
    (allowed : call.Allowed w) : ∃ w' tiles', Heap.step w call = some w' ∧ Sound w' tiles' := by
  cases call with
  | kmalloc size => exact sound.kmalloc size
  | kfree pointer =>
    obtain ⟨w', tiles', done, kept, -⟩ := sound.kfree allowed
    exact ⟨w', tiles', done, kept⟩
  | store address value => exact ⟨_, tiles, rfl, sound.store allowed⟩

theorem Sound.run {calls : List Call} (sound : Sound w tiles)
    (allowed : Allowed w calls) : ∃ w' tiles', Heap.run w calls = some w' ∧ Sound w' tiles' := by
  induction calls generalizing w tiles with
  | nil => exact ⟨w, tiles, rfl, sound⟩
  | cons call rest ih =>
    obtain ⟨first, onward⟩ := allowed
    obtain ⟨w₁, tiles₁, done, sound₁⟩ := sound.step first
    rw [done] at onward
    obtain ⟨w', tiles', ran, sound'⟩ := ih sound₁ onward
    refine ⟨w', tiles', ?_, sound'⟩
    rw [Heap.run, done]
    exact ran

/-! ### What a sound heap promises -/

theorem Sound.inside (sound : Sound w tiles) {block : Nat × Nat} (member : block ∈ w.live) :
    heapBase + headerSize ≤ block.1 ∧ block.1 + block.2 ≤ heapBase + heapSize := by
  obtain ⟨bytes, fits, held⟩ := sound.large block member
  have bounds := used_bounds held
  rw [sound.tiled.whole] at bounds
  dsimp only at bounds
  omega

theorem Sound.nodup (sound : Sound w tiles) : (w.live.map Prod.fst).Nodup :=
  sound.owners.nodup_iff.mpr (used_nodup (by decide))

theorem Sound.disjoint (sound : Sound w tiles) :
    w.live.Pairwise fun x y => x.1 + x.2 ≤ y.1 ∨ y.1 + y.2 ≤ x.1 := by
  refine (List.pairwise_map.mp sound.nodup).imp_of_mem fun {x y} memberx membery distinct => ?_
  obtain ⟨bytesx, fitsx, heldx⟩ := sound.large x memberx
  obtain ⟨bytesy, fitsy, heldy⟩ := sound.large y membery
  have apart := used_disjoint heldx heldy distinct
  dsimp only at apart
  omega

theorem Sound.free_all {order : List Nat} (sound : Sound w tiles)
    (all : order.Perm (w.live.map Prod.fst)) :
    ∃ w' tiles', Heap.run w (order.map Call.kfree) = some w' ∧ Sound w' tiles' ∧ w'.live = [] := by
  induction order generalizing w tiles with
  | nil =>
    exact ⟨w, tiles, rfl, sound, List.map_eq_nil_iff.mp all.symm.eq_nil⟩
  | cons pointer rest ih =>
    obtain ⟨w₁, tiles₁, done, sound₁, left⟩ := sound.kfree (all.mem_iff.mp List.mem_cons_self)
    have others : rest.Perm (w₁.live.map Prod.fst) := by
      have distinct := all.nodup_iff.mpr sound.nodup
      have kept : rest.filter (fun p => p != pointer) = rest :=
        List.filter_eq_self.mpr fun p member =>
          bne_iff_ne.mpr fun same => (List.nodup_cons.mp distinct).1 (same ▸ member)
      have filtered := all.filter fun p => p != pointer
      rw [List.filter_cons_of_neg (by simp), kept, List.filter_map] at filtered
      rw [left]
      exact filtered
    obtain ⟨w', tiles', ran, sound', empty⟩ := ih sound₁ others
    refine ⟨w', tiles', ?_, sound', empty⟩
    rw [List.map_cons, Heap.run, done]
    exact ran

theorem Sound.fresh_of_empty (sound : Sound w tiles) (empty : w.live = []) : tiles = freshTiles := by
  have unused : used headerSize heapBase tiles = [] := by
    have owners := sound.owners.symm
    rw [empty] at owners
    exact List.map_eq_nil_iff.mp owners.eq_nil
  rw [single_of_unused sound.tiled.coalesced unused sound.tiled.ne_nil, sound.tiled.whole]

/-- **The kernel heap**: after every allowed history the block list tiles the heap with
no two free neighbours, its used blocks are the live allocations, which lie inside the
heap, do not overlap and are as large as requested; and freeing them in any order gives
back the single free block and the initial free bytes. -/
theorem heap_history (boot : Memory) (calls : List Call) (allowed : Allowed (fresh boot) calls) :
    ∃ w tiles, run (fresh boot) calls = some w ∧
      Laid w.memory heapBase tiles ∧ span headerSize tiles = heapSize ∧ Coalesced tiles ∧
      (w.live.map Prod.fst).Perm ((used headerSize heapBase tiles).map Prod.fst) ∧
      (∀ block ∈ w.live, heapBase + headerSize ≤ block.1 ∧ block.1 + block.2 ≤ heapBase + heapSize ∧
        ∃ bytes, block.2 ≤ bytes ∧ (block.1, bytes) ∈ used headerSize heapBase tiles) ∧
      (w.live.Pairwise fun x y => x.1 + x.2 ≤ y.1 ∨ y.1 + y.2 ≤ x.1) ∧
      ∀ order : List Nat, order.Perm (w.live.map Prod.fst) →
        ∃ w', run w (order.map Call.kfree) = some w' ∧ Laid w'.memory heapBase freshTiles ∧
          heapFreeBytes w'.memory = heapFreeBytes (heapInitialize boot) := by
  obtain ⟨w, tiles, ran, sound⟩ := (sound_fresh boot).run allowed
  refine ⟨w, tiles, ran, sound.tiled.laid, sound.tiled.whole, sound.tiled.coalesced, sound.owners,
    fun block member => ?_, sound.disjoint, fun order all => ?_⟩
  · exact ⟨(sound.inside member).1, (sound.inside member).2, sound.large block member⟩
  · obtain ⟨w', tiles', freed, sound', empty⟩ := sound.free_all all
    rw [sound'.fresh_of_empty empty] at sound'
    exact ⟨w', freed, sound'.tiled.laid, sound'.tiled.freeBytes.trans (tiled_fresh boot).freeBytes.symm⟩

instance (w : World) : (call : Call) → Decidable (call.Allowed w)
  | .kmalloc _ => isTrue trivial
  | .kfree pointer => inferInstanceAs (Decidable (pointer ∈ w.live.map Prod.fst))
  | .store address _ => inferInstanceAs
      (Decidable (∃ block ∈ w.live, block.1 ≤ address ∧ address + 8 ≤ block.1 + block.2))

instance decideAllowed (w : World) : (calls : List Call) → Decidable (Allowed w calls)
  | [] => isTrue trivial
  | call :: rest =>
    match stepped : step w call with
    | none => decidable_of_iff (call.Allowed w) (by rw [Allowed, stepped, and_true])
    | some w' =>
      have := decideAllowed w' rest
      decidable_of_iff (call.Allowed w ∧ Allowed w' rest) (by rw [Allowed, stepped])

/-- Two allocations, a store into the second, and the free of the first. -/
theorem heap_history_two :
    ∃ w tiles, run (fresh fun _ => 0) [.kmalloc 100, .kmalloc 8, .store (heapBase + 160) 7,
        .kfree (heapBase + 24)] = some w ∧
      Laid w.memory heapBase tiles ∧ span headerSize tiles = heapSize ∧ Coalesced tiles := by
  obtain ⟨w, tiles, ran, laid, whole, coalesced, -⟩ :=
    heap_history (fun _ => 0) [.kmalloc 100, .kmalloc 8, .store (heapBase + 160) 7,
      .kfree (heapBase + 24)] (by decide +kernel)
  exact ⟨w, tiles, ran, laid, whole, coalesced⟩

end AsasOs.Heap
