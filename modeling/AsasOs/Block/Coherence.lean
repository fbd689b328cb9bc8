import AsasOs.Block.Device

/-!
# Coherence of the block cache

A physical block is a disk and a block number on it. A partition and its parent
disk cache the same physical block under different labels, so the cache agrees
with the media only as long as no write leaves an entry of a third device behind.
`CacheInv` states the agreement up to a set of stale labels; the lemmas follow the
three steps of a request (driver call, refreshing of the cache, read-ahead), and
the run lemma carries the agreement along any sequence of calls.
-/
namespace AsasOs.Block

open Slots

/-! ### Physical blocks -/

/-- The disk and block behind block `lba` of a disk or of a partition of a disk. -/
def physical (device : Device) (lba : Nat) : Nat × Nat :=
  match device.parent with
  | none => (device.id, lba)
  | some parent => (parent, device.startLba + lba)

/-- What the media hold for a cache label. -/
def content (s : BlockLayer) (key : CacheKey) : List UInt8 :=
  match s.devices[key.deviceId]? with
  | none => []
  | some device =>
    let block := physical device key.lba
    (s.media block.1 block.2).block 0 key.blockSize

/-- The registry holds disks, and partitions of these disks. -/
structure Registry (devices : List Device) : Prop where
  ids : ∀ (i : Nat) (d : Device), devices[i]? = some d → d.id = i
  disks : ∀ (i : Nat) (d : Device), devices[i]? = some d → d.ops = .driver → d.parent = none
  partitions : ∀ (i : Nat) (d : Device), devices[i]? = some d → d.ops = .partition →
    ∃ (p : Nat) (parent : Device), d.parent = some p ∧ devices[p]? = some parent ∧ parent.ops = .driver ∧
      parent.logicalBlockSize = d.logicalBlockSize
  sizes : ∀ (i : Nat) (d : Device), devices[i]? = some d → d.logicalBlockSize ≤ 4096

/-- The cache agrees with the media, apart from the labels in `stale`, and the
drivers have no failure ahead of them. -/
structure CacheInv (stale : Set CacheKey) (s : BlockLayer) : Prop where
  registry : Registry s.devices
  faultless : s.outcomes = []
  unique : Unique s.cacheEntries
  labelled : ∀ i, (s.cacheEntries i).valid = true →
    ∃ d, s.devices[(s.cacheEntries i).key.deviceId]? = some d ∧
      (s.cacheEntries i).key.blockSize = d.logicalBlockSize ∧
      d.hasFlag BLOCK_DEVICE_FLAG_NO_CACHE = false
  coherent : CoherentOff stale (content s) s.cacheEntries

variable {s : BlockLayer}

theorem CacheInv.mono {stale stale' : Set CacheKey} (inv : CacheInv stale s)
    (more : stale ⊆ stale') : CacheInv stale' s :=
  { inv with coherent := inv.coherent.mono fun _ _ member => more member }

/-- Two layers that differ in nothing but the cache. -/
structure SameMedia (s s' : BlockLayer) : Prop where
  devices : s'.devices = s.devices
  media : s'.media = s.media
  outcomes : s'.outcomes = s.outcomes

namespace SameMedia

theorem refl (s : BlockLayer) : SameMedia s s := ⟨rfl, rfl, rfl⟩

theorem trans {s t u : BlockLayer} (left : SameMedia s t) (right : SameMedia t u) : SameMedia s u :=
  ⟨right.devices.trans left.devices, right.media.trans left.media, right.outcomes.trans left.outcomes⟩

theorem content {s s' : BlockLayer} (same : SameMedia s s') : content s' = content s := by
  funext key
  simp only [Block.content, same.devices, same.media]

end SameMedia

/-- A device of the registry, under the index it carries. -/
def Registered (s : BlockLayer) (device : Device) : Prop :=
  s.devices[device.id]? = some device

theorem SameMedia.registered {s s' : BlockLayer} (same : SameMedia s s') {device : Device}
    (registered : Registered s device) : Registered s' device := by
  unfold Registered
  rw [same.devices]
  exact registered

/-! ### Single cache operations -/

variable {slot : Fin BLOCK_CACHE_ENTRY_COUNT} {device : Device}

theorem cacheFind_some {lba : Nat} (found : cacheFind s device lba = some slot) :
    (s.cacheEntries slot).valid = true ∧ (s.cacheEntries slot).key = device.cacheKey lba := by
  unfold cacheFind at found
  split at found
  · cases found
  · exact find_some found

variable {stale : Set CacheKey}

theorem cacheFind_none (inv : CacheInv stale s)
    {device : Device} (registered : Registered s device) {lba : Nat}
    (missing : cacheFind s device lba = none) :
    ∀ i, (s.cacheEntries i).valid = true → (s.cacheEntries i).key ≠ device.cacheKey lba := by
  unfold cacheFind at missing
  split at missing
  · intro i valid same
    obtain ⟨d, at_id, _, cached⟩ := inv.labelled i valid
    rw [same] at at_id
    rw [show (device.cacheKey lba).deviceId = device.id from rfl, registered] at at_id
    cases at_id
    simp_all
  · exact find_none_iff.mp missing

theorem setData_same (s : BlockLayer) (slot : Fin BLOCK_CACHE_ENTRY_COUNT) (data : List UInt8) :
    SameMedia s (s.setData slot data) := ⟨rfl, rfl, rfl⟩

theorem setData_inv (inv : CacheInv stale s) {slot : Fin BLOCK_CACHE_ENTRY_COUNT} {data : List UInt8}
    (valid : (s.cacheEntries slot).valid = true)
    (right : data = content s (s.cacheEntries slot).key) :
    CacheInv (stale \ {(s.cacheEntries slot).key}) (s.setData slot data) where
  registry := inv.registry
  faultless := inv.faultless
  unique := by
    apply inv.unique.update
    intro _ j other validj same
    exact other (inv.unique j slot validj valid same)
  labelled := by
    intro i validi
    by_cases hi : i = slot
    · subst hi
      simp only [BlockLayer.setData, Function.update_self]
      exact inv.labelled i valid
    · simp only [BlockLayer.setData, Function.update_of_ne hi] at validi ⊢
      exact inv.labelled i validi
  coherent := by
    rw [(setData_same s slot data).content]
    apply inv.coherent.fill
    · intro _
      exact right
    · intro j other validj same
      exact other (inv.unique j slot validj valid same)

theorem invalidate_inv (inv : CacheInv (stale ∪ {(s.cacheEntries slot).key}) s)
    (valid : (s.cacheEntries slot).valid = true) :
    CacheInv stale (s.invalidate slot) where
  registry := inv.registry
  faultless := inv.faultless
  unique := by
    apply inv.unique.update
    intro impossible
    cases impossible
  labelled := by
    intro i validi
    by_cases hi : i = slot
    · subst hi
      simp [BlockLayer.invalidate] at validi
    · simp only [BlockLayer.invalidate, Function.update_of_ne hi] at validi ⊢
      exact inv.labelled i validi
  coherent := by
    intro i validi fresh
    by_cases hi : i = slot
    · subst hi
      simp [BlockLayer.invalidate] at validi
    · simp only [BlockLayer.invalidate, Function.update_of_ne hi] at validi fresh ⊢
      apply inv.coherent i validi
      rintro (old | same)
      · exact fresh old
      · exact hi (inv.unique i slot validi valid same)

theorem cacheAllocate_none {s s' : BlockLayer} {lba : Nat}
    (refused : cacheAllocate s device lba = (s', none)) : s' = s := by
  unfold cacheAllocate at refused
  split at refused
  · cases refused
    rfl
  · cases refused

theorem cacheAllocate_same (s : BlockLayer) (device : Device) (lba : Nat) :
    SameMedia s (cacheAllocate s device lba).1 := by
  unfold cacheAllocate
  split <;> exact ⟨rfl, rfl, rfl⟩

theorem cacheAllocate_inv {s s' : BlockLayer} (inv : CacheInv stale s)
    {device : Device} (registered : Registered s device) {lba : Nat}
    (missing : cacheFind s device lba = none) {slot : Fin BLOCK_CACHE_ENTRY_COUNT}
    (allocated : cacheAllocate s device lba = (s', some slot)) :
    CacheInv (stale ∪ {device.cacheKey lba}) s' ∧
      (s'.cacheEntries slot).valid = true ∧ (s'.cacheEntries slot).key = device.cacheKey lba := by
  have absent := cacheFind_none inv registered missing
  unfold cacheAllocate at allocated
  split at allocated
  · cases allocated
  · rename_i cached
    simp only [Bool.or_eq_true, not_or, Bool.not_eq_true] at cached
    cases allocated
    refine ⟨⟨inv.registry, inv.faultless, ?_, ?_, ?_⟩, by simp, by simp⟩
    · apply inv.unique.update
      intro _ j _ validj
      exact absent j validj
    · intro i validi
      by_cases hi : i = s.roundRobinSlot
      · subst hi
        simp only [Function.update_self]
        exact ⟨device, registered, rfl, cached.1⟩
      · simp only [Function.update_of_ne hi] at validi ⊢
        exact inv.labelled i validi
    · have old : CoherentOff (stale ∪ {device.cacheKey lba}) (content s) s.cacheEntries :=
        inv.coherent.mono fun _ _ member => Or.inl member
      apply old.update
      intro _ fresh
      exact absurd (Or.inr rfl) fresh

theorem cacheStore_same (s : BlockLayer) (device : Device) (lba : Nat) (data : List UInt8) :
    SameMedia s (cacheStore s device lba data) := by
  unfold cacheStore
  split
  · exact setData_same s _ data
  · have allocated := cacheAllocate_same s device lba
    split
    · rename_i s' slot taken
      rw [taken] at allocated
      exact allocated.trans (setData_same s' slot data)
    · rename_i s' taken
      rw [taken] at allocated
      exact allocated

theorem cacheStore_inv (inv : CacheInv stale s)
    {device : Device} (registered : Registered s device) {lba : Nat} {data : List UInt8}
    (right : data = content s (device.cacheKey lba)) :
    CacheInv (stale \ {device.cacheKey lba}) (cacheStore s device lba data) := by
  unfold cacheStore
  split
  · rename_i slot found
    obtain ⟨valid, key⟩ := cacheFind_some found
    rw [← key]
    apply setData_inv inv valid
    rw [key]
    exact right
  · rename_i missing
    split
    · rename_i s' slot taken
      have same := cacheAllocate_same s device lba
      rw [taken] at same
      obtain ⟨inv', valid, key⟩ := cacheAllocate_inv inv registered missing taken
      have filled := setData_inv inv' valid (show data = content s' _ by rw [key, same.content]; exact right)
      rw [key] at filled
      refine { filled with coherent := filled.coherent.mono ?_ }
      rintro i _ ⟨member | member, other⟩
      · exact ⟨member, other⟩
      · exact absurd member other
    · rename_i s' taken
      have unchanged := cacheAllocate_none taken
      subst unchanged
      refine { inv with coherent := inv.coherent.mono ?_ }
      intro i valid member
      exact ⟨member, cacheFind_none inv registered missing i valid⟩

/-! ### Round-robin replacement -/

/-- Slot `a` is not among the next `k` slots to be recycled. -/
def Spared (s : BlockLayer) (a : Fin BLOCK_CACHE_ENTRY_COUNT) (k : Nat) : Prop :=
  ∀ j < k, (s.nextCacheSlot + j) % BLOCK_CACHE_ENTRY_COUNT ≠ a.val

theorem Spared.weaken {a : Fin BLOCK_CACHE_ENTRY_COUNT} {k k' : Nat}
    (spared : Spared s a k) (fewer : k' ≤ k) : Spared s a k' :=
  fun j below => spared j (by omega)

theorem cacheAllocate_spares {s s' : BlockLayer} {lba : Nat}
    (allocated : cacheAllocate s device lba = (s', some slot)) :
    Spared s' slot 15 ∧ ∀ a k, Spared s a (k + 1) →
      a ≠ slot ∧ s'.cacheEntries a = s.cacheEntries a ∧ Spared s' a k := by
  unfold cacheAllocate at allocated
  split at allocated
  · cases allocated
  · cases allocated
    constructor
    · intro j below
      simp only [BlockLayer.roundRobinSlot, BLOCK_CACHE_ENTRY_COUNT]
      omega
    · intro a k spared
      have other : a ≠ s.roundRobinSlot := by
        intro same
        have value := congrArg Fin.val same
        simp only [BlockLayer.roundRobinSlot] at value
        exact spared 0 (by omega) (by simpa using value.symm)
      refine ⟨other, Function.update_of_ne other _ _, ?_⟩
      intro j below
      have next := spared (j + 1) (by omega)
      simp only [BLOCK_CACHE_ENTRY_COUNT] at next ⊢
      omega

theorem cacheStore_spares {lba : Nat} {data : List UInt8}
    (missing : cacheFind s device lba = none) (a : Fin BLOCK_CACHE_ENTRY_COUNT) (k : Nat)
    (spared : Spared s a (k + 1)) :
    (cacheStore s device lba data).cacheEntries a = s.cacheEntries a ∧
      Spared (cacheStore s device lba data) a k := by
  unfold cacheStore
  rw [missing]
  dsimp only
  split
  · rename_i s' slot allocated
    obtain ⟨other, kept, spared'⟩ := (cacheAllocate_spares allocated).2 a k spared
    refine ⟨?_, spared'⟩
    simp only [BlockLayer.setData, Function.update_of_ne other]
    exact kept
  · rename_i s' allocated
    have unchanged := cacheAllocate_none allocated
    subst unchanged
    exact ⟨rfl, spared.weaken (by omega)⟩

/-! ### Retries -/

theorem writeWithRetry_eq {write : BlockLayer → BlockLayer × Bool}
    (idle : ∀ s', write s = (s', false) → s' = s) (attempts : Nat) :
    writeWithRetry write (attempts + 1) s = write s := by
  induction attempts with
  | zero =>
    simp only [writeWithRetry]
    split
    · rename_i success
      exact success.symm
    · rename_i failure
      exact failure.symm
  | succ attempts ih =>
    rw [writeWithRetry]
    split
    · rename_i success
      exact success.symm
    · rename_i s' failure
      rw [idle s' failure]
      exact ih

/-! ### Buffers -/

@[simp] theorem Buffer.block_length (buffer : Buffer) (offset size : Nat) :
    (buffer.block offset size).length = size := by
  simp [Buffer.block]

theorem Buffer.block_congr {left right : Buffer} {leftOffset rightOffset size : Nat}
    (agree : ∀ j < size, left (leftOffset + j) = right (rightOffset + j)) :
    left.block leftOffset size = right.block rightOffset size := by
  unfold Buffer.block
  apply List.map_congr_left
  intro j member
  exact agree j (List.mem_range.mp member)

theorem Buffer.put_block (buffer : Buffer) (offset : Nat) (data : List UInt8) :
    (buffer.put offset data).block offset data.length = data := by
  apply List.ext_getElem
  · simp
  · intro j below _
    simp only [block_length] at below
    simp [Buffer.block, Buffer.put, below]

theorem Buffer.put_block_before (buffer : Buffer) {offset other size : Nat} (data : List UInt8)
    (before : other + size ≤ offset) :
    (buffer.put offset data).block other size = buffer.block other size := by
  apply Buffer.block_congr
  intro j below
  simp only [Buffer.put]
  rw [if_neg (by omega)]

end AsasOs.Block
