import AsasOs.Block.Coherence

/-!
# Read and write requests on a coherent cache

A read is reduced to what one call of `raw_read_with_retry` does (`FaultyRaw`), which
holds of a disk because its driver fails or delivers a block, and of a partition
because the read of its parent disk is such a request itself. A write makes the
labels of the written blocks stale and refreshes them device by device.
-/
namespace AsasOs.Block

open Slots

/-! ### A driver that may fail -/

/-- The layer, with a driver that does not fail from now on. -/
def BlockLayer.quiet (s : BlockLayer) : BlockLayer := { s with outcomes := [] }

section Quiet

variable {s s' t : BlockLayer} {device : Device} {lba : Nat}

theorem quiet_entries (same : s'.quiet = s.quiet) : s'.cacheEntries = s.cacheEntries := by
  have field := congrArg BlockLayer.cacheEntries same
  exact field

theorem quiet_next (same : s'.quiet = s.quiet) : s'.nextCacheSlot = s.nextCacheSlot := by
  have field := congrArg BlockLayer.nextCacheSlot same
  exact field

theorem quiet_media (same : s'.quiet = s.quiet) : s'.media = s.media := by
  have field := congrArg BlockLayer.media same
  exact field

theorem quiet_devices (same : s'.quiet = s.quiet) : s'.devices = s.devices := by
  have field := congrArg BlockLayer.devices same
  exact field

theorem cacheAllocate_quiet (s : BlockLayer) (device : Device) (lba : Nat) :
    cacheAllocate s.quiet device lba =
      ((cacheAllocate s device lba).1.quiet, (cacheAllocate s device lba).2) := by
  unfold cacheAllocate
  split
  · rfl
  · rfl

theorem cacheStore_quiet (s : BlockLayer) (device : Device) (lba : Nat) (data : List UInt8) :
    cacheStore s.quiet device lba data = (cacheStore s device lba data).quiet := by
  unfold cacheStore
  rw [show cacheFind s.quiet device lba = cacheFind s device lba from rfl, cacheAllocate_quiet]
  cases cacheFind s device lba with
  | some slot => rfl
  | none =>
    rcases cacheAllocate s device lba with ⟨t, _ | slot⟩
    · rfl
    · rfl

theorem spared_quiet {a : Fin BLOCK_CACHE_ENTRY_COUNT} {k : Nat} (same : s'.quiet = s.quiet)
    (spared : Spared s a k) : Spared s' a k := by
  intro j below
  rw [quiet_next same]
  exact spared j below

end Quiet

variable {s s' : BlockLayer} {device : Device}

theorem content_length (registered : Registered s device)
    (lba : Nat) : (content s (device.cacheKey lba)).length = device.logicalBlockSize := by
  unfold Registered at registered
  simp [content, Device.cacheKey, registered]

theorem offset_no_wrap {index count size : Nat} (below : index < count)
    (small : count * size ≤ 2 ^ 32) : index * size % 2 ^ 32 = index * size := by
  rcases Nat.eq_zero_or_pos size with zero | positive
  · simp [zero]
  · apply Nat.mod_eq_of_lt
    calc index * size < count * size := Nat.mul_lt_mul_of_pos_right below positive
      _ ≤ 2 ^ 32 := small

theorem Registry.size_eq (registry : Registry s.devices) {device : Device}
    (registered : Registered s device) (isPartition : device.ops = .partition) :
    ∃ parent, device.parent = some parent.id ∧ Registered s parent ∧ parent.ops = .driver ∧
      parent.logicalBlockSize = device.logicalBlockSize := by
  obtain ⟨p, parent, named, at_p, isDisk, size⟩ :=
    registry.partitions device.id device registered isPartition
  have id := registry.ids p parent at_p
  subst id
  exact ⟨parent, named, at_p, isDisk, size⟩

theorem content_disk (registry : Registry s.devices) {device : Device}
    (registered : Registered s device) (isDisk : device.ops = .driver) (lba : Nat) :
    content s (device.cacheKey lba) = (s.media device.id lba).block 0 device.logicalBlockSize := by
  have root := registry.disks device.id device registered isDisk
  unfold Registered at registered
  simp [content, Device.cacheKey, registered, physical, root]

theorem content_partition (registry : Registry s.devices)
    {device parent : Device} (registered : Registered s device)
    (named : device.parent = some parent.id) (registeredParent : Registered s parent)
    (isDisk : parent.ops = .driver)
    (size : parent.logicalBlockSize = device.logicalBlockSize) (lba : Nat) :
    content s (device.cacheKey lba) = content s (parent.cacheKey (device.startLba + lba)) := by
  rw [content_disk registry registeredParent isDisk, size]
  unfold Registered at registered
  simp [content, Device.cacheKey, registered, physical, named]

variable {stale : Set CacheKey}

theorem parent_registered (inv : CacheInv stale s)
    {device : Device} (registered : Registered s device) (isPartition : device.ops = .partition) :
    ∃ parent, device.parent = some parent.id ∧
      device.parent.bind (s.devices[·]?) = some parent ∧ Registered s parent ∧
      parent.ops = .driver ∧ parent.logicalBlockSize = device.logicalBlockSize ∧
      parent.id ≠ device.id := by
  obtain ⟨parent, named, registeredParent, isDisk, sizes⟩ :=
    inv.registry.size_eq registered isPartition
  refine ⟨parent, named, by rw [named]; exact registeredParent, registeredParent, isDisk, sizes, ?_⟩
  intro same
  unfold Registered at registered registeredParent
  rw [same, registered] at registeredParent
  cases registeredParent
  rw [isDisk] at isPartition
  cases isPartition

/-! ### Reads from a driver that may fail -/

/-- What one raw read does to a cache: it delivers the block, or changes nothing in the layer. -/
structure FaultyRaw (pending : Set CacheKey) (device : Device)
    (raw : Nat → BlockLayer → BlockLayer × Option (List UInt8)) : Prop where
  delivers : ∀ {stale : Set CacheKey} {s s' : BlockLayer} {lba : Nat} {data : List UInt8},
    CacheInv stale s.quiet → Registered s device →
    (∀ key ∈ stale, key ∈ pending ∨ key.deviceId = device.id) →
    raw lba s = (s', some data) →
    CacheInv stale s'.quiet ∧ SameMedia s.quiet s'.quiet ∧ data = content s (device.cacheKey lba) ∧
      ∀ a, Spared s a 2 → s'.cacheEntries a = s.cacheEntries a
  idle : ∀ {stale : Set CacheKey} {s s' : BlockLayer} {lba : Nat},
    CacheInv stale s.quiet → Registered s device →
    (∀ key ∈ stale, key ∈ pending ∨ key.deviceId = device.id) →
    raw lba s = (s', none) → s'.quiet = s.quiet

section Loop

variable {pending : Set CacheKey} {device : Device}
  {raw : Nat → BlockLayer → BlockLayer × Option (List UInt8)} {s s' : BlockLayer} {lba : Nat}
  {data : List UInt8}

theorem faultyFetch_some (spec : FaultyRaw pending device raw)
    (foreign : ∀ key ∈ pending, key.deviceId ≠ device.id)
    (inv : CacheInv pending s.quiet) (registered : Registered s device)
    (fetched : fetchBlock raw device lba s = (s', some data)) :
    CacheInv pending s'.quiet ∧ SameMedia s.quiet s'.quiet ∧ data = content s (device.cacheKey lba) := by
  unfold fetchBlock at fetched
  split at fetched
  · rename_i slot found
    cases fetched
    obtain ⟨valid, key⟩ := cacheFind_some found
    refine ⟨inv, SameMedia.refl _, ?_⟩
    rw [← key]
    apply inv.coherent slot valid
    change (s.cacheEntries slot).key ∉ pending
    rw [key]
    intro member
    exact foreign _ member rfl
  · split at fetched
    · cases fetched
    · rename_i t block delivered
      cases fetched
      obtain ⟨inv', same, right, _⟩ :=
        spec.delivers inv registered (fun _ member => Or.inl member) delivered
      rw [← cacheStore_quiet]
      refine ⟨?_, same.trans (cacheStore_same t.quiet device lba data), right⟩
      have stored : CacheInv _ (cacheStore t.quiet device lba data) :=
        cacheStore_inv inv' (same.registered registered) (by rw [same.content]; exact right)
      exact stored.mono Set.sdiff_subset

theorem faultyFetch_none (spec : FaultyRaw pending device raw) (inv : CacheInv pending s.quiet)
    (registered : Registered s device) (failed : fetchBlock raw device lba s = (s', none)) :
    s'.quiet = s.quiet := by
  unfold fetchBlock at failed
  split at failed
  · cases failed
  · split at failed
    · rename_i t idle
      cases failed
      exact spec.idle inv registered (fun _ member => Or.inl member) idle
    · cases failed

theorem faultyAhead (spec : FaultyRaw pending device raw) (inv : CacheInv pending s.quiet)
    (registered : Registered s device) :
    CacheInv pending (readAhead raw device lba s).quiet ∧
      SameMedia s.quiet (readAhead raw device lba s).quiet := by
  unfold readAhead
  split
  · rename_i missing
    split
    · rename_i s' refused
      rw [cacheAllocate_none refused]
      exact ⟨inv, SameMedia.refl _⟩
    · rename_i s' ahead allocated
      have allocatedQuiet : cacheAllocate s.quiet device lba = (s'.quiet, some ahead) := by
        rw [cacheAllocate_quiet, allocated]
      have same := cacheAllocate_same s.quiet device lba
      rw [allocatedQuiet] at same
      obtain ⟨labelled, valid, key⟩ := cacheAllocate_inv inv registered missing allocatedQuiet
      have spared : Spared s' ahead 2 := (cacheAllocate_spares allocated).1.weaken (by omega)
      have own : ∀ key ∈ pending ∪ {device.cacheKey lba}, key ∈ pending ∨ key.deviceId = device.id := by
        rintro key (member | rfl)
        · exact Or.inl member
        · exact Or.inr rfl
      split
      · rename_i t data delivered
        obtain ⟨inv', same', right, kept⟩ :=
          spec.delivers labelled (same.registered registered) own delivered
        have entry : t.quiet.cacheEntries ahead = s'.quiet.cacheEntries ahead := kept ahead spared
        have filled : CacheInv _ (t.quiet.setData ahead data) :=
          setData_inv inv' (by rw [entry]; exact valid) (by rw [entry, key, same'.content]; exact right)
        refine ⟨filled.mono ?_, (same.trans same').trans (setData_same t.quiet ahead data)⟩
        rw [entry, key]
        rintro _ ⟨member | member, other⟩
        · exact member
        · exact absurd member other
      · rename_i t failed
        have unchanged := spec.idle labelled (same.registered registered) own failed
        rw [← key] at labelled
        have dropped := invalidate_inv labelled valid
        rw [← unchanged] at dropped
        refine ⟨dropped, same.trans ?_⟩
        rw [← unchanged]
        exact ⟨rfl, rfl, rfl⟩
  · exact ⟨inv, SameMedia.refl _⟩

/-- What a read returns is what the device holds, and the cache stays coherent. -/
def FaultyOutcome (pending : Set CacheKey) (s : BlockLayer) (device : Device) (lba count : Nat)
    (outcome : BlockLayer × Option Buffer) : Prop :=
  CacheInv pending outcome.1.quiet ∧ SameMedia s.quiet outcome.1.quiet ∧
    ∀ bytes, outcome.2 = some bytes → ∀ i < count,
      bytes.block (i * device.logicalBlockSize) device.logicalBlockSize =
        content s (device.cacheKey (lba + i))

theorem FaultyOutcome.from {t : BlockLayer} {count : Nat} {outcome : BlockLayer × Option Buffer}
    (same : SameMedia s.quiet t.quiet) (done : FaultyOutcome pending t device lba count outcome) :
    FaultyOutcome pending s device lba count outcome := by
  obtain ⟨inv, same', right⟩ := done
  refine ⟨inv, same.trans same', ?_⟩
  intro bytes result i below
  rw [right bytes result i below]
  have contents := congrFun same.content (device.cacheKey (lba + i))
  exact contents

theorem faultyLoop (spec : FaultyRaw pending device raw)
    (foreign : ∀ key ∈ pending, key.deviceId ≠ device.id) (lba count : Nat)
    (small : count * device.logicalBlockSize ≤ 2 ^ 32) :
    ∀ (remaining : Nat) (s : BlockLayer) (bytes : Buffer), remaining ≤ count →
      CacheInv pending s.quiet → Registered s device →
      (∀ i < count - remaining, bytes.block (i * device.logicalBlockSize) device.logicalBlockSize =
          content s (device.cacheKey (lba + i))) →
      FaultyOutcome pending s device lba count (readLoop raw device lba count remaining s bytes) := by
  intro remaining
  induction remaining with
  | zero =>
    intro s bytes _ inv registered done
    refine ⟨inv, SameMedia.refl _, ?_⟩
    intro result same
    cases same
    exact done
  | succ remaining ih =>
    intro s bytes within inv registered done
    rw [readLoop]
    dsimp only
    split
    · rename_i s' failed
      have unchanged := faultyFetch_none spec inv registered failed
      refine ⟨?_, ?_, by intro bytes none; cases none⟩
      · change CacheInv pending s'.quiet
        rwa [unchanged]
      · change SameMedia s.quiet s'.quiet
        rw [unchanged]
        exact SameMedia.refl _
    · rename_i s' data fetched
      obtain ⟨inv', same, right⟩ := faultyFetch_some spec foreign inv registered fetched
      have registered' : Registered s' device := same.registered registered
      rw [offset_no_wrap (by omega) small]
      -- The buffer holds one block more.
      have more : ∀ i < count - remaining,
          (bytes.put ((count - (remaining + 1)) * device.logicalBlockSize) data).block
            (i * device.logicalBlockSize) device.logicalBlockSize =
          content s (device.cacheKey (lba + i)) := by
        intro i below
        by_cases last : i = count - (remaining + 1)
        · subst last
          have size := content_length registered (lba + (count - (remaining + 1)))
          rw [← right] at size ⊢
          conv => lhs; rw [← size]
          exact Buffer.put_block _ _ data
        · rw [Buffer.put_block_before, done i (by omega)]
          calc i * device.logicalBlockSize + device.logicalBlockSize
              = (i + 1) * device.logicalBlockSize := (Nat.succ_mul i _).symm
            _ ≤ (count - (remaining + 1)) * device.logicalBlockSize :=
                Nat.mul_le_mul_right _ (by omega)
      have contents : ∀ {t : BlockLayer}, SameMedia s.quiet t.quiet →
          ∀ key, content t key = content s key := fun kept key => congrFun kept.content key
      split
      · obtain ⟨inv'', same'⟩ := @faultyAhead _ _ _ _ (lba + (count - (remaining + 1)) + 1) spec inv' registered'
        refine .from (same.trans same') (ih _ _ (by omega) inv'' (same'.registered registered') ?_)
        intro i below
        rw [more i below, contents (same.trans same')]
      · refine .from same (ih _ _ (by omega) inv' registered' ?_)
        intro i below
        rw [more i below, contents same]

end Loop

/-! ### Disks and partitions of disks -/

theorem driverRead_faulty {lba : Nat} {answer : Option (List UInt8)}
    (done : driverRead device lba s = (s', answer)) :
    s'.quiet = s.quiet ∧
      ∀ data, answer = some data → data = (s.media device.id lba).block 0 device.logicalBlockSize := by
  unfold driverRead BlockLayer.nextOutcome at done
  cases ahead : s.outcomes with
  | nil =>
    rw [ahead] at done
    cases done
    exact ⟨rfl, fun data same => (Option.some.inj same).symm⟩
  | cons outcome later =>
    rw [ahead] at done
    cases outcome with
    | succeeds =>
      cases done
      exact ⟨rfl, fun data same => (Option.some.inj same).symm⟩
    | failsAfter transferred =>
      cases done
      exact ⟨rfl, nofun⟩

theorem driverRetry_faulty {lba : Nat} : ∀ attempts {s s' : BlockLayer} {answer : Option (List UInt8)},
      readWithRetry (driverRead device lba) attempts s = (s', answer) → s'.quiet = s.quiet ∧
        ∀ data, answer = some data → data = (s.media device.id lba).block 0 device.logicalBlockSize := by
  intro attempts
  induction attempts with
  | zero =>
    intro s s' answer done
    cases done
    exact ⟨rfl, nofun⟩
  | succ attempts ih =>
    intro s s' answer done
    rw [readWithRetry] at done
    split at done
    · rename_i t data success
      cases done
      exact driverRead_faulty success
    · rename_i t failure
      obtain ⟨same, right⟩ := ih done
      have first := (driverRead_faulty failure).1
      refine ⟨same.trans first, ?_⟩
      rwa [quiet_media first] at right

theorem rawRead_faulty (isDisk : device.ops = .driver)
    {read : Device → Nat → Nat → BlockLayer → Buffer → BlockLayer × Option Buffer} {lba : Nat}
    {answer : Option (List UInt8)} (done : rawReadWithRetry read device lba s = (s', answer)) :
    s'.quiet = s.quiet ∧
      ∀ data, answer = some data → data = (s.media device.id lba).block 0 device.logicalBlockSize := by
  unfold rawReadWithRetry at done
  rw [isDisk] at done
  exact driverRetry_faulty _ done

theorem faultyRaw_disk (pending : Set CacheKey) {device : Device} (isDisk : device.ops = .driver)
    (read : Device → Nat → Nat → BlockLayer → Buffer → BlockLayer × Option Buffer) :
    FaultyRaw pending device (rawReadWithRetry read device) where
  delivers := by
    intro stale s s' lba data inv registered _ delivered
    obtain ⟨same, right⟩ := rawRead_faulty isDisk delivered
    refine ⟨?_, ?_, ?_, fun a _ => congrFun (quiet_entries same) a⟩
    · rwa [same]
    · rw [same]
      exact SameMedia.refl _
    · rw [right data rfl]
      exact (content_disk (s := s.quiet) inv.registry registered isDisk lba).symm
  idle := by
    intro stale s s' lba inv registered _ failed
    exact (rawRead_faulty isDisk failed).1

theorem faultyBlock_spares {disk : Device} (isDisk : disk.ops = .driver)
    {read : Device → Nat → Nat → BlockLayer → Buffer → BlockLayer × Option Buffer}
    {lba : Nat} {buffer : Buffer} {answer : Option Buffer}
    (done : readLoop (rawReadWithRetry read disk) disk lba 1 1 s buffer = (s', answer)) :
    (answer = none → s'.quiet = s.quiet) ∧ ∀ a, Spared s a 2 → s'.cacheEntries a = s.cacheEntries a := by
  rw [readLoop] at done
  dsimp only at done
  split at done
  · rename_i t failed
    cases done
    have idle : s'.quiet = s.quiet := by
      unfold fetchBlock at failed
      split at failed
      · cases failed
      · split at failed
        · rename_i t raw
          cases failed
          exact (rawRead_faulty isDisk raw).1
        · cases failed
    exact ⟨fun _ => idle, fun a _ => congrFun (quiet_entries idle) a⟩
  · rename_i t data fetched
    have kept : ∀ a, Spared s a 2 → t.cacheEntries a = s.cacheEntries a ∧ Spared t a 1 := by
      unfold fetchBlock at fetched
      split at fetched
      · cases fetched
        exact fun a spared => ⟨rfl, spared.weaken (by omega)⟩
      · rename_i missing
        split at fetched
        · cases fetched
        · rename_i u block raw
          cases fetched
          have same := (rawRead_faulty isDisk raw).1
          intro a spared
          have missing' : cacheFind u disk (lba + (1 - (0 + 1))) = none := by
            unfold cacheFind at missing ⊢
            rwa [quiet_entries same]
          obtain ⟨entry, spared'⟩ := cacheStore_spares missing' a 1 (spared_quiet same spared)
          exact ⟨entry.trans (congrFun (quiet_entries same) a), spared'⟩
    split at done
    · cases done
      refine ⟨nofun, fun a spared => ?_⟩
      obtain ⟨entry, spared'⟩ := kept a spared
      rw [← entry]
      unfold readAhead
      split
      · split
        · rename_i u refused
          rw [cacheAllocate_none refused]
        · rename_i u ahead allocated
          obtain ⟨other, entry', _⟩ := (cacheAllocate_spares allocated).2 a 0 spared'
          split
          · rename_i v block raw
            simp only [BlockLayer.setData, Function.update_of_ne other]
            rw [quiet_entries (rawRead_faulty isDisk raw).1, entry']
          · rename_i v raw
            simp only [BlockLayer.invalidate, Function.update_of_ne other]
            rw [quiet_entries (rawRead_faulty isDisk raw).1, entry']
      · rfl
    · cases done
      exact ⟨nofun, fun a spared => (kept a spared).1⟩

theorem faultyBlock {pending : Set CacheKey} (inv : CacheInv pending s.quiet)
    {disk : Device} (registered : Registered s disk) (isDisk : disk.ops = .driver)
    (size : disk.logicalBlockSize ≤ 2 ^ 32)
    (foreign : ∀ key ∈ pending, key.deviceId ≠ disk.id) {depth lba : Nat} {buffer : Buffer}
    {answer : Option Buffer}
    (done : blockDeviceRead depth disk lba 1 s buffer = (s', answer)) :
    (answer = none → s'.quiet = s.quiet) ∧
      ∀ bytes, answer = some bytes → CacheInv pending s'.quiet ∧ SameMedia s.quiet s'.quiet ∧
        bytes.block 0 disk.logicalBlockSize = content s (disk.cacheKey lba) ∧
        ∀ a, Spared s a 2 → s'.cacheEntries a = s.cacheEntries a := by
  cases depth with
  | zero =>
    cases done
    exact ⟨fun _ => rfl, nofun⟩
  | succ depth =>
    rw [blockDeviceRead] at done
    split at done
    · obtain ⟨idle, spared⟩ := faultyBlock_spares isDisk done
      refine ⟨idle, ?_⟩
      rintro bytes rfl
      have outcome := faultyLoop (faultyRaw_disk pending isDisk (blockDeviceRead depth)) foreign lba 1
        (by omega) 1 s buffer (Nat.le_refl 1) inv registered (by omega)
      rw [done] at outcome
      obtain ⟨inv', same, right⟩ := outcome
      have block := right bytes rfl 0 (by omega)
      rw [Nat.zero_mul, Nat.add_zero] at block
      exact ⟨inv', same, block, spared⟩
    · cases done
      exact ⟨fun _ => rfl, nofun⟩

theorem faultyTry {stale : Set CacheKey} (inv : CacheInv stale s.quiet)
    {device : Device} (registered : Registered s device) (isPartition : device.ops = .partition)
    (size : device.logicalBlockSize ≤ 2 ^ 32) (own : ∀ key ∈ stale, key.deviceId = device.id)
    {depth lba : Nat} {answer : Option (List UInt8)}
    (done : partitionRead (blockDeviceRead depth) device lba s = (s', answer)) :
    (answer = none → s'.quiet = s.quiet) ∧
      ∀ data, answer = some data → CacheInv stale s'.quiet ∧ SameMedia s.quiet s'.quiet ∧
        data = content s (device.cacheKey lba) ∧
        ∀ a, Spared s a 2 → s'.cacheEntries a = s.cacheEntries a := by
  obtain ⟨parent, named, at_parent, registeredParent, isDisk, sizes, other⟩ :=
    parent_registered inv registered isPartition
  have at_parent' : device.parent.bind (s.devices[·]?) = some parent := at_parent
  have foreign : ∀ key ∈ stale, key.deviceId ≠ parent.id := by
    intro key member
    rw [own key member]
    exact other.symm
  simp only [partitionRead, at_parent'] at done
  split at done
  · cases done
    exact ⟨fun _ => rfl, nofun⟩
  · split at done
    · rename_i t failed
      cases done
      exact ⟨fun _ => (faultyBlock inv registeredParent isDisk (by omega) foreign failed).1 rfl, nofun⟩
    · rename_i t bytes delivered
      cases done
      refine ⟨nofun, ?_⟩
      intro data result
      cases result
      obtain ⟨inv', same, block, spared⟩ :=
        (faultyBlock inv registeredParent isDisk (by omega) foreign delivered).2 bytes rfl
      have shown := content_partition (s := s.quiet) inv.registry registered named registeredParent isDisk
        sizes lba
      refine ⟨inv', same, ?_, spared⟩
      rw [← sizes, block]
      exact shown.symm

theorem faultyRaw_partition (isPartition : device.ops = .partition)
    (size : device.logicalBlockSize ≤ 2 ^ 32) (depth : Nat) :
    FaultyRaw ∅ device (rawReadWithRetry (blockDeviceRead depth) device) := by
  have tries : ∀ attempts {stale : Set CacheKey} {s s' : BlockLayer} {lba : Nat}
      {answer : Option (List UInt8)}, CacheInv stale s.quiet → Registered s device →
      readWithRetry (partitionRead (blockDeviceRead depth) device lba) attempts s = (s', answer) →
      (∀ key ∈ stale, key.deviceId = device.id) →
      (answer = none → s'.quiet = s.quiet) ∧
        ∀ data, answer = some data → CacheInv stale s'.quiet ∧ SameMedia s.quiet s'.quiet ∧
          data = content s (device.cacheKey lba) ∧
          ∀ a, Spared s a 2 → s'.cacheEntries a = s.cacheEntries a := by
    intro attempts
    induction attempts with
    | zero =>
      intro stale s s' lba answer _ _ done _
      cases done
      exact ⟨fun _ => rfl, nofun⟩
    | succ attempts ih =>
      intro stale s s' lba answer inv registered done own
      rw [readWithRetry] at done
      split at done
      · rename_i t data success
        cases done
        exact faultyTry inv registered isPartition size own success
      · rename_i t failure
        have same := (faultyTry inv registered isPartition size own failure).1 rfl
        have registered' : Registered t device := by
          unfold Registered
          rw [quiet_devices same]
          exact registered
        obtain ⟨idle, right⟩ := ih (by rwa [same]) registered' done own
        refine ⟨fun failed => (idle failed).trans same, ?_⟩
        intro data delivered
        obtain ⟨inv', kept, block, spared⟩ := right data delivered
        rw [same] at kept
        have contents : content t.quiet = content s.quiet := by rw [same]
        refine ⟨inv', kept, block.trans (congrFun contents _), fun a room => ?_⟩
        rw [spared a (spared_quiet same room), quiet_entries same]
  have kind : ∀ lba s, rawReadWithRetry (blockDeviceRead depth) device lba s =
      readWithRetry (partitionRead (blockDeviceRead depth) device lba) (retryBudget device + 1) s := by
    intro lba s
    simp only [rawReadWithRetry, isPartition]
  constructor
  · intro stale s s' lba data inv registered own delivered
    rw [kind] at delivered
    exact (tries _ inv registered delivered fun key member =>
      (own key member).resolve_left (Set.notMem_empty key)).2 data rfl
  · intro stale s s' lba inv registered own failed
    rw [kind] at failed
    exact (tries _ inv registered failed fun key member =>
      (own key member).resolve_left (Set.notMem_empty key)).1 rfl

theorem blockDeviceRead_faulty {s : BlockLayer} (inv : CacheInv ∅ s.quiet) {device : Device}
    (registered : Registered s device) (depth lba count : Nat) (buffer : Buffer)
    (small : count * device.logicalBlockSize ≤ 2 ^ 32) :
    FaultyOutcome ∅ s device lba count (blockDeviceRead depth device lba count s buffer) := by
  have refused : FaultyOutcome ∅ s device lba count (s, none) := ⟨inv, SameMedia.refl _, nofun⟩
  cases depth with
  | zero => exact refused
  | succ depth =>
    rw [blockDeviceRead]
    split
    · have spec : FaultyRaw ∅ device (rawReadWithRetry (blockDeviceRead depth) device) := by
        cases kind : device.ops with
        | driver => exact faultyRaw_disk ∅ kind _
        | partition =>
          have size := inv.registry.sizes _ _ registered
          exact faultyRaw_partition kind (by omega) depth
      exact faultyLoop spec (by simp) lba count small count s buffer (Nat.le_refl _) inv registered
        (by omega)
    · exact refused

/-! ### A driver that does not fail -/

/-- The operation leaves a driver that does not fail as it is. -/
def LeavesClear {α : Type} (read : BlockLayer → BlockLayer × α) : Prop :=
  ∀ s, s.outcomes = [] → (read s).1.outcomes = []

section Clear

variable {lba count : Nat}

theorem readWithRetry_clear {read : BlockLayer → BlockLayer × Option (List UInt8)}
    (clear : LeavesClear read)
    (attempts : Nat) : LeavesClear (readWithRetry read attempts) := by
  induction attempts with
  | zero => exact fun s none => none
  | succ attempts ih =>
    intro s none
    have first := clear s none
    rw [readWithRetry]
    generalize read s = outcome at first ⊢
    obtain ⟨t, _ | data⟩ := outcome
    · exact ih t first
    · exact first

theorem driverRead_clear : LeavesClear (driverRead device lba) := by
  intro s none
  simp [driverRead, BlockLayer.nextOutcome, none]

variable {raw : Nat → BlockLayer → BlockLayer × Option (List UInt8)} (clear : ∀ lba, LeavesClear (raw lba))

include clear

theorem fetchBlock_clear : LeavesClear (fetchBlock raw device lba) := by
  intro s none
  have read := clear lba s none
  unfold fetchBlock
  split
  · exact none
  · generalize raw lba s = outcome at read ⊢
    obtain ⟨t, _ | data⟩ := outcome
    · exact read
    · exact (cacheStore_same t device lba data).outcomes.trans read

theorem readAhead_clear (none : s.outcomes = []) : (readAhead raw device lba s).outcomes = [] := by
  have same := cacheAllocate_same s device lba
  unfold readAhead
  split
  · generalize cacheAllocate s device lba = outcome at same ⊢
    obtain ⟨t, _ | ahead⟩ := outcome
    · exact same.outcomes.trans none
    · have read := clear lba t (same.outcomes.trans none)
      dsimp only
      generalize raw lba t = outcome at read ⊢
      obtain ⟨u, _ | data⟩ := outcome
      · exact read
      · exact read
  · exact none

theorem readLoop_clear (remaining : Nat) (bytes : Buffer) :
    LeavesClear fun s => readLoop raw device lba count remaining s bytes := by
  induction remaining generalizing bytes with
  | zero => exact fun s none => none
  | succ remaining ih =>
    intro s none
    have fetched := @fetchBlock_clear device (lba + (count - (remaining + 1))) raw clear s none
    dsimp only
    rw [readLoop]
    dsimp only
    generalize fetchBlock raw device (lba + (count - (remaining + 1))) s = outcome at fetched ⊢
    obtain ⟨t, _ | data⟩ := outcome
    · exact fetched
    · dsimp only
      split
      · exact ih _ _ (readAhead_clear clear fetched)
      · exact ih _ t fetched

end Clear

theorem blockDeviceRead_clear (depth : Nat) {device : Device} {lba count : Nat} (buffer : Buffer) :
    LeavesClear fun s => blockDeviceRead depth device lba count s buffer := by
  induction depth generalizing device lba count buffer with
  | zero => exact fun s none => none
  | succ depth ih =>
    have partition {lba : Nat} : LeavesClear (partitionRead (blockDeviceRead depth) device lba) := by
      intro s none
      unfold partitionRead
      split
      · exact none
      · rename_i parent _
        split
        · exact none
        · have read := @ih parent (device.startLba + lba) 1 (fun _ => 0) s none
          dsimp only at read
          generalize blockDeviceRead depth parent (device.startLba + lba) 1 s (fun _ => 0) = outcome at read ⊢
          obtain ⟨t, _ | bytes⟩ := outcome
          · exact read
          · exact read
    intro s none
    dsimp only
    rw [blockDeviceRead]
    split
    · refine readLoop_clear (fun lba => ?_) count buffer s none
      unfold rawReadWithRetry
      cases device.ops with
      | driver => exact readWithRetry_clear driverRead_clear _
      | partition => exact readWithRetry_clear partition _
    · exact none

/-- The outcome of a read on a cache that is coherent up to `pending`. -/
def ReadOutcome (pending : Set CacheKey) (s : BlockLayer) (device : Device) (lba count : Nat)
    (outcome : BlockLayer × Option Buffer) : Prop :=
  CacheInv pending outcome.1 ∧ SameMedia s outcome.1 ∧ ∀ bytes, outcome.2 = some bytes → ∀ i < count,
      bytes.block (i * device.logicalBlockSize) device.logicalBlockSize =
        content s (device.cacheKey (lba + i))

theorem quiet_of_clear (none : s.outcomes = []) : s.quiet = s := by
  unfold BlockLayer.quiet
  rw [← none]

theorem blockDeviceRead_spec (inv : CacheInv ∅ s) (registered : Registered s device)
    (depth lba count : Nat)
    (buffer : Buffer) (small : count * device.logicalBlockSize ≤ 2 ^ 32) :
    ReadOutcome ∅ s device lba count (blockDeviceRead depth device lba count s buffer) := by
  have before := quiet_of_clear inv.faultless
  have after := quiet_of_clear (@blockDeviceRead_clear depth device lba count buffer s inv.faultless)
  obtain ⟨inv', same, right⟩ := blockDeviceRead_faulty (before.symm ▸ inv) registered depth lba count buffer small
  rw [after] at inv' same
  rw [before] at same
  exact ⟨inv', same, right⟩

/-! ### Writing -/

/-- The labels under which a device caches a range of blocks. -/
def rangeKeys (device : Device) (lba count : Nat) : Set CacheKey :=
  {key | ∃ i < count, key = device.cacheKey (lba + i)}

theorem storeLoop_spec {lba : Nat} {bytes : Buffer} (count : Nat) :
    ∀ {stale : Set CacheKey} {s : BlockLayer}, CacheInv stale s → Registered s device →
    (∀ i < count, bytes.block (i * device.logicalBlockSize % 2 ^ 32) device.logicalBlockSize =
      content s (device.cacheKey (lba + i))) →
    CacheInv (stale \ rangeKeys device lba count) (storeLoop device lba bytes count s) ∧
      SameMedia s (storeLoop device lba bytes count s) := by
  induction count with
  | zero =>
    intro stale s inv _ _
    simp only [storeLoop, List.range_zero, List.foldl_nil]
    refine ⟨inv.mono ?_, SameMedia.refl s⟩
    intro key member
    exact ⟨member, by rintro ⟨i, below, _⟩; omega⟩
  | succ count ih =>
    intro stale s inv registered right
    obtain ⟨inv', same⟩ := ih inv registered fun i below => right i (by omega)
    have step : storeLoop device lba bytes (count + 1) s =
        cacheStore (storeLoop device lba bytes count s) device (lba + count)
          (bytes.block (count * device.logicalBlockSize % 2 ^ 32) device.logicalBlockSize) := by
      simp [storeLoop, List.range_succ]
    rw [step]
    refine ⟨?_, same.trans (cacheStore_same _ _ _ _)⟩
    have stored : CacheInv _ (cacheStore (storeLoop device lba bytes count s) device (lba + count)
        (bytes.block (count * device.logicalBlockSize % 2 ^ 32) device.logicalBlockSize)) :=
      cacheStore_inv inv' (same.registered registered)
        (by rw [same.content]; exact right count (by omega))
    apply stored.mono
    rintro key ⟨⟨member, earlier⟩, other⟩
    refine ⟨member, ?_⟩
    rintro ⟨i, below, rfl⟩
    rcases Nat.lt_succ_iff_lt_or_eq.mp below with before | last
    · exact earlier ⟨i, before, rfl⟩
    · subst last
      exact other rfl

theorem storeLoop_uncached (uncached : device.hasFlag BLOCK_DEVICE_FLAG_NO_CACHE = true)
    (lba : Nat) (bytes : Buffer)
    (count : Nat) (s : BlockLayer) : storeLoop device lba bytes count s = s := by
  induction count with
  | zero => rfl
  | succ count ih =>
    unfold storeLoop at ih ⊢
    rw [List.range_succ, List.foldl_append, ih]
    simp [cacheStore, cacheFind, cacheAllocate, uncached]

variable {buffer : Buffer}

theorem store_media_other {disk size lba count : Nat} {block : Nat × Nat}
    (outside : ∀ i < count, block ≠ (disk, lba + i)) :
    (s.store disk size lba count buffer).media block.1 block.2 = s.media block.1 block.2 := by
  obtain ⟨d, l⟩ := block
  simp only [BlockLayer.store]
  by_cases same : d = disk
  · subst same
    rw [Function.update_self, transfer, if_neg]
    rintro ⟨low, high⟩
    exact outside (l - lba) (by omega) (by rw [Nat.add_sub_cancel' low])
  · rw [Function.update_of_ne same]

theorem store_media_inside {disk size lba count i : Nat} (below : i < count) (bytes : Nat) :
    ((s.store disk size lba count buffer).media disk (lba + i)).block 0 bytes =
      buffer.block (i * size) bytes := by
  apply Buffer.block_congr
  intro j _
  simp only [BlockLayer.store, Function.update_self, transfer]
  rw [if_pos ⟨by omega, by omega⟩, Nat.add_sub_cancel_left, Nat.zero_add]

theorem content_store_other {disk size lba count : Nat} {key : CacheKey}
    (at_id : s.devices[key.deviceId]? = some device)
    (outside : ∀ i < count, physical device key.lba ≠ (disk, lba + i)) :
    content (s.store disk size lba count buffer) key = content s key := by
  have media : (s.store disk size lba count buffer).media _ _ = _ := store_media_other outside
  have devices : (s.store disk size lba count buffer).devices = s.devices := rfl
  simp only [content, devices, at_id, media]

theorem content_store_disk (registry : Registry s.devices) {disk : Device}
    (registered : Registered s disk) (isDisk : disk.ops = .driver) {lba count i : Nat}
    {buffer : Buffer} (below : i < count) :
    content (s.store disk.id disk.logicalBlockSize lba count buffer) (disk.cacheKey (lba + i)) =
      buffer.block (i * disk.logicalBlockSize) disk.logicalBlockSize := by
  rw [content_disk (s := s.store _ _ _ _ _) registry registered isDisk]
  exact store_media_inside below _

/-- The entries of other devices that cache one of the blocks about to be written. -/
def ForeignIn (foreign : Set CacheKey) (s : BlockLayer) (disk lba count : Nat) : Prop :=
  ∀ slot, (s.cacheEntries slot).valid = true →
    ∀ device : Device, s.devices[(s.cacheEntries slot).key.deviceId]? = some device → device.id ≠ disk →
      (∃ i < count, physical device (s.cacheEntries slot).key.lba = (disk, lba + i)) →
      (s.cacheEntries slot).key ∈ foreign

/-- What a request leaves behind when it writes `count` blocks of a disk. -/
structure Written (stale : Set CacheKey) (s s' : BlockLayer) (disk : Device) (lba count : Nat)
    (buffer : Buffer) : Prop where
  inv : CacheInv stale s'
  devices : s'.devices = s.devices
  media : s'.media = (s.store disk.id disk.logicalBlockSize lba count buffer).media

theorem driverWrite_eq (faultless : s.outcomes = []) (disk : Device)
    (lba count : Nat) (buffer : Buffer) : driverWrite disk lba count buffer s =
      (s.store disk.id disk.logicalBlockSize lba count buffer, true) := by
  simp [driverWrite, BlockLayer.nextOutcome, faultless]

theorem rawWrite_disk (faultless : s.outcomes = []) {disk : Device} (isDisk : disk.ops = .driver)
    (write : Device → Nat → Nat → Buffer → BlockLayer → BlockLayer × Bool)
    (lba count : Nat) (buffer : Buffer) : rawWriteWithRetry write disk lba count buffer s =
      (s.store disk.id disk.logicalBlockSize lba count buffer, true) := by
  simp only [rawWriteWithRetry, isDisk]
  rw [writeWithRetry_eq, driverWrite_eq faultless]
  intro s' failed
  rw [driverWrite_eq faultless] at failed
  cases failed

theorem store_inv (inv : CacheInv ∅ s) {disk : Device}
    (registered : Registered s disk) (isDisk : disk.ops = .driver) {lba count : Nat}
    {foreign : Set CacheKey} (others : ForeignIn foreign s disk.id lba count) (buffer : Buffer) :
    CacheInv (foreign ∪ rangeKeys disk lba count)
      (s.store disk.id disk.logicalBlockSize lba count buffer) where
  registry := inv.registry
  faultless := inv.faultless
  unique := inv.unique
  labelled := inv.labelled
  coherent := by
    apply inv.coherent.change
    intro slot valid fresh
    refine ⟨Set.notMem_empty _, ?_⟩
    obtain ⟨device, at_id, size, _⟩ := inv.labelled slot valid
    apply content_store_other at_id
    intro i below same
    apply fresh
    by_cases own : device.id = disk.id
    · right
      have id := inv.registry.ids _ _ at_id
      unfold Registered at registered
      rw [← id, own, registered] at at_id
      cases at_id
      rw [physical, inv.registry.disks _ _ registered isDisk] at same
      refine ⟨i, below, ?_⟩
      have lbas : (s.cacheEntries slot).key.lba = lba + i := (Prod.ext_iff.mp same).2
      rw [Device.cacheKey, ← lbas, ← size, id]
    · exact Or.inl (others slot valid device at_id own ⟨i, below, same⟩)

/-- A device either caches nothing, or writes requests of at most 4 GiB. -/
def NoWrap (device : Device) (count : Nat) : Prop :=
  device.hasFlag BLOCK_DEVICE_FLAG_NO_CACHE = true ∨ count * device.logicalBlockSize ≤ 2 ^ 32

theorem refresh_inv {lba count : Nat} (inv : CacheInv (stale ∪ rangeKeys device lba count) s)
    (registered : Registered s device) (noWrap : NoWrap device count)
    (right : ∀ i < count, content s (device.cacheKey (lba + i)) =
      buffer.block (i * device.logicalBlockSize) device.logicalBlockSize) :
    CacheInv stale (storeLoop device lba buffer count s) ∧
      SameMedia s (storeLoop device lba buffer count s) := by
  by_cases cached : device.hasFlag BLOCK_DEVICE_FLAG_NO_CACHE = true
  · rw [storeLoop_uncached cached]
    refine ⟨{ inv with coherent := inv.coherent.mono ?_ }, SameMedia.refl s⟩
    rintro slot valid (member | ⟨i, _, label⟩)
    · exact member
    · obtain ⟨d, at_id, _, d_cached⟩ := inv.labelled slot valid
      unfold Registered at registered
      rw [label, show (device.cacheKey (lba + i)).deviceId = device.id from rfl, registered] at at_id
      cases at_id
      simp [cached] at d_cached
  · have small := noWrap.resolve_left cached
    obtain ⟨inv', same⟩ := storeLoop_spec count inv registered (fun i below => by
      rw [offset_no_wrap below small]
      exact (right i below).symm)
    refine ⟨inv'.mono ?_, same⟩
    rintro key ⟨member | member, outside⟩
    · exact member
    · exact absurd member outside

theorem diskWrite_spec {s s' : BlockLayer} (inv : CacheInv ∅ s) {disk : Device}
    (registered : Registered s disk) (isDisk : disk.ops = .driver) {depth lba count : Nat}
    {buffer : Buffer} {ok : Bool} (noWrap : NoWrap disk count) {foreign : Set CacheKey}
    (others : ForeignIn foreign s disk.id lba count)
    (done : blockDeviceWrite depth disk lba count buffer s = (s', ok)) :
    if ok then Written foreign s s' disk lba count buffer else s' = s := by
  cases depth with
  | zero =>
    cases done
    simp
  | succ depth =>
    rw [blockDeviceWrite, rawWrite_disk inv.faultless isDisk] at done
    dsimp only at done
    split at done
    · cases done
      have stored := store_inv inv registered isDisk others buffer
      obtain ⟨inv', same⟩ := refresh_inv stored registered noWrap
        (fun i below => content_store_disk inv.registry registered isDisk below)
      exact ⟨inv', same.devices, same.media⟩
    · cases done
      simp

/-- No entry outside the parent chain of the device caches a block of the request. -/
def ForeignFree (s : BlockLayer) (device : Device) (lba count : Nat) : Prop :=
  ∀ slot, (s.cacheEntries slot).valid = true →
    ∀ other : Device, s.devices[(s.cacheEntries slot).key.deviceId]? = some other →
      other.id ≠ device.id → device.parent ≠ some other.id →
      ∀ i < count, physical other (s.cacheEntries slot).key.lba ≠ physical device (lba + i)

theorem physical_add (device : Device) (lba i : Nat) :
    physical device (lba + i) = ((physical device lba).1, (physical device lba).2 + i) := by
  unfold physical
  cases device.parent with
  | none => rfl
  | some parent => simp [Nat.add_assoc]

theorem rawWrite_partition (inv : CacheInv ∅ s) {device parent : Device}
    (isPartition : device.ops = .partition)
    (at_parent : device.parent.bind (s.devices[·]?) = some parent)
    (registeredParent : Registered s parent) (isDisk : parent.ops = .driver)
    {depth lba count : Nat} {buffer : Buffer} (noWrap : NoWrap parent count)
    {foreign : Set CacheKey}
    (others : ForeignIn foreign s parent.id (device.startLba + lba) count) {s' : BlockLayer}
    {ok : Bool}
    (done : rawWriteWithRetry (blockDeviceWrite depth) device lba count buffer s = (s', ok)) :
    if ok then Written foreign s s' parent (device.startLba + lba) count buffer else s' = s := by
  have once : ∀ t b, partitionWrite (blockDeviceWrite depth) device lba count buffer s = (t, b) →
      if b then Written foreign s t parent (device.startLba + lba) count buffer else t = s := by
    intro t b call
    simp only [partitionWrite, at_parent] at call
    split at call
    · cases call
      simp
    · exact diskWrite_spec inv registeredParent isDisk noWrap others call
  simp only [rawWriteWithRetry, isPartition] at done
  rw [writeWithRetry_eq (fun t failed => by simpa using once t false failed)] at done
  exact once s' ok done

theorem blockDeviceWrite_spec {s s' : BlockLayer} (inv : CacheInv ∅ s) {device : Device}
    (registered : Registered s device) {depth lba count : Nat} {buffer : Buffer} {ok : Bool}
    (noWrap : NoWrap device count)
    (noWrapParent : ∀ parent, device.parent.bind (s.devices[·]?) = some parent → NoWrap parent count)
    (foreignFree : ForeignFree s device lba count)
    (done : blockDeviceWrite depth device lba count buffer s = (s', ok)) :
    if ok then CacheInv ∅ s' ∧ s'.devices = s.devices ∧
      s'.media = (s.store (physical device lba).1 device.logicalBlockSize (physical device lba).2
        count buffer).media
    else s' = s := by
  cases kind : device.ops with
  | driver =>
    have root := inv.registry.disks _ _ registered kind
    have others : ForeignIn ∅ s device.id lba count := by
      rintro slot valid other at_id different ⟨i, below, same⟩
      refine absurd ?_ (foreignFree slot valid other at_id different (by simp [root]) i below)
      rw [same, physical, root]
    have spec := diskWrite_spec inv registered kind noWrap others done
    cases ok with
    | false => exact spec
    | true =>
      have written : Written ∅ s s' device lba count buffer := spec
      simp only [physical, root]
      exact ⟨written.inv, written.devices, written.media⟩
  | partition =>
    obtain ⟨parent, named, at_parent, registeredParent, isDisk, sizes, _⟩ :=
      parent_registered inv registered kind
    have others : ForeignIn (rangeKeys device lba count) s parent.id (device.startLba + lba)
        count := by
      rintro slot valid other at_id different ⟨i, below, same⟩
      have block : physical device (lba + i) = (parent.id, device.startLba + lba + i) := by
        simp [physical, named, Nat.add_assoc]
      by_cases own : other.id = device.id
      · have id := inv.registry.ids _ _ at_id
        unfold Registered at registered
        rw [← id, own, registered] at at_id
        cases at_id
        obtain ⟨d, at_id, size, _⟩ := inv.labelled slot valid
        rw [← id, registered] at at_id
        cases at_id
        refine ⟨i, below, ?_⟩
        rw [physical, named] at same
        have lbas := (Prod.ext_iff.mp same).2
        dsimp only at lbas
        have lba_eq : (s.cacheEntries slot).key.lba = lba + i := by omega
        rw [Device.cacheKey, ← lba_eq, ← size, id]
      · refine absurd ?_ (foreignFree slot valid other at_id own ?_ i below)
        · rw [same, block]
        · rw [named]
          intro equal
          exact different (Option.some.inj equal).symm
    cases depth with
    | zero =>
      cases done
      simp
    | succ depth =>
      rw [blockDeviceWrite] at done
      split at done
      · split at done
        · rename_i t failed
          cases done
          simpa using rawWrite_partition inv kind at_parent registeredParent isDisk
            (noWrapParent parent at_parent) others failed
        · rename_i t success
          cases done
          have written : Written _ s t parent (device.startLba + lba) count buffer :=
            rawWrite_partition inv kind at_parent registeredParent isDisk
              (noWrapParent parent at_parent) others success
          have inv' : CacheInv (∅ ∪ rangeKeys device lba count) t := by
            rw [Set.empty_union]
            exact written.inv
          have registered' : Registered t device := by
            unfold Registered
            rw [written.devices]
            exact registered
          have registeredParent' : Registered t parent := by
            unfold Registered
            rw [written.devices]
            exact registeredParent
          have right : ∀ i < count, content t (device.cacheKey (lba + i)) =
              buffer.block (i * device.logicalBlockSize) device.logicalBlockSize := by
            intro i below
            rw [content_partition inv'.registry registered' named registeredParent' isDisk sizes,
              ← Nat.add_assoc, content_disk inv'.registry registeredParent' isDisk, written.media,
              ← sizes]
            exact store_media_inside below _
          obtain ⟨done, same⟩ := refresh_inv inv' registered' noWrap right
          refine ⟨done, same.devices.trans written.devices, ?_⟩
          rw [same.media, written.media]
          simp [physical, named, sizes]
      · cases done
        simp

end AsasOs.Block
