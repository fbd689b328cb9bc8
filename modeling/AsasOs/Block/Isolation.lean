import AsasOs.Block.CacheRuns

/-!
# Isolation of partitions

A call through a partition is translated to its parent disk, cached on both levels, read
ahead and repeated after failures. Whatever the drivers do, a write changes no block of the
disk outside the window of the partition, a read changes none at all, and what a read
returns does not depend on any block outside the window, on the disk or in the cache.
-/
namespace AsasOs.Block

open Slots

/-! ### Reachable layers -/

/-- The layers that calls lead to, with any outcomes of the drivers in each call. -/
inductive Reached : BlockLayer → Prop
  | start (media : Nat → Nat → Buffer) : Reached (blockDeviceInitialize media)
  | call {s : BlockLayer} (reached : Reached s) (outcomes : List DriverOutcome) (call : Call) :
      Reached (step ⟨{ s with outcomes := outcomes }, []⟩ call).layer

/-- What the registrations see to. -/
structure Sound (devices : List Device) : Prop where
  registry : Registry devices
  nonempty : ∀ (i : Nat) (d : Device), devices[i]? = some d → d.ops = .partition → d.blockCount ≠ 0

/-- The blocks of the parent disk that a partition covers. -/
def Device.window (device : Device) (block : Nat × Nat) : Prop :=
  device.parent = some block.1 ∧ device.startLba ≤ block.2 ∧ block.2 < device.startLba + device.blockCount

/-! ### Reads leave the media alone -/

/-- The registry and the media are as they were. -/
structure Intact (s s' : BlockLayer) : Prop where
  devices : s'.devices = s.devices
  media : s'.media = s.media

namespace Intact

theorem refl (s : BlockLayer) : Intact s s := ⟨rfl, rfl⟩

theorem trans {s t u : BlockLayer} (first : Intact s t) (second : Intact t u) : Intact s u :=
  ⟨second.devices.trans first.devices, second.media.trans first.media⟩

end Intact

theorem SameMedia.intact {s s' : BlockLayer} (same : SameMedia s s') : Intact s s' :=
  ⟨same.devices, same.media⟩

theorem readWithRetry_intact {read : BlockLayer → BlockLayer × Option (List UInt8)}
    (once : ∀ s, Intact s (read s).1) :
    ∀ (attempts : Nat) (s : BlockLayer), Intact s (readWithRetry read attempts s).1 := by
  intro attempts
  induction attempts with
  | zero => exact Intact.refl
  | succ attempts ih =>
    intro s
    have first := once s
    rw [readWithRetry]
    split
    · rename_i s' data delivered
      rw [delivered] at first
      exact first
    · rename_i s' failed
      rw [failed] at first
      exact first.trans (ih s')

theorem nextOutcome_intact (s : BlockLayer) : Intact s s.nextOutcome.1 := by
  unfold BlockLayer.nextOutcome
  split <;> exact ⟨rfl, rfl⟩

theorem driverRead_intact (device : Device) (lba : Nat) (s : BlockLayer) :
    Intact s (driverRead device lba s).1 := by
  have next := nextOutcome_intact s
  unfold driverRead
  split
  · rename_i s' outcome
    rw [outcome] at next
    exact next
  · rename_i s' transferred outcome
    rw [outcome] at next
    exact next

section ReadLoop

variable {raw : Nat → BlockLayer → BlockLayer × Option (List UInt8)} {device : Device}

theorem fetchBlock_intact (once : ∀ lba s, Intact s (raw lba s).1) (lba : Nat) (s : BlockLayer) :
    Intact s (fetchBlock raw device lba s).1 := by
  have first := once lba s
  unfold fetchBlock
  split
  · exact Intact.refl s
  · split
    · rename_i s' failed
      rw [failed] at first
      exact first
    · rename_i s' data delivered
      rw [delivered] at first
      exact first.trans (cacheStore_same s' device lba data).intact

theorem readAhead_intact (once : ∀ lba s, Intact s (raw lba s).1) (lba : Nat) (s : BlockLayer) :
    Intact s (readAhead raw device lba s) := by
  have allocated := (cacheAllocate_same s device lba).intact
  unfold readAhead
  split
  · split
    · rename_i s' refused
      rw [refused] at allocated
      exact allocated
    · rename_i s' ahead taken
      rw [taken] at allocated
      have first := once lba s'
      split
      · rename_i t data delivered
        rw [delivered] at first
        exact (allocated.trans first).trans (setData_same t ahead data).intact
      · rename_i t failed
        rw [failed] at first
        exact (allocated.trans first).trans ⟨rfl, rfl⟩
  · exact Intact.refl s

theorem readLoop_intact (once : ∀ lba s, Intact s (raw lba s).1) (lba count : Nat) :
    ∀ (remaining : Nat) (s : BlockLayer) (bytes : Buffer),
      Intact s (readLoop raw device lba count remaining s bytes).1 := by
  intro remaining
  induction remaining with
  | zero => exact fun s _ => Intact.refl s
  | succ remaining ih =>
    intro s bytes
    have first : Intact s (fetchBlock raw device (lba + (count - (remaining + 1))) s).1 :=
      fetchBlock_intact once _ s
    rw [readLoop]
    dsimp only
    split
    · rename_i s' failed
      rw [failed] at first
      exact first
    · rename_i s' data fetched
      rw [fetched] at first
      split
      · exact (first.trans (readAhead_intact once _ s')).trans (ih _ _)
      · exact first.trans (ih _ _)

end ReadLoop

theorem partitionRead_intact
    {read : Device → Nat → Nat → BlockLayer → Buffer → BlockLayer × Option Buffer}
    (below : ∀ parent lba s, Intact s (read parent lba 1 s fun _ => 0).1) (device : Device)
    (lba : Nat) (s : BlockLayer) : Intact s (partitionRead read device lba s).1 := by
  unfold partitionRead
  split
  · exact Intact.refl s
  · rename_i parent named
    split
    · exact Intact.refl s
    · have first := below parent (device.startLba + lba) s
      split
      · rename_i s' failed
        rw [failed] at first
        exact first
      · rename_i s' bytes delivered
        rw [delivered] at first
        exact first

theorem blockDeviceRead_intact :
    ∀ (depth : Nat) (device : Device) (lba count : Nat) (s : BlockLayer) (buffer : Buffer),
      Intact s (blockDeviceRead depth device lba count s buffer).1 := by
  intro depth
  induction depth with
  | zero => exact fun _ _ _ s _ => Intact.refl s
  | succ depth ih =>
    intro device lba count s buffer
    rw [blockDeviceRead]
    split
    · apply readLoop_intact
      intro lba s
      unfold rawReadWithRetry
      split
      · exact readWithRetry_intact (driverRead_intact device lba) _ s
      · exact readWithRetry_intact
          (partitionRead_intact (fun parent lba s => ih parent lba 1 s _) device lba) _ s
    · exact Intact.refl s

/-! ### Writes keep to their blocks -/

/-- Nothing but some blocks of the media has changed. -/
structure WroteOnly (blocks : Nat × Nat → Prop) (s s' : BlockLayer) : Prop where
  devices : s'.devices = s.devices
  media : ∀ block, ¬blocks block → s'.media block.1 block.2 = s.media block.1 block.2

namespace WroteOnly

variable {blocks : Nat × Nat → Prop} {s t u : BlockLayer}

theorem refl (blocks : Nat × Nat → Prop) (s : BlockLayer) : WroteOnly blocks s s :=
  ⟨rfl, fun _ _ => rfl⟩

theorem trans (first : WroteOnly blocks s t) (second : WroteOnly blocks t u) : WroteOnly blocks s u :=
  ⟨second.devices.trans first.devices, fun block outside =>
    (second.media block outside).trans (first.media block outside)⟩

theorem of_intact (intact : Intact s t) : WroteOnly blocks s t := by
  constructor
  · exact intact.devices
  · intro block _
    rw [intact.media]

end WroteOnly

def requestBlocks (device : Device) (lba count : Nat) (block : Nat × Nat) : Prop :=
  ∃ i < count, block = physical device (lba + i)

theorem writeWithRetry_wroteOnly {blocks : Nat × Nat → Prop} {devices : List Device}
    {write : BlockLayer → BlockLayer × Bool}
    (once : ∀ s, s.devices = devices → WroteOnly blocks s (write s).1) :
    ∀ (attempts : Nat) (s : BlockLayer), s.devices = devices →
      WroteOnly blocks s (writeWithRetry write attempts s).1 := by
  intro attempts
  induction attempts with
  | zero => exact fun s _ => WroteOnly.refl blocks s
  | succ attempts ih =>
    intro s same
    have first := once s same
    rw [writeWithRetry]
    split
    · rename_i s' done
      rw [done] at first
      exact first
    · rename_i s' failed
      rw [failed] at first
      exact first.trans (ih s' (first.devices.trans same))

theorem storeLoop_same (device : Device) (lba : Nat) (bytes : Buffer) (count : Nat)
    (s : BlockLayer) : SameMedia s (storeLoop device lba bytes count s) := by
  unfold storeLoop
  induction count with
  | zero => exact SameMedia.refl s
  | succ count ih =>
    rw [List.range_succ, List.foldl_append]
    exact ih.trans (cacheStore_same _ _ _ _)

theorem driverWrite_wroteOnly {device : Device} (root : device.parent = none) (lba count : Nat)
    (buffer : Buffer) (s : BlockLayer) :
    WroteOnly (requestBlocks device lba count) s (driverWrite device lba count buffer s).1 := by
  have next := nextOutcome_intact s
  have stored : ∀ (t : BlockLayer) (size transferred : Nat), transferred ≤ count →
      WroteOnly (requestBlocks device lba count) t
        (t.store device.id size lba transferred buffer) := by
    intro t size transferred within
    constructor
    · rfl
    · intro block outside
      apply store_media_other
      intro i below same
      refine outside ⟨i, by omega, ?_⟩
      rw [same]
      unfold physical
      rw [root]
  unfold driverWrite
  split
  · rename_i s' outcome
    rw [outcome] at next
    exact (WroteOnly.of_intact next).trans (stored s' _ count (Nat.le_refl _))
  · rename_i s' transferred outcome
    rw [outcome] at next
    exact (WroteOnly.of_intact next).trans (stored s' _ _ (Nat.min_le_right _ _))

theorem blockDeviceWrite_wroteOnly {devices : List Device} (registry : Registry devices) (depth : Nat) :
    ∀ (device : Device) (lba count : Nat) (buffer : Buffer) (s : BlockLayer),
      s.devices = devices → devices[device.id]? = some device →
      WroteOnly (requestBlocks device lba count) s (blockDeviceWrite depth device lba count buffer s).1 := by
  induction depth with
  | zero => exact fun _ _ _ _ s _ _ => WroteOnly.refl _ s
  | succ depth ih =>
    intro device lba count buffer s same registered
    have raw : WroteOnly (requestBlocks device lba count) s
        (rawWriteWithRetry (blockDeviceWrite depth) device lba count buffer s).1 := by
      unfold rawWriteWithRetry
      split
      · rename_i isDisk
        have root := registry.disks _ _ registered isDisk
        exact writeWithRetry_wroteOnly (fun t _ => driverWrite_wroteOnly root lba count buffer t)
          _ s same
      · rename_i isPartition
        refine writeWithRetry_wroteOnly (fun t same => ?_) _ s same
        obtain ⟨p, parent, named, there, isDisk, -⟩ := registry.partitions _ _ registered isPartition
        have id := registry.ids p parent there
        subst id
        unfold partitionWrite
        rw [named, Option.bind_some, same, there]
        dsimp only
        split
        · exact WroteOnly.refl _ t
        · have below := ih parent (device.startLba + lba) count buffer t same there
          constructor
          · exact below.devices
          · intro block outside
            apply below.media
            -- the same blocks, counted from the start of the disk
            rintro ⟨i, inside, place⟩
            refine outside ⟨i, inside, ?_⟩
            rw [place]
            unfold physical
            rw [named, registry.disks _ _ there isDisk]
            dsimp only
            rw [Nat.add_assoc]
    rw [blockDeviceWrite]
    split
    · split
      · rename_i s' failed
        rw [failed] at raw
        exact raw
      · rename_i s' done
        rw [done] at raw
        exact raw.trans (WroteOnly.of_intact (storeLoop_same device lba buffer count s').intact)
    · exact WroteOnly.refl _ s

/-! ### Slots that a read uses up -/

structure SameCache (s s' : BlockLayer) : Prop where
  entries : s'.cacheEntries = s.cacheEntries
  next : s'.nextCacheSlot = s.nextCacheSlot

theorem SameCache.refl (s : BlockLayer) : SameCache s s := ⟨rfl, rfl⟩

theorem SameCache.trans {s t u : BlockLayer} (first : SameCache s t) (second : SameCache t u) :
    SameCache s u :=
  ⟨second.entries.trans first.entries, second.next.trans first.next⟩

/-- A slot that is not among the next two in line keeps its entry, and a call that fails
uses no slot at all. -/
structure Spares {α : Type} (s : BlockLayer) (outcome : BlockLayer × Option α) : Prop where
  failed : outcome.2 = none → SameCache s outcome.1
  kept : ∀ a, Spared s a 2 → outcome.1.cacheEntries a = s.cacheEntries a

theorem Spares.of_same {α : Type} {s : BlockLayer} {outcome : BlockLayer × Option α}
    (same : SameCache s outcome.1) : Spares s outcome := by
  constructor
  · exact fun _ => same
  · intro a _
    rw [same.entries]

theorem SameCache.spared {s t : BlockLayer} (same : SameCache s t)
    {a : Fin BLOCK_CACHE_ENTRY_COUNT} {k : Nat} (spared : Spared s a k) : Spared t a k := by
  unfold Spared
  rw [same.next]
  exact spared

theorem readWithRetry_spares {read : BlockLayer → BlockLayer × Option (List UInt8)}
    {devices : List Device} (once : ∀ s, s.devices = devices → Spares s (read s))
    (intact : ∀ s, Intact s (read s).1) :
    ∀ (attempts : Nat) (s : BlockLayer), s.devices = devices →
    Spares s (readWithRetry read attempts s) := by
  intro attempts
  induction attempts with
  | zero => exact fun s _ => Spares.of_same (SameCache.refl s)
  | succ attempts ih =>
    intro s same
    have first := once s same
    have kept := intact s
    rw [readWithRetry]
    split
    · rename_i s' data delivered
      rw [delivered] at first
      exact first
    · rename_i s' failed
      rw [failed] at first kept
      have unused := first.failed rfl
      have rest := ih s' (kept.devices.trans same)
      constructor
      · exact fun failure => unused.trans (rest.failed failure)
      · intro a spared
        rw [rest.kept a (unused.spared spared), unused.entries]

theorem driverRead_same (device : Device) (lba : Nat) (s : BlockLayer) :
    SameCache s (driverRead device lba s).1 := by
  unfold driverRead BlockLayer.nextOutcome
  split <;> rename_i outcome <;> split at outcome <;> cases outcome <;> exact ⟨rfl, rfl⟩

theorem rawRead_disk_same {device : Device} (isDisk : device.ops = .driver)
    (read : Device → Nat → Nat → BlockLayer → Buffer → BlockLayer × Option Buffer) (lba : Nat)
    (s : BlockLayer) : SameCache s (rawReadWithRetry read device lba s).1 := by
  have each : ∀ (attempts : Nat) (s : BlockLayer),
      SameCache s (readWithRetry (driverRead device lba) attempts s).1 := by
    intro attempts
    induction attempts with
    | zero => exact SameCache.refl
    | succ attempts ih =>
      intro s
      have first := driverRead_same device lba s
      rw [readWithRetry]
      split
      · rename_i s' data delivered
        rw [delivered] at first
        exact first
      · rename_i s' failed
        rw [failed] at first
        exact first.trans (ih s')
  unfold rawReadWithRetry
  rw [isDisk]
  exact each _ s

section DiskBlock

variable {disk : Device} {raw : Nat → BlockLayer → BlockLayer × Option (List UInt8)}

theorem fetchBlock_spares (disk : Device) (idle : ∀ lba s, SameCache s (raw lba s).1) (lba : Nat)
    (s : BlockLayer) :
    ((fetchBlock raw disk lba s).2 = none → SameCache s (fetchBlock raw disk lba s).1) ∧
      ∀ a, Spared s a 2 → (fetchBlock raw disk lba s).1.cacheEntries a = s.cacheEntries a ∧
        Spared (fetchBlock raw disk lba s).1 a 1 := by
  have first := idle lba s
  unfold fetchBlock
  split
  · exact ⟨fun _ => SameCache.refl s, fun a spared => ⟨rfl, spared.weaken (by omega)⟩⟩
  · rename_i missing
    split
    · rename_i s' failed
      rw [failed] at first
      refine ⟨fun _ => first, fun a spared => ⟨by rw [first.entries], ?_⟩⟩
      exact (first.spared spared).weaken (by omega)
    · rename_i s' data delivered
      rw [delivered] at first
      refine ⟨fun impossible => (Option.some_ne_none _ impossible).elim, fun a spared => ?_⟩
      have missing' : cacheFind s' disk lba = none := by
        unfold cacheFind at missing ⊢
        rw [first.entries]
        exact missing
      have stored : (cacheStore s' disk lba data).cacheEntries a = s'.cacheEntries a ∧
          Spared (cacheStore s' disk lba data) a 1 :=
        cacheStore_spares missing' a 1 (first.spared spared)
      exact ⟨by rw [stored.1, first.entries], stored.2⟩

theorem readAhead_spares (idle : ∀ lba s, SameCache s (raw lba s).1) (lba : Nat) (s : BlockLayer)
    (a : Fin BLOCK_CACHE_ENTRY_COUNT) (spared : Spared s a 1) :
    (readAhead raw disk lba s).cacheEntries a = s.cacheEntries a := by
  unfold readAhead
  split
  · split
    · rename_i s' refused
      rw [cacheAllocate_none refused]
    · rename_i s' slot allocated
      obtain ⟨other, entry, -⟩ := (cacheAllocate_spares allocated).2 a 0 spared
      have second := idle lba s'
      split
      · rename_i t data delivered
        rw [delivered] at second
        simp only [BlockLayer.setData, Function.update_of_ne other]
        rw [second.entries, entry]
      · rename_i t failed
        rw [failed] at second
        simp only [BlockLayer.invalidate, Function.update_of_ne other]
        rw [second.entries, entry]
  · rfl

end DiskBlock

theorem diskRead_spares {disk : Device} (isDisk : disk.ops = .driver) (depth lba : Nat)
    (s : BlockLayer) (buffer : Buffer) :
    Spares s (blockDeviceRead depth disk lba 1 s buffer) := by
  cases depth with
  | zero => exact Spares.of_same (SameCache.refl s)
  | succ depth =>
    have idle := rawRead_disk_same isDisk (blockDeviceRead depth)
    obtain ⟨failing, keeping⟩ := fetchBlock_spares disk idle (lba + (1 - (0 + 1))) s
    rw [blockDeviceRead]
    split
    · rw [readLoop]
      dsimp only
      split
      · rename_i s' failed
        rw [failed] at failing
        exact Spares.of_same (failing rfl)
      · rename_i s' data delivered
        rw [delivered] at keeping
        split
        · constructor
          · exact fun impossible => (Option.some_ne_none _ impossible).elim
          · intro a spared
            obtain ⟨entry, spared'⟩ := keeping a spared
            simp only [readLoop]
            rw [readAhead_spares idle _ s' a spared', entry]
        · constructor
          · exact fun impossible => (Option.some_ne_none _ impossible).elim
          · exact fun a spared => (keeping a spared).1
    · exact Spares.of_same (SameCache.refl s)

theorem rawRead_spares {devices : List Device} (registry : Registry devices) {device : Device}
    (registered : devices[device.id]? = some device) (depth lba : Nat) (s : BlockLayer)
    (same : s.devices = devices) :
    Spares s (rawReadWithRetry (blockDeviceRead depth) device lba s) := by
  cases kind : device.ops with
  | driver => exact Spares.of_same (rawRead_disk_same kind (blockDeviceRead depth) lba s)
  | partition =>
    obtain ⟨p, parent, named, there, isDisk, -⟩ := registry.partitions _ _ registered kind
    unfold rawReadWithRetry
    rw [kind]
    refine readWithRetry_spares (fun t same => ?_) (fun t => ?_) _ s same
    · unfold partitionRead
      rw [named, Option.bind_some, same, there]
      dsimp only
      split
      · exact Spares.of_same (SameCache.refl t)
      · have below := diskRead_spares isDisk depth (device.startLba + lba) t fun _ => 0
        split
        · rename_i t' failed
          rw [failed] at below
          exact ⟨fun _ => below.failed rfl, below.kept⟩
        · rename_i t' bytes delivered
          rw [delivered] at below
          exact ⟨fun impossible => (Option.some_ne_none _ impossible).elim, below.kept⟩
    · exact partitionRead_intact
        (fun parent lba s => blockDeviceRead_intact depth parent lba 1 s _) device lba t

/-! ### Two layers that agree on a window -/

def LabelIn (window : Nat × Nat → Prop) (devices : List Device) (key : CacheKey) : Prop :=
  ∃ device, devices[key.deviceId]? = some device ∧ window (physical device key.lba)

/-- The layers differ in nothing but the blocks outside a window, on the media and in the
cache, and in the data of the slots that are being filled. -/
structure Alike (window : Nat × Nat → Prop) (pending : Set (Fin BLOCK_CACHE_ENTRY_COUNT))
    (s t : BlockLayer) : Prop where
  devices : t.devices = s.devices
  outcomes : t.outcomes = s.outcomes
  nextCacheSlot : t.nextCacheSlot = s.nextCacheSlot
  valid : ∀ i, (t.cacheEntries i).valid = (s.cacheEntries i).valid
  keys : ∀ i, (t.cacheEntries i).key = (s.cacheEntries i).key
  data : ∀ i, i ∉ pending → (s.cacheEntries i).valid = true →
    LabelIn window s.devices (s.cacheEntries i).key →
    (t.cacheEntries i).data = (s.cacheEntries i).data
  media : ∀ block, window block → t.media block.1 block.2 = s.media block.1 block.2

/-- Two calls with the same success, and with related values if they succeed. -/
def AlikeResults {α : Type} (window : Nat × Nat → Prop)
    (pending : Set (Fin BLOCK_CACHE_ENTRY_COUNT)) (R : α → α → Prop)
    (left right : BlockLayer × Option α) : Prop :=
  Alike window pending left.1 right.1 ∧ Option.Rel R left.2 right.2

section Alike

variable {window : Nat × Nat → Prop} {pending : Set (Fin BLOCK_CACHE_ENTRY_COUNT)}
  {s t : BlockLayer} {device : Device}

theorem Alike.mono {pending' : Set (Fin BLOCK_CACHE_ENTRY_COUNT)} (alike : Alike window pending s t)
    (more : pending ⊆ pending') : Alike window pending' s t :=
  { alike with data := fun i settled => alike.data i fun member => settled (more member) }

theorem Alike.cacheFind_eq (alike : Alike window pending s t) (device : Device) (lba : Nat) :
    cacheFind t device lba = cacheFind s device lba := by
  unfold cacheFind find
  have same : (fun i => (t.cacheEntries i).valid && decide ((t.cacheEntries i).key = device.cacheKey lba)) =
      fun i => (s.cacheEntries i).valid &&
        decide ((s.cacheEntries i).key = device.cacheKey lba) := by
    funext i
    rw [alike.valid i, alike.keys i]
  rw [same]

theorem Alike.update (alike : Alike window pending s t) {slot : Fin BLOCK_CACHE_ENTRY_COUNT}
    {entry entry' : CacheEntry} (valid : entry'.valid = entry.valid) (key : entry'.key = entry.key)
    (right : entry.valid = true → LabelIn window s.devices entry.key → entry'.data = entry.data) :
    Alike window (pending \ {slot}) { s with cacheEntries := Function.update s.cacheEntries slot entry }
      { t with cacheEntries := Function.update t.cacheEntries slot entry' } := by
  constructor
  · exact alike.devices
  · exact alike.outcomes
  · exact alike.nextCacheSlot
  · intro i
    by_cases here : i = slot
    · simp only [here, Function.update_self, valid]
    · simp only [Function.update_of_ne here, alike.valid i]
  · intro i
    by_cases here : i = slot
    · simp only [here, Function.update_self, key]
    · simp only [Function.update_of_ne here, alike.keys i]
  · intro i settled valid label
    by_cases here : i = slot
    · simp only [here, Function.update_self] at valid label ⊢
      exact right valid label
    · simp only [Function.update_of_ne here] at valid label ⊢
      exact alike.data i (fun member => settled ⟨member, here⟩) valid label
  · exact alike.media

theorem Alike.setData (alike : Alike window pending s t) {slot : Fin BLOCK_CACHE_ENTRY_COUNT}
    {data data' : List UInt8}
    (right : LabelIn window s.devices (s.cacheEntries slot).key → data' = data) :
    Alike window (pending \ {slot}) (s.setData slot data) (t.setData slot data') :=
  alike.update (alike.valid slot) (alike.keys slot) fun _ => right

theorem Alike.invalidate (alike : Alike window pending s t) (slot : Fin BLOCK_CACHE_ENTRY_COUNT) :
    Alike window (pending \ {slot}) (s.invalidate slot) (t.invalidate slot) :=
  alike.update rfl (alike.keys slot) nofun

theorem Alike.cacheAllocate (alike : Alike window pending s t) (device : Device) (lba : Nat) :
    (cacheAllocate s device lba = (s, none) ∧ Block.cacheAllocate t device lba = (t, none)) ∨
    ∃ slot s' t', Block.cacheAllocate s device lba = (s', some slot) ∧
      Block.cacheAllocate t device lba = (t', some slot) ∧
      Alike window (insert slot pending) s' t' ∧
      (s'.cacheEntries slot).key = device.cacheKey lba := by
  unfold Block.cacheAllocate
  split
  · exact Or.inl ⟨rfl, rfl⟩
  · have same : t.roundRobinSlot = s.roundRobinSlot := by
      simp only [BlockLayer.roundRobinSlot, alike.nextCacheSlot]
    dsimp only
    rw [same, alike.nextCacheSlot]
    refine Or.inr ⟨s.roundRobinSlot, _, _, rfl, rfl, ?_, by simp⟩
    constructor
    · exact alike.devices
    · exact alike.outcomes
    · rfl
    · intro i
      by_cases here : i = s.roundRobinSlot
      · subst here
        simp
      · simp only [Function.update_of_ne here]
        exact alike.valid i
    · intro i
      by_cases here : i = s.roundRobinSlot
      · subst here
        simp
      · simp only [Function.update_of_ne here]
        exact alike.keys i
    · intro i settled valid label
      have elsewhere : i ≠ s.roundRobinSlot := fun here => settled (Or.inl here)
      simp only [Function.update_of_ne elsewhere] at valid label ⊢
      exact alike.data i (fun member => settled (Or.inr member)) valid label
    · exact alike.media

theorem labelIn_cacheKey (registered : Registered s device) {lba : Nat} :
    LabelIn window s.devices (device.cacheKey lba) ↔ window (physical device lba) := by
  constructor
  · rintro ⟨found, there, inside⟩
    unfold Registered at registered
    rw [show (device.cacheKey lba).deviceId = device.id from rfl, registered] at there
    cases there
    exact inside
  · exact fun inside => ⟨device, registered, inside⟩

theorem Alike.cacheStore (alike : Alike window pending s t) (registered : Registered s device)
    {lba : Nat} {data data' : List UInt8} (right : window (physical device lba) → data' = data) :
    Alike window pending (cacheStore s device lba data) (Block.cacheStore t device lba data') := by
  unfold Block.cacheStore
  rw [alike.cacheFind_eq device lba]
  split
  · rename_i slot found
    refine (alike.setData fun label => right ?_).mono Set.sdiff_subset
    rw [(cacheFind_some found).2] at label
    exact (labelIn_cacheKey registered).mp label
  · rcases alike.cacheAllocate device lba with ⟨refused, refused'⟩ |
      ⟨slot, s', t', taken, taken', related, key⟩
    · rw [refused, refused']
      exact alike
    · have same := cacheAllocate_same s device lba
      rw [taken] at same
      rw [taken, taken']
      dsimp only
      refine (related.setData fun label => right ?_).mono ?_
      · rw [key, same.devices] at label
        exact (labelIn_cacheKey registered).mp label
      · rintro i ⟨here | before, elsewhere⟩
        · exact (elsewhere here).elim
        · exact before

end Alike

/-! ### Reads of layers that are alike -/

/-- No slot that is being filled is labelled with a block of the device `id`. -/
def Foreign (pending : Set (Fin BLOCK_CACHE_ENTRY_COUNT)) (s : BlockLayer) (id : Nat) : Prop :=
  ∀ i ∈ pending, (s.cacheEntries i).valid = true → (s.cacheEntries i).key.deviceId ≠ id

/-- What a raw read of a device does to two layers that are alike. -/
structure RawAlike (window : Nat × Nat → Prop) (device : Device)
    (raw : Nat → BlockLayer → BlockLayer × Option (List UInt8)) : Prop where
  intact : ∀ lba s, Intact s (raw lba s).1
  spares : ∀ {s} lba, Registry s.devices → Registered s device → Spares s (raw lba s)
  alike : ∀ {pending s t} lba, Alike window pending s t → Registry s.devices →
    Registered s device → (∀ p, device.parent = some p → Foreign pending s p) →
    AlikeResults window pending (fun data data' => window (physical device lba) → data' = data)
      (raw lba s) (raw lba t)

theorem cacheAllocate_other {s s' : BlockLayer} {device : Device} {lba : Nat}
    {slot : Fin BLOCK_CACHE_ENTRY_COUNT} (taken : cacheAllocate s device lba = (s', some slot))
    {i : Fin BLOCK_CACHE_ENTRY_COUNT} (elsewhere : i ≠ slot) :
    s'.cacheEntries i = s.cacheEntries i := by
  unfold cacheAllocate at taken
  split at taken
  · cases taken
  · cases taken
    exact Function.update_of_ne elsewhere _ _

theorem Registry.parent_ne {devices : List Device} (registry : Registry devices) {device : Device}
    (registered : devices[device.id]? = some device) {p : Nat} (named : device.parent = some p) :
    p ≠ device.id := by
  rintro rfl
  cases kind : device.ops with
  | driver =>
    rw [registry.disks _ _ registered kind] at named
    cases named
  | partition =>
    obtain ⟨p, parent, named', there, isDisk, -⟩ := registry.partitions _ _ registered kind
    rw [named] at named'
    cases named'
    rw [registered] at there
    cases there
    rw [kind] at isDisk
    cases isDisk

section Reads

variable {window : Nat × Nat → Prop} {pending : Set (Fin BLOCK_CACHE_ENTRY_COUNT)}
  {s t : BlockLayer} {device : Device} {raw : Nat → BlockLayer → BlockLayer × Option (List UInt8)}

theorem fetchBlock_alike (spec : RawAlike window device raw) (alike : Alike window pending s t)
    (registry : Registry s.devices) (registered : Registered s device)
    (foreign : Foreign pending s device.id)
    (foreignParent : ∀ p, device.parent = some p → Foreign pending s p) (lba : Nat) :
    AlikeResults window pending (fun data data' => window (physical device lba) → data' = data)
      (fetchBlock raw device lba s) (fetchBlock raw device lba t) := by
  unfold fetchBlock
  rw [alike.cacheFind_eq device lba]
  split
  · -- from the cache
    rename_i slot found
    obtain ⟨valid, key⟩ := cacheFind_some found
    refine ⟨alike, .some fun inside => alike.data slot (fun member => ?_) valid ?_⟩
    · exact foreign slot member valid (by rw [key]; rfl)
    · rw [key]
      exact (labelIn_cacheKey registered).mpr inside
  · -- from the device
    obtain ⟨related, same⟩ := spec.alike lba alike registry registered foreignParent
    have intact := spec.intact lba s
    rcases left : raw lba s with ⟨s', result⟩
    rcases other : raw lba t with ⟨t', result'⟩
    rw [left] at related same intact
    rw [other] at related same
    cases same with
    | none => exact ⟨related, .none⟩
    | some right =>
      have registered' : Registered s' device := by
        unfold Registered
        rw [intact.devices]
        exact registered
      exact ⟨related.cacheStore registered' right, .some right⟩

theorem readAhead_alike (spec : RawAlike window device raw) (alike : Alike window pending s t)
    (registry : Registry s.devices) (registered : Registered s device)
    (foreignParent : ∀ p, device.parent = some p → Foreign pending s p) (lba : Nat) :
    Alike window pending (readAhead raw device lba s) (readAhead raw device lba t) := by
  unfold readAhead
  rw [alike.cacheFind_eq device lba]
  split
  · rcases alike.cacheAllocate device lba with ⟨refused, refused'⟩ |
      ⟨slot, s', t', taken, taken', related, key⟩
    · rw [refused, refused']
      exact alike
    · rw [taken, taken']
      dsimp only
      have intact := cacheAllocate_same s device lba
      rw [taken] at intact
      have registry' : Registry s'.devices := by
        rw [intact.devices]
        exact registry
      have registered' := intact.registered registered
      -- the slot for the next block is the device's own
      have foreign' : ∀ p, device.parent = some p → Foreign (insert slot pending) s' p := by
        intro p named i member valid
        by_cases here : i = slot
        · subst here
          rw [key]
          exact (registry.parent_ne registered named).symm
        · rw [cacheAllocate_other taken here] at valid ⊢
          exact foreignParent p named i (member.resolve_left here) valid
      obtain ⟨again, same⟩ := spec.alike lba related registry' registered' foreign'
      have spared := (spec.spares lba registry' registered').kept slot
        ((cacheAllocate_spares taken).1.weaken (by omega))
      have still := spec.intact lba s'
      have settles : insert slot pending \ {slot} ⊆ pending := by
        rintro i ⟨here | before, elsewhere⟩
        · exact (elsewhere here).elim
        · exact before
      rcases left : raw lba s' with ⟨u, result⟩
      rcases other : raw lba t' with ⟨u', result'⟩
      rw [left] at again same spared still
      rw [other] at again same
      cases same with
      | none => exact (again.invalidate slot).mono settles
      | some right =>
        refine (again.setData fun label => right ?_).mono settles
        rw [spared, key, still.devices] at label
        exact (labelIn_cacheKey registered').mp label
  · exact alike

theorem readLoop_alike (spec : RawAlike window device raw) (lba count : Nat) :
    ∀ (remaining : Nat) (s t : BlockLayer) (bytes bytes' : Buffer), remaining ≤ count →
      Alike window ∅ s t → Registry s.devices → Registered s device →
      ((∀ i < count, window (physical device (lba + i))) → bytes' = bytes) →
      AlikeResults window ∅
        (fun bytes bytes' => (∀ i < count, window (physical device (lba + i))) → bytes' = bytes)
        (readLoop raw device lba count remaining s bytes)
        (readLoop raw device lba count remaining t bytes') := by
  intro remaining
  induction remaining with
  | zero => exact fun s t bytes bytes' _ alike _ _ right => ⟨alike, .some right⟩
  | succ remaining ih =>
    intro s t bytes bytes' within alike registry registered right
    obtain ⟨related, same⟩ := fetchBlock_alike spec alike registry registered
      (fun i member => member.elim) (fun p _ i member => member.elim)
      (lba + (count - (remaining + 1)))
    have intact : Intact s (fetchBlock raw device (lba + (count - (remaining + 1))) s).1 :=
      fetchBlock_intact spec.intact _ s
    rw [readLoop, readLoop]
    dsimp only
    rcases left : fetchBlock raw device (lba + (count - (remaining + 1))) s with ⟨s', result⟩
    rcases other : fetchBlock raw device (lba + (count - (remaining + 1))) t with ⟨t', result'⟩
    rw [left] at related same intact
    rw [other] at related same
    cases same with
    | none => exact ⟨related, .none⟩
    | some fetched =>
      rename_i data data'
      dsimp only
      have registry' : Registry s'.devices := by
        rw [intact.devices]
        exact registry
      have registered' : Registered s' device := by
        unfold Registered
        rw [intact.devices]
        exact registered
      have right' : (∀ i < count, window (physical device (lba + i))) →
          bytes'.put ((count - (remaining + 1)) * device.logicalBlockSize % 2 ^ 32) data' =
            bytes.put ((count - (remaining + 1)) * device.logicalBlockSize % 2 ^ 32) data := by
        intro inside
        rw [right inside, fetched (inside _ (by omega))]
      split
      · have ahead := readAhead_alike spec related registry' registered'
          (fun p _ i member => member.elim) (lba + (count - (remaining + 1)) + 1)
        have intact' : Intact s' (readAhead raw device (lba + (count - (remaining + 1)) + 1) s') :=
          readAhead_intact spec.intact _ s'
        apply ih _ _ _ _ (by omega) ahead
        · rw [intact'.devices]
          exact registry'
        · unfold Registered
          rw [intact'.devices]
          exact registered'
        · exact right'
      · exact ih _ _ _ _ (by omega) related registry' registered' right'

theorem readWithRetry_alike (Ready : BlockLayer → Prop)
    {read : BlockLayer → BlockLayer × Option (List UInt8)} {R : List UInt8 → List UInt8 → Prop}
    (once : ∀ s t, Alike window pending s t → Ready s → AlikeResults window pending R (read s) (read t))
    (again : ∀ s, Ready s → (read s).2 = none → Ready (read s).1) :
    ∀ (attempts : Nat) (s t : BlockLayer), Alike window pending s t → Ready s →
      AlikeResults window pending R (readWithRetry read attempts s) (readWithRetry read attempts t) := by
  intro attempts
  induction attempts with
  | zero => exact fun s t alike _ => ⟨alike, .none⟩
  | succ attempts ih =>
    intro s t alike ready
    obtain ⟨related, same⟩ := once s t alike ready
    have next := again s ready
    rw [readWithRetry, readWithRetry]
    rcases left : read s with ⟨s', result⟩
    rcases other : read t with ⟨t', result'⟩
    rw [left] at related same next
    rw [other] at related same
    cases same with
    | none => exact ih s' t' related (next rfl)
    | some right => exact ⟨related, .some right⟩

theorem Alike.nextOutcome (alike : Alike window pending s t) :
    Alike window pending s.nextOutcome.1 t.nextOutcome.1 ∧ t.nextOutcome.2 = s.nextOutcome.2 := by
  unfold BlockLayer.nextOutcome
  rw [alike.outcomes]
  split
  · exact ⟨alike, rfl⟩
  · exact ⟨⟨alike.devices, rfl, alike.nextCacheSlot, alike.valid, alike.keys, alike.data, alike.media⟩, rfl⟩

theorem driverRead_alike (root : device.parent = none) (alike : Alike window pending s t) (lba : Nat) :
    AlikeResults window pending (fun data data' => window (physical device lba) → data' = data)
      (driverRead device lba s) (driverRead device lba t) := by
  obtain ⟨related, same⟩ := alike.nextOutcome
  unfold driverRead
  rcases left : s.nextOutcome with ⟨s', outcome⟩
  rcases other : t.nextOutcome with ⟨t', outcome'⟩
  rw [left, other] at related same
  dsimp only at same
  subst same
  cases outcome' with
  | succeeds =>
    refine ⟨related, .some fun inside => ?_⟩
    unfold physical at inside
    rw [root] at inside
    rw [related.media _ inside]
  | failsAfter transferred => exact ⟨related, .none⟩

theorem rawAlike_disk (window : Nat × Nat → Prop) (isDisk : device.ops = .driver) (depth : Nat) :
    RawAlike window device (rawReadWithRetry (blockDeviceRead depth) device) where
  intact := by
    intro lba s
    unfold rawReadWithRetry
    rw [isDisk]
    exact readWithRetry_intact (driverRead_intact device lba) _ s
  spares := fun lba _ _ => Spares.of_same (rawRead_disk_same isDisk (blockDeviceRead depth) lba _)
  alike := by
    intro pending s t lba alike registry registered _
    have root := registry.disks _ _ registered isDisk
    unfold rawReadWithRetry
    rw [isDisk]
    exact readWithRetry_alike (fun _ => True) (fun s t alike _ => driverRead_alike root alike lba)
      (fun _ _ _ => trivial) _ s t alike trivial

theorem diskRead_alike {disk : Device} (isDisk : disk.ops = .driver)
    (alike : Alike window pending s t) (registry : Registry s.devices)
    (registered : Registered s disk) (foreign : Foreign pending s disk.id) (depth lba : Nat)
    (buffer : Buffer) :
    AlikeResults window pending (fun bytes bytes' => window (physical disk lba) → bytes' = bytes)
      (blockDeviceRead depth disk lba 1 s buffer) (blockDeviceRead depth disk lba 1 t buffer) := by
  cases depth with
  | zero => exact ⟨alike, .none⟩
  | succ depth =>
    have spec := rawAlike_disk window isDisk depth
    have root := registry.disks _ _ registered isDisk
    have noParent : ∀ u p, disk.parent = some p → Foreign pending u p := by
      intro u p named
      rw [root] at named
      cases named
    rw [blockDeviceRead, blockDeviceRead]
    split
    · obtain ⟨related, same⟩ :=
        fetchBlock_alike spec alike registry registered foreign (noParent s) lba
      have intact : Intact s
          (fetchBlock (rawReadWithRetry (blockDeviceRead depth) disk) disk lba s).1 :=
        fetchBlock_intact spec.intact lba s
      rw [readLoop, readLoop]
      dsimp only
      rw [show lba + (1 - (0 + 1)) = lba from rfl]
      rcases left : fetchBlock (rawReadWithRetry (blockDeviceRead depth) disk) disk lba s with
        ⟨s', result⟩
      rcases other : fetchBlock (rawReadWithRetry (blockDeviceRead depth) disk) disk lba t with
        ⟨t', result'⟩
      rw [left] at related same intact
      rw [other] at related same
      cases same with
      | none => exact ⟨related, .none⟩
      | some right =>
        rename_i data data'
        dsimp only
        have right' : window (physical disk lba) →
            buffer.put ((1 - (0 + 1)) * disk.logicalBlockSize % 2 ^ 32) data' =
              buffer.put ((1 - (0 + 1)) * disk.logicalBlockSize % 2 ^ 32) data := by
          intro inside
          rw [right inside]
        split
        · have registry' : Registry s'.devices := by
            rw [intact.devices]
            exact registry
          have registered' : Registered s' disk := by
            unfold Registered
            rw [intact.devices]
            exact registered
          exact ⟨readAhead_alike spec related registry' registered' (noParent s') (lba + 1), .some right'⟩
        · exact ⟨related, .some right'⟩
    · exact ⟨alike, .none⟩

theorem rawAlike_partition (window : Nat × Nat → Prop) (isPartition : device.ops = .partition)
    (depth : Nat) : RawAlike window device (rawReadWithRetry (blockDeviceRead depth) device) where
  intact := by
    intro lba s
    unfold rawReadWithRetry
    rw [isPartition]
    exact readWithRetry_intact (partitionRead_intact
      (fun parent lba s => blockDeviceRead_intact depth parent lba 1 s _) device lba) _ s
  spares := by
    intro s lba registry registered
    exact rawRead_spares registry registered depth lba s rfl
  alike := by
    intro pending s t lba alike registry registered foreign
    obtain ⟨p, parent, named, there, isDisk, -⟩ := registry.partitions _ _ registered isPartition
    have id := registry.ids p parent there
    subst id
    have root := registry.disks _ _ there isDisk
    have place : physical device lba = physical parent (device.startLba + lba) := by
      unfold physical
      rw [named, root]
    unfold rawReadWithRetry
    rw [isPartition]
    refine readWithRetry_alike (fun u => u.devices = s.devices ∧ Foreign pending u parent.id)
      (fun u v related ready => ?_) (fun u ready failed => ?_) _ s t alike ⟨rfl, foreign _ named⟩
    · -- one attempt is a read of the disk
      have thereV : v.devices[parent.id]? = some parent := by
        rw [related.devices, ready.1]
        exact there
      unfold partitionRead
      rw [named, Option.bind_some, Option.bind_some, ready.1, there, thereV]
      dsimp only
      split
      · exact ⟨related, .none⟩
      · have registryU : Registry u.devices := by
          rw [ready.1]
          exact registry
        have registeredU : Registered u parent := by
          unfold Registered
          rw [ready.1]
          exact there
        obtain ⟨below, same⟩ := diskRead_alike isDisk related registryU registeredU ready.2 depth
          (device.startLba + lba) fun _ => 0
        rcases left : blockDeviceRead depth parent (device.startLba + lba) 1 u fun _ => 0 with
          ⟨u', result⟩
        rcases other : blockDeviceRead depth parent (device.startLba + lba) 1 v fun _ => 0 with
          ⟨v', result'⟩
        rw [left, other] at below same
        cases same with
        | none => exact ⟨below, .none⟩
        | some right =>
          refine ⟨below, .some fun inside => ?_⟩
          rw [place] at inside
          rw [right inside]
    · -- a failed attempt has used no slot
      have intact := partitionRead_intact
        (fun parent lba s => blockDeviceRead_intact depth parent lba 1 s _) device lba u
      have unused : SameCache u (partitionRead (blockDeviceRead depth) device lba u).1 := by
        unfold partitionRead at failed ⊢
        rw [named, Option.bind_some, ready.1, there] at failed ⊢
        dsimp only at failed ⊢
        split
        · exact SameCache.refl u
        · rename_i low
          rw [if_neg low] at failed
          have below := diskRead_spares isDisk depth (device.startLba + lba) u fun _ => 0
          split
          · rename_i u' failed'
            rw [failed'] at below
            exact below.failed rfl
          · rename_i u' bytes delivered
            rw [delivered] at failed
            cases failed
      refine ⟨intact.devices.trans ready.1, fun i member valid => ?_⟩
      rw [unused.entries] at valid ⊢
      exact ready.2 i member valid

theorem blockDeviceRead_alike (alike : Alike window ∅ s t) (registry : Registry s.devices)
    (registered : Registered s device) (depth lba count : Nat) (buffer : Buffer) :
    AlikeResults window ∅
      (fun bytes bytes' => (∀ i < count, window (physical device (lba + i))) → bytes' = bytes)
      (blockDeviceRead depth device lba count s buffer)
      (blockDeviceRead depth device lba count t buffer) := by
  cases depth with
  | zero => exact ⟨alike, .none⟩
  | succ depth =>
    have spec : RawAlike window device (rawReadWithRetry (blockDeviceRead depth) device) := by
      cases kind : device.ops with
      | driver => exact rawAlike_disk window kind depth
      | partition => exact rawAlike_partition window kind depth
    rw [blockDeviceRead, blockDeviceRead]
    split
    · exact readLoop_alike spec lba count count s t buffer buffer (Nat.le_refl _) alike registry
        registered fun _ => rfl
    · exact ⟨alike, .none⟩

end Reads

/-! ### Isolation -/

theorem blockDeviceRegister_sound {s : BlockLayer} (sound : Sound s.devices)
    {description : Device} (disk : description.ops = .driver → description.parent = none)
    (partition : description.ops = .partition → description.blockCount ≠ 0 ∧
      ∃ p parent, description.parent = some p ∧ s.devices[p]? = some parent ∧
        parent.ops = .driver ∧ parent.logicalBlockSize = description.logicalBlockSize) :
    Sound (blockDeviceRegister s description).1.devices := by
  constructor
  · exact (blockDeviceRegister_registry sound.registry disk fun kind => (partition kind).2).1
  · unfold blockDeviceRegister
    split
    · intro i d there isPartition
      rcases getElem?_concat_some there with old | ⟨_, rfl⟩
      · exact sound.nonempty i d old isPartition
      · exact (partition isPartition).1
    · exact sound.nonempty

theorem onDevice_sound {s : BlockLayer} (sound : Sound s.devices) {id : Nat} {unchanged : Run}
    (same : unchanged.layer.devices = s.devices) {call : Device → Run}
    (each : ∀ device, Registered s device → (call device).layer.devices = s.devices) :
    Sound (onDevice s id unchanged call).layer.devices := by
  unfold onDevice
  split
  · rw [same]
    exact sound
  · rename_i device there
    have id' := sound.registry.ids id device there
    subst id'
    rw [each device there]
    exact sound

theorem step_sound {run : Run} (sound : Sound run.layer.devices) (call : Call) :
    Sound (step run call).layer.devices := by
  cases call with
  | registerDisk description =>
    refine blockDeviceRegister_sound sound (fun _ => rfl) fun impossible => ?_
    cases impossible
  | registerPartition disk startLba blockCount name flags =>
    change Sound (registerPartition run.layer disk startLba.toNat blockCount.toNat name
      flags).devices
    rcases registerPartition_cases run.layer disk startLba.toNat blockCount.toNat name flags with
      same | ⟨description, device, made, there, root, isPartition, named, size, nonempty⟩
    · rw [same]
      exact sound
    · rw [made]
      apply blockDeviceRegister_sound sound
      · intro impossible
        rw [isPartition] at impossible
        cases impossible
      · intro _
        exact ⟨nonempty, disk, device, named, there, sound.registry.ops_of_root there root, size.symm⟩
  | read id lba count buffer =>
    exact onDevice_sound sound rfl fun device _ => (blockDeviceRead_intact _ _ _ _ _ _).devices
  | write id lba count buffer =>
    refine onDevice_sound sound rfl fun device registered => ?_
    have kept := (blockDeviceWrite_wroteOnly sound.registry (device.id + 1) device lba.toNat
      count.toNat buffer run.layer rfl registered).devices
    unfold writeResult
    split
    · rename_i layer done
      rw [done] at kept
      exact kept
    · rename_i layer failed
      rw [failed] at kept
      exact kept
  | flushBarrier id =>
    refine onDevice_sound sound rfl fun device _ => ?_
    unfold blockDeviceFlushBarrier
    dsimp only
    split <;> rfl

theorem Reached.sound {s : BlockLayer} (reached : Reached s) : Sound s.devices := by
  induction reached with
  | start media =>
    refine ⟨⟨?_, ?_, ?_, ?_⟩, ?_⟩
    all_goals simp [blockDeviceInitialize]
  | @call s _ outcomes call sound =>
    have ready : Sound (⟨{ s with outcomes := outcomes }, []⟩ : Run).layer.devices := sound
    exact step_sound ready call

theorem requestInBounds_window {device : Device} (nonempty : device.blockCount ≠ 0) {p : Nat}
    (named : device.parent = some p) {lba count i : Nat}
    (inBounds : requestInBounds device lba count = true) (below : i < count) :
    device.window (physical device (lba + i)) := by
  unfold requestInBounds at inBounds
  split_ifs at inBounds
  have fits := of_decide_eq_true inBounds
  unfold physical
  rw [named]
  refine ⟨named, ?_, ?_⟩
  · dsimp only
    omega
  · dsimp only
    omega

theorem blockDeviceRead_bounds {device : Device} {depth lba count : Nat} {s : BlockLayer}
    {buffer : Buffer} (success : (blockDeviceRead depth device lba count s buffer).2 ≠ none) :
    requestInBounds device lba count = true := by
  cases depth with
  | zero => exact (success rfl).elim
  | succ depth =>
    by_contra refused
    rw [blockDeviceRead, if_neg refused] at success
    exact success rfl

theorem blockDeviceWrite_bounds {device : Device} {depth lba count : Nat} {s : BlockLayer}
    {buffer : Buffer} (refused : requestInBounds device lba count = false) :
    blockDeviceWrite depth device lba count buffer s = (s, false) := by
  cases depth with
  | zero => rfl
  | succ depth =>
    rw [blockDeviceWrite, refused]
    rfl

/-- Whatever calls have been made before and whatever the drivers do, a request through a
partition that succeeds covers blocks of its window only; what a read returns does not depend
on any other block, on the disk or in the cache; a read changes no block of any disk, and a
write none outside the window. -/
theorem partition_isolated {s : BlockLayer} (reached : Reached s) {device : Device}
    (registered : Registered s device) (isPartition : device.ops = .partition) (lba : UInt64)
    (count : UInt32) (buffer : Buffer) :
    ((readResult s device lba count buffer).2 ≠ none ∨ (writeResult s device lba count buffer).2 = true →
      ∀ i < count.toNat, device.window (physical device (lba.toNat + i))) ∧
    (∀ t, Alike device.window ∅ s t →
      (readResult t device lba count buffer).2 = (readResult s device lba count buffer).2) ∧
    (readResult s device lba count buffer).1.media = s.media ∧
    ∀ block, ¬device.window block → (writeResult s device lba count buffer).1.media block.1 block.2 =
        s.media block.1 block.2 := by
  have sound := reached.sound
  obtain ⟨p, parent, named, -⟩ := sound.registry.partitions _ _ registered isPartition
  have nonempty := sound.nonempty _ _ registered isPartition
  have inside : requestInBounds device lba.toNat count.toNat = true →
      ∀ i < count.toNat, device.window (physical device (lba.toNat + i)) :=
    fun inBounds i below => requestInBounds_window nonempty named inBounds below
  refine ⟨fun success => inside ?_, fun t alike => ?_, ?_, fun block outside => ?_⟩
  · rcases success with delivered | written
    · exact blockDeviceRead_bounds delivered
    · by_contra refused
      unfold writeResult at written
      rw [blockDeviceWrite_bounds (Bool.not_eq_true _ ▸ refused)] at written
      cases written
  · obtain ⟨-, same⟩ := blockDeviceRead_alike alike sound.registry registered (device.id + 1)
      lba.toNat count.toNat buffer
    have bounds := @blockDeviceRead_bounds device (device.id + 1) lba.toNat count.toNat s buffer
    unfold readResult
    generalize (blockDeviceRead (device.id + 1) device lba.toNat count.toNat s buffer).2 = result
      at same bounds ⊢
    generalize (blockDeviceRead (device.id + 1) device lba.toNat count.toNat t buffer).2 = result'
      at same ⊢
    cases same with
    | none => rfl
    | some right => rw [right (inside (bounds (Option.some_ne_none _)))]
  · exact (blockDeviceRead_intact _ _ _ _ _ _).media
  · by_cases inBounds : requestInBounds device lba.toNat count.toNat = true
    · apply (blockDeviceWrite_wroteOnly sound.registry _ device lba.toNat count.toNat buffer s rfl
        registered).media
      rintro ⟨i, below, place⟩
      rw [place] at outside
      exact outside (inside inBounds i below)
    · unfold writeResult
      rw [blockDeviceWrite_bounds (Bool.not_eq_true _ ▸ inBounds)]

/-! The partition on blocks 8 to 39 of the disk of 64 blocks. -/

def registeredLayer : BlockLayer :=
  (registrations.foldl step (initialRun fun _ _ _ => 0)).layer

def registeredPartition : Device where
  id := 1
  name := ['p', '1']
  logicalBlockSize := 512
  physicalBlockSize := 512
  blockCount := 32
  flags := BLOCK_DEVICE_FLAG_PARTITION
  target := 0
  lun := 0
  startLba := 8
  parent := some 0
  ops := .partition

/-- Its last two blocks, behind which the disk is read ahead. -/
theorem partition_isolated_example :
    ((readResult registeredLayer registeredPartition 30 2 sevens).2 ≠ none ∨
        (writeResult registeredLayer registeredPartition 30 2 sevens).2 = true →
      ∀ i < (2 : UInt32).toNat,
        registeredPartition.window (physical registeredPartition ((30 : UInt64).toNat + i))) ∧
    (∀ t, Alike registeredPartition.window ∅ registeredLayer t →
      (readResult t registeredPartition 30 2 sevens).2 =
        (readResult registeredLayer registeredPartition 30 2 sevens).2) ∧
    (readResult registeredLayer registeredPartition 30 2 sevens).1.media = registeredLayer.media ∧
    ∀ block, ¬registeredPartition.window block →
      (writeResult registeredLayer registeredPartition 30 2 sevens).1.media block.1 block.2 =
        registeredLayer.media block.1 block.2 := by
  have reached : Reached registeredLayer :=
    .call (.call (.start fun _ _ _ => 0) [] (.registerDisk exampleDisk)) []
      (.registerPartition 0 8 32 ['p', '1'] 0)
  have registered : Registered registeredLayer registeredPartition := by
    unfold Registered
    decide +kernel
  exact partition_isolated reached registered rfl 30 2 sevens

end AsasOs.Block
