import AsasOs.ExFat.Mount

/-!
# exFAT: which calls the code makes

Code that looks something up only reads and allocates, behind a given sector. This is
about the text of the code: it holds whatever the calls are answered.
-/
namespace AsasOs.ExFat

open Block Prog

/-- A call that reads a sector from `low` on, or allocates. -/
def Looks (low : Nat) : ExfatOp → Prop
  | .read lba => low ≤ lba
  | .kmalloc _ => True
  | _ => False

/-- The allocation table and the cluster heap lie from `low` on. -/
structure Geometry.From (g : Geometry) (low : Nat) : Prop where
  fat : low ≤ g.fatOffset
  heap : low ≤ g.clusterHeapOffset

theorem Geometry.from_zero (g : Geometry) : g.From 0 := ⟨Nat.zero_le _, Nat.zero_le _⟩

variable {low : Nat} {context : Context}

/-! ### Sectors and streams -/

section Streams

theorem attempt_uses {P : ExfatOp → Prop} {call : ExfatProg Bool} (uses : Uses P call) :
    Uses P (attempt call).run :=
  uses_fallible_bind (uses_lift uses) fun _ => uses_guard

theorem blockDeviceRead_looks {lba : Nat} (here : low ≤ lba) :
    Uses (Looks low) (blockDeviceRead lba).run :=
  uses_perform here

theorem kmalloc_looks (bytes : Nat) : Uses (Looks low) (kmalloc bytes).run :=
  attempt_uses (uses_perform trivial)

theorem readSector_looks {lba : Nat} (here : low ≤ lba) :
    Uses (Looks low) (readSector context lba).run :=
  uses_fallible_bind uses_guard fun _ => blockDeviceRead_looks here

variable (region : context.From low)

include region

theorem readFat_looks (cluster : Nat) : Uses (Looks low) (readFat context cluster).run := by
  unfold readFat
  refine uses_fallible_bind uses_guard fun _ => ?_
  have here : low ≤ context.fatOffset + cluster * 4 / context.sectorSize :=
    region.fat.trans (Nat.le_add_right _ _)
  refine uses_fallible_bind (readSector_looks here) fun sector => ?_
  exact uses_fallible_bind uses_guard fun _ => uses_some

theorem followChain_looks (steps : Nat) :
    ∀ cluster, Uses (Looks low) (followChain context steps cluster).run := by
  induction steps with
  | zero => exact fun _ => uses_some
  | succ steps ih =>
    intro cluster
    refine uses_fallible_bind (readFat_looks region cluster) fun next => ?_
    exact uses_fallible_bind uses_guard fun _ => ih next

theorem streamCluster_looks (firstCluster : Nat) (noFatChain : Bool) (index : Nat) :
    Uses (Looks low) (streamCluster context firstCluster noFatChain index).run := by
  unfold streamCluster
  refine uses_fallible_bind uses_guard fun _ => ?_
  split
  · exact uses_fallible_bind uses_guard fun _ => uses_some
  · exact followChain_looks region index firstCluster

omit region in
theorem clusterLba_from (region : context.From low) (cluster more : Nat) :
    low ≤ context.clusterLba cluster + more := by
  have heap := region.heap
  unfold Geometry.clusterLba
  omega

theorem streamByteLocation_uses {P : ExfatOp → Prop} {α : Type} {f : Nat × Nat → ExfatCode α}
    (weaker : ∀ op, Looks low op → P op) (firstCluster : Nat) (noFatChain : Bool) (offset : Nat)
    (rest : ∀ lba inside, low ≤ lba → Uses P (f (lba, inside)).run) :
    Uses P (streamByteLocation context firstCluster noFatChain offset >>= f).run := by
  unfold streamByteLocation
  dsimp only
  rw [LawfulMonad.bind_assoc]
  refine uses_fallible_bind (uses_mono (streamCluster_looks region _ _ _) weaker) fun cluster => ?_
  rw [pure_bind]
  exact rest _ _ (clusterLba_from region cluster _)

theorem readStreamLoop_looks (firstCluster : Nat) (noFatChain : Bool) (offset capacity : Nat)
    (rounds : Nat) : ∀ total, Uses (Looks low)
      (readStreamLoop context firstCluster noFatChain offset capacity rounds total) := by
  induction rounds with
  | zero => exact fun _ => uses_pure _
  | succ rounds ih =>
    intro total
    unfold readStreamLoop
    split
    · refine uses_bind ?_ fun part => ?_
      · refine streamByteLocation_uses region (fun _ => id) _ _ _ fun lba inside here => ?_
        exact uses_fallible_bind (readSector_looks here) fun _ => uses_some
      · cases part with
        | none => exact uses_pure _
        | some part => exact ih _
    · exact uses_pure _

theorem readStream_looks (firstCluster : Nat) (noFatChain : Bool)
    (dataLength offset capacity : Nat) : Uses (Looks low)
      (readStream context firstCluster noFatChain dataLength offset capacity) := by
  unfold readStream
  split
  · exact uses_pure _
  · exact readStreamLoop_looks region _ _ _ _ _ _

/-! ### The bitmap -/

theorem bitmapByte_looks (cluster : Nat) : Uses (Looks low) (bitmapByte context cluster).run := by
  unfold bitmapByte
  refine uses_fallible_bind uses_guard fun _ => ?_
  refine uses_fallible_bind (uses_lift (readStream_looks region _ _ _ _ _)) fun bytes => ?_
  unfold bitmapByte.ofList
  split
  · exact uses_some
  · exact uses_failure

theorem bitmapBit_looks (cluster : Nat) : Uses (Looks low) (bitmapBit context cluster).run :=
  uses_fallible_bind (bitmapByte_looks region cluster) fun _ => uses_some

theorem findFreeClusters_looks (remaining : Nat) :
    ∀ cluster count, Uses (Looks low) (findFreeClusters context remaining cluster count).run := by
  induction remaining with
  | zero => exact fun _ _ => uses_some
  | succ remaining ih =>
    intro cluster count
    unfold findFreeClusters
    split
    · exact uses_some
    · refine uses_fallible_bind (bitmapBit_looks region cluster) fun allocated => ?_
      split
      · exact ih _ _
      · exact uses_fallible_bind (ih _ _) fun _ => uses_some

theorem chainLength_looks (remaining : Nat) :
    ∀ cluster, Uses (Looks low) (chainLength context remaining cluster) := by
  induction remaining with
  | zero => exact fun _ => uses_pure _
  | succ remaining ih =>
    intro cluster
    unfold chainLength
    split
    · refine uses_bind (readFat_looks region cluster) fun next => ?_
      cases next with
      | none => exact uses_pure _
      | some next =>
        dsimp only
        split
        · exact uses_pure _
        · exact uses_bind (ih next) fun _ => uses_pure _
    · exact uses_pure _

theorem collectLoop_looks (node : Node) (indices : List Nat) :
    Uses (Looks low) (collectLoop context node indices).run := by
  induction indices with
  | nil => exact uses_some
  | cons index rest ih =>
    refine uses_fallible_bind (streamCluster_looks region _ _ index) fun cluster => ?_
    exact uses_fallible_bind ih fun _ => uses_some

theorem collectClusters_looks (node : Node) : Uses (Looks low) (collectClusters context node).run := by
  unfold collectClusters
  have counts : Uses (Looks low) (storedClusters context node) := by
    unfold storedClusters
    split
    · exact chainLength_looks region _ _
    · exact uses_pure _
  refine uses_fallible_bind (uses_lift counts) fun count => ?_
  exact uses_fallible_bind (kmalloc_looks _) fun _ => collectLoop_looks region node _

end Streams

/-! ### Directories -/

section Directories

variable (region : context.From low)

include region

theorem directoryLength_looks (directory : Node) :
    Uses (Looks low) (directoryLength context directory) := by
  unfold directoryLength
  split
  · exact uses_pure _
  · exact uses_bind (chainLength_looks region _ _) fun _ => uses_pure _

theorem readDirectoryBytes_looks (directory : Node) (offset size : Nat) :
    Uses (Looks low) (readDirectoryBytes context directory offset size).run := by
  unfold readDirectoryBytes
  refine uses_fallible_bind (uses_lift (directoryLength_looks region directory)) fun length => ?_
  refine uses_fallible_bind (uses_lift (readStream_looks region _ _ _ _ _)) fun bytes => ?_
  exact uses_fallible_bind uses_guard fun _ => uses_some

theorem scanEntries_looks (directory : Node) (needed : Nat) (offsets : List Nat) :
    ∀ run, Uses (Looks low) (scanEntries context directory needed offsets run).run := by
  induction offsets with
  | nil => exact fun _ => uses_some
  | cons offset rest ih =>
    intro run
    unfold scanEntries
    refine uses_fallible_bind (readDirectoryBytes_looks region directory offset 32) fun entry => ?_
    split
    · dsimp only
      split
      · exact uses_some
      · exact ih _
    · exact ih _

end Directories

end AsasOs.ExFat
