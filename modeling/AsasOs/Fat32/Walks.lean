import AsasOs.Fat32.Operations

/-!
# FAT32: what a walk comes across

A walk over a directory that only reads comes across a list of entries, which the sectors
and links that can be read determine. What the walk finds is found in this list, entry by
entry, whatever the walk is for.
-/
namespace AsasOs.Fat32

open Prog

/-! ### Reading -/

/-- The answers of a volume whose sectors are read and not written. -/
def answer (reads : Nat → Option (List UInt8)) : (op : Fat32Op) → op.Response
  | .read lba => reads lba
  | .readLink lba => reads lba
  | .write _ _ => false
  | .readRun _ _ => none
  | .writeRun _ _ => false
  | .flush => false
  | .kmalloc _ => false
  | .cmos _ => 0
  | .info => noFsinfo
  | .setInfo _ => ()

section Entries

variable (context : Context) (reads : Nat → Option (List UInt8))

/-- The link that `fat32_chain_advance` finds. -/
def linkOf (cluster : Nat) : Option Nat := eval (answer reads) (fat32ChainAdvance context cluster).run

/-- The entries of one sector, with their positions. -/
def sectorEntries (count lba : Nat) (sector : List UInt8) : List (Position × Slot) :=
  (List.range count).map fun e => (⟨lba, 32 * e⟩, slotOf sector e)

/-- The entries of a cluster up to a sector that cannot be read, and whether there is none. -/
def clusterEntries (count cluster : Nat) : List Nat → List (Position × Slot) × Bool
  | [] => ([], true)
  | s :: rest =>
    match reads (context.clusterSector cluster s) with
    | none => ([], false)
    | some sector =>
      let (later, whole) := clusterEntries count cluster rest
      (sectorEntries count (context.clusterSector cluster s) sector ++ later, whole)

/-- The entries that a walk comes across, `count` of every sector. -/
def chainEntries (count : Nat) : Nat → Nat → List (Position × Slot)
  | 0, _ => []
  | hops + 1, current =>
    if context.dataClusterValid current then
      let (entries, whole) := clusterEntries context reads count current
        (List.range context.bpb.sectorsPerCluster)
      if whole then
        match linkOf context reads current with
        | none => entries
        | some next => entries ++ chainEntries count hops next
      else entries
    else []

def dirEntries (count dirCluster : Nat) : List (Position × Slot) :=
  chainEntries context reads count (context.maxCluster - 2) dirCluster

end Entries

/-! ### Walking -/

section Walk

variable {σ ρ : Type} {context : Context} {reads : Nat → Option (List UInt8)}
  {visit : Visit σ ρ} {count : Nat}

/-- What becomes of a state along a list of entries. -/
def visitAll (visit : Visit σ ρ) : List (Position × Slot) → σ → σ ⊕ ρ
  | [], state => .inl state
  | (position, slot) :: rest, state =>
    match visit position slot state with
    | .inl state => visitAll visit rest state
    | .inr result => .inr result

theorem visitAll_append (entries more : List (Position × Slot)) (state : σ) :
    visitAll visit (entries ++ more) state = match visitAll visit entries state with
      | .inl state => visitAll visit more state
      | .inr result => .inr result := by
  induction entries generalizing state with
  | nil => rfl
  | cons entry rest ih =>
    simp only [List.cons_append, visitAll]
    cases visit entry.1 entry.2 state with
    | inl state => exact ih state
    | inr result => rfl

/-- What a walk has found, or the state in which it ends. -/
def Walk.outcome : Walk σ ρ → σ ⊕ ρ
  | .found result _ => .inr result
  | .broken state => .inl state
  | .ended state _ _ => .inl state

theorem visitSlots_eq (lba : Nat) (sector : List UInt8) (indices : List Nat) (state : σ) :
    visitSlots visit lba sector indices state =
      visitAll visit (indices.map fun e => (⟨lba, 32 * e⟩, slotOf sector e)) state := by
  induction indices generalizing state with
  | nil => rfl
  | cons e rest ih =>
    simp only [visitSlots, List.map_cons, visitAll]
    cases visit ⟨lba, 32 * e⟩ (slotOf sector e) state with
    | inl state => exact ih state
    | inr result => rfl

theorem eval_walkSectors (cluster : Nat) (sectors : List Nat) (state : σ) :
    (eval (answer reads) (walkSectors context visit count cluster sectors state)) =
      match visitAll visit (clusterEntries context reads count cluster sectors).1 state with
      | .inr result => .found result cluster
      | .inl state =>
        if (clusterEntries context reads count cluster sectors).2 then .ended state cluster cluster
        else .broken state := by
  induction sectors generalizing state with
  | nil => rfl
  | cons s rest ih =>
    simp only [walkSectors, eval_bind, clusterEntries]
    have read : eval (answer reads) (f32ReadSector (context.clusterSector cluster s)).run =
      reads (context.clusterSector cluster s) := rfl
    rw [read]
    obtain here | ⟨sector, here⟩ := Option.eq_none_or_eq_some (reads (context.clusterSector cluster s))
    · simp only [here, visitAll, eval_pure, Bool.false_eq_true, if_false]
    · simp only [here, visitSlots_eq, sectorEntries, visitAll_append]
      cases visitAll visit ((List.range count).map fun e =>
          (⟨context.clusterSector cluster s, 32 * e⟩, slotOf sector e)) state with
      | inl state => exact ih state
      | inr result => rfl

theorem eval_walkClusters (hops last current : Nat) (state : σ) :
    (eval (answer reads) (walkClusters context visit count hops last current state)).outcome =
      visitAll visit (chainEntries context reads count hops current) state := by
  induction hops generalizing last current state with
  | zero => rfl
  | succ hops ih =>
    rw [walkClusters, chainEntries]
    by_cases valid : context.dataClusterValid current = true
    · simp only [if_pos valid, eval_bind, eval_walkSectors]
      generalize clusterEntries context reads count current _ = entries
      cases found : visitAll visit entries.1 state with
      | inr result =>
        -- the walk stops in this cluster
        simp only [eval_pure, Walk.outcome]
        split
        · split
          · exact found.symm
          · rw [visitAll_append, found]
        · exact found.symm
      | inl state' =>
        by_cases whole : entries.2 = true
        · simp only [if_pos whole, eval_bind]
          have link : eval (answer reads) (fat32ChainAdvance context current).run =
            linkOf context reads current := rfl
          rw [link]
          obtain here | ⟨next, here⟩ := Option.eq_none_or_eq_some (linkOf context reads current)
          · simp only [here, found, eval_pure, Walk.outcome]
          · simp only [here, visitAll_append, found]
            exact ih current next state'
        · simp only [if_neg whole]
          exact found.symm
    · simp only [if_neg valid]
      rfl

theorem eval_walkDir (dirCluster : Nat) (state : σ) :
    (eval (answer reads) (walkDir context visit count dirCluster state)).outcome =
      visitAll visit (dirEntries context reads count dirCluster) state :=
  eval_walkClusters _ _ _ _

end Walk

/-! ### The functions that look at directories -/

section Lookups

variable (context : Context) (reads : Nat → Option (List UInt8)) (dirCluster : Nat)

theorem searchDirChain_eval (component : Text) :
    eval (answer reads) (searchDirChain context dirCluster component).run =
      match visitAll (searchVisit component)
        (dirEntries context reads context.entriesPerSector dirCluster) lfnReset with
      | .inr found => found
      | .inl _ => none := by
  rw [← eval_walkDir, searchDirChain, eval_lift_bind]
  rcases eval (answer reads) (walkDir context (searchVisit component) _ dirCluster lfnReset) with
    ⟨_ | slot, _⟩ | _ | _ <;> rfl

theorem findNamedEntry_eval (name : Text) :
    eval (answer reads) (fat32FindNamedEntry context dirCluster name).run =
      match visitAll (findVisit name) (dirEntries context reads 16 dirCluster) (lfnReset, []) with
      | .inr found => found
      | .inl _ => none := by
  rw [← eval_walkDir, fat32FindNamedEntry, eval_lift_bind]
  rcases eval (answer reads) (walkDir context (findVisit name) _ dirCluster (lfnReset, [])) with
    ⟨_ | located, _⟩ | _ | _ <;> rfl

theorem listDirChain_eval (capacity : Nat) (some_ : 0 < capacity) :
    eval (answer reads) (listDirChain context dirCluster capacity) = match visitAll (listVisit capacity)
        (dirEntries context reads context.entriesPerSector dirCluster) (lfnReset, []) with
      | .inr listing => listing.entries
      | .inl (_, entries) => entries := by
  rw [← eval_walkDir, listDirChain, if_neg (by omega), eval_bind]
  rcases eval (answer reads) (walkDir context (listVisit capacity) _ dirCluster (lfnReset, [])) with
    ⟨⟨_ | _, _⟩, _⟩ | ⟨_, _⟩ | ⟨⟨_, _⟩, _, _⟩ <;> try rfl
  -- a full list still follows a link, for nothing
  simp only [if_true, eval_bind, eval_pure, Walk.outcome]

end Lookups

end AsasOs.Fat32
