import AsasOs.Vfs.RootRouting

/-!
# Mount points

The volume table keeps the first 31 characters of a mount point, and an automatic mount
point is checked only against equal ones. As long as mount points fit the table and none
lies below one that is given automatically, no mount point lies at or below another, and
every path under the mount point of a caller is routed to the caller's volume.
-/
namespace AsasOs.Vfs

open Block CString Trace

/-! ### Paths under a mount point -/

/-- A path is a mount point, or lies under it. -/
def Under (point path : CString) : Prop :=
  point <+: path ∧ (path.length = point.length ∨ path[point.length]? = some '/' ∨ point.getLast? = some '/')

theorem pathHasPrefix_iff {path point : CString} : pathHasPrefix path point = true ↔
    point <+: path ∧ (path.length = point.length ∨ path[point.length]? = some '/') := by
  simp only [pathHasPrefix, Bool.and_eq_true, Bool.or_eq_true, beq_iff_eq, List.isPrefixOf_iff_prefix]

theorem Under.hasPrefix {point path : CString} (under : Under point path)
    (plain : point.getLast? ≠ some '/') : pathHasPrefix path point = true := by
  obtain ⟨before, here⟩ := under
  refine pathHasPrefix_iff.mpr ⟨before, ?_⟩
  rcases here with whole | next | slash
  · exact Or.inl whole
  · exact Or.inr next
  · exact absurd slash plain

theorem pathHasPrefix_nested {path point other : CString} (here : pathHasPrefix path point = true)
    (there : pathHasPrefix path other = true) (shorter : point.length ≤ other.length) :
    pathHasPrefix other point = true := by
  obtain ⟨before, boundary⟩ := pathHasPrefix_iff.mp here
  obtain ⟨before', _⟩ := pathHasPrefix_iff.mp there
  have nested := List.prefix_of_prefix_length_le before before' shorter
  refine pathHasPrefix_iff.mpr ⟨nested, ?_⟩
  rcases Nat.eq_or_lt_of_le shorter with same | longer
  · exact Or.inl same.symm
  · right
    obtain ⟨rest, rfl⟩ := before'
    rcases boundary with whole | next
    · rw [List.length_append] at whole
      omega
    · rwa [List.getElem?_append_left longer] at next

theorem pathHasPrefix_self (path : CString) : pathHasPrefix path path = true :=
  pathHasPrefix_iff.mpr ⟨List.prefix_refl path, Or.inl rfl⟩

theorem Under.above {point path other : CString} (under : Under point path)
    (nested : pathHasPrefix point other = true) (plain : other.getLast? ≠ some '/') :
    pathHasPrefix path other = true := by
  obtain ⟨before, boundary⟩ := pathHasPrefix_iff.mp nested
  by_cases same : point.length = other.length
  · have := before.eq_of_length same.symm
    subst this
    exact under.hasPrefix plain
  · have next : point[other.length]? = some '/' := boundary.resolve_left same
    have longer : other.length < point.length := by
      have := before.length_le
      omega
    obtain ⟨rest, rfl⟩ := under.1
    refine pathHasPrefix_iff.mpr ⟨before.trans (List.prefix_append _ _), Or.inr ?_⟩
    rw [List.getElem?_append_left longer]
    exact next

theorem pathHasPrefix_trans {path point other : CString} (here : pathHasPrefix path point = true)
    (there : pathHasPrefix point other = true) : pathHasPrefix path other = true := by
  obtain ⟨before, boundary⟩ := pathHasPrefix_iff.mp here
  obtain ⟨before', boundary'⟩ := pathHasPrefix_iff.mp there
  refine pathHasPrefix_iff.mpr ⟨before'.trans before, ?_⟩
  obtain ⟨rest, rfl⟩ := before
  rcases boundary' with whole | next
  · rw [← whole]
    exact boundary
  · right
    have longer : other.length < point.length := by
      by_contra short
      rw [List.getElem?_eq_none (by omega)] at next
      cases next
    rwa [List.getElem?_append_left longer]

/-! ### The mount points of the tables -/

/-- A mount point as it should be in the table. -/
structure Proper (point : CString) : Prop where
  fits : point.length < 32
  plain : point.getLast? ≠ some '/'
  nonempty : point ≠ []
  notMedia : point ≠ mediaPath

/-- The mount points of the volumes are proper, and none lies at or under another. -/
structure Tables.PointsApart (t : Tables) : Prop where
  proper : ∀ i point m, t.volumes i = some (point, m) → Proper point
  apart : ∀ i j point other m m', t.volumes i = some (point, m) → t.volumes j = some (other, m') →
    i ≠ j → pathHasPrefix point other = false

/-- No mount point lies below one that is given automatically, nor, when the entry of the
system volume is free, at or below its mount point. -/
def Tables.Clear (t : Tables) : Prop :=
  ∀ i point m, t.volumes i = some (point, m) →
    (∀ auto ∈ autoPoints, pathHasPrefix point auto = true → point = auto) ∧
      (t.volumes firstVolume = none → pathHasPrefix point systemPath = false)

theorem autoPoints_slashes : ∀ auto ∈ systemPath :: autoPoints, ∀ length < 32,
    auto[length]? = some '/' → length = 0 ∨ auto.take length = mediaPath := by
  decide

theorem autoPoints_apart : ∀ auto ∈ systemPath :: autoPoints, ∀ other ∈ autoPoints,
    pathHasPrefix auto other = true → auto = other := by
  decide

theorem autoPoints_plain : ∀ auto ∈ systemPath :: autoPoints,
    auto.getLast? ≠ some '/' ∧ auto ≠ [] ∧ auto ≠ mediaPath := by
  decide

theorem autoPoints_proper {auto : CString} (member : auto ∈ systemPath :: autoPoints) : Proper auto := by
  obtain ⟨plain, nonempty, notMedia⟩ := autoPoints_plain auto member
  exact ⟨autoPoints_fit auto member, plain, nonempty, notMedia⟩

theorem above_auto {auto point : CString} (member : auto ∈ systemPath :: autoPoints)
    (proper : Proper point) (above : pathHasPrefix auto point = true) : point = auto := by
  obtain ⟨before, boundary⟩ := pathHasPrefix_iff.mp above
  have part : auto.take point.length = point := (List.prefix_iff_eq_take.mp before).symm
  rcases boundary with whole | next
  · exact before.eq_of_length whole.symm
  · rcases autoPoints_slashes auto member point.length proper.fits next with empty | media
    · exact absurd (List.length_eq_zero_iff.mp empty) proper.nonempty
    · exact absurd (part.symm.trans media) proper.notMedia

namespace Tables

variable {t : Tables} {m : MountId}

theorem PointsApart.enter (apart : t.PointsApart) {i : VolumeId} {point : CString}
    (proper : Proper point)
    (clear : ∀ j other m', t.volumes j = some (other, m') →
      pathHasPrefix point other = false ∧ pathHasPrefix other point = false) :
    (t.apply (.enter i point m)).PointsApart := by
  refine ⟨?_, ?_⟩
  · intro j other m' here
    simp only [apply] at here
    by_cases same : j = i
    · subst same
      rw [Function.update_self] at here
      cases here
      exact proper
    · rw [Function.update_of_ne same] at here
      exact apart.proper j other m' here
  · intro j k a b m' m'' herej herek different
    simp only [apply] at herej herek
    by_cases samej : j = i <;> by_cases samek : k = i
    · rw [samej, samek] at different
      exact absurd rfl different
    · subst samej
      rw [Function.update_self] at herej
      rw [Function.update_of_ne samek] at herek
      cases herej
      exact (clear k b m'' herek).1
    · subst samek
      rw [Function.update_self] at herek
      rw [Function.update_of_ne samej] at herej
      cases herek
      exact (clear j a m' herej).2
    · rw [Function.update_of_ne samej] at herej
      rw [Function.update_of_ne samek] at herek
      exact apart.apart j k a b m' m'' herej herek different

theorem PointsApart.leave (apart : t.PointsApart) (i : VolumeId) (m : MountId) :
    (t.apply (.leave i m)).PointsApart := by
  have kept : ∀ j point m', (t.apply (.leave i m)).volumes j = some (point, m') →
      t.volumes j = some (point, m') := by
    intro j point m' here
    simp only [apply] at here
    by_cases same : j = i
    · subst same
      rw [Function.update_self] at here
      cases here
    · rwa [Function.update_of_ne same] at here
  exact ⟨fun j point m' here => apart.proper j point m' (kept j point m' here),
    fun j k a b m' m'' herej herek => apart.apart j k a b m' m'' (kept _ _ _ herej) (kept _ _ _ herek)⟩

theorem Clear.auto (clear : t.Clear) (apart : t.PointsApart) {i : VolumeId} {auto : CString}
    (free : t.volumes i = none) (chosen : AutoPoint t i auto) :
    ∀ j other m', t.volumes j = some (other, m') →
      pathHasPrefix auto other = false ∧ pathHasPrefix other auto = false := by
  intro j other m' here
  have proper := apart.proper j other m' here
  unfold AutoPoint at chosen
  split at chosen
  · rename_i first
    have isFirst : i = firstVolume := Fin.ext first
    subst isFirst
    subst chosen
    have below := (clear j other m' here).2 free
    refine ⟨?_, below⟩
    by_contra above
    have same := above_auto List.mem_cons_self proper (Bool.not_eq_false _ ▸ above)
    rw [same] at below
    revert below
    decide
  · obtain ⟨member, unused⟩ := chosen
    refine ⟨?_, ?_⟩
    · by_contra above
      have same := above_auto (List.mem_cons_of_mem _ member) proper
        (Bool.not_eq_false _ ▸ above)
      exact unused j m' (same ▸ here)
    · by_contra below
      have same := (clear j other m' here).1 auto member (Bool.not_eq_false _ ▸ below)
      exact unused j m' (same ▸ here)

theorem Clear.enter (clear : t.Clear) {i : VolumeId} {auto : CString} (enters : t.Enters i m)
    (chosen : AutoPoint t i auto) : (t.apply (.enter i auto m)).Clear := by
  have member : auto ∈ systemPath :: autoPoints := by
    unfold AutoPoint at chosen
    split at chosen
    · rw [chosen]
      exact List.mem_cons_self
    · exact List.mem_cons_of_mem _ chosen.1
  -- the first entry is in use from here on
  have present : (t.apply (.enter i auto m)).volumes firstVolume ≠ none := by
    simp only [apply]
    by_cases same : firstVolume = i
    · rw [same, Function.update_self]
      exact Option.some_ne_none _
    · rw [Function.update_of_ne same]
      apply enters.first
      rw [Fin.lt_def]
      have other : i.val ≠ 0 := fun zero => same (Fin.ext zero.symm)
      exact Nat.pos_of_ne_zero other
  intro j point m' here
  refine ⟨?_, fun free => absurd free present⟩
  simp only [apply] at here
  by_cases same : j = i
  · subst same
    rw [Function.update_self] at here
    cases here
    exact autoPoints_apart auto member
  · rw [Function.update_of_ne same] at here
    exact (clear j point m' here).1

/-! ### What moves -/

/-- Volumes that were there are still there or had a mount point that is `gone`, and those
that were not have one that is `new`. -/
structure Moves (gone new : CString → Prop) (t t' : Tables) : Prop where
  kept : ∀ i point m, t.volumes i = some (point, m) → t'.volumes i = some (point, m) ∨ gone point
  added : ∀ i point m, t'.volumes i = some (point, m) → t.volumes i = some (point, m) ∨ new point

def EventMoves (gone new : CString → Prop) (t : Tables) : TableEvent → Prop
  | .enter i point _ => t.volumes i = none ∧ new point
  | .leave i m => ∃ point, t.volumes i = some (point, m) ∧ gone point
  | _ => True

theorem Moves.of_reaches {gone new : CString → Prop} {t t' : Tables}
    (reaches : Reaches apply (EventMoves gone new) t t') : Moves gone new t t' := by
  have event : ∀ (u : Tables) e, Moves gone new t u → EventMoves gone new u e →
      Moves gone new t (u.apply e) := by
    intro u e moves allowed
    cases e with
    | enter i stored m =>
      obtain ⟨free, isNew⟩ := allowed
      constructor
      · intro j point m' here
        by_cases same : j = i
        · subst same
          rcases moves.kept j point m' here with there | isGone
          · rw [free] at there
            cases there
          · exact Or.inr isGone
        · simp only [apply, Function.update_of_ne same]
          exact moves.kept j point m' here
      · intro j point m' here
        simp only [apply] at here
        by_cases same : j = i
        · subst same
          rw [Function.update_self] at here
          cases here
          exact Or.inr isNew
        · rw [Function.update_of_ne same] at here
          exact moves.added j point m' here
    | leave i m =>
      obtain ⟨left, there, isGone⟩ := allowed
      constructor
      · intro j point m' here
        by_cases same : j = i
        · subst same
          rcases moves.kept j point m' here with here' | already
          · rw [there] at here'
            cases here'
            exact Or.inr isGone
          · exact Or.inr already
        · simp only [apply, Function.update_of_ne same]
          exact moves.kept j point m' here
      · intro j point m' here
        simp only [apply] at here
        by_cases same : j = i
        · subst same
          rw [Function.update_self] at here
          cases here
        · rw [Function.update_of_ne same] at here
          exact moves.added j point m' here
    | find _ => exact ⟨moves.kept, moves.added⟩
    | mount _ _ _ => exact ⟨moves.kept, moves.added⟩
    | unmount _ => exact ⟨moves.kept, moves.added⟩
  exact reaches.preserves event ⟨fun _ _ _ here => Or.inl here, fun _ _ _ here => Or.inl here⟩

end Tables

/-! ### The operations on the tables -/

section Operations

variable {t t' : Tables}

theorem auto_moves (reaches : Reaches Tables.apply AutoAllowed t t') :
    Tables.Moves (fun _ => False) (fun _ => True) t t' := by
  refine .of_reaches (reaches.mono fun u e allowed => ?_)
  cases e with
  | enter i point m => exact ⟨allowed.1.free, trivial⟩
  | leave _ _ => exact allowed.elim
  | _ => trivial

variable {point : CString}

theorem explicit_moves {ids : Nat → Prop}
    (reaches : Reaches Tables.apply (ExplicitAllowed ids point) t t') :
    Tables.Moves (fun _ => False) (fun stored => stored = copyString point 32) t t' := by
  refine .of_reaches (reaches.mono fun u e allowed => ?_)
  cases e with
  | enter i stored m => exact ⟨allowed.1.free, allowed.2.1⟩
  | leave _ _ => exact allowed.elim
  | _ => trivial

theorem leave_moves {which : VolumeId → CString → Prop}
    (reaches : Reaches Tables.apply (LeaveAllowed which) t t') :
    Tables.Moves (fun _ => True) (fun _ => False) t t' := by
  refine .of_reaches (reaches.mono fun u e allowed => ?_)
  cases e with
  | leave i m =>
    obtain ⟨point, here, _⟩ := allowed
    exact ⟨point, here, trivial⟩
  | enter _ _ _ => exact allowed.elim
  | _ => trivial

theorem remount_moves {ids : Nat → Prop}
    (reaches : Reaches Tables.apply (RemountAllowed ids point) t t') :
    Tables.Moves (fun left => left = point)
      (fun stored => stored = copyString point 32 ∧ ∃ id, ids id) t t' := by
  refine .of_reaches (reaches.mono fun u e allowed => ?_)
  cases e with
  | enter i stored m =>
    rcases allowed with impossible | allowed
    · exact impossible.elim
    · exact ⟨allowed.1.free, allowed.2.1, allowed.2.2.2⟩
  | leave i m =>
    rcases allowed with ⟨left, here, same, _⟩ | impossible
    · exact ⟨left, here, same⟩
    · exact impossible.elim
  | _ => trivial

theorem auto_points (reaches : Reaches Tables.apply AutoAllowed t t') (apart : t.PointsApart)
    (clear : t.Clear) : t'.PointsApart := by
  have event : ∀ (t : Tables) e, (t.PointsApart ∧ t.Clear) → AutoAllowed t e →
      (t.apply e).PointsApart ∧ (t.apply e).Clear := by
    rintro t e ⟨apart, clear⟩ allowed
    cases e with
    | mount m id generation => exact ⟨⟨apart.proper, apart.apart⟩, clear⟩
    | unmount m => exact ⟨⟨apart.proper, apart.apart⟩, clear⟩
    | enter i point m =>
      obtain ⟨enters, chosen⟩ := allowed
      have member : point ∈ systemPath :: autoPoints := by
        unfold AutoPoint at chosen
        split at chosen
        · rw [chosen]
          exact List.mem_cons_self
        · exact List.mem_cons_of_mem _ chosen.1
      exact ⟨apart.enter (autoPoints_proper member) (clear.auto apart enters.free chosen),
        clear.enter enters chosen⟩
    | find _ => exact allowed.elim
    | leave _ _ => exact allowed.elim
  exact (reaches.preserves event ⟨apart, clear⟩).1

/-- A mount point whose copy in the table is the mount point itself or lies above it. -/
structure Kept (point : CString) : Prop where
  above : pathHasPrefix point (copyString point 32) = true
  plain : (copyString point 32).getLast? ≠ some '/'

theorem Proper.kept (proper : Proper point) : Kept point := by
  have whole := copyString_of_fits proper.fits
  constructor
  · rw [whole]
    exact pathHasPrefix_self point
  · rw [whole]
    exact proper.plain

theorem Kept.enter (kept : Kept point) (apart : t.PointsApart) (accepts : Accepts t point) :
    Proper (copyString point 32) ∧ ∀ i other m, t.volumes i = some (other, m) →
      pathHasPrefix (copyString point 32) other = false ∧
        pathHasPrefix other (copyString point 32) = false := by
  -- a copy that is shorter than 31 characters is the mount point itself
  have whole (short : (copyString point 32).length < 31) : copyString point 32 = point := by
    rw [copyString, List.length_take] at short
    exact copyString_of_fits (by omega)
  have fits : (copyString point 32).length < 32 := by
    rw [copyString, List.length_take]
    omega
  constructor
  · refine ⟨fits, kept.plain, ?_, ?_⟩
    · intro empty
      have absolute := accepts.absolute
      rw [← whole (by rw [empty]; decide), empty] at absolute
      cases absolute
    · intro media
      apply accepts.proper.2
      rw [← whole (by rw [media]; decide)]
      exact media
  · intro i other m here
    obtain ⟨notUnder, notAbove⟩ := accepts.apart i other m here
    constructor
    · by_contra under
      rw [pathHasPrefix_trans kept.above (Bool.not_eq_false _ ▸ under)] at notUnder
      cases notUnder
    · by_contra below
      have below := Bool.not_eq_false _ ▸ below
      obtain ⟨before, _⟩ := pathHasPrefix_iff.mp below
      by_cases short : (copyString point 32).length < 31
      · rw [whole short] at below
        rw [below] at notAbove
        cases notAbove
      · -- both fill the table's entry, and so are the same
        have same : copyString point 32 = other := by
          apply before.eq_of_length
          have shorter := before.length_le
          have := (apart.proper i other m here).fits
          omega
        rw [← same, kept.above] at notUnder
        cases notUnder

theorem remount_points {ids : Nat → Prop}
    (reaches : Reaches Tables.apply (RemountAllowed ids point) t t')
    (kept : (∃ id, ids id) → Kept point) (apart : t.PointsApart) : t'.PointsApart := by
  have event : ∀ (t : Tables) e, t.PointsApart → RemountAllowed ids point t e →
      (t.apply e).PointsApart := by
    intro t e apart allowed
    cases e with
    | enter i stored m =>
      rcases allowed with impossible | ⟨_, rfl, accepts, known⟩
      · exact impossible.elim
      · obtain ⟨proper, clear⟩ := (kept known).enter apart accepts
        exact apart.enter proper clear
    | leave i m => exact apart.leave i m
    | find _ => exact ⟨apart.proper, apart.apart⟩
    | mount _ _ _ => exact ⟨apart.proper, apart.apart⟩
    | unmount _ => exact ⟨apart.proper, apart.apart⟩
  exact reaches.preserves event apart

theorem leave_points {which : VolumeId → CString → Prop}
    (reaches : Reaches Tables.apply (LeaveAllowed which) t t') (apart : t.PointsApart) :
    t'.PointsApart := by
  have event : ∀ (t : Tables) e, t.PointsApart → LeaveAllowed which t e →
      (t.apply e).PointsApart := by
    intro t e apart allowed
    cases e with
    | leave i m => exact apart.leave i m
    | _ => exact allowed.elim
  exact reaches.preserves event apart

end Operations

/-! ### Runs -/

section Runs

variable {W C : Type} {drivers : Drivers W C}

/-- A run, and the path with which the caller mounted each volume. -/
structure MountedRun (W C : Type) where
  run : Run W C
  callers : VolumeId → Option CString

/-- The mount point that an operation is called with. -/
def VfsOp.point : VfsOp W → Option CString
  | .mountDevice _ point _ => some point
  | .remount point _ => some point
  | _ => none

/-- The entry of the volume table is filled by the operation, if it is in use after it. -/
def enteredBy (s : VfsState W C) (op : VfsOp W) (i : VolumeId) : Bool :=
  (s.mounts i).isNone ||
    match op with
    | .remount point _ => volumeAt s point == some i
    | _ => false

def callersAfter (s s' : VfsState W C) (op : VfsOp W) (callers : VolumeId → Option CString)
    (i : VolumeId) : Option CString :=
  if (s'.mounts i).isNone then none
  else if enteredBy s op i then op.point
  else callers i

def mountedStep (drivers : Drivers W C) (mounted : MountedRun W C) (op : VfsOp W) : MountedRun W C :=
  let run := vfsStep drivers mounted.run op
  ⟨run, callersAfter mounted.run.vfs run.vfs op mounted.callers⟩

@[simp]
theorem mountedStep_run (mounted : MountedRun W C) (op : VfsOp W) :
    (mountedStep drivers mounted op).run = vfsStep drivers mounted.run op := rfl

/-- What should hold of the mount points of a state. -/
structure Routing (drivers : Drivers W C) (s : VfsState W C)
    (callers : VolumeId → Option CString) : Prop where
  /-- no mount point of a valid volume is, or lies under, that of another -/
  apart : ∀ i j, i ≠ j → i.val < s.volumeCount → (s.volumes i).valid = true →
    j.val < s.volumeCount → (s.volumes j).valid = true →
    pathHasPrefix (s.volumes i).mountPoint (s.volumes j).mountPoint = false
  /-- a path under the path of the caller is routed to the caller's volume -/
  routed : ∀ i point, callers i = some point → ∀ path, Under point path → (volumeForPath s path).1 = some i
  /-- a mount that succeeds has a volume -/
  entered : ∀ name point flags, (vfsMountDevice drivers s name point flags).1 = true →
    ∃ i, callersAfter s (vfsMountDevice drivers s name point flags).2
      (.mountDevice name point flags) callers i = some point

/-- A step that mounts at a mount point of which the table keeps enough, and a rescan that
finds no mount point below the automatic ones. -/
def KeepsRouting (s : VfsState W C) : VfsOp W → Prop
  | .mountDevice _ point _ => Kept point
  | .rescan _ _ _ => s.tables.Clear
  | _ => True

def AllKeepRouting (drivers : Drivers W C) (mounted : MountedRun W C) : List (VfsOp W) → Prop
  | [] => True
  | op :: rest =>
    KeepsRouting mounted.run.vfs op ∧ AllKeepRouting drivers (mountedStep drivers mounted op) rest

variable {s : VfsState W C}

theorem Tables.PointsApart.routed (apart : s.tables.PointsApart)
    (inv : TableInv s) {i : VolumeId} {point path : CString} {m : MountId}
    (here : s.tables.volumes i = some (point, m)) (above : pathHasPrefix path point = true) :
    (volumeForPath s path).1 = some i := by
  have matching : Matches s path i := by
    have used : i.val < s.volumeCount ∧ (s.volumes i).valid = true := by
      rw [inUse_iff inv, here]
      exact Option.some_ne_none _
    obtain ⟨_, rfl⟩ := tables_volumes.mp here
    exact ⟨used.1, used.2, List.length_pos_iff.mpr (apart.proper i _ m here).nonempty, above⟩
  cases best : bestVolume s path (List.finRange VFS_MAX_VOLUMES) none 0 with
  | none => exact absurd matching (bestVolume_none _ best i (List.mem_finRange i))
  | some j =>
    obtain ⟨bound, valid, _, above'⟩ :=
      (bestVolume_some _ _ _ best).resolve_left (Option.some_ne_none j).symm
    obtain ⟨⟨other, m'⟩, there⟩ :=
      Option.ne_none_iff_exists'.mp ((inUse_iff inv j).mp ⟨bound, valid⟩)
    obtain ⟨_, rfl⟩ := tables_volumes.mp there
    -- two mount points above one path lie above each other
    have same : i = j := by
      by_contra different
      rcases Nat.le_total point.length (s.volumes j).mountPoint.length with shorter | shorter
      · have nested := pathHasPrefix_nested above above' shorter
        rw [apart.apart j i _ _ m' m there here fun other => different other.symm] at nested
        cases nested
      · have nested := pathHasPrefix_nested above' above shorter
        rw [apart.apart i j _ _ m m' here there different] at nested
        cases nested
    simp only [volumeForPath, selectVolumeForPath, best, same]

/-- The mount point of each volume of a caller is the caller's path or lies above it. -/
def CallersKept (t : Tables) (callers : VolumeId → Option CString) : Prop :=
  ∀ i path, callers i = some path → ∃ point m, t.volumes i = some (point, m) ∧ pathHasPrefix path point = true

theorem CallersKept.step {s s' : VfsState W C} {op : VfsOp W}
    {callers : VolumeId → Option CString} (kept : CallersKept s.tables callers)
    (entered : ∀ i path point m, s'.tables.volumes i = some (point, m) →
      enteredBy s op i = true → op.point = some path → pathHasPrefix path point = true)
    (stayed : ∀ i point m point' m', s.tables.volumes i = some (point, m) →
      s'.tables.volumes i = some (point', m') → enteredBy s op i = false → point' = point) :
    CallersKept s'.tables (callersAfter s s' op callers) := by
  intro i path called
  unfold callersAfter at called
  split at called
  · cases called
  · rename_i present
    have owned : s'.tables.volumes i ≠ none := by
      rw [ne_eq, tables_volumes_none]
      intro missing
      rw [missing] at present
      exact present rfl
    obtain ⟨⟨point, m⟩, here⟩ := Option.ne_none_iff_exists'.mp owned
    refine ⟨point, m, here, ?_⟩
    split at called
    · rename_i fresh
      exact entered i path point m here fresh called
    · rename_i old
      obtain ⟨point', m', there, above⟩ := kept i path called
      rw [stayed i point' m' point m there here (Bool.not_eq_true _ ▸ old)]
      exact above

theorem enteredBy_free {op : VfsOp W} {i : VolumeId}
    (fresh : enteredBy s op i = true) (other : ∀ point flags, op ≠ .remount point flags) :
    s.tables.volumes i = none := by
  rw [tables_volumes_none]
  unfold enteredBy at fresh
  rcases Bool.or_eq_true_iff.mp fresh with free | again
  · exact Option.isNone_iff_eq_none.mp free
  · split at again
    · rename_i point flags
      exact absurd rfl (other point flags)
    · cases again

theorem volumeAt_entry (inv : TableInv s) {point : CString} {i : VolumeId}
    (found : volumeAt s point = some i) : ∃ m, s.tables.volumes i = some (point, m) := by
  have named := List.find?_some found
  simp only [Bool.and_eq_true, beq_iff_eq, decide_eq_true_eq] at named
  obtain ⟨⟨other, m⟩, here⟩ := Option.ne_none_iff_exists'.mp ((inUse_iff inv i).mp named.1)
  obtain ⟨owned, rfl⟩ := tables_volumes.mp here
  exact ⟨m, tables_volumes.mpr ⟨owned, named.2⟩⟩

theorem volumeAt_of_entry (inv : TableInv s) (apart : s.tables.PointsApart)
    {point : CString} {i : VolumeId} {m : MountId}
    (here : s.tables.volumes i = some (point, m)) : volumeAt s point = some i := by
  cases found : volumeAt s point with
  | none =>
    have used : i.val < s.volumeCount ∧ (s.volumes i).valid = true := by
      rw [inUse_iff inv, here]
      exact Option.some_ne_none _
    obtain ⟨_, same⟩ := tables_volumes.mp here
    have missing := List.find?_eq_none.mp found i (List.mem_finRange i)
    rw [same] at missing
    simp [used.1, used.2] at missing
  | some j =>
    obtain ⟨m', there⟩ := volumeAt_entry inv found
    by_contra different
    have distinct : i ≠ j := by
      rintro rfl
      exact different rfl
    have nested := apart.apart i j point point m m' here there distinct
    rw [pathHasPrefix_self] at nested
    cases nested

/-- What holds of the tables and the callers between the operations. -/
structure PointsInv (mounted : MountedRun W C) : Prop where
  run : RunInv mounted.run
  apart : mounted.run.vfs.tables.PointsApart
  kept : CallersKept mounted.run.vfs.tables mounted.callers

namespace PointsInv

variable {mounted : MountedRun W C}

theorem quiet (inv : PointsInv mounted) (op : VfsOp W)
    (same : (vfsStep drivers mounted.run op).vfs.tables = mounted.run.vfs.tables)
    (other : ∀ point flags, op ≠ .remount point flags) :
    PointsInv (mountedStep drivers mounted op) := by
  refine ⟨inv.run.step op, ?_, ?_⟩
  · change (vfsStep drivers mounted.run op).vfs.tables.PointsApart
    rw [same]
    exact inv.apart
  · refine inv.kept.step ?_ ?_
    · intro i path point m here fresh _
      rw [mountedStep_run, same, enteredBy_free fresh other] at here
      cases here
    · intro i point m point' m' here there _
      rw [mountedStep_run, same, here] at there
      cases there
      rfl

theorem moved (inv : PointsInv mounted) (op : VfsOp W) {gone new : CString → Prop}
    (other : ∀ point flags, op ≠ .remount point flags)
    (apart : (vfsStep drivers mounted.run op).vfs.tables.PointsApart)
    (moves : Tables.Moves gone new mounted.run.vfs.tables (vfsStep drivers mounted.run op).vfs.tables)
    (entered : ∀ path point, op.point = some path → new point → pathHasPrefix path point = true)
    (either : (∀ point, ¬gone point) ∨ ∀ point, ¬new point) :
    PointsInv (mountedStep drivers mounted op) := by
  refine ⟨inv.run.step op, apart, inv.kept.step ?_ ?_⟩
  · intro i path point m here fresh called
    rcases moves.added i point m here with there | isNew
    · rw [enteredBy_free fresh other] at there
      cases there
    · exact entered path point called isNew
  · intro i point m point' m' here there _
    rcases either with stays | plain
    · have there' := (moves.kept i point m here).resolve_right (stays point)
      rw [mountedStep_run, there'] at there
      cases there
      rfl
    · have here' := (moves.added i point' m' there).resolve_right (plain point')
      rw [here] at here'
      cases here'
      rfl

theorem remount (inv : PointsInv mounted) (point : CString) (flags : UInt32) :
    PointsInv (mountedStep drivers mounted (.remount point flags)) := by
  have table := inv.run.table
  have reaches := @vfsRemount_reaches W C drivers mounted.run.vfs table point flags
  have moves := remount_moves reaches
  -- a mount point that is found in the table fits it
  have proper : ∀ i, volumeAt mounted.run.vfs point = some i → Proper point := by
    intro i found
    obtain ⟨m, here⟩ := volumeAt_entry table found
    exact inv.apart.proper i point m here
  refine ⟨inv.run.step (.remount point flags), ?_, inv.kept.step ?_ ?_⟩
  · refine remount_points reaches ?_ inv.apart
    rintro ⟨id, i, found, _⟩
    exact (proper i found).kept
  · intro i path stored m here fresh called
    cases called
    rcases moves.added i stored m here with there | ⟨rfl, _, j, found, _⟩
    · -- the volume was at the mount point already
      rcases Bool.or_eq_true_iff.mp fresh with free | again
      · rw [tables_volumes_none.mpr (Option.isNone_iff_eq_none.mp free)] at there
        cases there
      · obtain ⟨m', here'⟩ := volumeAt_entry table (eq_of_beq again)
        rw [here'] at there
        cases there
        exact pathHasPrefix_self point
    · exact (proper j found).kept.above
  · intro i other m other' m' here there old
    rcases moves.kept i other m here with stays | rfl
    · change (vfsRemount drivers mounted.run.vfs point flags).2.tables.volumes i = _ at there
      rw [stays] at there
      cases there
      rfl
    · have again : enteredBy mounted.run.vfs (.remount other flags : VfsOp W) i = true := by
        have found := volumeAt_of_entry table inv.apart here
        simp only [enteredBy, found, beq_self_eq_true, Bool.or_true]
      rw [again] at old
      cases old

theorem step (inv : PointsInv mounted) (op : VfsOp W) (keeps : KeepsRouting mounted.run.vfs op) :
    PointsInv (mountedStep drivers mounted op) := by
  have table := inv.run.table
  cases op with
  | openFile path =>
    refine inv.quiet _ ?_ fun _ _ other => by cases other
    have same := @vfsOpen_tables W C drivers mounted.run.vfs path
    simp only [vfsStep]
    split <;> exact same
  | read handle size =>
    exact inv.quiet _ (vfsRead_tables mounted.run.vfs handle size) fun _ _ other => by cases other
  | close handle =>
    exact inv.quiet _ (vfsClose_tables mounted.run.vfs handle) fun _ _ other => by cases other
  | external world => exact inv.quiet _ rfl fun _ _ other => by cases other
  | unmount point =>
    have reaches := @vfsUnmount_reaches W C drivers mounted.run.vfs point
    exact inv.moved _ (fun _ _ other => by cases other) (leave_points reaches inv.apart)
      (leave_moves reaches) (fun _ _ _ impossible => impossible.elim) (Or.inr fun _ here => here)
  | removeDevice name =>
    have reaches := @vfsHandleDeviceRemoved_reaches W C drivers mounted.run.vfs name
    exact inv.moved _ (fun _ _ other => by cases other) (leave_points reaches inv.apart)
      (leave_moves reaches) (fun _ _ _ impossible => impossible.elim) (Or.inr fun _ here => here)
  | mountDevice name point flags =>
    have reaches := @vfsMountDevice_reaches W C drivers mounted.run.vfs table name point flags
    refine inv.moved _ (fun _ _ other => by cases other) ?_ (explicit_moves reaches) ?_
      (Or.inl fun _ here => here)
    · exact remount_points (reaches.mono fun _ _ here => Or.inr here) (fun _ => keeps) inv.apart
    · rintro path point' called rfl
      cases called
      exact keeps.above
  | remount point flags => exact inv.remount point flags
  | rescan devices partitions world =>
    have reaches := @vfsMountAllVolumes_reaches W C drivers _
      (show TableInv { mounted.run.vfs with
        devices := mounted.run.vfs.devices ++ devices
        partitions := mounted.run.vfs.partitions ++ partitions
        fs := { mounted.run.vfs.fs with world := world } } from
        ⟨table.owned, table.unique, table.mounted⟩)
    have moves := auto_moves reaches
    refine inv.moved _ (fun _ _ other => by cases other) ?_ ⟨moves.kept, moves.added⟩
      (fun _ _ called _ => by cases called) (Or.inl fun _ here => here)
    exact auto_points reaches ⟨inv.apart.proper, inv.apart.apart⟩ keeps

end PointsInv

theorem vfsMountDevice_entered {s s' : VfsState W C} (inv : TableInv s) {name point : CString}
    {flags : UInt32} (mounted : vfsMountDevice drivers s name point flags = (true, s')) :
    ∃ i m, s.mounts i = none ∧ s'.mounts i = some m := by
  unfold vfsMountDevice at mounted
  split at mounted
  · cases mounted
  · split at mounted
    · cases mounted
    · split at mounted
      · cases mounted
      · split at mounted
        · cases mounted
        · split at mounted
          · cases mounted
          · rename_i driver t probed
            have inv' := (probe_evolves probed).table inv
            obtain ⟨world, rfl⟩ := probe_world probed
            split at mounted
            · cases mounted
            · rename_i m u filled
              have inv'' := (mountFilesystem_evolves filled).table inv'
              obtain ⟨fs, rfl, _⟩ := mountFilesystem_cases filled
              split at mounted
              · cases mounted
              · rename_i i free
                cases mounted
                refine ⟨i, m, freeVolume_none inv'' free, ?_⟩
                simp only [VfsState.addVolume, Function.update_self]

theorem PointsInv.routing {mounted : MountedRun W C} (inv : PointsInv mounted) :
    Routing drivers mounted.run.vfs mounted.callers where
  apart := by
    intro i j different boundi validi boundj validj
    have table := inv.run.table
    have mountedi := table.mounted i validi
    have mountedj := table.mounted j validj
    obtain ⟨m, ownedi⟩ := Option.isSome_iff_exists.mp mountedi
    obtain ⟨m', ownedj⟩ := Option.isSome_iff_exists.mp mountedj
    exact inv.apart.apart i j _ _ m m' (tables_volumes.mpr ⟨ownedi, rfl⟩)
      (tables_volumes.mpr ⟨ownedj, rfl⟩) different
  routed := by
    intro i point called path under
    obtain ⟨stored, m, here, above⟩ := inv.kept i point called
    exact inv.apart.routed inv.run.table here
      (under.above above (inv.apart.proper i stored m here).plain)
  entered := by
    intro name point flags succeeded
    rcases done : vfsMountDevice drivers mounted.run.vfs name point flags with ⟨ok, s'⟩
    rw [done] at succeeded
    cases succeeded
    obtain ⟨i, m, free, owned⟩ := vfsMountDevice_entered inv.run.table done
    refine ⟨i, ?_⟩
    simp only [callersAfter, enteredBy, owned, free, Option.isNone_some, Option.isNone_none,
      Bool.true_or, Bool.false_eq_true, if_false, if_true, VfsOp.point]

/-- The run from the boot, in which no volume has a caller yet. -/
def mountedRun (drivers : Drivers W C) (devices : List Device) (partitions : List PartitionInfo)
    (world : W) : MountedRun W C :=
  ⟨initialRun drivers devices partitions world, fun _ => none⟩

/-- In every run that mounts only where the table keeps enough of the mount point, and
rescans only while no mount point lies below an automatic one, no mount point of a volume
lies at or under another, and every path under the path of a caller is routed to the
caller's volume, until it is unmounted. -/
theorem mounts_routed (drivers : Drivers W C) (devices : List Device)
    (partitions : List PartitionInfo) (world : W) (ops : List (VfsOp W))
    (keeps : AllKeepRouting drivers (mountedRun drivers devices partitions world) ops) :
    Routing drivers (ops.foldl (mountedStep drivers) (mountedRun drivers devices partitions world)).run.vfs
      (ops.foldl (mountedStep drivers) (mountedRun drivers devices partitions world)).callers := by
  have runs : ∀ (ops : List (VfsOp W)) (mounted : MountedRun W C), PointsInv mounted →
      AllKeepRouting drivers mounted ops → PointsInv (ops.foldl (mountedStep drivers) mounted) := by
    intro ops
    induction ops with
    | nil => exact fun _ inv _ => inv
    | cons op rest ih => exact fun mounted inv keeps => ih _ (inv.step op keeps.1) keeps.2
  refine (runs ops _ ⟨RunInv.initial devices partitions world, ?_, ?_⟩ keeps).routing
  · -- the boot starts with empty tables
    refine auto_points (initialRun_reaches devices partitions world) ⟨?_, ?_⟩ ?_
    · intro i point m here
      cases here
    · intro i j point other m m' here
      cases here
    · intro i point m here
      cases here
  · intro i path called
    cases called

end Runs

/-! ### A mount point that does not fit the table -/

theorem mounts_routed_example : Routing twoFiles
      ([.unmount dataPath, .mountDevice dataDisk.name mntPath 0].foldl (mountedStep twoFiles)
        (mountedRun twoFiles [systemDisk, dataDisk] [] ())).run.vfs
      ([.unmount dataPath, .mountDevice dataDisk.name mntPath 0].foldl (mountedStep twoFiles)
        (mountedRun twoFiles [systemDisk, dataDisk] [] ())).callers :=
  mounts_routed twoFiles _ [] () _ ⟨trivial, ⟨by decide, by decide⟩, trivial⟩

/-- A mount point of 41 characters. -/
def longPath : CString := '/' :: letters 40

/-- The second disk is mounted at a path of 41 characters, and the path itself is not
routed to it. -/
theorem long_mount_point_not_routed : ¬Routing twoFiles
      ([.unmount dataPath, .mountDevice dataDisk.name longPath 0].foldl (mountedStep twoFiles)
        (mountedRun twoFiles [systemDisk, dataDisk] [] ())).run.vfs
      ([.unmount dataPath, .mountDevice dataDisk.name longPath 0].foldl (mountedStep twoFiles)
        (mountedRun twoFiles [systemDisk, dataDisk] [] ())).callers := by
  intro routing
  have called : ([.unmount dataPath, .mountDevice dataDisk.name longPath 0].foldl
      (mountedStep twoFiles) (mountedRun twoFiles [systemDisk, dataDisk] [] ())).callers
      ⟨1, by decide⟩ = some longPath := by
    decide +kernel
  have routed := routing.routed _ _ called longPath ⟨List.prefix_refl _, Or.inl rfl⟩
  have elsewhere : (volumeForPath ([.unmount dataPath, .mountDevice dataDisk.name longPath 0].foldl
      (mountedStep twoFiles) (mountedRun twoFiles [systemDisk, dataDisk] [] ())).run.vfs
      longPath).1 = some firstVolume := by
    decide +kernel
  rw [elsewhere] at routed
  cases routed

end AsasOs.Vfs
