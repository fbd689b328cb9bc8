import AsasOs.Ntfs.Interface
import Mathlib.Tactic.IntervalCases

/-!
# NTFS: run lists

A run list says on which clusters an attribute lies: runs of clusters one after another,
each with its length and with the distance of its first cluster from that of the run
before it. Both numbers take as few bytes as they need, and a hole has no distance.

## Model

- `decode_runlist` returns a number of runs, which is zero when it fails; here it returns that many
  runs.
- In `decode_runlist` the sign of a distance of eight bytes is extended by a shift of 64 bits, which is
  taken as one of 0 bits, as the processors do it.
- A position in the output is a number without a bound: the capacities are record sizes.

## Main results

- `decodeRunlist_encoding`: the run list of some runs is decoded to these runs.
- `encodeClusters_eq`, `encodeRuns_eq`: what is encoded, and when the encoders fail.
- `runlist_round_trip`: what is encoded is decoded again, and nothing is cut off.
-/
namespace AsasOs.Ntfs

open Bytes

def NTFS_MAX_STREAM_RUNS : Nat := 256

/-! ### The code -/

def ntfsUnsignedBytes (value : Nat) : Nat :=
  ((List.range' 1 7).find? fun bytes => value >>> (bytes * 8) == 0).getD 8

def ntfsSignedBytes (value : Int) : Nat :=
  ((List.range' 1 7).find? fun bytes =>
    -2 ^ (bytes * 8 - 1) ≤ value && value ≤ 2 ^ (bytes * 8 - 1) - 1).getD 8

def encodeRun (length offsetBytes : Nat) (delta : Int) : List UInt8 :=
  let lengthBytes := ntfsUnsignedBytes length
  UInt8.ofNat (lengthBytes ||| offsetBytes <<< 4) ::
    (digits lengthBytes length ++ digits offsetBytes (delta % 2 ^ 64).toNat)

/-- The inner loop of `ntfs_encode_cluster_runlist`: how many clusters lie behind one another. -/
def clusterRun (start : Nat) : Nat → List Nat → Nat
  | length, [] => length
  | length, next :: rest => if next = start + length then clusterRun start (length + 1) rest else length

def encodeClusters (capacity : Nat) :
    Nat → List Nat → Int → List UInt8 → List NtfsRun → Option (List UInt8 × List NtfsRun)
  | _, [], _, output, runs => some (output ++ [0], runs)
  | 0, _ :: _, _, _, _ => none
  | fuel + 1, start :: rest, previousLcn, output, runs =>
    let length := clusterRun start 1 rest
    let delta := (start : Int) - previousLcn
    let lengthBytes := ntfsUnsignedBytes length
    let offsetBytes := ntfsSignedBytes delta
    if runs.length ≥ NTFS_MAX_STREAM_RUNS ||
        output.length + 1 + lengthBytes + offsetBytes + 1 > capacity then none
    else
      encodeClusters capacity fuel (rest.drop (length - 1)) start
        (output ++ encodeRun length offsetBytes delta) (runs ++ [⟨start, length, false⟩])

/-- `ntfs_encode_cluster_runlist`: the run list, and the runs in it. -/
def ntfsEncodeClusterRunlist (clusters : List Nat) (capacity : Nat) :
    Option (List UInt8 × List NtfsRun) :=
  encodeClusters capacity clusters.length clusters 0 [] []

def encodeRuns (capacity : Nat) : List NtfsRun → Int → List UInt8 → Option (List UInt8)
  | [], _, output => some (output ++ [0])
  | run :: runs, previousLcn, output =>
    let delta := (run.lcn : Int) - previousLcn
    let lengthBytes := ntfsUnsignedBytes run.len
    let offsetBytes := if run.sparse then 0 else ntfsSignedBytes delta
    if output.length + 1 + lengthBytes + offsetBytes + 1 > capacity then none
    else
      encodeRuns capacity runs (if run.sparse then previousLcn else run.lcn)
        (output ++ encodeRun run.len offsetBytes delta)

def ntfsEncodeRuns (runs : List NtfsRun) (capacity : Nat) : Option (List UInt8) :=
  encodeRuns capacity runs 0 []

/-- The LCN delta of `size` bytes as a number of 64 bits. -/
def signExtend (size offset : Nat) : Nat :=
  if 0 < size && offset >>> (size * 8 - 1) % 2 == 1 then
    offset ||| ((2 ^ 64 - 1) <<< (size * 8 % 64)) % 2 ^ 64
  else offset

def decodeRuns : Nat → List UInt8 → Nat → List NtfsRun → List NtfsRun
  | 0, cursor, _, runs => if cursor.head? = some 0 then runs else []
  | _ + 1, [], _, _ => []
  | remaining + 1, header :: cursor, currentLcn, runs =>
    if header = 0 then runs
    else
      let lenSize := header.toNat &&& 15
      let offSize := header.toNat >>> 4
      if lenSize = 0 || lenSize > 8 || offSize > 8 || cursor.length < lenSize + offSize then []
      else
        let runLen := value (cursor.take lenSize)
        let runOff := signExtend offSize (value ((cursor.drop lenSize).take offSize))
        let currentLcn := if offSize ≠ 0 then (currentLcn + runOff) % 2 ^ 64 else currentLcn
        if runLen = 0 then []
        else
          decodeRuns remaining (cursor.drop (lenSize + offSize)) currentLcn
            (runs ++ [⟨currentLcn, runLen, offSize == 0⟩])

def decodeRunlist (runlist : List UInt8) (maxRuns : Nat) : List NtfsRun :=
  decodeRuns maxRuns runlist 0 []

/-! ### Numbers of few bytes -/

theorem ntfsUnsignedBytes_spec {value : Nat} (small : value < 2 ^ 64) :
    1 ≤ ntfsUnsignedBytes value ∧ ntfsUnsignedBytes value ≤ 8 ∧
    value < 256 ^ ntfsUnsignedBytes value := by
  unfold ntfsUnsignedBytes
  cases found : (List.range' 1 7).find? fun bytes => value >>> (bytes * 8) == 0 with
  | none =>
    rw [Option.getD_none]
    exact ⟨by decide, by decide, by omega⟩
  | some bytes =>
    obtain ⟨low, high⟩ := List.mem_range'_1.mp (List.mem_of_find?_eq_some found)
    have zero : value >>> (bytes * 8) = 0 := by simpa using List.find?_some found
    rw [Option.getD_some]
    refine ⟨low, by omega, ?_⟩
    rw [Nat.shiftRight_eq_div_pow, Nat.mul_comm, Nat.pow_mul] at zero
    exact (Nat.div_eq_zero_iff.mp zero).resolve_left (Nat.pow_pos (by decide)).ne'

theorem ntfsSignedBytes_spec {value : Int} (low : -2 ^ 55 ≤ value) (high : value < 2 ^ 55) :
    1 ≤ ntfsSignedBytes value ∧ ntfsSignedBytes value ≤ 7 ∧
      -2 ^ (ntfsSignedBytes value * 8 - 1) ≤ value ∧ value < 2 ^ (ntfsSignedBytes value * 8 - 1) := by
  unfold ntfsSignedBytes
  cases found : (List.range' 1 7).find? fun bytes =>
      -2 ^ (bytes * 8 - 1) ≤ value && value ≤ 2 ^ (bytes * 8 - 1) - 1 with
  | none =>
    have last := List.find?_eq_none.mp found 7 (by decide)
    simp only [Bool.and_eq_true, decide_eq_true_eq] at last
    omega
  | some bytes =>
    obtain ⟨least, most⟩ := List.mem_range'_1.mp (List.mem_of_find?_eq_some found)
    have inside := List.find?_some found
    simp only [Bool.and_eq_true, decide_eq_true_eq] at inside
    rw [Option.getD_some]
    exact ⟨least, by omega, inside.1, by omega⟩

theorem signExtend_eq {size offset : Nat} (some : 1 ≤ size) (few : size ≤ 7)
    (small : offset < 256 ^ size) :
    signExtend size offset =
      if offset < 2 ^ (size * 8 - 1) then offset else offset + (2 ^ 64 - 256 ^ size) := by
  have ones : ((2 ^ 64 - 1) <<< (size * 8 % 64)) % 2 ^ 64 = 2 ^ (size * 8) * (2 ^ (64 - size * 8) - 1) := by
    interval_cases size <;> rfl
  have power : (256 : Nat) ^ size = 2 ^ (size * 8) := by
    rw [Nat.mul_comm, Nat.pow_mul]
  have half : 2 ^ (size * 8) = 2 * 2 ^ (size * 8 - 1) := by
    rw [← Nat.pow_succ']
    congr 1
    omega
  have whole : 2 ^ (size * 8) * (2 ^ (64 - size * 8) - 1) = 2 ^ 64 - 2 ^ (size * 8) := by
    interval_cases size <;> rfl
  rw [power] at small ⊢
  unfold signExtend
  rw [ones, Nat.shiftRight_eq_div_pow, Nat.or_comm, ← Nat.two_pow_add_eq_or_of_lt small, whole]
  have quotient : offset / 2 ^ (size * 8 - 1) = if offset < 2 ^ (size * 8 - 1) then 0 else 1 := by
    split
    · rename_i below
      exact Nat.div_eq_of_lt below
    · rw [Nat.div_eq_iff (Nat.two_pow_pos _)]
      omega
  rw [quotient]
  split
  · rw [if_neg (by simp)]
  · rw [if_pos (by simp; omega)]
    omega

theorem signExtend_delta {base lcn size : Nat} (low : base < 2 ^ 55) (high : lcn < 2 ^ 55)
    (same : size = ntfsSignedBytes ((lcn : Int) - base)) :
    (base + signExtend size (value (digits size (((lcn : Int) - base) % 2 ^ 64).toNat))) % 2 ^ 64 =
    lcn := by
  obtain ⟨some, few, least, most⟩ := @ntfsSignedBytes_spec ((lcn : Int) - base) (by omega) (by omega)
  rw [← same] at some few least most
  rw [value_digits, signExtend_eq some few (Nat.mod_lt _ (Nat.pow_pos (by decide)))]
  clear same
  interval_cases size <;> simp only [Nat.reducePow, Nat.reduceMul, Nat.reduceSub, Int.reducePow,
    Int.reduceNeg] at least most ⊢ <;> split <;> omega

/-! ### What a run list says -/

/-- The run list of some runs, behind a cluster. -/
def encoding : Nat → List NtfsRun → List UInt8
  | _, [] => [0]
  | base, run :: runs =>
    encodeRun run.len (if run.sparse then 0 else ntfsSignedBytes (run.lcn - base)) (run.lcn - base) ++
      encoding (if run.sparse then base else run.lcn) runs

/-- The runs as they are read: a hole is where the run before it is. -/
def located : Nat → List NtfsRun → List NtfsRun
  | _, [] => []
  | base, run :: runs =>
    if run.sparse then ⟨base, run.len, true⟩ :: located base runs else run :: located run.lcn runs

/-- A run of an attribute: it has clusters, and their numbers are below the bound of the format. -/
structure NtfsRun.Valid (run : NtfsRun) : Prop where
  some : 0 < run.len
  small : run.len < 2 ^ 64
  below : run.sparse = false → run.lcn < 2 ^ 55

variable {runs : List NtfsRun}

theorem located_self {base : Nat} (solid : ∀ run ∈ runs, run.sparse = false) :
    located base runs = runs := by
  induction runs generalizing base with
  | nil => rfl
  | cons run runs ih =>
    rw [located, solid run List.mem_cons_self, if_neg Bool.false_ne_true,
      ih fun other member => solid other (List.mem_cons_of_mem _ member)]

theorem encodeRun_header {lengthBytes offsetBytes : Nat} (few : lengthBytes ≤ 8)
    (few' : offsetBytes ≤ 8) :
    (UInt8.ofNat (lengthBytes ||| offsetBytes <<< 4)).toNat &&& 15 = lengthBytes ∧
      (UInt8.ofNat (lengthBytes ||| offsetBytes <<< 4)).toNat >>> 4 = offsetBytes := by
  interval_cases lengthBytes <;> interval_cases offsetBytes <;> decide

theorem encodeRun_length (length offsetBytes : Nat) (delta : Int) :
    (encodeRun length offsetBytes delta).length = 1 + ntfsUnsignedBytes length + offsetBytes := by
  simp only [encodeRun, List.length_cons, List.length_append, digits_length]
  omega

theorem encodeRun_head {length offsetBytes : Nat} {delta : Int} (small : length < 2 ^ 64)
    (few : offsetBytes ≤ 8) (tail : List UInt8) :
    (encodeRun length offsetBytes delta ++ tail).head? ≠ some 0 := by
  obtain ⟨least, most, _⟩ := ntfsUnsignedBytes_spec small
  have lengthField := (encodeRun_header most few).1
  simp only [encodeRun, List.cons_append, List.head?_cons, ne_eq, Option.some.injEq]
  intro zero
  rw [zero] at lengthField
  have none : (0 : Nat) = ntfsUnsignedBytes length := lengthField
  omega

theorem decodeRuns_encodeRun {length offsetBytes remaining base : Nat} {delta : Int} {tail : List UInt8}
    (some : 0 < length) (small : length < 2 ^ 64) (few : offsetBytes ≤ 8) :
    decodeRuns (remaining + 1) (encodeRun length offsetBytes delta ++ tail) base runs = let lcn :=
        if offsetBytes ≠ 0 then
          (base + signExtend offsetBytes (value (digits offsetBytes (delta % 2 ^ 64).toNat))) % 2 ^ 64
        else base
      decodeRuns remaining tail lcn (runs ++ [⟨lcn, length, offsetBytes == 0⟩]) := by
  obtain ⟨least, most, fits⟩ := ntfsUnsignedBytes_spec small
  obtain ⟨lengthField, offsetField⟩ := encodeRun_header most few
  have bytes : encodeRun length offsetBytes delta ++ tail =
      UInt8.ofNat (ntfsUnsignedBytes length ||| offsetBytes <<< 4) ::
        (digits (ntfsUnsignedBytes length) length ++ (digits offsetBytes (delta % 2 ^ 64).toNat ++ tail)) := by
    simp only [encodeRun, List.cons_append, List.append_assoc]
  have more := @encodeRun_head _ _ delta small few tail
  rw [bytes] at more ⊢
  rw [List.head?_cons] at more
  generalize ntfsUnsignedBytes length = lengthBytes at *
  generalize digitsDef : digits offsetBytes (delta % 2 ^ 64).toNat = distance
  have size : distance.length = offsetBytes := by rw [← digitsDef, digits_length]
  have taken : (digits lengthBytes length ++ (distance ++ tail)).take lengthBytes = digits lengthBytes length :=
    List.take_left' (digits_length _ _)
  have dropped : (digits lengthBytes length ++ (distance ++ tail)).drop lengthBytes = distance ++ tail :=
    List.drop_left' (digits_length _ _)
  rw [decodeRuns, if_neg fun zero => more (congrArg Option.some zero)]
  simp only [lengthField, offsetField]
  rw [if_neg (by simp only [List.length_append, digits_length, size, Bool.or_eq_true, decide_eq_true_eq]; omega),
    taken, ← List.drop_drop, dropped, List.take_left' size, List.drop_left' size, value_digits,
    Nat.mod_eq_of_lt fits, if_neg some.ne']

theorem decodeRuns_encoding (valid : ∀ run ∈ runs, run.Valid) (tail : List UInt8) :
    ∀ base remaining found, base < 2 ^ 55 →
    decodeRuns remaining (encoding base runs ++ tail) base found =
      if runs.length ≤ remaining then found ++ located base runs else [] := by
  induction runs with
  | nil =>
    intro base remaining found _
    rw [if_pos (by simp), located, List.append_nil]
    cases remaining with
    | zero => rfl
    | succ remaining => rfl
  | cons run runs ih =>
    intro base remaining found low
    have here := valid run List.mem_cons_self
    have later := ih fun other member => valid other (List.mem_cons_of_mem _ member)
    rw [encoding, List.append_assoc]
    cases remaining with
    | zero =>
      have few : (if run.sparse then 0 else ntfsSignedBytes ((run.lcn : Int) - base)) ≤ 8 := by
        cases hole : run.sparse with
        | true => exact Nat.zero_le _
        | false =>
          have high := here.below hole
          have spec := @ntfsSignedBytes_spec ((run.lcn : Int) - base) (by omega) (by omega)
          rw [if_neg Bool.false_ne_true]
          omega
      rw [decodeRuns, if_neg (encodeRun_head here.small few _), if_neg (by simp)]
    | succ remaining =>
      cases hole : run.sparse with
      | true =>
        simp only [if_true]
        rw [decodeRuns_encodeRun here.some here.small (by decide)]
        simp only [ne_eq, not_true_eq_false, if_false]
        rw [later base remaining _ low, located, hole, if_pos rfl, List.append_assoc]
        simp only [List.length_cons, Nat.add_le_add_iff_right]
        rfl
      | false =>
        have high := here.below hole
        obtain ⟨some, few, _, _⟩ := @ntfsSignedBytes_spec ((run.lcn : Int) - base) (by omega) (by omega)
        simp only [Bool.false_eq_true, if_false]
        rw [decodeRuns_encodeRun here.some here.small (by omega)]
        simp only
        rw [if_pos (by omega), signExtend_delta low high rfl, later run.lcn remaining _ high, located, hole,
          if_neg Bool.false_ne_true, List.append_assoc]
        have same : (⟨run.lcn, run.len, ntfsSignedBytes (run.lcn - base) == 0⟩ : NtfsRun) = run := by
          rw [beq_eq_false_iff_ne.mpr (by omega), ← hole]
        rw [same]
        simp only [List.length_cons, Nat.add_le_add_iff_right]
        rfl

/-- The run list of some runs is decoded to these runs. -/
theorem decodeRunlist_encoding (valid : ∀ run ∈ runs, run.Valid) (tail : List UInt8) (maxRuns : Nat) :
    decodeRunlist (encoding 0 runs ++ tail) maxRuns =
      if runs.length ≤ maxRuns then located 0 runs else [] := by
  have decoded := decodeRuns_encoding valid tail 0 maxRuns [] (by decide)
  rwa [List.nil_append] at decoded

/-! ### What is encoded -/

theorem encoding_length_pos (base : Nat) (runs : List NtfsRun) : 0 < (encoding base runs).length := by
  cases runs with
  | nil => exact Nat.zero_lt_one
  | cons run runs =>
    rw [encoding, List.length_append, encodeRun_length]
    omega

theorem encodeRuns_eq (capacity : Nat) (runs : List NtfsRun) : ∀ (base : Nat) (output : List UInt8),
    encodeRuns capacity runs base output =
      if runs = [] ∨ output.length + (encoding base runs).length ≤ capacity then
        some (output ++ encoding base runs)
      else none := by
  induction runs with
  | nil =>
    intro base output
    rw [if_pos (Or.inl rfl)]
    rfl
  | cons run runs ih =>
    intro base output
    have step : ((if run.sparse then (base : Int) else run.lcn) : Int) =
        ((if run.sparse then base else run.lcn : Nat) : Int) := by split <;> rfl
    rw [encodeRuns, encoding, step, ih]
    generalize (if run.sparse then base else run.lcn) = next
    generalize (if run.sparse then 0 else ntfsSignedBytes ((run.lcn : Int) - base)) = offsetBytes
    have bytes := encodeRun_length run.len offsetBytes (run.lcn - base)
    have last := encoding_length_pos next runs
    rw [← List.append_assoc]
    simp only [List.length_append, bytes, reduceCtorEq, false_or]
    by_cases exceeds : output.length + 1 + ntfsUnsignedBytes run.len + offsetBytes + 1 > capacity
    · rw [if_pos exceeds, if_neg (by omega)]
    · rw [if_neg exceeds]
      by_cases empty : runs = []
      · rw [if_pos (Or.inl empty), if_pos]
        rw [empty]
        simp only [encoding, List.length_singleton]
        omega
      · simp only [empty, false_or, Nat.add_assoc]

/-- The runs of a list of clusters, none of which goes on in the next one. -/
structure MaximalRuns (clusters : List Nat) (runs : List NtfsRun) : Prop where
  covers : (runs.flatMap fun run => List.range' run.lcn run.len) = clusters
  solid : ∀ run ∈ runs, run.sparse = false ∧ 0 < run.len
  maximal : runs.IsChain fun run next => next.lcn ≠ run.lcn + run.len

theorem clusterRun_spec (start length : Nat) (rest : List Nat) :
    ∃ more, clusterRun start length rest = length + more ∧ more ≤ rest.length ∧
      rest.take more = List.range' (start + length) more ∧
      (rest.drop more).head? ≠ some (start + length + more) := by
  induction rest generalizing length with
  | nil => exact ⟨0, rfl, Nat.le_refl _, rfl, nofun⟩
  | cons next rest ih =>
    rw [clusterRun]
    split
    · rename_i follows
      obtain ⟨more, total, within, same, ends⟩ := ih (length + 1)
      refine ⟨more + 1, by omega, by rw [List.length_cons]; omega, ?_, ?_⟩
      · rw [List.take_succ_cons, same, follows, List.range'_succ]
        rfl
      · rw [List.drop_succ_cons]
        have place : start + (length + 1) + more = start + length + (more + 1) := by omega
        rwa [place] at ends
    · rename_i apart
      refine ⟨0, rfl, Nat.zero_le _, rfl, ?_⟩
      rw [List.drop_zero, List.head?_cons, Nat.add_zero]
      intro same
      exact apart (Option.some.inj same)

theorem MaximalRuns.cons {start more : Nat} {rest : List Nat}
    (same : rest.take more = List.range' (start + 1) more)
    (ends : (rest.drop more).head? ≠ some (start + 1 + more))
    (later : MaximalRuns (rest.drop more) runs) :
    MaximalRuns (start :: rest) (⟨start, 1 + more, false⟩ :: runs) := by
  refine ⟨?_, ?_, ?_⟩
  · rw [List.flatMap_cons, later.covers, Nat.add_comm 1 more, List.range'_succ, List.cons_append, ← same,
      List.take_append_drop]
  · intro run member
    rcases List.mem_cons.mp member with rfl | member
    · exact ⟨rfl, by simp⟩
    · exact later.solid run member
  · cases runs with
    | nil => exact .singleton _
    | cons next others =>
      refine List.isChain_cons_cons.mpr ⟨?_, later.maximal⟩
      intro adjacent
      obtain ⟨count, size⟩ := Nat.exists_eq_add_of_lt (later.solid next List.mem_cons_self).2
      apply ends
      rw [← later.covers, List.flatMap_cons, size, List.range'_succ, List.cons_append, List.head?_cons,
        adjacent, Nat.add_assoc]

theorem MaximalRuns.eq_nil (maximal : MaximalRuns [] runs) : runs = [] := by
  cases runs with
  | nil => rfl
  | cons run others =>
    have covered := maximal.covers
    have some := (maximal.solid run List.mem_cons_self).2
    rw [List.flatMap_cons, List.append_eq_nil_iff, List.range'_eq_nil_iff] at covered
    omega

/-- The clusters are written as their maximal runs, if these are few enough and have room. -/
theorem encodeClusters_eq (capacity : Nat) : ∀ (fuel : Nat) {clusters : List Nat} (base : Nat)
    (output : List UInt8) (found : List NtfsRun), clusters.length ≤ fuel →
      ∃ new, MaximalRuns clusters new ∧ encodeClusters capacity fuel clusters base output found =
        if clusters = [] ∨ found.length + new.length ≤ NTFS_MAX_STREAM_RUNS ∧
            output.length + (encoding base new).length ≤ capacity then
          some (output ++ encoding base new, found ++ new)
        else none := by
  intro fuel
  induction fuel with
  | zero =>
    intro clusters base output found short
    obtain rfl := List.length_eq_zero_iff.mp (Nat.le_zero.mp short)
    refine ⟨[], ⟨rfl, nofun, .nil⟩, ?_⟩
    rw [if_pos (.inl rfl), List.append_nil]
    rfl
  | succ fuel ih =>
    intro clusters base output found short
    cases clusters with
    | nil =>
      refine ⟨[], ⟨rfl, nofun, .nil⟩, ?_⟩
      rw [if_pos (.inl rfl), List.append_nil]
      rfl
    | cons start rest =>
      obtain ⟨more, length, within, same, ends⟩ := clusterRun_spec start 1 rest
      rw [List.length_cons] at short
      obtain ⟨new, maximal, written⟩ := @ih (rest.drop more) start
        (output ++ encodeRun (1 + more) (ntfsSignedBytes (start - base)) (start - base))
        (found ++ [⟨start, 1 + more, false⟩]) (by rw [List.length_drop]; omega)
      refine ⟨⟨start, 1 + more, false⟩ :: new, maximal.cons same ends, ?_⟩
      have last := encoding_length_pos start new
      rw [encodeClusters, length, Nat.add_sub_cancel_left, written]
      simp only [encoding, Bool.false_eq_true, if_false, List.length_append, List.length_cons, List.length_nil,
        encodeRun_length, Bool.or_eq_true, decide_eq_true_eq, reduceCtorEq, false_or, List.append_assoc,
        List.singleton_append]
      by_cases full : found.length ≥ NTFS_MAX_STREAM_RUNS ∨ output.length + 1 + ntfsUnsignedBytes (1 + more) +
          ntfsSignedBytes ((start : Int) - base) + 1 > capacity
      · rw [if_pos full, if_neg (by omega)]
      · rw [if_neg full]
        by_cases empty : rest.drop more = []
        · -- behind the last run there is only the terminator, for which there is room
          have none_ : new = [] := (empty ▸ maximal).eq_nil
          rw [if_pos (.inl empty), if_pos]
          rw [none_, encoding, List.length_nil, List.length_singleton]
          omega
        · refine if_congr ((or_iff_right empty).trans ?_) rfl rfl
          omega

theorem MaximalRuns.valid {clusters : List Nat} (maximal : MaximalRuns clusters runs)
    (count : clusters.length < 2 ^ 32) (below : ∀ cluster ∈ clusters, cluster < 2 ^ 55) :
    ∀ run ∈ runs, run.Valid := by
  intro run member
  obtain ⟨solid, some⟩ := maximal.solid run member
  have inside : ∀ cluster ∈ List.range' run.lcn run.len, cluster ∈ clusters := by
    intro cluster here
    rw [← maximal.covers]
    exact List.mem_flatMap.mpr ⟨run, member, here⟩
  have size : run.len ≤ clusters.length := by
    have part := List.Sublist.length_le (List.sublist_flatten_of_mem
      (List.mem_map_of_mem (f := fun run : NtfsRun => List.range' run.lcn run.len) member))
    rw [← maximal.covers, List.flatMap_def]
    rwa [List.length_range'] at part
  exact ⟨some, by omega, fun _ => below _ (inside _ (List.mem_range'_1.mpr ⟨Nat.le_refl _, by omega⟩))⟩

/-- Clusters are encoded as their maximal runs and runs as they are, every hole at the run before it, and
this is decoded again. The encoders fail if and only if what they have to write has no room, or clusters
have more runs than the array of runs. But the terminator of an empty list is written at any capacity. -/
theorem runlist_round_trip {clusters : List Nat} {runs : List NtfsRun} (count : clusters.length < 2 ^ 32)
    (below : ∀ cluster ∈ clusters, cluster < 2 ^ 55) (valid : ∀ run ∈ runs, run.Valid)
    (capacity maxRuns : Nat) :
    (∃ found, MaximalRuns clusters found ∧
      ntfsEncodeClusterRunlist clusters capacity =
        (if clusters = [] ∨ found.length ≤ NTFS_MAX_STREAM_RUNS ∧ (encoding 0 found).length ≤ capacity then
          some (encoding 0 found, found)
        else none) ∧
      decodeRunlist (encoding 0 found) maxRuns = if found.length ≤ maxRuns then found else []) ∧
    ntfsEncodeRuns runs capacity =
      (if runs = [] ∨ (encoding 0 runs).length ≤ capacity then some (encoding 0 runs) else none) ∧
    decodeRunlist (encoding 0 runs) maxRuns = if runs.length ≤ maxRuns then located 0 runs else [] := by
  refine ⟨?_, ?_, ?_⟩
  · obtain ⟨found, maximal, written⟩ := encodeClusters_eq capacity clusters.length 0 [] [] (Nat.le_refl _)
    have decoded := decodeRunlist_encoding (maximal.valid count below) [] maxRuns
    rw [List.append_nil, located_self fun run member => (maximal.solid run member).1] at decoded
    simp only [List.length_nil, Nat.zero_add, List.nil_append] at written
    exact ⟨found, maximal, written, decoded⟩
  · have written := encodeRuns_eq capacity runs 0 []
    rwa [List.length_nil, Nat.zero_add, List.nil_append] at written
  · have decoded := decodeRunlist_encoding valid [] maxRuns
    rwa [List.append_nil] at decoded

def someRuns : List NtfsRun := [⟨3, 4, false⟩, ⟨0, 7, true⟩, ⟨1, 2, false⟩]

theorem someRuns_valid : ∀ run ∈ someRuns, run.Valid := by
  intro run member
  have fields : ∀ run ∈ someRuns, 0 < run.len ∧ run.len < 2 ^ 64 ∧ (run.sparse = false → run.lcn < 2 ^ 55) := by
    decide
  obtain ⟨some, small, below⟩ := fields run member
  exact ⟨some, small, below⟩

theorem runlist_round_trip_some :
    (∃ found, MaximalRuns [10, 11, 12, 5] found ∧
      ntfsEncodeClusterRunlist [10, 11, 12, 5] 64 =
        (if [10, 11, 12, 5] = [] ∨ found.length ≤ NTFS_MAX_STREAM_RUNS ∧ (encoding 0 found).length ≤ 64 then
          some (encoding 0 found, found)
        else none) ∧
      decodeRunlist (encoding 0 found) 256 = if found.length ≤ 256 then found else []) ∧
    ntfsEncodeRuns someRuns 64 =
      (if someRuns = [] ∨ (encoding 0 someRuns).length ≤ 64 then some (encoding 0 someRuns) else none) ∧
    decodeRunlist (encoding 0 someRuns) 256 = if someRuns.length ≤ 256 then located 0 someRuns else [] :=
  runlist_round_trip (by decide) (by decide) someRuns_valid 64 256

/-- Two runs behind one another stay two runs. -/
theorem adjacentRuns_kept : ¬ ∀ (runs : List NtfsRun) (capacity : Nat) (bytes : List UInt8),
      (∀ run ∈ runs, run.sparse = false ∧ run.Valid) → ntfsEncodeRuns runs capacity = some bytes →
        MaximalRuns (runs.flatMap fun run => List.range' run.lcn run.len) (decodeRunlist bytes 256) := by
  intro every
  have maximal := every [⟨10, 5, false⟩, ⟨15, 5, false⟩] 64 [0x11, 5, 10, 0x11, 5, 5, 0] (by
    intro run member
    simp only [List.mem_cons, List.not_mem_nil, or_false] at member
    rcases member with rfl | rfl
    · exact ⟨rfl, by decide, by decide, fun _ => by decide⟩
    · exact ⟨rfl, by decide, by decide, fun _ => by decide⟩) (by decide)
  have decoded : decodeRunlist [0x11, 5, 10, 0x11, 5, 5, 0] 256 = [⟨10, 5, false⟩, ⟨15, 5, false⟩] := by decide
  have apart := maximal.maximal
  rw [decoded] at apart
  exact (List.isChain_cons_cons.mp apart).1 rfl

end AsasOs.Ntfs
