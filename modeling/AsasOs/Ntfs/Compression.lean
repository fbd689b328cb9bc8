import AsasOs.Lib.Checked
import AsasOs.Lib.Lz77
import AsasOs.Ntfs.Nodes
import Mathlib.Data.Nat.Log

/-!
# NTFS: LZNT1

A compressed unit consists of chunks. A chunk is stored as it is, or as literals and back
references of 16 bits, eight to a tag byte; the more a chunk has produced, the more bits
of a back reference are its displacement.

## Model

- Every access to the source and to the destination is checked, and every loop has a bound on its steps.
- The callers pass at most a compression unit of one megabyte; the sums of offsets are taken to 32 bits.

## Main results

- `expansion_unique`: a text has one expansion.
- `tokenSplit_eq`: the loop that splits a back reference.
- `lznt1Decompress_sound`: what is accepted, and what it is expanded to.
- `fullDestination_stops`: a short destination is no error between two chunks.
-/
namespace AsasOs.Ntfs

open Bytes Checked Lz77

/-! ### The code -/

structure Lznt1 where
  sourceOffset : Nat
  destinationOffset : Nat
  destination : List UInt8

/-- The loop over `position` that finds the length mask and the displacement shift. -/
def tokenSplit : Nat → Nat → Nat → Nat → Nat × Nat
  | 0, _, lengthMask, displacementShift => (lengthMask, displacementShift)
  | steps + 1, position, lengthMask, displacementShift =>
    if 0x10 ≤ position then tokenSplit steps (position >>> 1) (lengthMask >>> 1) (displacementShift - 1)
    else (lengthMask, displacementShift)

/-- `ntfs_copy` of a stored chunk. -/
def copyStored (source : List UInt8) : Nat → Lznt1 → Run Lznt1
  | 0, s => pure s
  | size + 1, s => do
    let byte ← load source s.sourceOffset
    let destination ← store s.destination s.destinationOffset byte
    copyStored source size ⟨s.sourceOffset + 1, s.destinationOffset + 1, destination⟩

/-- The loop over `index` that follows a back reference. -/
def copyBack (displacement : Nat) : Nat → Lznt1 → Run Lznt1
  | 0, s => pure s
  | length + 1, s => do
    let byte ← load s.destination (sub32 s.destinationOffset displacement)
    let destination ← store s.destination s.destinationOffset byte
    copyBack displacement length ⟨s.sourceOffset, s.destinationOffset + 1, destination⟩

def literalItem (source : List UInt8) (chunkStart : Nat) (s : Lznt1) : Run Lznt1 := do
  demand ¬(s.destinationOffset ≥ s.destination.length ∨ sub32 s.destinationOffset chunkStart ≥ 4096)
  let byte ← load source s.sourceOffset
  let destination ← store s.destination s.destinationOffset byte
  pure ⟨s.sourceOffset + 1, s.destinationOffset + 1, destination⟩

def copyItem (source : List UInt8) (payloadEnd chunkStart : Nat) (s : Lznt1) : Run Lznt1 := do
  let position := sub32 s.destinationOffset chunkStart
  demand ¬((s.sourceOffset + 2) % 2 ^ 32 > payloadEnd ∨ position = 0)
  let low ← load source s.sourceOffset
  let high ← load source (s.sourceOffset + 1)
  let token := low.toNat ||| high.toNat <<< 8
  let split := tokenSplit position (position - 1) 0x0FFF 12
  let length := (token &&& split.1) + 3
  let displacement := (token >>> split.2) + 1
  demand ¬(displacement > position ∨ length > sub32 4096 position ∨
    length > sub32 s.destination.length s.destinationOffset)
  copyBack displacement length { s with sourceOffset := s.sourceOffset + 2 }

/-- The items of a tag byte: the loop over `bit`. -/
def tagItems (source : List UInt8) (payloadEnd chunkStart tags : Nat) : Nat → Lznt1 → Run Lznt1
  | 0, s => pure s
  | left + 1, s =>
    if s.sourceOffset < payloadEnd then do
      let s ← if tags.testBit (7 - left) then copyItem source payloadEnd chunkStart s
        else literalItem source chunkStart s
      tagItems source payloadEnd chunkStart tags left s
    else pure s

def tagLoop (source : List UInt8) (payloadEnd chunkStart : Nat) (s : Lznt1) : Run (Lznt1 ⊕ Lznt1) :=
  if s.sourceOffset < payloadEnd ∧ sub32 s.destinationOffset chunkStart < 4096 then do
    let tags ← load source s.sourceOffset
    let s ← tagItems source payloadEnd chunkStart tags.toNat 8 { s with sourceOffset := s.sourceOffset + 1 }
    pure (.inl s)
  else pure (.inr s)

def chunkLoop (source : List UInt8) (s : Lznt1) : Run (Lznt1 ⊕ Lznt1) :=
  if (s.sourceOffset + 2) % 2 ^ 32 ≤ source.length ∧ s.destinationOffset < s.destination.length then do
    let low ← load source s.sourceOffset
    let high ← load source (s.sourceOffset + 1)
    let header := low.toNat ||| high.toNat <<< 8
    let s := { s with sourceOffset := s.sourceOffset + 2 }
    if header = 0 then pure (.inr s)
    else do
      demand (header &&& 0x7000 = 0x3000)
      let payloadSize := (header &&& 0x0FFF) + 1
      demand ¬payloadSize > sub32 source.length s.sourceOffset
      let payloadEnd := s.sourceOffset + payloadSize
      if header &&& 0x8000 = 0 then do
        demand ¬(payloadSize > 4096 ∨ payloadSize > sub32 s.destination.length s.destinationOffset)
        let s ← copyStored source payloadSize s
        pure (.inl { s with sourceOffset := payloadEnd })
      else do
        let s ← iterate (tagLoop source payloadEnd s.destinationOffset) (source.length + 1) s
        demand (s.sourceOffset = payloadEnd)
        pure (.inl s)
  else pure (.inr s)

/-- `lznt1_decompress`: the number of bytes written, and the destination afterwards. -/
def lznt1Decompress (source destination : List UInt8) : Run (Nat × List UInt8) := do
  let s ← iterate (chunkLoop source) (source.length + 1) ⟨0, 0, destination⟩
  pure (s.destinationOffset, s.destination)

/-! ### What a compressed text says -/

/-- How many bits of a back reference are its displacement. -/
def displacementBits (position : Nat) : Nat := max 4 (Nat.clog 2 position)

/-- The expansion of what is left of a chunk, behind what it has produced. `bit` items of the tag byte
have been read. -/
def expandItems : List UInt8 → Nat → Nat → List UInt8 → Option (List UInt8)
  | [], _, _, out => some out
  | byte :: payload, bit, tags, out =>
    if bit = 8 then expandItems payload 0 byte.toNat out
    else if tags.testBit bit then
      match payload with
      | [] => none
      | high :: payload =>
        let token := value [byte, high]
        let lengthBits := 16 - displacementBits out.length
        let displacement := token / 2 ^ lengthBits + 1
        if displacement ≤ out.length then
          expandItems payload (bit + 1) tags (repeatTail out displacement (token % 2 ^ lengthBits + 3))
        else none
    else expandItems payload (bit + 1) tags (out ++ [byte])

theorem expandItems_nil (bit tags : Nat) (out : List UInt8) :
    expandItems [] bit tags out = some out := by
  rw [expandItems.eq_def]

theorem expandItems_tag (byte : UInt8) (payload : List UInt8) (tags : Nat) (out : List UInt8) :
    expandItems (byte :: payload) 8 tags out = expandItems payload 0 byte.toNat out := by
  rw [expandItems.eq_def]
  dsimp only
  rw [if_pos rfl]

theorem expandItems_literal {byte : UInt8} {payload out : List UInt8} {bit tags : Nat} (within : bit ≠ 8)
    (literal : tags.testBit bit = false) :
    expandItems (byte :: payload) bit tags out = expandItems payload (bit + 1) tags (out ++ [byte]) := by
  rw [expandItems.eq_def]
  dsimp only
  rw [if_neg within, literal, if_neg Bool.false_ne_true]

theorem expandItems_copy {low high : UInt8} {payload out : List UInt8} {bit tags : Nat}
    (within : bit ≠ 8)
    (copied : tags.testBit bit = true)
    (inside : value [low, high] / 2 ^ (16 - displacementBits out.length) + 1 ≤ out.length) :
    expandItems (low :: high :: payload) bit tags out = expandItems payload (bit + 1) tags
        (repeatTail out (value [low, high] / 2 ^ (16 - displacementBits out.length) + 1)
          (value [low, high] % 2 ^ (16 - displacementBits out.length) + 3)) := by
  rw [expandItems.eq_def]
  dsimp only
  rw [if_neg within, copied, if_pos rfl, if_pos inside]

def expandChunk (payload : List UInt8) : Option (List UInt8) :=
  (expandItems payload 8 0 []).filter fun out => out.length ≤ 4096

/-- The header of a chunk: its signature, how long it is, and whether it is compressed. -/
structure Heads (low high : UInt8) (size : Nat) (compressed : Bool) : Prop where
  signature : high.toNat / 16 % 8 = 3
  length : size = value [low, high] % 4096 + 1
  kind : compressed = decide (128 ≤ high.toNat)

/-- Some chunks of a text with their expansions, and what follows them. -/
inductive Chunks : List UInt8 → List (List UInt8) → List UInt8 → Prop where
  | nil (rest : List UInt8) : Chunks rest [] rest
  | stored {low high : UInt8} {payload source rest : List UInt8} {outs : List (List UInt8)}
      (heads : Heads low high payload.length false) (later : Chunks source outs rest) :
      Chunks (low :: high :: (payload ++ source)) (payload :: outs) rest
  | compressed {low high : UInt8} {payload source out rest : List UInt8} {outs : List (List UInt8)}
      (heads : Heads low high payload.length true) (expands : expandChunk payload = some out)
      (later : Chunks source outs rest) :
      Chunks (low :: high :: (payload ++ source)) (out :: outs) rest

/-- The text ends here: there is no header any more, or one of zeros. -/
def Ends (rest : List UInt8) : Prop := rest.length < 2 ∨ [0, 0] <+: rest

/-- The expansion of a whole text. -/
def Expansion (source : List UInt8) (outs : List (List UInt8)) :
    Prop := ∃ rest, Chunks source outs rest ∧ Ends rest

theorem Chunks.trans {source middle rest : List UInt8} {outs more : List (List UInt8)}
    (chunks : Chunks source outs middle) (later : Chunks middle more rest) :
    Chunks source (outs ++ more) rest := by
  induction chunks with
  | nil => exact later
  | stored heads _ ih => exact .stored heads (ih later)
  | compressed heads expands _ ih => exact .compressed heads expands (ih later)

theorem expandChunk_length {payload out : List UInt8} (expands : expandChunk payload = some out) :
    out.length ≤ 4096 := by
  obtain ⟨_, fits⟩ := Option.filter_eq_some_iff.mp expands
  exact of_decide_eq_true fits

theorem Chunks.small {source rest : List UInt8} {outs : List (List UInt8)}
    (chunks : Chunks source outs rest) :
    ∀ out ∈ outs, out.length ≤ 4096 := by
  induction chunks with
  | nil => exact fun _ none => absurd none List.not_mem_nil
  | stored heads _ ih =>
    rw [List.forall_mem_cons]
    refine ⟨?_, ih⟩
    rw [heads.length]
    omega
  | compressed _ expands _ ih =>
    rw [List.forall_mem_cons]
    exact ⟨expandChunk_length expands, ih⟩

theorem Heads.not_ends {low high : UInt8} {size : Nat} {compressed : Bool} {rest : List UInt8}
    (heads : Heads low high size compressed) : ¬Ends (low :: high :: rest) := by
  rintro (short | ⟨_, zeros⟩)
  · rw [List.length_cons, List.length_cons] at short
    omega
  · have signature := heads.signature
    injection zeros with _ zeros
    injection zeros with high
    rw [← high] at signature
    exact absurd signature (by decide)

theorem Heads.size_eq {low high : UInt8} {size size' : Nat} {compressed compressed' : Bool}
    (heads : Heads low high size compressed) (heads' : Heads low high size' compressed') :
    size = size' ∧ compressed = compressed' :=
  ⟨heads.length.trans heads'.length.symm, heads.kind.trans heads'.kind.symm⟩

/-- A text has one expansion. -/
theorem expansion_unique {source : List UInt8} {outs outs' : List (List UInt8)}
    (expansion : Expansion source outs)
    (expansion' : Expansion source outs') : outs = outs' := by
  obtain ⟨rest, chunks, ends⟩ := expansion
  obtain ⟨rest', chunks', ends'⟩ := expansion'
  induction chunks generalizing outs' with
  | nil =>
    cases chunks' with
    | nil => rfl
    | stored heads => exact absurd ends heads.not_ends
    | compressed heads => exact absurd ends heads.not_ends
  | stored heads later ih =>
    generalize same : _ :: _ :: _ = text at chunks'
    cases chunks' with
    | nil =>
      subst same
      exact absurd ends' heads.not_ends
    | stored heads' later' =>
      injection same with low same
      injection same with high same
      subst low high
      obtain ⟨payload, source⟩ := List.append_inj same (heads.size_eq heads').1
      subst payload source
      rw [ih ends later']
    | compressed heads' =>
      injection same with low same
      injection same with high same
      subst low high
      exact absurd (heads.size_eq heads').2 Bool.false_ne_true
  | compressed heads expands later ih =>
    generalize same : _ :: _ :: _ = text at chunks'
    cases chunks' with
    | nil =>
      subst same
      exact absurd ends' heads.not_ends
    | stored heads' =>
      injection same with low same
      injection same with high same
      subst low high
      exact absurd (heads'.size_eq heads).2 Bool.false_ne_true
    | compressed heads' expands' later' =>
      injection same with low same
      injection same with high same
      subst low high
      obtain ⟨payload, source⟩ := List.append_inj same (heads.size_eq heads').1
      subst payload source
      rw [ih ends later', Option.some.inj (expands.symm.trans expands')]

/-! ### The split of a back reference -/

theorem tokenSplit_at (steps : Nat) : ∀ position bits, position ≤ steps →
    tokenSplit steps position (2 ^ bits - 1) bits =
      (2 ^ (bits - (displacementBits (position + 1) - 4)) - 1, bits - (displacementBits (position + 1) - 4)) := by
  induction steps with
  | zero =>
    intro position bits low
    obtain rfl : position = 0 := by omega
    rfl
  | succ steps ih =>
    intro position bits low
    rw [tokenSplit]
    split
    next large =>
      have half : (2 ^ bits - 1) / 2 = 2 ^ (bits - 1) - 1 := by
        cases bits with
        | zero => rfl
        | succ bits =>
          rw [Nat.pow_succ, Nat.add_sub_cancel]
          omega
      -- A position of more than four bits takes one bit more than its half.
      have more : Nat.clog 2 (position + 1) = Nat.clog 2 (position / 2 + 1) + 1 := by
        rw [Nat.clog_of_two_le (by omega) (by omega)]
        congr 2
        omega
      have four : 3 < Nat.clog 2 (position / 2 + 1) := (Nat.lt_clog_iff_pow_lt (by omega)).mpr (by omega)
      rw [Nat.shiftRight_eq_div_pow, Nat.shiftRight_eq_div_pow, pow_one, half, ih _ _ (by omega), displacementBits,
        displacementBits, more]
      have same : bits - 1 - (max 4 (Nat.clog 2 (position / 2 + 1)) - 4) =
          bits - (max 4 (Nat.clog 2 (position / 2 + 1) + 1) - 4) := by omega
      rw [same]
    next small =>
      have four : Nat.clog 2 (position + 1) ≤ 4 := Nat.clog_le_of_le_pow (by omega)
      rw [displacementBits, Nat.max_eq_left four]
      rfl

/-- The loop leaves the bits of a back reference that are not its displacement to its length. -/
theorem tokenSplit_eq {position : Nat} (some : 1 ≤ position) (inside : position ≤ 4096) :
    tokenSplit position (position - 1) 0x0FFF 12 =
      (2 ^ (16 - displacementBits position) - 1, 16 - displacementBits position) := by
  have bits := tokenSplit_at position (position - 1) 12 (by omega)
  have back : position - 1 + 1 = position := by omega
  have four : 4 ≤ displacementBits position := Nat.le_max_left _ _
  have same : 12 - (displacementBits position - 4) = 16 - displacementBits position := by omega
  rw [back, same] at bits
  exact bits

/-! ### One item -/

theorem or_shiftLeft (low high : UInt8) : low.toNat ||| high.toNat <<< 8 = value [low, high] := by
  have small := low.toNat_lt
  rw [Nat.or_comm, ← Nat.shiftLeft_add_eq_or_of_lt small, Nat.shiftLeft_eq, value, value, value]
  omega

/-- What has been written is this text, with the rest of the destination behind it. -/
structure Written (destination text : List UInt8) (s : Lznt1) : Prop where
  offset : s.destinationOffset = text.length
  room : text.length ≤ destination.length
  content : s.destination = text ++ destination.drop text.length

section

variable {source destination text prior out payload : List UInt8} {s : Lznt1}
  {payloadEnd displacement tags bit : Nat}

theorem Written.length (written : Written destination text s) :
    s.destination.length = destination.length := by
  have room := written.room
  rw [written.content, List.length_append, List.length_drop]
  omega

theorem Written.put (written : Written destination text s)
    (more : text.length < destination.length) (byte : UInt8)
    (sourceOffset : Nat) :
    Safe (store s.destination s.destinationOffset byte) fun next =>
      Written destination (text ++ [byte]) ⟨sourceOffset, s.destinationOffset + 1, next⟩ := by
  have inside : s.destinationOffset < s.destination.length := by
    rw [written.length, written.offset]
    exact more
  refine safe_mono (safe_store inside) ?_
  rintro next rfl
  refine ⟨?_, ?_, ?_⟩
  · rw [List.length_append, List.length_singleton, written.offset]
  · rw [List.length_append, List.length_singleton]
    omega
  · dsimp only
    rw [written.offset, written.content, List.set_append_right _ _ (Nat.le_refl _), Nat.sub_self,
      List.drop_eq_getElem_cons more, List.set_cons_zero, List.length_append, List.length_singleton,
      List.append_assoc, List.singleton_append]

theorem slice_cons {offset : Nat} (left : offset < payloadEnd) (inside : payloadEnd ≤ source.length) :
    slice source offset (payloadEnd - offset) =
      source[offset] :: slice source (offset + 1) (payloadEnd - (offset + 1)) := by
  have more : payloadEnd - offset = payloadEnd - (offset + 1) + 1 := by omega
  rw [slice, List.drop_eq_getElem_cons (by omega), more, List.take_succ_cons, slice]

theorem copyStored_safe (size : Nat) : ∀ (text : List UInt8) (s : Lznt1), Written destination text s →
    s.sourceOffset + size ≤ source.length → text.length + size ≤ destination.length →
    Safe (copyStored source size s) fun s' =>
      Written destination (text ++ slice source s.sourceOffset size) s' ∧
        s'.sourceOffset = s.sourceOffset + size := by
  induction size with
  | zero =>
    intro text s written _ _
    refine safe_pure ⟨?_, rfl⟩
    rw [slice, List.take_zero, List.append_nil]
    exact written
  | succ size ih =>
    intro text s written inside room
    have here : s.sourceOffset < source.length := by omega
    refine safe_bind (safe_load here) ?_
    rintro byte rfl
    refine safe_bind (written.put (by omega) _ (s.sourceOffset + 1)) ?_
    intro next put
    have longer : (text ++ [source[s.sourceOffset]]).length = text.length + 1 := by simp
    refine safe_mono (ih _ _ put (by dsimp only; omega) (by omega)) ?_
    rintro s' ⟨copied, moved⟩
    refine ⟨?_, by rw [moved, Nat.add_assoc, Nat.add_comm 1]⟩
    rw [slice, List.drop_eq_getElem_cons here, List.take_succ_cons, List.append_cons]
    exact copied

theorem copyBack_safe (small : destination.length < 2 ^ 32) (displaced : 0 < displacement)
    (length : Nat) :
    ∀ (out : List UInt8) (s : Lznt1), displacement ≤ out.length → Written destination (prior ++ out) s →
      (prior ++ out).length + length ≤ destination.length →
      Safe (copyBack displacement length s) fun s' =>
        Written destination (prior ++ repeatTail out displacement length) s' ∧
          s'.sourceOffset = s.sourceOffset := by
  induction length with
  | zero =>
    intro out s _ written _
    refine safe_pure ⟨?_, rfl⟩
    rw [repeatTail_zero]
    exact written
  | succ length ih =>
    intro out s inside written room
    have offset := written.offset
    rw [List.length_append] at offset room
    have back : sub32 s.destinationOffset displacement = prior.length + (out.length - displacement) := by
      rw [sub32_eq (by omega) (by omega)]
      omega
    have within : prior.length + (out.length - displacement) < s.destination.length := by
      rw [written.length]
      omega
    rw [copyBack, back]
    refine safe_bind (safe_load within) ?_
    rintro byte rfl
    refine safe_bind (written.put (by rw [List.length_append]; omega) _ s.sourceOffset) ?_
    intro next put
    -- The byte read is the one that the repetition takes.
    have read : s.destination[prior.length + (out.length - displacement)] =
        out.getD (out.length - displacement) default := by
      have place : out.length - displacement < out.length := by omega
      simp only [written.content, List.append_assoc]
      rw [List.getElem_append_right (by omega), List.getElem_append_left (by omega),
        List.getD_eq_getElem?_getD, List.getElem?_eq_getElem place]
      simp only [Nat.add_sub_cancel_left, Option.getD_some]
    rw [read, List.append_assoc] at put
    refine safe_mono (ih _ _ ?_ put ?_) ?_
    · rw [List.length_append, List.length_singleton]
      omega
    · rw [List.length_append, List.length_append, List.length_singleton]
      omega
    · rintro s' ⟨copied, kept⟩
      rw [repeatTail_succ displaced inside] at copied
      exact ⟨copied, kept⟩

/-- Part of a payload has been expanded, `bit` items of the last tag byte among it; the whole expansion
is the result. -/
def Expanding (source destination prior : List UInt8) (payloadEnd : Nat) (result : Option (List UInt8))
    (bit tags : Nat) (s : Lznt1) : Prop :=
  ∃ out, Written destination (prior ++ out) s ∧ out.length ≤ 4096 ∧ s.sourceOffset ≤ payloadEnd ∧
    expandItems (slice source s.sourceOffset (payloadEnd - s.sourceOffset)) bit tags out = result

variable {result : Option (List UInt8)}

theorem Written.position (written : Written destination (prior ++ out) s)
    (small : destination.length < 2 ^ 32) :
    sub32 s.destinationOffset prior.length = out.length := by
  have room := written.room
  rw [List.length_append] at room
  rw [written.offset, List.length_append, sub32_eq (by omega) (by omega), Nat.add_sub_cancel_left]

theorem literalItem_safe (small : destination.length < 2 ^ 32) (inside : payloadEnd ≤ source.length)
    (expanding : Expanding source destination prior payloadEnd result bit tags s)
    (more : s.sourceOffset < payloadEnd)
    (within : bit ≠ 8) (literal : tags.testBit bit = false) :
    Safe (literalItem source prior.length s) fun s' =>
      Expanding source destination prior payloadEnd result (bit + 1) tags s' ∧
      s.sourceOffset < s'.sourceOffset := by
  obtain ⟨out, written, fits, _, expands⟩ := expanding
  unfold literalItem
  rw [written.position small, written.offset, written.length]
  refine safe_bind safe_demand ?_
  intro _ allowed
  refine safe_bind (safe_load (by omega)) ?_
  rintro byte rfl
  have put := written.put (by omega) source[s.sourceOffset] (s.sourceOffset + 1)
  rw [written.offset, List.append_assoc] at put
  refine safe_bind put ?_
  intro next written
  refine safe_pure ⟨⟨_, written, ?_, more, ?_⟩, Nat.lt_succ_self _⟩
  · rw [List.length_append, List.length_singleton]
    omega
  · rw [slice_cons more inside, expandItems_literal within literal] at expands
    exact expands

theorem copyItem_safe (small : destination.length < 2 ^ 32) (sized : source.length + 2 < 2 ^ 32)
    (inside : payloadEnd ≤ source.length)
    (expanding : Expanding source destination prior payloadEnd result bit tags s)
    (more : s.sourceOffset < payloadEnd)
    (within : bit ≠ 8) (copied : tags.testBit bit = true) :
    Safe (copyItem source payloadEnd prior.length s) fun s' =>
      Expanding source destination prior payloadEnd result (bit + 1) tags s' ∧
      s.sourceOffset < s'.sourceOffset := by
  obtain ⟨out, written, fits, _, expands⟩ := expanding
  unfold copyItem
  dsimp only
  rw [written.position small, written.offset, written.length, Nat.mod_eq_of_lt (by omega)]
  refine safe_bind safe_demand ?_
  intro _ allowed
  have room : s.sourceOffset + 1 < payloadEnd := by omega
  have some : 1 ≤ out.length := by omega
  refine safe_bind (safe_load (by omega)) ?_
  rintro low rfl
  refine safe_bind (safe_load (by omega)) ?_
  rintro high rfl
  rw [or_shiftLeft, tokenSplit_eq some fits, Nat.and_two_pow_sub_one_eq_mod, Nat.shiftRight_eq_div_pow,
    sub32_eq fits (by omega)]
  refine safe_bind safe_demand ?_
  intro _ reference
  rw [sub32_eq written.room (by omega)] at reference
  have reaches := Nat.not_lt.mp fun beyond => reference (Or.inl beyond)
  rw [slice_cons more inside, slice_cons room inside, expandItems_copy within copied reaches] at expands
  refine safe_mono (copyBack_safe small (Nat.succ_pos _) _ out _ (by omega) ⟨rfl, written.room, written.content⟩
    (by omega)) ?_
  rintro s' ⟨written, moved⟩
  dsimp only at moved
  refine ⟨⟨_, written, ?_, by omega, ?_⟩, by omega⟩
  · rw [repeatTail_length]
    omega
  · rw [moved]
    exact expands

/-! ### A chunk -/

theorem tagItems_safe (small : destination.length < 2 ^ 32) (sized : source.length + 2 < 2 ^ 32)
    (inside : payloadEnd ≤ source.length) (left : Nat) : ∀ s, left ≤ 8 →
    Expanding source destination prior payloadEnd result (8 - left) tags s →
    Safe (tagItems source payloadEnd prior.length tags left s) fun s' =>
      (∃ tags, Expanding source destination prior payloadEnd result 8 tags s') ∧
        s.sourceOffset ≤ s'.sourceOffset := by
  induction left with
  | zero =>
    intro s _ expanding
    exact safe_pure ⟨⟨tags, expanding⟩, Nat.le_refl _⟩
  | succ left ih =>
    intro s few expanding
    have bit : 8 - (left + 1) = 7 - left := by omega
    have next : 7 - left + 1 = 8 - left := by omega
    have within : 7 - left ≠ 8 := by omega
    rw [bit] at expanding
    rw [tagItems]
    split
    next more =>
      have rest : ∀ s', Expanding source destination prior payloadEnd result (7 - left + 1) tags s' ∧
          s.sourceOffset < s'.sourceOffset →
          Safe (tagItems source payloadEnd prior.length tags left s') fun s'' =>
            (∃ tags, Expanding source destination prior payloadEnd result 8 tags s'') ∧
              s.sourceOffset ≤ s''.sourceOffset := by
        rintro s' ⟨expanding, moved⟩
        rw [next] at expanding
        refine safe_mono (ih s' (by omega) expanding) ?_
        rintro s'' ⟨expanding, later⟩
        exact ⟨expanding, by omega⟩
      dsimp only
      split
      next copied => exact safe_bind (copyItem_safe small sized inside expanding more within copied) rest
      next literal =>
        have literal := Bool.eq_false_of_not_eq_true literal
        exact safe_bind (literalItem_safe small inside expanding more within literal) rest
    next done =>
      -- The payload has ended inside the items of this tag byte.
      obtain ⟨out, written, fits, offset, expands⟩ := expanding
      refine safe_pure ⟨⟨tags, out, written, fits, offset, ?_⟩, Nat.le_refl _⟩
      have none : payloadEnd - s.sourceOffset = 0 := by omega
      rw [none, slice, List.take_zero, expandItems_nil] at expands
      rw [none, slice, List.take_zero, expandItems_nil]
      exact expands

theorem expandItems_tags (payload : List UInt8) (tags tags' : Nat) (out : List UInt8) :
    expandItems payload 8 tags out = expandItems payload 8 tags' out := by
  cases payload with
  | nil => rw [expandItems_nil, expandItems_nil]
  | cons byte payload => rw [expandItems_tag, expandItems_tag]

theorem tagLoop_safe (small : destination.length < 2 ^ 32) (sized : source.length + 2 < 2 ^ 32)
    (inside : payloadEnd ≤ source.length)
    (expanding : Expanding source destination prior payloadEnd result 8 0 s) :
    Safe (tagLoop source payloadEnd prior.length s)
      (Proceeds (Expanding source destination prior payloadEnd result 8 0) (fun s => source.length - s.sourceOffset)
        (Expanding source destination prior payloadEnd result 8 0) s) := by
  obtain ⟨out, written, fits, offset, expands⟩ := expanding
  rw [tagLoop, written.position small]
  split
  next more =>
    refine safe_bind (safe_load (by omega)) ?_
    rintro byte rfl
    rw [slice_cons more.1 inside, expandItems_tag] at expands
    refine safe_bind (tagItems_safe (s := { s with sourceOffset := s.sourceOffset + 1 }) small sized inside 8
      (Nat.le_refl _) ⟨out, ⟨written.offset, written.room, written.content⟩, fits, more.1, expands⟩) ?_
    rintro s' ⟨⟨tags, expanding⟩, moved⟩
    dsimp only at moved
    refine safe_pure ⟨?_, by dsimp only; omega⟩
    obtain ⟨out', written, fits, offset, expands⟩ := expanding
    rw [expandItems_tags _ tags 0] at expands
    exact ⟨out', written, fits, offset, expands⟩
  next => exact safe_pure ⟨out, written, fits, offset, expands⟩

theorem chunk_safe (small : destination.length < 2 ^ 32) (sized : source.length + 2 < 2 ^ 32)
    (inside : payloadEnd ≤ source.length) (written : Written destination text s)
    (offset : s.sourceOffset ≤ payloadEnd) :
    Safe (iterate (tagLoop source payloadEnd s.destinationOffset) (source.length + 1) s) fun s' =>
      s'.sourceOffset = payloadEnd →
        ∃ out, expandChunk (slice source s.sourceOffset (payloadEnd - s.sourceOffset)) = some out ∧
          Written destination (text ++ out) s' := by
  rw [written.offset]
  have start : Expanding source destination text payloadEnd
      (expandItems (slice source s.sourceOffset (payloadEnd - s.sourceOffset)) 8 0 []) 8 0 s := by
    refine ⟨[], ?_, Nat.zero_le _, offset, rfl⟩
    rw [List.append_nil]
    exact written
  refine safe_mono (safe_iterate (fun s' expanding => tagLoop_safe small sized inside expanding) _ s start ?_) ?_
  · omega
  · rintro s' ⟨out, written, fits, _, expands⟩ done
    have none : payloadEnd - s'.sourceOffset = 0 := by omega
    rw [none, slice, List.take_zero, expandItems_nil] at expands
    refine ⟨out, ?_, written⟩
    rw [expandChunk, ← expands, Option.filter_some, if_pos (decide_eq_true fits)]

/-! ### The headers -/

section

variable (low high : UInt8)

theorem and_field (number width shift : Nat) :
    number &&& (2 ^ width - 1) <<< shift = number / 2 ^ shift % 2 ^ width * 2 ^ shift := by
  have low : (number &&& (2 ^ width - 1) <<< shift) % 2 ^ shift = 0 := by
    rw [Nat.and_mod_two_pow, Nat.shiftLeft_eq, Nat.mul_mod_left, Nat.and_zero]
  have high : (number &&& (2 ^ width - 1) <<< shift) / 2 ^ shift = number / 2 ^ shift % 2 ^ width := by
    rw [← Nat.shiftRight_eq_div_pow, Nat.shiftRight_and_distrib, Nat.shiftLeft_shiftRight,
      Nat.and_two_pow_sub_one_eq_mod, Nat.shiftRight_eq_div_pow]
  have parts := Nat.div_add_mod (number &&& (2 ^ width - 1) <<< shift) (2 ^ shift)
  rw [low, high, Nat.add_zero, Nat.mul_comm] at parts
  exact parts.symm

theorem signature_iff : value [low, high] &&& 0x7000 = 0x3000 ↔ high.toNat / 16 % 8 = 3 := by
  have small := low.toNat_lt
  have number : value [low, high] / 2 ^ 12 = high.toNat / 16 := by
    rw [value, value, value]
    omega
  have field := and_field (value [low, high]) 3 12
  rw [number] at field
  have mask : value [low, high] &&& 0x7000 = high.toNat / 16 % 8 * 4096 := field
  rw [mask]
  omega

theorem payloadSize_eq : value [low, high] &&& 0x0FFF = value [low, high] % 4096 :=
  Nat.and_two_pow_sub_one_eq_mod _ 12

theorem stored_iff : value [low, high] &&& 0x8000 = 0 ↔ high.toNat < 128 := by
  have small := low.toNat_lt
  have byte := high.toNat_lt
  have number : value [low, high] / 2 ^ 15 = high.toNat / 128 := by
    rw [value, value, value]
    omega
  have field := and_field (value [low, high]) 1 15
  rw [number] at field
  have mask : value [low, high] &&& 0x8000 = high.toNat / 128 % 2 * 32768 := field
  rw [mask]
  omega

theorem header_zero (none : value [low, high] = 0) : low = 0 ∧ high = 0 := by
  rw [value, value, value] at none
  exact ⟨UInt8.toNat_inj.mp (by rw [UInt8.toNat_zero]; omega), UInt8.toNat_inj.mp (by rw [UInt8.toNat_zero]; omega)⟩

end

/-! ### A whole text -/

/-- Some chunks have been expanded into the destination. -/
def Decoded (source destination : List UInt8) (s : Lznt1) : Prop :=
  ∃ outs, Chunks source outs (source.drop s.sourceOffset) ∧ Written destination outs.flatten s ∧
    s.sourceOffset ≤ source.length

/-- The expansion stops at the end of the text, or where the destination is full. -/
def Stopped (source destination : List UInt8) (s : Lznt1) : Prop :=
  ∃ outs rest, Chunks source outs rest ∧ Written destination outs.flatten s ∧
    (Ends rest ∨ outs.flatten.length = destination.length)

theorem Decoded.more {outs : List (List UInt8)}
    (chunks : Chunks source outs (source.drop s.sourceOffset))
    {next : Lznt1} {out : List UInt8}
    (chunk : Chunks (source.drop s.sourceOffset) [out] (source.drop next.sourceOffset))
    (written : Written destination (outs.flatten ++ out) next)
    (offset : next.sourceOffset ≤ source.length) :
    Decoded source destination next := by
  refine ⟨outs ++ [out], chunks.trans chunk, ?_, offset⟩
  rw [List.flatten_append, List.flatten_singleton]
  exact written

theorem drop_header {offset : Nat} (room : offset + 2 ≤ source.length) :
    source.drop offset = source[offset] :: source[offset + 1] :: source.drop (offset + 2) := by
  rw [List.drop_eq_getElem_cons (by omega), List.drop_eq_getElem_cons (by omega)]

theorem drop_payload (offset size : Nat) :
    source.drop offset = slice source offset size ++ source.drop (offset + size) := by
  rw [slice, ← List.drop_drop, List.take_append_drop]

theorem chunkLoop_safe (small : destination.length < 2 ^ 32) (sized : source.length + 2 < 2 ^ 32)
    (decoded : Decoded source destination s) :
    Safe (chunkLoop source s) (Proceeds (Decoded source destination) (fun s => source.length - s.sourceOffset)
        (Stopped source destination) s) := by
  obtain ⟨outs, chunks, written, offset⟩ := decoded
  unfold chunkLoop
  rw [written.length, written.offset, Nat.mod_eq_of_lt (by omega)]
  split
  next more =>
    obtain ⟨room, free⟩ := more
    refine safe_bind (safe_load (by omega)) ?_
    rintro low rfl
    refine safe_bind (safe_load (by omega)) ?_
    rintro high rfl
    have header := drop_header room
    dsimp only
    rw [or_shiftLeft]
    split
    next none =>
      obtain ⟨low, high⟩ := header_zero _ _ none
      refine safe_pure ⟨outs, _, chunks, ⟨rfl, written.room, written.content⟩, Or.inl (Or.inr ?_)⟩
      rw [header, low, high]
      exact ⟨_, rfl⟩
    next =>
      refine safe_bind safe_demand ?_
      intro _ signature
      refine safe_bind safe_demand ?_
      intro _ payload
      rw [payloadSize_eq, sub32_eq (by omega) (by omega)] at payload
      rw [payloadSize_eq]
      have heads : Heads source[s.sourceOffset] source[s.sourceOffset + 1]
          (value [source[s.sourceOffset], source[s.sourceOffset + 1]] % 4096 + 1)
          (decide (128 ≤ source[s.sourceOffset + 1].toNat)) := ⟨(signature_iff _ _).mp signature, rfl, rfl⟩
      generalize value [source[s.sourceOffset], source[s.sourceOffset + 1]] % 4096 + 1 = size at *
      have inside : s.sourceOffset + 2 + size ≤ source.length := by omega
      have length : (slice source (s.sourceOffset + 2) size).length = size := slice_length inside
      rw [← length] at heads
      have here : Written destination outs.flatten ⟨s.sourceOffset + 2, outs.flatten.length, s.destination⟩ :=
        ⟨rfl, written.room, written.content⟩
      rw [drop_payload (s.sourceOffset + 2) size] at header
      split
      next stored =>
        rw [stored_iff] at stored
        rw [decide_eq_false (by omega)] at heads
        refine safe_bind safe_demand ?_
        intro _ copied
        rw [written.length, sub32_eq written.room small] at copied
        refine safe_bind (copyStored_safe size _ _ here inside (by omega)) ?_
        rintro s' ⟨put, moved⟩
        refine safe_pure ⟨Decoded.more chunks ?_ ⟨put.offset, put.room, put.content⟩ inside, ?_⟩
        · rw [header]
          exact .stored heads (.nil _)
        · dsimp only
          omega
      next compressed =>
        rw [stored_iff] at compressed
        rw [decide_eq_true (by omega)] at heads
        refine safe_bind (chunk_safe small sized inside here (by dsimp only; omega)) ?_
        intro s' expands
        refine safe_bind safe_demand ?_
        intro _ done
        obtain ⟨out, expanded, put⟩ := expands done
        dsimp only at expanded
        rw [Nat.add_sub_cancel_left] at expanded
        refine safe_pure ⟨Decoded.more chunks ?_ put (by omega), ?_⟩
        · rw [header, done]
          exact .compressed heads expanded (.nil _)
        · dsimp only
          omega
  next done =>
    refine safe_pure ⟨outs, _, chunks, written, ?_⟩
    have room := written.room
    rw [Ends, List.length_drop]
    omega

/-- The decompressor ends without an access outside the two buffers. What it accepts is a sequence of chunks,
each of which has an expansion of at most 4096 bytes; it writes these expansions one behind the other and
leaves the rest of the destination alone. Only where the destination is full may chunks be left. -/
theorem lznt1Decompress_sound (small : destination.length < 2 ^ 32)
    (sized : source.length + 2 < 2 ^ 32) :
    Safe (lznt1Decompress source destination) fun result =>
      ∃ outs rest, Chunks source outs rest ∧ (∀ out ∈ outs, out.length ≤ 4096) ∧
        result = (outs.flatten.length, outs.flatten ++ destination.drop outs.flatten.length) ∧
        outs.flatten.length ≤ destination.length ∧
        (Ends rest ∨ outs.flatten.length = destination.length) := by
  have start : Decoded source destination ⟨0, 0, destination⟩ :=
    ⟨[], .nil _, ⟨rfl, Nat.zero_le _, rfl⟩, Nat.zero_le _⟩
  refine safe_bind (safe_iterate (fun s decoded => chunkLoop_safe small sized decoded) _ _ start (by omega)) ?_
  rintro s ⟨outs, rest, chunks, written, ends⟩
  refine safe_pure ⟨outs, rest, chunks, chunks.small, ?_, written.room, ends⟩
  rw [written.offset, written.content]

end

/-- A text of a literal, a back reference to it and a stored byte. -/
theorem lznt1Decompress_sound_small :
    ∃ outs rest, Chunks [3, 0xB0, 2, 65, 1, 0, 0, 0x30, 66] outs rest ∧
    (∀ out ∈ outs, out.length ≤ 4096) ∧
      (6, [65, 65, 65, 65, 65, 66, 0]) =
        (outs.flatten.length, outs.flatten ++ [0, 0, 0, 0, 0, 0, 0].drop outs.flatten.length) ∧
      outs.flatten.length ≤ 7 ∧ (Ends rest ∨ outs.flatten.length = 7) := by
  have run : lznt1Decompress [3, 0xB0, 2, 65, 1, 0, 0, 0x30, 66] [0, 0, 0, 0, 0, 0, 0] =
      .ok (6, [65, 65, 65, 65, 65, 66, 0]) := by decide +kernel
  have sound := @lznt1Decompress_sound [3, 0xB0, 2, 65, 1, 0, 0, 0x30, 66] [0, 0, 0, 0, 0, 0, 0] (by decide)
    (by decide)
  rw [run] at sound
  exact sound

/-- Behind a full destination the second chunk is not looked at, and the run is a success all the same. -/
theorem fullDestination_stops : lznt1Decompress [0, 0x30, 65, 0, 0x30, 66] [0] = .ok (1, [65]) ∧
      ∃ outs, Expansion [0, 0x30, 65, 0, 0x30, 66] outs ∧
        (∀ outs', Expansion [0, 0x30, 65, 0, 0x30, 66] outs' → outs' = outs) ∧ outs.flatten ≠ [65] := by
  have expansion : Expansion [0, 0x30, 65, 0, 0x30, 66] [[65], [66]] :=
    ⟨[], @Chunks.stored 0 0x30 [65] [0, 0x30, 66] [] [[66]] ⟨by decide, by decide, by decide⟩
      (@Chunks.stored 0 0x30 [66] [] [] [] ⟨by decide, by decide, by decide⟩ (.nil _)), Or.inl (by decide)⟩
  exact ⟨by decide +kernel, _, expansion, fun _ other => expansion_unique other expansion, by decide⟩

end AsasOs.Ntfs
