import AsasOs.Iso9660.Records

/-!
# The records of an ISO 9660 directory

A loop over a directory goes from sector to sector, and from record to record in a sector. The records that it comes to
do not depend on what it does with them, only on the bytes: they are a list, and something ends it. The offset has 32
bits. A directory that goes up to the end of the address space starts over.

## Main results

- `walk_eq`: a loop over a directory visits a list of records.
- `walk_wrapped`: a loop that starts over in the state it began with does not end.
-/
namespace AsasOs.Iso9660

open Bytes Checked Optical

/-! ### The records of a sector -/

/-- What ends the records of a sector: one that is not well formed, the end of the directory, or the next sector. -/
inductive Border
  | bad
  | past
  | full
  deriving DecidableEq

/-- A record that is not the one of the directory or of its parent. -/
def Visible (sector : Memory) (start : Nat) : Prop :=
  sector (start + 32) ≠ 1 ∨ (sector (start + 33) ≠ 0 ∧ sector (start + 33) ≠ 1)

instance (sector : Memory) (start : Nat) : Decidable (Visible sector start) := by
  unfold Visible
  infer_instance

/-- The positions of the records from one on, in a sector that is at an offset of the directory. -/
def recordsFrom (size offset : Nat) (sector : Memory) : Nat → Nat → List Nat × Border
  | 0, _ => ([], .full)
  | more + 1, position =>
    if position < 2048 then
      if offset + position < size then
        let length := (sector position).toNat
        if length = 0 then ([], .full)
        else if position + length > 2048 ∨ length < 34 then ([], .bad)
        else
          let rest := recordsFrom size offset sector more (position + length)
          (if Visible sector position then position :: rest.1 else rest.1, rest.2)
      else ([], .past)
    else ([], .full)

theorem mem_recordsFrom {size offset more position start : Nat} {sector : Memory}
    (member : start ∈ (recordsFrom size offset sector more position).1) : Bounded sector start := by
  induction more generalizing position with
  | zero => cases member
  | succ more ih =>
    unfold recordsFrom at member
    split at member
    next =>
      split at member
      next =>
        dsimp only at member
        split at member
        next => cases member
        next =>
          split at member
          next => cases member
          next fits =>
            split at member
            next =>
              rcases List.mem_cons.mp member with rfl | later
              · exact ⟨by omega, by omega⟩
              · exact ih later
            next => exact ih member
      next => cases member
    next => cases member

/-! ### The records of a directory -/

/-- A record: the sector and its position in it. -/
abbrev Item := Memory × Nat

/-- What ends the records of a directory. -/
inductive Ending
  | stop
  | last
  | wrapped
  deriving DecidableEq

def itemsFrom (device : Device) (directory : Record) : Nat → Nat → List Item × Ending
  | 0, _ => ([], .wrapped)
  | more + 1, n =>
    if 2048 * n < directory.size then
      match sectorOf device ((directory.extent + n) % 2 ^ 32) with
      | none => ([], .stop)
      | some sector =>
        let here := recordsFrom directory.size (2048 * n) sector 64 0
        let items := here.1.map (fun start => (sector, start))
        match here.2 with
        | .bad => (items, .stop)
        | .past => (items, .last)
        | .full =>
          let rest := itemsFrom device directory more (n + 1)
          (items ++ rest.1, rest.2)
    else ([], .last)

/-- The records of a directory. There are 2 ^ 21 sectors up to the end of the address space. -/
def itemsOf (device : Device) (directory : Record) :
    List Item := (itemsFrom device directory (2 ^ 21) 0).1

def endingOf (device : Device) (directory : Record) : Ending := (itemsFrom device directory (2 ^ 21) 0).2

section Items

variable {device : Device} {directory : Record}

theorem mem_itemsFrom {more n : Nat} {item : Item}
    (member : item ∈ (itemsFrom device directory more n).1) :
    Bounded item.1 item.2 := by
  have here (sector : Memory) (member : item ∈ (recordsFrom directory.size (2048 * n) sector 64 0).1.map
      (fun start => (sector, start))) : Bounded item.1 item.2 := by
    obtain ⟨start, found, rfl⟩ := List.mem_map.mp member
    exact mem_recordsFrom found
  induction more generalizing n with
  | zero => cases member
  | succ more ih =>
    unfold itemsFrom at member
    split at member
    next =>
      split at member
      next => cases member
      next sector _ =>
        dsimp only at member
        split at member
        next => exact here sector member
        next => exact here sector member
        next =>
          rcases List.mem_append.mp member with first | later
          · exact here sector first
          · refine ih later fun sector member => ?_
            obtain ⟨start, found, rfl⟩ := List.mem_map.mp member
            exact mem_recordsFrom found
    next => cases member

theorem bounded_of_mem {item : Item} (member : item ∈ itemsOf device directory) :
    Bounded item.1 item.2 :=
  mem_itemsFrom member

theorem mem_itemsFrom_first {more n start : Nat} {sector : Memory} (inside : 2048 * n < directory.size)
    (given : sectorOf device ((directory.extent + n) % 2 ^ 32) = some sector)
    (member : start ∈ (recordsFrom directory.size (2048 * n) sector 64 0).1) :
    (sector, start) ∈ (itemsFrom device directory (more + 1) n).1 := by
  have here : (sector, start) ∈ (recordsFrom directory.size (2048 * n) sector 64 0).1.map (fun start => (sector, start)) :=
    List.mem_map.mpr ⟨start, member, rfl⟩
  rw [itemsFrom, if_pos inside, given]
  dsimp only
  cases (recordsFrom directory.size (2048 * n) sector 64 0).2 with
  | bad => exact here
  | past => exact here
  | full => exact List.mem_append_left _ here

theorem wrapped_sector {more n : Nat} (wrapped : (itemsFrom device directory more n).2 = .wrapped)
    {k : Nat}
    (before : n ≤ k) (within : k < n + more) :
    2048 * k < directory.size ∧ ∃ sector, sectorOf device ((directory.extent + k) % 2 ^ 32) =
    some sector ∧
      (recordsFrom directory.size (2048 * k) sector 64 0).2 = .full ∧
        ∀ start ∈ (recordsFrom directory.size (2048 * k) sector 64 0).1,
          (sector, start) ∈ (itemsFrom device directory more n).1 := by
  induction more generalizing n with
  | zero => omega
  | succ more ih =>
    unfold itemsFrom at wrapped ⊢
    split at wrapped
    next inside =>
      rw [if_pos inside]
      split at wrapped
      next => cases wrapped
      next sector given =>
        dsimp only at wrapped ⊢
        split at wrapped
        next => cases wrapped
        next => cases wrapped
        next full =>
          rcases Nat.eq_or_lt_of_le before with rfl | later
          · refine ⟨inside, sector, given, full, fun start member => List.mem_append.mpr (Or.inl ?_)⟩
            exact List.mem_map.mpr ⟨start, member, rfl⟩
          · obtain ⟨inside, other, given, full, members⟩ := ih wrapped later (by omega)
            exact ⟨inside, other, given, full,
              fun start member => List.mem_append.mpr (Or.inr (members start member))⟩
    next => cases wrapped

end Items

/-! ### Visits -/

section Visits

variable {σ ρ : Type} (visitor : Visitor σ ρ)

/-- A list of records, and what comes behind it. -/
def visitAll (after : σ → Run ρ) : List Item → σ → Run ρ
  | [], s => if visitor.more s = true then after s else visitor.last s
  | item :: rest, s =>
    if visitor.more s = true then visitor.visit item.1 item.2 s >>= Sum.elim (visitAll after rest) .ok
    else visitor.last s

/-- What is done behind the last record, with the steps that are left. -/
def ending (device : Device) (directory : Record) (steps : Nat) : Ending → σ → Run ρ
  | .stop => visitor.stop
  | .last => visitor.last
  | .wrapped => fun s => iterate (walkBody visitor device directory) (steps + 1) (0, s)

variable {visitor} {device : Device} {directory : Record}

variable {after : σ → Run ρ}

theorem visitAll_done (items : List Item) {s : σ} (done : ¬visitor.more s = true) :
    visitAll visitor after items s = visitor.last s := by
  cases items with
  | nil => exact if_neg done
  | cons item rest => exact if_neg done

theorem visitAll_cons (item : Item) (rest : List Item) {s : σ} (more : visitor.more s = true) :
    visitAll visitor after (item :: rest) s =
      visitor.visit item.1 item.2 s >>= Sum.elim (visitAll visitor after rest) .ok :=
  if_pos more

theorem visitAll_append (items rest : List Item) (s : σ) :
    visitAll visitor (visitAll visitor after rest) items s = visitAll visitor after (items ++ rest) s := by
  induction items generalizing s with
  | nil =>
    rw [List.nil_append, visitAll]
    split
    next => rfl
    next done => exact (visitAll_done rest done).symm
  | cons item items ih =>
    by_cases more : visitor.more s = true
    · rw [List.cons_append, visitAll_cons item items more, visitAll_cons item _ more]
      congr 1
      funext next
      cases next with
      | inl t => exact ih t
      | inr result => rfl
    · rw [visitAll_done _ more, visitAll_done _ more]

/-- What is done at the end of a sector. -/
def bordered (visitor : Visitor σ ρ) (next : σ → Run ρ) : Border → σ → Run ρ
  | .bad => visitor.stop
  | .past => visitor.last
  | .full => next

theorem sector_eq {size offset : Nat} {sector : Memory} {rest : Nat × σ → Run ρ}
    (whole : offset + 2048 ≤ 2 ^ 32)
    (done : ∀ o t, ¬(o < size ∧ visitor.more t = true) → rest (o, t) = visitor.last t)
    {more position : Nat} (s : σ)
    (within : position ≤ 2048) (enough : 2048 < position + 34 * more) :
    iterate (sectorBody visitor size sector) more ((offset + position) % 2 ^ 32, position, s) >>= Sum.elim rest .ok =
      visitAll visitor
        (bordered visitor (fun t => rest ((offset + 2048) % 2 ^ 32, t)) (recordsFrom size offset sector more position).2)
        ((recordsFrom size offset sector more position).1.map (fun start => (sector, start))) s := by
  induction more generalizing position s with
  | zero => omega
  | succ more ih =>
    by_cases go : visitor.more s = true
    · rw [iterate_succ, sectorBody, recordsFrom]
      dsimp only
      by_cases here : position < 2048
      · rw [if_pos here, Nat.mod_eq_of_lt (by omega : offset + position < 2 ^ 32)]
        by_cases inside : offset + position < size
        · rw [if_pos inside, if_pos ⟨here, inside, go⟩, peek_eq here, ok_bind]
          by_cases none : (sector position).toNat = 0
          · have next : offset + position + (2048 - position) = offset + 2048 := by omega
            rw [if_pos none, if_pos (UInt8.toNat_inj.mp none), next]
            exact (if_pos go).symm
          · rw [if_neg none, if_neg fun same => none (congrArg UInt8.toNat same)]
            have short : sector position < 34 ↔ (sector position).toNat < 34 := UInt8.lt_iff_toNat_lt
            by_cases bad : position + (sector position).toNat > 2048 ∨ (sector position).toNat < 34
            · rw [if_pos bad, if_pos (bad.imp_right short.mpr)]
              refine Eq.trans ?_ (if_pos go).symm
              dsimp only [bordered]
              cases visitor.stop s with
              | error stop => rfl
              | ok result => rfl
            · rw [if_neg bad, if_neg fun or => bad (or.imp_right short.mp), peek_eq (by omega), ok_bind,
                peek_eq (by omega), ok_bind, visitRecord]
              have later (t : σ) := @ih (position + (sector position).toNat) t (by omega) (by omega)
              rw [← Nat.add_assoc] at later
              have same : Visible sector position ↔
                  sector (position + 32) ≠ 1 ∨ sector (position + 33) ≠ 0 ∧ sector (position + 33) ≠ 1 := Iff.rfl
              by_cases visible : Visible sector position
              · rw [if_pos visible, if_pos (same.mp visible), List.map_cons, visitAll_cons _ _ go]
                cases visitor.visit sector position s with
                | error stop => rfl
                | ok next =>
                  cases next with
                  | inl t => exact later t
                  | inr result => rfl
              · rw [if_neg visible, if_neg fun or => visible (same.mpr or)]
                exact later s
        · rw [if_neg inside, if_neg fun all => inside all.2.1]
          exact (done _ s fun all => inside all.1).trans (if_pos go).symm
      · obtain rfl : position = 2048 := by omega
        rw [if_neg here, if_neg fun all => here all.1]
        exact (if_pos go).symm
    · rw [visitAll_done _ go, iterate_succ, sectorBody, if_neg fun all => go all.2.2]
      exact done _ s fun all => go all.2

theorem walk_done {steps : Nat} {o : Nat} {s : σ}
    (done : ¬(o < directory.size ∧ visitor.more s = true)) :
    iterate (walkBody visitor device directory) (steps + 1) (o, s) = visitor.last s := by
  rw [iterate_succ, walkBody, if_neg done]
  cases visitor.last s with
  | error stop => rfl
  | ok result => rfl

/-- A loop over a directory visits one record after the other. -/
theorem walk_eq (steps : Nat) (init : σ) : walk visitor (2 ^ 21 + (steps + 1)) device directory init =
      visitAll visitor (ending visitor device directory steps (endingOf device directory)) (itemsOf device directory)
        init := by
  have rounds (more n : Nat) (s : σ) (all : n + more = 2 ^ 21) :
      iterate (walkBody visitor device directory) (more + (steps + 1)) (2048 * n % 2 ^ 32, s) =
        visitAll visitor (ending visitor device directory steps (itemsFrom device directory more n).2)
          (itemsFrom device directory more n).1 s := by
    induction more generalizing n s with
    | zero =>
      obtain rfl : n = 2 ^ 21 := all
      rw [Nat.zero_add, itemsFrom]
      by_cases go : visitor.more s = true
      · exact (if_pos go).symm
      · rw [visitAll_done _ go]
        exact walk_done fun both => go both.2
    | succ more ih =>
      by_cases go : visitor.more s = true
      · rw [Nat.mod_eq_of_lt (by omega : 2048 * n < 2 ^ 32), Nat.add_right_comm, iterate_succ, walkBody, itemsFrom]
        dsimp only
        by_cases inside : 2048 * n < directory.size
        · rw [if_pos inside, if_pos ⟨inside, go⟩, Nat.mul_div_cancel_left _ (by decide), Nat.mul_mod_right,
            readIsoSector_eq]
          cases sectorOf device ((directory.extent + n) % 2 ^ 32) with
          | none =>
            refine Eq.trans ?_ (if_pos go).symm
            dsimp only [ending]
            cases visitor.stop s with
            | error stop => rfl
            | ok result => rfl
          | some sector =>
            have key := @sector_eq _ _ visitor directory.size (2048 * n) sector
              (iterate (walkBody visitor device directory) (more + (steps + 1))) (by omega)
              (fun o t done => walk_done done) 64 0 s (by omega) (by omega)
            rw [Nat.add_zero, Nat.mod_eq_of_lt (by omega : 2048 * n < 2 ^ 32)] at key
            refine key.trans ?_
            dsimp only
            cases (recordsFrom directory.size (2048 * n) sector 64 0).2 with
            | bad => rfl
            | past => rfl
            | full =>
              dsimp only
              rw [← visitAll_append]
              congr 1
              funext t
              exact ih (n + 1) t (by omega)
        · rw [if_neg inside, if_neg fun both => inside both.1]
          refine Eq.trans ?_ (if_pos go).symm
          dsimp only [ending]
          cases visitor.last s with
          | error stop => rfl
          | ok result => rfl
      · rw [visitAll_done _ go, (by omega : more + 1 + (steps + 1) = more + steps + 1 + 1)]
        exact walk_done fun both => go both.2
  exact rounds (2 ^ 21) 0 init rfl

theorem sector_kept {size offset : Nat} {sector : Memory} {s : σ} (whole : offset + 2048 ≤ 2 ^ 32)
    (go : visitor.more s = true) {more position : Nat} (within : position ≤ 2048)
    (enough : 2048 < position + 34 * more)
    (full : (recordsFrom size offset sector more position).2 = .full)
    (kept : ∀ start ∈ (recordsFrom size offset sector more position).1, visitor.visit sector start s = .ok (.inl s)) :
    iterate (sectorBody visitor size sector) more ((offset + position) % 2 ^ 32, position, s) =
      .ok (.inl ((offset + 2048) % 2 ^ 32, s)) := by
  induction more generalizing position with
  | zero => omega
  | succ more ih =>
    rw [iterate_succ, sectorBody]
    unfold recordsFrom at full kept
    dsimp only at full kept ⊢
    by_cases here : position < 2048
    · rw [if_pos here] at full kept
      rw [Nat.mod_eq_of_lt (by omega : offset + position < 2 ^ 32)]
      by_cases inside : offset + position < size
      · rw [if_pos inside] at full kept
        rw [if_pos ⟨here, inside, go⟩, peek_eq here, ok_bind]
        by_cases none : (sector position).toNat = 0
        · have next : offset + position + (2048 - position) = offset + 2048 := by omega
          rw [if_pos (UInt8.toNat_inj.mp none), next]
          rfl
        · rw [if_neg none] at full kept
          rw [if_neg fun same => none (congrArg UInt8.toNat same)]
          have short : sector position < 34 ↔ (sector position).toNat < 34 := UInt8.lt_iff_toNat_lt
          by_cases bad : position + (sector position).toNat > 2048 ∨ (sector position).toNat < 34
          · rw [if_pos bad] at full
            cases full
          · rw [if_neg bad] at full kept
            rw [if_neg fun or => bad (or.imp_right short.mp), peek_eq (by omega), ok_bind, peek_eq (by omega), ok_bind,
              visitRecord]
            have later := @ih (position + (sector position).toNat) (by omega) (by omega) full
            rw [← Nat.add_assoc] at later
            have same : Visible sector position ↔
                sector (position + 32) ≠ 1 ∨ sector (position + 33) ≠ 0 ∧ sector (position + 33) ≠ 1 := Iff.rfl
            by_cases visible : Visible sector position
            · rw [if_pos visible] at kept
              rw [if_pos (same.mp visible), kept position (List.mem_cons_self ..)]
              exact later fun start member => kept start (List.mem_cons_of_mem _ member)
            · rw [if_neg visible] at kept
              rw [if_neg fun or => visible (same.mpr or)]
              exact later kept
      · rw [if_neg inside] at full
        cases full
    · obtain rfl : position = 2048 := by omega
      rw [if_neg fun all => here all.1]
      rfl

/-- A loop that starts over in the state it began with does not end. -/
theorem walk_wrapped {s : σ} (go : visitor.more s = true)
    (kept : ∀ item ∈ itemsOf device directory, visitor.visit item.1 item.2 s = .ok (.inl s))
    (wrapped : endingOf device directory = .wrapped) (steps : Nat) :
    walk visitor steps device directory s = .error .endless := by
  have rounds (steps n : Nat) (before : n < 2 ^ 21) :
      iterate (walkBody visitor device directory) steps (2048 * n, s) = .error .endless := by
    induction steps generalizing n with
    | zero => rfl
    | succ steps ih =>
      obtain ⟨inside, sector, given, full, members⟩ := wrapped_sector wrapped (Nat.zero_le n) (by omega)
      have loop := @sector_kept _ _ visitor directory.size (2048 * n) sector s (by omega) go 64 0 (by omega) (by omega)
        full fun start member => kept _ (members start member)
      rw [Nat.add_zero, Nat.mod_eq_of_lt (by omega : 2048 * n < 2 ^ 32)] at loop
      rw [iterate_succ, walkBody]
      dsimp only
      rw [if_pos ⟨inside, go⟩, Nat.mul_div_cancel_left _ (by decide), Nat.mul_mod_right, readIsoSector_eq, given]
      refine (congrArg (· >>= Sum.elim (iterate (walkBody visitor device directory) steps) .ok) loop).trans ?_
      -- The offset starts over behind the last sector.
      by_cases last : n + 1 = 2 ^ 21
      · have wraps : (2048 * n + 2048) % 2 ^ 32 = 2048 * 0 := by omega
        rw [wraps]
        exact ih 0 (by decide)
      · have next : (2048 * n + 2048) % 2 ^ 32 = 2048 * (n + 1) := by omega
        rw [next]
        exact ih (n + 1) (by omega)
  exact rounds steps 0 (by decide)

theorem visitAll_safe {items : List Item} (s : σ)
    (each : ∀ item ∈ items, ∀ s, Safe (visitor.visit item.1 item.2 s) fun _ => True)
    (stops : ∀ s, Safe (after s) fun _ => True) (ends : ∀ s, Safe (visitor.last s) fun _ => True) :
    Safe (visitAll visitor after items s) fun _ => True := by
  induction items generalizing s with
  | nil =>
    rw [visitAll]
    split
    next => exact stops s
    next => exact ends s
  | cons item rest ih =>
    obtain ⟨here, later⟩ := List.forall_mem_cons.mp each
    rw [visitAll]
    split
    next =>
      refine safe_bind (here s) fun next _ => ?_
      cases next with
      | inl t => exact ih t later
      | inr result => exact safe_pure trivial
    next => exact ends s

end Visits

end AsasOs.Iso9660
