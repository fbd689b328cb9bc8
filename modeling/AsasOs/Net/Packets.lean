import AsasOs.Lib.Outcomes
import AsasOs.Net.Driver

/-!
# DHCP and DNS packets

The lengths in these packets are those of the sender. The walks over them stay inside the payload. An address is taken
from an answer of a DNS message, if no name before it has a label of 64 bytes or more: the lengths from there on are
reserved, and the walk takes them for labels.

## Main results

- `skipDnsName_safe`: what is skipped is a name, if it ends before the payload does.
- `handleDnsPacket_safe`: the address that is recorded is the one that the walk takes.
- `packets_safe_iff`: both functions end and stay inside the payload; when an address that is recorded is the data of
  an A record of class IN.
-/
namespace AsasOs.Net

open Bytes Checked

/-! ### DNS messages -/

/-- A name from an offset on, the lengths of its labels, and the offset behind it: labels, and behind them a length of
zero or a pointer. This is how the reader takes a name; in one of DNS every length is below 64. -/
inductive NameAt (payload : Memory) (length : Nat) : Nat → List UInt8 → Nat → Prop
  | root {offset : Nat} (inside : offset < length) (zero : payload offset = 0) :
      NameAt payload length offset [] (offset + 1)
  | pointer {offset : Nat} (inside : offset + 1 < length) (bits : payload offset &&& 0xC0 = 0xC0) :
      NameAt payload length offset [] (offset + 2)
  | label {offset behind : Nat} {lengths : List UInt8} (inside : offset < length) (some : payload offset ≠ 0)
      (bits : payload offset &&& 0xC0 ≠ 0xC0)
      (next : NameAt payload length (offset + 1 + (payload offset).toNat) lengths behind) :
      NameAt payload length offset (payload offset :: lengths) behind

/-- The lengths are those of labels in DNS: those from 64 on are reserved. -/
def Proper (lengths : List UInt8) : Prop := ∀ length ∈ lengths, length < 64

instance (lengths : List UInt8) : Decidable (Proper lengths) :=
  @List.decidableBAll _ (fun length => length < 64) (fun length => UInt8.decLt length 64) lengths

/-- A number of questions from an offset on, the lengths in their names, and the offset behind them. -/
inductive QuestionsAt (payload : Memory) (length : Nat) : Nat → Nat → List UInt8 → Nat → Prop
  | done (offset : Nat) : QuestionsAt payload length 0 offset [] offset
  | question {count offset name behind : Nat} {lengths more : List UInt8}
      (named : NameAt payload length offset lengths name) (inside : name + 4 ≤ length)
      (next : QuestionsAt payload length count (name + 4) more behind) :
      QuestionsAt payload length (count + 1) offset (lengths ++ more) behind

structure Record where
  type : Nat
  dnsClass : Nat
  data : List UInt8

/-- An A record of class IN. -/
def Record.IsAddress (record : Record) : Prop := record.type = 1 ∧ record.dnsClass = 1 ∧
    record.data.length = 4

/-- A resource record from an offset on, the lengths in its name, and the offset behind it. -/
inductive RecordAt (payload : Memory) (length : Nat) : Nat → List UInt8 → Record → Nat → Prop
  | record {offset name : Nat} {lengths : List UInt8} (named : NameAt payload length offset lengths name)
      (inside : name + 10 + readBe16 payload (name + 8) ≤ length) :
      RecordAt payload length offset lengths
        ⟨readBe16 payload name, readBe16 payload (name + 2),
          window payload (name + 10) (readBe16 payload (name + 8))⟩
        (name + 10 + readBe16 payload (name + 8))

/-- The record behind a number of others, from an offset on, and the lengths in all their names. -/
inductive AnswerAt (payload : Memory) (length : Nat) : Nat → Nat → List UInt8 → Record → Prop
  | here {offset behind : Nat} {lengths : List UInt8} {record : Record}
      (read : RecordAt payload length offset lengths record behind) :
      AnswerAt payload length 0 offset lengths record
  | behind {count offset next : Nat} {lengths more : List UInt8} {other record : Record}
      (read : RecordAt payload length offset lengths other next)
      (later : AnswerAt payload length count next more record) :
      AnswerAt payload length (count + 1) offset (lengths ++ more) record

/-- A record among the answers that a message of DNS has behind its questions. -/
def IsAnswer (payload : Memory) (length : Nat) (record : Record) : Prop :=
  ∃ answers index asked lengths, index < readBe16 payload 6 ∧
    QuestionsAt payload length (readBe16 payload 4) 12 asked answers ∧
    AnswerAt payload length index answers lengths record ∧ Proper (asked ++ lengths)

/-- The first address among a number of records, and the lengths in the names before it. -/
inductive TakesAt (payload : Memory) (length : Nat) : Nat → Nat → List UInt8 → Ip → Prop
  | here {count offset behind : Nat} {lengths : List UInt8} {ip : Ip}
      (read : RecordAt payload length offset lengths ⟨1, 1, ip.bytes⟩ behind) :
      TakesAt payload length (count + 1) offset lengths ip
  | behind {count offset next : Nat} {lengths more : List UInt8} {other : Record} {ip : Ip}
      (read : RecordAt payload length offset lengths other next) (unlike : ¬other.IsAddress)
      (later : TakesAt payload length count next more ip) :
      TakesAt payload length (count + 1) offset (lengths ++ more) ip

/-- The names up to the first address of a message that has the number of the query have labels of these lengths. -/
def Takes (payload : Memory) (length : Nat) (lengths : List UInt8) (ip : Ip) : Prop :=
  readBe16 payload 0 = DNS_QUERY_ID ∧ ∃ answers asked names, lengths = asked ++ names ∧
    QuestionsAt payload length (readBe16 payload 4) 12 asked answers ∧
    TakesAt payload length (readBe16 payload 6) answers names ip

/-! ### There is one way to take a message -/

section Unique

variable {payload : Memory} {length offset behind behind' : Nat} {lengths lengths' : List UInt8}

theorem NameAt.lt (named : NameAt payload length offset lengths behind) : offset < behind := by
  induction named with
  | root => omega
  | pointer => omega
  | label _ _ _ _ ih => omega

theorem NameAt.inside (named : NameAt payload length offset lengths behind) : offset < length := by
  cases named with
  | root inside => exact inside
  | pointer inside => omega
  | label inside => exact inside

theorem NameAt.unique (named : NameAt payload length offset lengths behind)
    (named' : NameAt payload length offset lengths' behind') : lengths' = lengths ∧
    behind' = behind := by
  induction named generalizing lengths' with
  | root _ zero =>
    cases named' with
    | root => exact ⟨rfl, rfl⟩
    | pointer _ bits =>
      rw [zero] at bits
      exact absurd bits (by decide)
    | label _ some => exact absurd zero some
  | pointer _ bits =>
    cases named' with
    | root _ zero =>
      rw [zero] at bits
      exact absurd bits (by decide)
    | pointer => exact ⟨rfl, rfl⟩
    | label _ _ other => exact absurd bits other
  | label _ some bits _ ih =>
    cases named' with
    | root _ zero => exact absurd zero some
    | pointer _ other => exact absurd other bits
    | label _ _ _ next =>
      obtain ⟨rfl, rfl⟩ := ih next
      exact ⟨rfl, rfl⟩

theorem QuestionsAt.unique {count : Nat} (asked : QuestionsAt payload length count offset lengths behind)
    (asked' : QuestionsAt payload length count offset lengths' behind') : lengths' = lengths ∧
    behind' = behind := by
  induction asked generalizing lengths' with
  | done =>
    cases asked'
    exact ⟨rfl, rfl⟩
  | question named _ _ ih =>
    cases asked' with
    | question named' _ next' =>
      obtain ⟨rfl, rfl⟩ := named.unique named'
      obtain ⟨rfl, rfl⟩ := ih next'
      exact ⟨rfl, rfl⟩

theorem RecordAt.unique {record record' : Record}
    (read : RecordAt payload length offset lengths record behind)
    (read' : RecordAt payload length offset lengths' record' behind') :
    lengths' = lengths ∧ record' = record ∧ behind' = behind := by
  cases read with
  | record named =>
    cases read' with
    | record named' =>
      obtain ⟨rfl, rfl⟩ := named.unique named'
      exact ⟨rfl, rfl, rfl⟩

theorem TakesAt.answer {count : Nat} {ip : Ip} (takes : TakesAt payload length count offset lengths ip) :
    ∃ index < count, AnswerAt payload length index offset lengths ⟨1, 1, ip.bytes⟩ := by
  induction takes with
  | here read => exact ⟨0, Nat.succ_pos _, .here read⟩
  | behind read _ _ ih =>
    obtain ⟨index, below, answer⟩ := ih
    exact ⟨index + 1, Nat.succ_lt_succ below, .behind read answer⟩

theorem RecordAt.inside {record : Record} (read : RecordAt payload length offset lengths record behind) :
    offset < length := by
  cases read with
  | record named => exact named.inside

theorem TakesAt.inside {count : Nat} {ip : Ip} (takes : TakesAt payload length count offset lengths ip) :
    offset < length := by
  cases takes with
  | here read => exact read.inside
  | behind read => exact read.inside

theorem QuestionsAt.le {count : Nat} (asked : QuestionsAt payload length count offset lengths behind) :
    offset ≤ behind := by
  induction asked with
  | done => exact Nat.le_refl _
  | question named _ _ ih =>
    have later := named.lt
    omega

/-- Before any address there are the names up to the first one. -/
theorem TakesAt.before {count index : Nat} {ip ip' : Ip}
    (takes : TakesAt payload length count offset lengths ip)
    (answer : AnswerAt payload length index offset lengths' ⟨1, 1, ip'.bytes⟩) : lengths ⊆ lengths' := by
  induction takes generalizing index lengths' with
  | here read =>
    cases answer with
    | here read' => exact (read.unique read').1 ▸ List.Subset.refl _
    | behind read' => exact (read.unique read').1 ▸ List.subset_append_left _ _
  | behind read unlike _ ih =>
    cases answer with
    | here read' =>
      obtain ⟨-, rfl, -⟩ := read.unique read'
      exact absurd ⟨rfl, rfl, rfl⟩ unlike
    | behind read' later =>
      obtain ⟨rfl, rfl, rfl⟩ := read.unique read'
      exact List.append_subset.mpr ⟨List.subset_append_left _ _, fun _ member =>
        List.mem_append_right _ (ih later member)⟩

end Unique

section Refusing

variable {α β σ ρ : Type}

theorem access_unrefused {size index count : Nat} : access size index count ≠ .error .refused := by
  unfold access
  split <;> rintro ⟨⟩

theorem bind_unrefused {run : Run α} {next : α → Run β} (first : run ≠ .error .refused)
    (later : ∀ value, next value ≠ .error .refused) : run >>= next ≠ .error .refused := by
  cases run with
  | error stop => exact fun same => first (congrArg Except.error (Except.error.inj same))
  | ok value => exact later value

theorem iterate_unrefused {body : σ → Run (σ ⊕ ρ)} (each : ∀ s, body s ≠ .error .refused)
    (steps : Nat) (s : σ) :
    iterate body steps s ≠ .error .refused := by
  induction steps generalizing s with
  | zero => rintro ⟨⟩
  | succ steps ih =>
    have here := each s
    rw [iterate]
    cases result : body s with
    | error stop =>
      rw [result] at here
      exact fun same => here (congrArg Except.error (Except.error.inj same))
    | ok next =>
      cases next with
      | inl s' => exact ih s'
      | inr _ => rintro ⟨⟩

end Refusing

section Packets

variable {payload : Memory} {length steps : Nat}

theorem readBe16_lt (bytes : Memory) (offset : Nat) : readBe16 bytes offset < 2 ^ 16 := by
  have high := (bytes offset).toNat_lt
  have low := (bytes (offset + 1)).toNat_lt
  unfold readBe16
  omega

/-- There is a name up to an offset. -/
def Named (payload : Memory) (length offset behind : Nat) : Prop :=
  ∃ lengths, NameAt payload length offset lengths behind

theorem NameAt.named_iff {offset behind other : Nat} {lengths : List UInt8}
    (named : NameAt payload length offset lengths behind) : Named payload length offset other ↔
    other = behind := by
  constructor
  · rintro ⟨_, named'⟩
    exact (named.unique named').2
  · rintro rfl
    exact ⟨lengths, named⟩

/-- What is skipped is the name if there is one that ends before the payload does, and else the rest. -/
theorem skipDnsName_safe (fits : length + 2 ^ 16 ≤ 2 ^ 32) {offset : Nat}
    (enough : length - offset < steps) :
    Safe (skipDnsName steps payload length offset) fun behind =>
      behind ≤ length ∧ ∀ other, other < length →
      (Named payload length offset other ↔ other = behind) := by
  refine @safe_iterate Nat Nat (labelBody payload length)
    (fun s => ∀ behind, Named payload length s behind ↔ Named payload length offset behind) _ (fun s => length - s)
    ?_ steps offset (fun _ => Iff.rfl) enough
  intro s whole
  unfold labelBody
  by_cases more : s < length
  · rw [if_pos more, access_inside (by omega), ok_bind]
    have wraps : (s + 1) % 2 ^ 32 = s + 1 := Nat.mod_eq_of_lt (by omega)
    dsimp only
    rw [wraps]
    by_cases zero : payload s = 0
    · rw [if_pos zero]
      exact ⟨more, fun other _ => (whole other).symm.trans (NameAt.root more zero).named_iff⟩
    rw [if_neg zero]
    by_cases bits : payload s &&& 0xC0 = 0xC0
    · have wraps : (s + 1 + 1) % 2 ^ 32 = s + 2 := Nat.mod_eq_of_lt (by omega)
      rw [if_pos bits, wraps]
      by_cases inside : s + 2 ≤ length
      · rw [if_pos inside]
        exact ⟨inside, fun other _ => (whole other).symm.trans (NameAt.pointer inside bits).named_iff⟩
      · rw [if_neg inside]
        refine ⟨Nat.le_refl _, fun other below => (whole other).symm.trans (iff_of_false ?_ below.ne)⟩
        rintro ⟨_, named⟩
        have later := named.lt
        cases named with
        | root _ other => exact zero other
        | pointer room => omega
        | label _ _ other => exact other bits
    · have short := (payload s).toNat_lt
      have wraps : (s + 1 + (payload s).toNat) % 2 ^ 32 = s + 1 + (payload s).toNat := Nat.mod_eq_of_lt (by omega)
      rw [if_neg bits, wraps]
      refine ⟨fun behind => Iff.trans ?_ (whole behind), by dsimp only; omega⟩
      constructor
      · rintro ⟨lengths, named⟩
        exact ⟨_, .label more zero bits named⟩
      · rintro ⟨_, named⟩
        cases named with
        | root _ other => exact absurd other zero
        | pointer _ other => exact absurd other bits
        | label _ _ _ next => exact ⟨_, next⟩
  · rw [if_neg more]
    refine ⟨Nat.le_refl _, fun other below => (whole other).symm.trans (iff_of_false ?_ below.ne)⟩
    rintro ⟨_, named⟩
    exact more named.inside

/-- There are questions up to an offset. -/
def Asked (payload : Memory) (length count offset behind : Nat) : Prop :=
  ∃ lengths, QuestionsAt payload length count offset lengths behind

theorem questions_safe (fits : length + 2 ^ 16 ≤ 2 ^ 32) (enough : length < steps) (count : Nat)
    {start : Nat}
    (here : start ≤ length) :
    Safe (iterate (questionBody steps payload length) steps (count, start)) fun result =>
      (∀ behind, result = some behind → behind ≤ length) ∧
        ∀ behind, behind < length →
        (Asked payload length count start behind ↔ result = some behind) := by
  refine @safe_iterate (Nat × Nat) (Option Nat) (questionBody steps payload length)
    (fun s => s.2 ≤ length ∧ ∀ behind, Asked payload length s.1 s.2 behind ↔ Asked payload length count start behind)
    _ (fun s => length - s.2) ?_ steps (count, start) ⟨here, fun _ => Iff.rfl⟩ (by dsimp only; omega)
  rintro ⟨left, offset⟩ ⟨within, whole⟩
  dsimp only at within whole
  unfold questionBody
  dsimp only
  split
  next more =>
    obtain ⟨some, inside⟩ := more
    obtain ⟨fewer, rfl⟩ : ∃ fewer, left = fewer + 1 := ⟨left - 1, by omega⟩
    refine safe_bind (skipDnsName_safe fits (by omega)) fun name skipped => ?_
    obtain ⟨bounded, named⟩ := skipped
    have wraps : (name + 4) % 2 ^ 32 = name + 4 := Nat.mod_eq_of_lt (by omega)
    rw [wraps]
    split
    next short =>
      refine ⟨fun behind none => (by cases none), fun behind _ => (whole behind).symm.trans (iff_of_false ?_ ?_)⟩
      · rintro ⟨_, asked⟩
        cases asked with
        | question named' room =>
          have same := (named _ (by omega)).mp ⟨_, named'⟩
          omega
      · exact Option.some_ne_none behind ∘ Eq.symm
    next room =>
      obtain ⟨lengths, here⟩ := (named name (by omega)).mpr rfl
      have later := here.lt
      refine ⟨⟨by dsimp only; omega, fun behind => Iff.trans ?_ (whole behind)⟩, by dsimp only; omega⟩
      constructor
      · rintro ⟨more, asked⟩
        exact ⟨_, .question here (by omega) asked⟩
      · rintro ⟨_, asked⟩
        cases asked with
        | question named' _ next =>
          obtain ⟨rfl, rfl⟩ := here.unique named'
          exact ⟨_, next⟩
  next last =>
    refine ⟨fun behind same => Option.some.inj same ▸ within, fun behind below => (whole behind).symm.trans ?_⟩
    constructor
    · rintro ⟨_, asked⟩
      cases asked with
      | done => rfl
      | question named' => exact absurd ⟨Nat.succ_ne_zero _, named'.inside⟩ last
    · intro same
      obtain rfl := Option.some.inj same
      have none : left = 0 := by omega
      exact ⟨[], none ▸ .done offset⟩

/-- The address that a number of records give. -/
def Took (payload : Memory) (length count offset : Nat) (ip : Ip) : Prop :=
  ∃ lengths, TakesAt payload length count offset lengths ip

theorem ip_of_bytes {ip : Ip} {offset : Nat} (same : ip.bytes = window payload offset 4) :
    ipAt payload offset = ip := by
  have bytes : window payload offset 4 = (ipAt payload offset).bytes := rfl
  rw [bytes] at same
  cases ip
  simp only [Ip.bytes, List.cons.injEq, and_true] at same
  obtain ⟨rfl, rfl, rfl, rfl⟩ := same
  rfl

theorem answers_safe (fits : length + 2 ^ 16 ≤ 2 ^ 32) (enough : length < steps) (count : Nat)
    {start : Nat}
    (here : start ≤ length) :
    Safe (iterate (answerBody steps payload length count) steps (0, start)) fun result =>
      ∀ ip, Took payload length count start ip ↔ result = some ip := by
  refine @safe_iterate (Nat × Nat) (Option Ip) (answerBody steps payload length count)
    (fun s => s.2 ≤ length ∧ ∀ ip, Took payload length (count - s.1) s.2 ip ↔ Took payload length count start ip)
    _ (fun s => length - s.2) ?_ steps (0, start) ⟨here, fun _ => Iff.rfl⟩ (by dsimp only; omega)
  rintro ⟨passed, offset⟩ ⟨within, whole⟩
  dsimp only at within whole
  unfold answerBody
  dsimp only
  split
  next more =>
    obtain ⟨counted, inside⟩ := more
    obtain ⟨left, size⟩ : ∃ left, count - passed = left + 1 := ⟨count - passed - 1, by omega⟩
    rw [size] at whole
    refine safe_bind (skipDnsName_safe fits (by omega)) fun name skipped => ?_
    obtain ⟨bounded, named⟩ := skipped
    have wraps : (name + 10) % 2 ^ 32 = name + 10 := Nat.mod_eq_of_lt (by omega)
    rw [wraps]
    -- whatever record there is has this name and ends in the payload
    have only {lengths : List UInt8} {record : Record} {behind : Nat}
        (read : RecordAt payload length offset lengths record behind) :
        name + 10 + readBe16 payload (name + 8) ≤ length := by
      cases read with
      | @record name' _ named' room =>
        rwa [(named name' (by omega)).mp ⟨_, named'⟩] at room
    have nothing (short : length < name + 10 + readBe16 payload (name + 8)) (ip : Ip) :
        Took payload length count start ip ↔ (none : Option Ip) = some ip := by
      refine (whole ip).symm.trans (iff_of_false ?_ (Option.some_ne_none ip ∘ Eq.symm))
      rintro ⟨_, takes⟩
      cases takes with
      | here read => exact absurd (only read) (by omega)
      | behind read => exact absurd (only read) (by omega)
    split
    next => exact nothing (by omega)
    next room =>
      have size' := readBe16_lt payload (name + 8)
      rw [access_inside (by omega), ok_bind, access_inside (by omega), ok_bind]
      have wraps : (name + 10 + readBe16 payload (name + 8)) % 2 ^ 32 = name + 10 + readBe16 payload (name + 8) :=
        Nat.mod_eq_of_lt (by omega)
      rw [wraps]
      split
      next ends => exact nothing ends
      next ends =>
        obtain ⟨lengths, here⟩ := (named name (by omega)).mpr rfl
        have later := here.lt
        have record := RecordAt.record here (by omega)
        split
        next found =>
          obtain ⟨a, internet, four⟩ := found
          rw [a, internet, four] at record
          rw [access_inside (by omega), ok_bind]
          refine fun ip => (whole ip).symm.trans ⟨?_, ?_⟩
          · rintro ⟨_, takes⟩
            cases takes with
            | here read =>
              obtain ⟨-, same, -⟩ := record.unique read
              exact congrArg some (ip_of_bytes (Record.mk.inj same).2.2)
            | behind read unlike =>
              obtain ⟨-, rfl, -⟩ := record.unique read
              exact absurd ⟨rfl, rfl, window_length _ _ _⟩ unlike
          · rintro ⟨⟩
            exact ⟨_, .here record⟩
        next unlike =>
          refine ⟨⟨by dsimp only; omega, fun ip => Iff.trans ?_ (whole ip)⟩, by dsimp only; omega⟩
          dsimp only
          rw [show count - (passed + 1) = left by omega]
          constructor
          · rintro ⟨more, takes⟩
            refine ⟨_, .behind record (fun address => unlike ⟨address.1, address.2.1, ?_⟩) takes⟩
            have four := address.2.2
            rwa [window_length] at four
          · rintro ⟨_, takes⟩
            cases takes with
            | here read =>
              obtain ⟨-, same, -⟩ := record.unique read
              obtain ⟨a, internet, four⟩ := Record.mk.inj same
              have length := congrArg List.length four
              rw [window_length] at length
              exact absurd ⟨a.symm, internet.symm, length.symm⟩ unlike
            | behind read _ later =>
              obtain ⟨rfl, rfl, rfl⟩ := record.unique read
              exact ⟨_, later⟩
  next last =>
    refine fun ip => (whole ip).symm.trans (iff_of_false ?_ (Option.some_ne_none ip ∘ Eq.symm))
    rintro ⟨_, takes⟩
    cases size : count - passed with
    | zero =>
      rw [size] at takes
      cases takes
    | succ left =>
      exact last ⟨by omega, takes.inside⟩

theorem options_safe (fits : length + 2 ^ 16 ≤ 2 ^ 32) (enough : length < steps) (options : Options) :
    Safe (iterate (optionBody payload length) steps options) fun _ => True := by
  refine @safe_iterate Options Options (optionBody payload length) (fun _ => True) _ (fun s => length - s.index) ?_
    steps options trivial (by omega)
  intro s _
  unfold optionBody
  split
  next more =>
    rw [access_inside (by omega), ok_bind]
    have wraps : (s.index + 1) % 2 ^ 32 = s.index + 1 := Nat.mod_eq_of_lt (by omega)
    dsimp only
    rw [wraps]
    split
    next => exact ⟨trivial, by dsimp only; omega⟩
    next =>
      split
      next => trivial
      next goesOn =>
        have room : s.index + 1 < length := by omega
        have short := (payload (s.index + 1)).toNat_lt
        rw [access_inside (by omega), ok_bind]
        have wraps : (s.index + 1 + 1) % 2 ^ 32 = s.index + 2 := Nat.mod_eq_of_lt (by omega)
        rw [wraps]
        have wraps : (s.index + 2 + (payload (s.index + 1)).toNat) % 2 ^ 32 =
            s.index + 2 + (payload (s.index + 1)).toNat := Nat.mod_eq_of_lt (by omega)
        rw [wraps]
        split
        next => trivial
        next ends =>
          split
          next type =>
            rw [access_inside (by omega), ok_bind]
            exact ⟨trivial, by dsimp only; omega⟩
          next =>
            split
            next server =>
              rw [access_inside (by omega), ok_bind]
              exact ⟨trivial, by dsimp only; omega⟩
            next => exact ⟨trivial, by dsimp only; omega⟩
  next => trivial

theorem handleDhcpPacket_safe (fits : length + 2 ^ 16 ≤ 2 ^ 32) (enough : length < steps)
    (net : VirtioNet) :
    Safe (handleDhcpPacket steps net payload length) fun _ => True := by
  unfold handleDhcpPacket
  split
  next => trivial
  next long =>
    rw [access_inside (by omega), ok_bind, access_inside (by omega), ok_bind, access_inside (by omega), ok_bind]
    split
    next => trivial
    next =>
      refine safe_bind (options_safe fits enough _) fun options _ => ?_
      rw [access_inside (by omega), ok_bind]
      split
      next => trivial
      next =>
        split
        next => trivial
        next => trivial

/-- The address that is recorded is the one that the walk takes, if it takes one. -/
theorem handleDnsPacket_safe (fits : length + 2 ^ 16 ≤ 2 ^ 32) (enough : length < steps)
    (net : VirtioNet) :
    Safe (handleDnsPacket steps net payload length) fun net' =>
      (∀ lengths ip, Takes payload length lengths ip →
        net' = { net with dnsResolvedIp := ip, dnsARecordReceived := true }) ∧
      ((¬∃ lengths ip, Takes payload length lengths ip) → net' = net) := by
  have ignored (none : ¬∃ lengths ip, Takes payload length lengths ip) :
      (∀ lengths ip, Takes payload length lengths ip →
        net = { net with dnsResolvedIp := ip, dnsARecordReceived := true }) ∧
      ((¬∃ lengths ip, Takes payload length lengths ip) → net = net) :=
    ⟨fun lengths ip takes => absurd ⟨lengths, ip, takes⟩ none, fun _ => rfl⟩
  -- a message that is taken has questions that end before the payload, and an address behind them
  have parts {lengths : List UInt8} {ip : Ip} (takes : Takes payload length lengths ip) :
      ∃ answers, answers < length ∧ Asked payload length (readBe16 payload 4) 12 answers ∧
        Took payload length (readBe16 payload 6) answers ip := by
    obtain ⟨-, answers, asked, names, -, questions, took⟩ := takes
    exact ⟨answers, took.inside, ⟨_, questions⟩, ⟨_, took⟩⟩
  unfold handleDnsPacket
  split
  next short =>
    refine ignored ?_
    rintro ⟨lengths, ip, takes⟩
    obtain ⟨answers, inside, ⟨_, questions⟩, -⟩ := parts takes
    have behind := questions.le
    omega
  next long =>
    rw [access_inside (by omega), ok_bind]
    split
    next other =>
      refine ignored ?_
      rintro ⟨lengths, ip, takes⟩
      exact other takes.1
    next query =>
      rw [access_inside (by omega), ok_bind]
      refine safe_bind (questions_safe fits enough _ (by omega)) fun behind questions => ?_
      obtain ⟨within, asked⟩ := questions
      cases behind with
      | none =>
        refine ignored ?_
        rintro ⟨lengths, ip, takes⟩
        obtain ⟨answers, inside, questions, -⟩ := parts takes
        exact Option.some_ne_none _ ((asked answers inside).mp questions).symm
      | some answers =>
        refine safe_bind (answers_safe fits enough _ (within answers rfl)) fun found answered => ?_
        have same {lengths : List UInt8} {ip : Ip} (takes : Takes payload length lengths ip) : found = some ip := by
          obtain ⟨answers', inside, questions, took⟩ := parts takes
          obtain rfl := Option.some.inj ((asked answers' inside).mp questions)
          exact (answered ip).mp took
        cases found with
        | none =>
          refine ignored ?_
          rintro ⟨lengths, ip, takes⟩
          cases same takes
        | some ip =>
          obtain ⟨names, took⟩ := (answered ip).mpr rfl
          obtain ⟨lengths, questions⟩ := (asked answers took.inside).mpr rfl
          refine ⟨fun lengths other takes => ?_, fun none => ?_⟩
          · obtain rfl := Option.some.inj (same takes)
            rfl
          · exact absurd ⟨_, ip, not_not.mp query, answers, lengths, names, rfl, questions, took⟩ none

/-- A message whose address has proper names before it has no other names on the way to the first address. -/
theorem takes_proper {ip : Ip} (answer : IsAnswer payload length ⟨1, 1, ip.bytes⟩)
    {lengths : List UInt8} {ip' : Ip}
    (takes : Takes payload length lengths ip') : Proper lengths := by
  obtain ⟨answers, index, asked, names, -, questions, answer, proper⟩ := answer
  obtain ⟨-, answers', asked', names', rfl, questions', takes⟩ := takes
  obtain ⟨rfl, rfl⟩ := questions.unique questions'
  intro label member
  rcases List.mem_append.mp member with early | late
  · exact proper label (List.mem_append_left _ early)
  · exact proper label (List.mem_append_right _ (takes.before answer late))

theorem takes_answer {lengths : List UInt8} {ip : Ip} (takes : Takes payload length lengths ip)
    (proper : Proper lengths) : IsAnswer payload length ⟨1, 1, ip.bytes⟩ := by
  obtain ⟨-, answers, asked, names, rfl, questions, takes⟩ := takes
  obtain ⟨index, below, answer⟩ := takes.answer
  exact ⟨answers, index, asked, names, below, questions, answer, proper⟩

/-- Nothing in the walk refuses the message. -/
theorem handleDnsPacket_ends (net : VirtioNet) :
    handleDnsPacket steps net payload length ≠ .error .refused := by
  have skips (offset : Nat) : skipDnsName steps payload length offset ≠ .error .refused := by
    refine iterate_unrefused (fun s => ?_) steps offset
    unfold labelBody
    split
    · refine bind_unrefused access_unrefused fun _ => ?_
      dsimp only
      split_ifs <;> rintro ⟨⟩
    · rintro ⟨⟩
  unfold handleDnsPacket
  split
  · rintro ⟨⟩
  refine bind_unrefused access_unrefused fun _ => ?_
  split
  · rintro ⟨⟩
  refine bind_unrefused access_unrefused fun _ => bind_unrefused (iterate_unrefused (fun s => ?_) _ _) fun found => ?_
  · unfold questionBody
    split
    · refine bind_unrefused (skips _) fun _ => ?_
      split <;> rintro ⟨⟩
    · rintro ⟨⟩
  · cases found with
    | none => rintro ⟨⟩
    | some answers =>
      refine bind_unrefused (iterate_unrefused (fun s => ?_) _ _) fun taken => ?_
      · unfold answerBody
        split
        · refine bind_unrefused (skips _) fun _ => ?_
          split
          · rintro ⟨⟩
          refine bind_unrefused access_unrefused fun _ => bind_unrefused access_unrefused fun _ => ?_
          dsimp only
          split
          · rintro ⟨⟩
          split
          · refine bind_unrefused access_unrefused fun _ => ?_
            rintro ⟨⟩
          · rintro ⟨⟩
        · rintro ⟨⟩
      · cases taken <;> rintro ⟨⟩

/-- The walks over the options and over the answers end, and read inside the payload. Whatever address is recorded is
the data of an A record of class IN among the answers if and only if no name up to the first address that the walk
meets has a length that is reserved. -/
theorem packets_safe_iff (fits : length + 2 ^ 16 ≤ 2 ^ 32) (enough : length < steps) (payload : Memory) :
    (∀ net, Safe (handleDhcpPacket steps net payload length) (fun _ => True) ∧
      Safe (handleDnsPacket steps net payload length) fun _ => True) ∧
    ((∀ net, Safe (handleDnsPacket steps net payload length) fun net' => net' = net ∨
        ∃ ip, IsAnswer payload length ⟨1, 1, ip.bytes⟩ ∧
          net' = { net with dnsResolvedIp := ip, dnsARecordReceived := true }) ↔
      ∀ lengths ip, Takes payload length lengths ip → Proper lengths) := by
  have walked (net : VirtioNet) := @handleDnsPacket_safe payload length steps fits enough net
  refine ⟨fun net => ⟨handleDhcpPacket_safe fits enough net, safe_mono (walked net) fun _ _ => trivial⟩, ?_, ?_⟩
  · intro recorded lengths ip takes
    rcases (walked quietNet).cases with ⟨net', ran, taken, -⟩ | refused
    · have outcome := recorded quietNet
      rw [ran, taken lengths ip takes] at outcome
      rcases outcome with same | ⟨ip', answer, -⟩
      · have flag : true = false := congrArg VirtioNet.dnsARecordReceived same
        cases flag
      · exact takes_proper answer takes
    · exact absurd refused (handleDnsPacket_ends quietNet)
  · intro proper net
    refine safe_mono (walked net) fun net' outcome => ?_
    obtain ⟨recorded, ignored⟩ := outcome
    by_cases takes : ∃ lengths ip, Takes payload length lengths ip
    · obtain ⟨lengths, ip, takes⟩ := takes
      exact Or.inr ⟨ip, takes_answer takes (proper lengths ip takes), recorded lengths ip takes⟩
    · exact Or.inl (ignored takes)

end Packets

/-- A message that asks for `a`, with one answer, an A record of class IN that points to the name. -/
def answerPayload : Memory
  | 0 => 0x41 | 1 => 0x53 | 5 => 1 | 7 => 1
  | 12 => 1 | 13 => 0x61 | 16 => 1 | 18 => 1
  | 19 => 0xC0 | 20 => 12 | 22 => 1 | 24 => 1 | 30 => 4 | 31 => 93 | 32 => 184 | 33 => 216 | 34 => 34
  | _ => 0

theorem answerPayload_answer : IsAnswer answerPayload 35 ⟨1, 1, [93, 184, 216, 34]⟩ := by
  have name : NameAt answerPayload 35 12 [1] 15 := .label (by decide) (by decide) (by decide) (.root (by decide) rfl)
  have pointer : NameAt answerPayload 35 19 [] 21 := .pointer (by decide) (by decide)
  exact ⟨19, 0, [1], [], by decide, .question name (by decide) (.done 19), .here (.record pointer (by decide)), by decide⟩

theorem packets_safe_iff_answer : Safe (handleDnsPacket 36 quietNet answerPayload 35) fun net' => net' = quietNet ∨
    ∃ ip, IsAnswer answerPayload 35 ⟨1, 1, ip.bytes⟩ ∧
      net' = { quietNet with dnsResolvedIp := ip, dnsARecordReceived := true } := by
  have answer : IsAnswer answerPayload 35 ⟨1, 1, Ip.bytes ⟨93, 184, 216, 34⟩⟩ := answerPayload_answer
  exact (packets_safe_iff (by decide) (by decide) answerPayload).2.mpr
    (fun _ _ takes => takes_proper answer takes) quietNet

example : (handleDnsPacket 36 quietNet answerPayload 35).toOption.map VirtioNet.dnsResolvedIp =
    some ⟨93, 184, 216, 34⟩ := by decide +kernel

/-- A message with one answer, whose name begins with the length 128. -/
def reservedPayload : Memory
  | 0 => 0x41 | 1 => 0x53 | 7 => 1 | 12 => 0x80
  | 143 => 1 | 145 => 1 | 151 => 4 | 152 => 6 | 153 => 6 | 154 => 6 | 155 => 6
  | _ => 0

/-- The address behind the name with the reserved length is recorded. -/
theorem packets_reserved : ¬∀ (length steps : Nat) (payload : Memory)
    (net : VirtioNet), length + 2 ^ 16 ≤ 2 ^ 32 →
    length < steps → Safe (handleDnsPacket steps net payload length) fun net' => net' = net ∨
      ∃ ip, IsAnswer payload length ⟨1, 1, ip.bytes⟩ ∧
        net' = { net with dnsResolvedIp := ip, dnsARecordReceived := true } := by
  intro all
  have ran : (handleDnsPacket 157 quietNet reservedPayload 156).toOption =
      some { quietNet with dnsResolvedIp := ⟨6, 6, 6, 6⟩, dnsARecordReceived := true } := by decide +kernel
  have outcome := all 156 157 reservedPayload quietNet (by decide) (by decide)
  rw [ok_of_toOption ran] at outcome
  rcases outcome with same | ⟨ip, answer, -⟩
  · have flag : true = false := congrArg VirtioNet.dnsARecordReceived same
    cases flag
  · obtain ⟨answers, index, asked, lengths, few, questions, answer, proper⟩ := answer
    have one : readBe16 reservedPayload 6 = 1 := by decide
    have none : readBe16 reservedPayload 4 = 0 := by decide
    rw [none] at questions
    obtain rfl : index = 0 := by omega
    cases questions
    generalize record : (⟨1, 1, ip.bytes⟩ : Record) = found at answer
    cases answer with
    | here read =>
      cases read with
      | record named =>
        cases named with
        | root _ zero => exact absurd zero (by decide)
        | pointer _ bits => exact absurd bits (by decide)
        | label => exact absurd (proper _ List.mem_cons_self) (by decide)

end AsasOs.Net
