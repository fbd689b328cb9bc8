import AsasOs.ExFat.Trees

/-!
# exFAT: the spelling of paths

A path is read component by component: the names that it spells do not depend on
repeated or trailing slashes. `resolve_path` and `split_parent_path` agree on them, as
long as the path has a slash.

## Main results

- `pathNames_iff`: the names that `resolve_path` reads.
- `Spells.split`: the names before a slash of a path and those behind it.
-/
namespace AsasOs.ExFat

open Naming

variable {path front back after used : Path} {units name leaf : List Nat}
  {names more : List (List Nat)}

/-! ### Slashes -/

theorem skipSlashes_slash : skipSlashes (SLASH :: path) = skipSlashes path := rfl

theorem skipSlashes_other {byte : UInt8} (other : byte ≠ SLASH) :
    skipSlashes (byte :: path) = byte :: path := by
  rw [skipSlashes, List.dropWhile_cons_of_neg]
  simpa using other

theorem skipSlashes_append (some_left : skipSlashes front ≠ []) :
    skipSlashes (front ++ back) = skipSlashes front ++ back := by
  induction front with
  | nil => exact absurd rfl some_left
  | cons byte front ih =>
    by_cases slash : byte = SLASH
    · subst slash
      exact ih some_left
    · rw [List.cons_append, skipSlashes_other slash, skipSlashes_other slash]
      rfl

theorem skipSlashes_append_nil (nothing : skipSlashes front = []) :
    skipSlashes (front ++ back) = skipSlashes back := by
  induction front with
  | nil => rfl
  | cons byte front ih =>
    by_cases slash : byte = SLASH
    · subst slash
      exact ih nothing
    · rw [skipSlashes_other slash] at nothing
      cases nothing

theorem skipSlashes_skip : skipSlashes (skipSlashes path) = skipSlashes path := by
  induction path with
  | nil => rfl
  | cons byte path ih =>
    by_cases slash : byte = SLASH
    · subst slash
      exact ih
    · rw [skipSlashes_other slash, skipSlashes_other slash]

theorem skipSlashes_length : (skipSlashes path).length ≤ path.length :=
  (List.dropWhile_suffix _).length_le

/-! ### Components -/

/-- What follows a component. -/
def Ends (after : Path) : Prop := after = [] ∨ ∃ rest, after = SLASH :: rest

structure ReadAs (path : Path) (units : List Nat) (after used : Path) : Prop where
  split : path = used ++ after
  noSlash : SLASH ∉ used
  ends : Ends after
  small : ∀ unit ∈ units, unit < 2 ^ 16
  empty : units = [] → used = []
  again : ∀ other, Ends other → utf8Units (used ++ other) = some (units, other)

theorem ReadAs.nil (ends : Ends after) : ReadAs after [] after [] where
  split := rfl
  noSlash := List.not_mem_nil
  ends := ends
  small := fun _ none => absurd none List.not_mem_nil
  empty := fun _ => rfl
  again := by
    rintro other (rfl | ⟨rest, rfl⟩)
    · rfl
    · rw [List.nil_append, utf8Units.eq_def]
      exact if_pos rfl

theorem ReadAs.cons {bytes rest : Path} {code : Nat} (later : ReadAs rest units after used)
    (step : ∀ rest, utf8Units (bytes ++ rest) = (utf8Units rest).map fun read => (code :: read.1, read.2))
    (noSlash : SLASH ∉ bytes) (small : code < 2 ^ 16) :
    ReadAs (bytes ++ rest) (code :: units) after (bytes ++ used) where
  split := by rw [later.split, List.append_assoc]
  noSlash := by
    rw [List.mem_append]
    exact not_or.mpr ⟨noSlash, later.noSlash⟩
  ends := later.ends
  small := List.forall_mem_cons.mpr ⟨small, later.small⟩
  empty := fun impossible => absurd impossible (List.cons_ne_nil _ _)
  again := by
    intro other ends
    rw [List.append_assoc, step, later.again other ends]
    rfl

theorem continuation_not_slash : ∀ byte : UInt8, byte &&& 0xC0 = 0x80 → SLASH ≠ byte := by
  decide +kernel

theorem utf8Units_spec (read : utf8Units path = some (units, after)) :
    ∃ used, ReadAs path units after used := by
  have bound : ∀ (byte mask : UInt8), (byte &&& mask).toNat ≤ mask.toNat := by
    intro byte mask
    rw [UInt8.toNat_and]
    exact Nat.and_le_right
  fun_induction utf8Units path generalizing units after with
  | case1 =>
    cases read
    exact ⟨[], .nil (Or.inl rfl)⟩
  | case2 rest =>
    cases read
    exact ⟨[], .nil (Or.inr ⟨rest, rfl⟩)⟩
  | case3 first rest notSlash ascii ih =>
    -- one byte
    obtain ⟨⟨units', after'⟩, here, same⟩ := Option.bind_eq_some_iff.mp read
    cases same
    obtain ⟨used, later⟩ := ih here
    have step : ∀ rest, utf8Units ([first] ++ rest) =
        (utf8Units rest).map fun read => (first.toNat :: read.1, read.2) := by
      intro rest
      rw [List.singleton_append, utf8Units.eq_def]
      dsimp only
      rw [if_neg notSlash, if_pos ascii]
      cases utf8Units rest <;> rfl
    refine ⟨[first] ++ used, later.cons step ?_ ?_⟩
    · exact fun member => notSlash (List.mem_singleton.mp member).symm
    · exact lt_trans first.toNat_lt (by decide)
  | case6 first notSlash high second rest two code long =>
    -- two bytes
    rename_i ih
    obtain ⟨⟨units', after'⟩, here, same⟩ := Option.bind_eq_some_iff.mp read
    cases same
    obtain ⟨used, later⟩ := ih here
    have step : ∀ rest, utf8Units ([first, second] ++ rest) = (utf8Units rest).map fun read =>
        (((first &&& 0x1F).toNat * 64 + (second &&& 0x3F).toNat) :: read.1, read.2) := by
      intro rest
      rw [utf8Units.eq_def]
      dsimp only [List.cons_append, List.nil_append]
      rw [if_neg notSlash, if_neg high, if_pos two, if_neg long]
      cases utf8Units rest <;> rfl
    refine ⟨[first, second] ++ used, later.cons step ?_ ?_⟩
    · simp only [List.mem_cons, List.not_mem_nil, or_false, not_or]
      exact ⟨fun same => notSlash same.symm, continuation_not_slash second two.2⟩
    · have low := bound first 0x1F
      have low' := bound second 0x3F
      have small : (0x1F : UInt8).toNat = 31 := rfl
      have small' : (0x3F : UInt8).toNat = 63 := rfl
      omega
  | case9 first notSlash high second notTwo third rest three code long =>
    -- three bytes
    rename_i ih
    obtain ⟨⟨units', after'⟩, here, same⟩ := Option.bind_eq_some_iff.mp read
    cases same
    obtain ⟨used, later⟩ := ih here
    have step : ∀ rest, utf8Units ([first, second, third] ++ rest) =
        (utf8Units rest).map fun read => (((first &&& 0x0F).toNat * 4096 +
          (second &&& 0x3F).toNat * 64 + (third &&& 0x3F).toNat) :: read.1, read.2) := by
      intro rest
      rw [utf8Units.eq_def]
      dsimp only [List.cons_append, List.nil_append]
      rw [if_neg notSlash, if_neg high, if_neg notTwo, if_pos three, if_neg long]
      cases utf8Units rest <;> rfl
    refine ⟨[first, second, third] ++ used, later.cons step ?_ ?_⟩
    · simp only [List.mem_cons, List.not_mem_nil, or_false, not_or]
      exact ⟨fun same => notSlash same.symm, continuation_not_slash second three.2.1,
        continuation_not_slash third three.2.2⟩
    · have low := bound first 0x0F
      have low' := bound second 0x3F
      have low'' := bound third 0x3F
      have small : (0x0F : UInt8).toNat = 15 := rfl
      have small' : (0x3F : UInt8).toNat = 63 := rfl
      omega
  | _ => cases read

theorem utf8Component_spec (read : utf8Component path = some (name, after)) :
    ∃ used, ReadAs (skipSlashes path) name after used ∧ name.length ≤ 255 ∧ used ≠ [] := by
  obtain ⟨⟨units, after'⟩, here, later⟩ := Option.bind_eq_some_iff.mp read
  obtain ⟨⟨⟩, guarded, same⟩ := Option.bind_eq_some_iff.mp later
  cases same
  have lengths : name.length ≤ 255 ∧ name.length ≠ 0 := by
    by_contra outside
    rw [guard, if_neg outside] at guarded
    cases guarded
  obtain ⟨used, readAs⟩ := utf8Units_spec here
  refine ⟨used, readAs, lengths.1, fun empty => lengths.2 ?_⟩
  -- a unit takes at least one byte
  have again := readAs.again [] (Or.inl rfl)
  rw [empty] at again
  cases again
  rfl

theorem utf8Component_of_readAs (readAs : ReadAs (skipSlashes path) name after used)
    (short : name.length ≤ 255) (some_units : name ≠ []) {other : Path} (ends : Ends other)
    {longer : Path} (begins : skipSlashes longer = used ++ other) :
    utf8Component longer = some (name, other) := by
  have lengths : name.length ≤ 255 ∧ name.length ≠ 0 :=
    ⟨short, fun empty => some_units (List.eq_nil_of_length_eq_zero empty)⟩
  rw [utf8Component, begins, readAs.again other ends]
  change (guard _ >>= fun _ => some (name, other)) = _
  rw [guard, if_pos lengths]
  rfl

/-! ### Spelling -/

inductive Spells : Path → List (List Nat) → Prop
  | done {path : Path} (slashes : skipSlashes path = []) : Spells path []
  | name {path after : Path} {name : List Nat} {names : List (List Nat)}
      (component : utf8Component path = some (name, after)) (rest : Spells after names) :
      Spells path (name :: names)

theorem utf8Component_skip : utf8Component (skipSlashes path) = utf8Component path := by
  rw [utf8Component, utf8Component, skipSlashes_skip]

theorem Spells.congr (spells : Spells path names) (same : skipSlashes front = skipSlashes path) :
    Spells front names := by
  cases spells with
  | done slashes => exact .done (same.trans slashes)
  | name component rest =>
    refine .name ?_ rest
    rw [← utf8Component_skip, same, utf8Component_skip]
    exact component

theorem component_shorter (read : utf8Component path = some (name, after)) :
    after.length < (skipSlashes path).length := by
  obtain ⟨used, readAs, -, some_used⟩ := utf8Component_spec read
  have length := congrArg List.length readAs.split
  have positive := List.length_pos_of_ne_nil some_used
  rw [List.length_append] at length
  omega

theorem componentsFrom_iff {components : Nat} (enough : (skipSlashes path).length ≤ components) :
    componentsFrom components (skipSlashes path) = some names ↔ Spells path names := by
  induction components generalizing path names with
  | zero =>
    have empty : skipSlashes path = [] := List.eq_nil_of_length_eq_zero (by omega)
    rw [empty, componentsFrom]
    constructor
    · rintro ⟨⟩
      exact .done empty
    · rintro (slashes | ⟨component, -⟩)
      · rfl
      · have shorter := component_shorter component
        rw [empty] at shorter
        exact absurd shorter (Nat.not_lt_zero _)
  | succ components ih =>
    cases rest : skipSlashes path with
    | nil =>
      rw [componentsFrom]
      constructor
      · rintro ⟨⟩
        exact .done rest
      · rintro (slashes | ⟨component, -⟩)
        · rfl
        · have shorter := component_shorter component
          rw [rest] at shorter
          exact absurd shorter (Nat.not_lt_zero _)
    | cons byte tail =>
      rw [componentsFrom, ← rest, utf8Component_skip]
      constructor
      · intro found
        obtain ⟨⟨name, after⟩, component, later⟩ := Option.bind_eq_some_iff.mp found
        obtain ⟨names', here, rfl⟩ := Option.map_eq_some_iff.mp later
        have shorter := component_shorter component
        have skipped : (skipSlashes after).length ≤ after.length := skipSlashes_length
        exact .name component ((ih (by omega)).mp here)
      · rintro (slashes | ⟨component, later⟩)
        · rw [rest] at slashes
          cases slashes
        · rename_i after name names
          have shorter := component_shorter component
          have skipped : (skipSlashes after).length ≤ after.length := skipSlashes_length
          rw [component, Option.bind_some, (ih (by omega)).mpr later]
          rfl

/-- The names that `resolve_path` reads. -/
theorem pathNames_iff : pathNames path = some names ↔ Spells path names :=
  componentsFrom_iff skipSlashes_length

theorem Spells.unique (spells : Spells path names) (spells' : Spells path more) : names = more := by
  have here := pathNames_iff.mpr spells
  rw [pathNames_iff.mpr spells'] at here
  exact (Option.some.inj here).symm

theorem Spells.append (spells : Spells front names) (spells' : Spells back more) :
    Spells (front ++ SLASH :: back) (names ++ more) := by
  induction spells with
  | done slashes =>
    refine spells'.congr ?_
    rw [skipSlashes_append_nil slashes]
    exact skipSlashes_slash
  | name component rest ih =>
    rename_i front after name names
    obtain ⟨used, readAs, short, some_used⟩ := utf8Component_spec component
    have some_left : skipSlashes front ≠ [] := by
      rw [readAs.split]
      exact List.append_ne_nil_of_left_ne_nil some_used after
    have ends : Ends (after ++ SLASH :: back) := by
      rcases readAs.ends with rfl | ⟨tail, rfl⟩
      · exact Or.inr ⟨back, rfl⟩
      · exact Or.inr ⟨tail ++ SLASH :: back, rfl⟩
    refine .name (utf8Component_of_readAs readAs short ?_ ends ?_) ih
    · exact fun empty => some_used (readAs.empty empty)
    · rw [skipSlashes_append some_left, readAs.split, List.append_assoc]

theorem Spells.split : ∀ {front : Path}
    {names : List (List Nat)}, Spells (front ++ SLASH :: back) names →
      ∃ before after, names = before ++ after ∧ Spells front before ∧ Spells back after := by
  intro front
  induction length : front.length using Nat.strong_induction_on generalizing front with
  | _ n ih =>
    subst length
    intro names spells
    by_cases nothing : skipSlashes front = []
    · refine ⟨[], names, rfl, .done nothing, spells.congr ?_⟩
      rw [skipSlashes_append_nil nothing]
      rfl
    · have begins : skipSlashes (front ++ SLASH :: back) = skipSlashes front ++ SLASH :: back :=
        skipSlashes_append nothing
      cases spells with
      | done slashes =>
        rw [begins] at slashes
        exact absurd slashes (List.append_ne_nil_of_left_ne_nil nothing _)
      | name component rest =>
        rename_i after name names
        obtain ⟨used, readAs, short, some_used⟩ := utf8Component_spec component
        -- the component ends in front of the slash
        obtain ⟨middle, here, there⟩ : ∃ middle, skipSlashes front = used ++ middle ∧
            after = middle ++ SLASH :: back := by
          have all := readAs.split
          rw [begins] at all
          rcases List.append_eq_append_iff.mp all with ⟨m, h, h'⟩ | ⟨m, h, h'⟩
          · cases m with
            | nil =>
              rw [List.append_nil] at h
              exact ⟨[], by rw [h, List.append_nil], h'.symm⟩
            | cons byte m =>
              rw [List.cons_append] at h'
              obtain ⟨rfl, -⟩ := List.cons.inj h'
              refine absurd ?_ readAs.noSlash
              rw [h]
              exact List.mem_append_right _ List.mem_cons_self
          · exact ⟨m, h, h'⟩
        have shorter : middle.length < front.length := by
          have total := congrArg List.length here
          have positive := List.length_pos_of_ne_nil some_used
          have skipped : (skipSlashes front).length ≤ front.length := skipSlashes_length
          rw [List.length_append] at total
          omega
        rw [there] at rest
        obtain ⟨before, later, rfl, spells, spells'⟩ := ih middle.length shorter rfl rest
        refine ⟨name :: before, later, rfl, ?_, spells'⟩
        have ends : Ends middle := by
          rcases readAs.ends with empty | ⟨tail, same⟩
          · rw [there] at empty
            exact absurd empty (List.append_ne_nil_of_right_ne_nil _ (List.cons_ne_nil _ _))
          · rw [there] at same
            cases middle with
            | nil => exact Or.inl rfl
            | cons byte middle =>
              obtain ⟨rfl, -⟩ := List.cons.inj same
              exact Or.inr ⟨middle, rfl⟩
        exact .name (utf8Component_of_readAs readAs short
          (fun empty => some_used (readAs.empty empty)) ends here) spells

end AsasOs.ExFat
