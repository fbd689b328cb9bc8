import Mathlib.Data.List.FinRange

/-!
# Labelled slots

A fully associative cache is a finite family of slots, each carrying a validity
flag, a key and data. The module develops what a replacement policy needs: which
slot a key is found in, that keys stay unique, and that the data of every valid
slot is what a reference `content` says about its key, apart from a set of keys
that are allowed to be stale for the moment.
-/
namespace Slots

variable {n : Nat} {κ β : Type}

structure Slot (κ β : Type) where
  valid : Bool
  key : κ
  data : β

/-- Drop every slot whose key satisfies `victim`. -/
def evict (slots : Fin n → Slot κ β) (victim : κ → Bool) : Fin n → Slot κ β :=
  fun i => if victim (slots i).key then { slots i with valid := false } else slots i

/-- No two valid slots carry the same key. -/
def Unique (slots : Fin n → Slot κ β) : Prop :=
  ∀ i j, (slots i).valid = true → (slots j).valid = true → (slots i).key = (slots j).key → i = j

/-- Every valid slot whose key is not in `stale` holds the reference data. -/
def CoherentOff (stale : Set κ) (content : κ → β) (slots : Fin n → Slot κ β) : Prop :=
  ∀ i, (slots i).valid = true → (slots i).key ∉ stale → (slots i).data = content (slots i).key

variable {slots : Fin n → Slot κ β} {content : κ → β}

theorem CoherentOff.mono {stale stale' : Set κ} (coherent : CoherentOff stale content slots)
    (covered : ∀ i, (slots i).valid = true → (slots i).key ∈ stale → (slots i).key ∈ stale') :
    CoherentOff stale' content slots :=
  fun i valid fresh => coherent i valid fun old => fresh (covered i valid old)

theorem CoherentOff.change {stale stale' : Set κ} {content content' : κ → β}
    (coherent : CoherentOff stale content slots)
    (covered : ∀ i, (slots i).valid = true → (slots i).key ∉ stale' →
      (slots i).key ∉ stale ∧ content' (slots i).key = content (slots i).key) :
    CoherentOff stale' content' slots := by
  intro i valid fresh
  obtain ⟨old, same⟩ := covered i valid fresh
  rw [same]
  exact coherent i valid old

theorem Unique.update (unique : Unique slots) (i : Fin n) (slot : Slot κ β)
    (alone : slot.valid = true → ∀ j, j ≠ i → (slots j).valid = true → (slots j).key ≠ slot.key) :
    Unique (Function.update slots i slot) := by
  intro j k validj validk same
  by_cases hj : j = i <;> by_cases hk : k = i
  · rw [hj, hk]
  · subst hj
    rw [Function.update_self] at validj same
    rw [Function.update_of_ne hk] at validk same
    exact absurd same.symm (alone validj k hk validk)
  · subst hk
    rw [Function.update_self] at validk same
    rw [Function.update_of_ne hj] at validj same
    exact absurd same (alone validk j hj validj)
  · rw [Function.update_of_ne hj] at validj same
    rw [Function.update_of_ne hk] at validk same
    exact unique j k validj validk same

theorem CoherentOff.update {stale : Set κ} (coherent : CoherentOff stale content slots) (i : Fin n)
    (slot : Slot κ β)
    (right : slot.valid = true → slot.key ∉ stale → slot.data = content slot.key) :
    CoherentOff stale content (Function.update slots i slot) := by
  intro j valid fresh
  by_cases hj : j = i
  · subst hj
    rw [Function.update_self] at valid fresh ⊢
    exact right valid fresh
  · rw [Function.update_of_ne hj] at valid fresh ⊢
    exact coherent j valid fresh

theorem CoherentOff.fill {stale : Set κ} (coherent : CoherentOff stale content slots) {i : Fin n}
    {slot : Slot κ β}
    (right : slot.valid = true → slot.data = content slot.key)
    (alone : ∀ j, j ≠ i → (slots j).valid = true → (slots j).key ≠ slot.key) :
    CoherentOff (stale \ {slot.key}) content (Function.update slots i slot) := by
  intro j valid fresh
  by_cases hj : j = i
  · subst hj
    rw [Function.update_self] at valid ⊢
    exact right valid
  · rw [Function.update_of_ne hj] at valid fresh ⊢
    exact coherent j valid fun old => fresh ⟨old, alone j hj valid⟩

theorem Unique.evict (unique : Unique slots) (victim : κ → Bool) : Unique (evict slots victim) := by
  intro i j validi validj same
  simp only [Slots.evict] at validi validj same
  split at validi <;> split at validj <;> simp_all
  exact unique i j validi validj same

theorem CoherentOff.evict {stale : Set κ} (coherent : CoherentOff stale content slots)
    (victim : κ → Bool) :
    CoherentOff stale content (evict slots victim) := by
  intro i valid fresh
  simp only [Slots.evict] at valid fresh ⊢
  split at valid
  · simp at valid
  · rename_i kept
    simp only [kept] at fresh ⊢
    exact coherent i valid fresh

theorem evict_valid {victim : κ → Bool} {i : Fin n} (valid : (evict slots victim i).valid = true) :
    evict slots victim i = slots i ∧ victim (slots i).key = false := by
  simp only [evict] at valid ⊢
  split at valid
  · simp at valid
  · rename_i kept
    simp [kept]

section Find

variable [DecidableEq κ]

/-- The first valid slot labelled `key`. -/
def find (slots : Fin n → Slot κ β) (key : κ) : Option (Fin n) :=
  (List.finRange n).find? fun i => (slots i).valid && decide ((slots i).key = key)

theorem find_some {slots : Fin n → Slot κ β} {key : κ} {i : Fin n}
    (found : find slots key = some i) : (slots i).valid = true ∧ (slots i).key = key := by
  have hit := List.find?_some found
  simpa using hit

theorem find_none_iff {slots : Fin n → Slot κ β} {key : κ} :
    find slots key = none ↔ ∀ i, (slots i).valid = true → (slots i).key ≠ key := by
  simp [find]

end Find

end Slots
