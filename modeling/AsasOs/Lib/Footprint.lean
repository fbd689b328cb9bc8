import Mathlib.Data.Set.Basic

/-!
# Code that records what it reads

A computation over a memory, with the addresses that it has read on the way, in order.
What a sequence reads is what its parts read, so that a bound on the addresses is proved
one part at a time.
-/
namespace Footprint

/-- A result, and the addresses that were read for it. -/
structure Reads (ι α : Type) where
  value : α
  trace : List ι

variable {ι α β : Type}

instance : Monad (Reads ι) where
  pure value := ⟨value, []⟩
  bind x f := ⟨(f x.value).value, x.trace ++ (f x.value).trace⟩

@[simp] theorem value_pure (value : α) : (pure value : Reads ι α).value = value := rfl

@[simp] theorem trace_pure (value : α) : (pure value : Reads ι α).trace = [] := rfl

@[simp] theorem value_bind (x : Reads ι α) (f : α → Reads ι β) :
    (x >>= f).value = (f x.value).value := rfl

@[simp] theorem trace_bind (x : Reads ι α) (f : α → Reads ι β) :
    (x >>= f).trace = x.trace ++ (f x.value).trace := rfl

/-- Nothing but these addresses is read. -/
def Within (addresses : Set ι) (x : Reads ι α) : Prop := ∀ i ∈ x.trace, i ∈ addresses

variable {addresses : Set ι} {x : Reads ι α} {f : α → Reads ι β} {i : ι}

theorem within_pure (value : α) : Within addresses (pure value : Reads ι α) := by
  intro i member
  cases member

/-- A sequence stays within the addresses exactly when both its parts do. -/
theorem within_bind : Within addresses (x >>= f) ↔
    Within addresses x ∧ Within addresses (f x.value) := by
  unfold Within
  simp only [trace_bind, List.mem_append, or_imp, forall_and]

theorem mem_bind_left (read : i ∈ x.trace) : i ∈ (x >>= f).trace :=
  List.mem_append_left _ read

theorem mem_bind_right (read : i ∈ (f x.value).trace) : i ∈ (x >>= f).trace :=
  List.mem_append_right _ read

end Footprint
