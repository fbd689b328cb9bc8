import Mathlib.Data.List.Nodup
import Mathlib.Logic.Function.Basic

/-!
# Trees of tables

Tables are in a memory, and some of their entries lead to further tables. A path is the list
of the indices that lead to a table, the last one first. A memory holds a tree of a certain
depth if different paths lead to different tables.

An entry of a tree is changed in one of three ways: it leads where it led before, it leads to
a new table for the first time, or it is an entry of a table at the full depth, which is a leaf.
-/
namespace RadixTree

variable {N I E : Type} (enter : E → Option N)

/-- The table at a path from the root. -/
def follow (memory : N → I → E) (root : N) : List I → Option N
  | [] => some root
  | i :: path => (follow memory root path).bind fun node => enter (memory node i)

/-- The entry at which the walk along a path ends: the last one, or one that leads to no table. `stop` is what
the latter counts for. -/
def walk (stop : E → E) (blank : E) (memory : N → I → E) (root : N) : List I → E
  | [] => blank
  | i :: path =>
    match follow enter memory root path with
    | some node => memory node i
    | none => stop (walk stop blank memory root path)

/-- Different paths lead to different tables. -/
def Tree (depth : Nat) (memory : N → I → E) (root : N) : Prop :=
  ∀ p q node, p.length ≤ depth → q.length ≤ depth →
    follow enter memory root p = some node → follow enter memory root q = some node → p = q

variable {enter} {stop : E → E} {blank : E} {memory memory' : N → I → E} {root node fresh : N} {i j : I}
  {path p q : List I} {depth : Nat}

theorem follow_cons : follow enter memory root (i :: path) =
    (follow enter memory root path).bind fun node => enter (memory node i) := rfl

theorem follow_next (place : follow enter memory root path = some node) :
    follow enter memory root (i :: path) = enter (memory node i) := by
  rw [follow, place, Option.bind_some]

theorem follow_blocked (nothing : follow enter memory root path = none) (more : List I) :
    follow enter memory root (more ++ path) = none := by
  induction more with
  | nil => exact nothing
  | cons j more ih => rw [List.cons_append, follow, ih, Option.bind_none]

theorem walk_cons (place : follow enter memory root path = some node) :
    walk enter stop blank memory root (i :: path) = memory node i := by
  rw [walk, place]

theorem walk_stop (nothing : follow enter memory root path = none) :
    walk enter stop blank memory root (i :: path) = stop (walk enter stop blank memory root path) := by
  rw [walk, nothing]

/-! ### An entry that leads where it led before -/

theorem follow_same (same : ∀ node i, enter (memory' node i) = enter (memory node i)) (path : List I) :
    follow enter memory' root path = follow enter memory root path := by
  induction path with
  | nil => rfl
  | cons i path ih =>
    rw [follow, follow, ih]
    congr 1
    funext node
    exact same node i

theorem follow_frame
    (same : ∀ path node, path.length < depth → follow enter memory root path = some node →
    memory' node = memory node) : ∀ q, q.length ≤ depth →
    follow enter memory' root q = follow enter memory root q := by
  intro q
  induction q with
  | nil => exact fun _ => rfl
  | cons j up ih =>
    intro short
    rw [List.length_cons] at short
    rw [follow_cons, follow_cons, ih (by omega)]
    cases found : follow enter memory root up with
    | none => rfl
    | some node => rw [Option.bind_some, Option.bind_some, same up node (by omega) found]

theorem walk_apart (tree : Tree enter depth memory root)
    (place : follow enter memory root path = some node)
    (shallow : path.length ≤ depth) (others : ∀ n j, ¬(n = node ∧ j = i) → memory' n j = memory n j)
    (follows : ∀ q, q.length ≤ depth → follow enter memory' root q = follow enter memory root q)
    (entered : path.length < depth → follow enter memory root (i :: path) ≠ none) :
    ∀ q, q.length ≤ depth + 1 → q ≠ i :: path →
      walk enter stop blank memory' root q = walk enter stop blank memory root q := by
  intro q
  induction q with
  | nil => exact fun _ _ => rfl
  | cons j up ih =>
    intro short other
    rw [List.length_cons] at short
    rw [walk, walk, follows up (by omega)]
    cases found : follow enter memory root up with
    | none =>
      refine congrArg stop (ih (by omega) ?_)
      rintro rfl
      rw [List.length_cons] at short
      exact entered (by omega) found
    | some there =>
      refine others there j ?_
      rintro ⟨rfl, rfl⟩
      exact other (by rw [tree up path there (by omega) shallow found place])

theorem walk_same (tree : Tree enter depth memory root)
    (place : follow enter memory root path = some node)
    (shallow : path.length ≤ depth) (same : ∀ node i, enter (memory' node i) = enter (memory node i))
    (entered : enter (memory node i) ≠ none)
    (others : ∀ n j, ¬(n = node ∧ j = i) → memory' n j = memory n j) :
    ∀ q, q.length ≤ depth + 1 → q ≠ i :: path →
      walk enter stop blank memory' root q = walk enter stop blank memory root q := by
  refine walk_apart tree place shallow others (fun q _ => follow_same same q) fun _ => ?_
  rwa [follow_cons, place, Option.bind_some]

/-! ### An entry that leads to a new table -/

/-- An entry that leads nowhere leads to a new table, the entries of which lead nowhere. -/
structure Grown (enter : E → Option N) (depth : Nat) (memory memory' : N → I → E) (root node fresh : N) (i : I)
    (path : List I) : Prop where
  place : follow enter memory root path = some node
  shallow : path.length < depth
  nothing : enter (memory node i) = none
  unused : ∀ q, q.length ≤ depth → follow enter memory root q ≠ some fresh
  leads : enter (memory' node i) = some fresh
  empty : ∀ j, enter (memory' fresh j) = none
  others : ∀ n j, n ≠ fresh → ¬(n = node ∧ j = i) → memory' n j = memory n j

namespace Grown

variable (grown : Grown enter depth memory memory' root node fresh i path) (tree : Tree enter depth memory root)
include grown tree

theorem follow_iff : ∀ q, q.length ≤ depth → (q = i :: path → follow enter memory' root q = some fresh) ∧
      (q ≠ i :: path → follow enter memory' root q = follow enter memory root q) := by
  intro q
  induction q with
  | nil => exact fun _ => ⟨nofun, fun _ => rfl⟩
  | cons j up ih =>
    intro short
    rw [List.length_cons] at short
    obtain ⟨new, old⟩ := ih (by omega)
    constructor
    · rintro ⟨⟩
      rw [follow_cons, old (List.cons_ne_self _ _).symm, grown.place, Option.bind_some, grown.leads]
    · intro other
      rw [follow_cons, follow_cons]
      by_cases below : up = i :: path
      · rw [new below, below, follow_cons, grown.place, Option.bind_some, Option.bind_some, grown.nothing, grown.empty,
          Option.bind_none]
      · rw [old below]
        cases found : follow enter memory root up with
        | none => rfl
        | some there =>
          rw [Option.bind_some, Option.bind_some, grown.others there j]
          · rintro rfl
            exact grown.unused up (by omega) found
          · rintro ⟨rfl, rfl⟩
            exact other (by rw [tree up path there (by omega) (Nat.le_of_lt grown.shallow) found grown.place])

theorem follow_new : follow enter memory' root (i :: path) = some fresh :=
  (grown.follow_iff tree (i :: path) grown.shallow).1 rfl

theorem follow_other (short : q.length ≤ depth) (other : q ≠ i :: path) :
    follow enter memory' root q = follow enter memory root q :=
  (grown.follow_iff tree q short).2 other

theorem follow_cases (short : q.length ≤ depth) {there : N}
    (found : follow enter memory' root q = some there) :
    q = i :: path ∧ there = fresh ∨ q ≠ i :: path ∧ follow enter memory root q = some there := by
  by_cases new : q = i :: path
  · subst new
    rw [grown.follow_new tree] at found
    exact .inl ⟨rfl, (Option.some.inj found).symm⟩
  · rw [grown.follow_other tree short new] at found
    exact .inr ⟨new, found⟩

theorem tree' : Tree enter depth memory' root := by
  intro p q there shortP shortQ first second
  rcases grown.follow_cases tree shortP first with ⟨rfl, rfl⟩ | ⟨-, first⟩
  · rcases grown.follow_cases tree shortQ second with ⟨rfl, -⟩ | ⟨-, second⟩
    · rfl
    · exact absurd second (grown.unused q shortQ)
  · rcases grown.follow_cases tree shortQ second with ⟨rfl, rfl⟩ | ⟨-, second⟩
    · exact absurd first (grown.unused p shortP)
    · exact tree p q there shortP shortQ first second

theorem walk_other (before : stop (memory node i) = blank) (cleared : ∀ j, memory' fresh j = blank) :
    ∀ q, q.length ≤ depth + 1 → q ≠ i :: path →
      walk enter stop blank memory' root q = walk enter stop blank memory root q := by
  intro q
  induction q with
  | nil => exact fun _ _ => rfl
  | cons j up ih =>
    intro short other
    rw [List.length_cons] at short
    by_cases below : up = i :: path
    · subst below
      have nothing : follow enter memory root (i :: path) = none := by
        rw [follow_cons, grown.place, Option.bind_some, grown.nothing]
      rw [walk_cons (grown.follow_new tree), walk_stop nothing, walk_cons grown.place, before, cleared]
    · rw [walk, walk, grown.follow_other tree (by omega) below]
      cases found : follow enter memory root up with
      | none => exact congrArg stop (ih (by omega) below)
      | some there =>
        refine grown.others there j ?_ ?_
        · rintro rfl
          exact grown.unused up (by omega) found
        · rintro ⟨rfl, rfl⟩
          exact other (by rw [tree up path there (by omega) (Nat.le_of_lt grown.shallow) found grown.place])

end Grown

/-! ### A leaf -/

section Leaf

variable (tree : Tree enter depth memory root) (place : follow enter memory root path = some node)
  (deep : path.length = depth) (others : ∀ n j, ¬(n = node ∧ j = i) → memory' n j = memory n j)
include tree place deep others

theorem follow_leaf : ∀ q, q.length ≤ depth →
    follow enter memory' root q = follow enter memory root q := by
  intro q
  induction q with
  | nil => exact fun _ => rfl
  | cons j up ih =>
    intro short
    rw [List.length_cons] at short
    rw [follow_cons, follow_cons, ih (by omega)]
    cases found : follow enter memory root up with
    | none => rfl
    | some there =>
      rw [Option.bind_some, Option.bind_some, others there j]
      rintro ⟨rfl, -⟩
      have same := tree up path there (by omega) (by omega) found place
      subst same
      omega

theorem tree_leaf : Tree enter depth memory' root := by
  intro p q there shortP shortQ first second
  rw [follow_leaf tree place deep others _ shortP] at first
  rw [follow_leaf tree place deep others _ shortQ] at second
  exact tree p q there shortP shortQ first second

theorem walk_leaf_self : walk enter stop blank memory' root (i :: path) = memory' node i :=
  walk_cons ((follow_leaf tree place deep others path (Nat.le_of_eq deep)).trans place)

theorem walk_leaf_other : ∀ q, q.length ≤ depth + 1 → q ≠ i :: path →
    walk enter stop blank memory' root q = walk enter stop blank memory root q :=
  walk_apart tree place (Nat.le_of_eq deep) others (follow_leaf tree place deep others)
    fun below => absurd deep (Nat.ne_of_lt below)

end Leaf

/-! ### An entry at the last level that leads on -/

section Put

variable (tree : Tree enter depth memory root) (place : follow enter memory root path = some node)
  (last : path.length + 1 = depth) (leads : enter (memory' node i) = some fresh)
  (others : ∀ n j, ¬(n = node ∧ j = i) → memory' n j = memory n j)
include tree place last leads others

theorem follow_put : ∀ q, q.length ≤ depth → (q = i :: path → follow enter memory' root q = some fresh) ∧
      (q ≠ i :: path → follow enter memory' root q = follow enter memory root q) := by
  intro q
  induction q with
  | nil => exact fun _ => ⟨nofun, fun _ => rfl⟩
  | cons j up ih =>
    intro short
    rw [List.length_cons] at short
    have old : follow enter memory' root up = follow enter memory root up := by
      refine (ih (by omega)).2 ?_
      rintro rfl
      rw [List.length_cons] at short
      omega
    constructor
    · rintro ⟨⟩
      rw [follow_cons, old, place, Option.bind_some, leads]
    · intro other
      rw [follow_cons, follow_cons, old]
      cases found : follow enter memory root up with
      | none => rfl
      | some there =>
        rw [Option.bind_some, Option.bind_some, others there j]
        rintro ⟨rfl, rfl⟩
        exact other (by rw [tree up path there (by omega) (by omega) found place])

theorem put_cases (short : q.length ≤ depth) {there : N}
    (found : follow enter memory' root q = some there) :
    q = i :: path ∧ there = fresh ∨ q ≠ i :: path ∧ follow enter memory root q = some there := by
  obtain ⟨new, old⟩ := follow_put tree place last leads others q short
  by_cases here : q = i :: path
  · rw [new here] at found
    exact .inl ⟨here, (Option.some.inj found).symm⟩
  · rw [old here] at found
    exact .inr ⟨here, found⟩

theorem tree_put
    (unused : ∀ q, q.length ≤ depth → q ≠ i :: path → follow enter memory root q ≠ some fresh) :
    Tree enter depth memory' root := by
  intro p q there shortP shortQ first second
  rcases put_cases tree place last leads others shortP first with ⟨rfl, rfl⟩ | ⟨otherP, first⟩
  · rcases put_cases tree place last leads others shortQ second with ⟨rfl, -⟩ | ⟨otherQ, second⟩
    · rfl
    · exact absurd second (unused q shortQ otherQ)
  · rcases put_cases tree place last leads others shortQ second with ⟨rfl, rfl⟩ | ⟨-, second⟩
    · exact absurd first (unused p shortP otherP)
    · exact tree p q there shortP shortQ first second

end Put

/-! ### All nodes -/

/-- The nodes below some of the entries of a table, up to a depth, each one behind those below it. `all` is
the list of all indices. -/
def nodes (enter : E → Option N) (all : List I) (memory : N → I → E) : Nat → N → List I → List N
  | 0, node, indices => indices.flatMap fun i => (enter (memory node i)).toList
  | depth + 1, node, indices => indices.flatMap fun i =>
    match enter (memory node i) with
    | none => []
    | some next => nodes enter all memory depth next all ++ [next]

section Nodes

variable {all : List I}

theorem nodes_congr : ∀ depth node (indices : List I), (∀ i ∈ indices, memory' node i = memory node i) →
    (∀ n ∈ nodes enter all memory depth node indices, memory' n = memory n) →
    nodes enter all memory' depth node indices = nodes enter all memory depth node indices := by
  intro depth
  induction depth with
  | zero =>
    intro node indices here _
    exact List.flatMap_congr fun i member => by rw [here i member]
  | succ depth ih =>
    intro node indices here below
    refine List.flatMap_congr fun i member => ?_
    rw [here i member]
    cases entered : enter (memory node i) with
    | none => rfl
    | some next =>
      have inside : ∀ n, n = next ∨ n ∈ nodes enter all memory depth next all →
          n ∈ nodes enter all memory (depth + 1) node indices := by
        intro n part
        refine List.mem_flatMap.mpr ⟨i, member, ?_⟩
        rw [entered]
        exact List.mem_append.mpr (part.symm.imp_right List.mem_singleton.mpr)
      dsimp only
      rw [ih next all (fun j _ => by rw [below next (inside next (.inl rfl))])
        fun n lower => below n (inside n (.inr lower))]

theorem mem_nodes (every : ∀ i, i ∈ all) {there : N} : ∀ depth node up (indices : List I),
    follow enter memory root up = some node →
    (there ∈ nodes enter all memory depth node indices ↔
      ∃ q i, i ∈ indices ∧ q.length ≤ depth ∧ follow enter memory root (q ++ i :: up) = some there) := by
  intro depth
  induction depth with
  | zero =>
    intro node up indices place
    rw [nodes, List.mem_flatMap]
    constructor
    · rintro ⟨i, member, found⟩
      refine ⟨[], i, member, Nat.le_refl 0, ?_⟩
      rw [List.nil_append, follow_cons, place, Option.bind_some]
      exact Option.mem_toList.mp found
    · rintro ⟨q, i, member, short, found⟩
      obtain rfl := List.length_eq_zero_iff.mp (Nat.le_zero.mp short)
      rw [List.nil_append, follow_cons, place, Option.bind_some] at found
      exact ⟨i, member, Option.mem_toList.mpr found⟩
  | succ depth ih =>
    intro node up indices place
    rw [nodes, List.mem_flatMap]
    have step : ∀ i, follow enter memory root (i :: up) = enter (memory node i) := fun i => follow_next place
    constructor
    · rintro ⟨i, member, found⟩
      cases entered : enter (memory node i) with
      | none =>
        rw [entered] at found
        exact absurd found List.not_mem_nil
      | some next =>
        rw [entered] at found
        rcases List.mem_append.mp found with lower | self
        · obtain ⟨q, j, -, short, found⟩ := (ih next (i :: up) all ((step i).trans entered)).mp lower
          refine ⟨q ++ [j], i, member, ?_, ?_⟩
          · rw [List.length_append, List.length_singleton]
            omega
          · rwa [List.append_assoc, List.singleton_append]
        · exact ⟨[], i, member, Nat.zero_le _, (step i).trans (entered.trans
            (congrArg some (List.mem_singleton.mp self).symm))⟩
    · rintro ⟨q, i, member, short, found⟩
      refine ⟨i, member, ?_⟩
      cases entered : enter (memory node i) with
      | none =>
        rw [follow_blocked ((step i).trans entered) q] at found
        exact absurd found nofun
      | some next =>
        rcases List.eq_nil_or_concat q with rfl | ⟨front, j, rfl⟩
        · rw [List.nil_append, step, entered] at found
          exact List.mem_append_right _ (List.mem_singleton.mpr (Option.some.inj found).symm)
        · rw [List.concat_eq_append, List.length_append, List.length_singleton] at short
          rw [List.concat_eq_append, List.append_assoc, List.singleton_append] at found
          exact List.mem_append_left _ ((ih next (i :: up) all ((step i).trans entered)).mpr
            ⟨front, j, every j, by omega, found⟩)

theorem nodes_nodup (every : ∀ i, i ∈ all) (once : all.Nodup) (tree : Tree enter depth memory root) :
    ∀ levels node up (indices : List I), follow enter memory root up = some node → indices.Nodup →
    up.length + levels < depth → (nodes enter all memory levels node indices).Nodup := by
  -- nodes below different entries of one table have different paths
  have apart : ∀ levels node up (indices : List I), follow enter memory root up = some node →
      up.length + levels < depth → ∀ i j there, i ≠ j →
      there ∈ nodes enter all memory levels node [i] → there ∉ nodes enter all memory levels node [j] := by
    intro levels node up indices place deep i j there other first second
    obtain ⟨p, i', hi, shortP, foundP⟩ := (mem_nodes every levels node up [i] place).mp first
    obtain ⟨q, j', hj, shortQ, foundQ⟩ := (mem_nodes every levels node up [j] place).mp second
    obtain rfl := List.mem_singleton.mp hi
    obtain rfl := List.mem_singleton.mp hj
    have same := tree (p ++ i' :: up) (q ++ j' :: up) there
      (by rw [List.length_append, List.length_cons]; omega)
      (by rw [List.length_append, List.length_cons]; omega) foundP foundQ
    rw [← List.singleton_append, ← List.singleton_append (x := j'), ← List.append_assoc, ← List.append_assoc] at same
    have fronts := List.append_cancel_right same
    have ends := congrArg List.getLast? fronts
    rw [List.getLast?_append, List.getLast?_append] at ends
    exact other (Option.some.inj ends)
  intro levels
  induction levels with
  | zero =>
    intro node up indices place distinct deep
    refine List.nodup_flatMap.mpr ⟨fun i _ => ?_, distinct.imp fun {i j} other there first second => ?_⟩
    · cases enter (memory node i) with
      | none => exact List.nodup_nil
      | some next => exact List.nodup_singleton next
    · refine apart 0 node up indices place deep i j there other ?_ ?_
      · rwa [nodes, List.flatMap_singleton]
      · rwa [nodes, List.flatMap_singleton]
  | succ levels ih =>
    intro node up indices place distinct deep
    refine List.nodup_flatMap.mpr ⟨fun i _ => ?_, distinct.imp fun {i j} other there first second => ?_⟩
    · cases entered : enter (memory node i) with
      | none => exact List.nodup_nil
      | some next =>
        have further : follow enter memory root (i :: up) = some next := (follow_next place).trans entered
        refine List.nodup_append.mpr ⟨ih next (i :: up) all further once (by rw [List.length_cons]; omega),
          List.nodup_singleton next, ?_⟩
        rintro there lower self member rfl
        obtain rfl := List.mem_singleton.mp member
        obtain ⟨q, j, -, short, found⟩ := (mem_nodes every levels there (i :: up) all further).mp lower
        have same := tree (q ++ j :: i :: up) (i :: up) there
          (by rw [List.length_append, List.length_cons, List.length_cons]; omega)
          (by rw [List.length_cons]; omega) found further
        have lengths := congrArg List.length same
        rw [List.length_append, List.length_cons, List.length_cons] at lengths
        omega
    · refine apart (levels + 1) node up indices place deep i j there other ?_ ?_
      · rwa [nodes, List.flatMap_singleton]
      · rwa [nodes, List.flatMap_singleton]

end Nodes

end RadixTree
