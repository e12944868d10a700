import Mathlib.Algebra.BigOperators.Group.Finset.Piecewise
import Mathlib.Algebra.Order.BigOperators.Group.List
import Mathlib.Algebra.Order.Group.Nat
import Mathlib.Algebra.Ring.Nat

/-!
# Sums

What is used of sums in general. Most of it is about two sums that differ in one part.
-/

namespace MessageBus

theorem sum_map_le_mul {α : Type} {l : List α} {f : α → Nat} {k : Nat} (le : ∀ a ∈ l, f a ≤ k) :
    (l.map f).sum ≤ k * l.length := by
  have each : (l.map f).sum ≤ (l.map f).length * k :=
    List.sum_le_card_nsmul _ k (List.forall_mem_map.2 le)
  rwa [List.length_map, Nat.mul_comm] at each

theorem length_le_sum_map {α : Type} {l : List α} {f : α → Nat} (pos : ∀ a ∈ l, 0 < f a) :
    l.length ≤ (l.map f).sum := by
  have parts := List.length_le_sum_of_one_le (l.map f) (List.forall_mem_map.2 pos)
  rwa [List.length_map] at parts

/-- Nothing counts as nothing. -/
theorem sum_map_getD {α : Type} (l : List (Option α)) (f : α → Nat) :
    (l.map fun o => (o.map f).getD 0).sum = ((l.filterMap id).map f).sum := by
  induction l with
  | nil => rfl
  | cons o l ih => cases o <;> simp [ih]

/-- Where one element of a list is replaced and the others do not grow, the sum changes by as much
as that element, at most. -/
theorem sum_map_set_le {α : Type} {l : List α} {i : Nat} {a : α} {f g : α → Nat}
    (le : ∀ a ∈ l, g a ≤ f a) (there : l[i]? = some a) (a' : α) :
    ((l.set i a').map g).sum + f a ≤ (l.map f).sum + g a' := by
  induction l generalizing i with
  | nil => cases there
  | cons b l ih =>
    cases i with
    | zero =>
      cases Option.some.inj there
      have rest := List.sum_le_sum fun a member => le a (List.mem_cons_of_mem _ member)
      simp only [List.set_cons_zero, List.map_cons, List.sum_cons]
      omega
    | succ i =>
      have rest := ih (fun a member => le a (List.mem_cons_of_mem _ member)) there
      have first := le b List.mem_cons_self
      simp only [List.set_cons_succ, List.map_cons, List.sum_cons]
      omega

theorem sum_eq_sum_range (l : List Nat) {n : Nat} (le : l.length ≤ n) :
    l.sum = ∑ i ∈ Finset.range n, (l[i]?).getD 0 := by
  induction l generalizing n with
  | nil => simp
  | cons a l ih =>
    obtain ⟨n, rfl⟩ := Nat.exists_eq_add_of_le' (Nat.lt_of_lt_of_le (Nat.succ_pos _) le)
    rw [List.sum_cons, Finset.sum_range_succ', ih (Nat.le_of_succ_le_succ le), Nat.add_comm]
    rfl

/-- Of two sums that differ in one part at most. -/
theorem sum_add_of_same {f g : Nat → Nat} {i n : Nat} (inside : i < n)
    (same : ∀ j, j ≠ i → g j = f j) :
    ∑ j ∈ Finset.range n, g j + f i = ∑ j ∈ Finset.range n, f j + g i := by
  have member := Finset.mem_range.2 inside
  have others : ∑ j ∈ (Finset.range n).erase i, g j = ∑ j ∈ (Finset.range n).erase i, f j :=
    Finset.sum_congr rfl fun j there => same j (Finset.ne_of_mem_erase there)
  rw [← Finset.add_sum_erase _ f member, ← Finset.add_sum_erase _ g member, others]
  omega

end MessageBus
