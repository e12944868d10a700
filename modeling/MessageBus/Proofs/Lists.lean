/-!
# Lists

What is used of lists in general: how one element is changed in place, and what two lists that
correspond to each other have in common.
-/

namespace MessageBus

variable {α : Type} {l : List α} {a : α} {i : Nat}

/-! ### One element is changed -/

theorem modify_of_getElem? (found : l[i]? = some a) (change : α → α) :
    l.modify i change = l.set i (change a) := by
  have : Inhabited α := ⟨a⟩
  rw [List.modify_eq_set, found]
  rfl

/-- An element after one of them changed is that one, or it is as it was. -/
theorem getElem?_modify_cases {j : Nat} {change : α → α} {a' : α}
    (found : (l.modify j change)[i]? = some a') :
    ∃ a, l[i]? = some a ∧ (i = j ∧ a' = change a ∨ i ≠ j ∧ a' = a) := by
  rw [List.getElem?_modify] at found
  obtain ⟨a, before, same⟩ := Option.map_eq_some_iff.1 found
  refine ⟨a, before, ?_⟩
  by_cases here : j = i
  · rw [if_pos here] at same
    exact .inl ⟨here.symm, same.symm⟩
  · rw [if_neg here] at same
    exact .inr ⟨Ne.symm here, same.symm⟩

/-- A change to an element that was put in place is one to what is put there. -/
theorem modify_set (l : List α) (i : Nat) (a : α) (change : α → α) :
    (l.set i a).modify i change = l.set i (change a) := by
  refine List.ext_getElem? fun j => ?_
  rw [List.getElem?_modify, List.getElem?_set, List.getElem?_set]
  by_cases same : i = j
  · subst same
    by_cases inside : i < l.length <;> simp [inside]
  · simp [same]

/-! ### Two lists, or two elements -/

/-- Lists that agree in one respect agree in another that follows from it. -/
theorem map_eq_map_of_imp {β γ δ : Type} {f : α → γ} {g : β → γ} {f' : α → δ} {g' : β → δ}
    {m : List β} (same : l.map f = m.map g)
    (imp : ∀ a ∈ l, ∀ b ∈ m, f a = g b → f' a = g' b) : l.map f' = m.map g' := by
  induction l generalizing m with
  | nil =>
    obtain rfl := List.map_eq_nil_iff.1 same.symm
    rfl
  | cons a l ih =>
    obtain ⟨b, m, rfl, here, later⟩ := List.map_eq_cons_iff.1 same.symm
    rw [List.map_cons, List.map_cons, imp a List.mem_cons_self b List.mem_cons_self here.symm,
      ih later.symm fun a member b member' =>
        imp a (List.mem_cons_of_mem _ member) b (List.mem_cons_of_mem _ member')]

/-- Lists that correspond entry by entry are of the same length. -/
theorem length_eq_of_rel {R : α → α → Prop} {l' : List α}
    (rel : ∀ i : Nat, Option.Rel R l[i]? l'[i]?) : l'.length = l.length := by
  have none_iff (i : Nat) : l[i]? = none ↔ l'[i]? = none := by
    have rel := rel i
    generalize l[i]? = before at rel ⊢
    generalize l'[i]? = after at rel ⊢
    cases rel <;> simp
  simp only [List.getElem?_eq_none_iff] at none_iff
  exact Nat.le_antisymm ((none_iff _).1 (Nat.le_refl _)) ((none_iff _).2 (Nat.le_refl _))

/-- Whether a number is in a list makes no difference where one that does not occur is left out. -/
theorem filter_mem_eq {numbers numbers' l : List Nat} {n : Nat}
    (same : ∀ n', n' ∈ numbers ↔ n' = n ∨ n' ∈ numbers') (out : n ∉ l) :
    l.filter (· ∈ numbers') = l.filter (· ∈ numbers) := by
  refine List.filter_congr fun n' member => ?_
  have other : n' ≠ n := fun here => out (here ▸ member)
  simp [same, other]

theorem rel_of_pairwise {R : α → α → Prop} {j : Nat} {b : α} (pairwise : l.Pairwise R)
    (first : l[i]? = some a) (second : l[j]? = some b) (earlier : i < j) : R a b := by
  obtain ⟨inside, rfl⟩ := List.getElem?_eq_some_iff.1 first
  obtain ⟨inside', rfl⟩ := List.getElem?_eq_some_iff.1 second
  exact List.pairwise_iff_getElem.1 pairwise i j inside inside' earlier

end MessageBus
