/-!
# What comes after

What is to hold once something has happened is said of the part of a history that comes after the
first element with a property.

## Main definitions

* `since`: the elements after the first one with a property.

## Main results

* `since_append`, `since_append_cons`, `since_of_not_any`: the cases of a longer history.
* `since_prefix`: the part only grows.
-/

namespace PartyGraph

variable {α : Type} {p : α → Bool} {l l' : List α}

/-- What comes after the first element with a property. -/
def since (p : α → Bool) : List α → List α
  | [] => []
  | x :: l => if p x then l else since p l

theorem since_append (h : l.any p = true) : since p (l ++ l') = since p l ++ l' := by
  induction l with
  | nil => cases h
  | cons x l ih =>
    rw [List.cons_append, since, since]
    cases hx : p x with
    | true => rfl
    | false =>
      rw [List.any_cons, hx, Bool.false_or] at h
      exact ih h

theorem since_append_cons {x : α} (h : l.any p = false) (hx : p x = true) :
    since p (l ++ x :: l') = l' := by
  induction l with
  | nil => exact if_pos hx
  | cons y l ih =>
    obtain ⟨hy, hl⟩ := Bool.or_eq_false_iff.mp (List.any_cons ▸ h)
    rw [List.cons_append, since, hy]
    exact ih hl

theorem since_append_of_not_any (h : l.any p = false) : since p (l ++ l') = since p l' := by
  induction l with
  | nil => rfl
  | cons y l ih =>
    obtain ⟨hy, hl⟩ := Bool.or_eq_false_iff.mp (List.any_cons ▸ h)
    rw [List.cons_append, since, hy]
    exact ih hl

theorem since_of_not_any (h : l.any p = false) : since p l = [] := by
  induction l with
  | nil => rfl
  | cons y l ih =>
    obtain ⟨hy, hl⟩ := Bool.or_eq_false_iff.mp (List.any_cons ▸ h)
    rw [since, hy]
    exact ih hl

theorem since_suffix (p : α → Bool) (l : List α) : since p l <:+ l := by
  induction l with
  | nil => exact List.nil_suffix
  | cons x l ih =>
    rw [since]
    split
    · exact List.suffix_cons x l
    · exact ih.trans (List.suffix_cons x l)

/-- Of the elements with the property, one is left out. -/
theorem countP_since (h : l.any p = true) : l.countP p = (since p l).countP p + 1 := by
  induction l with
  | nil => cases h
  | cons x l ih =>
    rw [since, List.countP_cons]
    cases hx : p x with
    | true => rfl
    | false =>
      rw [List.any_cons, hx, Bool.false_or] at h
      exact ih h

/-- A history that goes on keeps what came after. -/
theorem since_prefix (h : l <+: l') : since p l <+: since p l' := by
  obtain ⟨more, rfl⟩ := h
  cases hany : l.any p with
  | true => exact ⟨more, (since_append hany).symm⟩
  | false => exact since_of_not_any hany ▸ List.nil_prefix

end PartyGraph
