import PartyGraph.Text.Blank
import PartyGraph.Text.Lowercase
import PartyGraph.Text.Pieces

/-!
# Texts that differ in case

A text is compared without regard to case by putting its ASCII letters into lower case. Only letters
change, and they become letters, so separators, marks and white space stand at the same places of
both texts: cutting a text and putting it into lower case can be done in either order.

## Main results

* `toNat_toLower`: what becomes of a character.
* `toLower_eq_iff`: nothing but a separator becomes one.
* `pieces_map_toLower`, `trimChars_map_toLower`: texts are cut at the same places.
-/

namespace PartyGraph.Text

/-! ### Characters -/

theorem toNat_toLower (c : Char) :
    c.toLower.toNat = if 65 ≤ c.toNat ∧ c.toNat ≤ 90 then c.toNat + 32 else c.toNat := by
  by_cases h : 65 ≤ c.toNat ∧ c.toNat ≤ 90
  · have hlower : c.toLower = ⟨c.val + ('a'.val - 'A'.val), _⟩ := dif_pos h
    have hle : c.val.toNat ≤ 90 := h.2
    rw [if_pos h, hlower]
    show (c.val + ('a'.val - 'A'.val)).toNat = c.val.toNat + 32
    rw [UInt32.toNat_add]
    exact Nat.mod_eq_of_lt (by change c.val.toNat + 32 < 2 ^ 32; omega)
  · have hlower : c.toLower = c := dif_neg h
    rw [if_neg h, hlower]

/-- No letter becomes one of the characters that come before all letters. -/
theorem toLower_eq_iff {c mark : Char} (h : mark.toNat < 65) : c.toLower = mark ↔ c = mark := by
  rw [← Char.toNat_inj, ← Char.toNat_inj, toNat_toLower]
  split <;> omega

theorem isBlank_toLower (c : Char) : isBlank c.toLower = isBlank c := by
  rw [isBlank, isBlank, toNat_toLower]
  split
  · simp only [List.contains_cons, List.contains_nil, Bool.or_false]
    rw [Bool.eq_iff_iff]
    simp only [Bool.or_eq_true, Bool.and_eq_true, decide_eq_true_eq, beq_iff_eq]
    omega
  · rfl

/-! ### Cutting -/

theorem trimChars_map_toLower (cs : List Char) :
    trimChars (cs.map Char.toLower) = (trimChars cs).map Char.toLower := by
  have blank : isBlank ∘ Char.toLower = isBlank := funext isBlank_toLower
  simp only [trimChars, List.dropWhile_map, ← List.map_reverse, blank]

theorem pieces_map_toLower {sep : Char} (h : sep.toNat < 65) (cs : List Char) :
    pieces sep (cs.map Char.toLower) = (pieces sep cs).map (List.map Char.toLower) := by
  induction cs with
  | nil => rfl
  | cons c cs ih =>
    rw [List.map_cons, pieces, pieces, ih]
    by_cases hc : c = sep
    · rw [if_pos hc, if_pos ((toLower_eq_iff h).mpr hc)]
      rfl
    · rw [if_neg hc, if_neg (mt (toLower_eq_iff h).mp hc)]
      cases pieces sep cs <;> rfl

theorem mem_map_toLower_iff {mark : Char} (h : mark.toNat < 65) (cs : List Char) :
    mark ∈ cs.map Char.toLower ↔ mark ∈ cs := by
  simp [List.mem_map, toLower_eq_iff h]

end PartyGraph.Text
