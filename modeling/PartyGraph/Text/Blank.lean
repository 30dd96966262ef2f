/-!
# White space around a text

White space is the Unicode property `White_Space`: 25 code points, of which six are ASCII.

## Main definitions

* `isBlank`: the property.
* `trim`: a text without the white space at its two ends.

## Main results

* `trimChars_append`, `exists_trimChars`: white space at the two ends goes, and nothing else does.
-/

namespace PartyGraph.Text

/-- Whether `c` has the property `White_Space`. -/
def isBlank (c : Char) : Bool :=
  (0x09 ≤ c.toNat && c.toNat ≤ 0x0D) || (0x2000 ≤ c.toNat && c.toNat ≤ 0x200A)
    || [0x20, 0x85, 0xA0, 0x1680, 0x2028, 0x2029, 0x202F, 0x205F, 0x3000].contains c.toNat

/-- `trim` on characters. -/
def trimChars (cs : List Char) : List Char :=
  ((cs.dropWhile isBlank).reverse.dropWhile isBlank).reverse

/-- The text without the white space at its two ends. -/
def trim (s : String) : String :=
  String.ofList (trimChars s.toList)

/-- White space around characters of which none is white space is all that goes. -/
theorem trimChars_append {left cs right : List Char} (hl : ∀ c ∈ left, isBlank c = true)
    (hr : ∀ c ∈ right, isBlank c = true) (hcs : ∀ c ∈ cs, isBlank c = false) :
    trimChars (left ++ cs ++ right) = cs := by
  have keep {ds : List Char} (hds : ∀ c ∈ ds, isBlank c = false) : ds.dropWhile isBlank = ds := by
    cases ds with
    | nil => rfl
    | cons d ds => rw [List.dropWhile_cons_of_neg (by rw [hds d List.mem_cons_self]; decide)]
  have blank : right.dropWhile isBlank = [] := by
    rw [← List.append_nil right, List.dropWhile_append_of_pos hr, List.dropWhile_nil]
  rw [trimChars, List.append_assoc, List.dropWhile_append_of_pos hl]
  cases cs with
  | nil => rw [List.nil_append, blank]; rfl
  | cons c cs =>
    rw [List.cons_append, List.dropWhile_cons_of_neg (by rw [hcs c List.mem_cons_self]; decide),
      ← List.cons_append, List.reverse_append,
      List.dropWhile_append_of_pos fun d hd => hr d (List.mem_reverse.mp hd),
      keep fun d hd => hcs d (List.mem_reverse.mp hd), List.reverse_reverse]

/-- Only white space goes. -/
theorem exists_trimChars (cs : List Char) :
    ∃ left right, (∀ c ∈ left, isBlank c = true) ∧ (∀ c ∈ right, isBlank c = true) ∧
      cs = left ++ trimChars cs ++ right := by
  have cut (ds : List Char) :
      ds = ds.takeWhile isBlank ++ ds.dropWhile isBlank := List.takeWhile_append_dropWhile.symm
  refine ⟨cs.takeWhile isBlank,
    ((cs.dropWhile isBlank).reverse.takeWhile isBlank).reverse, fun c hc => ?_, fun c hc => ?_, ?_⟩
  · exact List.all_eq_true.mp List.all_takeWhile c hc
  · exact List.all_eq_true.mp List.all_takeWhile c (List.mem_reverse.mp hc)
  · rw [trimChars, List.append_assoc, ← List.reverse_append, ← cut, List.reverse_reverse, ← cut]

end PartyGraph.Text
