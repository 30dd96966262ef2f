/-!
# Texts cut at a separator

## Main definitions

* `pieces`: the pieces of a text between the occurrences of a separator.
* `joined`: pieces put together again.

## Main results

* `joined_pieces`: cutting loses nothing.
* `pieces_append`: a separator cuts a text in two.
* `pieces_joined`: pieces that hold no separator are found again.
* `isPrefix_joined_cons`: what a text begins with is read off its first piece.
-/

namespace PartyGraph.Text

/-- The pieces of `cs` between the occurrences of `sep`. There is always one piece more than there
are separators, so the empty text has one empty piece. -/
def pieces (sep : Char) : List Char → List (List Char)
  | [] => [[]]
  | c :: rest =>
    if c = sep then [] :: pieces sep rest
    else match pieces sep rest with
      | [] => [[c]]
      | p :: ps => (c :: p) :: ps

/-- The pieces with `sep` between each two. -/
def joined (sep : Char) : List (List Char) → List Char
  | [] => []
  | [p] => p
  | p :: q :: ps => p ++ sep :: joined sep (q :: ps)

theorem pieces_ne_nil (sep : Char) (cs : List Char) : pieces sep cs ≠ [] := by
  cases cs with
  | nil => simp [pieces]
  | cons c rest =>
    unfold pieces
    split
    · simp
    · split <;> simp

theorem joined_pieces (sep : Char) (cs : List Char) : joined sep (pieces sep cs) = cs := by
  induction cs with
  | nil => rfl
  | cons c rest ih =>
    unfold pieces
    split
    · next h =>
      cases hp : pieces sep rest with
      | nil => exact absurd hp (pieces_ne_nil sep rest)
      | cons p ps => rw [hp] at ih; simp [joined, ih, h]
    · cases hp : pieces sep rest with
      | nil => exact absurd hp (pieces_ne_nil sep rest)
      | cons p ps =>
        rw [hp] at ih
        cases ps with
        | nil => simpa [joined] using ih
        | cons q qs => simpa [joined] using ih

theorem pieces_of_notMem {sep : Char} {cs : List Char} (h : sep ∉ cs) : pieces sep cs = [cs] := by
  induction cs with
  | nil => rfl
  | cons c rest ih =>
    simp only [List.mem_cons, not_or] at h
    simp [pieces, ih h.2, Ne.symm h.1]

/-- A separator cuts a text in two, wherever it stands. -/
theorem pieces_append (sep : Char) (xs ys : List Char) :
    pieces sep (xs ++ sep :: ys) = pieces sep xs ++ pieces sep ys := by
  induction xs with
  | nil => simp [pieces]
  | cons x xs ih =>
    rw [List.cons_append, pieces, pieces, ih]
    split
    · rfl
    · cases h : pieces sep xs with
      | nil => exact absurd h (pieces_ne_nil sep xs)
      | cons p ps => rfl

theorem pieces_append_cons {sep : Char} {p : List Char} (h : sep ∉ p) (rest : List Char) :
    pieces sep (p ++ sep :: rest) = p :: pieces sep rest := by
  rw [pieces_append, pieces_of_notMem h, List.singleton_append]

theorem pieces_joined {sep : Char} {ps : List (List Char)} (hne : ps ≠ [])
    (h : ∀ p ∈ ps, sep ∉ p) : pieces sep (joined sep ps) = ps := by
  induction ps with
  | nil => exact absurd rfl hne
  | cons p ps ih =>
    cases ps with
    | nil => simpa [joined] using pieces_of_notMem (h p (by simp))
    | cons q qs =>
      rw [joined, pieces_append_cons (h p (by simp)),
        ih (by simp) fun x hx => h x (List.mem_cons_of_mem _ hx)]

/-- Pieces that hold no separator are known by the text that they make. -/
theorem joined_injective {sep : Char} {ps qs : List (List Char)} (hp : ps ≠ []) (hq : qs ≠ [])
    (hps : ∀ p ∈ ps, sep ∉ p) (hqs : ∀ q ∈ qs, sep ∉ q) (h : joined sep ps = joined sep qs) :
    ps = qs := by
  rw [← pieces_joined hp hps, h, pieces_joined hq hqs]

/-- One more piece at the end, after a separator. -/
theorem joined_concat {sep : Char} {ps : List (List Char)} (hne : ps ≠ []) (q : List Char) :
    joined sep (ps ++ [q]) = joined sep ps ++ sep :: q := by
  induction ps with
  | nil => exact absurd rfl hne
  | cons p ps ih =>
    cases ps with
    | nil => rfl
    | cons r rs =>
      have h := ih (List.cons_ne_nil r rs)
      simp only [List.cons_append, joined] at h ⊢
      rw [h, List.append_assoc, List.cons_append]

theorem mem_joined {sep c : Char} {ps : List (List Char)} (h : c ∈ joined sep ps) :
    c = sep ∨ ∃ p ∈ ps, c ∈ p := by
  induction ps with
  | nil => cases h
  | cons p ps ih =>
    cases ps with
    | nil => exact .inr ⟨p, List.mem_cons_self, h⟩
    | cons q qs =>
      rw [joined, List.mem_append, List.mem_cons] at h
      rcases h with h | h | h
      · exact .inr ⟨p, List.mem_cons_self, h⟩
      · exact .inl h
      · rcases ih h with h | ⟨r, hr, h⟩
        · exact .inl h
        · exact .inr ⟨r, List.mem_cons_of_mem p hr, h⟩

theorem map_joined (f : Char → Char) (sep : Char) (ps : List (List Char)) :
    (joined sep ps).map f = joined (f sep) (ps.map (List.map f)) := by
  induction ps with
  | nil => rfl
  | cons p ps ih =>
    cases ps with
    | nil => rfl
    | cons q qs =>
      simp only [List.map_cons] at ih ⊢
      rw [joined, joined, List.map_append, List.map_cons, ih]

/-- Whether a text begins with `w` is decided by its first piece, when `w` holds no separator. -/
theorem isPrefix_joined_cons {sep : Char} {w : List Char} (hw : sep ∉ w) (p : List Char)
    (ps : List (List Char)) : w <+: joined sep (p :: ps) ↔ w <+: p := by
  cases ps with
  | nil => rfl
  | cons q qs =>
    rw [joined]
    constructor
    · intro h
      rcases List.prefix_or_prefix_of_prefix h (List.prefix_append p _) with hp | ⟨r, rfl⟩
      · exact hp
      · have hr := (List.prefix_append_right_inj p).mp h
        cases r with
        | nil => simp
        | cons c r =>
          rw [List.cons_prefix_cons] at hr
          exact absurd (List.mem_append_right p (hr.1 ▸ List.mem_cons_self)) hw
    · intro h
      exact h.trans (List.prefix_append p _)

end PartyGraph.Text
