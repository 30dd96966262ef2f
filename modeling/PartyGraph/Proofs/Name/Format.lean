import PartyGraph.Name.FullName

/-!
# The format of names

A name text is a path of segments, a marked party and perhaps a marked environment, with `/`
between each two and white space around the whole:

```text
Acme/Sales/$Billing/#Prod
```

Reading goes piece by piece and keeps what it has read, so the pieces it has passed can always be
written down again from it. That one fact gives both directions: what is accepted is a spelling of
a name, and every spelling is accepted. The text of a name is a spelling of it, whatever way the
name was made.

## Main definitions

* `WordChar`: ASCII letters, digits and the underscore.
* `Spelling`: what a name text spells, with its characters.
* `Spelling.Admissible`: a reserved word has no sub domains.
* `Spelling.ReadAs`: the texts of the name that is read from a spelling.
* `NameFormat`: which texts are names, what is read from them, and that names are read back.

## Main results

* `nameFormat`: all of it.
-/

namespace PartyGraph

/-! ### Characters and segments -/

/-- ASCII letters, digits and the underscore. -/
def WordChar (c : Char) : Prop :=
  ('a' ≤ c ∧ c ≤ 'z') ∨ ('A' ≤ c ∧ c ≤ 'Z') ∨ ('0' ≤ c ∧ c ≤ '9') ∨ c = '_'

theorem isLeading_iff {c : Char} : isLeading c = true ↔ WordChar c := by
  have upper : c.isUpper = decide ('A' ≤ c ∧ c ≤ 'Z') := rfl
  have lower : c.isLower = (decide ('a' ≤ c) && decide (c ≤ 'z')) := rfl
  have digit : c.isDigit = (decide ('0' ≤ c) && decide (c ≤ '9')) := rfl
  have alphanumeric : c.isAlphanum = (c.isUpper || c.isLower || c.isDigit) := rfl
  rw [isLeading, alphanumeric, upper, lower, digit, WordChar]
  simp only [Bool.or_eq_true, Bool.and_eq_true, decide_eq_true_eq, beq_iff_eq, or_assoc]
  exact or_left_comm

theorem isFollowing_iff {c : Char} : isFollowing c = true ↔ WordChar c ∨ c = '-' ∨ c = '.' := by
  simp only [isFollowing, Bool.or_eq_true, isLeading_iff, beq_iff_eq, or_assoc]

theorem isSegment_iff {cs : List Char} :
    isSegment cs = true ↔ ∃ c rest, cs = c :: rest ∧ WordChar c ∧
      ∀ d ∈ rest, WordChar d ∨ d = '-' ∨ d = '.' := by
  cases cs with
  | nil => simp [isSegment]
  | cons c rest =>
    simp only [isSegment, Bool.and_eq_true, List.all_eq_true, isLeading_iff, isFollowing_iff]
    constructor
    · rintro ⟨hc, hrest⟩
      exact ⟨c, rest, rfl, hc, hrest⟩
    · rintro ⟨_, _, h, hc, hrest⟩
      cases h
      exact ⟨hc, hrest⟩

/-- All characters of segments lie between the dash and the last small letter. -/
theorem bounds_of_isFollowing {c : Char} (h : isFollowing c = true) :
    45 ≤ c.toNat ∧ c.toNat ≤ 122 := by
  rcases isFollowing_iff.mp h with (h | h | h | rfl) | rfl | rfl
  · change 97 ≤ c.toNat ∧ c.toNat ≤ 122 at h
    omega
  · change 65 ≤ c.toNat ∧ c.toNat ≤ 90 at h
    omega
  · change 48 ≤ c.toNat ∧ c.toNat ≤ 57 at h
    omega
  all_goals decide

theorem isBlank_of_isFollowing {c : Char} (h : isFollowing c = true) : Text.isBlank c = false := by
  have := bounds_of_isFollowing h
  simp only [Text.isBlank, List.contains_cons, List.contains_nil, Bool.or_false,
    Bool.or_eq_false_iff, Bool.and_eq_false_iff, decide_eq_false_iff_not, beq_eq_false_iff_ne]
  omega

namespace Segment

variable (s : Segment) {c : Char}

theorem isFollowing_of_mem (h : c ∈ s.chars) : isFollowing c = true := by
  obtain ⟨chars, hs⟩ := s
  obtain ⟨d, rest, rfl, hd, hrest⟩ := isSegment_iff.mp hs
  rcases List.mem_cons.mp h with rfl | h
  · exact isFollowing_iff.mpr (.inl hd)
  · exact isFollowing_iff.mpr (hrest c h)

theorem notMem_chars (h : isFollowing c = false) : c ∉ s.chars := by
  intro hc
  rw [s.isFollowing_of_mem hc] at h
  cases h

theorem slash_notMem : '/' ∉ s.chars := s.notMem_chars (by decide)

/-- The first character of a segment is none of the marks. -/
theorem chars_ne_marked {mark : Char} (h : isFollowing mark = false) (rest : List Char) :
    s.chars ≠ mark :: rest := fun hs => s.notMem_chars h (hs ▸ List.mem_cons_self)

end Segment

/-! ### Reserved words -/

namespace Reserved

variable {w : Reserved} {s : Segment}

/-- A segment that begins with a word begins with no other. -/
theorem of?_eq_some : of? s = some w ↔ w.begins s = true := by
  have apart : external.begins s = true → undefined.begins s = false := by
    intro he
    refine Bool.eq_false_iff.mpr fun hu => ?_
    simp only [begins, List.isPrefixOf_iff_prefix] at he hu
    rcases List.prefix_or_prefix_of_prefix he hu with h | h
    · exact absurd h (by decide)
    · exact absurd h (by decide)
  cases he : external.begins s with
  | true => cases w <;> simp [of?, he, apart he]
  | false => cases hu : undefined.begins s <;> cases w <;> simp [of?, he, hu]

theorem of?_eq_none : of? s = none ↔ ∀ w : Reserved, w.begins s = false := by
  rw [Option.eq_none_iff_forall_ne_some]
  exact forall_congr' fun w => by rw [ne_eq, of?_eq_some, Bool.not_eq_true]

end Reserved

namespace Domain

variable {d : Domain} {first : Segment} {rest : List Segment}

/-- A path denotes a domain unless it goes on behind a reserved word. -/
theorem exists_ofSegments :
    (∃ d, ofSegments first rest = some d) ↔ ∀ w : Reserved, w.begins first = true → rest = [] := by
  unfold ofSegments
  split
  · next h =>
    rw [Reserved.of?_eq_none] at h
    constructor
    · intro _ w hw
      rw [h w] at hw
      cases hw
    · intro _
      exact ⟨_, rfl⟩
  · next word h =>
    cases rest with
    | nil => exact ⟨fun _ _ _ => rfl, fun _ => ⟨_, rfl⟩⟩
    | cons s rest =>
      constructor
      · rintro ⟨d, hd⟩
        cases hd
      · intro hw
        cases hw word (Reserved.of?_eq_some.mp h)

theorem eq_of_begins {w : Reserved} (h : ofSegments first rest = some d)
    (hw : w.begins first = true) : d = reserved w := by
  unfold ofSegments at h
  rw [← Reserved.of?_eq_some] at hw
  split at h
  · next h' => rw [h'] at hw; cases hw
  · next word h' =>
    rw [h'] at hw
    cases hw
    split at h <;> cases h
    rfl

theorem segments_ofSegments (h : ofSegments first rest = some d)
    (hw : ∀ w : Reserved, w.begins first = false) : d.segments = first :: rest := by
  unfold ofSegments at h
  rw [← Reserved.of?_eq_none] at hw
  split at h
  · cases h
    rfl
  · next word h' => rw [h'] at hw; cases hw

/-- A domain is what its own segments denote. -/
theorem ofSegments_segments (h : d.segments = first :: rest) : ofSegments first rest = some d := by
  cases d with
  | reserved w =>
    cases h
    cases w <;> rfl
  | path first rest free =>
    cases h
    unfold ofSegments
    split
    · rfl
    · next word hword => rw [hword] at free; cases free

end Domain

/-! ### Reading piece by piece -/

namespace NameParts

variable {whole : String} {p q : Progress} {path : List Segment}

/-- The pieces that have been read. -/
def Progress.pieces (p : Progress) : List (List Char) :=
  p.path.map Segment.chars ++ (p.party.map ('$' :: ·.chars)).toList ++
    (p.environment.map ('#' :: ·.chars)).toList

theorem pieces_step {piece : List Char} (h : step whole p piece = .ok q) :
    q.pieces = p.pieces ++ [piece] := by
  obtain ⟨path, party, environment⟩ := p
  unfold step at h
  split at h
  · cases h
  · next henv =>
    obtain rfl : environment = none := by simpa using henv
    split at h
    · split at h
      · next hs =>
        cases h
        simp [Progress.pieces, Segment.ofChars?_eq_some.mp hs]
      · cases h
    · split at h
      · next hparty hs =>
        cases h
        simp only at hparty
        simp [Progress.pieces, hparty, Segment.ofChars?_eq_some.mp hs]
      · cases h
    · split at h
      · next hparty hs =>
        cases h
        simp only at hparty
        simp [Progress.pieces, hparty, Segment.ofChars?_eq_some.mp hs]
      · cases h

/-- What has been read can be written down again. -/
theorem pieces_steps {ps : List (List Char)} (h : steps whole p ps = .ok q) :
    q.pieces = p.pieces ++ ps := by
  induction ps generalizing p with
  | nil => cases h; rw [List.append_nil]
  | cons piece ps ih =>
    rw [steps] at h
    split at h
    · next next hnext => rw [ih h, pieces_step hnext, List.append_assoc, List.singleton_append]
    · cases h

theorem step_segment (path : List Segment) (s : Segment) :
    step whole ⟨path, none, none⟩ s.chars = .ok ⟨path ++ [s], none, none⟩ := by
  unfold step
  split
  · next h => cases h
  · split
    · next h => exact absurd h (s.chars_ne_marked (by decide) _)
    · next h => exact absurd h (s.chars_ne_marked (by decide) _)
    · rw [Segment.ofChars?_chars]

theorem step_party (path : List Segment) (s : Segment) :
    step whole ⟨path, none, none⟩ ('$' :: s.chars) = .ok ⟨path, some s, none⟩ := by
  simp [step, Segment.ofChars?_chars]

theorem step_environment (path : List Segment) (party : Option Segment) (s : Segment) :
    step whole ⟨path, party, none⟩ ('#' :: s.chars) = .ok ⟨path, party, some s⟩ := by
  simp [step, Segment.ofChars?_chars]

theorem steps_append {xs : List (List Char)} (h : steps whole p xs = .ok q)
    (ys : List (List Char)) : steps whole p (xs ++ ys) = steps whole q ys := by
  induction xs generalizing p with
  | nil => cases h; rfl
  | cons x xs ih =>
    rw [steps] at h
    split at h
    · next next hnext => rw [List.cons_append, steps, hnext]; exact ih h
    · cases h

theorem steps_segments (path ss : List Segment) :
    steps whole ⟨path, none, none⟩ (ss.map Segment.chars) = .ok ⟨path ++ ss, none, none⟩ := by
  induction ss generalizing path with
  | nil => rw [List.append_nil]; rfl
  | cons s ss ih =>
    rw [List.map_cons, steps, step_segment]
    simpa only [List.append_assoc, List.singleton_append] using ih (path ++ [s])

/-- Pieces in order are read as what they are the pieces of. -/
theorem steps_pieces (q : Progress) : steps whole ⟨[], none, none⟩ q.pieces = .ok q := by
  obtain ⟨path, party, environment⟩ := q
  have hpath : steps whole ⟨[], none, none⟩ (path.map Segment.chars) = .ok ⟨path, none, none⟩ :=
    steps_segments [] path
  have hparty : steps whole ⟨[], none, none⟩
      (path.map Segment.chars ++ (party.map ('$' :: ·.chars)).toList) =
        .ok ⟨path, party, none⟩ := by
    rw [steps_append hpath]
    cases party with
    | none => rfl
    | some s => simp [steps, step_party]
  rw [Progress.pieces, steps_append hparty]
  cases environment with
  | none => rfl
  | some s => simp [steps, step_environment]

/-- No piece holds the separator. -/
theorem slash_notMem_pieces (p : Progress) : ∀ piece ∈ p.pieces, '/' ∉ piece := by
  intro piece hpiece
  simp only [Progress.pieces, List.mem_append, List.mem_map, Option.mem_toList,
    Option.map_eq_some_iff] at hpiece
  rcases hpiece with (⟨s, -, rfl⟩ | ⟨s, -, rfl⟩) | ⟨s, -, rfl⟩
  · exact s.slash_notMem
  · simpa using s.slash_notMem
  · simpa using s.slash_notMem

/-- No piece holds white space. -/
theorem isBlank_pieces (p : Progress) : ∀ c ∈ Text.joined '/' p.pieces, Text.isBlank c = false := by
  intro c hc
  have segment (s : Segment) (h : c ∈ s.chars) : Text.isBlank c = false :=
    isBlank_of_isFollowing (s.isFollowing_of_mem h)
  rcases Text.mem_joined hc with rfl | ⟨piece, hpiece, hc⟩
  · decide
  · simp only [Progress.pieces, List.mem_append, List.mem_map, Option.mem_toList,
      Option.map_eq_some_iff] at hpiece
    rcases hpiece with (⟨s, -, rfl⟩ | ⟨s, -, rfl⟩) | ⟨s, -, rfl⟩
    · exact segment s hc
    · rcases List.mem_cons.mp hc with rfl | hc
      · decide
      · exact segment s hc
    · rcases List.mem_cons.mp hc with rfl | hc
      · decide
      · exact segment s hc

/-- What a text with parts looks like. -/
theorem parse_eq_ok {text : String} {parts : NameParts} :
    parse text = .ok parts ↔ ∃ first rest,
      Text.trimChars text.toList =
        Text.joined '/' (Progress.pieces ⟨first :: rest, parts.party, parts.environment⟩) ∧
      Domain.ofSegments first rest = some parts.domain := by
  have hlist : (Text.trim text).toList = Text.trimChars text.toList := String.toList_ofList
  constructor
  · intro h
    simp only [parse] at h
    split at h
    · cases h
    · split at h
      · cases h
      · next p hp =>
        obtain ⟨path, party, environment⟩ := p
        have hpieces := pieces_steps hp
        cases path with
        | nil => cases h
        | cons first rest =>
          simp only [List.isEmpty_cons, Bool.false_eq_true, if_false, Domain.ofPath] at h
          cases hd : Domain.ofSegments first rest with
          | none => rw [hd] at h; cases h
          | some d =>
            rw [hd] at h
            cases h
            refine ⟨first, rest, ?_, hd⟩
            rw [hpieces, hlist]
            exact (Text.joined_pieces '/' _).symm
  · rintro ⟨first, rest, htext, hd⟩
    have hfound : Text.pieces '/' (Text.trim text).toList =
        Progress.pieces ⟨first :: rest, parts.party, parts.environment⟩ := by
      rw [hlist, htext]
      exact Text.pieces_joined (by simp [Progress.pieces]) (slash_notMem_pieces _)
    have hne : (Text.trim text).isEmpty = false := by
      refine Bool.eq_false_iff.mpr fun hempty => ?_
      rw [String.isEmpty_iff] at hempty
      rw [hempty] at hfound
      have hfirst : first.chars = [] := by
        simpa [Progress.pieces, Text.pieces] using (List.cons.inj hfound).1.symm
      exact first.chars_ne_nil hfirst
    simp only [parse, hne, Bool.false_eq_true, if_false, hfound, steps_pieces, List.isEmpty_cons,
      Domain.ofPath, hd]

end NameParts

/-! ### Spellings -/

/-- What a name text spells: the path of the domain, the party and the environment, which may be
left out. -/
structure Spelling where
  first : Segment
  rest : List Segment
  party : Segment
  environment : Option Segment

namespace Spelling

variable (f : Spelling)

/-- The pieces of the text, with their marks. -/
def pieces : List (List Char) :=
  (f.first :: f.rest).map Segment.chars ++ ('$' :: f.party.chars) ::
    (f.environment.map ('#' :: ·.chars)).toList

/-- The characters of the text. -/
def chars : List Char := Text.joined '/' f.pieces

/-- Whether `text` is the spelling with white space around it. -/
def WrittenIn (text : String) : Prop :=
  ∃ left right, (∀ c ∈ left, Text.isBlank c = true) ∧ (∀ c ∈ right, Text.isBlank c = true) ∧
    text.toList = left ++ f.chars ++ right

/-- The characters of the domain. -/
def domainChars : List Char := Text.joined '/' ((f.first :: f.rest).map Segment.chars)

/-- Whether the domain begins with a reserved word, in any case. -/
def Begins (w : Reserved) : Prop :=
  w.segment.chars.map Char.toLower <+: f.domainChars.map Char.toLower

/-- A domain that begins with a reserved word is a single segment. -/
def Admissible : Prop := ∀ w, f.Begins w → f.rest = []

/-- The texts of the name that is read. -/
structure ReadAs (n : FullName) : Prop where
  reserved : ∀ w, f.Begins w → n.domain.text = w.segment.text
  unchanged : (∀ w, ¬ f.Begins w) → n.domain.text = String.ofList f.domainChars
  party : partyText n.party = "$" ++ String.ofList f.party.chars
  environment : environmentText n.environment =
    match f.environment with
    | some e => "#" ++ String.ofList e.chars
    | none => "#Dev"

theorem pieces_eq : f.pieces = NameParts.Progress.pieces
    ⟨f.first :: f.rest, some f.party, f.environment⟩ := by
  simp [pieces, NameParts.Progress.pieces]

theorem isBlank_chars : ∀ c ∈ f.chars, Text.isBlank c = false := by
  rw [chars, pieces_eq]
  exact NameParts.isBlank_pieces _

theorem writtenIn_iff {text : String} :
    f.WrittenIn text ↔ Text.trimChars text.toList = f.chars := by
  constructor
  · rintro ⟨left, right, hl, hr, h⟩
    rw [h, Text.trimChars_append hl hr f.isBlank_chars]
  · intro h
    obtain ⟨left, right, hl, hr, htext⟩ := Text.exists_trimChars text.toList
    exact ⟨left, right, hl, hr, by rw [← h]; exact htext⟩

/-- Slashes do not occur in reserved words, so the first segment decides. -/
theorem begins_iff {w : Reserved} : f.Begins w ↔ w.begins f.first = true := by
  have hlower : f.domainChars.map Char.toLower =
      Text.joined '/' ((f.first :: f.rest).map Segment.lower) := by
    rw [domainChars, Text.map_joined, List.map_map]
    rfl
  rw [Begins, hlower, Reserved.begins, List.isPrefixOf_iff_prefix]
  exact Text.isPrefix_joined_cons (by cases w <;> decide) _ _

/-- The name that is read, when the domain is one. -/
theorem parse_eq_ok {text : String} {n : FullName} : FullName.parse text = .ok n ↔
    ∃ f : Spelling, f.WrittenIn text ∧ Domain.ofSegments f.first f.rest = some n.domain ∧
      n.party = f.party ∧ n.environment = f.environment.getD defaultEnvironment := by
  constructor
  · intro h
    cases hparts : NameParts.parse text with
    | error e => rw [FullName.parse, hparts] at h; cases h
    | ok parts =>
      obtain ⟨domain, party, environment⟩ := parts
      obtain ⟨first, rest, htext, hd⟩ := NameParts.parse_eq_ok.mp hparts
      rw [FullName.parse, hparts] at h
      cases party with
      | none => cases h
      | some party =>
        cases h
        refine ⟨⟨first, rest, party, environment⟩, ?_, hd, rfl, rfl⟩
        rw [writtenIn_iff, chars, pieces_eq]
        exact htext
  · rintro ⟨f, htext, hd, hparty, henvironment⟩
    obtain ⟨domain, party, environment⟩ := n
    rw [writtenIn_iff, chars, pieces_eq] at htext
    have hparts : NameParts.parse text = .ok ⟨domain, some f.party, f.environment⟩ :=
      NameParts.parse_eq_ok.mpr ⟨f.first, f.rest, htext, hd⟩
    cases hparty
    cases henvironment
    rw [FullName.parse, hparts]
    rfl

theorem readAs {n : FullName} (hd : Domain.ofSegments f.first f.rest = some n.domain)
    (hparty : n.party = f.party)
    (henvironment : n.environment = f.environment.getD defaultEnvironment) : f.ReadAs n where
  reserved w hw := by
    rw [Domain.eq_of_begins hd (f.begins_iff.mp hw)]
    rfl
  unchanged hw := by
    have hfree (w : Reserved) : w.begins f.first = false := by
      rw [← Bool.not_eq_true, ← begins_iff]
      exact hw w
    rw [Domain.text, Domain.chars, Domain.segments_ofSegments hd hfree]
    rfl
  party := by
    rw [hparty, partyText, ← List.singleton_append, String.ofList_append]
  environment := by
    rw [henvironment]
    cases f.environment with
    | none => decide
    | some e =>
      rw [Option.getD_some, environmentText, ← List.singleton_append, String.ofList_append]

theorem admissible_iff : f.Admissible ↔ ∃ d, Domain.ofSegments f.first f.rest = some d := by
  rw [Domain.exists_ofSegments]
  exact forall_congr' fun w => by rw [begins_iff]

end Spelling

/-! ### The format -/

/-- Which texts are names and what they are read as. -/
structure NameFormat : Prop where
  /-- A segment is a word character and then word characters, dashes and dots. -/
  segment : ∀ cs : List Char, (∃ s : Segment, s.chars = cs) ↔ ∃ c rest, cs = c :: rest ∧
    WordChar c ∧ ∀ d ∈ rest, WordChar d ∨ d = '-' ∨ d = '.'
  /-- Names are the admissible spellings, with white space around them. -/
  accepted : ∀ text, (∃ n, FullName.parse text = .ok n) ↔
    ∃ f : Spelling, f.Admissible ∧ f.WrittenIn text
  /-- A spelling is read as the name it spells. -/
  read : ∀ (f : Spelling) (text : String), f.Admissible → f.WrittenIn text →
    ∃ n, FullName.parse text = .ok n ∧ f.ReadAs n
  /-- The text of a name is read as that name. -/
  returned : ∀ n : FullName, FullName.parse n.text = .ok n

/-- The spelling that is the text of a name. -/
theorem FullName.exists_spelling (n : FullName) : ∃ f : Spelling,
    n.domain.segments = f.first :: f.rest ∧ f.party = n.party ∧
      f.environment = some n.environment ∧ f.chars = n.chars := by
  obtain ⟨first, rest, h⟩ := List.exists_cons_of_ne_nil n.domain.segments_ne_nil
  refine ⟨⟨first, rest, n.party, some n.environment⟩, h, rfl, rfl, ?_⟩
  have hmap : n.domain.segments.map Segment.chars ≠ [] := by simp [n.domain.segments_ne_nil]
  calc Text.joined '/' ((first :: rest).map Segment.chars ++
        ['$' :: n.party.chars, '#' :: n.environment.chars])
      = Text.joined '/' ((n.domain.segments.map Segment.chars ++ ['$' :: n.party.chars]) ++
          ['#' :: n.environment.chars]) := by rw [h, List.append_assoc]; rfl
    _ = Text.joined '/' (n.domain.segments.map Segment.chars) ++ '/' :: ('$' :: n.party.chars) ++
          '/' :: ('#' :: n.environment.chars) := by
        rw [Text.joined_concat (by simp), Text.joined_concat hmap]
    _ = n.chars := rfl

/-- **The names are the admissible spellings**, read as they are written up to reserved words and
a missing environment, and the text of every name is read as that name. -/
theorem nameFormat : NameFormat where
  segment cs := by
    rw [← isSegment_iff]
    constructor
    · rintro ⟨s, rfl⟩
      exact s.wellFormed
    · intro h
      exact ⟨⟨cs, h⟩, rfl⟩
  accepted text := by
    constructor
    · rintro ⟨n, h⟩
      obtain ⟨f, htext, hd, -, -⟩ := Spelling.parse_eq_ok.mp h
      exact ⟨f, f.admissible_iff.mpr ⟨_, hd⟩, htext⟩
    · rintro ⟨f, hf, htext⟩
      obtain ⟨d, hd⟩ := f.admissible_iff.mp hf
      exact ⟨⟨d, _, _⟩, Spelling.parse_eq_ok.mpr ⟨f, htext, hd, rfl, rfl⟩⟩
  read f text hf htext := by
    obtain ⟨d, hd⟩ := f.admissible_iff.mp hf
    exact ⟨⟨d, _, _⟩, Spelling.parse_eq_ok.mpr ⟨f, htext, hd, rfl, rfl⟩, f.readAs hd rfl rfl⟩
  returned n := by
    obtain ⟨f, hdomain, hparty, henvironment, hchars⟩ := n.exists_spelling
    refine Spelling.parse_eq_ok.mpr ⟨f, ?_, Domain.ofSegments_segments hdomain, hparty.symm, ?_⟩
    · refine ⟨[], [], by simp, by simp, ?_⟩
      rw [hchars, List.nil_append, List.append_nil]
      exact String.toList_ofList
    · rw [henvironment, Option.getD_some]

/-- A name with a reserved domain in small letters and no environment. -/
example : (FullName.parse " undefined-1/$Billing ").toOption.map FullName.text =
    some "Undefined/$Billing/#Dev" := by decide

end PartyGraph
