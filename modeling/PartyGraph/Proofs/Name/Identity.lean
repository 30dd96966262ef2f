import PartyGraph.Proofs.Name.Format
import PartyGraph.Proofs.Text.Case

/-!
# Names are the same when their parts are

Names are compared by a key, the text of the whole name in lower case. The separator stands between
the parts of a name and within its domain, so one might fear that two names with different parts
come to the same key. They do not: segments hold no separator, in lower case either, so the key
falls apart into the segments of the name, and the marks tell which of them are the party and the
environment.

Reading does not care for case. A text in other letters is cut into pieces at the same places, and
each piece is a segment if and only if it was one before. A reserved word is looked for in any case,
and what is put in its place does not depend on how it was written.

## Main definitions

* `Spelling.Recased`: two spellings that differ in case.
* `NameIdentity`: when names are the same, and what the case of a text means for reading it.

## Main results

* `FullName.sameAs_iff`: names are the same if and only if their segments are, one by one.
* `Spelling.exists_recased`: the spellings of texts that differ in case differ in case.
* `nameIdentity`: all of it.
-/

namespace PartyGraph

/-! ### Segments in lower case -/

theorem isLeading_toLower (c : Char) : isLeading c.toLower = isLeading c := by
  have word (d : Char) : WordChar d ↔ (97 ≤ d.toNat ∧ d.toNat ≤ 122) ∨
      (65 ≤ d.toNat ∧ d.toNat ≤ 90) ∨ (48 ≤ d.toNat ∧ d.toNat ≤ 57) ∨ d.toNat = 95 :=
    or_congr Iff.rfl (or_congr Iff.rfl (or_congr Iff.rfl (Char.toNat_inj (d := '_')).symm))
  rw [Bool.eq_iff_iff, isLeading_iff, isLeading_iff, word, word, Text.toNat_toLower]
  split <;> omega

theorem isFollowing_toLower (c : Char) : isFollowing c.toLower = isFollowing c := by
  have mark (m : Char) (h : m.toNat < 65) : (c.toLower == m) = (c == m) := by
    rw [Bool.eq_iff_iff, beq_iff_eq, beq_iff_eq, Text.toLower_eq_iff h]
  rw [isFollowing, isFollowing, isLeading_toLower, mark '-' (by decide), mark '.' (by decide)]

theorem isSegment_map_toLower (cs : List Char) :
    isSegment (cs.map Char.toLower) = isSegment cs := by
  have following : isFollowing ∘ Char.toLower = isFollowing := funext isFollowing_toLower
  cases cs with
  | nil => rfl
  | cons c cs =>
    rw [List.map_cons, isSegment, isSegment, isLeading_toLower, List.all_map, following]

namespace Segment

variable {s : Segment}

theorem notMem_lower (s : Segment) {mark : Char} (hm : mark.toNat < 65)
    (h : isFollowing mark = false) : mark ∉ s.lower :=
  mt (Text.mem_map_toLower_iff hm s.chars).mp (s.notMem_chars h)

theorem slash_notMem_lower (s : Segment) : '/' ∉ s.lower := s.notMem_lower (by decide) (by decide)

/-- What differs from a segment in case is one. -/
theorem exists_of_lower {cs : List Char} (h : cs.map Char.toLower = s.lower) :
    ∃ t : Segment, t.chars = cs := by
  refine ⟨⟨cs, ?_⟩, rfl⟩
  rw [← isSegment_map_toLower, h, lower, isSegment_map_toLower]
  exact s.wellFormed

theorem exists_of_lowers {ps : List (List Char)} {ss : List Segment}
    (h : ps.map (List.map Char.toLower) = ss.map lower) :
    ∃ ts : List Segment, ts.map chars = ps := by
  induction ps generalizing ss with
  | nil => exact ⟨[], rfl⟩
  | cons p ps ih =>
    cases ss with
    | nil => cases h
    | cons s ss =>
      obtain ⟨hp, hps⟩ := List.cons.inj h
      obtain ⟨t, ht⟩ := exists_of_lower hp
      obtain ⟨ts, hts⟩ := ih hps
      exact ⟨t :: ts, by rw [List.map_cons, ht, hts]⟩

theorem map_lower_of_chars {ss : List Segment} {ps : List (List Char)} (h : ss.map chars = ps) :
    ss.map lower = ps.map (List.map Char.toLower) := by
  rw [← h, List.map_map]
  rfl

end Segment

/-- A reserved word is found in any case. -/
theorem Reserved.begins_congr {w : Reserved} {s t : Segment} (h : s.lower = t.lower) :
    w.begins s = w.begins t := by
  rw [begins, begins, h]

/-! ### Domains in lower case -/

namespace Domain

variable {d e : Domain} {first first' : Segment} {rest rest' : List Segment}

/-- The characters of a domain in lower case. -/
theorem map_toLower_chars (d : Domain) :
    d.chars.map Char.toLower = Text.joined '/' (d.segments.map Segment.lower) := by
  rw [chars, Text.map_joined, List.map_map]
  rfl

/-- The text of a domain in lower case falls apart into its segments. -/
theorem eqIgnoringAsciiCase_text_iff : Text.eqIgnoringAsciiCase d.text e.text = true ↔
    d.segments.map Segment.lower = e.segments.map Segment.lower := by
  have apart (x : Domain) : ∀ p ∈ x.segments.map Segment.lower, '/' ∉ p := by
    intro p hp
    obtain ⟨s, -, rfl⟩ := List.mem_map.mp hp
    exact s.slash_notMem_lower
  rw [Text.eqIgnoringAsciiCase_iff, text, text, String.toList_ofList, String.toList_ofList,
    map_toLower_chars, map_toLower_chars]
  constructor
  · exact Text.joined_injective (by simp [d.segments_ne_nil]) (by simp [e.segments_ne_nil])
      (apart d) (apart e)
  · exact congrArg _

/-- The innermost segment in lower case. -/
theorem getLast?_segments (d : Domain) :
    (d.segments.map Segment.lower).getLast? = some d.last.lower := by
  rw [List.getLast?_map, List.getLast?_eq_some_getLast d.segments_ne_nil]
  rfl

/-- No path is a reserved word in other letters. -/
theorem isExternal_iff : d.isExternal = true ↔
    d.segments.map Segment.lower = [Reserved.external.segment.lower] := by
  cases d with
  | reserved w => cases w <;> decide
  | path first rest free =>
    constructor
    · intro h
      simp [isExternal] at h
    · intro h
      have hfirst : first.lower = Reserved.external.segment.lower := (List.cons.inj h).1
      have hbegins : Reserved.external.begins first = true := by
        rw [Reserved.begins_congr hfirst]
        decide
      rw [Reserved.of?_eq_some.mpr hbegins] at free
      cases free

/-- Paths that differ in case denote domains that do, if any. -/
theorem exists_ofSegments_recased (h : ofSegments first rest = some d)
    (hlower : (first' :: rest').map Segment.lower = (first :: rest).map Segment.lower) :
    ∃ e, ofSegments first' rest' = some e ∧
      e.segments.map Segment.lower = d.segments.map Segment.lower := by
  obtain ⟨hfirst, hrest⟩ := List.cons.inj hlower
  have hbegins (w : Reserved) : w.begins first' = w.begins first := Reserved.begins_congr hfirst
  obtain ⟨e, he⟩ : ∃ e, ofSegments first' rest' = some e := by
    refine exists_ofSegments.mpr fun w hw => ?_
    obtain rfl := exists_ofSegments.mp ⟨d, h⟩ w (hbegins w ▸ hw)
    exact List.map_eq_nil_iff.mp hrest
  refine ⟨e, he, ?_⟩
  by_cases hw : ∃ w : Reserved, w.begins first = true
  · obtain ⟨w, hw⟩ := hw
    rw [eq_of_begins h hw, eq_of_begins he ((hbegins w).trans hw)]
  · have hfree (w : Reserved) : w.begins first = false := by
      rw [← Bool.not_eq_true]
      exact fun h => hw ⟨w, h⟩
    rw [segments_ofSegments h hfree,
      segments_ofSegments he fun w => (hbegins w).trans (hfree w), hlower]

end Domain

/-! ### Keys -/

namespace FullName

variable {a b : FullName}

/-- The key of a name, cut at the two marks. -/
theorem map_toLower_chars (n : FullName) : n.chars.map Char.toLower =
    Text.joined '/' (n.domain.segments.map Segment.lower) ++ '/' :: '$' :: n.party.lower ++
      '/' :: '#' :: n.environment.lower := by
  rw [chars, List.map_append, List.map_append, Domain.map_toLower_chars]
  rfl

/-- The segments of a name in lower case, with their marks. -/
def lowerPieces (n : FullName) : List (List Char) :=
  n.domain.segments.map Segment.lower ++ ['$' :: n.party.lower, '#' :: n.environment.lower]

theorem joined_lowerPieces (n : FullName) :
    Text.joined '/' n.lowerPieces = n.chars.map Char.toLower := by
  have hsegments : n.domain.segments.map Segment.lower ≠ [] := by simp [n.domain.segments_ne_nil]
  calc Text.joined '/' n.lowerPieces
      = Text.joined '/' (n.domain.segments.map Segment.lower ++ ['$' :: n.party.lower] ++
          ['#' :: n.environment.lower]) := by rw [List.append_assoc]; rfl
    _ = _ := by rw [Text.joined_concat (by simp), Text.joined_concat hsegments, map_toLower_chars]

theorem slash_notMem_lowerPieces (n : FullName) : ∀ p ∈ n.lowerPieces, '/' ∉ p := by
  intro p hp
  simp only [lowerPieces, List.mem_append, List.mem_map, List.mem_cons, List.not_mem_nil,
    or_false] at hp
  rcases hp with ⟨s, -, rfl⟩ | rfl | rfl
  · exact s.slash_notMem_lower
  · simpa using n.party.slash_notMem_lower
  · simpa using n.environment.slash_notMem_lower

/-- The key falls apart into the segments. -/
theorem sameAs_iff : a.sameAs b = true ↔
    a.domain.segments.map Segment.lower = b.domain.segments.map Segment.lower ∧
      a.party.lower = b.party.lower ∧ a.environment.lower = b.environment.lower := by
  rw [sameAs, beq_iff_eq, key, key, String.ofList_inj]
  constructor
  · intro h
    rw [← joined_lowerPieces, ← joined_lowerPieces] at h
    have hpieces : a.lowerPieces = b.lowerPieces :=
      Text.joined_injective (by simp [lowerPieces]) (by simp [lowerPieces])
        a.slash_notMem_lowerPieces b.slash_notMem_lowerPieces h
    obtain ⟨hdomain, hrest⟩ := List.append_inj' hpieces rfl
    simp only [List.cons.injEq, true_and, and_true] at hrest
    exact ⟨hdomain, hrest⟩
  · rintro ⟨hdomain, hparty, henvironment⟩
    rw [map_toLower_chars, map_toLower_chars, hdomain, hparty, henvironment]

/-- Names that are the same stand for a domain together. -/
theorem namesItsDomain_congr (h : a.sameAs b = true) : a.namesItsDomain = b.namesItsDomain := by
  obtain ⟨hdomain, hparty, -⟩ := sameAs_iff.mp h
  have hlast : a.domain.last.lower = b.domain.last.lower := by
    have := congrArg List.getLast? hdomain
    rwa [Domain.getLast?_segments, Domain.getLast?_segments, Option.some.injEq] at this
  rw [namesItsDomain, namesItsDomain, Segment.sameAs, Segment.sameAs, hparty, hlast]

/-- And they are names of others together. -/
theorem isExternal_congr (h : a.sameAs b = true) : a.isExternal = b.isExternal := by
  rw [Bool.eq_iff_iff, isExternal, isExternal, Domain.isExternal_iff, Domain.isExternal_iff,
    (sameAs_iff.mp h).1]

end FullName

/-! ### Spellings that differ in case -/

namespace Spelling

variable {f g : Spelling}

/-- Two spellings differ in case only. -/
structure Recased (f g : Spelling) : Prop where
  domain : (g.first :: g.rest).map Segment.lower = (f.first :: f.rest).map Segment.lower
  party : g.party.lower = f.party.lower
  environment : g.environment.map Segment.lower = f.environment.map Segment.lower

/-- The pieces of a spelling in lower case. -/
theorem map_toLower_pieces (f : Spelling) : f.pieces.map (List.map Char.toLower) =
    (f.first :: f.rest).map Segment.lower ++ ('$' :: f.party.lower) ::
      (f.environment.map ('#' :: ·.lower)).toList := by
  rw [pieces, List.map_append, List.map_map, List.map_cons]
  cases f.environment <;> rfl

/-- A marked piece that differs in case is marked, too. -/
theorem exists_marked {mark : Char} (hm : mark.toNat < 65) {piece : List Char} {s : Segment}
    (h : piece.map Char.toLower = mark :: s.lower) :
    ∃ t : Segment, piece = mark :: t.chars ∧ t.lower = s.lower := by
  obtain ⟨c, cs, rfl, hc, hcs⟩ := List.map_eq_cons_iff.mp h
  obtain rfl := (Text.toLower_eq_iff hm).mp hc
  obtain ⟨t, rfl⟩ := Segment.exists_of_lower hcs
  exact ⟨t, rfl, hcs⟩

/-- Pieces that differ from those of a spelling in case are those of a spelling. -/
theorem exists_pieces {ps : List (List Char)}
    (h : ps.map (List.map Char.toLower) = f.pieces.map (List.map Char.toLower)) :
    ∃ g, f.Recased g ∧ g.pieces = ps := by
  rw [map_toLower_pieces] at h
  obtain ⟨path, marked, rfl, hpath, hmarked⟩ := List.map_eq_append_iff.mp h
  obtain ⟨party, environment, rfl, hparty, henvironment⟩ := List.map_eq_cons_iff.mp hmarked
  obtain ⟨ss, rfl⟩ := Segment.exists_of_lowers hpath
  obtain ⟨first, rest, rfl⟩ : ∃ first rest, ss = first :: rest :=
    List.exists_cons_of_ne_nil fun hnil => by rw [hnil] at hpath; cases hpath
  obtain ⟨p, rfl, hp⟩ := exists_marked (by decide) hparty
  have hdomain : (first :: rest).map Segment.lower = (f.first :: f.rest).map Segment.lower :=
    (Segment.map_lower_of_chars rfl).trans hpath
  cases he : f.environment with
  | none =>
    rw [he] at henvironment
    obtain rfl := List.map_eq_nil_iff.mp henvironment
    exact ⟨⟨first, rest, p, none⟩, ⟨hdomain, hp, by rw [he]⟩, rfl⟩
  | some s =>
    rw [he] at henvironment
    obtain ⟨piece, none, rfl, hpiece, hnone⟩ := List.map_eq_cons_iff.mp henvironment
    obtain rfl := List.map_eq_nil_iff.mp hnone
    obtain ⟨e, rfl, hlower⟩ := exists_marked (by decide) hpiece
    exact ⟨⟨first, rest, p, some e⟩, ⟨hdomain, hp, by rw [he]; exact congrArg some hlower⟩, rfl⟩

/-- A text that differs from a spelling in case is a spelling that does. -/
theorem exists_recased {s t : String} (hs : f.WrittenIn s)
    (h : Text.eqIgnoringAsciiCase s t = true) : ∃ g, f.Recased g ∧ g.WrittenIn t := by
  rw [writtenIn_iff] at hs
  have hslash : ('/').toNat < 65 := by decide
  have hcut : (Text.pieces '/' (Text.trimChars t.toList)).map (List.map Char.toLower) =
      f.pieces.map (List.map Char.toLower) := by
    rw [← Text.pieces_map_toLower hslash, ← Text.trimChars_map_toLower,
      ← Text.eqIgnoringAsciiCase_iff.mp h, Text.trimChars_map_toLower, hs,
      Text.pieces_map_toLower hslash, chars, Text.pieces_joined]
    · simp [pieces]
    · rw [pieces_eq]
      exact NameParts.slash_notMem_pieces _
  obtain ⟨g, hg, hpieces⟩ := exists_pieces hcut
  refine ⟨g, hg, ?_⟩
  rw [writtenIn_iff, chars, hpieces, Text.joined_pieces]

end Spelling

/-- Texts that differ in case are read as the same name. -/
theorem FullName.exists_parse_recased {s t : String} {m : FullName}
    (h : Text.eqIgnoringAsciiCase s t = true) (hs : FullName.parse s = .ok m) :
    ∃ n, FullName.parse t = .ok n ∧ m.sameAs n = true := by
  obtain ⟨f, hf, hdomain, hparty, henvironment⟩ := Spelling.parse_eq_ok.mp hs
  obtain ⟨g, hrecased, hg⟩ := Spelling.exists_recased hf h
  obtain ⟨d, hd, hlower⟩ := Domain.exists_ofSegments_recased hdomain hrecased.domain
  refine ⟨⟨d, g.party, g.environment.getD defaultEnvironment⟩,
    Spelling.parse_eq_ok.mpr ⟨g, hg, hd, rfl, rfl⟩, FullName.sameAs_iff.mpr ⟨hlower.symm, ?_, ?_⟩⟩
  · rw [hparty, hrecased.party]
  · rw [henvironment, ← Option.getD_map Segment.lower, ← hrecased.environment, Option.getD_map]

/-! ### Identity -/

/-- When names are the same, and what the case of a text means for reading it. -/
structure NameIdentity : Prop where
  /-- Names are the same if and only if their parts are, up to case. -/
  componentwise : ∀ a b : FullName, a.sameAs b = true ↔
    Text.eqIgnoringAsciiCase a.domain.text b.domain.text = true ∧
      Text.eqIgnoringAsciiCase (partyText a.party) (partyText b.party) = true ∧
      Text.eqIgnoringAsciiCase (environmentText a.environment) (environmentText b.environment) =
        true
  /-- Whether a text is a name does not depend on its case. -/
  accepted : ∀ s t, Text.eqIgnoringAsciiCase s t = true →
    ((∃ m, FullName.parse s = .ok m) ↔ ∃ n, FullName.parse t = .ok n)
  /-- Nor does the name, and what is asked about it. -/
  read : ∀ s t m n, Text.eqIgnoringAsciiCase s t = true → FullName.parse s = .ok m →
    FullName.parse t = .ok n →
      m.sameAs n = true ∧ m.namesItsDomain = n.namesItsDomain ∧ m.isExternal = n.isExternal

/-- **Names are the same when their parts are.** The key of a name is not ambiguous, and no answer
about a name depends on the case in which it was written. -/
theorem nameIdentity : NameIdentity where
  componentwise a b := by
    have marked (mark : Char) (x y : Segment) :
        Text.eqIgnoringAsciiCase (String.ofList (mark :: x.chars)) (String.ofList (mark :: y.chars))
          = true ↔ x.lower = y.lower := by
      rw [Text.eqIgnoringAsciiCase_iff, String.toList_ofList, String.toList_ofList, List.map_cons,
        List.map_cons, List.cons.injEq, eq_self, true_and]
      rfl
    rw [FullName.sameAs_iff, Domain.eqIgnoringAsciiCase_text_iff, partyText, partyText, marked,
      environmentText, environmentText, marked]
  accepted s t h := by
    have back : Text.eqIgnoringAsciiCase t s = true :=
      Text.eqIgnoringAsciiCase_iff.mpr (Text.eqIgnoringAsciiCase_iff.mp h).symm
    constructor
    · rintro ⟨m, hm⟩
      obtain ⟨n, hn, -⟩ := FullName.exists_parse_recased h hm
      exact ⟨n, hn⟩
    · rintro ⟨n, hn⟩
      obtain ⟨m, hm, -⟩ := FullName.exists_parse_recased back hn
      exact ⟨m, hm⟩
  read s t m n h hm hn := by
    obtain ⟨n', hn', hsame⟩ := FullName.exists_parse_recased h hm
    obtain rfl : n' = n := Except.ok.inj (hn'.symm.trans hn)
    exact ⟨hsame, FullName.namesItsDomain_congr hsame, FullName.isExternal_congr hsame⟩

/-- A party of others, written in two ways. -/
example : (FullName.parse "EXTERNAL-bank/$Teller/#prod").toOption.map FullName.key =
    (FullName.parse "external-BANK/$teller/#Prod").toOption.map FullName.key := by
  decide +kernel

end PartyGraph
