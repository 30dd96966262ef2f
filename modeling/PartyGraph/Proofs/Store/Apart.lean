import PartyGraph.Proofs.Name.Identity
import PartyGraph.Store.Folder

/-!
# Folders of different parties lie apart

The path of a folder is the root of the store with one component after the other put behind it.
Each of them is plain: no file system reads it as anything but the name of a folder, so what is put
behind the root is what is found behind it again.

The components of a folder end with that of the party, the only one with a dollar sign. A folder
that leads to or into another therefore has the same environment, domain and party, however deep the
domains are: the domain of one party can be the beginning of that of another, but its own component
then stands where the other has a segment. Since segments and marks are compared as those of names
are, this holds in a file system that does not care for case, too.

## Main definitions

* `Path.Plain`: a component that is nothing but the name of a folder.
* `Path.Below`, `Path.Overlap`: how paths lie to each other.
* `StoreLayout`: how the folders of a store lie.

## Main results

* `Path.components_joined`: a plain component put behind a path is its last.
* `Folder.sameAs_of_isPrefix`: a folder that leads to or into another is of the same party.
* `storeLayout`: below an absolute root, folders of different parties lie apart.
-/

namespace PartyGraph

/-! ### Paths -/

namespace Path

variable {path : String} {c : List Char} {cs : List (List Char)}

/-- A component that is nothing but the name of a folder. -/
structure Plain (c : List Char) : Prop where
  ne_nil : c ≠ []
  ne_point : c ≠ ['.']
  ne_points : c ≠ ['.', '.']
  slash_notMem : '/' ∉ c

/-- One path leads further than another, which it begins with. -/
def Below (path root : String) : Prop := ∃ c cs, components path = components root ++ c :: cs

/-- The components of a path, in lower case. -/
def lowerComponents (path : String) : List (List Char) :=
  (components path).map (List.map Char.toLower)

/-- One of two paths leads to the other or into it, whatever their case. -/
def Overlap (p q : String) : Prop :=
  lowerComponents p <+: lowerComponents q ∨ lowerComponents q <+: lowerComponents p

theorem Plain.isAbsolute (h : Plain c) : isAbsolute (String.ofList c) = false := by
  rw [Path.isAbsolute, String.toList_ofList, decide_eq_false_iff_not]
  intro hhead
  exact h.slash_notMem (List.mem_of_mem_head? hhead)

theorem isAbsolute_append {further : String} (h : isAbsolute path = true) :
    isAbsolute (path ++ further) = true := by
  rw [isAbsolute, decide_eq_true_eq] at h ⊢
  rw [String.toList_append, List.head?_append, h]
  rfl

theorem isAbsolute_joined (h : isAbsolute path = true) (further : String) :
    isAbsolute (joined path further) = true := by
  rw [joined]
  split
  · assumption
  · split
    · exact isAbsolute_append h
    · exact isAbsolute_append (isAbsolute_append h)

/-- What counts as a component of a path. -/
private def counts (p : List Char) : Bool := !p.isEmpty && p != ['.']

private theorem filter_plain (h : Plain c) : [c].filter counts = [c] := by
  have hc : counts c = true := by simp [counts, h.ne_nil, h.ne_point]
  rw [List.filter_cons_of_pos hc, List.filter_nil]

/-- A component put behind a path is its last. -/
theorem components_joined (h : Plain c) (path : String) :
    components (joined path (String.ofList c)) = components path ++ [c] := by
  have hpieces : Text.pieces '/' c = [c] := Text.pieces_of_notMem h.slash_notMem
  change (Text.pieces '/' _).filter counts = (Text.pieces '/' _).filter counts ++ [c]
  rw [joined, if_neg (by rw [h.isAbsolute]; exact Bool.false_ne_true)]
  split
  · next hends =>
    rw [String.toList_append, String.toList_ofList]
    rcases (Bool.or_eq_true _ _).mp hends with hempty | hslash
    · rw [String.isEmpty_iff.mp hempty]
      change (Text.pieces '/' c).filter counts = [c]
      rw [hpieces, filter_plain h]
    · -- the slash is there already, and the piece behind it is empty
      obtain ⟨front, hfront⟩ := List.getLast?_eq_some_iff.mp (of_decide_eq_true hslash)
      rw [hfront, List.append_assoc, List.singleton_append, Text.pieces_append, Text.pieces_append,
        hpieces, List.filter_append, List.filter_append, filter_plain h]
      change _ = _ ++ [] ++ [c]
      rw [List.append_nil]
  · have htext : (path ++ "/" ++ String.ofList c).toList = path.toList ++ '/' :: c := by simp
    rw [htext, Text.pieces_append, hpieces, List.filter_append, filter_plain h]

/-- So are several. -/
theorem components_foldl (h : ∀ c ∈ cs, Plain c) (path : String) :
    components (cs.foldl (fun path c => joined path (String.ofList c)) path) =
      components path ++ cs := by
  induction cs generalizing path with
  | nil => exact (List.append_nil _).symm
  | cons c cs ih =>
    rw [List.foldl_cons, ih fun d hd => h d (List.mem_cons_of_mem c hd),
      components_joined (h c List.mem_cons_self), List.append_assoc]
    rfl

theorem isAbsolute_foldl (h : isAbsolute path = true) (cs : List (List Char)) :
    isAbsolute (cs.foldl (fun path c => joined path (String.ofList c)) path) = true := by
  induction cs generalizing path with
  | nil => exact h
  | cons c cs ih => exact ih (isAbsolute_joined h _)

end Path

/-! ### Components of folders -/

theorem Segment.plain (s : Segment) : Path.Plain s.chars where
  ne_nil := s.chars_ne_nil
  ne_point h := by have := s.wellFormed; rw [h] at this; revert this; decide
  ne_points h := by have := s.wellFormed; rw [h] at this; revert this; decide
  slash_notMem := s.slash_notMem

theorem Segment.plain_marked (s : Segment) {mark : Char} (hslash : mark ≠ '/')
    (hpoint : mark ≠ '.') : Path.Plain (mark :: s.chars) where
  ne_nil := List.cons_ne_nil _ _
  ne_point h := hpoint (List.cons.inj h).1
  ne_points h := hpoint (List.cons.inj h).1
  slash_notMem h := (List.mem_cons.mp h).elim (fun h => hslash h.symm) s.slash_notMem

namespace Folder

variable {a b : FullName}

theorem plain_of_mem {c : List Char} (h : c ∈ componentsOf a) : Path.Plain c := by
  simp only [componentsOf, List.cons_append, List.mem_cons, List.mem_append, List.mem_map,
    List.not_mem_nil, or_false] at h
  rcases h with rfl | ⟨s, -, rfl⟩ | rfl
  · exact a.environment.plain_marked (by decide) (by decide)
  · exact s.plain
  · exact a.party.plain_marked (by decide) (by decide)

theorem plain_ownComponent : Path.Plain ownComponent where
  ne_nil := by decide
  ne_point := by decide
  ne_points := by decide
  slash_notMem := by decide

/-- The components before that of the party, in lower case. -/
def lowerFront (name : FullName) : List (List Char) :=
  ('#' :: name.environment.lower) :: name.domain.segments.map Segment.lower

theorem map_toLower_componentsOf (name : FullName) :
    (componentsOf name).map (List.map Char.toLower) =
      lowerFront name ++ ['$' :: name.party.lower] := by
  rw [componentsOf, List.map_append, List.map_cons, List.map_map]
  rfl

/-- The component of the party is the only one with its mark. -/
theorem head?_ne_of_mem_lowerFront {name : FullName} {c : List Char} (h : c ∈ lowerFront name) :
    c.head? ≠ some '$' := by
  rcases List.mem_cons.mp h with rfl | h
  · simp
  · obtain ⟨s, -, rfl⟩ := List.mem_map.mp h
    exact fun hhead => s.notMem_lower (by decide) (by decide) (List.mem_of_mem_head? hhead)

/-- Two lists of components, one the beginning of the other, agree up to the first with a mark. -/
theorem eq_of_isPrefix {mark : Char} {xs ys rest : List (List Char)} {x y : List Char}
    (hxs : ∀ c ∈ xs, c.head? ≠ some mark) (hys : ∀ c ∈ ys, c.head? ≠ some mark)
    (h : xs ++ [mark :: x] <+: ys ++ (mark :: y) :: rest) : xs = ys ∧ x = y := by
  -- Where one list ends before the other, a component with the mark meets one without.
  induction xs generalizing ys with
  | nil =>
    cases ys with
    | nil => exact ⟨rfl, (List.cons.inj (List.cons_prefix_cons.mp h).1).2⟩
    | cons y ys =>
      exact absurd (by rw [← (List.cons_prefix_cons.mp h).1]; rfl) (hys y List.mem_cons_self)
  | cons x xs ih =>
    cases ys with
    | nil => exact absurd (by rw [(List.cons_prefix_cons.mp h).1]; rfl) (hxs x List.mem_cons_self)
    | cons y ys =>
      obtain ⟨rfl, hrest⟩ := List.cons_prefix_cons.mp h
      obtain ⟨rfl, hlast⟩ := ih (fun c hc => hxs c (List.mem_cons_of_mem _ hc))
        (fun c hc => hys c (List.mem_cons_of_mem _ hc)) hrest
      exact ⟨rfl, hlast⟩

/-- A folder that leads to or into another is of the same party. -/
theorem sameAs_of_isPrefix {further further' : List (List Char)}
    (h : (componentsOf a ++ further).map (List.map Char.toLower) <+:
      (componentsOf b ++ further').map (List.map Char.toLower)) : a.sameAs b = true := by
  rw [List.map_append, List.map_append, map_toLower_componentsOf, map_toLower_componentsOf] at h
  have hshort := (List.prefix_append _ _).trans h
  rw [List.append_assoc, List.singleton_append] at hshort
  obtain ⟨hfront, hparty⟩ := eq_of_isPrefix (fun _ => head?_ne_of_mem_lowerFront)
    (fun _ => head?_ne_of_mem_lowerFront) hshort
  obtain ⟨henvironment, hdomain⟩ := List.cons.inj hfront
  exact FullName.sameAs_iff.mpr ⟨hdomain, hparty, (List.cons.inj henvironment).2⟩

/-- The two folders of a party. -/
def bothOf (root : String) (name : FullName) : List Folder :=
  [shared root name, (shared root name).ownPart]

/-- Their components begin with those of the shared one, and all are plain. -/
theorem components_of_mem_bothOf {root : String} {f : Folder} (h : f ∈ bothOf root a) :
    f.root = root ∧ ∃ further, f.components = componentsOf a ++ further ∧
      ∀ c ∈ f.components, Path.Plain c := by
  rcases List.mem_cons.mp h with rfl | h
  · exact ⟨rfl, [], (List.append_nil _).symm, fun c hc => plain_of_mem hc⟩
  · obtain rfl := List.mem_singleton.mp h
    refine ⟨rfl, [ownComponent], rfl, fun c hc => ?_⟩
    rcases List.mem_append.mp hc with hc | hc
    · exact plain_of_mem hc
    · rw [List.mem_singleton.mp hc]
      exact plain_ownComponent

theorem components_text {f : Folder} (h : ∀ c ∈ f.components, Path.Plain c) :
    Path.components f.text = Path.components f.root ++ f.components :=
  Path.components_foldl h f.root

/-- One direction of `StoreLayout.apart`. -/
theorem not_isPrefix_of_mem_bothOf {root : String} {f g : Folder} (h : a.sameAs b = false)
    (hf : f ∈ bothOf root a) (hg : g ∈ bothOf root b) :
    ¬ Path.lowerComponents f.text <+: Path.lowerComponents g.text := by
  obtain ⟨hrootF, further, hfurther, hplainF⟩ := components_of_mem_bothOf hf
  obtain ⟨hrootG, further', hfurther', hplainG⟩ := components_of_mem_bothOf hg
  intro hprefix
  rw [Path.lowerComponents, Path.lowerComponents, components_text hplainF, components_text hplainG,
    hrootF, hrootG, List.map_append, List.map_append, List.prefix_append_right_inj, hfurther,
    hfurther'] at hprefix
  exact Bool.false_ne_true (h.symm.trans (sameAs_of_isPrefix hprefix))

end Folder

/-! ### The layout of a store -/

/-- How the folders of a store lie. -/
structure StoreLayout (root : String) : Prop where
  /-- Behind the root come the environment, the segments of the domain and the party. -/
  components : ∀ a, Path.components (Folder.shared root a).text =
    Path.components root ++ Folder.componentsOf a
  /-- Each is nothing but the name of a folder. -/
  plain : ∀ a, ∀ c ∈ Folder.componentsOf a, Path.Plain c ∧ Path.isAbsolute (String.ofList c) = false
  /-- So a folder lies below the root. -/
  below : ∀ a, ∀ f ∈ Folder.bothOf root a, Path.isAbsolute f.text = true ∧ Path.Below f.text root
  /-- No folder of one party leads to one of another, or into it. -/
  apart : ∀ a b, a.sameAs b = false → ∀ f ∈ Folder.bothOf root a, ∀ g ∈ Folder.bothOf root b,
    ¬ Path.Overlap f.text g.text

/-- **Folders of different parties lie apart.** Below an absolute root every party has folders of
its own, whether the case of their names counts or not. -/
theorem storeLayout {root : String} (hroot : Path.isAbsolute root = true) : StoreLayout root where
  components a := Folder.components_text fun _ hc => Folder.plain_of_mem hc
  plain _ _ hc := ⟨Folder.plain_of_mem hc, (Folder.plain_of_mem hc).isAbsolute⟩
  below a f hf := by
    obtain ⟨hrootF, further, hfurther, hplain⟩ := Folder.components_of_mem_bothOf hf
    refine ⟨Path.isAbsolute_foldl (hrootF ▸ hroot) _, '#' :: a.environment.chars,
      a.domain.segments.map Segment.chars ++ ['$' :: a.party.chars] ++ further, ?_⟩
    rw [Folder.components_text hplain, hrootF, hfurther]
    rfl
  apart a b h f hf g hg hoverlap := by
    have h' : b.sameAs a = false := by
      rw [FullName.sameAs, BEq.comm]
      exact h
    rcases hoverlap with hfg | hgf
    · exact Folder.not_isPrefix_of_mem_bothOf h hf hg hfg
    · exact Folder.not_isPrefix_of_mem_bothOf h' hg hf hgf

theorem storeLayout_data : Path.isAbsolute "/data" = true ∧ StoreLayout "/data" :=
  ⟨by decide, storeLayout (by decide)⟩

/-- The domain of one party begins that of the other, and their folders lie apart. -/
example : ((FullName.parse "Acme/$Sales").toOption.map fun n => (Folder.shared "/data" n).text) =
      some "/data/#Dev/Acme/$Sales" ∧
    ((FullName.parse "Acme/Sales/$Sales").toOption.map fun n =>
      (Folder.shared "/data" n).ownPart.text) = some "/data/#Dev/Acme/Sales/$Sales/-Local" := by
  decide +kernel

end PartyGraph
