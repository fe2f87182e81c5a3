/-
What the steps of a path do to its components.

A path is read from its text in two parts, what it starts from and the text behind that, and
a step writes a new text. Both come out of one list, the pieces between separators: the
first of them says what the path starts from (`lead`), and those that are components are
the others (`components`). So what a step does to the components is seen from what it does
to the pieces. Joining puts the pieces of a name behind those of the path
(`key_join`), and the path above is without its last component, whatever stood behind it
(`parent?_cases`). The paths above a path are then all that its components open with
(`mem_ancestors_iff`).

Most names are plainer than that: they have no separator in them and are not made of
dots (`IsName`), and a path that is made of such names is read off them (`IsPlain`).
-/
import Mathlib.Data.List.DropRight
import Vitals.Path
import Vitals.Proofs.Text.Words

namespace Vitals.Path

-- ============================================================== pieces

/-- The pieces of a path between its separators. -/
def pieces (p : Path) : List (List Char) := p.text.toList.splitOn '/'

/-- What a path starts from, by its pieces. -/
def lead : List (List Char) → Key
  | [] :: _ :: _ => [root]
  | ['.'] :: _ => [here]
  | _ => []

/-- The components among some pieces. -/
def components (pieces : List (List Char)) : Key := (pieces.filter isComponent).map String.ofList

theorem pieces_ne_nil (p : Path) : p.pieces ≠ [] := List.splitOn_ne_nil _ _

theorem components_append (ps qs : List (List Char)) :
    components (ps ++ qs) = components ps ++ components qs := by
  simp [components]

/-- A character that separates nothing joins the first piece. -/
theorem splitOn_cons_of_ne {c : Char} (h : c ≠ '/') (s : List Char) :
    ∃ first others, s.splitOn '/' = first :: others
      ∧ (c :: s).splitOn '/' = (c :: first) :: others := by
  obtain ⟨first, others, hsplit⟩ := List.exists_cons_of_ne_nil (List.splitOn_ne_nil '/' s)
  refine ⟨first, others, hsplit, ?_⟩
  rw [List.splitOn_cons_eq_if_modifyHead, if_neg (by simpa using h), hsplit]
  rfl

theorem splitOn_separator (s : List Char) :
    ('/' :: s).splitOn '/' = [] :: s.splitOn '/' := by
  rw [List.splitOn_cons_eq_if_modifyHead, if_pos (by decide)]

/-- A text that opens with a piece of no characters is empty or opens with a separator. -/
theorem of_splitOn_eq_nil_cons {s : List Char} {others : List (List Char)}
    (h : s.splitOn '/' = [] :: others) : s = [] ∨ ∃ rest, s = '/' :: rest := by
  cases s with
  | nil => exact .inl rfl
  | cons c s =>
      by_cases hc : c = '/'
      · exact .inr ⟨s, by rw [hc]⟩
      · obtain ⟨first, others', -, hsplit⟩ := splitOn_cons_of_ne hc s
        rw [hsplit] at h
        cases h

/-- A leading dot and separator split the piece of the dot off. -/
theorem splitOn_dotted (rest : List Char) :
    ('.' :: '/' :: rest).splitOn '/' = ['.'] :: rest.splitOn '/' := by
  obtain ⟨first, others, hsplit, hcons⟩ := @splitOn_cons_of_ne '.' (by decide) ('/' :: rest)
  rw [splitOn_separator] at hsplit
  cases hsplit
  exact hcons

/-- The ways in which a text can start. -/
theorem start_cases (s : List Char) :
    (∃ rest, s = '/' :: rest ∧ start s = ([root], rest))
    ∨ (s = ['.'] ∧ start s = ([here], []))
    ∨ (∃ rest, s = '.' :: '/' :: rest ∧ start s = ([here], '/' :: rest))
    ∨ (start s = ([], s) ∧ lead (s.splitOn '/') = []) := by
  unfold start
  split
  · case h_1 rest => exact .inl ⟨rest, rfl, rfl⟩
  · case h_2 => exact .inr (.inl ⟨rfl, rfl⟩)
  · case h_3 rest => exact .inr (.inr (.inl ⟨rest, rfl, rfl⟩))
  · case h_4 hrooted hdot hdotted =>
      refine .inr (.inr (.inr ⟨rfl, ?_⟩))
      cases s with
      | nil => rfl
      | cons c s =>
          have hc : c ≠ '/' := fun hc => hrooted s (by rw [hc])
          obtain ⟨first, others, hsplit, hcons⟩ := splitOn_cons_of_ne hc s
          rw [hcons]
          -- a first piece that is a dot would have been a start
          by_cases hfirst : c = '.' ∧ first = []
          · obtain ⟨rfl, rfl⟩ := hfirst
            rcases of_splitOn_eq_nil_cons hsplit with rfl | ⟨rest, rfl⟩
            · exact absurd rfl hdot
            · exact absurd rfl (hdotted rest)
          · unfold lead
            split
            · case h_1 heq => cases heq
            · case h_2 heq =>
                cases heq
                exact absurd ⟨rfl, rfl⟩ hfirst
            · rfl

/-- A key is led by nothing, by the root or by the dot. -/
theorem lead_cases (ps : List (List Char)) :
    lead ps = [] ∨ lead ps = [root] ∨ lead ps = [here] := by
  unfold lead
  split
  · exact .inr (.inl rfl)
  · exact .inr (.inr rfl)
  · exact .inl rfl

theorem lead_nil_cons {ps : List (List Char)} (h : ps ≠ []) : lead ([] :: ps) = [root] := by
  cases ps with
  | nil => exact absurd rfl h
  | cons piece ps => rfl

/-- What a path starts from, and the components behind it, are seen from its pieces. -/
theorem start_eq (s : List Char) :
    (start s).1 = lead (s.splitOn '/')
      ∧ components ((start s).2.splitOn '/') = components (s.splitOn '/') := by
  rcases start_cases s with ⟨rest, rfl, h⟩ | ⟨rfl, h⟩ | ⟨rest, rfl, h⟩ | ⟨h, hlead⟩
  · rw [h, splitOn_separator, lead_nil_cons (List.splitOn_ne_nil _ _)]
    exact ⟨rfl, rfl⟩
  · rw [h]
    exact ⟨rfl, rfl⟩
  · rw [h, splitOn_dotted, splitOn_separator]
    exact ⟨rfl, rfl⟩
  · rw [h, hlead]
    exact ⟨rfl, rfl⟩

/-- A key is the lead of its path followed by the components. -/
theorem key_eq (p : Path) : p.key = lead p.pieces ++ components p.pieces := by
  obtain ⟨hlead, hcomponents⟩ := start_eq p.text.toList
  rw [pieces, ← hlead, ← hcomponents]
  rfl

/-- The key of pieces joined by separators is read off the pieces. -/
theorem key_of_intercalate {text : String} {ps : List (List Char)}
    (htext : text.toList = ['/'].intercalate ps) (hps : ps ≠ [])
    (hsep : ∀ piece ∈ ps, '/' ∉ piece) : Path.key ⟨text⟩ = lead ps ++ components ps := by
  rw [key_eq, pieces, htext, List.splitOn_intercalate '/' hsep hps]

/-- Only the empty path has the empty key. -/
theorem key_eq_nil_iff {p : Path} : p.key = [] ↔ p.text = "" := by
  constructor
  · intro hkey
    rw [key_eq, List.append_eq_nil_iff] at hkey
    obtain ⟨hlead, hcomponents⟩ := hkey
    rw [← String.toList_eq_nil_iff]
    cases hs : p.text.toList with
    | nil => rfl
    | cons c s =>
        exfalso
        rw [pieces, hs] at hlead hcomponents
        by_cases hc : c = '/'
        · rw [hc, splitOn_separator, lead_nil_cons (List.splitOn_ne_nil _ _)] at hlead
          cases hlead
        · obtain ⟨first, others, -, hsplit⟩ := splitOn_cons_of_ne hc s
          rw [hsplit] at hlead hcomponents
          -- a dot leads the key, and any other piece is a component
          by_cases hdot : c :: first = ['.']
          · rw [hdot] at hlead
            cases hlead
          · have hcomponent : isComponent (c :: first) = true := by
              rw [isComponent, decide_eq_true hdot]
              rfl
            rw [components, List.filter_cons_of_pos hcomponent] at hcomponents
            cases hcomponents
  · intro htext
    rw [key_eq, pieces, htext]
    rfl

-- =============================================================== joining

/-- Pieces behind others do not change what a path starts from, unless the others are
those of no text. -/
theorem lead_append {ps : List (List Char)} (hps : ps ≠ []) (hempty : ps ≠ [[]])
    (qs : List (List Char)) : lead (ps ++ qs) = lead ps := by
  -- what leads a key is in the first piece, or is told by an empty one with another behind it
  match ps with
  | [] => exact absurd rfl hps
  | [[]] => exact absurd rfl hempty
  | [] :: _ :: _ => rfl
  | (c :: piece) :: ps =>
      by_cases hdot : c :: piece = ['.']
      · rw [hdot]
        rfl
      · unfold lead
        split
        · case h_1 heq => cases heq
        · case h_2 heq =>
            cases heq
            exact absurd rfl hdot
        · split
          · case h_1 heq => cases heq
          · case h_2 heq =>
              cases heq
              exact absurd rfl hdot
          · rfl

/-- The pieces of two texts joined by a separator follow each other. -/
theorem pieces_mk_append_separator (s t : String) :
    pieces ⟨s ++ "/" ++ t⟩ = pieces ⟨s⟩ ++ pieces ⟨t⟩ := by
  rw [pieces, String.toList_append, String.toList_append, List.append_assoc]
  exact List.splitOn_append_cons_self _ _

theorem key_eq_components {q : Path} (hq : lead q.pieces = []) : q.key = components q.pieces := by
  rw [key_eq, hq, List.nil_append]

/-- A relative path behind a separator puts its key behind the key before it. -/
theorem key_append_separator {p q : Path} (hq : lead q.pieces = []) (hempty : p.text.toList ≠ []) :
    Path.key ⟨p.text ++ "/" ++ q.text⟩ = p.key ++ q.key := by
  have hpieces : p.pieces ≠ [[]] := by
    intro hp
    rcases of_splitOn_eq_nil_cons hp with hnil | ⟨rest, hrest⟩
    · exact hempty hnil
    · rw [pieces, hrest, splitOn_separator] at hp
      exact List.splitOn_ne_nil _ _ (List.cons.inj hp).2
  rw [key_eq, pieces_mk_append_separator, key_eq p, key_eq_components hq, components_append,
    lead_append p.pieces_ne_nil hpieces, List.append_assoc]

/-- A separator at the end of a path is one between the path and what is behind it. -/
theorem key_append_of_ends {p q : Path} (hq : lead q.pieces = [])
    (hends : p.text.toList.getLast? = some '/') :
    Path.key ⟨p.text ++ q.text⟩ = p.key ++ q.key := by
  obtain ⟨s, hs⟩ := List.getLast?_eq_some_iff.mp hends
  have hpieces : p.pieces = s.splitOn '/' ++ [[]] := by
    rw [pieces, hs]
    exact List.splitOn_append_cons_self s []
  have hjoined : pieces ⟨p.text ++ q.text⟩ = s.splitOn '/' ++ q.pieces := by
    rw [pieces, String.toList_append, hs, List.append_assoc]
    exact List.splitOn_append_cons_self s _
  have hlead : lead (s.splitOn '/' ++ q.pieces) = lead (s.splitOn '/' ++ [[]]) := by
    by_cases hempty : s.splitOn '/' = [[]]
    · rw [hempty]
      exact (lead_nil_cons q.pieces_ne_nil).trans (lead_nil_cons (List.cons_ne_nil [] [])).symm
    · rw [lead_append (List.splitOn_ne_nil _ _) hempty,
        lead_append (List.splitOn_ne_nil _ _) hempty]
  have hnone : components (s.splitOn '/' ++ [[]]) = components (s.splitOn '/') := by
    rw [components_append]
    exact List.append_nil _
  rw [key_eq, key_eq p, hjoined, hpieces, key_eq_components hq, hlead, hnone, components_append,
    List.append_assoc]

/-- Joining puts the components of a name that is not rooted and opens with no dot behind
those of the path. -/
theorem key_join (p : Path) {q : Path} (hq : lead q.pieces = []) :
    (p.join q).key = p.key ++ q.key := by
  have hrooted : q.text.toList.head? ≠ some '/' := by
    intro hhead
    obtain ⟨rest, hrest⟩ := List.head?_eq_some_iff.mp hhead
    rw [pieces, hrest, splitOn_separator, lead_nil_cons (List.splitOn_ne_nil _ _)] at hq
    cases hq
  unfold join
  rw [if_neg hrooted]
  split_ifs with hempty hends
  · rw [key_eq_nil_iff.mpr (String.toList_eq_nil_iff.mp hempty), List.nil_append]
  · exact key_append_of_ends hq hends
  · exact key_append_separator hq hempty

-- ======================================================= the path above

theorem dropTrailing_eq (ps : List (List Char)) :
    dropTrailing ps = ps.rdropWhile fun piece => !isComponent piece := rfl

theorem dropTrailing_isPrefix (ps : List (List Char)) : dropTrailing ps <+: ps :=
  List.rdropWhile_prefix _ ps

theorem dropTrailing_ne_singleton (ps : List (List Char)) : dropTrailing ps ≠ [[]] := by
  intro h
  have hlast := List.rdropWhile_last_not (fun piece => !isComponent piece) ps
  simp only [← dropTrailing_eq, h] at hlast
  exact hlast (List.cons_ne_nil _ _) rfl

/-- The pieces that are dropped hold no component. -/
theorem components_dropTrailing (ps : List (List Char)) :
    components (dropTrailing ps) = components ps := by
  have hdropped : components (ps.rtakeWhile fun piece => !isComponent piece) = [] := by
    rw [components, List.filter_eq_nil_iff.mpr, List.map_nil]
    intro piece hpiece
    simpa using List.mem_rtakeWhile_imp hpiece
  have hsplit : dropTrailing ps ++ ps.rtakeWhile (fun piece => !isComponent piece) = ps :=
    List.rdropWhile_append_rtakeWhile
  rw [← List.append_nil (components (dropTrailing ps)), ← hdropped, ← components_append, hsplit]

/-- Without what is no component at its end, a list of pieces has none at all, or ends in
the last one of them. -/
theorem dropTrailing_cases (ps : List (List Char)) :
    (dropTrailing ps = [] ∧ components ps = [])
    ∨ ∃ above last, dropTrailing ps = above ++ [last]
      ∧ components ps = components above ++ [String.ofList last] := by
  cases h : dropTrailing ps using List.reverseRecOn with
  | nil =>
      refine .inl ⟨rfl, ?_⟩
      rw [← components_dropTrailing, h]
      rfl
  | append_singleton above last =>
      have hlast : isComponent last = true := by
        have hnot := List.rdropWhile_last_not (fun piece => !isComponent piece) ps
        simp only [← dropTrailing_eq, h] at hnot
        simpa using hnot (by simp)
      refine .inr ⟨above, last, rfl, ?_⟩
      rw [← components_dropTrailing, h, components_append]
      simp [components, hlast]

/-- The key of pieces behind the root is the root and their components. -/
theorem key_behind_root {kept : List (List Char)} (hsep : ∀ piece ∈ kept, '/' ∉ piece) :
    Path.key ⟨root ++ .ofList (['/'].intercalate kept)⟩ = root :: components kept := by
  cases kept with
  | nil => decide
  | cons piece kept =>
      have htext : (root ++ .ofList (['/'].intercalate (piece :: kept))).toList
          = ['/'].intercalate ([] :: piece :: kept) := by
        simp [root, List.intercalate_cons_cons]
      rw [key_of_intercalate htext (List.cons_ne_nil _ _) (by simpa using hsep)]
      rfl

/-- The key of pieces behind a dot is the dot and their components. -/
theorem key_behind_here {piece : List Char} {kept : List (List Char)}
    (hsep : ∀ other ∈ piece :: kept, '/' ∉ other) :
    Path.key ⟨here ++ .ofList (['/'].intercalate ([] :: piece :: kept))⟩
      = here :: components (piece :: kept) := by
  have htext : (here ++ .ofList (['/'].intercalate ([] :: piece :: kept))).toList
      = ['/'].intercalate (['.'] :: piece :: kept) := by
    simp [here, List.intercalate_cons_cons]
  have hsep' : ∀ other ∈ ['.'] :: piece :: kept, '/' ∉ other := by
    intro other hother
    rcases List.mem_cons.mp hother with rfl | hother
    · decide
    · exact hsep other hother
  rw [key_of_intercalate htext (List.cons_ne_nil _ _) hsep']
  rfl

/-- The text of pieces behind what a path starts from is a path of their components. -/
theorem key_of_kept {s : List Char} {kept : List (List Char)}
    (hkept : kept <+: (start s).2.splitOn '/') (hempty : kept ≠ [[]]) :
    Path.key ⟨String.join (start s).1 ++ .ofList (['/'].intercalate kept)⟩
      = (start s).1 ++ components kept := by
  have hsep : ∀ piece ∈ kept, '/' ∉ piece := fun piece hpiece =>
    Text.notMem_of_mem_splitOn (hkept.subset hpiece)
  rcases start_cases s with ⟨rest, -, h⟩ | ⟨-, h⟩ | ⟨rest, -, h⟩ | ⟨h, hlead⟩
  · rw [h]
    simpa [String.join] using key_behind_root hsep
  · rw [h] at hkept ⊢
    cases kept with
    | nil => decide
    | cons piece kept =>
        -- there is nothing behind a dot
        obtain ⟨rfl, hnil⟩ := List.cons_prefix_cons.mp hkept
        rw [List.prefix_nil.mp hnil] at hempty
        exact absurd rfl hempty
  · rw [h] at hkept ⊢
    rw [splitOn_separator] at hkept
    match kept with
    | [] =>
        show Path.key ⟨String.join [here] ++ ""⟩ = [here]
        decide
    | [piece] =>
        rw [(List.cons_prefix_cons.mp hkept).1] at hempty
        exact absurd rfl hempty
    | piece :: piece' :: kept =>
        -- the separator behind the dot has left a piece of no characters
        obtain rfl := (List.cons_prefix_cons.mp hkept).1
        have hbehind := key_behind_here fun other hother =>
          hsep other (List.mem_cons_of_mem _ hother)
        have hnone : components ([] :: piece' :: kept) = components (piece' :: kept) := rfl
        rw [hnone]
        simpa [String.join] using hbehind
  · rw [h] at hkept ⊢
    by_cases hnil : kept = []
    · rw [hnil]
      rfl
    · obtain ⟨others, hothers⟩ := hkept
      have htext : (String.join [] ++ .ofList (['/'].intercalate kept)).toList
          = ['/'].intercalate kept := by simp
      rw [key_of_intercalate htext hnil hsep, ← lead_append hnil hempty others, hothers, hlead]

/-- The path above a path, if there is one, is without its last component. -/
theorem parent?_cases (p : Path) :
    (p.parent? = none ∧ (p.key = [] ∨ p.key = [root]))
    ∨ ∃ q, p.parent? = some q ∧ p.key ≠ [] ∧ p.key ≠ [root] ∧ q.key = p.key.dropLast := by
  have hkey : p.key = (start p.text.toList).1
      ++ components ((start p.text.toList).2.splitOn '/') := rfl
  unfold parent?
  dsimp only
  rcases dropTrailing_cases ((start p.text.toList).2.splitOn '/')
    with ⟨hdrop, hcomponents⟩ | ⟨above, last, hdrop, hcomponents⟩
  · rw [hdrop]
    -- nothing is named behind the start, so the start itself decides
    rw [hcomponents, List.append_nil] at hkey
    rw [hkey]
    have hlead := lead_cases (p.text.toList.splitOn '/')
    rw [← (start_eq p.text.toList).1] at hlead
    rcases hlead with h | h | h
    · exact .inl ⟨by rw [h]; rfl, .inl h⟩
    · exact .inl ⟨by rw [h]; rfl, .inr h⟩
    · rw [h]
      exact .inr ⟨⟨""⟩, rfl, List.cons_ne_nil _ _, by decide, rfl⟩
  · -- the last component goes, and what separated it from the others
    rw [hcomponents, ← List.append_assoc] at hkey
    have hprefix : dropTrailing above <+: (start p.text.toList).2.splitOn '/' :=
      (dropTrailing_isPrefix above).trans
        ((List.prefix_append above [last]).trans (hdrop ▸ dropTrailing_isPrefix _))
    refine .inr ⟨⟨String.join (start p.text.toList).1
      ++ .ofList (['/'].intercalate (dropTrailing above))⟩, ?_, ?_, ?_, ?_⟩
    · rw [hdrop]
      split
      · case h_1 heq => cases above <;> cases heq
      · rw [List.dropLast_concat]
    · rw [hkey]
      exact List.append_ne_nil_of_right_ne_nil _ (List.cons_ne_nil _ _)
    · -- a piece between separators has none in it
      intro hroot
      have hlast : last ∈ (start p.text.toList).2.splitOn '/' :=
        (dropTrailing_isPrefix _).subset (by simp [hdrop])
      have htext : String.ofList last = root := by
        rw [hkey] at hroot
        simpa using congrArg List.getLast? hroot
      have hpiece : last = ['/'] := by simpa [root] using congrArg String.toList htext
      refine Text.notMem_of_mem_splitOn hlast ?_
      rw [hpiece]
      exact List.mem_cons_self ..
    · rw [key_of_kept hprefix (dropTrailing_ne_singleton above), components_dropTrailing, hkey,
        List.dropLast_concat]

-- ======================================================= the paths above

/-- A proper prefix of a list is a prefix of the list without its last element. -/
theorem prefix_and_ne_concat_iff {α : Type} {k l : List α} {x : α} :
    k <+: l ++ [x] ∧ k ≠ l ++ [x] ↔ k <+: l := by
  rw [List.prefix_concat_iff]
  constructor
  · rintro ⟨heq | hpre, hne⟩
    · exact absurd heq hne
    · exact hpre
  · intro hpre
    refine ⟨.inr hpre, fun heq => ?_⟩
    have hlength := hpre.length_le
    rw [heq, List.length_append, List.length_singleton] at hlength
    omega

/-- The keys of the parents of a path are the proper prefixes of its key. -/
theorem mem_map_key_parents {fuel : Nat} {p : Path} (hfuel : p.key.length < fuel) {k : Key}
    (hk : k ≠ []) : k ∈ (parents fuel p).map key ↔ k <+: p.key ∧ k ≠ p.key := by
  induction fuel generalizing p with
  | zero => exact absurd hfuel (Nat.not_lt_zero _)
  | succ fuel ih =>
      rw [parents]
      rcases parent?_cases p with ⟨hnone, hkey⟩ | ⟨q, hsome, hne, -, hq⟩
      · -- nothing but the empty key is above the root, and nothing above the empty key
        rw [hnone]
        refine iff_of_false List.not_mem_nil ?_
        rintro ⟨hpre, hne⟩
        rcases hkey with hkey | hkey
        · rw [hkey] at hpre
          exact hk (List.prefix_nil.mp hpre)
        · rw [hkey] at hpre hne
          exact hk (List.prefix_nil.mp (prefix_and_ne_concat_iff (l := []).mp ⟨hpre, hne⟩))
      · -- the parent itself, and then what is above the parent
        obtain ⟨front, last, hfront⟩ := (List.eq_nil_or_concat' p.key).resolve_left hne
        rw [hfront, List.dropLast_concat] at hq
        rw [hfront, List.length_append, List.length_singleton] at hfuel
        rw [hsome, hfront, prefix_and_ne_concat_iff]
        show k ∈ q.key :: (parents fuel q).map key ↔ _
        rw [List.mem_cons, ih (by rw [hq]; omega), hq]
        constructor
        · rintro (rfl | ⟨hpre, -⟩)
          · exact List.prefix_refl _
          · exact hpre
        · intro hpre
          by_cases heq : k = front
          · exact .inl heq
          · exact .inr ⟨hpre, heq⟩

/-- The paths above a path are all that its components open with. -/
theorem mem_ancestors_iff (p : Path) {k : Key} :
    k ∈ (p.ancestors.filter (·.text ≠ "")).map key ↔ k ≠ [] ∧ k <+: p.key ∧ k ≠ p.key := by
  have hmem : k ∈ (p.ancestors.filter (·.text ≠ "")).map key
      ↔ k ≠ [] ∧ k ∈ (parents (p.key.length + 1) p).map key := by
    simp only [List.mem_map, List.mem_filter, ancestors, decide_eq_true_eq]
    constructor
    · rintro ⟨q, ⟨hq, htext⟩, rfl⟩
      exact ⟨fun hkey => htext (key_eq_nil_iff.mp hkey), q, hq, rfl⟩
    · rintro ⟨hk, q, hq, rfl⟩
      exact ⟨q, ⟨hq, fun htext => hk (key_eq_nil_iff.mpr htext)⟩, rfl⟩
  rw [hmem]
  refine and_congr_right fun hk => ?_
  exact mem_map_key_parents (Nat.lt_succ_self _) hk

-- ================================================================ names

/-- Whether a component is a name, and neither the root nor made of dots alone. -/
def IsName (name : String) : Prop :=
  name ≠ "" ∧ '/' ∉ name.toList ∧ name ≠ here ∧ name ≠ above

instance (name : String) : Decidable (IsName name) := by
  unfold IsName
  infer_instance

/-- A path that is made of names, the last of which can be that of a file. -/
structure IsPlain (p : Path) : Prop where
  ne_nil : p.key ≠ []
  names : ∀ name ∈ p.key, IsName name
  ends : p.namesDirectory = false

instance (p : Path) : Decidable p.IsPlain :=
  decidable_of_iff (p.key ≠ [] ∧ (∀ name ∈ p.key, IsName name) ∧ p.namesDirectory = false)
    ⟨fun ⟨hne, hnames, hends⟩ => ⟨hne, hnames, hends⟩, fun h => ⟨h.ne_nil, h.names, h.ends⟩⟩

theorem IsName.ne_root {name : String} (h : IsName name) : name ≠ root := by
  rintro rfl
  exact h.2.1 (by decide)

theorem pieces_of_isName {name : String} (h : IsName name) : pieces ⟨name⟩ = [name.toList] :=
  List.splitOn_eq_singleton h.2.1

theorem lead_of_isName {name : String} (h : IsName name) : lead (pieces ⟨name⟩) = [] := by
  rw [pieces_of_isName h]
  unfold lead
  split
  · case h_1 heq => exact absurd (List.cons.inj heq).2 nofun
  · case h_2 heq =>
      refine absurd ?_ h.2.2.1
      rw [← String.toList_inj, (List.cons.inj heq).1]
      rfl
  · rfl

theorem isComponent_toList {name : String} (h : name ≠ "") (hhere : name ≠ here) :
    isComponent name.toList = true := by
  have hdot : name.toList ≠ ['.'] := fun hdot => hhere (String.toList_inj.mp hdot)
  have hnil : name.toList ≠ [] := fun hnil => h (String.toList_eq_nil_iff.mp hnil)
  rw [isComponent, decide_eq_true hnil, decide_eq_true hdot]
  rfl

/-- The key of a name is the name alone. -/
theorem key_of_isName {name : String} (h : IsName name) : Path.key ⟨name⟩ = [name] := by
  rw [key_eq, lead_of_isName h, pieces_of_isName h, components,
    List.filter_cons_of_pos (isComponent_toList h.1 h.2.2.1)]
  simp

/-- Joining a name puts it behind the key. -/
theorem key_join_name (p : Path) {name : String} (h : IsName name) :
    (p.join ⟨name⟩).key = p.key ++ [name] := by
  rw [key_join p (lead_of_isName h), key_of_isName h]

namespace IsPlain

variable {p : Path}

theorem lead_eq_nil (h : p.IsPlain) : lead p.pieces = [] := by
  have hnames := h.names
  rw [key_eq] at hnames
  rcases lead_cases p.pieces with hlead | hlead | hlead
  · exact hlead
  · rw [hlead] at hnames
    exact absurd rfl (hnames root (List.mem_cons_self ..)).ne_root
  · rw [hlead] at hnames
    exact absurd rfl (hnames here (List.mem_cons_self ..)).2.2.1

theorem endsInDots_eq_false (h : p.IsPlain) : p.endsInDots = false := by
  obtain ⟨front, last, hpieces⟩ := (List.eq_nil_or_concat' p.pieces).resolve_left p.pieces_ne_nil
  have hcomponent : isComponent last = true := by
    have hends := h.ends
    unfold namesDirectory at hends
    rw [← pieces, hpieces] at hends
    simpa using hends
  -- the last piece is a component, so it is one of the names
  have hlast : String.ofList last ∈ p.key := by
    rw [key_eq, hpieces, components_append]
    simp [components, hcomponent]
  have habove := (h.names _ hlast).2.2.2
  have hne : last ≠ [] := by
    rintro rfl
    cases hcomponent
  have hfilter : (p.text.toList.splitOn '/').filter (· ≠ [])
      = front.filter (· ≠ []) ++ [last] := by
    rw [← pieces, hpieces, List.filter_append]
    simp [hne]
  unfold endsInDots
  rw [hfilter, List.getLast?_concat]
  show (last == ['.'] || last == ['.', '.']) = false
  rw [Bool.or_eq_false_iff, beq_eq_false_iff_ne, beq_eq_false_iff_ne]
  constructor
  · rintro rfl
    cases hcomponent
  · rintro rfl
    exact habove rfl

end IsPlain

end Vitals.Path
