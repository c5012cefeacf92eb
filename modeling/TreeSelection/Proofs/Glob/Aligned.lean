import TreeSelection.Glob.Basic
import TreeSelection.Proofs.Glob.Segments

namespace TreeSelection.Glob

def MatchesBySegments (ss : List (List Char)) : Prop :=
  ∀ ws, ArePieces ws → (Matches (Token.ofChars (['/'].intercalate ss)) (['/'].intercalate ws) ↔
    ¬ EndsTwiceInStars ss ∧ SegmentsMatch ss ws)

theorem matchesBySegments_singleton {s : List Char} (hs : '/' ∉ s) (halign : IsAligned [s]) :
    MatchesBySegments [s] := by
  intro ws hws
  simp only [Token.ofChars, List.intercalate_singleton, not_endsTwiceInStars_singleton,
    not_false_eq_true, true_and]
  by_cases hstars : IsStars s
  · rw [Lexeme.ofChars_stars hstars.1 hstars.2, segmentsMatch_stars_iff hstars]
    refine iff_of_true ⟨_, [], (List.append_nil _).symm, trivial, rfl⟩ ⟨ws, [], ?_, .nil⟩
    exact (List.append_nil ws).symm
  · rw [Lexeme.ofChars_eq_map ((halign s (by simp)).resolve_left hstars),
      Token.ofLexemes_map_ofChar true hs, ← List.append_nil (s.map _),
      matches_map_ofChar_append hs, segmentsMatch_one_iff hstars]
    refine (seq_segment_iff hws).trans ?_
    constructor
    · rintro ⟨w, rfl, hmatch⟩
      exact ⟨w, [], rfl, hmatch, .nil⟩
    · rintro ⟨w, vs, rfl, hmatch, h⟩
      cases h
      exact ⟨w, rfl, hmatch⟩

theorem MatchesBySegments.cons_stars {s t : List Char} {ss : List (List Char)} (hstars : IsStars s)
    (halign : IsAligned (t :: ss)) (h : MatchesBySegments (t :: ss)) :
    MatchesBySegments (s :: t :: ss) := by
  intro ws hws
  have hstop := ofChars_joined_eq_stars_iff halign
  rw [Token.ofChars, ofChars_joined, Lexeme.ofChars_stars hstars.1 hstars.2, List.singleton_append,
    endsTwiceInStars_cons]
  by_cases hlast : ss = [] ∧ IsStars t
  · rw [hstop.2 hlast]
    refine iff_of_false (not_matches_someDirs_subtree hws) fun h' => h'.1 (.inl ?_)
    exact ⟨hlast.1, hstars, hlast.2⟩
  · rw [Token.ofLexemes_anyDirs (mt hstop.1 hlast), segmentsMatch_stars_iff hstars]
    refine (seq_anyDirs_iff hws).trans ?_
    constructor
    · rintro ⟨us, vs, rfl, hvs, hmatch⟩
      obtain ⟨hend, hmatch⟩ := (h vs (hws.right hvs)).1 hmatch
      exact ⟨by tauto, us, vs, rfl, hmatch⟩
    · rintro ⟨hend, us, vs, rfl, hmatch⟩
      have hend : ¬ EndsTwiceInStars (t :: ss) := fun he => hend (.inr he)
      have hvs := ne_nil_of_segmentsMatch hlast hend hmatch
      exact ⟨us, vs, rfl, hvs, (h vs (hws.right hvs)).2 ⟨hend, hmatch⟩⟩

theorem MatchesBySegments.cons_one {s t : List Char} {ss : List (List Char)} (hstars : ¬ IsStars s)
    (hs : '/' ∉ s) (halign : IsAligned (s :: t :: ss)) (h : MatchesBySegments (t :: ss)) :
    MatchesBySegments (s :: t :: ss) := by
  intro ws hws
  have hstop := ofChars_joined_eq_stars_iff fun u hu => halign u (List.mem_cons_of_mem s hu)
  rw [Token.ofChars, ofChars_joined,
    Lexeme.ofChars_eq_map ((halign s (by simp)).resolve_left hstars),
    Token.ofLexemes_map_append_slash true hs, matches_map_ofChar_append hs, endsTwiceInStars_cons,
    segmentsMatch_one_iff hstars]
  by_cases hlast : ss = [] ∧ IsStars t
  · rw [hstop.2 hlast]
    refine (seq_segment_subtree_iff hws).trans ?_
    obtain ⟨rfl, ht⟩ := hlast
    constructor
    · rintro ⟨w, vs, rfl, hmatch⟩
      have hvs : SegmentsMatch [t] vs := by simpa using SegmentsMatch.stars ht vs .nil
      exact ⟨by simp [hstars, not_endsTwiceInStars_singleton], w, vs, rfl, hmatch, hvs⟩
    · rintro ⟨-, w, vs, rfl, hmatch, -⟩
      exact ⟨w, vs, rfl, hmatch⟩
  · rw [Token.ofLexemes_slash true (mt hstop.1 hlast)]
    refine (seq_segment_slash_iff hws).trans ?_
    constructor
    · rintro ⟨w, vs, rfl, hvs, hw, hmatch⟩
      obtain ⟨hend, hmatch⟩ := (h vs (hws.tail hvs)).1 hmatch
      exact ⟨by tauto, w, vs, rfl, hw, hmatch⟩
    · rintro ⟨hend, w, vs, rfl, hw, hmatch⟩
      have hend : ¬ EndsTwiceInStars (t :: ss) := fun he => hend (.inr he)
      have hvs := ne_nil_of_segmentsMatch hlast hend hmatch
      exact ⟨w, vs, rfl, hvs, hw, (h vs (hws.tail hvs)).2 ⟨hend, hmatch⟩⟩

theorem matchesBySegments {ss : List (List Char)} (hss : ss ≠ []) (hslash : ∀ s ∈ ss, '/' ∉ s)
    (halign : IsAligned ss) : MatchesBySegments ss := by
  induction ss with
  | nil => exact absurd rfl hss
  | cons s ss ih =>
    have hs := hslash s (by simp)
    cases ss with
    | nil => exact matchesBySegments_singleton hs halign
    | cons t ss =>
      have halign' : IsAligned (t :: ss) := fun u hu => halign u (List.mem_cons_of_mem _ hu)
      have ih := ih (by simp) (fun u hu => hslash u (List.mem_cons_of_mem _ hu)) halign'
      by_cases hstars : IsStars s
      · exact ih.cons_stars hstars halign'
      · exact ih.cons_one hstars hs halign

def patternSegments (pattern : String) : List (List Char) := (clean pattern).toList.splitOn '/'

theorem patternSegments_ne_nil (pattern : String) : patternSegments pattern ≠ [] := by
  rw [patternSegments, List.splitOn_eq_splitOnP]
  exact List.splitOnP_ne_nil _ _

theorem slash_not_mem_of_mem_patternSegments {pattern : String} {s : List Char}
    (hs : s ∈ patternSegments pattern) : '/' ∉ s := by
  rw [patternSegments, List.splitOn_eq_splitOnP] at hs
  intro hc
  have := (List.mem_of_mem_splitOnP hs '/' hc).2
  simp at this

theorem intercalate_patternSegments (pattern : String) :
    ['/'].intercalate (patternSegments pattern) = (clean pattern).toList :=
  List.intercalate_splitOn _

theorem arePieces_splitOn_of_normalize {path p : String} (h : Path.normalize path = some p) :
    ArePieces (p.toList.splitOn '/') := by
  obtain ⟨ss, hseg, rfl⟩ := Path.normalize_eq_some_iff.1 h
  obtain ⟨hss, hnames⟩ := Path.segments?_eq_some hseg
  rw [Path.splitOn_toList_join hss hnames]
  constructor
  · simpa using hss
  · simpa using fun s hs => (hnames s hs).ne_empty
  · simpa using fun s hs => (hnames s hs).slash_not_mem

/-- A pattern of aligned stars matches the paths whose segments its own segments match, unless it
ends in two segments of stars. -/
theorem test_iff_segmentsMatch [Limit] {pattern : String}
    (halign : IsAligned (patternSegments pattern))
    (hfits : (compile pattern).tokens.isSome) (path : String) :
    (compile pattern).test path = true ↔ ¬ EndsTwiceInStars (patternSegments pattern) ∧
      ∃ p, Path.normalize path = some p ∧
        SegmentsMatch (patternSegments pattern) (p.toList.splitOn '/') := by
  have htokens : (compile pattern).tokens = some (Token.ofChars (clean pattern).toList) := by
    obtain ⟨ts, hts⟩ := Option.isSome_iff_exists.1 hfits
    simp only [compile] at hts ⊢
    split at hts
    · next h => rw [if_pos h]
    · cases hts
  have hmatch := matchesBySegments (patternSegments_ne_nil pattern)
    (fun s hs => slash_not_mem_of_mem_patternSegments hs) halign
  cases hp : Path.normalize path with
  | none => simp [test, hp]
  | some p =>
    have hsegments := hmatch _ (arePieces_splitOn_of_normalize hp)
    rw [intercalate_patternSegments, List.intercalate_splitOn] at hsegments
    rw [test, hp, Option.any_some, testCanonical, htokens, Option.any_some, accepts_iff, hsegments]
    simp

theorem segmentsMatch_of_test_stars : IsAligned (patternSegments "a/**/*b") ∧
    (compile "a/**/*b").tokens.isSome ∧ ∃ p, Path.normalize "a//c/d/eb" = some p ∧
      SegmentsMatch (patternSegments "a/**/*b") (p.toList.splitOn '/') := by
  have halign : IsAligned (patternSegments "a/**/*b") := by decide +kernel
  have hfits : (compile "a/**/*b").tokens.isSome := by decide +kernel
  have htest : (compile "a/**/*b").test "a//c/d/eb" = true := by decide +kernel
  exact ⟨halign, hfits, ((test_iff_segmentsMatch halign hfits "a//c/d/eb").1 htest).2⟩

theorem not_test_of_endsTwiceInStars : IsAligned (patternSegments "a/**/**") ∧
    (compile "a/**/**").tokens.isSome ∧ Path.normalize "a/b/c" = some "a/b/c" ∧
      SegmentsMatch (patternSegments "a/**/**") ("a/b/c".toList.splitOn '/') ∧
        (compile "a/**/**").test "a/b/c" = false := by
  have hpattern : patternSegments "a/**/**" = [['a'], ['*', '*'], ['*', '*']] := by decide +kernel
  have hpath : "a/b/c".toList.splitOn '/' = [['a'], ['b'], ['c']] := by decide +kernel
  have hstars : IsStars ['*', '*'] := by decide
  have hone : SegmentMatches ['a'] ['a'] := .lit (by decide) (by decide) .nil
  refine ⟨by decide +kernel, by decide +kernel, by decide +kernel, ?_, by decide +kernel⟩
  rw [hpattern, hpath]
  exact .one (by decide) hone (.stars hstars [['b'], ['c']] (.stars hstars [] .nil))

end TreeSelection.Glob
