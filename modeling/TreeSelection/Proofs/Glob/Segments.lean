import Mathlib.Data.List.Infix
import TreeSelection.Proofs.Glob.Lexemes
import TreeSelection.Proofs.Glob.Matching
import TreeSelection.Proofs.Path

namespace TreeSelection.Glob

def IsStars (s : List Char) : Prop := 2 ≤ s.length ∧ ∀ c ∈ s, c = '*'

instance (s : List Char) : Decidable (IsStars s) :=
  decidable_of_iff (2 ≤ s.length ∧ s.all (· == '*') = true) (by simp [IsStars])

inductive SegmentMatches : List Char → List Char → Prop
  | nil : SegmentMatches [] []
  | star {s w : List Char} (u : List Char) (h : SegmentMatches s w) :
    SegmentMatches ('*' :: s) (u ++ w)
  | one {s w : List Char} (c : Char) (h : SegmentMatches s w) : SegmentMatches ('?' :: s) (c :: w)
  | lit {s w : List Char} {c : Char} (hstar : c ≠ '*') (hone : c ≠ '?') (h : SegmentMatches s w) :
    SegmentMatches (c :: s) (c :: w)

inductive SegmentsMatch : List (List Char) → List (List Char) → Prop
  | nil : SegmentsMatch [] []
  | stars {s : List Char} {ss ws : List (List Char)} (hs : IsStars s) (us : List (List Char))
    (h : SegmentsMatch ss ws) : SegmentsMatch (s :: ss) (us ++ ws)
  | one {s w : List Char} {ss ws : List (List Char)} (hs : ¬ IsStars s) (hw : SegmentMatches s w)
    (h : SegmentsMatch ss ws) : SegmentsMatch (s :: ss) (w :: ws)

def EndsTwiceInStars (ss : List (List Char)) : Prop :=
  ∃ init s t, ss = init ++ [s, t] ∧ IsStars s ∧ IsStars t

/-- Stars stand by themselves, either in a segment of their own or one at a time. -/
def IsAligned (ss : List (List Char)) : Prop := ∀ s ∈ ss, IsStars s ∨ ¬ ['*', '*'] <:+: s

instance (ss : List (List Char)) : Decidable (IsAligned ss) :=
  inferInstanceAs (Decidable (∀ s ∈ ss, _ ∨ _))

theorem segmentsMatch_stars_iff {s : List Char} {ss ws : List (List Char)} (hs : IsStars s) :
    SegmentsMatch (s :: ss) ws ↔ ∃ us vs, ws = us ++ vs ∧ SegmentsMatch ss vs := by
  constructor
  · intro h
    cases h with
    | stars _ us h => exact ⟨us, _, rfl, h⟩
    | one hs' => exact absurd hs hs'
  · rintro ⟨us, vs, rfl, h⟩
    exact .stars hs us h

theorem segmentsMatch_one_iff {s : List Char} {ss ws : List (List Char)} (hs : ¬ IsStars s) :
    SegmentsMatch (s :: ss) ws ↔
      ∃ w vs, ws = w :: vs ∧ SegmentMatches s w ∧ SegmentsMatch ss vs := by
  constructor
  · intro h
    cases h with
    | stars hs' => exact absurd hs' hs
    | one _ hw h => exact ⟨_, _, rfl, hw, h⟩
  · rintro ⟨w, vs, rfl, hw, h⟩
    exact .one hs hw h

theorem isStars_of_segmentsMatch_nil {ss : List (List Char)} (h : SegmentsMatch ss []) :
    ∀ s ∈ ss, IsStars s := by
  induction ss with
  | nil => simp
  | cons s ss ih =>
    by_cases hs : IsStars s
    · obtain ⟨us, vs, heq, h⟩ := (segmentsMatch_stars_iff hs).1 h
      obtain ⟨rfl, rfl⟩ := List.append_eq_nil_iff.1 heq.symm
      exact List.forall_mem_cons.2 ⟨hs, ih h⟩
    · obtain ⟨w, vs, heq, -⟩ := (segmentsMatch_one_iff hs).1 h
      cases heq

theorem endsTwiceInStars_cons {s t : List Char} {ss : List (List Char)} :
    EndsTwiceInStars (s :: t :: ss) ↔
      (ss = [] ∧ IsStars s ∧ IsStars t) ∨ EndsTwiceInStars (t :: ss) := by
  constructor
  · rintro ⟨init, a, b, heq, ha, hb⟩
    cases init with
    | nil =>
      obtain ⟨rfl, rfl, rfl⟩ : s = a ∧ t = b ∧ ss = [] := by simpa using heq
      exact .inl ⟨rfl, ha, hb⟩
    | cons x init =>
      exact .inr ⟨init, a, b, (List.cons.inj heq).2, ha, hb⟩
  · rintro (⟨rfl, hs, ht⟩ | ⟨init, a, b, heq, ha, hb⟩)
    · exact ⟨[], s, t, rfl, hs, ht⟩
    · exact ⟨s :: init, a, b, by rw [heq]; rfl, ha, hb⟩

theorem not_endsTwiceInStars_singleton (s : List Char) : ¬ EndsTwiceInStars [s] := by
  rintro ⟨init, a, b, heq, -⟩
  have := congrArg List.length heq
  simp at this

theorem ne_nil_of_segmentsMatch {t : List Char} {ss ws : List (List Char)}
    (hlast : ¬ (ss = [] ∧ IsStars t)) (hend : ¬ EndsTwiceInStars (t :: ss))
    (h : SegmentsMatch (t :: ss) ws) : ws ≠ [] := by
  rintro rfl
  have hstars := isStars_of_segmentsMatch_nil h
  rcases List.eq_nil_or_concat' ss with rfl | ⟨ss, s, rfl⟩
  · exact hlast ⟨rfl, hstars t (by simp)⟩
  · have hs : IsStars s := hstars s (by simp)
    rcases List.eq_nil_or_concat' ss with rfl | ⟨ss, r, rfl⟩
    · exact hend ⟨[], t, s, rfl, hstars t (by simp), hs⟩
    · exact hend ⟨t :: ss, r, s, by simp, hstars r (by simp), hs⟩

theorem seq_admits_ofChar {c : Char} (hc : c ≠ '/') {s w : List Char} :
    Seq (Token.ofChar c).Admits (fun u => '/' ∉ u ∧ SegmentMatches s u) w ↔
      '/' ∉ w ∧ SegmentMatches (c :: s) w := by
  constructor
  · rintro ⟨u, v, rfl, hu, hv, hmatch⟩
    simp only [Token.ofChar] at hu
    split at hu
    · next hstar =>
      subst hstar
      exact ⟨by simpa using ⟨hu, hv⟩, .star u hmatch⟩
    · next hstar =>
      split at hu
      · next hone =>
        subst hone
        obtain ⟨d, hd, rfl⟩ := hu
        exact ⟨by simpa using ⟨hd.symm, hv⟩, .one d hmatch⟩
      · next hone =>
        obtain rfl : u = [c] := hu
        exact ⟨by simpa using ⟨hc.symm, hv⟩, .lit hstar hone hmatch⟩
  · rintro ⟨hw, hmatch⟩
    cases hmatch with
    | star u h =>
      simp only [List.mem_append, not_or] at hw
      exact ⟨u, _, rfl, hw.1, hw.2, h⟩
    | one d h =>
      simp only [List.mem_cons, not_or] at hw
      exact ⟨[d], _, rfl, ⟨d, Ne.symm hw.1, rfl⟩, hw.2, h⟩
    | lit hstar hone h =>
      simp only [List.mem_cons, not_or] at hw
      refine ⟨[c], _, rfl, ?_, hw.2, h⟩
      simp [Token.ofChar, hstar, hone, Token.Admits]

theorem matches_map_ofChar_append {s : List Char} {ts : List Token} {w : List Char} (hs : '/' ∉ s) :
    Matches (s.map .ofChar ++ ts) w ↔
      Seq (fun u => '/' ∉ u ∧ SegmentMatches s u) (Matches ts) w := by
  induction s generalizing w with
  | nil =>
    have hnil (u : List Char) : '/' ∉ u ∧ SegmentMatches [] u ↔ u = [] := by
      constructor
      · rintro ⟨-, h⟩
        cases h
        rfl
      · rintro rfl
        exact ⟨by simp, .nil⟩
    rw [seq_congr_left hnil, seq_eq_nil]
    rfl
  | cons c s ih =>
    simp only [List.mem_cons, not_or] at hs
    calc Matches ((c :: s).map .ofChar ++ ts) w
      _ ↔ Seq (Token.ofChar c).Admits (Matches (s.map .ofChar ++ ts)) w := .rfl
      _ ↔ Seq (Token.ofChar c).Admits
            (Seq (fun u => '/' ∉ u ∧ SegmentMatches s u) (Matches ts)) w :=
        seq_congr_right fun v => ih hs.2
      _ ↔ Seq (fun u => '/' ∉ u ∧ SegmentMatches (c :: s) u) (Matches ts) w := by
        rw [seq_assoc, seq_congr_left fun u => seq_admits_ofChar (Ne.symm hs.1)]

theorem ofChars_joined (s t : List Char) (ss : List (List Char)) :
    Lexeme.ofChars (['/'].intercalate (s :: t :: ss)) =
      Lexeme.ofChars s ++ .lit '/' :: Lexeme.ofChars (['/'].intercalate (t :: ss)) := by
  rw [List.intercalate_cons_cons, ← Lexeme.ofChars_append_slash]
  simp

theorem ofChars_joined_eq_stars_iff {s : List Char} {ss : List (List Char)}
    (h : IsAligned (s :: ss)) :
    Lexeme.ofChars (['/'].intercalate (s :: ss)) = [.stars] ↔ ss = [] ∧ IsStars s := by
  cases ss with
  | nil =>
    rw [List.intercalate_singleton]
    by_cases hs : IsStars s
    · simp [hs, Lexeme.ofChars_stars hs.1 hs.2]
    · rw [Lexeme.ofChars_eq_map ((h s (by simp)).resolve_left hs)]
      refine iff_of_false (fun heq => ?_) fun hs' => hs hs'.2
      obtain ⟨c, -, hc⟩ := List.mem_map.1 (heq ▸ List.mem_singleton_self Lexeme.stars)
      simp only [Lexeme.ofChar] at hc
      split at hc <;> [skip; split at hc] <;> cases hc
  | cons t ss =>
    rw [ofChars_joined]
    refine iff_of_false (fun heq => ?_) (by simp)
    have hmem : Lexeme.lit '/' ∈ [Lexeme.stars] := heq ▸ List.mem_append_right _ (by simp)
    simp at hmem

theorem matches_subtree_iff {v : List Char} :
    Matches [.subtree] v ↔ v = [] ∨ Seq (Token.lit '/').Admits (fun _ => True) v := by
  constructor
  · rintro ⟨u, _, rfl, rfl | hu, rfl⟩
    · exact .inl rfl
    · obtain ⟨u, rfl⟩ := List.head?_eq_some_iff.1 hu
      exact .inr ⟨['/'], u, by simp, rfl, trivial⟩
  · rintro (rfl | ⟨_, v, rfl, rfl, -⟩)
    · exact ⟨[], [], rfl, .inl rfl, rfl⟩
    · exact ⟨'/' :: v, [], by simp, .inr rfl, rfl⟩

structure ArePieces (ws : List (List Char)) : Prop where
  ne_nil : ws ≠ []
  piece_ne_nil : ∀ w ∈ ws, w ≠ []
  slash_not_mem : ∀ w ∈ ws, '/' ∉ w

theorem ArePieces.left {us vs : List (List Char)} (h : ArePieces (us ++ vs)) (hus : us ≠ []) :
    ArePieces us :=
  ⟨hus, fun w hw => h.piece_ne_nil w (List.mem_append_left _ hw),
    fun w hw => h.slash_not_mem w (List.mem_append_left _ hw)⟩

theorem ArePieces.right {us vs : List (List Char)} (h : ArePieces (us ++ vs)) (hvs : vs ≠ []) :
    ArePieces vs :=
  ⟨hvs, fun w hw => h.piece_ne_nil w (List.mem_append_right _ hw),
    fun w hw => h.slash_not_mem w (List.mem_append_right _ hw)⟩

theorem ArePieces.tail {w : List Char} {vs : List (List Char)} (h : ArePieces (w :: vs))
    (hvs : vs ≠ []) : ArePieces vs :=
  ArePieces.right (show ArePieces ([w] ++ vs) from h) hvs

theorem ArePieces.intercalate_ne_nil {ws : List (List Char)} (h : ArePieces ws) :
    ['/'].intercalate ws ≠ [] := by
  cases ws with
  | nil => exact absurd rfl h.ne_nil
  | cons w ws =>
    have hw := h.piece_ne_nil w (by simp)
    by_cases hws : ws = []
    · simpa [hws] using hw
    · simp [List.intercalate_cons_of_ne_nil hws]

theorem ArePieces.intercalate_eq_iff {ws : List (List Char)} (h : ArePieces ws) {u v : List Char} :
    ['/'].intercalate ws = u ++ '/' :: v ↔ ∃ us vs, us ≠ [] ∧ vs ≠ [] ∧ ws = us ++ vs ∧
      u = ['/'].intercalate us ∧ v = ['/'].intercalate vs :=
  List.intercalate_eq_append_cons_iff h.ne_nil h.slash_not_mem

section

variable {ws : List (List Char)} (hws : ArePieces ws)

include hws

theorem seq_anyDirs_iff {P : List Char → Prop} : Seq Token.anyDirs.Admits P (['/'].intercalate ws) ↔
    ∃ us vs, ws = us ++ vs ∧ vs ≠ [] ∧ P (['/'].intercalate vs) := by
  constructor
  · rintro ⟨u, v, heq, rfl | hu, hv⟩
    · exact ⟨[], ws, rfl, hws.ne_nil, by rwa [heq]⟩
    · obtain ⟨u, rfl⟩ := List.getLast?_eq_some_iff.1 hu
      rw [List.append_assoc] at heq
      obtain ⟨us, vs, -, hvs, rfl, -, rfl⟩ := hws.intercalate_eq_iff.1 heq
      exact ⟨us, vs, rfl, hvs, hv⟩
  · rintro ⟨us, vs, rfl, hvs, hv⟩
    by_cases hus : us = []
    · subst hus
      exact ⟨[], _, rfl, .inl rfl, hv⟩
    · refine ⟨['/'].intercalate us ++ ['/'], _, ?_, .inr (by simp), hv⟩
      rw [List.intercalate_append hus hvs]
      simp

theorem seq_segment_slash_iff {S P : List Char → Prop} :
    Seq (fun u => '/' ∉ u ∧ S u) (Seq (Token.lit '/').Admits P) (['/'].intercalate ws) ↔
      ∃ w vs, ws = w :: vs ∧ vs ≠ [] ∧ S w ∧ P (['/'].intercalate vs) := by
  constructor
  · rintro ⟨u, _, heq, ⟨hu, hS⟩, _, v, rfl, rfl, hv⟩
    obtain ⟨us, vs, hus, hvs, rfl, rfl, rfl⟩ := hws.intercalate_eq_iff.1 heq
    have hsingle := List.eq_singleton_of_not_mem hus (hws.left hus).slash_not_mem hu
    exact ⟨_, vs, by rw [← List.singleton_append, ← hsingle], hvs, hS, hv⟩
  · rintro ⟨w, vs, rfl, hvs, hS, hv⟩
    have hw := hws.slash_not_mem w (by simp)
    refine ⟨w, '/' :: ['/'].intercalate vs, ?_, ⟨hw, hS⟩, ['/'], _, rfl, rfl, hv⟩
    rw [List.intercalate_cons_of_ne_nil hvs]
    simp

theorem seq_segment_iff {S : List Char → Prop} :
    Seq (fun u => '/' ∉ u ∧ S u) (· = []) (['/'].intercalate ws) ↔ ∃ w, ws = [w] ∧ S w := by
  constructor
  · rintro ⟨u, _, heq, ⟨hu, hS⟩, rfl⟩
    rw [List.append_nil] at heq
    have hsingle := List.eq_singleton_of_not_mem hws.ne_nil hws.slash_not_mem (heq ▸ hu)
    exact ⟨u, heq ▸ hsingle, hS⟩
  · rintro ⟨w, rfl, hS⟩
    exact ⟨w, [], by simp, ⟨hws.slash_not_mem w (by simp), hS⟩, rfl⟩

theorem seq_segment_subtree_iff {S : List Char → Prop} :
    Seq (fun u => '/' ∉ u ∧ S u) (Matches [.subtree]) (['/'].intercalate ws) ↔
      ∃ w vs, ws = w :: vs ∧ S w := by
  rw [seq_congr_right fun v => matches_subtree_iff, seq_or_right, seq_segment_iff hws,
    seq_segment_slash_iff hws]
  constructor
  · rintro (⟨w, rfl, hS⟩ | ⟨w, vs, rfl, -, hS, -⟩)
    · exact ⟨w, [], rfl, hS⟩
    · exact ⟨w, vs, rfl, hS⟩
  · rintro ⟨w, vs, rfl, hS⟩
    by_cases hvs : vs = []
    · exact .inl ⟨w, by rw [hvs], hS⟩
    · exact .inr ⟨w, vs, rfl, hvs, hS, trivial⟩

theorem not_matches_someDirs_subtree : ¬ Matches [.someDirs, .subtree] (['/'].intercalate ws) := by
  rintro ⟨u, v, heq, hu, hv⟩
  obtain ⟨u, rfl⟩ := List.getLast?_eq_some_iff.1 hu
  rw [List.append_assoc] at heq
  obtain ⟨us, vs, -, hvs, rfl, -, rfl⟩ := hws.intercalate_eq_iff.1 heq
  have hvs := hws.right hvs
  rcases matches_subtree_iff.1 hv with hnil | ⟨_, v, hcons, rfl, -⟩
  · exact hvs.intercalate_ne_nil hnil
  · obtain ⟨xs, ys, hxs, -, rfl, hnil, -⟩ := (hvs.intercalate_eq_iff (u := [])).1 hcons
    exact (hvs.left hxs).intercalate_ne_nil hnil.symm

end

end TreeSelection.Glob
