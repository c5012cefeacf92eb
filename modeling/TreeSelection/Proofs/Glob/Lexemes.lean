import TreeSelection.Proofs.Glob.Matching

namespace TreeSelection.Glob

namespace Lexeme

def ofChar (c : Char) : Lexeme := if c = '*' then .star else if c = '?' then .one else .lit c

theorem consStar_append_lit (ls ls' : List Lexeme) (c : Char) :
    consStar (ls ++ .lit c :: ls') = consStar ls ++ .lit c :: ls' := by
  cases ls with
  | nil => rfl
  | cons l ls => cases l <;> rfl

theorem ofChars_append_slash (s cs : List Char) :
    ofChars (s ++ '/' :: cs) = ofChars s ++ .lit '/' :: ofChars cs := by
  induction s with
  | nil => simp [ofChars]
  | cons c s ih =>
    simp only [List.cons_append, ofChars, ih]
    split
    · exact consStar_append_lit _ _ _
    · split <;> rfl

theorem ofChars_eq_map {s : List Char} (h : ¬ ['*', '*'] <:+: s) : ofChars s = s.map ofChar := by
  induction s with
  | nil => rfl
  | cons c s ih =>
    have hs : ¬ ['*', '*'] <:+: s := fun hs => h (hs.trans (List.suffix_cons c s).isInfix)
    simp only [ofChars, ih hs, List.map_cons, ofChar]
    split
    · next hc =>
      subst hc
      cases s with
      | nil => rfl
      | cons d s =>
        have hd : d ≠ '*' := by
          rintro rfl
          exact h ⟨[], s, rfl⟩
        simp only [List.map_cons, ofChar, if_neg hd]
        split <;> rfl
    · split <;> rfl

theorem ofChars_stars {s : List Char} (hlen : 2 ≤ s.length) (h : ∀ c ∈ s, c = '*') :
    ofChars s = [.stars] := by
  induction s with
  | nil => simp at hlen
  | cons c s ih =>
    obtain rfl : c = '*' := h c (by simp)
    have hs : ∀ c ∈ s, c = '*' := fun d hd => h d (List.mem_cons_of_mem _ hd)
    cases s with
    | nil => simp at hlen
    | cons d s =>
      cases s with
      | nil =>
        obtain rfl : d = '*' := hs d (by simp)
        rfl
      | cons e s =>
        rw [ofChars, if_pos rfl, ih (by simp) hs]
        rfl

end Lexeme

namespace Token

theorem ofLexemes_slash (b : Bool) {ls : List Lexeme} (h : ls ≠ [.stars]) :
    ofLexemes b (.lit '/' :: ls) = .lit '/' :: ofLexemes true ls := by
  cases b <;> simp [ofLexemes, h]

theorem ofLexemes_anyDirs {ls : List Lexeme} (h : ls ≠ [.stars]) :
    ofLexemes true (.stars :: .lit '/' :: ls) = .anyDirs :: ofLexemes true ls := by
  simp [ofLexemes]

def ofChar (c : Char) : Token := if c = '*' then .star else if c = '?' then .one else .lit c

theorem ofLexemes_cons_ofChar (b : Bool) {c : Char} (hc : c ≠ '/') (ls : List Lexeme) :
    ofLexemes b (.ofChar c :: ls) = .ofChar c :: ofLexemes false ls := by
  simp only [Lexeme.ofChar, ofChar]
  split
  · cases b <;> simp [ofLexemes]
  · split
    · cases b <;> simp [ofLexemes]
    · have hslash : (c == '/') = false := beq_eq_false_iff_ne.2 hc
      cases b <;> simp [ofLexemes, hc, hslash]

theorem ofLexemes_map_ofChar (b : Bool) {s : List Char} (hs : '/' ∉ s) :
    ofLexemes b (s.map .ofChar) = s.map .ofChar := by
  induction s generalizing b with
  | nil => cases b <;> rfl
  | cons c s ih =>
    simp only [List.mem_cons, not_or] at hs
    rw [List.map_cons, ofLexemes_cons_ofChar b (Ne.symm hs.1), ih false hs.2, List.map_cons]

theorem ofLexemes_slash_eq (b : Bool) (ls : List Lexeme) :
    ofLexemes b (.lit '/' :: ls) = ofLexemes true (.lit '/' :: ls) := by
  by_cases h : ls = [.stars]
  · subst h
    cases b <;> rfl
  · rw [ofLexemes_slash b h, ofLexemes_slash true h]

theorem ofLexemes_map_append_slash (b : Bool) {s : List Char} (hs : '/' ∉ s) (ls : List Lexeme) :
    ofLexemes b (s.map .ofChar ++ .lit '/' :: ls) =
      s.map .ofChar ++ ofLexemes true (.lit '/' :: ls) := by
  induction s generalizing b with
  | nil => exact ofLexemes_slash_eq b ls
  | cons c s ih =>
    simp only [List.mem_cons, not_or] at hs
    rw [List.map_cons, List.cons_append, ofLexemes_cons_ofChar b (Ne.symm hs.1), ih false hs.2,
      List.map_cons, List.cons_append]

end Token

end TreeSelection.Glob
