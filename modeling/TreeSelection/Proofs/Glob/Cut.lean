import Mathlib.Data.List.Forall2
import TreeSelection.Proofs.Glob.Aligned

/-!
The language of every pattern. A pattern is cut into tokens from left to right in exactly one way,
and the paths that it matches are the concatenations of texts that its tokens admit, in order. Only
a pattern that ends in stars right behind whole directories matches nothing.
-/

namespace TreeSelection.Glob

/-- A pattern and the tokens that it is cut into. The flag tells whether a segment starts here. -/
inductive Cut : Bool → List Char → List Token → Prop
  | nil {b : Bool} : Cut b [] []
  | anyDirs {s cs : List Char} {ts : List Token} (hs : IsStars s) (h : Cut true cs ts) :
    Cut true (s ++ '/' :: cs) (.anyDirs :: ts)
  | subtree {b : Bool} {s : List Char} (hs : IsStars s) : Cut b ('/' :: s) [.subtree]
  | anything {b : Bool} {s cs : List Char} {ts : List Token} (hs : IsStars s)
    (hrun : cs.head? ≠ some '*') (hdirs : b = true → cs.head? ≠ some '/') (h : Cut false cs ts) :
    Cut b (s ++ cs) (.anything :: ts)
  | star {b : Bool} {cs : List Char} {ts : List Token} (hrun : cs.head? ≠ some '*')
    (h : Cut false cs ts) : Cut b ('*' :: cs) (.star :: ts)
  | one {b : Bool} {cs : List Char} {ts : List Token} (h : Cut false cs ts) :
    Cut b ('?' :: cs) (.one :: ts)
  | lit {b : Bool} {c : Char} {cs : List Char} {ts : List Token} (hstar : c ≠ '*') (hone : c ≠ '?')
    (hsubtree : c = '/' → ¬ IsStars cs) (h : Cut (c == '/') cs ts) : Cut b (c :: cs) (.lit c :: ts)

theorem exists_run (cs : List Char) : cs.head? ≠ some '*' ∨
    (∃ rest, cs = '*' :: rest ∧ rest.head? ≠ some '*') ∨
      ∃ s rest, IsStars s ∧ cs = s ++ rest ∧ rest.head? ≠ some '*' := by
  induction cs with
  | nil => exact .inl (by simp)
  | cons c cs ih =>
    by_cases hc : c = '*'
    · subst hc
      rcases ih with hrun | ⟨rest, rfl, hrun⟩ | ⟨s, rest, hs, rfl, hrun⟩
      · exact .inr (.inl ⟨cs, rfl, hrun⟩)
      · exact .inr (.inr ⟨['*', '*'], rest, by decide, rfl, hrun⟩)
      · refine .inr (.inr ⟨'*' :: s, rest, ⟨?_, ?_⟩, rfl, hrun⟩)
        · exact Nat.le_succ_of_le hs.1
        · exact List.forall_mem_cons.2 ⟨rfl, hs.2⟩
    · exact .inl (by simpa using hc)

namespace Lexeme

theorem ofChars_star_cons {cs : List Char} (h : cs.head? ≠ some '*') :
    ofChars ('*' :: cs) = .star :: ofChars cs := by
  rw [ofChars, if_pos rfl]
  cases cs with
  | nil => rfl
  | cons c cs =>
    have hc : c ≠ '*' := by simpa using h
    rw [ofChars, if_neg hc]
    split <;> rfl

theorem ofChars_stars_append {s cs : List Char} (hs : IsStars s) (h : cs.head? ≠ some '*') :
    ofChars (s ++ cs) = .stars :: ofChars cs := by
  obtain ⟨hlen, hall⟩ := hs
  induction s with
  | nil => simp at hlen
  | cons c s ih =>
    obtain rfl : c = '*' := hall c (by simp)
    have hall' : ∀ c ∈ s, c = '*' := fun d hd => hall d (List.mem_cons_of_mem _ hd)
    rw [List.cons_append, ofChars, if_pos rfl]
    by_cases hlen' : 2 ≤ s.length
    · rw [ih hlen' hall']
      rfl
    · obtain ⟨d, rfl⟩ : ∃ d, s = [d] := List.length_eq_one_iff.1 (by simp at hlen; omega)
      obtain rfl : d = '*' := hall' d (by simp)
      rw [List.singleton_append, ofChars_star_cons h]
      rfl

theorem ofChars_eq_stars_iff {cs : List Char} : ofChars cs = [.stars] ↔ IsStars cs := by
  refine ⟨fun h => ?_, fun h => ofChars_stars h.1 h.2⟩
  rcases exists_run cs with hrun | ⟨rest, rfl, hrun⟩ | ⟨s, rest, hs, rfl, hrun⟩
  · cases cs with
    | nil => cases h
    | cons c cs =>
      rw [ofChars, if_neg (by simpa using hrun)] at h
      split at h <;> cases h
  · rw [ofChars_star_cons hrun] at h
    cases h
  · rw [ofChars_stars_append hs hrun] at h
    cases rest with
    | nil => rwa [List.append_nil]
    | cons c rest =>
      rw [ofChars, if_neg (by simpa using hrun)] at h
      split at h <;> simp at h

theorem head?_ofChars_eq_slash {cs : List Char} (h : (ofChars cs).head? = some (.lit '/')) :
    cs.head? = some '/' := by
  cases cs with
  | nil => cases h
  | cons c cs =>
    rw [ofChars] at h
    split at h
    · cases hls : ofChars cs with
      | nil => simp [hls, consStar] at h
      | cons l ls => cases l <;> simp [hls, consStar] at h
    · split at h
      · cases h
      · simpa using h

end Lexeme

namespace Token

theorem ofLexemes_star (b : Bool) (ls : List Lexeme) :
    ofLexemes b (.star :: ls) = .star :: ofLexemes false ls := by
  cases b <;> simp [ofLexemes]

theorem ofLexemes_one (b : Bool) (ls : List Lexeme) :
    ofLexemes b (.one :: ls) = .one :: ofLexemes false ls := by
  cases b <;> simp [ofLexemes]

theorem ofLexemes_stars {b : Bool} {ls : List Lexeme}
    (h : b = true → ls.head? ≠ some (.lit '/')) :
    ofLexemes b (.stars :: ls) = .anything :: ofLexemes false ls := by
  cases b with
  | false => simp [ofLexemes]
  | true =>
    rw [ofLexemes]
    · rintro - rfl
      exact h rfl rfl
    · rintro ls' - rfl
      exact h rfl rfl

theorem ofLexemes_lit (b : Bool) {c : Char} {ls : List Lexeme} (h : c = '/' → ls ≠ [.stars]) :
    ofLexemes b (.lit c :: ls) = .lit c :: ofLexemes (c == '/') ls := by
  by_cases hc : c = '/'
  · subst hc
    exact ofLexemes_slash b (h rfl)
  · cases b <;> simp [ofLexemes, hc]

end Token

def compiledTokens : List Token → List Token
  | [] => []
  | [.anyDirs, .anything] => [.someDirs, .subtree]
  | t :: ts => t :: compiledTokens ts

theorem compiledTokens_cons {t : Token} {ts : List Token} (h : t = .anyDirs → ts ≠ [.anything]) :
    compiledTokens (t :: ts) = t :: compiledTokens ts := by
  rw [compiledTokens]
  rintro rfl rfl
  exact h rfl rfl

def EndsInDirs (ts : List Token) : Prop := [.anyDirs, .anything] <:+ ts

theorem endsInDirs_cons {t : Token} {ts : List Token} :
    EndsInDirs (t :: ts) ↔ (t = .anyDirs ∧ ts = [.anything]) ∨ EndsInDirs ts := by
  rw [EndsInDirs, List.suffix_cons_iff, List.cons.injEq, eq_comm, eq_comm (a := ts)]
  rfl

theorem compiledTokens_eq_self {ts : List Token} (h : ¬ EndsInDirs ts) :
    compiledTokens ts = ts := by
  induction ts with
  | nil => rfl
  | cons t ts ih =>
    rw [endsInDirs_cons, not_or, not_and] at h
    rw [compiledTokens_cons h.1, ih h.2]

theorem compiledTokens_append (init : List Token) :
    compiledTokens (init ++ [.anyDirs, .anything]) = init ++ [.someDirs, .subtree] := by
  induction init with
  | nil => rfl
  | cons t init ih =>
    have hne : init ++ [.anyDirs, .anything] ≠ [.anything] := by
      cases init <;> simp
    rw [List.cons_append, compiledTokens_cons fun _ => hne, ih, List.cons_append]

theorem someDirs_mem_compiledTokens_iff {ts : List Token} (h : .someDirs ∉ ts) :
    .someDirs ∈ compiledTokens ts ↔ EndsInDirs ts := by
  by_cases hend : EndsInDirs ts
  · obtain ⟨init, rfl⟩ := hend
    rw [compiledTokens_append]
    exact iff_of_true (by simp) ⟨init, rfl⟩
  · rw [compiledTokens_eq_self hend]
    exact iff_of_false h hend

theorem compiledTokens_eq_anything_iff {ts : List Token} :
    compiledTokens ts = [.anything] ↔ ts = [.anything] := by
  by_cases h : EndsInDirs ts
  · obtain ⟨init, rfl⟩ := h
    rw [compiledTokens_append]
    cases init <;> simp
  · rw [compiledTokens_eq_self h]

namespace Cut

variable {b : Bool} {cs : List Char} {ts us : List Token}

theorem isStars_of_anything (h : Cut b cs [.anything]) : IsStars cs := by
  cases h with
  | anything hs _ _ h =>
    cases h
    rwa [List.append_nil]

theorem ofLexemes_eq (h : Cut b cs ts) :
    Token.ofLexemes b (Lexeme.ofChars cs) = compiledTokens ts := by
  induction h with
  | nil => cases b <;> rfl
  | @anyDirs s cs ts hs h ih =>
    have hslash : ('/' :: cs).head? ≠ some '*' := by simp
    rw [Lexeme.ofChars_stars_append hs hslash]
    show Token.ofLexemes true (.stars :: .lit '/' :: Lexeme.ofChars cs) = _
    by_cases hstars : Lexeme.ofChars cs = [.stars]
    · rw [hstars] at ih ⊢
      rw [compiledTokens_eq_anything_iff.1 ih.symm]
      rfl
    · have hts : ts ≠ [.anything] := by
        rintro rfl
        exact hstars (Lexeme.ofChars_eq_stars_iff.2 h.isStars_of_anything)
      rw [Token.ofLexemes_anyDirs hstars, ih, compiledTokens_cons fun _ => hts]
  | @subtree b s hs =>
    show Token.ofLexemes b (.lit '/' :: Lexeme.ofChars s) = _
    rw [Lexeme.ofChars_eq_stars_iff.2 hs]
    cases b <;> rfl
  | @anything b s cs ts hs hrun hdirs h ih =>
    have hslash : b = true → (Lexeme.ofChars cs).head? ≠ some (.lit '/') :=
      fun hb => mt Lexeme.head?_ofChars_eq_slash (hdirs hb)
    rw [Lexeme.ofChars_stars_append hs hrun, Token.ofLexemes_stars hslash, ih]
    rfl
  | @star b cs ts hrun h ih =>
    rw [Lexeme.ofChars_star_cons hrun, Token.ofLexemes_star, ih]
    rfl
  | @one b cs ts h ih =>
    show Token.ofLexemes b (.one :: Lexeme.ofChars cs) = _
    rw [Token.ofLexemes_one, ih]
    rfl
  | @lit b c cs ts hstar hone hsubtree h ih =>
    have hstop : c = '/' → Lexeme.ofChars cs ≠ [.stars] :=
      fun hc => mt Lexeme.ofChars_eq_stars_iff.1 (hsubtree hc)
    rw [Lexeme.ofChars, if_neg hstar, if_neg hone, Token.ofLexemes_lit b hstop, ih]
    rfl

theorem someDirs_not_mem (h : Cut b cs ts) : .someDirs ∉ ts := by
  induction h with
  | nil => simp
  | subtree => simp
  | anyDirs _ _ ih => simpa using ih
  | anything _ _ _ _ ih => simpa using ih
  | star _ _ ih => simpa using ih
  | one _ ih => simpa using ih
  | lit _ _ _ _ ih => simpa using ih

theorem unique (h : Cut b cs ts) (h' : Cut b cs us) : ts = us := by
  have heq : compiledTokens ts = compiledTokens us := h.ofLexemes_eq.symm.trans h'.ofLexemes_eq
  have hend : EndsInDirs ts ↔ EndsInDirs us := by
    rw [← someDirs_mem_compiledTokens_iff h.someDirs_not_mem, heq,
      someDirs_mem_compiledTokens_iff h'.someDirs_not_mem]
  by_cases hts : EndsInDirs ts
  · obtain ⟨init, rfl⟩ := hts
    obtain ⟨init', rfl⟩ := hend.1 ⟨init, rfl⟩
    rw [compiledTokens_append, compiledTokens_append] at heq
    rw [List.append_cancel_right heq]
  · rwa [compiledTokens_eq_self hts, compiledTokens_eq_self (mt hend.2 hts)] at heq

theorem exists_cut (b : Bool) (cs : List Char) : ∃ ts, Cut b cs ts := by
  -- a token may take a whole run of stars, so the induction is on the length
  induction hlen : cs.length using Nat.strongRecOn generalizing b cs with
  | ind n ih =>
    subst hlen
    rcases exists_run cs with hrun | ⟨rest, rfl, hrun⟩ | ⟨s, rest, hs, rfl, hrun⟩
    · cases cs with
      | nil => exact ⟨[], .nil⟩
      | cons c cs =>
        have hstar : c ≠ '*' := by simpa using hrun
        by_cases hone : c = '?'
        · subst hone
          obtain ⟨ts, h⟩ := ih cs.length (by simp) false cs rfl
          exact ⟨_, .one h⟩
        · by_cases hsubtree : c = '/' ∧ IsStars cs
          · obtain ⟨rfl, hs⟩ := hsubtree
            exact ⟨_, .subtree hs⟩
          · obtain ⟨ts, h⟩ := ih cs.length (by simp) (c == '/') cs rfl
            exact ⟨_, .lit hstar hone (not_and.1 hsubtree) h⟩
    · obtain ⟨ts, h⟩ := ih rest.length (by simp) false rest rfl
      exact ⟨_, .star hrun h⟩
    · have hshort : rest.length < (s ++ rest).length := by
        have := hs.1
        simp only [List.length_append]
        omega
      by_cases hdirs : b = true ∧ rest.head? = some '/'
      · obtain ⟨rfl, hslash⟩ := hdirs
        obtain ⟨cs, rfl⟩ := List.head?_eq_some_iff.1 hslash
        obtain ⟨ts, h⟩ := ih cs.length (Nat.lt_of_succ_lt hshort) true cs rfl
        exact ⟨_, .anyDirs hs h⟩
      · obtain ⟨ts, h⟩ := ih rest.length hshort false rest rfl
        exact ⟨_, .anything hs hrun (not_and.1 hdirs) h⟩

end Cut

theorem matches_append {ts us : List Token} {w : List Char} :
    Matches (ts ++ us) w ↔ Seq (Matches ts) (Matches us) w := by
  induction ts generalizing w with
  | nil => exact seq_eq_nil.symm
  | cons t ts ih =>
    calc Matches (t :: ts ++ us) w
      _ ↔ Seq t.Admits (Matches (ts ++ us)) w := .rfl
      _ ↔ Seq t.Admits (Seq (Matches ts) (Matches us)) w := seq_congr_right fun v => ih
      _ ↔ Seq (Matches (t :: ts)) (Matches us) w := seq_assoc

theorem matches_iff_flatten {ts : List Token} {w : List Char} :
    Matches ts w ↔ ∃ ws, w = ws.flatten ∧ List.Forall₂ Token.Admits ts ws := by
  induction ts generalizing w with
  | nil => simp [Matches, List.forall₂_nil_left_iff]
  | cons t ts ih =>
    constructor
    · rintro ⟨u, v, rfl, hu, hv⟩
      obtain ⟨ws, rfl, hws⟩ := ih.1 hv
      exact ⟨u :: ws, rfl, .cons hu hws⟩
    · rintro ⟨_, rfl, hu⟩
      cases hu with
      | @cons _ u _ ws hu hws => exact ⟨u, ws.flatten, rfl, hu, ih.2 ⟨ws, rfl, hws⟩⟩

theorem not_matches_append_someDirs {init : List Token} {ws : List (List Char)}
    (hws : ArePieces ws) :
    ¬ Matches (init ++ [.someDirs, .subtree]) (['/'].intercalate ws) := by
  intro h
  obtain ⟨u, v, heq, -, x, y, rfl, hx, hy⟩ := matches_append.1 h
  refine not_matches_someDirs_subtree hws ⟨u ++ x, y, ?_, ?_, hy⟩
  · rw [heq, List.append_assoc]
  · rw [Token.Admits, List.getLast?_append, show x.getLast? = some '/' from hx, Option.some_or]

section

variable [Limit]

theorem tokens_of_fits {pattern : String} (h : (compile pattern).tokens.isSome) :
    (compile pattern).tokens = some (Token.ofChars (clean pattern).toList) := by
  simp only [compile] at h ⊢
  split
  · rfl
  · next hfits => simp [hfits] at h

theorem test_iff_matches {pattern path p : String} {ts : List Token}
    (hcut : Cut true (clean pattern).toList ts) (hfits : (compile pattern).tokens.isSome)
    (hp : Path.normalize path = some p) :
    (compile pattern).test path = true ↔ ¬ EndsInDirs ts ∧ Matches ts p.toList := by
  rw [test, hp, Option.any_some, testCanonical, tokens_of_fits hfits, Option.any_some,
    accepts_iff, Token.ofChars, hcut.ofLexemes_eq]
  by_cases hend : EndsInDirs ts
  · refine iff_of_false ?_ fun h => h.1 hend
    obtain ⟨init, rfl⟩ := hend
    have hjoin : ['/'].intercalate (p.toList.splitOn '/') = p.toList := List.intercalate_splitOn _
    rw [compiledTokens_append, ← hjoin]
    exact not_matches_append_someDirs (arePieces_splitOn_of_normalize hp)
  · rw [compiledTokens_eq_self hend, and_iff_right hend]

theorem fits_of_test {pattern path : String} (h : (compile pattern).test path = true) :
    (compile pattern).tokens.isSome := by
  simp only [test, testCanonical, Option.any_eq_true] at h
  obtain ⟨-, -, ts, hts, -⟩ := h
  rw [hts]
  rfl

/-- A pattern matches the paths that are concatenations of texts admitted by the tokens that it is
cut into, in order, unless it ends in stars right behind whole directories. -/
theorem test_iff_flatten {pattern : String} (hfits : (compile pattern).tokens.isSome) :
    ∃ ts, (∀ us, Cut true (clean pattern).toList us ↔ us = ts) ∧
      ∀ path, (compile pattern).test path = true ↔ ¬ EndsInDirs ts ∧
        ∃ p ws, Path.normalize path = some p ∧ p.toList = ws.flatten ∧
          List.Forall₂ Token.Admits ts ws := by
  obtain ⟨ts, hcut⟩ := Cut.exists_cut true (clean pattern).toList
  refine ⟨ts, fun us => ⟨fun h => h.unique hcut, fun h => h ▸ hcut⟩, fun path => ?_⟩
  cases hp : Path.normalize path with
  | none => simp [test, hp]
  | some p =>
    rw [test_iff_matches hcut hfits hp, matches_iff_flatten]
    simp

end

theorem flatten_of_test_stars :
    let pattern := " \\a(*/***/b**?/**"
    let ts : List Token := [.lit 'a', .lit '(', .star, .lit '/', .anyDirs, .lit 'b', .anything,
      .one, .subtree]
    (compile pattern).tokens.isSome ∧ Cut true (clean pattern).toList ts ∧
      ∃ p ws, Path.normalize "a(x\\y/./b\nz/c" = some p ∧ p.toList = ws.flatten ∧
        List.Forall₂ Token.Admits ts ws := by
  intro pattern ts
  have hfits : (compile pattern).tokens.isSome := by decide +kernel
  have htest : (compile pattern).test "a(x\\y/./b\nz/c" = true := by decide +kernel
  have hclean : (clean pattern).toList = 'a' :: '(' :: '*' :: '/' ::
      (['*', '*', '*'] ++ '/' :: 'b' :: (['*', '*'] ++ ['?', '/', '*', '*'])) := by
    decide +kernel
  have hcut : Cut true (clean pattern).toList ts := by
    rw [hclean]
    have hend : Cut false ['?', '/', '*', '*'] [.one, .subtree] := .one (.subtree (by decide))
    have hb : Cut true ('b' :: (['*', '*'] ++ ['?', '/', '*', '*']))
        [.lit 'b', .anything, .one, .subtree] :=
      .lit (by decide) (by decide) nofun (.anything (by decide) (by decide) nofun hend)
    exact .lit (by decide) (by decide) nofun (.lit (by decide) (by decide) nofun
      (.star (by decide) (.lit (by decide) (by decide) (by decide) (.anyDirs (by decide) hb))))
  obtain ⟨us, hunique, hlanguage⟩ := test_iff_flatten hfits
  obtain rfl := (hunique ts).1 hcut
  exact ⟨hfits, hcut, ((hlanguage _).1 htest).2⟩

end TreeSelection.Glob
