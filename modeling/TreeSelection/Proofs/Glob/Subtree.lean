import TreeSelection.Proofs.Glob.Cut

namespace TreeSelection.Glob

def EndsInStars (pattern : String) : Prop := ['*', '*'] <:+ (clean pattern).toList

instance (pattern : String) : Decidable (EndsInStars pattern) :=
  inferInstanceAs (Decidable (_ <:+ _))

def Token.Spans (t : Token) : Prop := ∀ w v, t.Admits w → t.Admits (w ++ '/' :: v)

theorem Token.spans_anything : Token.anything.Spans := fun _ _ _ => trivial

theorem Token.spans_subtree : Token.subtree.Spans := by
  rintro w v (rfl | hw)
  · exact .inr rfl
  · exact .inr (by rw [List.head?_append, hw, Option.some_or])

def EndsSpanning (ts : List Token) : Prop := ∃ init t, ts = init ++ [t] ∧ t.Spans

theorem EndsSpanning.of_spans {t : Token} (ht : t.Spans) : EndsSpanning [t] := ⟨[], t, rfl, ht⟩

theorem EndsSpanning.cons {ts : List Token} (h : EndsSpanning ts) (t : Token) :
    EndsSpanning (t :: ts) := by
  obtain ⟨init, last, rfl, hlast⟩ := h
  exact ⟨t :: init, last, rfl, hlast⟩

theorem EndsSpanning.matches_below {ts : List Token} (h : EndsSpanning ts) {w : List Char}
    (hw : Matches ts w) (v : List Char) : Matches ts (w ++ '/' :: v) := by
  obtain ⟨init, t, rfl, ht⟩ := h
  obtain ⟨x, _, rfl, hx, y, _, rfl, hy, rfl⟩ := matches_append.1 hw
  refine matches_append.2 ⟨x, y ++ '/' :: v, ?_, hx, y ++ '/' :: v, [], ?_, ht y v hy, rfl⟩
  · simp
  · simp

theorem stars_suffix_of_ne {c : Char} (hc : c ≠ '*') {u cs : List Char}
    (h : ['*', '*'] <:+ u ++ c :: cs) : ['*', '*'] <:+ cs := by
  rcases List.suffix_or_suffix_of_suffix h (List.suffix_append u (c :: cs)) with h | h
  · refine (List.suffix_cons_iff.1 h).resolve_left fun heq => hc ?_
    exact (List.cons.inj heq).1.symm
  · exact absurd (h.subset List.mem_cons_self) (by simpa using hc)

theorem Cut.endsSpanning {b : Bool} {cs : List Char} {ts : List Token} (h : Cut b cs ts)
    (hstars : ['*', '*'] <:+ cs) : EndsSpanning ts := by
  induction h with
  | nil => simp at hstars
  | anyDirs hs h ih => exact (ih (stars_suffix_of_ne (by decide) hstars)).cons .anyDirs
  | subtree hs => exact .of_spans Token.spans_subtree
  | @anything b s cs ts hs hrun hdirs h ih =>
    cases cs with
    | nil =>
      obtain rfl : ts = [] := h.unique .nil
      exact .of_spans Token.spans_anything
    | cons c cs =>
      have hcs := stars_suffix_of_ne (by simpa using hrun) hstars
      exact (ih (hcs.trans (List.suffix_cons c cs))).cons .anything
  | @star b cs ts hrun h ih =>
    cases cs with
    | nil => exact absurd hstars (by decide)
    | cons c cs =>
      have hcs := stars_suffix_of_ne (u := ['*']) (by simpa using hrun) hstars
      exact (ih (hcs.trans (List.suffix_cons c cs))).cons .star
  | one h ih => exact (ih (stars_suffix_of_ne (u := []) (by decide) hstars)).cons .one
  | @lit b c cs ts hstar hone hsubtree h ih =>
    exact (ih (stars_suffix_of_ne (u := []) hstar hstars)).cons (.lit c)

theorem test_of_isBelow [Limit] {pattern d p : String} (hstars : EndsInStars pattern)
    (hd : Path.normalize d = some d) (htest : (compile pattern).test d = true)
    (hp : Path.normalize p = some p) (hbelow : Path.IsBelow d p) :
    (compile pattern).test p = true := by
  have hfits := fits_of_test htest
  obtain ⟨ts, hcut⟩ := Cut.exists_cut true (clean pattern).toList
  obtain ⟨hend, hmatch⟩ := (test_iff_matches hcut hfits hd).1 htest
  obtain ⟨v, hv⟩ := hbelow
  have hpath : p.toList = d.toList ++ '/' :: v := by simp [← hv]
  exact (test_iff_matches hcut hfits hp).2 ⟨hend, hpath ▸ (hcut.endsSpanning hstars).matches_below hmatch v⟩

end TreeSelection.Glob
