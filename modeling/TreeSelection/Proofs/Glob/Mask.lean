import TreeSelection.Glob.Cache
import TreeSelection.Proofs.Glob.Matching
import TreeSelection.Proofs.Path
import TreeSelection.Proofs.Text.Blank

namespace TreeSelection

namespace Glob

theorem compile_trim [Limit] (pattern : String) :
    compile (Text.trim pattern) = compile pattern := by
  simp [compile, clean, cleaned, Text.trim, Text.trimmed_trimmed]

theorem test_of_normalize (g : Glob) {path : String} (h : Path.normalize path = some path) :
    g.test path = g.testCanonical path := by
  rw [test, h, Option.any_some]

theorem test_compile_of_isBlankText [Limit] {pattern : String} (h : Text.isBlankText pattern = true)
    (path : String) : (compile pattern).test path = false := by
  have hclean : clean pattern = "" := by
    rw [clean, cleaned, Text.trimmed_eq_nil_iff.2 h]
    rfl
  have htokens : (compile pattern).tokens = if Limit.fits [] then some [] else none := by
    simp only [compile, hclean]
    rfl
  rw [test, Option.any_eq_false]
  intro p hp
  have hne : p.toList ≠ [] := fun hnil => Path.normalize_ne_empty hp (String.toList_injective hnil)
  have hempty : accepts [] p.toList = false := by
    rw [← Bool.not_eq_true, accepts_iff]
    exact hne
  rw [testCanonical, htokens]
  split <;> simp [hempty]

namespace Cache

def Faithful [Limit] (c : Cache) : Prop := ∀ p ∈ c.compiled, p.2 = Glob.compile p.1

theorem faithful_empty [Limit] : Cache.empty.Faithful := by
  simp [Faithful, empty]

theorem Faithful.compile [Limit] {c : Cache} (h : c.Faithful) (pattern : String) :
    (c.compile pattern).1 = Glob.compile pattern ∧ (c.compile pattern).2.Faithful := by
  unfold Cache.compile
  split
  · next g hg =>
    obtain ⟨before, after, heq, -⟩ := List.lookup_eq_some_iff.1 hg
    exact ⟨h (pattern, g) (by simp [heq]), h⟩
  · refine ⟨rfl, fun p hp => ?_⟩
    rcases List.mem_append.1 hp with hp | hp
    · exact h p hp
    · rw [List.mem_singleton.1 hp]

theorem Faithful.compileAll [Limit] {c : Cache} (h : c.Faithful) (patterns : List String) :
    (c.compileAll patterns).1 = patterns.map Glob.compile ∧
      (c.compileAll patterns).2.Faithful := by
  induction patterns generalizing c with
  | nil => exact ⟨rfl, h⟩
  | cons p ps ih =>
    have hp := h.compile p
    have hps := ih hp.2
    simp only [Cache.compileAll, List.map_cons]
    exact ⟨by rw [hp.1, hps.1], hps.2⟩

theorem Faithful.mask [Limit] {c : Cache} (h : c.Faithful) (includes excludes : List String) :
    (c.mask includes excludes).1 = .ofPatterns includes excludes ∧
      (c.mask includes excludes).2.Faithful := by
  have hi := h.compileAll (includes.filter (!Text.isBlankText ·))
  have hx := hi.2.compileAll (excludes.filter (!Text.isBlankText ·))
  simp only [Cache.mask]
  exact ⟨by rw [hi.1, hx.1]; rfl, hx.2⟩

end Cache

end Glob

namespace Mask

variable (m : Mask) {path : String}

theorem accepts_of_normalize (h : Path.normalize path = some path) :
    m.accepts path = m.acceptsCanonical path := by
  rw [accepts, h, Option.any_some]

theorem rejects_of_normalize (h : Path.normalize path = some path) :
    m.rejects path = m.rejectsCanonical path := by
  rw [rejects, h, Option.any_some]

theorem not_rejectsCanonical_of_acceptsCanonical (h : m.acceptsCanonical path = true) :
    m.rejectsCanonical path = false := by
  rw [acceptsCanonical, Bool.and_eq_true] at h
  simpa using h.1

theorem rejectsCanonical_ofPatterns_iff [Glob.Limit] (includes excludes : List String)
    (h : Path.normalize path = some path) :
    (ofPatterns includes excludes).rejectsCanonical path = true ↔
      ∃ g ∈ excludes, Text.isBlankText g = false ∧ (Glob.compile g).test path = true := by
  simp only [rejectsCanonical, ofPatterns, Glob.compileSet, List.any_map, List.any_filter,
    List.any_eq_true, Function.comp_apply, Glob.test_of_normalize _ h, Bool.and_eq_true,
    Bool.not_eq_true']

theorem acceptsCanonical_ofPatterns_iff [Glob.Limit] (includes excludes : List String)
    (h : Path.normalize path = some path) :
    (ofPatterns includes excludes).acceptsCanonical path = true ↔
      (ofPatterns includes excludes).rejectsCanonical path = false ∧
        ((∀ g ∈ includes, Text.isBlankText g = true) ∨
          ∃ g ∈ includes, (Glob.compile g).test path = true) := by
  have hempty : (ofPatterns includes excludes).includes.isEmpty = true ↔
      ∀ g ∈ includes, Text.isBlankText g = true := by
    simp [ofPatterns, Glob.compileSet]
  have hany : (ofPatterns includes excludes).includes.any (·.testCanonical path) = true ↔
      ∃ g ∈ includes, (Glob.compile g).test path = true := by
    simp only [ofPatterns, Glob.compileSet, List.any_map, List.any_filter, List.any_eq_true,
      Function.comp_apply, ← Glob.test_of_normalize _ h, Bool.and_eq_true, Bool.not_eq_true']
    refine exists_congr fun g => and_congr_right fun _ => and_iff_right_of_imp fun htest => ?_
    by_contra hblank
    rw [Glob.test_compile_of_isBlankText (by simpa using hblank)] at htest
    cases htest
  rw [acceptsCanonical, Bool.and_eq_true, Bool.or_eq_true, hempty, hany, Bool.not_eq_true']

theorem acceptsCanonical_ofPatterns_nil [Glob.Limit] (path : String) :
    (ofPatterns [] []).acceptsCanonical path = true := rfl

end Mask

end TreeSelection
