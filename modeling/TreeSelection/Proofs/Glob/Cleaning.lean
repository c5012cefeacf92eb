import TreeSelection.Glob.Basic
import TreeSelection.Proofs.Text.Blank

/-!
Cleaning a pattern twice. The text of a compiled pattern compiles to the same pattern, unless a
blank stood behind the slashes in front of the text that was given: blanks are trimmed before the
slashes go, so this one is left for the next time.
-/

namespace TreeSelection.Glob

open TreeSelection.Path (isSeparator)
open Text (isBlank trimmed)

def leaned (c : Char) : Char := if c == '\\' then '/' else c

theorem leaned_of_ne {c : Char} (h : c ≠ '\\') : leaned c = c := by
  simp [leaned, h]

theorem leaned_ne_backslash (c : Char) : leaned c ≠ '\\' := by
  by_cases h : c = '\\'
  · subst h
    decide
  · rwa [leaned_of_ne h]

theorem leaned_eq_slash (c : Char) : (leaned c == '/') = isSeparator c := by
  by_cases h : c = '\\'
  · subst h
    rfl
  · simp [leaned_of_ne h, isSeparator, h]

theorem isBlank_leaned (c : Char) : isBlank (leaned c) = isBlank c := by
  by_cases h : c = '\\'
  · subst h
    rfl
  · rw [leaned_of_ne h]

theorem isBlank_of_isSeparator {c : Char} (h : isSeparator c = true) : isBlank c = false := by
  rw [isSeparator, Bool.or_eq_true, beq_iff_eq, beq_iff_eq] at h
  rcases h with rfl | rfl <;> rfl

theorem cleaned_eq (cs : List Char) : cleaned cs =
    (((cs.dropWhile isBlank).dropWhile isSeparator).rdropWhile isBlank).map leaned := by
  have hslash : (· == '/') ∘ leaned = isSeparator := funext leaned_eq_slash
  calc cleaned cs
    _ = ((trimmed cs).map leaned).dropWhile (· == '/') := rfl
    _ = ((trimmed cs).dropWhile isSeparator).map leaned := by rw [List.dropWhile_map, hslash]
    _ = _ := by
      rw [Text.trimmed_eq, List.dropWhile_rdropWhile_comm fun c => isBlank_of_isSeparator]

theorem backslash_not_mem_cleaned (cs : List Char) : '\\' ∉ cleaned cs := by
  rw [cleaned_eq, List.mem_map]
  rintro ⟨c, -, hc⟩
  exact leaned_ne_backslash c hc

theorem head?_cleaned_ne_slash (cs : List Char) : (cleaned cs).head? ≠ some '/' := by
  intro h
  have hnot := List.head?_dropWhile_not (· == '/') ((trimmed cs).map leaned)
  rw [show (((trimmed cs).map leaned).dropWhile (· == '/')).head? = some '/' from h] at hnot
  cases hnot

theorem rdropWhile_cleaned (cs : List Char) : (cleaned cs).rdropWhile isBlank = cleaned cs := by
  rw [List.rdropWhile_eq_self_iff]
  intro hne
  simp only [cleaned_eq, List.getLast_map, isBlank_leaned]
  exact List.rdropWhile_last_not isBlank _ _

theorem length_cleaned_le (cs : List Char) : (cleaned cs).length ≤ (trimmed cs).length := by
  calc (cleaned cs).length
    _ ≤ ((trimmed cs).map leaned).length := List.length_dropWhile_le _ _
    _ = (trimmed cs).length := List.length_map _

structure IsClean (cs : List Char) : Prop where
  trimmed_eq : trimmed cs = cs
  head?_ne_slash : cs.head? ≠ some '/'
  backslash_not_mem : '\\' ∉ cs

theorem cleaned_eq_self_iff {cs : List Char} : cleaned cs = cs ↔ IsClean cs := by
  constructor
  · intro h
    have hlen : cs.length ≤ (trimmed cs).length :=
      (congrArg List.length h).ge.trans (length_cleaned_le cs)
    have hpart := Text.trimmed_infix cs
    exact ⟨hpart.eq_of_length (hpart.length_le.antisymm hlen), h ▸ head?_cleaned_ne_slash cs,
      h ▸ backslash_not_mem_cleaned cs⟩
  · intro h
    have hmap : cs.map leaned = cs := by
      refine (List.map_congr_left fun c hc => ?_).trans cs.map_id
      exact leaned_of_ne fun heq => h.backslash_not_mem (heq ▸ hc)
    show ((trimmed cs).map leaned).dropWhile (· == '/') = cs
    rw [h.trimmed_eq, hmap, List.dropWhile_eq_self_iff]
    intro hlen
    have hhead := h.head?_ne_slash
    rw [List.head?_eq_getElem?, List.getElem?_eq_getElem hlen] at hhead
    simpa using hhead

theorem isClean_cleaned_iff {cs : List Char} :
    IsClean (cleaned cs) ↔ (cleaned cs).dropWhile isBlank = cleaned cs := by
  constructor
  · exact fun h => (Text.trimmed_eq_self_iff.1 h.trimmed_eq).1
  · intro h
    exact ⟨Text.trimmed_eq_self_iff.2 ⟨h, rdropWhile_cleaned cs⟩, head?_cleaned_ne_slash cs,
      backslash_not_mem_cleaned cs⟩

/-- Behind the slashes in front stands a blank, with more than blanks behind it. -/
def BaresBlank (cs : List Char) : Prop :=
  ∃ before slashes b rest, cs = before ++ (slashes ++ b :: rest) ∧
    (∀ c ∈ before, isBlank c = true) ∧ (slashes ≠ [] ∧ ∀ c ∈ slashes, isSeparator c = true) ∧
      isBlank b = true ∧ ∃ c ∈ rest, isBlank c = false

theorem rdropWhile_cons_ne_nil_iff {b : Char} {rest : List Char} (hb : isBlank b = true) :
    (b :: rest).rdropWhile isBlank ≠ [] ↔ ∃ c ∈ rest, isBlank c = false := by
  simp [List.rdropWhile_eq_nil_iff, hb]

theorem BaresBlank.exists_head? {cs : List Char} (h : BaresBlank cs) :
    ∃ b, (cleaned cs).head? = some b ∧ isBlank b = true := by
  obtain ⟨before, slashes, b, rest, rfl, hbefore, ⟨hne, hslashes⟩, hb, hsolid⟩ := h
  have hstop : slashes.dropWhile isBlank = slashes := by
    rw [List.dropWhile_eq_self_iff]
    exact fun hlen => by simp [isBlank_of_isSeparator (hslashes _ (List.getElem_mem hlen))]
  have hend : ¬ isSeparator b = true := fun hsep => by simp [isBlank_of_isSeparator hsep] at hb
  have hdrop : ((before ++ (slashes ++ b :: rest)).dropWhile isBlank).dropWhile isSeparator =
      b :: rest := by
    rw [List.dropWhile_append_of_pos hbefore, List.dropWhile_append, hstop,
      if_neg (by simpa using hne), List.dropWhile_append_of_pos hslashes,
      List.dropWhile_cons_of_neg hend]
  refine ⟨leaned b, ?_, by rw [isBlank_leaned, hb]⟩
  rw [cleaned_eq, hdrop, List.head?_map,
    List.head?_rdropWhile ((rdropWhile_cons_ne_nil_iff hb).2 hsolid)]
  rfl

theorem slashes_ne_nil {cs rest : List Char} {b : Char} (hb : isBlank b = true)
    (h : (cs.dropWhile isBlank).dropWhile isSeparator = b :: rest) :
    (cs.dropWhile isBlank).takeWhile isSeparator ≠ [] := by
  intro hnil
  have hdrop : cs.dropWhile isBlank = b :: rest := by
    calc cs.dropWhile isBlank
      _ = (cs.dropWhile isBlank).takeWhile isSeparator ++
          (cs.dropWhile isBlank).dropWhile isSeparator := List.takeWhile_append_dropWhile.symm
      _ = b :: rest := by rw [hnil, h, List.nil_append]
  have hnot := List.head?_dropWhile_not isBlank cs
  rw [hdrop] at hnot
  simp [hb] at hnot

theorem baresBlank_of_head? {cs : List Char} {b : Char} (hb : (cleaned cs).head? = some b)
    (hblank : isBlank b = true) : BaresBlank cs := by
  rw [cleaned_eq, List.head?_map] at hb
  obtain ⟨b, hhead, rfl⟩ := Option.map_eq_some_iff.1 hb
  rw [isBlank_leaned] at hblank
  have hkept : ((cs.dropWhile isBlank).dropWhile isSeparator).rdropWhile isBlank ≠ [] := by
    intro hnil
    rw [hnil] at hhead
    cases hhead
  rw [List.head?_rdropWhile hkept] at hhead
  obtain ⟨rest, hrest⟩ := List.head?_eq_some_iff.1 hhead
  have hcut : cs.takeWhile isBlank ++ ((cs.dropWhile isBlank).takeWhile isSeparator ++ b :: rest) =
      cs := by
    rw [← hrest, List.takeWhile_append_dropWhile, List.takeWhile_append_dropWhile]
  have hsolid := (rdropWhile_cons_ne_nil_iff hblank).1 (hrest ▸ hkept)
  exact ⟨_, _, b, rest, hcut.symm, fun c => List.mem_takeWhile_imp,
    ⟨slashes_ne_nil hblank hrest, fun c => List.mem_takeWhile_imp⟩, hblank, hsolid⟩

theorem cleaned_cleaned_iff {cs : List Char} :
    cleaned (cleaned cs) = cleaned cs ↔ ¬ BaresBlank cs := by
  rw [cleaned_eq_self_iff, isClean_cleaned_iff]
  constructor
  · intro h hbares
    obtain ⟨b, hb, hblank⟩ := hbares.exists_head?
    have hnot := List.head?_dropWhile_not isBlank (cleaned cs)
    rw [h, hb] at hnot
    simp [hblank] at hnot
  · intro h
    cases hcs : cleaned cs with
    | nil => rfl
    | cons b rest =>
      have hb : (cleaned cs).head? = some b := by rw [hcs, List.head?_cons]
      exact List.dropWhile_cons_of_neg fun hblank => h (baresBlank_of_head? hb hblank)

theorem clean_clean_iff {pattern : String} :
    clean (clean pattern) = clean pattern ↔ ¬ BaresBlank pattern.toList := by
  rw [clean, clean, String.ofList_inj, String.toList_ofList]
  exact cleaned_cleaned_iff

theorem compile_eq_of_clean_eq [Limit] {p q : String} (h : clean p = clean q) :
    compile p = compile q := by
  simp only [compile, h]

/-- The text of the pattern compiles to a pattern of the same text that matches the same paths. -/
structure IsStable [Limit] (g : Glob) : Prop where
  pattern_eq : (compile g.pattern).pattern = g.pattern
  test_eq : ∀ path, (compile g.pattern).test path = g.test path

/-- A compiled pattern can be compiled again from its text, unless a blank stood behind the slashes
in front of the text that was given. -/
theorem isStable_compile_iff [Limit] (pattern : String) :
    (compile pattern).IsStable ↔ ¬ BaresBlank pattern.toList := by
  constructor
  · exact fun h => clean_clean_iff.1 h.pattern_eq
  · intro h
    have hsame : compile (compile pattern).pattern = compile pattern :=
      compile_eq_of_clean_eq (clean_clean_iff.2 h)
    exact ⟨by rw [hsame], fun path => by rw [hsame]⟩

theorem not_isStable_slash_blank : ¬ (compile "/ a").IsStable ∧ (compile "/ a").pattern = " a" ∧
    (compile "/ a").test " a" = true ∧ (compile " a").pattern = "a" ∧
      (compile " a").test " a" = false := by
  have hpattern : (compile "/ a").pattern = " a" := by decide +kernel
  have hagain : (compile " a").pattern = "a" := by decide +kernel
  refine ⟨fun h => ?_, hpattern, by decide +kernel, hagain, by decide +kernel⟩
  have hsame : "a" = " a" := by simpa only [hpattern, hagain] using h.pattern_eq
  exact absurd hsame (by decide)

end TreeSelection.Glob
