import Mathlib.Logic.ExistsUnique
import TreeSelection.Proofs.Path.Pieces

namespace TreeSelection.Path

inductive IsCut : List Char → List (List Char) → Prop
  | word {w : List Char} (hw : ∀ c ∈ w, isSeparator c = false) : IsCut w [w]
  | cons {w cs : List Char} {sep : Char} {ws : List (List Char)}
      (hw : ∀ c ∈ w, isSeparator c = false) (hsep : isSeparator sep = true) (h : IsCut cs ws) :
      IsCut (w ++ sep :: cs) (w :: ws)

def HasSegments (s : String) (ss : List String) : Prop :=
  ∃ ws, IsCut s.toList ws ∧ ss = (ws.filter fun w => w ≠ [] ∧ w ≠ ['.']).map .ofList

def IsRefused (s : String) : Prop := '\x00' ∈ s.toList ∨ ∃ ss, HasSegments s ss ∧ ".." ∈ ss

variable {a b s p q : String} {sep : Char} {cs w : List Char} {ws : List (List Char)}
  {ss ts : List String}

theorem IsCut.cons_char (h : IsCut cs (w :: ws)) {c : Char} (hc : isSeparator c = false) :
    IsCut (c :: cs) ((c :: w) :: ws) := by
  cases h with
  | word hw => exact .word (List.forall_mem_cons.2 ⟨hc, hw⟩)
  | cons hw hsep h => exact .cons (List.forall_mem_cons.2 ⟨hc, hw⟩) hsep h

theorem isCut_splitOnP (cs : List Char) : IsCut cs (cs.splitOnP isSeparator) := by
  induction cs with
  | nil => exact .word nofun
  | cons c cs ih =>
    rw [List.splitOnP_cons_eq_if_modifyHead]
    split
    · next hc => exact .cons (w := []) nofun hc ih
    · next hc =>
      obtain ⟨w, ws, heq⟩ := List.exists_cons_of_ne_nil (List.splitOnP_ne_nil isSeparator cs)
      rw [heq] at ih ⊢
      exact ih.cons_char (by simpa using hc)

theorem isCut_iff : IsCut cs ws ↔ ws = cs.splitOnP isSeparator := by
  constructor
  · intro h
    induction h with
    | word hw => exact (List.splitOnP_eq_singleton hw).symm
    | cons hw hsep _ ih => rw [List.splitOnP_append_cons_of_forall_mem hw _ hsep, ih]
  · rintro rfl
    exact isCut_splitOnP cs

theorem hasSegments_iff : HasSegments s ss ↔ ss = (pieces s.toList).map .ofList := by
  have hkept (w : List Char) : decide (w ≠ [] ∧ w ≠ ['.']) = (w != [] && w != ['.']) := by
    rw [Bool.eq_iff_iff]
    simp
  simp only [HasSegments, isCut_iff, exists_eq_left, pieces, hkept]

theorem isRefused_iff (h : HasSegments s ss) :
    IsRefused s ↔ '\x00' ∈ s.toList ∨ ".." ∈ ss := by
  simp only [IsRefused, hasSegments_iff, exists_eq_left, ← hasSegments_iff.1 h]

theorem segments?_eq_some_iff : segments? s = some ss ↔
    HasSegments s ss ∧ ¬ IsRefused s ∧ ss ≠ [] := by
  have hdots : ".." ∈ (pieces s.toList).map .ofList ↔ ['.', '.'] ∈ pieces s.toList :=
    List.mem_map_of_injective fun _ _ heq => String.ofList_injective heq
  have hrefused := isRefused_iff (hasSegments_iff.2 rfl : HasSegments s _)
  rw [hdots] at hrefused
  simp only [segments?, Option.ite_none_left_eq_some, Option.some.injEq, ← or_assoc, ← hrefused,
    not_or, hasSegments_iff]
  constructor
  · rintro ⟨⟨hfree, hne⟩, rfl⟩
    exact ⟨rfl, hfree, by simpa using hne⟩
  · rintro ⟨rfl, hfree, hne⟩
    exact ⟨⟨hfree, by simpa using hne⟩, rfl⟩

theorem segments?_eq_none_iff (h : HasSegments s ss) :
    segments? s = none ↔ IsRefused s ∨ ss = [] := by
  have hsome (ts : List String) : segments? s = some ts ↔ ts = ss ∧ ¬ IsRefused s ∧ ts ≠ [] := by
    rw [segments?_eq_some_iff, hasSegments_iff, hasSegments_iff.1 h]
  simp only [Option.eq_none_iff_forall_ne_some, Ne, hsome, not_and, forall_eq, not_not,
    or_iff_not_imp_left]

theorem hasSegments_append (ha : HasSegments a ss) (hb : HasSegments b ts)
    (hsep : isSeparator sep = true) : HasSegments (a ++ .singleton sep ++ b) (ss ++ ts) := by
  rw [hasSegments_iff] at ha hb ⊢
  simp only [ha, hb, pieces, String.toList_append, String.toList_singleton, List.append_assoc,
    List.singleton_append, List.splitOnP_append_cons _ _ hsep, List.filter_append, List.map_append]

theorem isRefused_append (hsep : isSeparator sep = true) :
    IsRefused (a ++ .singleton sep ++ b) ↔ IsRefused a ∨ IsRefused b := by
  have ha : HasSegments a _ := hasSegments_iff.2 rfl
  have hb : HasSegments b _ := hasSegments_iff.2 rfl
  have hnul : '\x00' ≠ sep := by
    rintro rfl
    cases hsep
  rw [isRefused_iff (hasSegments_append ha hb hsep), isRefused_iff ha, isRefused_iff hb]
  simp only [String.toList_append, String.toList_singleton, List.mem_append, List.mem_singleton,
    hnul, or_false]
  exact or_or_or_comm

theorem segments?_append (hsep : isSeparator sep = true) (ha : segments? a = some ss)
    (hb : segments? b = some ts) : segments? (a ++ .singleton sep ++ b) = some (ss ++ ts) := by
  rw [segments?_eq_some_iff] at ha hb ⊢
  refine ⟨hasSegments_append ha.1 hb.1 hsep, ?_, List.append_ne_nil_of_left_ne_nil ha.2.2 ts⟩
  rw [isRefused_append hsep]
  exact not_or.2 ⟨ha.2.1, hb.2.1⟩

theorem join_append {ss ts : List String} (hss : ss ≠ []) (hts : ts ≠ []) :
    join (ss ++ ts) = join ss ++ "/" ++ join ts := by
  rw [← String.toList_inj]
  simp only [String.toList_append, toList_join, List.map_append]
  rw [List.intercalate_append (by simpa using hss) (by simpa using hts)]
  simp

/-- What a text with these segments denotes: nothing at all, or the path that they make, in a
spelling that denotes itself. -/
structure Normalizes (s : String) (ss : List String) : Prop where
  eq_none_iff : normalize s = none ↔ '\x00' ∈ s.toList ∨ ".." ∈ ss ∨ ss = []
  eq_join : ∀ p, normalize s = some p → p = "/".intercalate ss
  no_backslash : ∀ p, normalize s = some p → '\\' ∉ p.toList
  fixed : ∀ p, normalize s = some p → normalize p = some p

/-- What two texts denote with a separator between them. -/
structure Joins (a : String) (sep : Char) (b : String) : Prop where
  eq_some : ∀ p q, normalize a = some p → normalize b = some q →
    normalize (a ++ .singleton sep ++ b) = some (p ++ "/" ++ q)
  eq_none : IsRefused a ∨ IsRefused b → normalize (a ++ .singleton sep ++ b) = none

theorem normalizes (h : HasSegments s ss) : Normalizes s ss where
  eq_none_iff := by
    rw [normalize, Option.map_eq_none_iff, segments?_eq_none_iff h, isRefused_iff h, or_assoc]
  eq_join p hp := by
    obtain ⟨ts, hts, rfl⟩ := normalize_eq_some_iff.1 hp
    have hts := hasSegments_iff.1 (segments?_eq_some_iff.1 hts).1
    rw [hasSegments_iff.1 h, ← hts, join]
  no_backslash p hp hmem := by
    rcases normalize_char (normalize_of_normalize hp) hmem with heq | ⟨-, hsep⟩
    · cases heq
    · cases hsep
  fixed _ hp := normalize_of_normalize hp

theorem joins (hsep : isSeparator sep = true) : Joins a sep b where
  eq_some p q hp hq := by
    obtain ⟨ss, hss, rfl⟩ := normalize_eq_some_iff.1 hp
    obtain ⟨ts, hts, rfl⟩ := normalize_eq_some_iff.1 hq
    rw [normalize, segments?_append hsep hss hts, Option.map_some,
      join_append (segments?_eq_some hss).1 (segments?_eq_some hts).1]
  eq_none h := by
    have hsegments : HasSegments (a ++ .singleton sep ++ b) _ := hasSegments_iff.2 rfl
    rw [normalize, Option.map_eq_none_iff, segments?_eq_none_iff hsegments]
    exact .inl ((isRefused_append hsep).2 h)

theorem normalize_homomorphism :
    (∀ s, ∃! ss, HasSegments s ss) ∧ (∀ s ss, HasSegments s ss → Normalizes s ss) ∧
      ∀ a b, ∀ sep ∈ ['/', '\\'], Joins a sep b := by
  refine ⟨fun s => ⟨_, hasSegments_iff.2 rfl, fun ss h => hasSegments_iff.1 h⟩,
    fun s ss h => normalizes h, fun a b sep hsep => joins ?_⟩
  rw [List.mem_pair] at hsep
  obtain rfl | rfl := hsep <;> rfl

theorem normalize_homomorphism_mixed :
    let a := ".\\src//core/"
    let b := "./..hidden\\x.rs"
    (normalize a = some "src/core" ∧ normalize b = some "..hidden/x.rs" ∧
      normalize (a ++ "\\" ++ b) = some "src/core/..hidden/x.rs") ∧
      IsRefused "src\\.." ∧ normalize ("src\\.." ++ "/" ++ b) = none ∧
      HasSegments "/./" [] ∧ normalize "/./" = none := by
  intro a b
  obtain ⟨-, hnormalizes, hjoins⟩ := normalize_homomorphism
  have ha : normalize a = some "src/core" := by decide +kernel
  have hb : normalize b = some "..hidden/x.rs" := by decide +kernel
  have hrefused : IsRefused "src\\.." :=
    .inr ⟨["src", ".."], hasSegments_iff.2 (by decide +kernel), by decide⟩
  have hempty : HasSegments "/./" [] := hasSegments_iff.2 (by decide +kernel)
  exact ⟨⟨ha, hb, (hjoins a b '\\' (by decide)).eq_some _ _ ha hb⟩, hrefused,
    (hjoins "src\\.." b '/' (by decide)).eq_none (.inl hrefused), hempty,
    (hnormalizes _ _ hempty).eq_none_iff.2 (.inr (.inr rfl))⟩

end TreeSelection.Path
