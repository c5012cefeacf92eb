import TreeSelection.Proofs.List
import TreeSelection.Text.Blank

namespace TreeSelection.Text

theorem trimmed_eq (cs : List Char) :
    trimmed cs = (cs.dropWhile isBlank).rdropWhile isBlank := rfl

theorem trimmed_trimmed (cs : List Char) : trimmed (trimmed cs) = trimmed cs := by
  have h : (cs.dropWhile isBlank).dropWhile isBlank = cs.dropWhile isBlank :=
    List.dropWhile_idempotent isBlank _
  rw [trimmed_eq (trimmed cs), trimmed_eq, List.dropWhile_rdropWhile h, List.rdropWhile_idempotent]

theorem trimmed_append {before core : List Char} (hbefore : ∀ c ∈ before, isBlank c = true)
    (hne : core ≠ []) (hcore : ∀ c ∈ core, isBlank c = false) (after : List Char) :
    trimmed (before ++ (core ++ after)) = core ++ after.rdropWhile isBlank := by
  have hdrop : core.dropWhile isBlank = core := by
    rw [List.dropWhile_eq_self_iff]
    exact fun _ => by simp [hcore]
  have hrdrop : core.rdropWhile isBlank = core := by
    rw [List.rdropWhile_eq_self_iff]
    exact fun hne => by simp [hcore]
  rw [trimmed_eq, List.dropWhile_append_of_pos hbefore, List.dropWhile_append, hdrop,
    if_neg (by simpa using hne), List.rdropWhile_append hrdrop]

theorem trimmed_infix (cs : List Char) : trimmed cs <:+: cs :=
  (List.rdropWhile_prefix isBlank _).isInfix.trans (List.dropWhile_suffix isBlank).isInfix

theorem trimmed_eq_self_iff {cs : List Char} : trimmed cs = cs ↔
    cs.dropWhile isBlank = cs ∧ cs.rdropWhile isBlank = cs := by
  constructor
  · intro h
    rw [← h, trimmed_eq]
    refine ⟨List.dropWhile_rdropWhile ?_, List.rdropWhile_idempotent isBlank _⟩
    exact List.dropWhile_idempotent isBlank cs
  · rintro ⟨hstart, hend⟩
    rw [trimmed_eq, hstart, hend]

theorem trimmed_eq_nil_iff {cs : List Char} : trimmed cs = [] ↔ cs.all isBlank = true := by
  rw [trimmed_eq, List.rdropWhile_eq_nil_iff]
  constructor
  · intro h
    have hself : (cs.dropWhile isBlank).dropWhile isBlank = [] := List.dropWhile_eq_nil_iff.2 h
    rw [List.dropWhile_idempotent isBlank] at hself
    simpa using List.dropWhile_eq_nil_iff.1 hself
  · intro h
    have hnil : cs.dropWhile isBlank = [] := List.dropWhile_eq_nil_iff.2 (by simpa using h)
    simp [hnil]

theorem trim_trim (s : String) : trim (trim s) = trim s := by
  simp [trim, trimmed_trimmed]

theorem trim_eq_empty_iff {s : String} : trim s = "" ↔ isBlankText s = true := by
  rw [← String.toList_inj, trim, String.toList_ofList]
  exact trimmed_eq_nil_iff

end TreeSelection.Text
