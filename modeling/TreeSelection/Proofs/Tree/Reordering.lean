import TreeSelection.Proofs.Tree.Declared

namespace TreeSelection

namespace Declaration

def Agree (ds ds' : List Declaration) : Prop :=
  ∀ ss, (ds.filter (·.segments = ss)).map word = (ds'.filter (·.segments = ss)).map word

variable {ds ds' : List Declaration}

theorem words_eq_nil_iff {ss : List String} :
    (ds.filter (·.segments = ss)).map word = [] ↔ ∀ d ∈ ds, d.segments ≠ ss := by
  simp [List.filter_eq_nil_iff]

theorem depth_le_iff {n : Nat} : depth ds ≤ n ↔ ∀ d ∈ ds, d.segments.length ≤ n := by
  induction ds with
  | nil => simp [depth]
  | cons d ds ih =>
    rw [List.forall_mem_cons, ← ih]
    exact Nat.max_le

namespace Agree

theorem symm (h : Agree ds ds') : Agree ds' ds := fun ss => (h ss).symm

variable (h : Agree ds ds')
include h

theorem exists_mem {d : Declaration} (hd : d ∈ ds) : ∃ d' ∈ ds', d'.segments = d.segments := by
  by_contra! hnone
  exact words_eq_nil_iff.1 ((h d.segments).trans (words_eq_nil_iff.2 hnone)) d hd rfl

theorem below (name : String) : Agree (below name ds) (below name ds') := by
  intro ss
  by_cases hss : ss = []
  · have hnone (ds : List Declaration) :
        ((Declaration.below name ds).filter (·.segments = ss)).map word = [] :=
      words_eq_nil_iff.2 fun d hd => hss ▸ (mem_below.1 hd).1
    rw [hnone, hnone]
  · rw [words_below hss, words_below hss, h]

theorem word_last? (name : String) : (last? name ds).map word = (last? name ds').map word := by
  rw [last?, last?, ← List.getLast?_map, ← List.getLast?_map, h]

theorem names_subset : names ds ⊆ names ds' := by
  intro name hname
  obtain ⟨d, hd, hhead⟩ := mem_names.1 hname
  obtain ⟨d', hd', hsegments⟩ := h.exists_mem hd
  exact mem_names.2 ⟨d', hd', hsegments ▸ hhead⟩

theorem names_eq : names ds = names ds' := by
  refine congrArg TextSet.toList (TextSet.ext fun name => ?_)
  exact ⟨fun hname => h.names_subset hname, fun hname => h.symm.names_subset hname⟩

theorem depth_le : depth ds ≤ depth ds' := by
  rw [depth_le_iff]
  intro d hd
  obtain ⟨d', hd', hsegments⟩ := h.exists_mem hd
  exact hsegments ▸ depth_le_iff.1 le_rfl d' hd'

theorem eq_nil (hnil : ds' = []) : ds = [] := by
  rw [List.eq_nil_iff_forall_not_mem]
  intro d hd
  obtain ⟨d', hd', -⟩ := h.exists_mem hd
  simp [hnil] at hd'

theorem isDir_eq (name : String) : isDir name ds = isDir name ds' := by
  have hbelow := h.below name
  have hempty : (Declaration.below name ds).isEmpty = (Declaration.below name ds').isEmpty := by
    rw [Bool.eq_iff_iff, List.isEmpty_iff, List.isEmpty_iff]
    exact ⟨hbelow.symm.eq_nil, hbelow.eq_nil⟩
  have hany (ds : List Declaration) : (last? name ds).any (·.kind = .dir) =
      ((last? name ds).map word).any (·.1 = .dir) := by
    rw [Option.any_map]
    rfl
  rw [isDir, isDir, hempty, hany, hany, h.word_last?]

theorem attrsOf_eq (name : String) : attrsOf name ds = attrsOf name ds' := by
  have hword := h.word_last? name
  rw [attrsOf, attrsOf, h.isDir_eq]
  cases hd : last? name ds <;> cases hd' : last? name ds' <;> simp_all [word]

end Agree

theorem agree_ofEntries {es es' : List Entry}
    (h : ∀ p, Entry.declaring p es = Entry.declaring p es') :
    Agree (ofEntries es) (ofEntries es') := by
  intro ss
  by_cases hss : ss ≠ [] ∧ ∀ s ∈ ss, Path.IsName s
  · rw [words_ofEntries hss.1 hss.2, words_ofEntries hss.1 hss.2, h]
  · -- nothing is said of a way that is not one of names
    have hnone (es : List Entry) : ((ofEntries es).filter (·.segments = ss)).map word = [] := by
      refine words_eq_nil_iff.2 fun d hd heq => hss ?_
      have hproper := proper_ofEntries es
      exact heq ▸ ⟨hproper.ne_nil d hd, hproper.isName d hd⟩
    rw [hnone, hnone]

end Declaration

namespace Tree

open Declaration

theorem level_congr {ds ds' : List Declaration} (h : Agree ds ds') (depth : Nat) (above : String) :
    level depth above ds = level depth above ds' := by
  induction depth generalizing above ds ds' with
  | zero => rfl
  | succ depth ih =>
    have hbelow (name above : String) :
        level depth above (Declaration.below name ds) =
          level depth above (Declaration.below name ds') := ih (h.below name) above
    simp only [level, h.names_eq, h.isDir_eq, h.attrsOf_eq, hbelow]

theorem ofDeclarations_congr {ds ds' : List Declaration} (h : Agree ds ds') :
    ofDeclarations ds = ofDeclarations ds' := by
  rw [ofDeclarations, ofDeclarations, le_antisymm h.depth_le h.symm.depth_le, level_congr h]

theorem ofEntries_congr {es es' : List Entry}
    (h : ∀ p, Entry.declaring p es = Entry.declaring p es') : ofEntries es = ofEntries es' :=
  ofDeclarations_congr (agree_ofEntries h)

end Tree

end TreeSelection
