import TreeSelection.Exclusion
import TreeSelection.Proofs.Tree.Below

namespace TreeSelection.Policy

variable {p : Policy}

theorem reason?_ne_secret (inSubmodule : Bool) (file : Label) :
    p.reason? inSubmodule file ≠ some .secret := by
  unfold reason?
  split
  · simp
  · split
    · simp
    · split
      · simp
      · split <;> simp

theorem sublist_exclusionsIn (inSubmodule : Bool) (t : Tree) :
    ((p.exclusionsIn inSubmodule t).map (·.path)).Sublist t.filePaths := by
  induction t generalizing inSubmodule with
  | nil => exact List.nil_sublist _
  | file l rest ih =>
    have hrest := ih inSubmodule
    show List.Sublist _ (l.path :: rest.filePaths)
    rw [exclusionsIn]
    split
    · exact hrest.cons_cons l.path
    · exact hrest.cons l.path
  | dir l children rest ihc ihr =>
    have happend : (Tree.dir l children rest).filePaths = children.filePaths ++ rest.filePaths :=
      List.map_append
    rw [exclusionsIn, List.map_append, happend]
    exact (ihc _).append (ihr _)

theorem reason_ne_secret_of_mem_exclusionsIn {inSubmodule : Bool} {t : Tree} {x : Exclusion}
    (hx : x ∈ p.exclusionsIn inSubmodule t) : x.reason ≠ .secret := by
  induction t generalizing inSubmodule with
  | nil => cases hx
  | file l rest ih =>
    rw [exclusionsIn] at hx
    split at hx
    · next r hr =>
      rcases List.mem_cons.1 hx with rfl | hx
      · rintro rfl
        exact reason?_ne_secret inSubmodule l hr
      · exact ih hx
    · exact ih hx
  | dir l children rest ihc ihr =>
    rw [exclusionsIn] at hx
    rcases List.mem_append.1 hx with hx | hx
    · exact ihc hx
    · exact ihr hx

section

variable {t : Tree}

theorem mem_filePaths_of_mem_exclusions {x : Exclusion} (hx : x ∈ p.exclusions t) :
    x.path ∈ t.filePaths :=
  (sublist_exclusionsIn false t).subset (List.mem_map_of_mem hx)

theorem nodup_exclusions {above : String} (h : t.Shaped above) :
    ((p.exclusions t).map (·.path)).Nodup :=
  (sublist_exclusionsIn false t).nodup h.nodup_filePaths

theorem not_mem_exclusions_secret (f : String) : ⟨f, .secret⟩ ∉ p.exclusions t :=
  fun hx => reason_ne_secret_of_mem_exclusionsIn hx rfl

end

end TreeSelection.Policy
