import TreeSelection.Proofs.Rows.Preorder
import TreeSelection.Proofs.Text.LowerCase
import TreeSelection.Proofs.Tree.Below

/-!
The rows of a tree as an outline: a row is followed by the rows of what is in its node, one deeper,
and then by a row that is no deeper than it. So the next row tells whether a directory is open.
-/

namespace TreeSelection

def Row.contents (collapsed : TextSet) (search : String) (r : Row) : List Row :=
  let term := Tree.searchTerm search
  if term.isEmpty then
    if collapsed.contains r.node.label.path then []
    else r.node.children.expandedRows collapsed (r.depth + 1)
  else r.node.children.matchingRows term (r.depth + 1)

namespace Tree

/-- Rows that show some of the nodes in their order, all at one depth and each with its contents
behind it, which are an outline of its children. -/
inductive Outline (contents : Row → List Row) : List Node → Nat → List Row → Prop
  | nil {depth : Nat} : Outline contents [] depth []
  | skip {depth : Nat} {n : Node} {ns : List Node} {rows : List Row}
      (rest : Outline contents ns depth rows) : Outline contents (n :: ns) depth rows
  | keep {depth : Nat} {n : Node} {ns : List Node} {rows : List Row}
      (inner : Outline contents n.children.nodes (depth + 1) (contents ⟨depth, n⟩))
      (rest : Outline contents ns depth rows) :
      Outline contents (n :: ns) depth (⟨depth, n⟩ :: (contents ⟨depth, n⟩ ++ rows))

namespace Outline

variable {contents : Row → List Row} {ns : List Node} {depth : Nat} {rows : List Row} {r : Row}

theorem empty : (ns : List Node) → Outline contents ns depth []
  | [] => nil
  | _ :: ns => skip (empty ns)

theorem of_head (h : Outline contents ns depth rows) (hr : r ∈ rows.head?) :
    r.depth = depth ∧ r.node ∈ ns := by
  induction h with
  | nil => cases hr
  | skip _ ih => exact (ih hr).imp_right (List.mem_cons_of_mem _)
  | keep _ _ _ _ =>
    obtain rfl := Option.some.inj hr
    exact ⟨rfl, List.mem_cons_self⟩

theorem le_depth (h : Outline contents ns depth rows) (hr : r ∈ rows) : depth ≤ r.depth := by
  induction h with
  | nil => cases hr
  | skip _ ih => exact ih hr
  | keep _ _ ihi ihr =>
    rcases List.mem_cons.1 hr with rfl | hr
    · exact Nat.le_refl _
    · rcases List.mem_append.1 hr with hr | hr
      · exact Nat.le_of_succ_le (ihi hr)
      · exact ihr hr

theorem exists_rest (h : Outline contents ns depth rows) {before after : List Row}
    (hrows : rows = before ++ r :: after) :
    Outline contents r.node.children.nodes (r.depth + 1) (contents r) ∧
      ∃ rest, after = contents r ++ rest ∧ ∀ x ∈ rest.head?, x.depth ≤ r.depth := by
  induction h generalizing before after with
  | nil => simp at hrows
  | skip _ ih => exact ih hrows
  | @keep depth n ns rows hinner hrest ihi ihr =>
    cases before with
    | nil =>
      obtain ⟨rfl, rfl⟩ := List.cons.inj hrows
      exact ⟨hinner, rows, rfl, fun x hx => (hrest.of_head hx).1.le⟩
    | cons _ before =>
      -- the row stands in the contents of the first one or behind them
      rcases List.append_eq_append_iff.1 (List.cons.inj hrows).2 with
        ⟨us, rfl, hus⟩ | ⟨us, hcontents, hus⟩
      · exact ihr hus
      · cases us with
        | nil =>
          have hfirst : rows = [] ++ r :: after := hus.symm
          exact ihr hfirst
        | cons _ us =>
          obtain ⟨rfl, rfl⟩ := List.cons.inj hus
          obtain ⟨hopen, rest, rfl, hback⟩ := ihi hcontents
          refine ⟨hopen, rest ++ rows, List.append_assoc .., fun x hx => ?_⟩
          cases rest with
          | cons y rest => exact hback x hx
          | nil =>
            have hdeep : depth + 1 ≤ r.depth := hinner.le_depth (by simp [hcontents])
            rw [(hrest.of_head hx).1]
            omega

theorem next_iff (h : Outline contents ns depth rows) {i : Nat} (hr : rows[i]? = some r) :
    (∃ next, rows[i + 1]? = some next ∧ next.depth = r.depth + 1 ∧
      next.node ∈ r.node.children.nodes) ↔ contents r ≠ [] := by
  obtain ⟨hi, rfl⟩ := List.getElem?_eq_some_iff.1 hr
  have hrows : rows = rows.take i ++ rows[i] :: rows.drop (i + 1) := by
    rw [← List.drop_eq_getElem_cons hi, List.take_append_drop]
  obtain ⟨hopen, rest, hafter, hback⟩ := h.exists_rest hrows
  rw [← List.head?_drop, hafter]
  constructor
  · rintro ⟨next, hnext, hdepth, -⟩ hnone
    rw [hnone, List.nil_append] at hnext
    have := hback next hnext
    omega
  · intro hne
    obtain ⟨x, xs, hxs⟩ := List.exists_cons_of_ne_nil hne
    obtain ⟨hdepth, hmem⟩ := hopen.of_head (r := x) (by rw [hxs]; rfl)
    exact ⟨x, by rw [hxs]; rfl, hdepth, hmem⟩

end Outline

variable {t : Tree} {collapsed : TextSet} {search : String}

theorem outline_expandedRows {contents : Row → List Row}
    (h : ∀ r, contents r = if collapsed.contains r.node.label.path then [] else
      r.node.children.expandedRows collapsed (r.depth + 1)) (t : Tree) (depth : Nat) :
    Outline contents t.nodes depth (t.expandedRows collapsed depth) := by
  induction t generalizing depth with
  | nil => exact .nil
  | file l rest ih =>
    have hnone : contents ⟨depth, .file l⟩ = [] := by
      rw [h]
      split <;> rfl
    have hkeep := Outline.keep (n := .file l) (by rw [hnone]; exact .nil) (ih depth)
    rwa [hnone] at hkeep
  | dir l children rest ihc ihr =>
    have hopen : Outline contents children.nodes (depth + 1)
        (contents ⟨depth, .dir l children⟩) := by
      rw [h]
      split
      · exact .empty _
      · exact ihc (depth + 1)
    have hkeep := Outline.keep (n := .dir l children) hopen (ihr depth)
    rwa [h] at hkeep

theorem outline_matchingRows {contents : Row → List Row} {term : String}
    (h : ∀ r, contents r = r.node.children.matchingRows term (r.depth + 1)) (t : Tree)
    (depth : Nat) : Outline contents t.nodes depth (t.matchingRows term depth) := by
  induction t generalizing depth with
  | nil => exact .nil
  | file l rest ih =>
    rw [matchingRows]
    split
    · have hkeep := Outline.keep (n := .file l) (by rw [h]; exact .nil) (ih depth)
      rwa [h] at hkeep
    · exact .skip (ih depth)
  | dir l children rest ihc ihr =>
    rw [matchingRows]
    split
    · have hkeep := Outline.keep (n := .dir l children) (by rw [h]; exact ihc (depth + 1))
        (ihr depth)
      rwa [h] at hkeep
    · exact .skip (ihr depth)

theorem outline_rows (t : Tree) (collapsed : TextSet) (search : String) :
    Outline (Row.contents collapsed search) t.nodes 0 (t.rows collapsed search) := by
  simp only [rows]
  split
  · next hnone => exact outline_expandedRows (fun r => by rw [Row.contents]; simp [hnone]) t 0
  · next hterm => exact outline_matchingRows (fun r => by rw [Row.contents]; simp [hterm]) t 0

theorem isFound_of_isBelow {term p q : String} (h : isFound term p = true)
    (hbelow : Path.IsBelow p q) : isFound term q = true := by
  rw [isFound_iff] at h ⊢
  exact h.trans (Text.lowerCase_prefix_of_slash hbelow).isInfix

theorem isHit_of_isFound (h : t.Shaped "") {term : String} {d : Node} (hd : d ∈ t.allNodes)
    (hfound : isFound term d.label.path = true) {n : Node} (hn : n ∈ d.children.allNodes) :
    n.IsHit term :=
  ⟨n, List.mem_cons_self, isFound_iff.1 (isFound_of_isBelow hfound (h.isBelow hd hn))⟩

theorem expandedRows_eq_nil_iff {depth : Nat} :
    t.expandedRows collapsed depth = [] ↔ t.nodes = [] := by
  cases t <;> simp [expandedRows, nodes]

theorem matchingRows_ne_nil (h : t.allNodes.Nodup) {term : String} {n : Node}
    (hn : n ∈ t.allNodes) (hhit : n.IsHit term) (depth : Nat) : t.matchingRows term depth ≠ [] := by
  rw [matchingRows_eq h, Ne, rowsOf_eq_nil_iff]
  intro hnone
  simpa [hhit] using hnone n hn

theorem contents_ne_nil_iff (h : t.Shaped "") {r : Row} (hr : r ∈ t.rows collapsed search)
    (hchildren : r.node.children.nodes ≠ []) : r.contents collapsed search ≠ [] ↔
      (!(searchTerm search).isEmpty || !collapsed.contains r.node.label.path) = true := by
  obtain ⟨hmem, hshown, -⟩ := (mem_rows_iff h.nodup_allNodes).1 hr
  have hinner : r.node.children.allNodes.Nodup :=
    (h.children_of_mem_allNodes hmem).nodup_allNodes
  by_cases hterm : (searchTerm search).isEmpty = true
  · by_cases hcollapsed : r.node.label.path ∈ collapsed
    · simp [Row.contents, hterm, hcollapsed]
    · simpa [Row.contents, hterm, hcollapsed, expandedRows_eq_nil_iff] using hchildren
  · rw [isShown_iff_isHit (mt searchTerm_isEmpty.2 hterm)] at hshown
    have hcontents : r.contents collapsed search ≠ [] := by
      rw [Row.contents, if_neg hterm]
      obtain ⟨m, hm, hfound⟩ := hshown
      rcases List.mem_cons.1 hm with rfl | hm
      · obtain ⟨c, hc⟩ := List.exists_mem_of_ne_nil _ hchildren
        have hc : c ∈ r.node.children.allNodes := mem_allNodes.2 ⟨c, hc, .inl rfl⟩
        exact matchingRows_ne_nil hinner hc (isHit_of_isFound h hmem (isFound_iff.2 hfound) hc) _
      · exact matchingRows_ne_nil hinner hm ⟨m, List.mem_cons_self, hfound⟩ _
    simp [hterm, hcontents]

end Tree

end TreeSelection
