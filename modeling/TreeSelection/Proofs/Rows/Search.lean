import TreeSelection.Proofs.Path.Pieces
import TreeSelection.Proofs.Rows.Preorder
import TreeSelection.Proofs.Text.LowerCase
import TreeSelection.Proofs.Tree.Below

namespace TreeSelection.Tree

variable {t : Tree} {n : Node}

/-- The rows show the nodes whose paths hold the text as it is typed, and all that is above them. -/
def ShowsTyped (t : Tree) (rows : List Row) (text : String) : Prop :=
  ∀ n ∈ t.allNodes, text.toList <:+: n.label.path.toList →
    ∀ m ∈ n :: t.ancestors n, ⟨(t.ancestors m).length, m⟩ ∈ rows

instance (t : Tree) (rows : List Row) (text : String) : Decidable (t.ShowsTyped rows text) :=
  inferInstanceAs (Decidable (∀ n ∈ _, _ → ∀ m ∈ _, _))

theorem isHit_of_mem_ancestors {term : String} (hn : n.IsHit term) {m : Node}
    (hm : m ∈ n :: t.ancestors n) : m.IsHit term := by
  rcases List.mem_cons.1 hm with rfl | hm
  · exact hn
  · have hbelow : n ∈ m.children.allNodes := by simpa using (List.mem_filter.1 hm).2
    obtain ⟨k, hk, hfound⟩ := hn
    refine ⟨k, List.mem_cons_of_mem _ ?_, hfound⟩
    rcases List.mem_cons.1 hk with rfl | hk
    · exact hbelow
    · exact mem_allNodes_of_mem_children hbelow hk

theorem mem_rows_of_isSettled (h : t.allNodes.Nodup) {search : String}
    (hsearch : Text.trim search ≠ "") (hsettled : Text.IsSettled (Text.trim search))
    (hn : n ∈ t.allNodes) (htyped : (Text.trim search).toList <:+: n.label.path.toList)
    {m : Node} (hm : m ∈ n :: t.ancestors n) (collapsed : TextSet) :
    ⟨(t.ancestors m).length, m⟩ ∈ t.rows collapsed search := by
  have hhit : n.IsHit (searchTerm search) :=
    ⟨n, List.mem_cons_self, hsettled.lowerCase_infix htyped⟩
  have hmem : m ∈ t.allNodes := by
    rcases List.mem_cons.1 hm with rfl | hm
    · exact hn
    · exact List.mem_of_mem_filter hm
  exact (mem_rows_iff h).2
    ⟨hmem, (isShown_iff_isHit hsearch).2 (isHit_of_mem_ancestors hhit hm), rfl⟩

theorem leadsBelow_of_mem_children {es : List Entry} (hn : n ∈ (ofEntries es).allNodes) {m : Node}
    (hm : m ∈ n.children.allNodes) : Entry.LeadsBelow n.label.path es := by
  have hbelow : Path.IsBelow n.label.path m.label.path := (shaped_ofEntries es).isBelow hn hm
  have hpath : m.label.path ∈ (ofEntries es).paths :=
    List.mem_map_of_mem (mem_allNodes_of_mem_children hn hm)
  rcases Declaration.declares_iff.2 (mem_paths_ofEntries.1 hpath) with ⟨e, he, hp⟩ | hleads
  · exact ⟨e, he, _, hp, hbelow⟩
  · obtain ⟨e, he, p, hp, hdeep⟩ := hleads
    exact ⟨e, he, p, hp, Path.IsBelow.trans hbelow hdeep⟩

theorem isSolid_of_mem_borders {c : Char} (hc : c ∈ Text.borders) : Path.IsSolid c := by
  rcases Text.mem_borders.1 hc with rfl | rfl | rfl | rfl <;>
    exact ⟨by decide, by decide, by decide⟩

theorem exists_of_only_file {p : String} (hp : Path.normalize p = some p) :
    ∃ n ∈ (ofEntries [⟨p, .file, {}⟩]).allNodes, n.label.path = p :=
  List.mem_map.1 (mem_paths_ofEntries.2 (Declaration.declares_iff.1
    (.inl ⟨_, List.mem_singleton_self _, hp⟩)))

theorem isHit_of_only_file {p : String} (hp : Path.normalize p = some p) {term : String}
    (hn : n ∈ (ofEntries [⟨p, .file, {}⟩]).allNodes) (hpath : n.label.path = p)
    (hhit : n.IsHit term) : term.toList <:+: (Text.lowerCase p).toList := by
  obtain ⟨m, hm, hfound⟩ := hhit
  rcases List.mem_cons.1 hm with rfl | hm
  · exact hpath ▸ hfound
  · obtain ⟨e, he, q, hq, hbelow⟩ := leadsBelow_of_mem_children hn hm
    obtain rfl := List.mem_singleton.1 he
    obtain rfl : p = q := Option.some.inj (hp.symm.trans hq)
    exact absurd (hpath ▸ hbelow) (Path.not_isBelow_self p)

/-- A search shows whatever holds its text as it is typed, in any listing and with anything
collapsed, exactly when the text is settled, unless it is one that no path can hold. -/
theorem showsTyped_rows_iff {search : String} (h : Text.trim search ≠ "") :
    (∀ es collapsed, (ofEntries es).ShowsTyped ((ofEntries es).rows collapsed search)
        (Text.trim search)) ↔
      ((∃ p, Path.normalize p = some p ∧ (Text.trim search).toList <:+: p.toList) →
        Text.IsSettled (Text.trim search)) := by
  constructor
  · rintro hshows ⟨p, hp, htext⟩
    by_contra hsettled
    obtain ⟨x, hx, y, hy, hlost⟩ := Text.exists_borders_of_not_isSettled hsettled
    have hq := Path.normalize_between hp htext (isSolid_of_mem_borders hx)
      (isSolid_of_mem_borders hy)
    generalize hdef : String.ofList (x :: ((Text.trim search).toList ++ [y])) = q at hq
    have hchars : q.toList = x :: ((Text.trim search).toList ++ [y]) := by
      rw [← hdef, String.toList_ofList]
    obtain ⟨n, hn, hpath⟩ := exists_of_only_file hq
    have hrow := hshows [⟨q, .file, {}⟩] .empty n hn
      (by rw [hpath, hchars]; exact ⟨[x], [y], rfl⟩) n List.mem_cons_self
    have hnodup := (shaped_ofEntries [⟨q, .file, {}⟩]).nodup_allNodes
    have hhit := (isShown_iff_isHit h).1 ((mem_rows_iff hnodup).1 hrow).2.1
    have hfound := isHit_of_only_file hq hn hpath hhit
    rw [Text.toList_lowerCase q, hchars] at hfound
    exact hlost hfound
  · intro hsettled es collapsed n hn htyped m hm
    have hp : Path.normalize n.label.path = some n.label.path :=
      (shaped_ofEntries es).normalize_path hn
    exact mem_rows_of_isSettled (shaped_ofEntries es).nodup_allNodes h (hsettled ⟨_, hp, htyped⟩) hn
      htyped hm collapsed

theorem showsTyped_rows_sigma : Text.trim " Σίγμα-Σ " ≠ "" ∧ ∀ es collapsed,
    (ofEntries es).ShowsTyped ((ofEntries es).rows collapsed " Σίγμα-Σ ")
      (Text.trim " Σίγμα-Σ ") :=
  have h : Text.trim " Σίγμα-Σ " ≠ "" := by decide
  ⟨h, (showsTyped_rows_iff h).2 fun _ => by decide +kernel⟩

theorem not_showsTyped_rows_final_sigma :
    let t := ofEntries [⟨"ΑΣΒ", .file, {}⟩]
    Text.trim "ΑΣ" ≠ "" ∧ ¬ t.ShowsTyped (t.rows .empty "ΑΣ") (Text.trim "ΑΣ") := by
  decide +kernel

end TreeSelection.Tree
