import TreeSelection.Proofs.Path

namespace TreeSelection.Path

theorem normalize_eq_self_iff {p : String} :
    normalize p = some p ↔ ∀ w ∈ p.toList.splitOn '/', IsName (.ofList w) := by
  constructor
  · intro hp
    obtain ⟨ss, hss, rfl⟩ := normalize_eq_some_iff.1 hp
    obtain ⟨hne, hnames⟩ := segments?_eq_some hss
    rw [splitOn_toList_join hne hnames]
    simpa using hnames
  · intro hnames
    have hjoin : join ((p.toList.splitOn '/').map .ofList) = p := by
      rw [← String.toList_inj, toList_join, List.map_map]
      simp [Function.comp_def, List.intercalate_splitOn]
    rw [← hjoin]
    exact normalize_join (by simp) (by simpa using hnames)

theorem isName_of_mem {cs : List Char} {c : Char} (hc : c ∈ cs) (hdot : c ≠ '.')
    (hcs : ∀ d ∈ cs, d ≠ '\x00' ∧ isSeparator d = false) : IsName (.ofList cs) := by
  refine isName_ofList (List.ne_nil_of_mem hc) ?_ ?_ (fun hnul => (hcs _ hnul).1 rfl)
    fun d hd => (hcs d hd).2
  · rintro rfl
    exact hdot (by simpa using hc)
  · rintro rfl
    exact hdot (by simpa using hc)

theorem normalize_char {p : String} (hp : normalize p = some p) {c : Char} (hc : c ∈ p.toList) :
    c = '/' ∨ c ≠ '\x00' ∧ isSeparator c = false := by
  obtain ⟨ss, hss, rfl⟩ := normalize_eq_some_iff.1 hp
  refine (mem_toList_join hc).imp_right ?_
  rintro ⟨s, hs, hcs⟩
  have hname := (segments?_eq_some hss).2 s hs
  exact ⟨fun hnul => hname.nul_not_mem (hnul ▸ hcs), hname.not_separator c hcs⟩

structure IsSolid (c : Char) : Prop where
  ne_dot : c ≠ '.'
  ne_nul : c ≠ '\x00'
  not_separator : isSeparator c = false

theorem normalize_between {p : String} (hp : normalize p = some p) {cs : List Char}
    (hcs : cs <:+: p.toList) {x y : Char} (hx : IsSolid x) (hy : IsSolid y) :
    normalize (.ofList (x :: (cs ++ [y]))) = some (.ofList (x :: (cs ++ [y]))) := by
  have hslash {c : Char} (hc : IsSolid c) : c ≠ '/' := by
    rintro rfl
    exact absurd hc.not_separator (by decide)
  rw [normalize_eq_self_iff, String.toList_ofList]
  intro w hw
  have hchars : ∀ c ∈ w, c ≠ '\x00' ∧ isSeparator c = false := by
    rw [List.splitOn_eq_splitOnP] at hw
    intro c hc
    obtain ⟨hmem, hne⟩ := List.mem_of_mem_splitOnP hw c hc
    simp only [List.mem_cons, List.mem_append, List.not_mem_nil, or_false] at hmem
    rcases hmem with rfl | hmem | rfl
    · exact ⟨hx.ne_nul, hx.not_separator⟩
    · exact (normalize_char hp (hcs.subset hmem)).resolve_left (by simpa using hne)
    · exact ⟨hy.ne_nul, hy.not_separator⟩
  obtain ⟨hsep, hinfix⟩ := List.mem_splitOn_iff.1 hw
  rcases List.mem_or_infix_of_infix (hslash hx) (hslash hy) hinfix with hmem | hmem | hmem
  · exact isName_of_mem hmem hx.ne_dot hchars
  · exact isName_of_mem hmem hy.ne_dot hchars
  · refine normalize_eq_self_iff.1 hp w (List.mem_splitOn_iff.2 ⟨hsep, (hmem.trans hcs).trans ?_⟩)
    exact ⟨['/'], ['/'], rfl⟩

end TreeSelection.Path
