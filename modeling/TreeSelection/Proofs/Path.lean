import TreeSelection.Path
import TreeSelection.Proofs.List

namespace TreeSelection.Path

structure IsName (s : String) : Prop where
  ne_empty : s ≠ ""
  ne_dot : s ≠ "."
  ne_dots : s ≠ ".."
  nul_not_mem : '\x00' ∉ s.toList
  not_separator : ∀ c ∈ s.toList, isSeparator c = false

theorem isName_ofList {cs : List Char} (hne : cs ≠ []) (hdot : cs ≠ ['.']) (hdots : cs ≠ ['.', '.'])
    (hnul : '\x00' ∉ cs) (hsep : ∀ c ∈ cs, isSeparator c = false) : IsName (.ofList cs) where
  ne_empty h := hne (String.ofList_injective h)
  ne_dot h := hdot (String.ofList_injective h)
  ne_dots h := hdots (String.ofList_injective h)
  nul_not_mem := by simpa using hnul
  not_separator := by simpa using hsep

theorem IsName.slash_not_mem (h : IsName s) : '/' ∉ s.toList :=
  fun hc => by simpa [isSeparator] using h.not_separator _ hc

@[simp] theorem join_singleton (s : String) : join [s] = s := String.intercalate_singleton

theorem join_cons_cons (s t : String) (ss : List String) :
    join (s :: t :: ss) = s ++ "/" ++ join (t :: ss) :=
  String.intercalate_cons_cons

theorem join_cons (s : String) {ss : List String} (h : ss ≠ []) :
    join (s :: ss) = s ++ "/" ++ join ss := by
  cases ss with
  | nil => exact absurd rfl h
  | cons t ss => exact join_cons_cons s t ss

theorem toList_join (ss : List String) : (join ss).toList = ['/'].intercalate (ss.map (·.toList)) :=
  String.toList_intercalate

theorem mem_toList_join {ss : List String} {c : Char} (h : c ∈ (join ss).toList) :
    c = '/' ∨ ∃ s ∈ ss, c ∈ s.toList := by
  induction ss with
  | nil => simp [join] at h
  | cons s ss ih =>
    cases ss with
    | nil => exact .inr ⟨s, by simp, by simpa using h⟩
    | cons t ss =>
      simp only [join_cons_cons, String.toList_append, List.mem_append] at h
      rcases h with (h | h) | h
      · exact .inr ⟨s, by simp, h⟩
      · exact .inl (by simpa using h)
      · exact (ih h).imp_right fun ⟨u, hu, hc⟩ => ⟨u, List.mem_cons_of_mem _ hu, hc⟩

theorem splitOn_toList_join (hss : ss ≠ []) (h : ∀ s ∈ ss, IsName s) :
    (join ss).toList.splitOn '/' = ss.map (·.toList) := by
  rw [toList_join]
  apply List.splitOn_intercalate
  · simpa using fun s hs => (h s hs).slash_not_mem
  · simpa using hss

theorem splitOnP_toList_join (hss : ss ≠ []) (h : ∀ s ∈ ss, IsName s) :
    (join ss).toList.splitOnP isSeparator = ss.map (·.toList) := by
  induction ss with
  | nil => exact absurd rfl hss
  | cons s ss ih =>
    have hs := (h s (by simp)).not_separator
    cases ss with
    | nil => simpa using List.splitOnP_eq_singleton hs
    | cons t ss =>
      have hjoin : (join (s :: t :: ss)).toList = s.toList ++ '/' :: (join (t :: ss)).toList := by
        simp [join_cons_cons]
      rw [hjoin, List.splitOnP_append_cons_of_forall_mem hs '/' (by rfl),
        ih (by simp) fun u hu => h u (List.mem_cons_of_mem _ hu)]
      rfl

theorem pieces_toList_join {ss : List String} (hss : ss ≠ []) (h : ∀ s ∈ ss, IsName s) :
    pieces (join ss).toList = ss.map (·.toList) := by
  rw [pieces, splitOnP_toList_join hss h, List.filter_eq_self]
  intro cs hcs
  obtain ⟨s, hs, rfl⟩ := List.mem_map.1 hcs
  have hempty : s.toList ≠ [] := fun hs' => (h s hs).ne_empty (String.toList_injective hs')
  have hdot : s.toList ≠ ['.'] := fun hs' => (h s hs).ne_dot (String.toList_injective hs')
  simp [hempty, hdot]

theorem segments?_join {ss : List String} (hss : ss ≠ []) (h : ∀ s ∈ ss, IsName s) :
    segments? (join ss) = some ss := by
  have hnul : '\x00' ∉ (join ss).toList := by
    intro hmem
    rcases mem_toList_join hmem with hc | ⟨s, hs, hc⟩
    · cases hc
    · exact (h s hs).nul_not_mem hc
  have hdots : ['.', '.'] ∉ ss.map (·.toList) := by
    intro hmem
    obtain ⟨s, hs, hs'⟩ := List.mem_map.1 hmem
    exact (h s hs).ne_dots (String.toList_injective hs')
  simp [segments?, pieces_toList_join hss h, hnul, hdots, hss]

theorem segments?_eq_some (h : segments? s = some ss) : ss ≠ [] ∧ ∀ t ∈ ss, IsName t := by
  simp only [segments?] at h
  split at h
  · cases h
  · next hs =>
    obtain rfl := Option.some.inj h
    simp only [not_or] at hs
    obtain ⟨hnul, hdots, hne⟩ := hs
    refine ⟨by simpa using hne, fun t ht => ?_⟩
    obtain ⟨cs, hcs, rfl⟩ := List.mem_map.1 ht
    obtain ⟨hsplit, hkeep⟩ := List.mem_filter.1 hcs
    have hmem := List.mem_of_mem_splitOnP hsplit
    simp only [bne_iff_ne, ne_eq, Bool.and_eq_true] at hkeep
    refine isName_ofList hkeep.1 hkeep.2 ?_ (fun hc => hnul (hmem _ hc).1) fun c hc => (hmem c hc).2
    rintro rfl
    exact hdots hcs

theorem join_injective {ss ts : List String} (hs : ss ≠ []) (hs' : ∀ s ∈ ss, IsName s)
    (ht : ts ≠ []) (ht' : ∀ t ∈ ts, IsName t) (h : join ss = join ts) : ss = ts := by
  have := segments?_join ht ht'
  rw [← h, segments?_join hs hs'] at this
  exact Option.some.inj this

theorem normalize_eq_some_iff :
    normalize s = some p ↔ ∃ ss, segments? s = some ss ∧ join ss = p := by
  simp [normalize]

theorem normalize_ne_empty (h : normalize s = some p) : p ≠ "" := by
  obtain ⟨ss, hss, rfl⟩ := normalize_eq_some_iff.1 h
  obtain ⟨hne, hnames⟩ := segments?_eq_some hss
  obtain ⟨t, ts, rfl⟩ := List.exists_cons_of_ne_nil hne
  have ht := (hnames t (by simp)).ne_empty
  cases ts with
  | nil => simpa using ht
  | cons u us => simp [join_cons_cons, ht]

theorem normalize_join {ss : List String} (hss : ss ≠ []) (h : ∀ s ∈ ss, IsName s) :
    normalize (join ss) = some (join ss) := by
  simp [normalize, segments?_join hss h]

theorem normalize_of_normalize (h : normalize s = some p) : normalize p = some p := by
  obtain ⟨ss, hss, rfl⟩ := normalize_eq_some_iff.1 h
  obtain ⟨hne, hnames⟩ := segments?_eq_some hss
  exact normalize_join hne hnames

theorem segments?_of_normalize (h : normalize s = some p) : segments? s = segments? p := by
  obtain ⟨ss, hss, rfl⟩ := normalize_eq_some_iff.1 h
  obtain ⟨hne, hnames⟩ := segments?_eq_some hss
  rw [hss, segments?_join hne hnames]

def IsBelow (above path : String) : Prop := (above ++ "/").toList <+: path.toList

theorem isBelow_join_iff {ts : List String} (ht : ts ≠ []) (h : ∀ t ∈ ts, IsName t) :
    IsBelow p (join ts) ↔ ∃ ss rest, ss ≠ [] ∧ rest ≠ [] ∧ ts = ss ++ rest ∧ p = join ss := by
  have hslash : ∀ w ∈ ts.map (·.toList), '/' ∉ w := by
    simpa using fun t ht => (h t ht).slash_not_mem
  have hbelow : IsBelow p (join ts) ↔ ∃ r, (join ts).toList = p.toList ++ '/' :: r := by
    simp [IsBelow, List.prefix_iff_exists_append_eq, eq_comm]
  simp only [hbelow, toList_join, List.intercalate_eq_append_cons_iff (by simpa using ht) hslash,
    List.map_eq_append_iff]
  constructor
  · rintro ⟨r, us, vs, hus, hvs, ⟨ss, rest, rfl, rfl, rfl⟩, hp, -⟩
    refine ⟨ss, rest, by simpa using hus, by simpa using hvs, rfl, ?_⟩
    rw [← String.toList_inj, toList_join, hp]
  · rintro ⟨ss, rest, hss, hrest, rfl, rfl⟩
    exact ⟨_, _, _, by simpa using hss, by simpa using hrest, ⟨ss, rest, rfl, rfl, rfl⟩,
      toList_join ss, rfl⟩

end TreeSelection.Path
