import TreeSelection.Explorer.View
import TreeSelection.Proofs.Path
import TreeSelection.Proofs.Repository
import TreeSelection.Proofs.Text.Quoted

namespace TreeSelection

namespace Repository

structure IsPlainName (s : String) : Prop where
  ne_empty : s ≠ ""
  ne_dot : s ≠ "."
  ne_dots : s ≠ ".."
  char : ∀ c ∈ s.toList, c.isAlphanum = true ∨ c ∈ ['-', '_', '.']

structure IsRefSegment (s : String) : Prop where
  ne_empty : s ≠ ""
  noSlash : '/' ∉ s.toList
  noQuery : '?' ∉ s.toList
  noFragment : '#' ∉ s.toList

structure WellFormed (r : Repository) : Prop where
  owner : IsPlainName r.owner
  name : IsPlainName r.name
  ref : ∀ ref ∈ r.ref, ∃ ss, ss ≠ [] ∧ (∀ s ∈ ss, IsRefSegment s) ∧ ref = "/".intercalate ss

variable {r r' : Repository} {cs w : List Char}

theorem isPlainName_ofList (h : isName w = true) : IsPlainName (.ofList w) := by
  have hchars := isNameChar_of_isName h
  simp only [isName, Bool.and_eq_true, Bool.not_eq_true', List.isEmpty_eq_false_iff, bne_iff_ne,
    and_assoc] at h
  obtain ⟨hne, hdot, hdots, -⟩ := h
  refine ⟨fun heq => hne (String.ofList_injective heq),
    fun heq => hdot (String.ofList_injective heq),
    fun heq => hdots (String.ofList_injective heq), fun c hc => ?_⟩
  rw [String.toList_ofList] at hc
  simpa [isNameChar, or_assoc] using hchars c hc

theorem dropStart_suffix_self (start cs : List Char) : dropStart start cs <:+ cs := by
  unfold dropStart
  split
  · exact List.drop_suffix _ _
  · exact List.suffix_refl cs

theorem dropStarts_suffix_self (starts : List String) (cs : List Char) :
    dropStarts starts cs <:+ cs := by
  induction starts generalizing cs with
  | nil => exact List.suffix_refl cs
  | cons start starts ih => exact (ih _).trans (dropStart_suffix_self start.toList cs)

theorem mem_pieces (h : w ∈ pieces cs) : w ≠ [] ∧ ∀ c ∈ w, c ∈ cs ∧ c ≠ '/' := by
  obtain ⟨hw, hne⟩ := List.mem_filter.1 h
  rw [List.splitOn_eq_splitOnP] at hw
  exact ⟨by simpa using hne, fun c hc => by simpa using List.mem_of_mem_splitOnP hw c hc⟩

theorem isRefSegment_of_mem_segments {text : List Char} (h : w ∈ segments text) :
    IsRefSegment (.ofList w) := by
  obtain ⟨hne, hchars⟩ := mem_pieces h
  have hquery (c : Char) (hc : c ∈ w) : c ≠ '?' ∧ c ≠ '#' := by
    have hmem : c ∈ beforeQuery (Text.trimmed text) :=
      (dropStarts_suffix_self starts _).subset (hchars c hc).1
    simpa using List.mem_takeWhile_imp hmem
  refine ⟨fun heq => hne (String.ofList_injective heq), ?_, ?_, ?_⟩
  all_goals
    rw [String.toList_ofList]
    intro hmem
  · exact (hchars _ hmem).2 rfl
  · exact (hquery _ hmem).1 rfl
  · exact (hquery _ hmem).2 rfl

theorem wellFormed_of_ofText {text : String} (h : ofText text = .ok r) : r.WellFormed := by
  have hsegments (w : List Char) (hw : w ∈ segments text.toList) := isRefSegment_of_mem_segments hw
  have hnames := ofText_eq_ok_iff.1 h
  generalize segments text.toList = ws at hnames hsegments
  obtain ⟨howner, -, hname, href⟩ := hnames
  refine ⟨isPlainName_ofList howner, isPlainName_ofList hname, fun ref hmem => ?_⟩
  cases href with
  | absent => cases hmem
  | @given kind ws _ hne =>
    cases hmem
    refine ⟨ws.map .ofList, by simpa using hne, ?_, rfl⟩
    simp only [List.forall_mem_map]
    intro w hw
    exact hsegments w (by simp [hw])

theorem IsPlainName.not_mem {s : String} (h : IsPlainName s) {c : Char}
    (hc : isNameChar c = false) : c ∉ s.toList := by
  intro hmem
  have hname : isNameChar c = true := by simpa [isNameChar, or_assoc] using h.char c hmem
  rw [hc] at hname
  cases hname

def mark : Option String → List Char
  | some ref => '@' :: ref.toList
  | none => []

theorem toList_text (r : Repository) :
    r.text.toList = r.owner.toList ++ '/' :: (r.name.toList ++ mark r.ref) := by
  unfold text mark
  cases r.ref <;> simp

theorem append_mark_inj {name name' : List Char} (hname : '@' ∉ name) (hname' : '@' ∉ name')
    {ref ref' : Option String} (h : name ++ mark ref = name' ++ mark ref') :
    name = name' ∧ ref = ref' := by
  cases ref with
  | none =>
    cases ref' with
    | none => exact ⟨by simpa [mark] using h, rfl⟩
    | some ref' =>
      simp only [mark, List.append_nil] at h
      simp [h] at hname
  | some ref =>
    cases ref' with
    | none =>
      simp only [mark, List.append_nil] at h
      simp [← h] at hname'
    | some ref' =>
      obtain ⟨hname, href⟩ := List.append_cons_inj hname hname' h
      exact ⟨hname, congrArg some (String.toList_injective href)⟩

theorem WellFormed.text_inj (h : r.WellFormed) (h' : r'.WellFormed) :
    r.text = r'.text ↔ r = r' := by
  refine ⟨fun heq => ?_, congrArg text⟩
  rw [← String.toList_inj, toList_text, toList_text] at heq
  obtain ⟨howner, hrest⟩ := List.append_cons_inj (h.owner.not_mem rfl) (h'.owner.not_mem rfl) heq
  obtain ⟨hname, href⟩ := append_mark_inj (h.name.not_mem rfl) (h'.name.not_mem rfl) hrest
  obtain ⟨owner, name, ref⟩ := r
  obtain ⟨owner', name', ref'⟩ := r'
  rw [Repository.mk.injEq]
  exact ⟨String.toList_injective howner, String.toList_injective hname, href⟩

/-- The two are the same if they are shown alike, by themselves or in sessions that have loaded
them. -/
structure ToldApart (r r' : Repository) : Prop where
  text_eq_iff : r.text = r'.text ↔ r = r'
  lastRepository_eq_iff : ∀ (e e' : Explorer) (es es' : List Entry),
    (e.load r es).config.lastRepository = (e'.load r' es').config.lastRepository ↔ r = r'
  view_eq_iff : ∀ (e e' : Explorer) (es es' : List Entry),
    (e.load r es).view.repository = (e'.load r' es').view.repository ↔ r = r'

theorem WellFormed.toldApart (h : r.WellFormed) (h' : r'.WellFormed) : r.ToldApart r' := by
  have hsome : some r.text = some r'.text ↔ r = r' := by
    rw [Option.some.injEq, h.text_inj h']
  exact ⟨h.text_inj h', fun _ _ _ _ => hsome, fun _ _ _ _ => hsome⟩

theorem ofText_toldApart :
    (∀ s r, ofText s = .ok r → r.WellFormed) ∧
      ∀ s s' r r', ofText s = .ok r → ofText s' = .ok r' → r.ToldApart r' :=
  ⟨fun _ _ h => wellFormed_of_ofText h,
    fun _ _ _ _ h h' => (wellFormed_of_ofText h).toldApart (wellFormed_of_ofText h')⟩

theorem ofText_toldApart_marked :
    let r : Repository := ⟨"o.x", "r", some "v1@2/o.x/r"⟩
    let r' : Repository := ⟨"o.x", "r", some "v1@2/o.x/r@v1"⟩
    ofText "o.x/r/tree/v1@2//o.x/r" = .ok r ∧
      ofText " https://github.com/o.x/r.git/blob/v1@2/o.x/r@v1/?tab=1#top" = .ok r' ∧
      r.WellFormed ∧ r.text = "o.x/r@v1@2/o.x/r" ∧ r.text ≠ r'.text := by
  intro r r'
  have hr : ofText "o.x/r/tree/v1@2//o.x/r" = .ok r := by decide +kernel
  have hr' : ofText " https://github.com/o.x/r.git/blob/v1@2/o.x/r@v1/?tab=1#top" = .ok r' := by
    decide +kernel
  have htext : r.text = "o.x/r@v1@2/o.x/r" := by decide +kernel
  obtain ⟨hwell, happart⟩ := ofText_toldApart
  exact ⟨hr, hr', hwell _ _ hr, htext, mt (happart _ _ _ _ hr hr').text_eq_iff.1 (by decide)⟩

end Repository

end TreeSelection
