import TreeSelection.Proofs.Repository
import TreeSelection.Proofs.Text.Blank

namespace TreeSelection.Repository

def isPlain (c : Char) : Bool := c != '?' && c != '#' && !Text.isBlank c

structure IsWord (w : List Char) : Prop where
  ne_nil : w ≠ []
  noSlash : '/' ∉ w
  plain : ∀ c ∈ w, isPlain c = true

def IsRef (ref : String) : Prop :=
  ∃ ws : List String, ws ≠ [] ∧ ref = "/".intercalate ws ∧ ∀ w ∈ ws, IsWord w.toList

/-- A repository that can be written in every way. An owner with a dot in it could be taken for a
host, and a name with `.git` at its end loses it. -/
structure Spellable (r : Repository) : Prop where
  owner : isName r.owner.toList = true
  noDot : '.' ∉ r.owner.toList
  name : isName r.name.toList = true
  noGit : ¬ ".git".toList <:+ r.name.toList
  ref : ∀ ref ∈ r.ref, IsRef ref

def beginnings : List String :=
  ["https://github.com/", "http://github.com/", "https://www.github.com/", "http://www.github.com/",
    "www.github.com/", "github.com/", "git@github.com:", ""]

/-- A way of writing a reference: what stands around the owner, the name and the ref. -/
structure Spelling where
  before : String
  beginning : String
  ending : String
  kind : String
  slashes : Nat
  query : String
  after : String
  before_blank : Text.isBlankText before = true
  beginning_mem : beginning ∈ beginnings
  ending_mem : ending ∈ ["", ".git"]
  kind_mem : kind ∈ ["tree", "blob"]
  query_head : ∀ c ∈ query.toList.head?, c = '?' ∨ c = '#'
  after_blank : Text.isBlankText after = true

namespace Spelling

def path (s : Spelling) (r : Repository) : String :=
  r.owner ++ "/" ++ r.name ++ s.ending ++
    match r.ref with
    | some ref => "/" ++ s.kind ++ "/" ++ ref
    | none => ""

def address (s : Spelling) (r : Repository) : String :=
  s.beginning ++ s.path r ++ .ofList (List.replicate s.slashes '/')

def text (s : Spelling) (r : Repository) : String :=
  s.before ++ s.address r ++ s.query ++ s.after

end Spelling

variable {cs w : List Char} {ws : List (List Char)}

theorem isBlank_of_isNameChar {c : Char} (h : isNameChar c = true) : Text.isBlank c = false := by
  have hrange : 0x2d ≤ c.toNat ∧ c.toNat ≤ 0x7a := by
    unfold isNameChar Char.isAlphanum Char.isAlpha Char.isUpper Char.isLower Char.isDigit at h
    simp only [Bool.or_eq_true, Bool.and_eq_true, decide_eq_true_eq, beq_iff_eq,
      UInt32.le_iff_toNat_le, ge_iff_le] at h
    rcases h with ((((h | h) | h) | rfl) | rfl) | rfl
    · exact ⟨Nat.le_trans (by decide) h.1, Nat.le_trans h.2 (by decide)⟩
    · exact ⟨Nat.le_trans (by decide) h.1, h.2⟩
    · exact ⟨Nat.le_trans (by decide) h.1, Nat.le_trans h.2 (by decide)⟩
    all_goals decide
  rw [← Bool.not_eq_true]
  simp only [Text.isBlank, Bool.or_eq_true, Bool.and_eq_true, decide_eq_true_eq, beq_iff_eq]
  omega

theorem isPlain_of_isNameChar {c : Char} (h : isNameChar c = true) : isPlain c = true := by
  have hmark (mark : Char) (hmark : isNameChar mark = false) : c ≠ mark := by
    rintro rfl
    rw [hmark] at h
    cases h
  simp [isPlain, hmark '?' rfl, hmark '#' rfl, isBlank_of_isNameChar h]

theorem isWord_of_isNameChar (hne : w ≠ []) (h : ∀ c ∈ w, isNameChar c = true) : IsWord w where
  ne_nil := hne
  noSlash hmem := by cases h _ hmem
  plain c hc := isPlain_of_isNameChar (h c hc)

theorem isWord_of_isName (h : isName w = true) : IsWord w := by
  refine isWord_of_isNameChar ?_ (isNameChar_of_isName h)
  rintro rfl
  cases h

theorem isPlain_of_mem_intercalate (h : ∀ w ∈ ws, IsWord w) :
    ∀ c ∈ ['/'].intercalate ws, isPlain c = true := by
  induction ws with
  | nil => simp
  | cons w ws ih =>
    rw [List.forall_mem_cons] at h
    cases ws with
    | nil => simpa using h.1.plain
    | cons w' ws =>
      rw [List.intercalate_cons_cons]
      simp only [List.forall_mem_append, List.forall_mem_singleton]
      exact ⟨⟨h.1.plain, rfl⟩, ih h.2⟩

theorem beforeQuery_trimmed {before query after : List Char}
    (hbefore : ∀ c ∈ before, Text.isBlank c = true) (hne : cs ≠ []) (hcs : ∀ c ∈ cs, isPlain c = true)
    (hquery : ∀ c ∈ query.head?, c = '?' ∨ c = '#') (hafter : ∀ c ∈ after, Text.isBlank c = true) :
    beforeQuery (Text.trimmed (before ++ (cs ++ (query ++ after)))) = cs := by
  have hnil : beforeQuery ((query ++ after).rdropWhile Text.isBlank) = [] := by
    cases query with
    | nil =>
      rw [List.nil_append, List.rdropWhile_eq_nil_iff.2 hafter]
      rfl
    | cons c query =>
      obtain heq | ⟨tail, heq, -⟩ := List.prefix_cons_iff.1 (List.rdropWhile_prefix Text.isBlank
        (c :: (query ++ after)))
      · rw [List.cons_append, heq]
        rfl
      · rw [List.cons_append, heq]
        obtain rfl | rfl := hquery c rfl <;> rfl
  have hblank : ∀ c ∈ cs, Text.isBlank c = false := fun c hc => by
    simpa using (Bool.and_eq_true_iff.1 (hcs c hc)).2
  have hself : beforeQuery cs = cs :=
    List.takeWhile_eq_self_iff.2 fun c hc => (Bool.and_eq_true_iff.1 (hcs c hc)).1
  rw [Text.trimmed_append hbefore hne hblank, beforeQuery_append hself, hnil, List.append_nil]

theorem exists_dropStarts_beginning {beginning : String} (h : beginning ∈ beginnings)
    (cs : List Char) : ∃ left, left ⊆ starts ∧
      dropStarts starts (beginning.toList ++ cs) = dropStarts left cs := by
  simp only [beginnings, List.mem_cons, List.not_mem_nil, or_false] at h
  obtain rfl | rfl | rfl | rfl | rfl | rfl | rfl | rfl := h
  -- Six beginnings end in the last of the starts.
  any_goals exact ⟨[], by simp, rfl⟩
  · exact ⟨["www.", "github.com/"], by decide, rfl⟩
  · exact ⟨starts, List.Subset.refl _, rfl⟩

theorem dropStarts_beginning {beginning : String} (h : beginning ∈ beginnings)
    {owner : List Char} {others : List (List Char)} (hpieces : pieces cs = owner :: others)
    (howner : isName owner = true) (hdot : '.' ∉ owner) :
    dropStarts starts (beginning.toList ++ cs) = cs := by
  have hmark : ∀ start ∈ starts, (start.toList.takeWhile (· != '/')).any
      (fun c => c == '.' || !isNameChar c) = true := by decide
  obtain ⟨left, hleft, heq⟩ := exists_dropStarts_beginning h cs
  rw [heq]
  refine dropStarts_eq_self fun start hstart => ?_
  obtain ⟨c, hc, hmarked⟩ := List.any_eq_true.1 (hmark start (hleft hstart))
  refine not_prefix_of_pieces hpieces hc fun hmem => ?_
  rw [isNameChar_of_isName howner c hmem, Bool.not_true, Bool.or_false, beq_iff_eq] at hmarked
  exact hdot (hmarked ▸ hmem)

namespace Spelling

variable (s : Spelling) {r : Repository}

theorem dropEnd_written {name : List Char} (hgit : ¬ ".git".toList <:+ name) :
    dropEnd ".git".toList (name ++ s.ending.toList) = name := by
  obtain heq | heq := List.mem_pair.1 s.ending_mem
  · rw [heq, String.toList_empty, List.append_nil, dropEnd_eq_self hgit]
  · rw [heq, dropEnd_append]

theorem isWord_written {name : List Char} (h : isName name = true) :
    IsWord (name ++ s.ending.toList) := by
  have hending : ∀ ending ∈ ["", ".git"], ending.toList.all isNameChar = true := by decide
  refine isWord_of_isNameChar (List.append_ne_nil_of_left_ne_nil (isWord_of_isName h).ne_nil _) ?_
  rw [List.forall_mem_append]
  exact ⟨isNameChar_of_isName h, List.all_eq_true.1 (hending _ s.ending_mem)⟩

theorem isWord_kind : IsWord s.kind.toList := by
  have hkind : ∀ kind ∈ ["tree", "blob"], isName kind.toList = true := by decide
  exact isWord_of_isName (hkind _ s.kind_mem)

theorem exists_words (h : r.Spellable) : ∃ ws,
    (s.path r).toList = ['/'].intercalate (r.owner.toList :: ws) ∧
      (∀ w ∈ r.owner.toList :: ws, IsWord w) ∧ Names (r.owner.toList :: ws) r := by
  obtain ⟨owner, name, ref⟩ := r
  have hwords := And.intro (isWord_of_isName h.owner) (s.isWord_written h.name)
  have hnames {ws : List (List Char)} (href : NamesRef ws ref) :
      Names (owner.toList :: (name.toList ++ s.ending.toList) :: ws) ⟨owner, name, ref⟩ := by
    simpa using Names.mk h.owner (s.dropEnd_written h.noGit) h.name href
  cases ref with
  | none =>
    refine ⟨[name.toList ++ s.ending.toList], ?_, ?_, hnames .absent⟩
    · simp [path]
    · simpa using hwords
  | some ref =>
    obtain ⟨ws, hne, rfl, hws⟩ := h.ref ref rfl
    have href : NamesRef (s.kind.toList :: ws.map (·.toList)) (some ("/".intercalate ws)) := by
      have hne' : ws.map (·.toList) ≠ [] := by simpa using hne
      simpa [Function.comp_def] using NamesRef.given s.kind_mem hne'
    refine ⟨(name.toList ++ s.ending.toList) :: s.kind.toList :: ws.map (·.toList), ?_, ?_, ?_⟩
    · simp [path, List.intercalate_cons_of_ne_nil, hne]
    · simpa [s.isWord_kind] using ⟨hwords.1, hwords.2, hws⟩
    · exact hnames href

theorem toList_address : (s.address r).toList =
    s.beginning.toList ++ ((s.path r).toList ++ List.replicate s.slashes '/') := by
  simp [address]

theorem toList_text : (s.text r).toList =
    s.before.toList ++ ((s.address r).toList ++ (s.query.toList ++ s.after.toList)) := by
  simp [text]

theorem isPlain_of_mem_address (h : r.Spellable) :
    ∀ c ∈ (s.address r).toList, isPlain c = true := by
  have hbeginning : ∀ beginning ∈ beginnings, beginning.toList.all isPlain = true := by decide
  obtain ⟨ws, hpath, hws, -⟩ := s.exists_words h
  rw [toList_address, hpath]
  simp only [List.forall_mem_append]
  refine ⟨List.all_eq_true.1 (hbeginning _ s.beginning_mem), isPlain_of_mem_intercalate hws,
    fun c hc => ?_⟩
  rw [List.eq_of_mem_replicate hc]
  rfl

/-- However a reference to a repository is written, that repository is read. -/
theorem ofText_text (h : r.Spellable) : ofText (s.text r) = .ok r := by
  obtain ⟨ws, hpath, hws, hnames⟩ := s.exists_words h
  have hpieces : pieces ((s.path r).toList ++ List.replicate s.slashes '/') =
      r.owner.toList :: ws := by
    rw [pieces_append_slashes, hpath,
      pieces_intercalate fun w hw => ⟨(hws w hw).ne_nil, (hws w hw).noSlash⟩]
  have hne : (s.address r).toList ≠ [] := by
    rw [toList_address]
    refine List.append_ne_nil_of_right_ne_nil _ fun hnil => ?_
    rw [hnil] at hpieces
    cases hpieces
  have hbody : beforeQuery (Text.trimmed (s.text r).toList) = (s.address r).toList := by
    rw [toList_text]
    exact beforeQuery_trimmed (List.all_eq_true.1 s.before_blank) hne (s.isPlain_of_mem_address h)
      s.query_head (List.all_eq_true.1 s.after_blank)
  rw [ofText_eq_ok_iff, segments_eq, hbody, toList_address,
    dropStarts_beginning s.beginning_mem hpieces h.owner h.noDot, hpieces]
  exact hnames

theorem ofText_text_padded :
    let s : Spelling :=
      { before := " \t", beginning := "http://www.github.com/", ending := ".git", kind := "blob",
        slashes := 2, query := "?a=b c#top", after := "\n",
        before_blank := by decide +kernel, beginning_mem := by decide +kernel,
        ending_mem := by decide +kernel, kind_mem := by decide +kernel,
        query_head := fun _ h => .inl (Option.some.inj h).symm, after_blank := by decide +kernel }
    let r : Repository := ⟨"octocat", "hello.world", some "feature/x.git"⟩
    r.Spellable ∧ ofText (s.text r) = .ok r ∧ s.text r =
      " \thttp://www.github.com/octocat/hello.world.git/blob/feature/x.git//?a=b c#top\n" := by
  intro s r
  have href : IsRef "feature/x.git" := by
    refine ⟨["feature", "x.git"], by decide, by decide +kernel, ?_⟩
    rw [List.forall_mem_cons, List.forall_mem_singleton]
    exact ⟨isWord_of_isName (by decide +kernel), isWord_of_isName (by decide +kernel)⟩
  have h : r.Spellable :=
    { owner := by decide +kernel
      noDot := by decide +kernel
      name := by decide +kernel
      noGit := by decide +kernel
      ref := fun _ heq => Option.some.inj heq ▸ href }
  exact ⟨h, s.ofText_text h, by decide +kernel⟩

end Spelling

end TreeSelection.Repository
