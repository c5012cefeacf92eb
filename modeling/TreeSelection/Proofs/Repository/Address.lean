import TreeSelection.Proofs.Repository

namespace TreeSelection.Repository

def schemes : List String := ["https://", "http://"]

def hosts : List String := ["github.com/", "www.github.com/"]

def startsBehind (scheme : String) : List String := (starts.dropWhile (· != scheme)).tail

def OnGitHub (rest : List Char) : Prop := ∃ host ∈ hosts, host.toList <+: rest

instance (rest : List Char) : Decidable (OnGitHub rest) :=
  inferInstanceAs (Decidable (∃ host ∈ hosts, _))

variable {scheme host : String} {rest : List Char}

theorem dropStarts_append (ss ss' : List String) (cs : List Char) :
    dropStarts (ss ++ ss') cs = dropStarts ss' (dropStarts ss cs) := List.foldl_append

theorem dropStarts_scheme (h : scheme ∈ schemes) (cs : List Char) :
    dropStarts starts (scheme.toList ++ cs) = dropStarts (startsBehind scheme) cs := by
  simp only [schemes, List.mem_cons, List.not_mem_nil, or_false] at h
  obtain rfl | rfl := h <;> rfl

theorem dropStarts_host (hscheme : scheme ∈ schemes) (hhost : host ∈ hosts) (cs : List Char) :
    dropStarts (startsBehind scheme) (host.toList ++ cs) = cs := by
  simp only [schemes, hosts, List.mem_cons, List.not_mem_nil, or_false] at hscheme hhost
  obtain rfl | rfl := hscheme <;> obtain rfl | rfl := hhost <;> rfl

theorem beforeQuery_start {start : String} (h : start ∈ schemes ++ hosts) (cs : List Char) :
    beforeQuery (start.toList ++ cs) = start.toList ++ beforeQuery cs := by
  have hself : ∀ start ∈ schemes ++ hosts, beforeQuery start.toList = start.toList := by decide
  exact beforeQuery_append (hself start h) cs

theorem startsBehind_eq (h : scheme ∈ schemes) :
    ∃ others, startsBehind scheme = others ++ ["www.", "github.com/"] ∧
      ∀ start ∈ others, ':' ∈ start.toList.takeWhile (· != '/') := by
  simp only [schemes, List.mem_cons, List.not_mem_nil, or_false] at h
  obtain rfl | rfl := h
  · exact ⟨["http://", "git@github.com:"], by decide, by decide⟩
  · exact ⟨["git@github.com:"], by decide, by decide⟩

theorem exists_pieces_dropStarts (hscheme : scheme ∈ schemes) (hoff : ¬ OnGitHub rest)
    {first : List Char} {others : List (List Char)} (hpieces : pieces rest = first :: others)
    (hfirst : isName first = true) (hwww : first ≠ "www.".toList) :
    ∃ first', pieces (dropStarts (startsBehind scheme) rest) = first' :: others := by
  have hcolon : ':' ∉ first := fun hmem => by
    cases isNameChar_of_isName hfirst _ hmem
  obtain ⟨ss, heq, hss⟩ := startsBehind_eq hscheme
  have hdrop : dropStarts ss rest = rest :=
    dropStarts_eq_self fun start hstart =>
      not_prefix_of_pieces hpieces (hss start hstart) hcolon
  rw [heq, dropStarts_append, hdrop]
  -- Of the two starts left, the first may still be cut off the host.
  change ∃ first', pieces (dropStart "github.com/".toList (dropStart "www.".toList rest)) = _
  by_cases hstarts : "www.".toList <+: rest
  · obtain ⟨cs, rfl⟩ := hstarts
    have hgithub : ¬ "github.com/".toList <+: cs := fun ⟨path, hpath⟩ =>
      hoff ⟨"www.github.com/", by decide, path, by rw [← hpath]; rfl⟩
    obtain ⟨first', others', hslash, heq, hcs⟩ :=
      pieces_append_of_not_mem (w := "www.".toList) (by decide) (by decide) cs
    rw [hpieces, List.cons.injEq] at heq
    have hne : first' ≠ [] := fun hnil => hwww (by rw [heq.1, hnil, List.append_nil])
    rw [dropStart_append, dropStart_eq_self hgithub, hcs, pieces_word hne hslash, ← heq.2]
    exact ⟨first', rfl⟩
  · have hgithub : ¬ "github.com/".toList <+: rest := fun h =>
      hoff ⟨"github.com/", by decide, h⟩
    rw [dropStart_eq_self hstarts, dropStart_eq_self hgithub]
    exact ⟨first, hpieces⟩

/-- How an address is read, by what stands behind its scheme. On GitHub the path is read. Where
nothing else is left out the whole rest is read, with the host for the owner; an address with an
owner and a name behind its host is refused there unless the name is that of a kind of ref. -/
structure ReadsAddress (text scheme : String) (rest : List Char) : Prop where
  reads : ∀ r, ofText text = .ok r ↔
    Names (pieces (dropStarts (startsBehind scheme) (beforeQuery rest))) r
  onGitHub : ∀ host ∈ hosts, ∀ path, rest = host.toList ++ path →
    ∀ r, ofText text = .ok r ↔ Names (pieces (beforeQuery path)) r
  takesHost : (∀ start ∈ startsBehind scheme, ¬ start.toList <+: rest) →
    ∀ r, ofText text = .ok r ↔ Names (pieces (beforeQuery rest)) r
  onGitHub_of_full : ∀ host owner name more,
    pieces (beforeQuery rest) = host :: owner :: name :: more → isName host = true →
    host ≠ "www.".toList → name ≠ "tree".toList → name ≠ "blob".toList →
    ∀ r, ofText text = .ok r → OnGitHub rest

theorem readsAddress {text : String} (hscheme : scheme ∈ schemes)
    (htext : Text.trimmed text.toList = scheme.toList ++ rest) : ReadsAddress text scheme rest := by
  have hreads (r : Repository) : ofText text = .ok r ↔
      Names (pieces (dropStarts (startsBehind scheme) (beforeQuery rest))) r := by
    rw [ofText_eq_ok_iff, segments_eq, htext, beforeQuery_start (List.mem_append_left _ hscheme),
      dropStarts_scheme hscheme]
  refine ⟨hreads, ?_, ?_, ?_⟩
  · rintro host hhost path rfl r
    rw [hreads, beforeQuery_start (List.mem_append_right _ hhost), dropStarts_host hscheme hhost]
  · intro hnone r
    rw [hreads, dropStarts_eq_self fun start hstart hstarts =>
      hnone start hstart (hstarts.trans (beforeQuery_prefix_self rest))]
  · intro host owner name more hpieces hhost hwww htree hblob r hok
    by_contra hoff
    have hoff' : ¬ OnGitHub (beforeQuery rest) := fun ⟨gitHub, hmem, hstarts⟩ =>
      hoff ⟨gitHub, hmem, hstarts.trans (beforeQuery_prefix_self rest)⟩
    obtain ⟨owner', heq⟩ := exists_pieces_dropStarts hscheme hoff' hpieces hhost hwww
    rw [hreads, heq] at hok
    obtain ⟨-, -, -, href⟩ := hok
    cases href with
    | given hkind _ =>
      rw [List.mem_pair] at hkind
      obtain rfl | rfl := hkind
      · exact htree rfl
      · exact hblob rfl

theorem readsAddress_padded :
    let text := "  https://github.com/octocat/hello-world/tree/feature/x?tab=readme "
    let rest := "github.com/octocat/hello-world/tree/feature/x?tab=readme".toList
    "https://" ∈ schemes ∧ Text.trimmed text.toList = "https://".toList ++ rest ∧
      ofText text = .ok ⟨"octocat", "hello-world", some "feature/x"⟩ := by
  intro text rest
  have hscheme : "https://" ∈ schemes := by decide
  have htext : Text.trimmed text.toList = "https://".toList ++ rest := by decide +kernel
  have hreads : ReadsAddress text "https://" rest := readsAddress hscheme htext
  have href : NamesRef ["tree".toList, "feature".toList, "x".toList] (some "feature/x") :=
    .given (by decide) (by decide)
  have hnames : Names ("octocat".toList :: "hello-world".toList ::
      ["tree".toList, "feature".toList, "x".toList])
      ⟨"octocat", "hello-world", some "feature/x"⟩ :=
    .mk (by decide +kernel) rfl (by decide +kernel) href
  exact ⟨hscheme, htext, (hreads.onGitHub "github.com/" (by decide) _ rfl _).2 hnames⟩

theorem ofText_of_not_onGitHub :
    let rest := "example.com/octocat"
    Text.trimmed ("https://" ++ rest).toList = "https://".toList ++ rest.toList ∧
      ¬ OnGitHub rest.toList ∧
      ofText ("https://" ++ rest) = .ok ⟨"example.com", "octocat", none⟩ := by
  decide +kernel

end TreeSelection.Repository
