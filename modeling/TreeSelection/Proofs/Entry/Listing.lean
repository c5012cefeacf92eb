import TreeSelection.Entry.Listing
import TreeSelection.Proofs.Json.Decoder
import TreeSelection.Proofs.Json.Writing

namespace TreeSelection

open Json (Reading valuesOf)

def Kind.IsNamedBy (k : Kind) (r : Reading) : Prop :=
  r = .text (some k.name) ∨ r = .object [(.text (some k.name), .null)] .closed

theorem Kind.ofName_eq_ok {k : Kind} {name : String} :
    variants.ofName name = .ok k ↔ name = k.name := by
  constructor
  · intro h
    by_cases hfile : name = Kind.file.name
    · subst hfile
      cases h
      rfl
    · by_cases hdir : name = Kind.dir.name
      · subst hdir
        cases h
        rfl
      · simp [Json.Variants.ofName, variants, List.lookup_cons, beq_false_of_ne hfile,
          beq_false_of_ne hdir] at h
  · rintro rfl
    cases k <;> rfl

theorem Kind.read_eq_ok {k : Kind} {depth : Nat} {r : Reading} :
    variants.read (depth + 1) r = .ok k ↔ k.IsNamedBy r := by
  simp only [Json.Variants.read_eq_ok, ofName_eq_ok, exists_eq_left, IsNamedBy]

namespace Entry

def names : List String := ["path", "type", "size", "lfs", "submodule"]

/-- The members of an object give the entry. Size and flags can be left out when they are zero and
off, the others cannot, and none is there twice. -/
structure IsGivenBy (e : Entry) (ms : List (String × Reading)) : Prop where
  path : valuesOf "path" ms = [.text (some e.path)]
  kind : ∃ r, valuesOf "type" ms = [r] ∧ e.kind.IsNamedBy r
  size : valuesOf "size" ms = [.number (some (.nat e.attrs.size))] ∨
    valuesOf "size" ms = [] ∧ e.attrs.size = 0
  lfs : valuesOf "lfs" ms = [.bool e.attrs.lfs] ∨ valuesOf "lfs" ms = [] ∧ e.attrs.lfs = false
  submodule : valuesOf "submodule" ms = [.bool e.attrs.submodule] ∨
    valuesOf "submodule" ms = [] ∧ e.attrs.submodule = false

inductive IsFaulty (ms : List (String × Reading)) : Prop
  | missing {name : String} (h : name = "path" ∨ name = "type") (not_mem : name ∉ ms.map Prod.fst)
  | repeated {name : String} (h : name ∈ names) (lt_count : 1 < (ms.map Prod.fst).count name)
  | path {r : Reading} (h : ("path", r) ∈ ms) (ne : ∀ s, r ≠ .text (some s))
  | kind {s : Option String} (h : ("type", .text s) ∈ ms) (ne : ∀ k : Kind, s ≠ some k.name)
  | size {r : Reading} (h : ("size", r) ∈ ms) (ne : ∀ n, r ≠ .number (some (.nat n)))
  | flag {name : String} {r : Reading} (h : name = "lfs" ∨ name = "submodule")
      (mem : (name, r) ∈ ms) (ne : ∀ b, r ≠ .bool b)

def arrayOf (objects : List (List (String × Reading))) : Reading :=
  .array (objects.map fun ms => .object (Reading.named id ms) .closed) .closed

/-- The text is one of an array of objects with these members, in any spelling. -/
structure IsListing (objects : List (List (String × Reading))) (s : String) : Prop where
  whole : ∀ ms ∈ objects, ∀ m ∈ ms, m.2.IsWhole
  written : Json.Written (arrayOf objects).tokens s.toList

section

variable {e : Entry} {ms : List (String × Reading)} {depth : Nat}

def record (e : Entry) : Json.Record fields :=
  (e.path, e.kind, e.attrs.size, e.attrs.lfs, e.attrs.submodule, ())

theorem completes_record (depth : Nat) :
    Json.Partial.Completes id (depth + 1) ms fields (.empty fields) e.record ↔ e.IsGivenBy ms := by
  have hpath : (Json.Field.required "path" .text).Gives id (depth + 1) none (valuesOf "path" ms)
      e.path ↔ valuesOf "path" ms = [.text (some e.path)] := by
    simp [Json.Field.required_gives_iff, Json.Decoder.text_eq_ok]
  have hkind : (Json.Field.required "type" Kind.variants.read).Gives id (depth + 1) none
      (valuesOf "type" ms) e.kind ↔ ∃ r, valuesOf "type" ms = [r] ∧ e.kind.IsNamedBy r := by
    simp only [Json.Field.required_gives_iff, Kind.read_eq_ok, id_eq]
  have hsize : (Json.Field.withDefault "size" (.nat "u64") 0).Gives id (depth + 1) none
      (valuesOf "size" ms) e.attrs.size ↔
        valuesOf "size" ms = [.number (some (.nat e.attrs.size))] ∨
          valuesOf "size" ms = [] ∧ e.attrs.size = 0 := by
    simp [Json.Field.withDefault_gives_iff, Json.Decoder.nat_eq_ok]
  have hflag (name : String) (b : Bool) :
      (Json.Field.withDefault name .bool false).Gives id (depth + 1) none (valuesOf name ms) b ↔
        valuesOf name ms = [.bool b] ∨ valuesOf name ms = [] ∧ b = false := by
    simp [Json.Field.withDefault_gives_iff, Json.Decoder.bool_eq_ok]
  constructor
  · rintro ⟨gpath, gkind, gsize, glfs, gsubmodule, -⟩
    exact ⟨hpath.1 gpath, hkind.1 gkind, hsize.1 gsize, (hflag _ _).1 glfs,
      (hflag _ _).1 gsubmodule⟩
  · rintro ⟨gpath, gkind, gsize, glfs, gsubmodule⟩
    exact ⟨hpath.2 gpath, hkind.2 gkind, hsize.2 gsize, (hflag _ _).2 glfs,
      (hflag _ _).2 gsubmodule, trivial⟩

theorem decoder_eq_ok (hwhole : ∀ m ∈ ms, m.2.IsWhole) :
    decoder (depth + 2) (.object (Reading.named id ms) .closed) = .ok e ↔ e.IsGivenBy ms := by
  have hread (r : Json.Record fields) : Json.Record.read "struct RepoEntry" fields (depth + 2)
      (.object (Reading.named id ms) .closed) = .ok r ↔
        Json.Partial.Completes id (depth + 1) ms fields (.empty fields) r :=
    Json.Record.read_named_eq_ok (by decide) fun m hm => (hwhole m hm).pass
  rw [← completes_record depth, decoder, Json.map_eq_ok]
  constructor
  · rintro ⟨r, hr, rfl⟩
    exact (hread r).1 hr
  · intro h
    exact ⟨e.record, (hread _).2 h, rfl⟩

theorem sublist_of_optional {values : List Reading} {r : Reading} {p : Prop}
    (h : values = [r] ∨ values = [] ∧ p) : values.Sublist [r] := by
  rcases h with rfl | ⟨rfl, -⟩
  · exact .refl _
  · exact List.nil_sublist _

theorem IsGivenBy.sublists (h : e.IsGivenBy ms) :
    (valuesOf "path" ms).Sublist [.text (some e.path)] ∧
      (∃ r, (valuesOf "type" ms).Sublist [r] ∧ e.kind.IsNamedBy r) ∧
      (valuesOf "size" ms).Sublist [.number (some (.nat e.attrs.size))] ∧
      (valuesOf "lfs" ms).Sublist [.bool e.attrs.lfs] ∧
      (valuesOf "submodule" ms).Sublist [.bool e.attrs.submodule] := by
  obtain ⟨r, hkind, hnamed⟩ := h.kind
  refine ⟨?_, ⟨r, ?_, hnamed⟩, sublist_of_optional h.size, sublist_of_optional h.lfs,
    sublist_of_optional h.submodule⟩
  · rw [h.path]
  · rw [hkind]

theorem IsGivenBy.length_le (h : e.IsGivenBy ms) :
    ∀ name ∈ names, (valuesOf name ms).length ≤ 1 := by
  obtain ⟨hpath, ⟨r, hkind, -⟩, hsize, hlfs, hsubmodule⟩ := h.sublists
  simp only [names, List.forall_mem_cons]
  exact ⟨hpath.length_le, hkind.length_le, hsize.length_le, hlfs.length_le, hsubmodule.length_le,
    List.forall_mem_nil _⟩

theorem IsGivenBy.not_isFaulty (h : e.IsGivenBy ms) : ¬IsFaulty ms := by
  have heq {name : String} {r s : Reading} (h : (valuesOf name ms).Sublist [s])
      (mem : (name, r) ∈ ms) : r = s :=
    List.mem_singleton.1 (h.subset (Json.mem_valuesOf.2 mem))
  obtain ⟨hpath, ⟨r, hkind, hnamed⟩, hsize, hlfs, hsubmodule⟩ := h.sublists
  intro fault
  cases fault with
  | missing hname not_mem =>
    have hnil := Json.valuesOf_eq_nil.2 not_mem
    rcases hname with rfl | rfl
    · cases h.path.symm.trans hnil
    · obtain ⟨r, hr, -⟩ := h.kind
      cases hr.symm.trans hnil
  | repeated hname lt_count =>
    rw [← Json.length_valuesOf] at lt_count
    exact Nat.not_lt.2 (h.length_le _ hname) lt_count
  | path mem ne => exact ne _ (heq hpath mem)
  | kind mem ne =>
    obtain rfl := heq hkind mem
    rcases hnamed with hname | ⟨⟨⟩⟩
    exact ne _ (Reading.text.inj hname)
  | size mem ne => exact ne _ (heq hsize mem)
  | flag hname mem ne =>
    rcases hname with rfl | rfl
    · exact ne _ (heq hlfs mem)
    · exact ne _ (heq hsubmodule mem)

end

section

variable {objects : List (List (String × Reading))} {es : List Entry} {s : String}

theorem IsListing.isWhole (h : IsListing objects s) : (arrayOf objects).IsWhole :=
  ⟨Reading.areWhole_iff.2 (List.forall_mem_map.2 fun ms hms =>
    ⟨Reading.membersWhole_named (h.whole ms hms), rfl⟩), rfl⟩

theorem forall₂_decoder_iff (h : ∀ ms ∈ objects, ∀ m ∈ ms, m.2.IsWhole) (depth : Nat) :
    List.Forall₂ (fun e ms => decoder (depth + 2) (.object (Reading.named id ms) .closed) = .ok e)
      es objects ↔ List.Forall₂ IsGivenBy es objects := by
  induction objects generalizing es with
  | nil => simp
  | cons ms objects ih =>
    obtain ⟨hms, hobjects⟩ := List.forall_mem_cons.1 h
    simp only [List.forall₂_cons_right_iff, decoder_eq_ok hms, ih hobjects]

theorem listOfText_eq_ok (h : IsListing objects s) :
    listOfText s = .ok es ↔ List.Forall₂ IsGivenBy es objects := by
  -- Of the levels that a reader opens, 127, one is for the array and one for the objects in it.
  have hlist : Json.Decoder.ofText (.list decoder) s =
      Json.Decoder.list decoder (126 + 1) (arrayOf objects) :=
    Json.Decoder.ofText_of_written _ h.isWhole h.written
  rw [listOfText, Json.mapError_eq_ok, hlist, arrayOf, Json.Decoder.list_eq_ok,
    List.forall₂_map_right_iff]
  exact forall₂_decoder_iff h.whole 124

theorem not_isFaulty_of_forall₂ (h : List.Forall₂ IsGivenBy es objects) :
    ∀ ms ∈ objects, ¬IsFaulty ms := by
  have hboth := (h.imp fun _ _ h => And.intro h.not_isFaulty h).flip
  exact ((List.forall₂_and_left _ _).1 hboth).1

end

/-- A text of objects is read as the entries that they give, and as no listing when one of them has
a fault. A size is a whole number below `2 ^ 64` in decimal digits; no other numeral is one. -/
theorem listOfText_of_isListing {objects : List (List (String × Reading))} {s : String}
    (h : IsListing objects s) :
    (∀ es, listOfText s = .ok es ↔ List.Forall₂ IsGivenBy es objects) ∧
      ((∃ ms ∈ objects, IsFaulty ms) → ∃ err, listOfText s = .error err) ∧
      ∀ n cs, (Json.Token.number (some (.nat n))).Written cs ↔
        n < Nat.pow 2 64 ∧ cs = (toString n).toList := by
  refine ⟨fun es => listOfText_eq_ok h, ?_, fun n cs => Json.written_nat_iff⟩
  rintro ⟨ms, hms, hfaulty⟩
  cases hread : listOfText s with
  | error err => exact ⟨err, rfl⟩
  | ok es => exact absurd hfaulty (not_isFaulty_of_forall₂ ((listOfText_eq_ok h).1 hread) ms hms)

theorem listOfText_of_isListing_escaped :
    let objects : List (List (String × Reading)) :=
      [[("type", .text (some "dir")), ("path", .text (some "😀")),
          ("note", .array [.text none] .closed)],
        [("size", .number (some (.nat 18446744073709551615))), ("path", .text (some "a")),
          ("type", .text (some "file"))]]
    let twice : List (List (String × Reading)) :=
      [[("path", .text (some "a")), ("type", .text (some "file")), ("path", .text (some "b"))]]
    let s := "[\x7b\"type\":\"dir\",\"p\\u0061th\":\"\\ud83d\\ude00\"," ++
      "\"note\":[\"\\ud800\"]\x7d,\x7b\"size\":18446744073709551615,\"path\":\"a\",\"type\":\"file\"\x7d\n]"
    let t := "[\x7b\"path\":\"a\",\"type\":\"file\",\"p\\u0061th\":\"b\"\x7d]"
    IsListing objects s ∧ IsListing twice t ∧
      listOfText s = .ok [⟨"😀", .dir, {}⟩, ⟨"a", .file, { size := 18446744073709551615 }⟩] ∧
      ∃ err, listOfText t = .error err := by
  intro objects twice s t
  have put {u : Json.Token} {us : List Json.Token} {cs rest : List Char} (h : u.Spelled cs)
      (tail : Json.Written us rest) : Json.Written (u :: us) (cs ++ rest) :=
    .cons Json.isSpaces_nil (.spelled h) tail
  have hspace : Json.IsSpaces ['\n'] := by
    intro c hc
    obtain rfl := List.mem_singleton.1 hc
    rfl
  have hname : Json.CharsSpelled "path".toList
      (['p'] ++ (['\\', 'u', '0', '0', '6', '1'] ++ (['t'] ++ (['h'] ++ [])))) :=
    .cons (.plain (by decide) (by decide) (by decide)) <| .cons (.unit rfl) <|
      .cons (.plain (by decide) (by decide) (by decide)) <|
      .cons (.plain (by decide) (by decide) (by decide)) .nil
  have hlead : Json.codeUnit? ['d', '8', '3', 'd'] = some 0xd83d := rfl
  have htrail : Json.codeUnit? ['d', 'e', '0', '0'] = some 0xde00 := rfl
  have hface : Json.CharsSpelled "😀".toList _ :=
    .cons (.pair hlead htrail (by decide) (by decide) (by decide)) .nil
  have hunit : Json.codeUnit? ['d', '8', '0', '0'] = some 0xd800 := rfl
  have hhalf (cs : List Char) : ¬Json.CharsSpelled cs ['\\', 'u', 'd', '8', '0', '0'] := by
    intro h
    have hread := @Json.Scan.run_text [] (.ofList cs) _ (by rwa [String.toList_ofList])
    cases hread
  have hs : ∃ cs, Json.Written (arrayOf objects).tokens cs ∧ cs = s.toList :=
    ⟨_, put .openArray <| put .openObject <| put (Json.spelled_textChars "type") <| put .colon <|
      put (Json.spelled_textChars "dir") <| put .comma <| put (.text hname) <| put .colon <|
      put (.text hface) <| put .comma <| put (Json.spelled_textChars "note") <| put .colon <|
      put .openArray <| .cons Json.isSpaces_nil (.halves (.unit hunit .nil) hhalf) <|
      put .closeArray <| put .closeObject <| put .comma <| put .openObject <|
      put (Json.spelled_textChars "size") <| put .colon <| put (Json.spelled_nat (by decide)) <|
      put .comma <| put (Json.spelled_textChars "path") <| put .colon <|
      put (Json.spelled_textChars "a") <| put .comma <| put (Json.spelled_textChars "type") <|
      put .colon <| put (Json.spelled_textChars "file") <| put .closeObject <|
      .cons hspace (.spelled .closeArray) (.nil Json.isSpaces_nil), by decide +kernel⟩
  have ht : ∃ cs, Json.Written (arrayOf twice).tokens cs ∧ cs = t.toList :=
    ⟨_, put .openArray <| put .openObject <| put (Json.spelled_textChars "path") <| put .colon <|
      put (Json.spelled_textChars "a") <| put .comma <| put (Json.spelled_textChars "type") <|
      put .colon <| put (Json.spelled_textChars "file") <| put .comma <| put (.text hname) <|
      put .colon <| put (Json.spelled_textChars "b") <| put .closeObject <| put .closeArray <|
      .nil Json.isSpaces_nil, by decide +kernel⟩
  obtain ⟨_, hs, hsame⟩ := hs
  obtain ⟨_, ht, hsame'⟩ := ht
  have hobjects : IsListing objects s := by
    refine ⟨?_, hsame ▸ hs⟩
    simp only [objects, List.forall_mem_cons]
    exact ⟨⟨trivial, trivial, ⟨⟨trivial, trivial⟩, rfl⟩, List.forall_mem_nil _⟩,
      ⟨trivial, trivial, trivial, List.forall_mem_nil _⟩, List.forall_mem_nil _⟩
  have htwice : IsListing twice t := by
    refine ⟨?_, hsame' ▸ ht⟩
    simp only [twice, List.forall_mem_cons]
    exact ⟨⟨trivial, trivial, trivial, List.forall_mem_nil _⟩, List.forall_mem_nil _⟩
  refine ⟨hobjects, htwice, ((listOfText_of_isListing hobjects).1 _).2 ?_,
    (listOfText_of_isListing htwice).2.1 ⟨_, List.mem_singleton_self _, ?_⟩⟩
  · exact .cons ⟨rfl, ⟨_, rfl, .inl rfl⟩, .inr ⟨rfl, rfl⟩, .inr ⟨rfl, rfl⟩, .inr ⟨rfl, rfl⟩⟩ <|
      .cons ⟨rfl, ⟨_, rfl, .inl rfl⟩, .inl rfl, .inr ⟨rfl, rfl⟩, .inr ⟨rfl, rfl⟩⟩ .nil
  · exact .repeated (List.mem_cons_self : "path" ∈ names) (by decide)

end Entry

end TreeSelection
