import TreeSelection.Export.Text
import TreeSelection.Proofs.Json.Record
import TreeSelection.Proofs.Json.Writing

namespace TreeSelection

namespace Contents

open Json (valuesOf)

variable {name : String} {d : Json.Decoder α} {a : α} {ms : List (String × Json)}

theorem single_some (h : valuesOf name ms = []) : single name d (some a) ms = .ok a := by
  induction ms with
  | nil => rfl
  | cons m ms ih =>
    have hne : m.1 ≠ name := by
      intro heq
      exact Json.valuesOf_eq_nil.1 h (heq ▸ List.mem_cons_self)
    rw [Json.valuesOf_cons_of_ne hne] at h
    rw [single, if_neg hne, ih h]

theorem single_none {v : Json} (h : valuesOf name ms = [v]) (hread : d.ofJson v = .ok a) :
    single name d none ms = .ok a := by
  induction ms with
  | nil => cases h
  | cons m ms ih =>
    obtain ⟨key, w⟩ := m
    by_cases hkey : key = name
    · subst hkey
      obtain ⟨rfl, hrest⟩ := List.cons.inj ((Json.valuesOf_cons w).symm.trans h)
      rw [single, if_pos rfl]
      simp only [hread]
      exact single_some hrest
    · rw [Json.valuesOf_cons_of_ne hkey] at h
      rw [single, if_neg hkey, ih h]

theorem ofMembers_eq_ok {contents : Contents} {ms : List (String × Json)}
    (h : ∀ m ∈ contents.members, valuesOf m.1 ms = [m.2]) : ofMembers ms = .ok contents := by
  cases contents with
  | explicit files =>
    obtain ⟨hmode, hfiles, -⟩ := List.forall_mem_cons.1 h |>.imp_right List.forall_mem_cons.1
    rw [ofMembers, single_none hmode (a := .explicit) rfl]
    show (do return explicit (← single "files" (.list .text) none ms)) = _
    have hread : Json.Decoder.ofJson (.list .text) (.texts files) = .ok files :=
      Json.Decoder.list_texts files 126
    rw [single_none hfiles hread]
    rfl
  | masks =>
    have hmode := h ("mode", .text "masks") List.mem_cons_self
    rw [ofMembers, single_none hmode (a := .masks) rfl]
    rfl

end Contents

namespace Request

open Json (valuesOf)

def names (r : Request) : List String :=
  fields.map Json.Field.name ++ r.contents.members.map Prod.fst

theorem nodup_names (r : Request) : r.names.Nodup := by
  have hexplicit : (fields.map Json.Field.name ++ ["mode", "files"]).Nodup := by decide
  rw [names]
  cases r.contents with
  | explicit files => exact hexplicit
  | masks => exact hexplicit.sublist (by simp [Contents.members])

theorem nodup_members (r : Request) : (r.toJson.members.map Prod.fst).Nodup := by
  obtain ⟨⟨_, _, ref⟩, _, _, _, contents, _, _⟩ := r
  cases ref <;> cases contents <;>
    simp [toJson, Json.members, Repository.members, Contents.members]

theorem fst_mem_names {r : Request} {m : String × Json} (h : m ∈ r.toJson.members) :
    m.1 ∈ r.names := by
  obtain ⟨⟨_, _, ref⟩, _, _, _, contents, _, _⟩ := r
  have hname := List.mem_map_of_mem (f := Prod.fst) h
  cases ref <;> cases contents <;>
    simp [names, fields, Json.Field.required, Json.Field.withDefault, toJson, Json.members,
      Repository.members, Contents.members] at hname ⊢ <;> tauto

theorem contents_subset_members (r : Request) : r.contents.members ⊆ r.toJson.members :=
  fun _ hm => List.mem_append_left _ (List.mem_append_right _ hm)

theorem ref_mem_names {r : Request} : "ref" ∈ r.names :=
  List.mem_append_left _ (by decide)

theorem ref_not_mem_members {r : Request} (h : r.repository.ref = none) :
    "ref" ∉ r.toJson.members.map Prod.fst := by
  obtain ⟨⟨_, _, ref⟩, _, _, _, contents, _, _⟩ := r
  obtain rfl : ref = none := h
  cases contents <;> simp [toJson, Json.members, Repository.members, Contents.members]

def record (r : Request) : Json.Record fields :=
  (r.repository.owner, r.repository.name, r.repository.ref, r.format, r.includes, r.excludes,
    r.selectedSize, r.fileCount, ())

theorem completes_record {r : Request} {ms : List (String × Json)} (depth : Nat)
    (h : ∀ m ∈ r.toJson.members, valuesOf m.1 ms = [m.2])
    (href : r.repository.ref = none → valuesOf "ref" ms = []) :
    Json.Partial.Completes .ofJson (depth + 1) ms fields (.empty fields) r.record := by
  obtain ⟨⟨owner, name, ref⟩, format, includes, excludes, contents, selectedSize, fileCount⟩ := r
  simp only [toJson, Json.members, Repository.members, List.forall_mem_append,
    List.forall_mem_cons] at h
  obtain ⟨⟨⟨⟨⟨howner, hname, -⟩, hgiven⟩, hformat, hincludes, hexcludes, -⟩, -⟩, hcounts⟩ := h
  obtain ⟨hsize, hcount, -⟩ := hcounts
  refine ⟨.only howner rfl, .only hname rfl, ?_, .only hformat ?_, .only hincludes ?_,
    .only hexcludes ?_, .only hsize rfl, .only hcount rfl, trivial⟩
  · cases ref with
    | none => exact .absent (href rfl) rfl
    | some ref => exact .only (hgiven ("ref", .text ref) List.mem_cons_self) rfl
  · exact Format.ofName_name format
  · exact Json.Decoder.list_texts includes depth
  · exact Json.Decoder.list_texts excludes depth

theorem ofText_of_isText {r : Request} {ms extra : List (String × Json)} {s : String}
    (hextra : ∀ m ∈ extra, m.1 ∉ r.names) (hms : ms.Perm (r.toJson.members ++ extra))
    (hdepth : (Json.object ms).depth ≤ Json.maxDepth) (hs : Json.IsText (.object ms) s) :
    ofText s = .ok r := by
  have hvalues {name : String} (hname : name ∈ r.names) :
      (valuesOf name ms).Perm (valuesOf name r.toJson.members) := by
    refine Json.valuesOf_of_perm hms fun hmem => ?_
    obtain ⟨m, hm, rfl⟩ := List.mem_map.1 hmem
    exact hextra m hm hname
  have hvalue (m : String × Json) (hm : m ∈ r.toJson.members) : valuesOf m.1 ms = [m.2] := by
    have hperm := hvalues (fst_mem_names hm)
    rw [Json.valuesOf_of_nodup r.nodup_members hm] at hperm
    exact List.perm_singleton.1 hperm
  have href (hnone : r.repository.ref = none) : valuesOf "ref" ms = [] := by
    have hown := Json.valuesOf_eq_nil.2 (ref_not_mem_members hnone)
    exact List.perm_nil.1 (hown ▸ hvalues ref_mem_names)
  have hunclaimed (m : String × Json) (hm : m ∈ r.contents.members) :
      valuesOf m.1 (Json.Record.unclaimed fields ms) = [m.2] := by
    have hfields : m.1 ∉ fields.map Json.Field.name := fun hfield =>
      (List.nodup_append.1 r.nodup_names).2.2 _ hfield _ (List.mem_map_of_mem hm) rfl
    rw [Json.Record.valuesOf_unclaimed hfields]
    exact hvalue m (contents_subset_members r hm)
  have hrecord := completes_record 125 hvalue href
  have hdepth' : Json.depthOfMembers ms ≤ 126 := Nat.le_of_succ_le_succ hdepth
  have hdecoder : decoder (126 + 1) (.ofJson (.object ms)) = .ok r :=
    Json.bind_eq_ok.2 ⟨_, (Json.Record.readWithRest_eq_ok (by decide) hdepth').2 ⟨hrecord, rfl⟩,
      Json.bind_eq_ok.2 ⟨r.contents, Contents.ofMembers_eq_ok hunclaimed, rfl⟩⟩
  rw [ofText, Json.Decoder.ofText_of_isText decoder hs]
  exact congrArg (Except.mapError InputError.json) hdecoder

theorem isPlain_members {r : Request} (hsize : r.selectedSize < Nat.pow 2 64)
    (hcount : r.fileCount < Nat.pow 2 64) : ∀ m ∈ r.toJson.members, m.2.IsPlain := by
  obtain ⟨⟨_, _, ref⟩, _, _, _, contents, _, _⟩ := r
  cases ref <;> cases contents <;>
    simp [toJson, Json.members, Repository.members, Contents.members, Json.IsPlain.text,
      Json.IsPlain.texts, Json.IsPlain.nat hsize, Json.IsPlain.nat hcount]

/-- A request is read back from its own text, and from every text of an object that holds its
members, in whatever order and among whatever other members. -/
theorem ofText_recovers (r : Request) (hsize : r.selectedSize < Nat.pow 2 64)
    (hcount : r.fileCount < Nat.pow 2 64) :
    ofText r.toText = .ok r ∧
      ∀ (ms extra : List (String × Json)) (s : String), (∀ m ∈ extra, m.1 ∉ r.names) →
        ms.Perm (r.toJson.members ++ extra) → (Json.object ms).depth ≤ Json.maxDepth →
          Json.IsText (.object ms) s → ofText s = .ok r := by
  refine ⟨?_, fun _ _ _ => ofText_of_isText⟩
  have hplain : ∀ m ∈ r.toJson.members, m.2.IsPlain := isPlain_members hsize hcount
  have hdepth : r.toJson.depth ≤ Json.maxDepth := (Json.depth_object_le hplain).trans (by decide)
  have hperm : r.toJson.members.Perm (r.toJson.members ++ []) := by
    rw [List.append_nil]
  exact ofText_of_isText (List.forall_mem_nil _) hperm hdepth
    (Json.isText_compact (Json.numbersSpelled_object hplain))

theorem ofText_recovers_backwards :
    let r : Request := ⟨⟨"a\"b", "c\\", some "\x00"⟩, .markdown, ["**"], [], .explicit ["é\n"],
      Nat.pow 2 64 - 1, Nat.pow 2 64 - 1⟩
    let extra : List (String × Json) := [("note", .array [.null]), ("note", .object [])]
    let v := Json.object (r.toJson.members ++ extra).reverse
    ofText r.toText = .ok r ∧ ofText v.pretty = .ok r := by
  intro r extra v
  have hspelled : Json.NumbersSpelled v := by
    refine Json.membersSpelled_iff.2 fun m hm => ?_
    rcases List.mem_append.1 (List.mem_reverse.1 hm) with hown | hextra
    · exact (isPlain_members (by decide) (by decide) m hown).numbersSpelled
    · obtain rfl | rfl := List.mem_pair.1 hextra
      · exact ⟨trivial, trivial⟩
      · trivial
  obtain ⟨hown, hany⟩ := ofText_recovers r (by decide) (by decide)
  exact ⟨hown, hany _ extra _ (by decide) (List.reverse_perm _) (by decide)
    (Json.isText_pretty hspelled)⟩

end Request

end TreeSelection
