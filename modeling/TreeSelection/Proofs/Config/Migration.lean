import TreeSelection.Config.Store
import TreeSelection.Proofs.Json.Record
import TreeSelection.Proofs.Json.Writing

/-!
A file that lacks settings, or holds `null` for them, gives the defaults for those and its own
values for all others, whether its text is read strictly or has to be completed.
-/

namespace TreeSelection.Config

open Json (lastValue? valuesOf)

def settings : List (String × (Config → Json)) :=
  [("default_include_globs", fun c => .texts c.includes),
   ("default_exclude_globs", fun c => .texts c.excludes),
   ("filters_enabled", fun c => .bool c.filtersOn),
   ("exclude_lfs_files", fun c => .bool c.barLfs),
   ("exclude_binary_files", fun c => .bool c.barBinary),
   ("exclude_submodules", fun c => .bool c.barSubmodules),
   ("max_file_size_mb", fun c => .nat c.maxSizeMb),
   ("default_export_format", fun c => .text c.format.name),
   ("collapse_directories_by_default", fun c => .bool c.collapseDirectories),
   ("last_repository", fun c => .option .text c.lastRepository)]

theorem members_toJson (c : Config) : c.toJson.members = settings.map fun m => (m.1, m.2 c) := rfl

theorem nodup_settings : (settings.map Prod.fst).Nodup := by decide

def source (missing : List String) (name : String) (c : Config) : Config :=
  if name ∈ missing then {} else c

def withDefaults (missing : List String) (c : Config) : Config where
  includes := (c.source missing "default_include_globs").includes
  excludes := (c.source missing "default_exclude_globs").excludes
  filtersOn := (c.source missing "filters_enabled").filtersOn
  barLfs := (c.source missing "exclude_lfs_files").barLfs
  barBinary := (c.source missing "exclude_binary_files").barBinary
  barSubmodules := (c.source missing "exclude_submodules").barSubmodules
  maxSizeMb := (c.source missing "max_file_size_mb").maxSizeMb
  format := (c.source missing "default_export_format").format
  collapseDirectories := (c.source missing "collapse_directories_by_default").collapseDirectories
  lastRepository := (c.source missing "last_repository").lastRepository

/-- The last value under a name is that of the setting; a missing one is not there or `null` at
last. -/
def IsGiven (missing : List String) (ms : List (String × Json)) (name : String) (v : Json) : Prop :=
  if name ∈ missing then lastValue? name ms = none ∨ lastValue? name ms = some .null
  else lastValue? name ms = some v

theorem settled_setting (c : Config) : ∀ m ∈ settings, Json.settled (m.2 c) = m.2 c := by
  have hlast : Json.settled (.option .text c.lastRepository) = .option .text c.lastRepository := by
    cases c.lastRepository <;> rfl
  simp only [settings, List.forall_mem_cons, Json.settled_texts, hlast]
  exact ⟨trivial, trivial, rfl, rfl, rfl, rfl, rfl, rfl, rfl, trivial, nofun⟩

theorem eq_of_setting_null (c : Config) :
    ∀ m ∈ settings, m.2 c = .null → m.1 = "last_repository" := by
  simp [settings, Json.texts, Json.nat]

theorem setting_withDefaults (missing : List String) (c : Config) :
    ∀ m ∈ settings, m.2 (c.withDefaults missing) = m.2 (c.source missing m.1) := by
  simp [settings, withDefaults]

theorem default_lastRepository : ∀ m ∈ settings, m.1 = "last_repository" → m.2 {} = .null := by
  simp [settings, Json.option]

theorem valuesOf_toJson (c : Config) :
    ∀ m ∈ settings, valuesOf m.1 c.toJson.members = [m.2 c] := by
  intro m hm
  have hnodup : (c.toJson.members.map Prod.fst).Nodup := nodup_settings
  have hmem : (m.1, m.2 c) ∈ c.toJson.members :=
    List.mem_map_of_mem (f := fun m => (m.1, m.2 c)) hm
  exact Json.valuesOf_of_nodup hnodup hmem

section

variable {ms : List (String × Json)} {name : String}

theorem isMissing_iff : isMissing ms name = true ↔
    lastValue? name ms = none ∨ lastValue? name ms = some .null ∧ name ≠ "last_repository" := by
  unfold isMissing
  split <;> simp_all

theorem isMissing_eq_false {v : Json} (h : lastValue? name ms = some v)
    (hv : v = .null → name = "last_repository") : isMissing ms name = false := by
  refine Bool.eq_false_iff.2 fun hmissing => ?_
  rcases isMissing_iff.1 hmissing with hnone | ⟨hnull, hne⟩
  · cases h.symm.trans hnone
  · exact hne (hv (Option.some.inj (h.symm.trans hnull)))

theorem valuesOf_completed_of_missing {m : String × (Config → Json)} (hm : m ∈ settings)
    (h : isMissing ms m.1 = true) : valuesOf m.1 (completed ms) = [m.2 {}] := by
  have hput : valuesOf m.1 (defaults.filter (isMissing ms ·.1)) = [m.2 {}] :=
    (Json.valuesOf_filter h).trans (valuesOf_toJson {} m hm)
  rw [completed, Json.valuesOf_arrange, Json.lastValue?_eq_getLast?, Json.valuesOf_append, hput,
    List.getLast?_concat]
  rfl

theorem valuesOf_completed_of_given (h : isMissing ms name = false) :
    valuesOf name (completed ms) = (lastValue? name ms).toList := by
  have hput : valuesOf name (defaults.filter (isMissing ms ·.1)) = [] :=
    Json.valuesOf_filter_of_not h
  rw [completed, Json.valuesOf_arrange, Json.lastValue?_eq_getLast?, Json.valuesOf_append, hput,
    List.append_nil, ← Json.lastValue?_eq_getLast?]

end

section

variable {missing : List String} {c : Config} {ms : List (String × Json)}

theorem valuesOf_completed (h : ∀ m ∈ settings, IsGiven missing ms m.1 (m.2 c)) :
    ∀ m ∈ settings, valuesOf m.1 (completed (Json.arrange (Json.settledMembers ms))) =
      [m.2 (c.withDefaults missing)] := by
  intro m hm
  have hgiven := h m hm
  rw [setting_withDefaults missing c m hm]
  generalize hkept : Json.arrange (Json.settledMembers ms) = kept
  have hlast : lastValue? m.1 kept = (lastValue? m.1 ms).map Json.settled := by
    rw [← hkept, Json.lastValue?_arrange, Json.lastValue?_settledMembers]
  by_cases hmissing : m.1 ∈ missing
  · rw [source, if_pos hmissing]
    rw [IsGiven, if_pos hmissing] at hgiven
    rcases hgiven with hnone | hnull
    · rw [hnone] at hlast
      exact valuesOf_completed_of_missing hm (isMissing_iff.2 (.inl hlast))
    · rw [hnull] at hlast
      -- The last repository keeps its `null`, which is its default too.
      by_cases hrepository : m.1 = "last_repository"
      · have hgiven := isMissing_eq_false hlast fun _ => hrepository
        rw [valuesOf_completed_of_given hgiven, hlast, default_lastRepository m hm hrepository]
        rfl
      · exact valuesOf_completed_of_missing hm (isMissing_iff.2 (.inr ⟨hlast, hrepository⟩))
  · rw [source, if_neg hmissing]
    rw [IsGiven, if_neg hmissing] at hgiven
    rw [hgiven, Option.map_some, settled_setting c m hm] at hlast
    rw [valuesOf_completed_of_given (isMissing_eq_false hlast (eq_of_setting_null c m hm)), hlast]
    rfl

end

section

variable {format : Json.Decoder Format} {depth : Nat} {ms : List (String × Json)}

theorem nodup_fields : ((fields format).map Json.Field.name).Nodup := nodup_settings

def record (c : Config) : Json.Record (fields format) :=
  (c.includes, c.excludes, c.filtersOn, c.barLfs, c.barBinary, c.barSubmodules, c.maxSizeMb,
    c.format, c.collapseDirectories, c.lastRepository, ())

theorem read_lastRepository (last : Option String) :
    Json.Decoder.option .text depth (.ofJson (.option .text last)) = .ok last := by
  cases last <;> rfl

theorem decoder_eq_ok {c : Config}
    (hformat : format (depth + 1) (.ofJson (.text c.format.name)) = .ok c.format)
    (h : ∀ m ∈ settings, valuesOf m.1 ms = [m.2 c]) :
    decoder format (depth + 2) (.ofJson (.object ms)) = .ok c := by
  simp only [settings, List.forall_mem_cons] at h
  obtain ⟨hincludes, hexcludes, hfiltersOn, hbarLfs, hbarBinary, hbarSubmodules, hmaxSizeMb, hfmt,
    hcollapse, hlast, -⟩ := h
  have hrecord :
      Json.Partial.Completes .ofJson (depth + 1) ms (fields format) (.empty _) c.record :=
    ⟨.only hincludes (Json.Decoder.list_texts c.includes depth),
      .only hexcludes (Json.Decoder.list_texts c.excludes depth), .only hfiltersOn rfl,
      .only hbarLfs rfl, .only hbarBinary rfl, .only hbarSubmodules rfl, .only hmaxSizeMb rfl,
      .only hfmt hformat, .only hcollapse rfl,
      .only hlast (read_lastRepository c.lastRepository), trivial⟩
  exact Json.map_eq_ok.2 ⟨_, (Json.Record.read_eq_ok nodup_fields).2 hrecord, rfl⟩

end

section

variable {missing : List String} {c : Config} {ms : List (String × Json)} {name : String} {v : Json}
  {depth : Nat}

theorem IsGiven.mem_of_nil (h : IsGiven missing ms name v) (hvalues : valuesOf name ms = []) :
    name ∈ missing := by
  by_contra hmissing
  rw [IsGiven, if_neg hmissing, Json.lastValue?_eq_getLast?, hvalues] at h
  cases h

theorem IsGiven.of_single {w : Json} (h : IsGiven missing ms name v)
    (hvalues : valuesOf name ms = [w]) :
    name ∈ missing ∧ w = .null ∨ name ∉ missing ∧ w = v := by
  rw [IsGiven, Json.lastValue?_eq_getLast?, hvalues, List.getLast?_singleton] at h
  by_cases hmissing : name ∈ missing
  · exact .inl ⟨hmissing, by simpa [hmissing] using h⟩
  · exact .inr ⟨hmissing, by simpa [hmissing] using h⟩

theorem required_eq {read : Json.Decoder α} (get : Config → α) {y : α}
    (hgiven : IsGiven missing ms name v) (hread : read depth (.ofJson v) = .ok (get c))
    (h : (Json.Field.required name read).Gives .ofJson depth none (valuesOf name ms) y)
    (hnull : ∀ z, read depth .null ≠ .ok z) :
    y = get (c.source missing name) := by
  obtain ⟨w, hvalues, hw⟩ := Json.Field.required_gives_iff.1 h
  rcases hgiven.of_single hvalues with ⟨-, rfl⟩ | ⟨hmissing, rfl⟩
  · exact absurd hw (hnull y)
  · rw [source, if_neg hmissing]
    exact Except.ok.inj (hw.symm.trans hread)

theorem lastRepository_eq {y : Option String}
    (hgiven : IsGiven missing ms "last_repository" (.option .text c.lastRepository))
    (h : (Json.Field.optional "last_repository" .text).Gives .ofJson depth none
      (valuesOf "last_repository" ms) y) :
    y = (c.source missing "last_repository").lastRepository := by
  rcases Json.Field.gives_none_iff.1 h with ⟨hvalues, habsent⟩ | ⟨w, hvalues, hw⟩
  · rw [source, if_pos (hgiven.mem_of_nil hvalues)]
    exact (Option.some.inj habsent).symm
  · rcases hgiven.of_single hvalues with ⟨hmissing, rfl⟩ | ⟨hmissing, rfl⟩
    · rw [source, if_pos hmissing]
      exact (Except.ok.inj hw).symm
    · rw [source, if_neg hmissing]
      exact Except.ok.inj (hw.symm.trans (read_lastRepository c.lastRepository))

theorem eq_of_decoder_eq_ok {c' : Config}
    (hgiven : ∀ m ∈ settings, IsGiven missing ms m.1 (m.2 c))
    (h : decoder Format.variants.read (depth + 2) (.ofJson (.object ms)) = .ok c') :
    c' = c.withDefaults missing := by
  obtain ⟨record, hread, rfl⟩ := Json.map_eq_ok.1 h
  have hrecord := (Json.Record.read_eq_ok nodup_fields).1 hread
  simp only [settings, List.forall_mem_cons] at hgiven
  obtain ⟨hincludes, hexcludes, hfiltersOn, hbarLfs, hbarBinary, hbarSubmodules, hmaxSizeMb,
    hformat, hcollapse, hlast, -⟩ := hgiven
  obtain ⟨_, _, _, _, _, _, _, _, _, _, ⟨⟩⟩ := record
  obtain ⟨rincludes, rexcludes, rfiltersOn, rbarLfs, rbarBinary, rbarSubmodules, rmaxSizeMb,
    rformat, rcollapse, rlast, -⟩ := hrecord
  obtain rfl := required_eq includes hincludes (Json.Decoder.list_texts _ depth) rincludes nofun
  obtain rfl := required_eq excludes hexcludes (Json.Decoder.list_texts _ depth) rexcludes nofun
  obtain rfl := required_eq filtersOn hfiltersOn rfl rfiltersOn nofun
  obtain rfl := required_eq barLfs hbarLfs rfl rbarLfs nofun
  obtain rfl := required_eq barBinary hbarBinary rfl rbarBinary nofun
  obtain rfl := required_eq barSubmodules hbarSubmodules rfl rbarSubmodules nofun
  obtain rfl := required_eq maxSizeMb hmaxSizeMb rfl rmaxSizeMb nofun
  obtain rfl := required_eq format hformat (Format.ofName_name c.format) rformat nofun
  obtain rfl := required_eq collapseDirectories hcollapse rfl rcollapse nofun
  obtain rfl := lastRepository_eq hlast rlast
  rfl

end

section

variable {missing : List String} {c : Config} {ms : List (String × Json)} {s : String}

theorem ofAnyText_eq_ok (hgiven : ∀ m ∈ settings, IsGiven missing ms m.1 (m.2 c))
    (hdepth : (Json.object ms).depth ≤ Json.maxDepth) (hs : Json.IsText (.object ms) s) :
    ofAnyText s = .ok (c.withDefaults missing) := by
  -- One level is for the object itself and one for the lists in it, of the 127 that a reader opens.
  have hstrict : ofText s = decoder Format.variants.read (125 + 2) (.ofJson (.object ms)) :=
    Json.Decoder.ofText_of_isText _ hs
  have hkeep : Json.Decoder.ofText .value s = .ok (.object ms) :=
    (Json.Decoder.ofText_of_isText _ hs).trans (Json.Reading.keep_ofJson _ hdepth)
  have hpartial : ofPartialText s = .ok (c.withDefaults missing) := by
    have hdecoder : decoder Format.variants.readValue (125 + 2) (.ofJson (.object
        (completed (Json.arrange (Json.settledMembers ms))))) = .ok (c.withDefaults missing) :=
      decoder_eq_ok (Format.ofName_name _) (valuesOf_completed hgiven)
    rw [ofPartialText, hkeep]
    exact congrArg (Except.mapError TextError.json) hdecoder
  rw [ofAnyText]
  -- A strict reader that succeeds is not asked again, so it must give the completed settings too.
  split
  · next c' h => rw [eq_of_decoder_eq_ok hgiven (hstrict.symm.trans h)]
  · exact hpartial

end

theorem isThere_of_read_eq_ok {st : FileStore} {p : Place} {s : String} (h : st.read p = .ok s) :
    st.isThere p = true := by
  obtain ⟨a, ha, h⟩ := Json.bind_eq_ok.1 h
  rw [FileStore.isThere, ha]
  show (st.isDir a || st.isFile a && !p.slash) = true
  rw [FileStore.isFile]
  cases hdir : st.isDir a with
  | true => rfl
  | false =>
    rw [if_neg (by simp [hdir])] at h
    cases hlookup : st.files.lookup a with
    | none => simp [hlookup] at h
    | some content =>
      cases hslash : p.slash with
      | false => rfl
      | true => simp [hlookup, hslash] at h

/-- Loading and importing settings fill in the defaults for exactly those that the file does not
give, in whatever order and how often it names them, and whatever else it holds. -/
theorem loads_withDefaults (c : Config) (missing : List String) (ms : List (String × Json))
    (s : String) (st : FileStore) (p : Place)
    (hgiven : ∀ m ∈ c.toJson.members, IsGiven missing ms m.1 m.2)
    (hdepth : (Json.object ms).depth ≤ Json.maxDepth) (hs : Json.IsText (.object ms) s)
    (hread : st.read p = .ok s) :
    (load p).run.run st = (.ok (c.withDefaults missing), st) ∧
      importFrom p st = .ok (c.withDefaults missing) := by
  rw [members_toJson, List.forall_mem_map] at hgiven
  have htext := ofAnyText_eq_ok hgiven hdepth hs
  constructor
  · show (ite (st.isThere p = true) _ _ : FileStore.Action Config) st = _
    rw [if_pos (isThere_of_read_eq_ok hread), hread]
    show (Except.ok _, st) = _
    rw [htext]
  · rw [importFrom, hread]
    exact congrArg (Except.mapError StoreError.text) htext

theorem loads_withDefaults_backwards :
    let c : Config := { excludes := ["a\"b"], maxSizeMb := 0, lastRepository := some "o/n" }
    let missing := ["default_export_format", "filters_enabled", "last_repository"]
    let ms : List (String × Json) :=
      [("last_repository", .null), ("note", .object [("note", .array [.null])]),
       ("max_file_size_mb", .text "much"), ("collapse_directories_by_default", .bool false),
       ("default_export_format", .text "zip"), ("max_file_size_mb", .nat 0),
       ("exclude_submodules", .bool true), ("exclude_binary_files", .bool true),
       ("default_export_format", .null), ("exclude_lfs_files", .bool true),
       ("default_exclude_globs", .texts ["a\"b"]), ("default_include_globs", .texts [])]
    let p : Place := ⟨["config.json"], false⟩
    let st : FileStore := ⟨[(["config.json"], .text (Json.object ms).pretty)], []⟩
    c.withDefaults missing = { excludes := ["a\"b"], maxSizeMb := 0 } ∧
      (load p).run.run st = (.ok (c.withDefaults missing), st) ∧
      importFrom p st = .ok (c.withDefaults missing) := by
  intro c missing ms p st
  have hspelled : Json.NumbersSpelled (.object ms) :=
    ⟨trivial, ⟨⟨trivial, trivial⟩, trivial⟩, trivial, trivial, trivial,
      Json.spelled_nat (by decide), trivial, trivial, trivial, trivial,
      Json.numbersSpelled_texts _, Json.numbersSpelled_texts _, trivial⟩
  have hgiven : ∀ m ∈ c.toJson.members, IsGiven missing ms m.1 m.2 := by
    simp [c, missing, ms, toJson, Json.members, IsGiven, lastValue?, Json.nat, Json.option,
      Json.texts, List.lookup_cons]
  exact ⟨by decide, loads_withDefaults c missing ms _ st p hgiven (by decide)
    (Json.isText_pretty hspelled) rfl⟩

end TreeSelection.Config
