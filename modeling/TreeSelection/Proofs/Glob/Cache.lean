import Mathlib.Data.Finset.Card
import TreeSelection.Proofs.Glob.Mask

namespace TreeSelection.Glob.Cache

inductive Call
  | compile (pattern : String)
  | mask (includes excludes : List String)

def Call.patterns : Call → List String
  | compile pattern => [pattern]
  | mask includes excludes => (includes ++ excludes).filter (!Text.isBlankText ·)

section

variable [Limit]

def perform (c : Cache) : Call → Cache
  | .compile pattern => (c.compile pattern).2
  | .mask includes excludes => (c.mask includes excludes).2

def run (c : Cache) (calls : List Call) : Cache := calls.foldl perform c

def texts (c : Cache) : List String := c.compiled.map (·.1)

theorem texts_compile (c : Cache) (pattern : String) : (c.compile pattern).2.texts =
    if pattern ∈ c.texts then c.texts else c.texts ++ [pattern] := by
  unfold Cache.compile
  split
  · next g hg =>
    obtain ⟨before, after, heq, -⟩ := List.lookup_eq_some_iff.1 hg
    rw [if_pos (by simp [texts, heq])]
  · next hg =>
    have hnew : pattern ∉ c.texts := by
      rw [texts, List.mem_map]
      rintro ⟨p, hp, rfl⟩
      simpa using List.lookup_eq_none_iff.1 hg p hp
    rw [if_neg hnew, texts, List.map_append, List.map_singleton, texts]

structure Holds (c : Cache) (given : List String) : Prop where
  faithful : c.Faithful
  nodup : c.texts.Nodup
  mem_iff : ∀ p, p ∈ c.texts ↔ p ∈ given

theorem holds_empty : Cache.empty.Holds [] where
  faithful := faithful_empty
  nodup := .nil
  mem_iff _ := .rfl

namespace Holds

variable {c : Cache} {given : List String}

theorem size_eq (h : c.Holds given) : c.size = given.toFinset.card := by
  have hsame : c.texts.toFinset = given.toFinset :=
    Finset.ext fun p => by rw [List.mem_toFinset, List.mem_toFinset, h.mem_iff]
  rw [← hsame, List.toFinset_card_of_nodup h.nodup, texts, List.length_map, size]

theorem compile (h : c.Holds given) (pattern : String) :
    (c.compile pattern).2.Holds (given ++ [pattern]) where
  faithful := (h.faithful.compile pattern).2
  nodup := by
    rw [texts_compile]
    split
    · exact h.nodup
    · next hnew => simpa using h.nodup.concat hnew
  mem_iff p := by
    rw [texts_compile]
    split
    · next hmem =>
      have hgiven := (h.mem_iff pattern).1 hmem
      rw [h.mem_iff, List.mem_append, List.mem_singleton]
      exact ⟨.inl, fun hp => hp.elim id fun hp => hp ▸ hgiven⟩
    · rw [List.mem_append, List.mem_append, h.mem_iff]

theorem compileAll (h : c.Holds given) (patterns : List String) :
    (c.compileAll patterns).2.Holds (given ++ patterns) := by
  induction patterns generalizing c given with
  | nil => simpa [Cache.compileAll] using h
  | cons p ps ih => simpa [Cache.compileAll] using ih (h.compile p)

theorem perform (h : c.Holds given) (call : Call) :
    (c.perform call).Holds (given ++ call.patterns) := by
  cases call with
  | compile pattern => exact h.compile pattern
  | mask includes excludes =>
    rw [Call.patterns, List.filter_append, ← List.append_assoc]
    exact (h.compileAll _).compileAll _

theorem run (h : c.Holds given) (calls : List Call) :
    (c.run calls).Holds (given ++ calls.flatMap Call.patterns) := by
  induction calls generalizing c given with
  | nil => simpa [Cache.run] using h
  | cons call calls ih => simpa [Cache.run] using ih (h.perform call)

end Holds

/-- Nobody can tell an answer from one without a memory. -/
structure Transparent (c : Cache) : Prop where
  pattern_eq : ∀ pattern, (c.compile pattern).1.pattern = (Glob.compile pattern).pattern
  test_eq : ∀ pattern path,
    (c.compile pattern).1.test path = (Glob.compile pattern).test path
  includes_eq : ∀ includes excludes, (c.mask includes excludes).1.includes.map (·.pattern) =
    (Mask.ofPatterns includes excludes).includes.map (·.pattern)
  excludes_eq : ∀ includes excludes, (c.mask includes excludes).1.excludes.map (·.pattern) =
    (Mask.ofPatterns includes excludes).excludes.map (·.pattern)
  accepts_eq : ∀ includes excludes path, (c.mask includes excludes).1.accepts path =
    (Mask.ofPatterns includes excludes).accepts path
  rejects_eq : ∀ includes excludes path, (c.mask includes excludes).1.rejects path =
    (Mask.ofPatterns includes excludes).rejects path

theorem Faithful.transparent {c : Cache} (h : c.Faithful) : c.Transparent where
  pattern_eq pattern := by rw [(h.compile pattern).1]
  test_eq pattern path := by rw [(h.compile pattern).1]
  includes_eq includes excludes := by rw [(h.mask includes excludes).1]
  excludes_eq includes excludes := by rw [(h.mask includes excludes).1]
  accepts_eq includes excludes path := by rw [(h.mask includes excludes).1]
  rejects_eq includes excludes path := by rw [(h.mask includes excludes).1]

/-- After any calls the answers are those of patterns compiled afresh, and the size is the number
of different texts that were given, blank ones counting only where they are compiled by
themselves. -/
theorem transparent_run (calls : List Call) :
    (empty.run calls).Transparent ∧
      (empty.run calls).size = (calls.flatMap Call.patterns).toFinset.card := by
  have h : (empty.run calls).Holds (calls.flatMap Call.patterns) := holds_empty.run calls
  exact ⟨h.faithful.transparent, h.size_eq⟩

end

example : (empty.run [.compile "*.rs", .mask ["/*.rs", " "] ["*.rs "], .compile "*.rs",
    .compile "  "]).size = 4 := by decide +kernel

end TreeSelection.Glob.Cache
