import Mathlib.Data.List.Induction
import Mathlib.Data.List.Perm.Basic
import TreeSelection.Json.Settled

namespace TreeSelection.Json

def members : Json → List (String × Json)
  | .object ms => ms
  | _ => []

section

variable {name : String} {v : α} {ms own extra : List (String × α)}

def valuesOf (name : String) (ms : List (String × α)) : List α :=
  (ms.filter (·.1 = name)).map (·.2)

@[simp]
theorem valuesOf_nil : valuesOf name ([] : List (String × α)) = [] := rfl

theorem valuesOf_cons (v : α) : valuesOf name ((name, v) :: ms) = v :: valuesOf name ms := by
  simp [valuesOf]

theorem valuesOf_cons_of_ne {m : String × α} (h : m.1 ≠ name) :
    valuesOf name (m :: ms) = valuesOf name ms := by
  simp [valuesOf, h]

theorem valuesOf_append : valuesOf name (ms ++ own) = valuesOf name ms ++ valuesOf name own := by
  simp [valuesOf]

theorem valuesOf_eq_nil : valuesOf name ms = [] ↔ name ∉ ms.map Prod.fst := by
  rw [valuesOf, List.map_eq_nil_iff, List.filter_eq_nil_iff]
  simp only [decide_eq_true_eq, List.mem_map, not_exists, not_and]

theorem mem_valuesOf : v ∈ valuesOf name ms ↔ (name, v) ∈ ms := by
  simp [valuesOf]

theorem length_valuesOf : (valuesOf name ms).length = (ms.map Prod.fst).count name := by
  rw [valuesOf, List.length_map, List.count, List.countP_map, List.countP_eq_length_filter]
  rfl

theorem valuesOf_of_nodup (hms : (ms.map Prod.fst).Nodup) (h : (name, v) ∈ ms) :
    valuesOf name ms = [v] := by
  induction ms with
  | nil => cases h
  | cons m ms ih =>
    obtain ⟨hm, hms⟩ := List.nodup_cons.1 hms
    rcases List.mem_cons.1 h with rfl | h
    · rw [valuesOf_cons, valuesOf_eq_nil.2 hm]
    · have hne : m.1 ≠ name := fun heq => hm (heq ▸ List.mem_map_of_mem h)
      rw [valuesOf_cons_of_ne hne, ih hms h]

theorem valuesOf_of_perm (hms : ms.Perm (own ++ extra)) (hname : name ∉ extra.map Prod.fst) :
    (valuesOf name ms).Perm (valuesOf name own) := by
  have happend : valuesOf name (own ++ extra) = valuesOf name own := by
    rw [valuesOf_append, valuesOf_eq_nil.2 hname, List.append_nil]
  exact happend ▸ (hms.filter _).map _

theorem valuesOf_filter {p : String → Bool} (h : p name = true) :
    valuesOf name (ms.filter (p ·.1)) = valuesOf name ms := by
  have hfilter : (ms.filter (p ·.1)).filter (·.1 = name) = ms.filter (·.1 = name) := by
    rw [List.filter_filter]
    refine List.filter_congr fun m _ => ?_
    by_cases hm : m.1 = name <;> simp [hm, h]
  rw [valuesOf, hfilter, valuesOf]

theorem valuesOf_filter_of_not {p : String → Bool} (h : p name = false) :
    valuesOf name (ms.filter (p ·.1)) = [] := by
  refine valuesOf_eq_nil.2 fun hmem => ?_
  obtain ⟨m, hm, rfl⟩ := List.mem_map.1 hmem
  exact Bool.false_ne_true (h.symm.trans (List.mem_filter.1 hm).2)

end

section

variable {name : String} {ms ns : List (String × Json)}

theorem lastValue?_eq_getLast? : lastValue? name ms = (valuesOf name ms).getLast? := by
  induction ms using List.reverseRecOn with
  | nil => rfl
  | append_singleton ms m ih =>
    obtain ⟨key, v⟩ := m
    have hlookup : lastValue? name (ms ++ [(key, v)]) =
        if name == key then some v else lastValue? name ms := by
      rw [lastValue?, List.reverse_append, List.reverse_singleton, List.singleton_append,
        List.lookup_cons, lastValue?]
      split <;> simp_all
    rw [hlookup, valuesOf_append]
    by_cases hkey : key = name
    · subst hkey
      simp [valuesOf_cons]
    · simp [valuesOf_cons_of_ne (m := (key, v)) hkey, ih, Ne.symm hkey]

theorem lastValue?_eq_none : lastValue? name ms = none ↔ name ∉ ms.map Prod.fst := by
  rw [lastValue?_eq_getLast?, List.getLast?_eq_none_iff, valuesOf_eq_nil]

theorem valuesOf_filterMap {names : List String} (hnames : names.Nodup)
    (value? : String → Option Json) :
    valuesOf name (names.filterMap fun n => (value? n).map (n, ·)) =
      if name ∈ names then (value? name).toList else [] := by
  induction names with
  | nil => rfl
  | cons n names ih =>
    obtain ⟨hn, hnames⟩ := List.nodup_cons.1 hnames
    have hcons : valuesOf name ((n :: names).filterMap fun n => (value? n).map (n, ·)) =
        valuesOf name ((value? n).map (n, ·)).toList ++
          if name ∈ names then (value? name).toList else [] := by
      rw [← ih hnames, ← valuesOf_append, List.filterMap_cons]
      cases value? n <;> rfl
    rw [hcons]
    by_cases hname : n = name
    · subst hname
      cases value? n <;> simp [hn, valuesOf_cons]
    · have hhead : valuesOf name ((value? n).map (n, ·)).toList = [] := by
        cases value? n with
        | none => rfl
        | some v => exact valuesOf_cons_of_ne (m := (n, v)) hname
      simp [hhead, Ne.symm hname]

theorem valuesOf_arrange : valuesOf name (arrange ms) = (lastValue? name ms).toList := by
  rw [arrange, valuesOf_filterMap (TextSet.nodup _)]
  split
  · rfl
  · next h =>
    have hname : name ∉ ms.map Prod.fst := fun hmem => h (TextSet.mem_ofList.2 hmem)
    rw [lastValue?_eq_none.2 hname]
    rfl

theorem lastValue?_arrange : lastValue? name (arrange ms) = lastValue? name ms := by
  rw [lastValue?_eq_getLast?, valuesOf_arrange]
  cases lastValue? name ms <;> rfl

theorem valuesOf_settledMembers :
    valuesOf name (settledMembers ms) = (valuesOf name ms).map settled := by
  induction ms with
  | nil => rfl
  | cons m ms ih =>
    obtain ⟨key, v⟩ := m
    show valuesOf name ((key, settled v) :: settledMembers ms) = _
    by_cases hkey : key = name
    · subst hkey
      rw [valuesOf_cons, valuesOf_cons, ih, List.map_cons]
    · rw [valuesOf_cons_of_ne hkey, valuesOf_cons_of_ne hkey, ih]

theorem lastValue?_settledMembers :
    lastValue? name (settledMembers ms) = (lastValue? name ms).map settled := by
  simp only [lastValue?_eq_getLast?, valuesOf_settledMembers, List.getLast?_map]

theorem settled_texts (l : List String) : settled (texts l) = texts l := by
  have hitems : settledItems (l.map .text) = l.map .text := by
    induction l with
    | nil => rfl
    | cons s l ih =>
      rw [List.map_cons, settledItems, ih]
      rfl
  rw [texts, settled, hitems]

end

end TreeSelection.Json
