import Mathlib.Data.List.Forall2
import TreeSelection.Json.Variant
import TreeSelection.Proofs.Json.Record

namespace TreeSelection.Json

variable {depth : Nat} {r : Reading}

theorem Ending.check_eq_ok {ending : Ending} {u : Unit} :
    ending.check = .ok u ↔ ending = .closed := by
  cases ending with
  | closed => exact iff_of_true rfl rfl
  | stopped p => exact iff_of_false nofun nofun

theorem Reading.refuse_ne_ok {wanted : String} {a : α} : r.refuse wanted ≠ .ok a := by
  intro h
  obtain ⟨_, _, ⟨⟩⟩ := bind_eq_ok.1 h

theorem Reading.key_eq_ok {name : String} : r.key = .ok name ↔ r = .text (some name) := by
  unfold Reading.key
  split
  · simp
  · simp
  · simp
  · next hne _ _ => exact iff_of_false nofun (hne name)

namespace Decoder

theorem text_eq_ok {s : String} : text depth r = .ok s ↔ r = .text (some s) := by
  unfold text
  split
  · simp
  · next hne => exact iff_of_false Reading.refuse_ne_ok (hne s)

theorem bool_eq_ok {b : Bool} : bool depth r = .ok b ↔ r = .bool b := by
  unfold bool
  split
  · simp
  · next hne => exact iff_of_false Reading.refuse_ne_ok (hne b)

theorem nat_eq_ok {type : String} {n : Nat} :
    nat type depth r = .ok n ↔ r = .number (some (.nat n)) := by
  unfold nat
  split
  · simp
  · simp
  · next hne _ => exact iff_of_false Reading.refuse_ne_ok (hne n)

theorem unit_eq_ok {u : Unit} : unit depth r = .ok u ↔ r = .null := by
  unfold unit
  split
  · simp
  · next hne => exact iff_of_false Reading.refuse_ne_ok hne

theorem items_eq_ok {d : Reading → Except Error α} {rs : List Reading} {as : List α} :
    items d rs = .ok as ↔ List.Forall₂ (fun a r => d r = .ok a) as rs := by
  induction rs generalizing as with
  | nil => simp [items, eq_comm]
  | cons r rs ih =>
    rw [items, bind_eq_ok, List.forall₂_cons_right_iff]
    refine exists_congr fun a => ?_
    rw [bind_eq_ok]
    simp only [ih]
    constructor
    · rintro ⟨ha, as, has, ⟨⟩⟩
      exact ⟨as, ha, has, rfl⟩
    · rintro ⟨as, ha, has, rfl⟩
      exact ⟨ha, as, has, rfl⟩

theorem list_eq_ok {d : Decoder α} {rs : List Reading} {as : List α} :
    list d (depth + 1) (.array rs .closed) = .ok as ↔
      List.Forall₂ (fun a r => d depth r = .ok a) as rs := by
  rw [← items_eq_ok, list, bind_eq_ok]
  constructor
  · rintro ⟨as, has, ⟨⟩⟩
    exact has
  · intro has
    exact ⟨as, has, rfl⟩

end Decoder

namespace Variants

variable {vs : Variants α} {a : α}

theorem read_object_eq_ok {key : Reading} {ms : List (Reading × Reading)} {ending : Ending} :
    vs.read (depth + 1) (.object ((key, r) :: ms) ending) = .ok a ↔
      ∃ name, key = .text (some name) ∧ vs.ofName name = .ok a ∧ r = .null ∧ ms = [] ∧
        ending = .closed := by
  rw [read]
  simp only [bind_eq_ok, Reading.key_eq_ok, Decoder.unit_eq_ok]
  constructor
  · rintro ⟨name, hkey, b, hb, _, hr, h⟩
    cases ms with
    | nil =>
      obtain ⟨_, hending, ⟨⟩⟩ := bind_eq_ok.1 h
      exact ⟨name, hkey, hb, hr, rfl, Ending.check_eq_ok.1 hending⟩
    | cons m ms => cases h
  · rintro ⟨name, hkey, ha, hr, rfl, rfl⟩
    exact ⟨name, hkey, a, ha, (), hr, rfl⟩

theorem read_eq_ok : vs.read (depth + 1) r = .ok a ↔ ∃ name, vs.ofName name = .ok a ∧
    (r = .text (some name) ∨ r = .object [(.text (some name), .null)] .closed) := by
  cases r with
  | text s =>
    cases s with
    | none => exact iff_of_false nofun (by simp)
    | some s => simp [read]
  | object ms ending =>
    cases ms with
    | nil => exact iff_of_false nofun (by simp)
    | cons m ms =>
      obtain ⟨key, r⟩ := m
      simp [read_object_eq_ok, and_left_comm, and_assoc]
  | _ => exact iff_of_false nofun (by simp)

end Variants

end TreeSelection.Json
