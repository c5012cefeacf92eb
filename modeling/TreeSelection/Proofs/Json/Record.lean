import TreeSelection.Json.Record
import TreeSelection.Proofs.Json.Members
import TreeSelection.Proofs.Json.Reading

namespace TreeSelection.Json

theorem bind_eq_ok {x : Except ε α} {f : α → Except ε β} {b : β} :
    x >>= f = .ok b ↔ ∃ a, x = .ok a ∧ f a = .ok b := by
  cases x <;> simp [bind, Except.bind]

theorem map_eq_ok {x : Except ε α} {f : α → β} {b : β} :
    f <$> x = .ok b ↔ ∃ a, x = .ok a ∧ f a = b := by
  cases x <;> simp [Functor.map, Except.map]

theorem mapError_eq_ok {x : Except ε α} {f : ε → ε'} {a : α} :
    x.mapError f = .ok a ↔ x = .ok a := by
  cases x <;> simp [Except.mapError]

def Field.Gives (f : Field) (reading : α → Reading) (depth : Nat) :
    Option f.Value → List α → f.Value → Prop
  | met, [], x => met.or f.absent = some x
  | some _, _ :: _, _ => False
  | none, v :: vs, x => ∃ y, f.read depth (reading v) = .ok y ∧ Gives f reading depth (some y) vs x

section

variable {f : Field} {reading : α → Reading} {depth : Nat} {values : List α} {x : f.Value}

theorem Field.Gives.absent (hvalues : values = []) (h : f.absent = some x) :
    f.Gives reading depth none values x := by
  subst hvalues
  exact h

theorem Field.Gives.only {v : α} (hvalues : values = [v]) (h : f.read depth (reading v) = .ok x) :
    f.Gives reading depth none values x := by
  subst hvalues
  exact ⟨x, h, rfl⟩

theorem Field.gives_none_iff : f.Gives reading depth none values x ↔
    values = [] ∧ f.absent = some x ∨
      ∃ v, values = [v] ∧ f.read depth (reading v) = .ok x := by
  rcases values with _ | ⟨v, _ | ⟨w, values⟩⟩ <;> simp [Field.Gives]

end

section

variable {β : Type} {name : String} {read : Decoder β} {reading : α → Reading} {depth : Nat}
  {values : List α} {x : β}

theorem Field.required_gives_iff : (required name read).Gives reading depth none values x ↔
    ∃ v, values = [v] ∧ read depth (reading v) = .ok x := by
  refine gives_none_iff.trans ?_
  simp [required]

theorem Field.withDefault_gives_iff {default : β} :
    (withDefault name read default).Gives reading depth none values x ↔
      (∃ v, values = [v] ∧ read depth (reading v) = .ok x) ∨ values = [] ∧ x = default := by
  refine gives_none_iff.trans (or_comm.trans ?_)
  simp [withDefault, eq_comm]

end

namespace Partial

def Completes (reading : α → Reading) (depth : Nat) (ms : List (String × α)) :
    (fs : List Field) → Partial fs → Record fs → Prop
  | [], _, _ => True
  | f :: fs, (met, p), (x, r) =>
    f.Gives reading depth met (valuesOf f.name ms) x ∧ Completes reading depth ms fs p r

variable {fs : List Field} {reading : α → Reading} {depth : Nat} {ms : List (String × α)}
  {p : Partial fs} {r : Record fs}

theorem completes_nil : Completes reading depth [] fs p r ↔ finish fs p = .ok r := by
  induction fs with
  | nil => exact iff_of_true trivial rfl
  | cons f fs ih =>
    obtain ⟨met, p⟩ := p
    obtain ⟨x, r⟩ := r
    show met.or f.absent = some x ∧ Completes reading depth [] fs p r ↔ _
    rw [ih]
    simp only [finish]
    cases met.or f.absent with
    | none => simp
    | some y =>
      constructor
      · rintro ⟨⟨⟩, hr⟩
        rw [hr]
        rfl
      · intro h
        obtain ⟨r', hr', h⟩ := bind_eq_ok.1 h
        cases h
        exact ⟨rfl, hr'⟩

theorem completes_cons_of_not_mem {m : String × α} (h : m.1 ∉ fs.map Field.name) :
    Completes reading depth (m :: ms) fs p r ↔ Completes reading depth ms fs p r := by
  induction fs with
  | nil => rfl
  | cons f fs ih =>
    simp only [List.map_cons, List.mem_cons, not_or] at h
    obtain ⟨met, p⟩ := p
    obtain ⟨x, r⟩ := r
    simp only [Completes, valuesOf_cons_of_ne h.1, ih h.2]

theorem put?_of_not_mem {name : String} (h : name ∉ fs.map Field.name) (v : Reading) :
    put? depth name v fs p = none := by
  induction fs with
  | nil => rfl
  | cons f fs ih =>
    simp only [List.map_cons, List.mem_cons, not_or] at h
    obtain ⟨met, p⟩ := p
    simp only [put?, if_neg h.1, ih h.2]
    rfl

theorem put?_of_mem (hfs : (fs.map Field.name).Nodup) {name : String}
    (h : name ∈ fs.map Field.name) (reading : α → Reading) (depth : Nat) (v : α) (p : Partial fs) :
    ∃ e, put? depth name (reading v) fs p = some e ∧
      ∀ {ms r}, Completes reading depth ((name, v) :: ms) fs p r ↔
        ∃ p', e = .ok p' ∧ Completes reading depth ms fs p' r := by
  induction fs with
  | nil => cases h
  | cons f fs ih =>
    obtain ⟨hf, hfs⟩ := List.nodup_cons.1 hfs
    obtain ⟨met, p⟩ := p
    by_cases hname : name = f.name
    · subst hname
      cases met with
      | some y =>
        refine ⟨.error (.mismatch (.duplicateField f.name)), by simp only [put?, if_true], ?_⟩
        rintro ms ⟨x, r⟩
        simp [Completes, valuesOf_cons, Field.Gives]
      | none =>
        refine ⟨do return (some (← f.read depth (reading v)), p), by simp only [put?, if_true], ?_⟩
        rintro ms ⟨x, r⟩
        rw [Completes, valuesOf_cons, completes_cons_of_not_mem (m := (f.name, v)) hf, Field.Gives]
        constructor
        · rintro ⟨⟨y, hy, hx⟩, hr⟩
          exact ⟨(some y, p), by rw [hy]; rfl, hx, hr⟩
        · rintro ⟨p', hp', hx, hr⟩
          obtain ⟨y, hy, ⟨⟩⟩ := bind_eq_ok.1 hp'
          exact ⟨⟨y, hy, hx⟩, hr⟩
    · obtain ⟨e, he, hiff⟩ := ih hfs ((List.mem_cons.1 h).resolve_left hname) p
      refine ⟨do return (met, ← e), by simp only [put?, if_neg hname, he]; rfl, ?_⟩
      rintro ms ⟨x, r⟩
      rw [Completes, valuesOf_cons_of_ne (m := (name, v)) hname, hiff]
      constructor
      · rintro ⟨hx, p', rfl, hr⟩
        exact ⟨(met, p'), rfl, hx, hr⟩
      · rintro ⟨p', hp', hx, hr⟩
        obtain ⟨p', rfl, ⟨⟩⟩ := bind_eq_ok.1 hp'
        exact ⟨hx, p', rfl, hr⟩

end Partial

namespace Reading

def named (reading : α → Reading) (ms : List (String × α)) : List (Reading × Reading) :=
  ms.map fun m => (.text (some m.1), reading m.2)

theorem named_cons (reading : α → Reading) (name : String) (v : α) (ms : List (String × α)) :
    named reading ((name, v) :: ms) = (.text (some name), reading v) :: named reading ms := rfl

theorem membersWhole_named {reading : α → Reading} {ms : List (String × α)}
    (h : ∀ m ∈ ms, (reading m.2).IsWhole) : MembersWhole (named reading ms) :=
  membersWhole_iff.2 (List.forall_mem_map.2 fun m hm => ⟨⟨m.1, rfl⟩, h m hm⟩)

theorem ofMembers_eq_named (ms : List (String × Json)) : ofMembers ms = named ofJson ms := by
  induction ms with
  | nil => rfl
  | cons m ms ih =>
    obtain ⟨name, v⟩ := m
    rw [ofMembers, ih, named_cons, ofMember]

end Reading

namespace Record

variable {fs : List Field} {reading : α → Reading} {depth : Nat} {ms : List (String × α)}
  {r : Record fs}

def unclaimed (fs : List Field) (ms : List (String × α)) : List (String × α) :=
  ms.filter (·.1 ∉ fs.map Field.name)

theorem valuesOf_unclaimed {name : String} (h : name ∉ fs.map Field.name) :
    valuesOf name (unclaimed fs ms) = valuesOf name ms :=
  valuesOf_filter (p := (· ∉ fs.map Field.name)) (decide_eq_true h)

section

variable {σ : Type} {other : String → Reading → σ → Except Error σ} {p : Partial fs} {s s' : σ}

theorem ofMembers_cons (name : String) (v : α) :
    ofMembers fs depth other (Reading.named reading ((name, v) :: ms)) p s =
      (Partial.put? depth name (reading v) fs p).elim
        (other name (reading v) s >>= ofMembers fs depth other (Reading.named reading ms) p)
        (· >>= (ofMembers fs depth other (Reading.named reading ms) · s)) := by
  rw [Reading.named_cons]
  show (Except.ok name >>= _) = _
  cases h : Partial.put? depth name (reading v) fs p <;> simp [bind, Except.bind, h]

theorem ofMembers_eq_ok (hfs : (fs.map Field.name).Nodup) :
    (∃ p', ofMembers fs depth other (Reading.named reading ms) p s = .ok (p', s') ∧
        Partial.finish fs p' = .ok r) ↔
      Partial.Completes reading depth ms fs p r ∧
        (unclaimed fs ms).foldlM (fun s m => other m.1 (reading m.2) s) s = .ok s' := by
  -- Each member is taken by one field, which changes `p`, or by none, which changes `s`.
  induction ms generalizing p s with
  | nil =>
    rw [Partial.completes_nil]
    constructor
    · rintro ⟨p', ⟨⟩, hr⟩
      exact ⟨hr, rfl⟩
    · rintro ⟨hr, ⟨⟩⟩
      exact ⟨p, rfl, hr⟩
  | cons m ms ih =>
    obtain ⟨name, v⟩ := m
    by_cases hname : name ∈ fs.map Field.name
    · obtain ⟨e, he, hiff⟩ := Partial.put?_of_mem hfs hname reading depth v p
      have hunclaimed : unclaimed fs ((name, v) :: ms) = unclaimed fs ms :=
        List.filter_cons_of_neg (by simpa using hname)
      rw [ofMembers_cons, he, Option.elim_some, hiff, hunclaimed]
      cases e with
      | error e => simp [bind, Except.bind]
      | ok p₁ => simpa [bind, Except.bind] using ih
    · have hunclaimed : unclaimed fs ((name, v) :: ms) = (name, v) :: unclaimed fs ms :=
        List.filter_cons_of_pos (by simpa using hname)
      rw [ofMembers_cons, Partial.put?_of_not_mem hname, Option.elim_none, hunclaimed,
        List.foldlM_cons, Partial.completes_cons_of_not_mem (m := (name, v)) hname]
      cases other name (reading v) s with
      | error e => simp [bind, Except.bind]
      | ok s₁ => simpa [bind, Except.bind] using ih

theorem ofObject_eq_ok (hfs : (fs.map Field.name).Nodup) :
    ofObject fs depth other s (Reading.named reading ms) .closed = .ok (r, s') ↔
      Partial.Completes reading depth ms fs (.empty fs) r ∧
        (unclaimed fs ms).foldlM (fun s m => other m.1 (reading m.2) s) s = .ok s' := by
  rw [← ofMembers_eq_ok hfs, ofObject]
  constructor
  · intro h
    obtain ⟨⟨p, s₁⟩, hmembers, h⟩ := bind_eq_ok.1 h
    obtain ⟨_, _, h⟩ := bind_eq_ok.1 h
    obtain ⟨r', hr', ⟨⟩⟩ := bind_eq_ok.1 h
    exact ⟨p, hmembers, hr'⟩
  · rintro ⟨p, hmembers, hr⟩
    exact bind_eq_ok.2 ⟨_, hmembers, bind_eq_ok.2 ⟨(), rfl, bind_eq_ok.2 ⟨r, hr, rfl⟩⟩⟩

end

theorem read_named_eq_ok (hfs : (fs.map Field.name).Nodup)
    (hpass : ∀ m ∈ ms, (reading m.2).pass = .ok ()) {name : String} :
    read name fs (depth + 1) (.object (Reading.named reading ms) .closed) = .ok r ↔
      Partial.Completes reading depth ms fs (.empty fs) r := by
  have hskip {ms : List (String × α)} (hpass : ∀ m ∈ ms, (reading m.2).pass = .ok ()) :
      ms.foldlM (fun (_ : Unit) m => (reading m.2).pass) () = .ok () := by
    induction ms with
    | nil => rfl
    | cons m ms ih =>
      obtain ⟨hm, hms⟩ := List.forall_mem_cons.1 hpass
      rw [List.foldlM_cons, hm]
      exact ih hms
  have hunclaimed : ∀ m ∈ unclaimed fs ms, (reading m.2).pass = .ok () :=
    fun m hm => hpass m (List.mem_filter.1 hm).1
  rw [read, map_eq_ok]
  constructor
  · rintro ⟨⟨r, _⟩, h, rfl⟩
    exact ((ofObject_eq_ok hfs).1 h).1
  · intro h
    exact ⟨(r, ()), (ofObject_eq_ok hfs).2 ⟨h, hskip hunclaimed⟩, rfl⟩

section

variable {ms : List (String × Json)}

theorem read_eq_ok (hfs : (fs.map Field.name).Nodup) {name : String} :
    read name fs (depth + 1) (.ofJson (.object ms)) = .ok r ↔
      Partial.Completes .ofJson depth ms fs (.empty fs) r := by
  rw [Reading.ofJson, Reading.ofMembers_eq_named]
  exact read_named_eq_ok hfs fun m _ => (Reading.isWhole_ofJson m.2).pass

theorem readWithRest_eq_ok (hfs : (fs.map Field.name).Nodup) {name : String}
    (hms : depthOfMembers ms ≤ depth) {rest : List (String × Json)} :
    readWithRest name fs (depth + 1) (.ofJson (.object ms)) = .ok (r, rest) ↔
      Partial.Completes .ofJson depth ms fs (.empty fs) r ∧ rest = unclaimed fs ms := by
  have hkeep {ms : List (String × Json)} (hms : ∀ m ∈ ms, m.2.depth ≤ depth)
      (rest : List (String × Json)) :
      ms.foldlM (fun rest m => do return (m.1, ← (Reading.ofJson m.2).keep depth) :: rest) rest =
        (.ok (ms.reverse ++ rest) : Except Error _) := by
    induction ms generalizing rest with
    | nil => rfl
    | cons m ms ih =>
      obtain ⟨hm, hms⟩ := List.forall_mem_cons.1 hms
      rw [List.foldlM_cons, Reading.keep_ofJson m.2 hm, List.reverse_cons, List.append_assoc]
      exact ih hms _
  have hunclaimed : ∀ m ∈ unclaimed fs ms, m.2.depth ≤ depth :=
    fun m hm => depthOfMembers_le_iff.1 hms m (List.mem_filter.1 hm).1
  have hrest := hkeep hunclaimed []
  rw [Reading.ofJson, Reading.ofMembers_eq_named, readWithRest]
  constructor
  · intro h
    obtain ⟨⟨r', gathered⟩, hobject, ⟨⟩⟩ := bind_eq_ok.1 h
    obtain ⟨hr, hgathered⟩ := (ofObject_eq_ok hfs).1 hobject
    cases hrest.symm.trans hgathered
    simp [hr]
  · rintro ⟨hr, rfl⟩
    refine bind_eq_ok.2 ⟨_, (ofObject_eq_ok hfs).2 ⟨hr, hrest⟩, ?_⟩
    simp
    rfl

end

end Record

end TreeSelection.Json
