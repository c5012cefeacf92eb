import TreeSelection.FileStore

namespace TreeSelection.FileStore

variable {s s' : FileStore} {p q : Place} {a : Address} {c : Content} {t : String}

theorem isDir_eq_true_iff : s.isDir a = true ↔ isOutermost a = true ∨ a ∈ s.dirs := by
  rw [isDir, Bool.or_eq_true, List.contains_iff_mem]

theorem isFile_of_lookup (h : s.files.lookup a = some c) : s.isFile a = true := by
  rw [isFile, h, Option.isSome_some]

theorem read_eq_ok_iff : s.read p = .ok t ↔ ∃ a, s.address p = .ok a ∧ s.isDir a = false ∧
    p.slash = false ∧ s.files.lookup a = some (.text t) := by
  show ((s.address p) >>= fun a => _) = _ ↔ _
  cases s.address p with
  | error e => simp [bind, Except.bind]
  | ok a =>
    show (ite (s.isDir a = true) _ _ : Except FileError String) = _ ↔ _
    cases hdir : s.isDir a with
    | true => simp [hdir]
    | false =>
      cases hlookup : s.files.lookup a with
      | none => simp [hdir, hlookup]
      | some content =>
        cases hslash : p.slash <;> cases content <;> simp [hdir, hlookup]

theorem follow_of_subset (h : s.dirs ⊆ s'.dirs) {here : Address} {steps : List String}
    (hfollow : s.follow here steps = .ok a) : s'.follow here steps = .ok a := by
  induction steps generalizing here with
  | nil => exact hfollow
  | cons step steps ih =>
    rw [follow] at hfollow
    split at hfollow
    · next hdir =>
      have hdir' : s'.isDir here = true := by
        rw [isDir_eq_true_iff] at hdir ⊢
        exact hdir.imp_right fun hdir => h hdir
      rw [follow, if_pos hdir']
      exact ih hfollow
    · split at hfollow <;> cases hfollow

structure Grows (s s' : FileStore) : Prop where
  files : s'.files = s.files
  dirs : s.dirs ⊆ s'.dirs
  made : ∀ a ∈ s'.dirs, a ∈ s.dirs ∨ s.isFile a = false

namespace Grows

theorem refl (s : FileStore) : s.Grows s := ⟨rfl, fun _ => id, fun _ => .inl⟩

theorem trans {s₁ s₂ s₃ : FileStore} (h : s₁.Grows s₂) (h' : s₂.Grows s₃) : s₁.Grows s₃ where
  files := h'.files.trans h.files
  dirs _ ha := h'.dirs (h.dirs ha)
  made a ha := by
    rcases h'.made a ha with ha | ha
    · exact h.made a ha
    · rw [isFile, h.files] at ha
      exact .inr ha

theorem isDir_eq_false (h : s.Grows s') (ha : s.isDir a = false) (hfile : s.isFile a = true) :
    s'.isDir a = false := by
  rw [← Bool.not_eq_true, isDir_eq_true_iff, not_or] at ha ⊢
  refine ⟨ha.1, fun hmade => ?_⟩
  rcases h.made a hmade with hdir | hfree
  · exact ha.2 hdir
  · simp [hfile] at hfree

theorem read_eq_ok (h : s.Grows s') (hread : s.read p = .ok t) : s'.read p = .ok t := by
  obtain ⟨a, haddress, hdir, hslash, hlookup⟩ := read_eq_ok_iff.1 hread
  have hfree := h.isDir_eq_false hdir (isFile_of_lookup hlookup)
  exact read_eq_ok_iff.2
    ⟨a, follow_of_subset h.dirs haddress, hfree, hslash, by rw [h.files, hlookup]⟩

end Grows

theorem makeDir_cases (steps : List String) (s : FileStore) :
    (∃ r, (makeDir steps).run.run s = (r, s)) ∨
      ∃ a, s.isFile a = false ∧
        (makeDir steps).run.run s = (.ok (), { s with dirs := a :: s.dirs }) := by
  show (∃ r, ((liftM (s.follow [] steps) : Action Address) >>= fun a => _ : Action Unit) s = _) ∨
    ∃ a, _ ∧ ((liftM (s.follow [] steps) : Action Address) >>= fun a => _ : Action Unit) s = _
  cases s.follow [] steps with
  | error e => exact .inl ⟨_, rfl⟩
  | ok a =>
    show (∃ r, (ite (s.isDir a = true) _ (ite (s.isFile a = true) _ _) : Action Unit) s = _) ∨
      ∃ b, _ ∧ (ite (s.isDir a = true) _ (ite (s.isFile a = true) _ _) : Action Unit) s = _
    split
    · exact .inl ⟨_, rfl⟩
    · split
      · exact .inl ⟨_, rfl⟩
      · next hfile => exact .inr ⟨a, by simpa using hfile, rfl⟩

namespace Action

variable {α β : Type}

theorem run_bind (x : Action α) (f : α → Action β) (s : FileStore) : (x >>= f).run.run s =
    match x.run.run s with
    | (.ok a, s') => (f a).run.run s'
    | (.error e, s') => (.error e, s') := by
  unfold ExceptT.run StateT.run
  simp only [bind, ExceptT.bind, ExceptT.mk, StateT.bind, ExceptT.bindCont]
  cases x s with
  | mk r s' => cases r <;> rfl

theorem run_tryCatch (x : Action α) (f : FileError → Action α) (s : FileStore) :
    (tryCatch x f).run.run s =
      match x.run.run s with
      | (.ok a, s') => (.ok a, s')
      | (.error e, s') => (f e).run.run s' := by
  show (ExceptT.tryCatch x f) s = _
  unfold ExceptT.run StateT.run
  simp only [ExceptT.tryCatch, ExceptT.mk, bind, StateT.bind]
  cases x s with
  | mk r s' => cases r <;> rfl

def Grows (x : Action α) : Prop := ∀ s : FileStore, FileStore.Grows s (x.run.run s).2

variable {x : Action α}

theorem Grows.bind {f : α → Action β} (hx : x.Grows) (hf : ∀ a, (f a).Grows) :
    (x >>= f).Grows := by
  intro s
  have hs := hx s
  rw [run_bind]
  generalize x.run.run s = out at hs ⊢
  rcases out with ⟨e | a, s'⟩
  · exact hs
  · exact hs.trans (hf a s')

theorem Grows.tryCatch {f : FileError → Action α} (hx : x.Grows) (hf : ∀ e, (f e).Grows) :
    Grows (tryCatch x f) := by
  intro s
  have hs := hx s
  rw [run_tryCatch]
  generalize x.run.run s = out at hs ⊢
  rcases out with ⟨e | a, s'⟩
  · exact hs.trans (hf e s')
  · exact hs

end Action

theorem Action.grows_makeDir (steps : List String) : (makeDir steps).Grows := by
  intro s
  rcases makeDir_cases steps s with ⟨r, h⟩ | ⟨a, hfree, h⟩
  · rw [h]
    exact .refl s
  · rw [h]
    refine ⟨rfl, List.subset_cons_self _ _, fun b hb => ?_⟩
    rcases List.mem_cons.1 hb with rfl | hb
    · exact .inr hfree
    · exact .inl hb

theorem Action.grows_makeDirs (steps : List String) : (makeDirs steps).Grows := by
  induction steps with
  | nil => exact FileStore.Grows.refl
  | cons step above ih =>
    refine Action.Grows.tryCatch (grows_makeDir _) fun e => ?_
    cases e with
    | notFound => exact ih.bind fun _ => grows_makeDir _
    | _ => exact FileStore.Grows.refl

theorem write_cases (p : Place) (c : Content) (s : FileStore) :
    (∃ e, (write p c).run.run s = (.error e, s)) ∨
      ∃ a, s.address p = .ok a ∧ s.isDir a = false ∧ p.slash = false ∧
        (write p c).run.run s = (.ok (), { s with files := (a, c) :: s.files }) := by
  show (∃ e, ((liftM (s.address p) : Action Address) >>= fun a => _ : Action Unit) s = _) ∨
    ∃ a, _ ∧ _ ∧ _ ∧ ((liftM (s.address p) : Action Address) >>= fun a => _ : Action Unit) s = _
  cases s.address p with
  | error e => exact .inl ⟨e, rfl⟩
  | ok a =>
    show (∃ e, (ite ((s.isDir a || p.slash) = true) _ _ : Action Unit) s = _) ∨
      ∃ b, _ ∧ _ ∧ _ ∧ (ite ((s.isDir a || p.slash) = true) _ _ : Action Unit) s = _
    split
    · exact .inl ⟨_, rfl⟩
    · next h =>
      rw [Bool.or_eq_true, not_or, Bool.not_eq_true, Bool.not_eq_true] at h
      exact .inr ⟨a, rfl, h.1, h.2, rfl⟩

theorem address_of_write (file : Address × Content) (h : s.address p = .ok a) :
    FileStore.address { s with files := file :: s.files } p = .ok a := by
  have hdirs : s.dirs ⊆ (FileStore.mk (file :: s.files) s.dirs).dirs := List.Subset.refl _
  exact follow_of_subset hdirs h

theorem read_of_write (h : (write p (.text t)).run.run s = (.ok (), s')) : s'.read p = .ok t := by
  rcases write_cases p (.text t) s with ⟨e, hrun⟩ | ⟨a, haddress, hdir, hslash, hrun⟩
  · cases hrun.symm.trans h
  · cases hrun.symm.trans h
    have haddress' := address_of_write (a, .text t) haddress
    exact read_eq_ok_iff.2 ⟨a, haddress', hdir, hslash, List.lookup_cons_self⟩

theorem read_write (h : s.read p = .ok t)
    (hne : ((write q c).run.run s).1 = .ok () →
      ((write q c).run.run s).2.address q ≠ ((write q c).run.run s).2.address p) :
    ((write q c).run.run s).2.read p = .ok t := by
  obtain ⟨a, haddress, hdir, hslash, hlookup⟩ := read_eq_ok_iff.1 h
  rcases write_cases q c s with ⟨e, hrun⟩ | ⟨b, hb, -, -, hrun⟩
  · rw [hrun]
    exact h
  · rw [hrun] at hne ⊢
    have haddress' := address_of_write (b, c) haddress
    have hb' := address_of_write (b, c) hb
    have hab : (a == b) = false := by
      rw [beq_eq_false_iff_ne]
      rintro rfl
      exact hne rfl (hb'.trans haddress'.symm)
    refine read_eq_ok_iff.2 ⟨a, haddress', hdir, hslash, ?_⟩
    simpa only [List.lookup_cons, hab] using hlookup

theorem writeWithDirs_cases (p : Place) (c : Content) (s : FileStore) :
    ∃ s', s.Grows s' ∧ ((∃ e, (writeWithDirs p c).run.run s = (.error e, s')) ∨
      (writeWithDirs p c).run.run s = (write p c).run.run s') := by
  have hrun : (writeWithDirs p c).run.run s =
      (if s.isThere ⟨p.above, false⟩ then write p c
        else makeDirs p.above.reverse >>= fun _ => write p c).run.run s := rfl
  rw [hrun]
  split
  · exact ⟨s, .refl s, .inr rfl⟩
  · have hgrows := Action.grows_makeDirs p.above.reverse s
    rw [Action.run_bind]
    generalize (makeDirs p.above.reverse).run.run s = out at hgrows ⊢
    rcases out with ⟨e | _, s'⟩
    · exact ⟨s', hgrows, .inl ⟨e, rfl⟩⟩
    · exact ⟨s', hgrows, .inr rfl⟩

theorem read_of_writeWithDirs (h : (writeWithDirs p (.text t)).run.run s = (.ok (), s')) :
    s'.read p = .ok t := by
  obtain ⟨s₁, -, ⟨e, hrun⟩ | hrun⟩ := writeWithDirs_cases p (.text t) s
  · cases hrun.symm.trans h
  · exact read_of_write (hrun.symm.trans h)

theorem read_writeWithDirs (h : s.read p = .ok t)
    (hne : ((writeWithDirs q c).run.run s).1 = .ok () →
      ((writeWithDirs q c).run.run s).2.address q ≠ ((writeWithDirs q c).run.run s).2.address p) :
    ((writeWithDirs q c).run.run s).2.read p = .ok t := by
  obtain ⟨s₁, hgrows, ⟨e, hrun⟩ | hrun⟩ := writeWithDirs_cases q c s
  · rw [hrun]
    exact hgrows.read_eq_ok h
  · rw [hrun] at hne ⊢
    exact read_write (hgrows.read_eq_ok h) hne

end TreeSelection.FileStore
