import TreeSelection.Proofs.Config.Migration
import TreeSelection.Proofs.FileStore

namespace TreeSelection.Config

variable {c : Config} {p : Place} {s s' : FileStore}

inductive Call
  | save (c : Config) (p : Place)
  | exportTo (c : Config) (p : Place)
  | load (p : Place)
  | importFrom (p : Place)
  | write (content : Content) (p : Place)

namespace Call

def action : Call → FileStore.Action Unit
  | .save c p => c.save p
  | .exportTo c p => c.exportTo p
  | .load p => Config.load p >>= fun _ => return ()
  | .importFrom _ => return ()
  | .write content p => FileStore.writeWithDirs p content

def perform (s : FileStore) (call : Call) : FileStore := (call.action.run.run s).2

def target? (s : FileStore) : Call → Option Place
  | .save _ p | .exportTo _ p | .write _ p => some p
  | .load p => if s.isThere p then none else some p
  | .importFrom _ => none

def Writes (call : Call) (s : FileStore) (p : Place) : Prop :=
  (call.action.run.run s).1 = .ok () ∧
    ∃ q ∈ call.target? s, (call.perform s).address q = (call.perform s).address p

instance (call : Call) (s : FileStore) (p : Place) : Decidable (call.Writes s p) :=
  inferInstanceAs (Decidable (_ ∧ ∃ q ∈ call.target? s, _))

end Call

/-- None of the calls, made one after another, writes at the place. -/
def Spares (p : Place) : FileStore → List Call → Prop
  | _, [] => True
  | s, call :: calls => ¬ call.Writes s p ∧ Spares p (call.perform s) calls

structure Gives (s : FileStore) (p : Place) (c : Config) : Prop where
  load_eq : (load p).run.run s = (.ok c, s)
  importFrom_eq : importFrom p s = .ok c

/-- The place gives the settings now, and after any calls that do not write there. -/
def Lasts (s : FileStore) (p : Place) (c : Config) : Prop :=
  ∀ calls, Spares p s calls → Gives (calls.foldl Call.perform s) p c

section

variable (c)

theorem isGiven_toJson : ∀ m ∈ settings, IsGiven [] c.toJson.members m.1 (m.2 c) := by
  intro m hm
  rw [IsGiven, if_neg List.not_mem_nil, Json.lastValue?_eq_getLast?, valuesOf_toJson c m hm]
  rfl

theorem isPlain_members (hsize : c.maxSizeMb < Nat.pow 2 64) :
    ∀ m ∈ c.toJson.members, m.2.IsPlain := by
  have hlast : Json.IsPlain (.option .text c.lastRepository) := by
    cases c.lastRepository with
    | none => exact .null
    | some last => exact .text last
  simp [toJson, Json.members, Json.IsPlain.bool, Json.IsPlain.text, Json.IsPlain.texts,
    Json.IsPlain.nat hsize, hlast]

theorem isText_toText (hsize : c.maxSizeMb < Nat.pow 2 64) : Json.IsText c.toJson c.toText :=
  Json.isText_pretty (Json.numbersSpelled_object (c.isPlain_members hsize))

theorem ofAnyText_toText (hsize : c.maxSizeMb < Nat.pow 2 64) : ofAnyText c.toText = .ok c := by
  have hdepth : c.toJson.depth ≤ Json.maxDepth :=
    (Json.depth_object_le (c.isPlain_members hsize)).trans (by decide)
  exact ofAnyText_eq_ok c.isGiven_toJson hdepth (c.isText_toText hsize)

end

theorem gives_of_read {text : String} (hread : s.read p = .ok text)
    (htext : ofAnyText text = .ok c) : Gives s p c where
  load_eq := by
    show (ite (s.isThere p = true) _ _ : FileStore.Action Config) s = _
    rw [if_pos (isThere_of_read_eq_ok hread), hread]
    show (Except.ok _, s) = _
    rw [htext]
  importFrom_eq := by
    rw [importFrom, hread]
    exact congrArg (Except.mapError StoreError.text) htext

theorem run_load_of_isThere (h : s.isThere p = true) : ((load p).run.run s).2 = s := by
  show ((ite (s.isThere p = true) _ _ : FileStore.Action Config) s).2 = s
  rw [if_pos h]
  cases hread : s.read p <;> rfl

theorem run_load_of_not_isThere (h : s.isThere p = false) :
    (load p).run.run s = (save {} p >>= fun _ => return {}).run.run s := by
  show (ite (s.isThere p = true) _ _ : FileStore.Action Config) s = _
  rw [if_neg (by simp [h])]
  rfl

theorem Call.perform_load_of_isThere (h : s.isThere p = true) : (Call.load p).perform s = s := by
  have hrun := Config.run_load_of_isThere h
  show ((Config.load p >>= _).run.run s).2 = s
  rw [FileStore.Action.run_bind]
  generalize (Config.load p).run.run s = out at hrun ⊢
  rcases out with ⟨e | d, s'⟩ <;> exact hrun

theorem Call.run_load_of_not_isThere (h : s.isThere p = false) :
    (Call.load p).action.run.run s = (Call.save {} p).action.run.run s := by
  show (Config.load p >>= _).run.run s = (Config.save {} p).run.run s
  rw [FileStore.Action.run_bind, Config.run_load_of_not_isThere h, FileStore.Action.run_bind]
  rcases (Config.save {} p).run.run s with ⟨e | _, s'⟩ <;> rfl

theorem Call.read_perform {text : String} (call : Call) (hread : s.read p = .ok text)
    (hspares : ¬ call.Writes s p) : (call.perform s).read p = .ok text := by
  cases call with
  | save c q =>
    exact FileStore.read_writeWithDirs hread fun hok heq => hspares ⟨hok, q, rfl, heq⟩
  | exportTo c q =>
    exact FileStore.read_write hread fun hok heq => hspares ⟨hok, q, rfl, heq⟩
  | load q =>
    cases hthere : s.isThere q with
    | true => rwa [perform_load_of_isThere hthere]
    | false =>
      rw [Writes, perform, run_load_of_not_isThere hthere] at hspares
      rw [perform, run_load_of_not_isThere hthere]
      refine FileStore.read_writeWithDirs hread fun hok heq => hspares ⟨hok, q, ?_, heq⟩
      rw [target?, hthere]
      rfl
  | importFrom q => exact hread
  | write content q =>
    exact FileStore.read_writeWithDirs hread fun hok heq => hspares ⟨hok, q, rfl, heq⟩

theorem read_calls {text : String} {calls : List Call} (hread : s.read p = .ok text)
    (hspares : Spares p s calls) : (calls.foldl Call.perform s).read p = .ok text := by
  induction calls generalizing s with
  | nil => exact hread
  | cons call calls ih => exact ih (call.read_perform hread hspares.1) hspares.2

theorem lasts_of_read (hsize : c.maxSizeMb < Nat.pow 2 64) (hread : s.read p = .ok c.toText) :
    Lasts s p c := by
  intro calls hspares
  exact gives_of_read (read_calls hread hspares) (c.ofAnyText_toText hsize)

theorem lasts_of_save (hsize : c.maxSizeMb < Nat.pow 2 64)
    (h : (c.save p).run.run s = (.ok (), s')) : Lasts s' p c :=
  lasts_of_read hsize (FileStore.read_of_writeWithDirs h)

/-- Settings that are written are the settings there, and so are the defaults where loading found
nothing, until something else is written. -/
theorem lasts_of_written (c : Config) (hsize : c.maxSizeMb < Nat.pow 2 64) (p : Place)
    (s s' : FileStore) :
    ((c.save p).run.run s = (.ok (), s') → Lasts s' p c) ∧
      ((c.exportTo p).run.run s = (.ok (), s') → Lasts s' p c) ∧
        ∀ d, s.isThere p = false → (load p).run.run s = (.ok d, s') → d = {} ∧ Lasts s' p {} := by
  refine ⟨lasts_of_save hsize, fun h => ?_, fun d hthere h => ?_⟩
  · exact lasts_of_read hsize (FileStore.read_of_write h)
  · rw [run_load_of_not_isThere hthere, FileStore.Action.run_bind] at h
    rcases hsave : (save {} p).run.run s with ⟨e | _, s₁⟩
    · rw [hsave] at h
      cases h
    · rw [hsave] at h
      cases h
      exact ⟨rfl, lasts_of_save (by decide) hsave⟩

theorem lasts_of_written_roundabout :
    let c : Config :=
      { includes := ["", "é\n\"\\"], maxSizeMb := Nat.pow 2 64 - 1, lastRepository := some "o/n@v" }
    let p : Place := ⟨["a", ".", "b", "..", "config.json"], false⟩
    let q : Place := ⟨["config.json"], false⟩
    let s := ((c.save p).run.run .empty).2
    let s' := ((load q).run.run s).2
    (c.save p).run.run .empty = (.ok (), s) ∧ Spares p s [.load q, .write (.text "") q] ∧
      Gives (((Call.write (.text "") q).perform s')) p c ∧
        s.isThere q = false ∧ (load q).run.run s = (.ok {}, s') ∧ Gives s' q {} := by
  intro c p q s s'
  have hsave : (c.save p).run.run .empty = (.ok (), s) := by rfl
  have hthere : s.isThere q = false := by decide +kernel
  have hload : (load q).run.run s = (.ok {}, s') := by rfl
  have hspares : Spares p s [.load q, .write (.text "") q] :=
    ⟨by decide +kernel, by decide +kernel, trivial⟩
  have hsize : c.maxSizeMb < Nat.pow 2 64 := by decide
  have hlasts := (lasts_of_written c hsize p .empty s).1 hsave
  have hdefaults := (lasts_of_written c hsize q s s').2.2 {} hthere hload
  exact ⟨hsave, hspares, hlasts _ hspares, hthere, hload, hdefaults.2 [] trivial⟩

end TreeSelection.Config
