import TreeSelection.Config.Text
import TreeSelection.FileStore

namespace TreeSelection.Config

inductive StoreError
  | file (e : FileError)
  | text (e : TextError)
  deriving DecidableEq

def defaultPlace : Place := ⟨["repopromptselect", "config.json"], false⟩

def save (c : Config) (p : Place) : FileStore.Action Unit :=
  FileStore.writeWithDirs p (.text c.toText)

def exportTo (c : Config) (p : Place) : FileStore.Action Unit :=
  FileStore.write p (.text c.toText)

def ofAnyText (s : String) : Except TextError Config :=
  match ofText s with
  | .ok c => .ok c
  | .error _ => ofPartialText s

/-- Reads the settings. A text that cannot be completed counts as the defaults, and a file that is
not there is made with them. -/
def load (p : Place) : FileStore.Action Config := do
  let s ← get
  if s.isThere p then do
    let text ← s.read p
    return match ofAnyText text with
      | .ok c => c
      | .error _ => {}
  else do
    save {} p
    return {}

def importFrom (p : Place) (s : FileStore) : Except StoreError Config := do
  let text ← (s.read p).mapError .file
  (ofAnyText text).mapError .text

end TreeSelection.Config
