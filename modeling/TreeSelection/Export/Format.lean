import TreeSelection.Json.Variant
import TreeSelection.Text.Blank
import TreeSelection.Text.LowerCase

namespace TreeSelection

inductive Format
  | zip
  | markdown
  | txt
  deriving DecidableEq

namespace Format

def name : Format → String
  | zip => "zip"
  | markdown => "markdown"
  | txt => "txt"

def extension : Format → String
  | zip => "zip"
  | markdown => "md"
  | txt => "txt"

def ofText? (text : String) : Option Format :=
  match Text.lowerAscii (Text.trim text) with
  | "zip" => some zip
  | "md" | "markdown" => some markdown
  | "txt" | "text" => some txt
  | _ => none

def variants : Json.Variants Format := [zip, markdown, txt].map fun f => (f.name, f)

@[simp]
theorem ofName_name (f : Format) : variants.ofName f.name = .ok f := by
  cases f <;> rfl

end Format

end TreeSelection
