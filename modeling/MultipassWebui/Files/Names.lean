import Mathlib.Data.List.DropRight

/-!
# File names
-/

namespace MultipassWebui.Files

/-- `File.basename`: the last component, without slashes at the end. -/
def basename (path : String) : String :=
  let trimmed := path.toList.rdropWhile (· = '/')
  if trimmed = [] ∧ path ≠ "" then "/" else String.ofList (trimmed.rtakeWhile (· ≠ '/'))

/-- `File.join(directory, name)` of a name that does not begin with a slash. -/
def join (directory name : String) : String :=
  String.ofList (directory.toList.rdropWhile (· = '/')) ++ "/" ++ name

end MultipassWebui.Files
