import Ill.Base.Paths
import Ill.Runtime.Value

/-!
# Paths and environments of the processes that actors start

The path joins and the environment conversion shared by `exec` and
`container`. Paths are texts with `/` as separator.
-/

namespace Ill.Actor

/-- An absolute path replaces the base. -/
def isAbsolute (path : String) : Bool := "/".toList.isPrefixOf path.toList

def joinPath (base path : String) : String :=
  if isAbsolute path then path
  else if base = "" || "/".toList.isSuffixOf base.toList then base ++ path
  else base ++ "/" ++ path

theorem isAbsolute_iff {path : String} : isAbsolute path = true ↔ path.toList.head? = some '/' := by
  unfold isAbsolute
  rw [List.isPrefixOf_iff_prefix]
  change ['/'] <+: path.toList ↔ _
  cases path.toList with
  | nil => simp
  | cons first rest => simp [List.cons_prefix_cons, eq_comm]

theorem head_of_relative {path : String} (relative : isAbsolute path = false) :
    path.toList.head? ≠ some '/' := by
  rw [Ne, ← isAbsolute_iff, relative]
  exact Bool.false_ne_true

/-- A relative path stands behind a separator, which the base may end in. -/
theorem joinPath_toList {base path : String} (based : base ≠ "") (relative : isAbsolute path = false) :
    ∃ front, (joinPath base path).toList = front ++ '/' :: path.toList ∧
      (base.toList = front ∨ base.toList = front ++ ['/']) := by
  have unnamed : decide (base = "") = false := decide_eq_false based
  rw [joinPath, relative, if_neg Bool.false_ne_true, unnamed, Bool.false_or]
  by_cases closed : "/".toList.isSuffixOf base.toList = true
  · obtain ⟨front, split⟩ : ['/'] <:+ base.toList := List.isSuffixOf_iff_suffix.mp closed
    refine ⟨front, ?_, .inr split.symm⟩
    rw [if_pos closed, String.toList_append, ← split, List.append_assoc]
    rfl
  · refine ⟨base.toList, ?_, .inl rfl⟩
    rw [if_neg closed, String.toList_append, String.toList_append, List.append_assoc]
    rfl

/-- A relative path behind a base is looked up where the base leads. -/
theorem walk_joinPath {Node : Type*} {fs : Base.Paths.FileSystem Node} {base path : String}
    (based : base ≠ "") (some_ : path ≠ "") (relative : isAbsolute path = false) (origin : Node) :
    fs.walk origin (joinPath base path).toList =
      (fs.walk origin base.toList).bind fun node => fs.walk node path.toList := by
  have named : path.toList ≠ [] := by simpa using some_
  have head := head_of_relative relative
  obtain ⟨front, joined, rfl | closed⟩ := joinPath_toList based relative
  · rw [joined]
    exact Base.Paths.FileSystem.walk_append (by simpa using based) named head origin
  · rw [joined, closed]
    exact Base.Paths.FileSystem.walk_append_closed named head origin

/-- The text an environment variable gets from a value. -/
def envText : Value → Option String
  | .string text => some text
  | .number value => some (toString value)
  | .bool value => some (toString value)
  | .atom name => some name
  | _ => none

/-- The pairs an `env` keyword sets, or nothing when it is not a dict of
string-like values. -/
def applyEnv : Value → Option (List (String × String))
  | .dict fields =>
    fields.mapM fun (field : String × Value) => (envText field.2).map fun text => (field.1, text)
  | _ => none

end Ill.Actor
