import Ill.Base.LastSplit
import Mathlib.Data.Char
import Mathlib.Data.List.Lex
import Mathlib.Data.Prod.Lex

/-!
# Paths in a file system

A path is a text whose components are separated by `/`. It is looked up from a
directory, or from the root if it starts with `/`, one component after the other;
an empty component and `.` stay where they are, which only a directory allows.
Paths are ordered by their components, and a file name may have an extension.
-/

namespace Ill.Base.Paths

universe u

/-- The directories and files of a host. Links are followed, so a node may be
reached in several ways. -/
structure FileSystem (Node : Type u) where
  root : Node
  isDir : Node → Bool
  /-- Where a name leads from a directory, `..` included. -/
  child : Node → List Char → Option Node

namespace FileSystem

variable {Node : Type u} (fs : FileSystem Node)

/-- One component further. -/
def enter (node : Node) (name : List Char) : Option Node :=
  if fs.isDir node then
    if name = [] ∨ name = ['.'] then some node else fs.child node name
  else none

/-- Where a path leads from a directory. The empty path leads nowhere. -/
def walk (origin : Node) (path : List Char) : Option Node :=
  if path = [] then none
  else (path.splitOn '/').foldlM fs.enter (if path.head? = some '/' then fs.root else origin)

/-- The directory that a path leads to. -/
def directory (origin : Node) (path : List Char) : Option Node :=
  (fs.walk origin path).filter fs.isDir

variable {fs}

theorem enter_stay {node : Node} {name : List Char} (stay : name = [] ∨ name = ['.']) :
    fs.enter node name = if fs.isDir node then some node else none := by
  rw [enter, if_pos stay]

/-- Nothing is entered from a node that is no directory. -/
theorem foldlM_of_file {node : Node} (file : fs.isDir node = false) {names : List (List Char)}
    (some_ : names ≠ []) : names.foldlM fs.enter node = none := by
  cases names with
  | nil => exact absurd rfl some_
  | cons name rest => simp [enter, file]

/-- An absolute path leads to one place from everywhere. -/
theorem walk_absolute {path : List Char} (absolute : path.head? = some '/') (origin other : Node) :
    fs.walk origin path = fs.walk other path := by
  rw [walk, walk, if_pos absolute, if_pos absolute]

/-- The components of a relative path are entered from the origin. -/
theorem walk_relative {path : List Char} (some_ : path ≠ []) (relative : path.head? ≠ some '/')
    (origin : Node) : fs.walk origin path = (path.splitOn '/').foldlM fs.enter origin := by
  rw [walk, if_neg some_, if_neg relative]

/-- A path behind another one is looked up where that one leads. -/
theorem walk_append {base path : List Char} (based : base ≠ []) (some_ : path ≠ [])
    (relative : path.head? ≠ some '/') (origin : Node) :
    fs.walk origin (base ++ '/' :: path) =
      (fs.walk origin base).bind fun node => fs.walk node path := by
  have whole : base ++ '/' :: path ≠ [] := by simp
  have head : (base ++ '/' :: path).head? = base.head? := List.head?_append_of_ne_nil _ based
  simp only [walk_relative some_ relative]
  rw [walk, walk, if_neg whole, if_neg based, head, List.splitOn_append_cons_self,
    List.foldlM_append]
  rfl

/-- The same behind a path that ends in a separator. -/
theorem walk_append_closed {base path : List Char} (some_ : path ≠ [])
    (relative : path.head? ≠ some '/') (origin : Node) :
    fs.walk origin (base ++ '/' :: path) =
      (fs.walk origin (base ++ ['/'])).bind fun node => fs.walk node path := by
  have whole : base ++ '/' :: path ≠ [] := by simp
  have closed : base ++ ['/'] ≠ [] := by simp
  have head : (base ++ '/' :: path).head? = (base ++ ['/']).head? := by cases base <;> rfl
  simp only [walk_relative some_ relative]
  rw [walk, walk, if_neg whole, if_neg closed, head, List.splitOn_append_cons_self,
    List.splitOn_append_cons_self, List.foldlM_append, List.foldlM_append, List.splitOn_nil]
  generalize (base.splitOn '/').foldlM fs.enter _ = reached
  cases reached with
  | none => rfl
  | some node =>
    -- What follows the separator can only be entered from a directory.
    cases kind : fs.isDir node with
    | true => simp [enter_stay, kind]
    | false => simp [enter_stay, kind, foldlM_of_file kind]

/-- Only a directory leads on. -/
theorem walk_of_file {node : Node} (file : fs.isDir node = false) {path : List Char}
    (relative : path.head? ≠ some '/') : fs.walk node path = none := by
  by_cases empty : path = []
  · rw [walk, if_pos empty]
  · rw [walk_relative empty relative, foldlM_of_file file (List.splitOn_ne_nil '/' path)]

/-- A relative path goes on from the directory that another one leads to. -/
theorem walk_bind {path : List Char} (relative : path.head? ≠ some '/') (origin : Node)
    (base : List Char) :
    ((fs.walk origin base).bind fun node => fs.walk node path) =
      (fs.directory origin base).bind fun node => fs.walk node path := by
  rw [directory]
  cases fs.walk origin base with
  | none => rfl
  | some node =>
    cases kind : fs.isDir node with
    | true => simp [Option.filter_some, kind]
    | false => simp [Option.filter_some, kind, walk_of_file kind relative]

theorem directory_absolute {path : List Char} (absolute : path.head? = some '/')
    (origin other : Node) : fs.directory origin path = fs.directory other path := by
  rw [directory, directory, walk_absolute absolute origin other]

theorem directory_eq_some {origin node : Node} {path : List Char} :
    fs.directory origin path = some node ↔ fs.walk origin path = some node ∧ fs.isDir node = true := by
  rw [directory, Option.filter_eq_some_iff]

end FileSystem

/-! ## Components -/

/-- Whether a component behind the front is passed over. -/
def passedOver (name : List Char) : Bool := name == [] || name == ['.']

/-- What a path starts with: the root, or a leading `.`, which is not passed over. -/
def front : List Char → List Char
  | '/' :: _ => ['/']
  | ['.'] => ['.']
  | '.' :: '/' :: _ => ['.']
  | _ => []

/-- What stands behind the front, separator by separator. -/
def behindFront (path : List Char) : List (List Char) :=
  (path.drop (front path).length).splitOn '/'

/-- The path without its last component, as it is written. The root and the empty
path have no parent, and that of a single component is empty. -/
def parent (path : List Char) : Option (List Char) :=
  match (behindFront path).rdropWhile passedOver with
  | [] => if front path = ['.'] then some [] else none
  | names => some (front path ++ ['/'].intercalate (names.dropLast.rdropWhile passedOver))

example : parent "tests//t.ill/".toList = some "tests".toList := by decide

inductive Component where
  | root
  | current
  | parent
  | normal (name : List Char)
deriving DecidableEq

def component (name : List Char) : Component :=
  if name = ['.', '.'] then .parent else .normal name

/-- The components of a path: its front and then those that are not passed over. -/
def components (path : List Char) : List Component :=
  (match front path with
    | [] => []
    | first :: _ => [if first = '/' then .root else .current]) ++
  ((behindFront path).filter fun name => !passedOver name).map component

/-- The root comes first, names come last and by their characters. -/
def Component.key : Component → ℕ ×ₗ List Char
  | .root => toLex (0, [])
  | .current => toLex (1, [])
  | .parent => toLex (2, [])
  | .normal name => toLex (3, name)

/-- The order of paths: component by component, a beginning before the whole. -/
def precedes (path other : List Char) : Bool :=
  (components path).map Component.key ≤ (components other).map Component.key

theorem precedes_trans {path other third : List Char} (first : precedes path other = true)
    (second : precedes other third = true) : precedes path third = true := by
  rw [precedes, decide_eq_true_iff] at first second ⊢
  exact le_trans first second

theorem precedes_total (path other : List Char) : (precedes path other || precedes other path) = true := by
  rw [Bool.or_eq_true, precedes, precedes, decide_eq_true_iff, decide_eq_true_iff]
  exact le_total _ _

/-- The name of the file, if the last component is a name. -/
def fileName (path : List Char) : Option (List Char) :=
  match (components path).getLast? with
  | some (.normal name) => some name
  | _ => none

/-- What stands behind the last dot of a name, unless nothing stands before it. -/
def extension (name : List Char) : Option (List Char) :=
  match name.rdropWhile (· != '.') with
  | _ :: _ :: _ => some (name.rtakeWhile (· != '.'))
  | _ => none

theorem extension_append {stem ending : List Char} (undotted : '.' ∉ ending) :
    extension (stem ++ '.' :: ending) = if stem = [] then none else some ending := by
  rw [extension, LastSplit.rdropWhile_append undotted, LastSplit.rtakeWhile_append undotted]
  cases stem with
  | nil => rfl
  | cons first rest => cases rest <;> rfl

/-- An extension is what follows the last dot of a name that does not start with it. -/
theorem extension_eq_some {name ending : List Char} :
    extension name = some ending ↔ ∃ stem, stem ≠ [] ∧ name = stem ++ '.' :: ending ∧ '.' ∉ ending := by
  constructor
  · intro found
    by_cases dotted : '.' ∈ name
    · obtain ⟨front, tail, rfl, plain⟩ := LastSplit.exists_of_mem dotted
      rw [extension_append plain] at found
      by_cases bare : front = []
      · simp [bare] at found
      · rw [if_neg bare] at found
        obtain rfl := Option.some.inj found
        exact ⟨front, bare, rfl, plain⟩
    · have none_ : name.rdropWhile (· != '.') = [] :=
        List.rdropWhile_eq_nil_iff.mpr (LastSplit.bne_of_notMem dotted)
      rw [extension, none_] at found
      cases found
  · rintro ⟨stem, some_, rfl, undotted⟩
    rw [extension_append undotted, if_neg some_]

/-- A name that a directory may list. -/
structure Listable (name : List Char) : Prop where
  some_ : name ≠ []
  notCurrent : name ≠ ['.']
  notParent : name ≠ ['.', '.']
  single : '/' ∉ name

theorem Listable.not_passedOver {name : List Char} (listable : Listable name) :
    passedOver name = false := by
  simp [passedOver, listable.some_, listable.notCurrent]

theorem length_front_le (path : List Char) : (front path).length ≤ 1 := by
  unfold front
  split <;> simp

/-- A name behind a separator is the last thing behind the front. -/
theorem behindFront_append {name : List Char} (single : '/' ∉ name) (before : List Char) :
    ∃ names, behindFront (before ++ '/' :: name) = names ++ [name] := by
  have alone : name.splitOn '/' = [name] := List.splitOn_eq_singleton single
  cases before with
  | nil => exact ⟨[], alone⟩
  | cons first rest =>
    have short := length_front_le (first :: rest ++ '/' :: name)
    refine ⟨((first :: rest).drop (front (first :: rest ++ '/' :: name)).length).splitOn '/', ?_⟩
    rw [behindFront, List.drop_append_of_le_length, List.splitOn_append_cons_self, alone]
    rw [List.length_cons]
    omega

/-- The file name of a path behind a separator. -/
theorem fileName_append {name : List Char} (listable : Listable name) (before : List Char) :
    fileName (before ++ '/' :: name) = some name := by
  obtain ⟨names, split⟩ := behindFront_append listable.single before
  have last : (components (before ++ '/' :: name)).getLast? = some (.normal name) := by
    rw [components, split, List.filter_append, List.filter_singleton, listable.not_passedOver,
      List.map_append]
    simp [component, listable.notParent]
  rw [fileName, last]

end Ill.Base.Paths
