import Ill.Actor.HostPath
import Mathlib.Data.List.Nodup

/-!
# Which files the arguments select

`ill test` and `ill check` take files and directories. Each directory is searched
and what is found there sorted, but what several arguments select is only put one
behind the other.
-/

namespace Ill.Main

open Actor Base

/-! ## The tree of directories -/

/-- A finite tree of files and directories. A directory lists its names in any order,
unless it cannot be read, and has a tree for each. -/
inductive Tree where
  | file
  | dir (readable : Bool) (names : List String) (distinct : names.Nodup)
    (listable : ∀ name ∈ names, Paths.Listable name.toList) (child : String → Tree)

namespace Tree

def isDir : Tree → Bool
  | .file => false
  | .dir .. => true

/-- What is at a location, given by the names that lead there. -/
def at_ : Tree → List String → Option Tree
  | tree, [] => some tree
  | .file, _ :: _ => none
  | .dir _ names _ _ child, name :: rest => if name ∈ names then (child name).at_ rest else none

/-- The file system of a tree, its nodes being locations. -/
def fileSystem (tree : Tree) : Paths.FileSystem (List String) where
  root := []
  isDir place := (tree.at_ place).any Tree.isDir
  child place name :=
    if name = ['.', '.'] then some place.dropLast
    else if (tree.at_ (place ++ [String.ofList name])).isSome then some (place ++ [String.ofList name])
    else none

theorem at_append {tree sub : Tree} {place : List String} (here : tree.at_ place = some sub)
    (rest : List String) : tree.at_ (place ++ rest) = sub.at_ rest := by
  induction place generalizing tree with
  | nil =>
    rw [at_] at here
    cases here
    rfl
  | cons name place ih =>
    cases tree with
    | file => cases here
    | dir readable names distinct listable child =>
      rw [at_] at here
      by_cases listed : name ∈ names
      · rw [if_pos listed] at here
        rw [List.cons_append, at_, if_pos listed, ih here]
      · rw [if_neg listed] at here
        cases here

end Tree

/-! ## Selecting files -/

/-- `is_ill_file` -/
def isIllFile (path : String) : Bool :=
  (Paths.fileName path.toList).bind Paths.extension == some "ill".toList

/-- `collect_ill_files_inner` on a directory that is reached by a path: the `.ill`
files below it, as its listings come. -/
def collectIllFilesInner (path : String) : Tree → List String
  | .file => []
  | .dir readable names _ _ child =>
    if readable then
      names.flatMap fun name =>
        if (child name).isDir then collectIllFilesInner (joinPath path name) (child name)
        else if isIllFile (joinPath path name) then [joinPath path name]
        else []
    else []

section

variable (tree : Tree) (runner : List String)

/-- The location that a path leads to from the directory of the runner. -/
def locate (path : String) : Option (List String) := tree.fileSystem.walk runner path.toList

/-- The tree that a path leads to. -/
def find (path : String) : Option Tree := (locate tree runner path).bind tree.at_

/-- `collect_ill_files`: nothing is found where no directory can be read. -/
def collectIllFiles (path : String) : List String :=
  let found := ((find tree runner path).map (collectIllFilesInner path)).getD []
  found.mergeSort fun left right => Paths.precedes left.toList right.toList

/-- Whether a path leads to a directory. -/
def isDirectory (path : String) : Bool := (find tree runner path).any Tree.isDir

/-- What one argument selects. -/
def select (path : String) : List String :=
  if isDirectory tree runner path then collectIllFiles tree runner path
  else if isIllFile path then [path]
  else []

def resolveFiles (paths : List String) : List String :=
  if paths = [] then collectIllFiles tree runner "." else paths.flatMap (select tree runner)

end

/-! ## What there is to select -/

/-- Names lead through directories that can be read to a file. -/
inductive Tree.Reaches : Tree → List String → Prop where
  | file : Reaches .file []
  | under {names : List String} {distinct : names.Nodup}
    {listable : ∀ name ∈ names, Paths.Listable name.toList} {child : String → Tree} {name : String}
    {rest : List String} (listed : name ∈ names) (inside : Reaches (child name) rest) :
    Reaches (.dir true names distinct listable child) (name :: rest)

namespace Tree

theorem eq_file_of_isDir {tree : Tree} (file : tree.isDir = false) : tree = .file := by
  cases tree with
  | file => rfl
  | dir => cases file

/-- Only a directory leads to what is named. -/
theorem Reaches.isDir {tree : Tree} {name : String} {rest : List String}
    (reaches : tree.Reaches (name :: rest)) : tree.isDir = true := by
  cases reaches with
  | under => rfl

theorem Reaches.isDir_append {tree : Tree} {names : List String} {name : String}
    (reaches : tree.Reaches (names ++ [name])) : tree.isDir = true := by
  cases names with
  | nil => exact reaches.isDir
  | cons => exact reaches.isDir

theorem reaches_nil_iff {tree : Tree} : tree.Reaches [] ↔ tree = .file := by
  constructor
  · intro reaches
    cases reaches with
    | file => rfl
  · rintro rfl
    exact .file

end Tree

/-- A name that ends in `.ill` and is more than that. -/
def IllName (name : String) : Prop := ∃ stem : String, stem ≠ "" ∧ name = stem ++ ".ill"

/-- An argument selects a path: itself, if it is no directory and named like a `.ill`
file, or else one to a `.ill` file that is found under the directory it is. -/
inductive Selects (tree : Tree) (runner : List String) (path : String) : String → Prop where
  | named {name : String} (noDirectory : isDirectory tree runner path = false)
    (final : Paths.fileName path.toList = some name.toList) (ill : IllName name) :
    Selects tree runner path path
  | found {sub : Tree} {names : List String} {name : String} (here : find tree runner path = some sub)
    (reaches : sub.Reaches (names ++ [name])) (ill : IllName name) :
    Selects tree runner path ((names ++ [name]).foldl joinPath path)

/-- Two paths are of one file. -/
def SameFile (tree : Tree) (runner : List String) (path other : String) : Prop :=
  path = other ∨ ∃ place, locate tree runner path = some place ∧ locate tree runner other = some place

/-- The arguments, the current directory if there are none. -/
def arguments (paths : List String) : List String := if paths = [] then ["."] else paths

/-- A list of paths is sorted and holds exactly the selected files, each once. -/
structure Resolved (tree : Tree) (runner : List String) (paths result : List String) : Prop where
  sorted : result.Pairwise fun left right => Paths.precedes left.toList right.toList = true
  selected : ∀ path ∈ result, ∃ argument ∈ arguments paths, Selects tree runner argument path
  complete : ∀ argument ∈ arguments paths, ∀ path, Selects tree runner argument path →
    ∃ listed ∈ result, SameFile tree runner listed path
  once : result.Pairwise fun left right => ¬ SameFile tree runner left right

/-- Of two arguments the earlier selects what comes first, and no file that the later
one selects. -/
def Apart (tree : Tree) (runner : List String) (earlier later : String) : Prop :=
  ∀ path other, Selects tree runner earlier path → Selects tree runner later other →
    Paths.precedes path.toList other.toList = true ∧ ¬ SameFile tree runner path other

/-! ## Names -/

theorem isIllFile_iff {path : String} :
    isIllFile path = true ↔ ∃ name : String, Paths.fileName path.toList = some name.toList ∧ IllName name := by
  have undotted : '.' ∉ "ill".toList := by decide
  rw [isIllFile, beq_iff_eq, Option.bind_eq_some_iff]
  constructor
  · rintro ⟨name, final, ending⟩
    obtain ⟨stem, some_, rfl, -⟩ := Paths.extension_eq_some.mp ending
    refine ⟨String.ofList stem ++ ".ill", ?_, String.ofList stem, by simpa using some_, rfl⟩
    rw [final]
    simp
  · rintro ⟨name, final, stem, some_, rfl⟩
    refine ⟨_, final, Paths.extension_eq_some.mpr ⟨stem.toList, by simpa using some_, ?_, undotted⟩⟩
    simp

theorem relative_of_listable {name : String} (listable : Paths.Listable name.toList) :
    isAbsolute name = false := by
  rw [← Bool.not_eq_true, isAbsolute_iff]
  intro first
  exact listable.single (List.mem_of_mem_head? first)

/-- What is listed in a directory keeps its name behind the path of the directory. -/
theorem fileName_joinPath {path name : String} (based : path ≠ "")
    (listable : Paths.Listable name.toList) :
    Paths.fileName (joinPath path name).toList = some name.toList := by
  obtain ⟨front, joined, -⟩ := joinPath_toList based (relative_of_listable listable)
  rw [joined]
  exact Paths.fileName_append listable front

theorem joinPath_ne_empty {path name : String} (based : path ≠ "")
    (listable : Paths.Listable name.toList) : joinPath path name ≠ "" := by
  obtain ⟨front, joined, -⟩ := joinPath_toList based (relative_of_listable listable)
  rintro empty
  simp [empty] at joined

/-- A joined path is one of a `.ill` file exactly if the name is. -/
theorem isIllFile_joinPath {path name : String} (based : path ≠ "")
    (listable : Paths.Listable name.toList) : isIllFile (joinPath path name) = true ↔ IllName name := by
  rw [isIllFile_iff, fileName_joinPath based listable]
  constructor
  · rintro ⟨other, same, ill⟩
    rwa [String.toList_injective (Option.some.inj same)]
  · intro ill
    exact ⟨name, rfl, ill⟩

/-! ## What is collected -/

/-- What is collected below a path: what is reached, if its name is one of a `.ill`
file. -/
theorem mem_collectIllFilesInner {tree : Tree} {path found : String} (based : path ≠ "") :
    found ∈ collectIllFilesInner path tree ↔
      ∃ names name, tree.Reaches (names ++ [name]) ∧ IllName name ∧
        found = (names ++ [name]).foldl joinPath path := by
  induction tree generalizing path with
  | file =>
    simp only [collectIllFilesInner, List.not_mem_nil, false_iff, not_exists, not_and]
    intro names name reaches
    cases reaches.isDir_append
  | dir readable listed distinct listable child ih =>
    rw [collectIllFilesInner]
    cases readable with
    | false =>
      simp only [Bool.false_eq_true, if_false, List.not_mem_nil, false_iff, not_exists, not_and]
      intro names name reaches
      cases names <;> cases reaches
    | true =>
      rw [if_pos rfl, List.mem_flatMap]
      constructor
      · rintro ⟨first, member, inside⟩
        have joined := joinPath_ne_empty based (listable first member)
        by_cases kind : (child first).isDir = true
        · rw [if_pos kind, ih first joined] at inside
          obtain ⟨names, name, reaches, ill, rfl⟩ := inside
          exact ⟨first :: names, name, .under member reaches, ill, rfl⟩
        · rw [if_neg kind] at inside
          have file := Tree.eq_file_of_isDir (Bool.not_eq_true _ ▸ kind)
          by_cases ill : isIllFile (joinPath path first) = true
          · rw [if_pos ill, List.mem_singleton] at inside
            refine ⟨[], first, .under member (Tree.reaches_nil_iff.mpr file), ?_, inside⟩
            exact (isIllFile_joinPath based (listable first member)).mp ill
          · simp [ill] at inside
      · rintro ⟨names, name, reaches, ill, rfl⟩
        cases names with
        | nil =>
          cases reaches with
          | under member inside =>
            have file := Tree.reaches_nil_iff.mp inside
            have named := (isIllFile_joinPath based (listable name member)).mpr ill
            refine ⟨name, member, ?_⟩
            simp [file, Tree.isDir, named]
        | cons first names =>
          cases reaches with
          | under member inside =>
            have joined := joinPath_ne_empty based (listable first member)
            refine ⟨first, member, ?_⟩
            rw [if_pos inside.isDir_append, ih first joined]
            exact ⟨names, name, inside, ill, rfl⟩

section

variable {tree : Tree} {runner : List String}

theorem ne_empty_of_locate {path : String} {place : List String}
    (located : locate tree runner path = some place) : path ≠ "" := by
  rintro rfl
  cases located

/-- A listed name leads from the place of its directory to the place of its tree. -/
theorem locate_joinPath {path name : String} {place : List String} {readable : Bool}
    {names : List String} {distinct : names.Nodup}
    {listable : ∀ name ∈ names, Paths.Listable name.toList} {child : String → Tree}
    (located : locate tree runner path = some place)
    (here : tree.at_ place = some (.dir readable names distinct listable child)) (listed : name ∈ names) :
    locate tree runner (joinPath path name) = some (place ++ [name]) ∧
      tree.at_ (place ++ [name]) = some (child name) := by
  have valid := listable name listed
  have inside : tree.at_ (place ++ [name]) = some (child name) := by
    rw [Tree.at_append here, Tree.at_, if_pos listed, Tree.at_]
  refine ⟨?_, inside⟩
  have based := ne_empty_of_locate located
  have relative := relative_of_listable valid
  have alone : name.toList.splitOn '/' = [name.toList] := List.splitOn_eq_singleton valid.single
  have head := head_of_relative relative
  rw [locate] at located ⊢
  rw [walk_joinPath based (by simpa using valid.some_) relative, located, Option.bind_some,
    Paths.FileSystem.walk_relative valid.some_ head, alone]
  have directory : tree.fileSystem.isDir place = true := by
    simp [Tree.fileSystem, here, Tree.isDir]
  have entered : tree.fileSystem.child place name.toList = some (place ++ [name]) := by
    simp [Tree.fileSystem, valid.notParent, inside]
  simp [Paths.FileSystem.enter, directory, valid.some_, valid.notCurrent, entered]

/-- Names lead on from the place that a path leads to. -/
theorem locate_of_reaches {sub : Tree} {names : List String} (reaches : sub.Reaches names)
    {path : String} {place : List String} (located : locate tree runner path = some place)
    (here : tree.at_ place = some sub) :
    locate tree runner (names.foldl joinPath path) = some (place ++ names) := by
  induction reaches generalizing path place with
  | file => rwa [List.append_nil]
  | under listed _ ih =>
    obtain ⟨joined, inside⟩ := locate_joinPath located here listed
    rw [List.foldl_cons, ih joined inside, List.append_assoc, List.singleton_append]

/-- What is collected below a path lies below its place. -/
theorem locate_of_mem {sub : Tree} {path found : String} {place : List String}
    (located : locate tree runner path = some place) (here : tree.at_ place = some sub)
    (member : found ∈ collectIllFilesInner path sub) :
    ∃ names, locate tree runner found = some (place ++ names) := by
  obtain ⟨names, name, reaches, -, rfl⟩ :=
    (mem_collectIllFilesInner (ne_empty_of_locate located)).mp member
  exact ⟨names ++ [name], locate_of_reaches reaches located here⟩

theorem not_sameFile {path other : String} {place elsewhere : List String}
    (first : locate tree runner path = some place) (second : locate tree runner other = some elsewhere)
    (apart : place ≠ elsewhere) : ¬ SameFile tree runner path other := by
  rintro (rfl | ⟨common, left, right⟩)
  · exact apart (Option.some.inj (first.symm.trans second))
  · rw [first] at left
    rw [second] at right
    exact apart (Option.some.inj (left.trans right.symm))

/-- No file is collected twice. -/
theorem collectIllFilesInner_once {sub : Tree} {path : String} {place : List String}
    (located : locate tree runner path = some place) (here : tree.at_ place = some sub) :
    (collectIllFilesInner path sub).Pairwise fun left right => ¬ SameFile tree runner left right := by
  induction sub generalizing path place with
  | file => exact .nil
  | dir readable listed distinct listable child ih =>
    rw [collectIllFilesInner]
    cases readable with
    | false => exact .nil
    | true =>
      rw [if_pos rfl, List.pairwise_flatMap]
      -- Everything that comes from one name lies below the place of that name.
      have below : ∀ name ∈ listed, ∀ found,
          found ∈ (if (child name).isDir then collectIllFilesInner (joinPath path name) (child name)
            else if isIllFile (joinPath path name) then [joinPath path name] else []) →
          ∃ names, locate tree runner found = some (place ++ name :: names) := by
        intro name member found inside
        obtain ⟨joined, within⟩ := locate_joinPath located here member
        split at inside
        · obtain ⟨names, there⟩ := locate_of_mem joined within inside
          exact ⟨names, by rw [there, List.append_assoc, List.singleton_append]⟩
        · split at inside
          · obtain rfl := List.mem_singleton.mp inside
            exact ⟨[], joined⟩
          · cases inside
      constructor
      · intro name member
        obtain ⟨joined, within⟩ := locate_joinPath located here member
        split
        · exact ih name joined within
        · split
          · exact List.pairwise_singleton _ _
          · exact .nil
      · apply distinct.imp_of_mem
        intro first second firstListed secondListed different found inside other otherInside
        obtain ⟨names, left⟩ := below first firstListed found inside
        obtain ⟨others, right⟩ := below second secondListed other otherInside
        apply not_sameFile left right
        intro same
        exact different (List.cons.inj (List.append_cancel_left same)).1

theorem SameFile.symm {path other : String} (same : SameFile tree runner path other) :
    SameFile tree runner other path := by
  rcases same with rfl | ⟨place, left, right⟩
  · exact .inl rfl
  · exact .inr ⟨place, right, left⟩

/-! ## What one argument selects -/

theorem find_eq_some {path : String} {sub : Tree} :
    find tree runner path = some sub ↔
      ∃ place, locate tree runner path = some place ∧ tree.at_ place = some sub :=
  Option.bind_eq_some_iff

/-- What is selected under a directory is what is collected in it. -/
theorem mem_collectIllFiles {path found : String} {sub : Tree} (here : find tree runner path = some sub) :
    found ∈ collectIllFiles tree runner path ↔ found ∈ collectIllFilesInner path sub := by
  rw [collectIllFiles, here, List.mem_mergeSort]
  rfl

theorem collectIllFiles_sorted (path : String) :
    (collectIllFiles tree runner path).Pairwise fun left right =>
      Paths.precedes left.toList right.toList = true := by
  apply List.pairwise_mergeSort
  · intro first second third
    exact Paths.precedes_trans
  · intro first second
    exact Paths.precedes_total first.toList second.toList

theorem collectIllFiles_once (path : String) :
    (collectIllFiles tree runner path).Pairwise fun left right => ¬ SameFile tree runner left right := by
  have unsorted : (((find tree runner path).map (collectIllFilesInner path)).getD []).Pairwise
      fun left right => ¬ SameFile tree runner left right := by
    cases here : find tree runner path with
    | none => exact .nil
    | some sub =>
      obtain ⟨place, located, there⟩ := find_eq_some.mp here
      exact collectIllFilesInner_once located there
  exact (List.mergeSort_perm _ _).symm.pairwise unsorted fun apart same => apart same.symm

/-- What an argument selects, read off the tree. -/
theorem mem_select {path found : String} :
    found ∈ select tree runner path ↔ Selects tree runner path found := by
  rw [select]
  by_cases directory : isDirectory tree runner path = true
  · rw [if_pos directory]
    obtain ⟨sub, here, -⟩ := (Option.any_eq_true _ _).mp directory
    obtain ⟨place, located, -⟩ := find_eq_some.mp here
    rw [mem_collectIllFiles here, mem_collectIllFilesInner (ne_empty_of_locate located)]
    constructor
    · rintro ⟨names, name, reaches, ill, rfl⟩
      exact .found here reaches ill
    · intro selects
      cases selects with
      | named noDirectory => simp [directory] at noDirectory
      | @found other names name same reaches ill =>
        obtain rfl := Option.some.inj (here.symm.trans same)
        exact ⟨names, name, reaches, ill, rfl⟩
  · rw [if_neg directory]
    constructor
    · intro inside
      by_cases ill : isIllFile path = true
      · rw [if_pos ill] at inside
        obtain rfl := List.mem_singleton.mp inside
        obtain ⟨name, final, named⟩ := isIllFile_iff.mp ill
        exact .named (by simpa using directory) final named
      · simp [ill] at inside
    · intro selects
      cases selects with
      | named _ final ill => rw [if_pos (isIllFile_iff.mpr ⟨_, final, ill⟩), List.mem_singleton]
      | @found sub names name here reaches ill =>
        simp [isDirectory, here, reaches.isDir_append] at directory

theorem select_sorted (path : String) :
    (select tree runner path).Pairwise fun left right =>
      Paths.precedes left.toList right.toList = true := by
  rw [select]
  split
  · exact collectIllFiles_sorted path
  · split
    · exact List.pairwise_singleton _ _
    · exact .nil

theorem select_once (path : String) :
    (select tree runner path).Pairwise fun left right => ¬ SameFile tree runner left right := by
  rw [select]
  split
  · exact collectIllFiles_once path
  · split
    · exact List.pairwise_singleton _ _
    · exact .nil

/-! ## All arguments -/

/-- Nothing is found where there is no directory. -/
theorem collectIllFiles_of_file {path : String} (file : isDirectory tree runner path = false) :
    collectIllFiles tree runner path = [] := by
  have nothing : ((find tree runner path).map (collectIllFilesInner path)).getD [] = [] := by
    cases here : find tree runner path with
    | none => rfl
    | some sub =>
      cases sub with
      | file => rfl
      | dir => simp [isDirectory, here, Tree.isDir] at file
  rw [collectIllFiles, nothing, List.mergeSort_nil]

/-- The arguments one after the other, or the current directory. -/
theorem resolveFiles_eq (paths : List String) :
    resolveFiles tree runner paths = (arguments paths).flatMap (select tree runner) := by
  rw [resolveFiles, arguments]
  split
  · have unnamed : isIllFile "." = false := by decide
    rw [List.flatMap_singleton, select, unnamed]
    by_cases directory : isDirectory tree runner "." = true
    · rw [if_pos directory]
    · rw [if_neg directory, collectIllFiles_of_file (by simpa using directory)]
      rfl
  · rfl

/-- The files are sorted, and each selected file is there once, exactly if of any two
arguments the earlier one selects what comes first, and nothing that the later one
selects. What is selected is there in any case. -/
theorem resolveFiles_iff (tree : Tree) (runner : List String) (paths : List String) :
    Resolved tree runner paths (resolveFiles tree runner paths) ↔
      (arguments paths).Pairwise (Apart tree runner) := by
  rw [resolveFiles_eq]
  constructor
  · rintro ⟨sorted, -, -, once⟩
    obtain ⟨-, across⟩ := List.pairwise_flatMap.mp (sorted.and once)
    apply across.imp
    intro earlier later apart path other first second
    exact apart path (mem_select.mpr first) other (mem_select.mpr second)
  · intro apart
    refine ⟨?_, ?_, ?_, ?_⟩
    · apply List.pairwise_flatMap.mpr
      refine ⟨fun path _ => select_sorted path, apart.imp ?_⟩
      intro earlier later parted path first other second
      exact (parted path other (mem_select.mp first) (mem_select.mp second)).1
    · intro path inside
      obtain ⟨argument, member, selected⟩ := List.mem_flatMap.mp inside
      exact ⟨argument, member, mem_select.mp selected⟩
    · intro argument member path selects
      exact ⟨path, List.mem_flatMap.mpr ⟨argument, member, mem_select.mpr selects⟩, .inl rfl⟩
    · apply List.pairwise_flatMap.mpr
      refine ⟨fun path _ => select_once path, apart.imp ?_⟩
      intro earlier later parted path first other second
      exact (parted path other (mem_select.mp first) (mem_select.mp second)).2

end

theorem listable_of_plain {name : String}
    (plain : (name.toList.all fun char => char.isAlpha || char == '.') = true)
    (named : (name.toList.any Char.isAlpha) = true) : Paths.Listable name.toList where
  some_ empty := by simp [empty] at named
  notCurrent same := by simp [same] at named
  notParent same := by simp [same] at named
  single inside := by
    have letter := List.all_eq_true.mp plain '/' inside
    simp at letter

/-- A directory with the files `a.ill` and `b.ill`. -/
def twoFiles : Tree :=
  .dir true ["a.ill", "b.ill"] (by decide)
    (by
      intro name listed
      simp only [List.mem_cons, List.not_mem_nil, or_false] at listed
      rcases listed with rfl | rfl <;> exact listable_of_plain (by decide) (by decide))
    fun _ => .file

/-- `b.ill a.ill` is left in that order. -/
theorem arguments_unsorted :
    ¬ ∀ tree runner paths, Resolved tree runner paths (resolveFiles tree runner paths) := by
  intro resolved
  have unchanged : resolveFiles twoFiles [] ["b.ill", "a.ill"] = ["b.ill", "a.ill"] := by decide
  have sorted := (resolved twoFiles [] ["b.ill", "a.ill"]).sorted
  rw [unchanged] at sorted
  have first : Paths.precedes "b.ill".toList "a.ill".toList = true :=
    List.rel_of_pairwise_cons sorted List.mem_cons_self
  exact absurd first (by decide)

end Ill.Main
