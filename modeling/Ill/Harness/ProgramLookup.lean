import Ill.Actor.Exec

/-!
# Where `exec` finds its program

A program named with a separator is joined to the directory of the `.ill` file, and
the host looks the joined path up once the child has entered its working directory.
A relative directory is then taken twice, first to enter it and then to find the
program.
-/

namespace Ill.Harness

open Actor Base
open Exec (Invocation ExecInstance)

/-- The directory of the `.ill` file, as `run_validated_test_file` finds it. -/
def sourceDirOf (path : String) : String :=
  match Paths.parent path.toList with
  | some (first :: rest) => String.ofList (first :: rest)
  | _ => "."

theorem sourceDirOf_ne_empty (path : String) : sourceDirOf path ≠ "" := by
  unfold sourceDirOf
  split
  · next first rest named => simp
  · decide

/-- What a constructed instance takes from its arguments. -/
theorem fields_of_construct {ext : Exec.External} {args : ConstructArgs} {inst : ExecInstance}
    (constructed : Exec.construct ext args = .ok inst) :
    args.kw "command" = some (.string inst.target) ∧ inst.sourceDir = args.sourceDir ∧
      Exec.workingDirOf ext args.sourceDir (args.kw "cwd") = .ok inst.workingDir := by
  obtain ⟨target, read, constructed⟩ := bind_eq_ok.mp constructed
  obtain ⟨workingDir, accepted, constructed⟩ := bind_eq_ok.mp constructed
  cases constructed
  refine ⟨?_, rfl, accepted⟩
  unfold Exec.targetOf at read
  split at read
  · next text given =>
    obtain rfl := Except.ok.inj read
    exact given
  · cases read
  · cases read

/-- What `run` hands to the host. -/
inductive Spawns (ext : Exec.External) (inst : ExecInstance) (env : Option Value) :
    Invocation → Prop where
  | intro {program : String} {rest : List String} {pairs : List (String × String)}
    (split : ext.shlexSplit inst.target = some (program :: rest)) (environment : Exec.envOf env = some pairs) :
    Spawns ext inst env
      ⟨Exec.resolveProgram program inst.sourceDir, rest, inst.workingDir, pairs⟩

/-- A run that starts a child has spawned one invocation, and that one started it. -/
theorem run_spawns {ext : Exec.External} {inst : ExecInstance} {env : Option Value}
    {child : Exec.Child} {outcome : RunOutcome}
    (ran : Exec.Stopped.run ext inst env = (.running child, outcome)) :
    ∃ invocation, Spawns ext inst env invocation ∧ ext.spawn invocation = .ok child := by
  unfold Exec.Stopped.run at ran
  split at ran
  · next program rest split =>
    split at ran
    · simp at ran
    · next pairs environment =>
      split at ran
      · simp at ran
      · next started spawned =>
        obtain ⟨⟨⟩, -⟩ := Prod.mk.inj ran
        exact ⟨_, .intro split environment, spawned⟩
  · simp at ran

section Host

variable {Node : Type*} (fs : Paths.FileSystem Node) (runner : Node)

/-- The file the host executes for a program path with a separator: the child enters
its working directory, from where the path is looked up. -/
def executed (invocation : Invocation) : Option Node :=
  (fs.directory runner invocation.workingDir.toList).bind fun dir =>
    fs.walk dir invocation.program.toList

/-- The file next to the `.ill` file, as seen from the runner. -/
def nextToFile (path program : String) : Option Node :=
  (fs.directory runner (sourceDirOf path).toList).bind fun dir => fs.walk dir program.toList

/-- A program name with a separator that is not absolute. -/
structure RelativeName (program : String) : Prop where
  separator : '/' ∈ program.toList ∨ '\\' ∈ program.toList
  relative : isAbsolute program = false

theorem RelativeName.ne_empty {program : String} (name : RelativeName program) : program ≠ "" := by
  rintro rfl
  simpa using name.separator

/-- Such a name is joined to the directory of the `.ill` file. -/
theorem RelativeName.resolved {program : String} (name : RelativeName program) (sourceDir : String) :
    Exec.resolveProgram program sourceDir = joinPath sourceDir program := by
  rw [Exec.resolveProgram, name.relative, if_neg Bool.false_ne_true]
  apply if_neg
  rcases name.separator with slash | backslash
  · simp [slash]
  · simp [backslash]

/-- Every program of a relative name that `exec` runs for a `.ill` file is the one
next to that file. -/
def ResolvesNextToFile (ext : Exec.External) (path : String) (cwd : Option Value) : Prop :=
  ∀ args inst target program rest env invocation,
    args.sourceDir = sourceDirOf path → args.kw "command" = some (.string target) →
      args.kw "cwd" = cwd → Exec.construct ext args = .ok inst →
        ext.shlexSplit target = some (program :: rest) → RelativeName program →
          Spawns ext inst env invocation →
            executed fs runner invocation = nextToFile fs runner path program

/-- The directory of the `.ill` file is found again from the working directory. -/
def LeadsBack (path workingDir : String) : Prop :=
  ((fs.directory runner workingDir.toList).bind fun dir => fs.directory dir (sourceDirOf path).toList) =
    fs.directory runner (sourceDirOf path).toList

variable {fs runner}

/-- The host goes through the working directory and the directory of the `.ill` file. -/
theorem executed_resolved {path program workingDir : String} (name : RelativeName program)
    (rest : List String) (pairs : List (String × String)) :
    executed fs runner ⟨Exec.resolveProgram program (sourceDirOf path), rest, workingDir, pairs⟩ =
      ((fs.directory runner workingDir.toList).bind fun dir =>
        fs.directory dir (sourceDirOf path).toList).bind fun dir => fs.walk dir program.toList := by
  have head := head_of_relative name.relative
  rw [executed, Option.bind_assoc]
  congr 1
  funext dir
  rw [name.resolved, walk_joinPath (sourceDirOf_ne_empty path) name.ne_empty name.relative,
    Paths.FileSystem.walk_bind head]

/-- The path `./.` leads to the directory it is looked up from. -/
theorem directory_bind_here (origin : Node) (path : List Char) :
    ((fs.directory origin path).bind fun dir => fs.walk dir "./.".toList) =
      fs.directory origin path := by
  cases found : fs.directory origin path with
  | none => rfl
  | some dir =>
    obtain ⟨-, kind⟩ := Paths.FileSystem.directory_eq_some.mp found
    change fs.walk dir ['.', '/', '.'] = some dir
    have components : (['.', '/', '.'] : List Char).splitOn '/' = [['.'], ['.']] := by decide
    rw [Paths.FileSystem.walk_relative (by simp) (by decide), components]
    simp [Paths.FileSystem.enter_stay, kind]

/-- An accepted `cwd` is a directory; without one the child runs next to the file. -/
theorem workingDir_cases {ext : Exec.External}
    (sees : ∀ path, ext.isDir path = (fs.directory runner path.toList).isSome) {sourceDir workingDir : String}
    {cwd : Option Value} (accepted : Exec.workingDirOf ext sourceDir cwd = .ok workingDir) :
    workingDir = sourceDir ∨ ∃ dir, fs.directory runner workingDir.toList = some dir := by
  unfold Exec.workingDirOf at accepted
  split at accepted
  · cases accepted
    exact .inl rfl
  · next text =>
    right
    unfold Exec.resolveCwd at accepted
    by_cases empty : text = ""
    · simp [empty] at accepted
    rw [if_neg empty] at accepted
    by_cases found : ext.isDir (joinPath sourceDir text)
    · rw [if_pos found] at accepted
      obtain rfl := Except.ok.inj accepted
      rw [sees] at found
      exact Option.isSome_iff_exists.mp found
    · simp [found] at accepted
  · cases accepted

/-- An absolute directory is found from everywhere. -/
theorem leadsBack_of_absolute {ext : Exec.External}
    (sees : ∀ path, ext.isDir path = (fs.directory runner path.toList).isSome) {path workingDir : String}
    {cwd : Option Value} (accepted : Exec.workingDirOf ext (sourceDirOf path) cwd = .ok workingDir)
    (absolute : isAbsolute (sourceDirOf path) = true) : LeadsBack fs runner path workingDir := by
  have anywhere : ∀ dir, fs.directory dir (sourceDirOf path).toList =
      fs.directory runner (sourceDirOf path).toList :=
    fun dir => Paths.FileSystem.directory_absolute (isAbsolute_iff.mp absolute) dir runner
  unfold LeadsBack
  simp only [anywhere]
  rcases workingDir_cases sees accepted with rfl | ⟨dir, entered⟩
  · cases fs.directory runner (sourceDirOf path).toList <;> rfl
  · rw [entered, Option.bind_some]

/-- Every program of a relative name is the one next to the `.ill` file exactly if the
directory of the file, looked up from the working directory, is the directory that it
is for the runner. That is so where it is absolute. -/
theorem relative_programs_iff (ext : Exec.External)
    (sees : ∀ path, ext.isDir path = (fs.directory runner path.toList).isSome)
    (plain : ext.shlexSplit "./." = some ["./."]) (path workingDir : String) (cwd : Option Value)
    (accepted : Exec.workingDirOf ext (sourceDirOf path) cwd = .ok workingDir) :
    (ResolvesNextToFile fs runner ext path cwd ↔ LeadsBack fs runner path workingDir) ∧
      (isAbsolute (sourceDirOf path) = true → LeadsBack fs runner path workingDir) := by
  refine ⟨⟨?_, ?_⟩, leadsBack_of_absolute sees accepted⟩
  · intro resolves
    have name : RelativeName "./." := ⟨by decide, by decide⟩
    let args : ConstructArgs :=
      ⟨("command", .string "./.") :: (cwd.map fun value => ("cwd", value)).toList, sourceDirOf path, []⟩
    have target : args.kw "command" = some (.string "./.") := rfl
    have given : args.kw "cwd" = cwd := by cases cwd <;> rfl
    let inst : ExecInstance := ⟨"./.", sourceDirOf path, workingDir, .stopped⟩
    have constructed : Exec.construct ext args = .ok inst := by
      unfold Exec.construct
      rw [target, given, accepted]
      rfl
    have same : executed fs runner
        ⟨Exec.resolveProgram "./." (sourceDirOf path), [], workingDir, []⟩ =
          nextToFile fs runner path "./." :=
      resolves args inst "./." "./." [] none _ rfl target given constructed plain name
        (.intro plain rfl)
    rw [executed_resolved name, nextToFile, directory_bind_here, Option.bind_assoc] at same
    simp only [directory_bind_here] at same
    exact same
  · intro back args inst target program rest env invocation dir command given constructed split name
      spawns
    obtain ⟨read, source, working⟩ := fields_of_construct constructed
    obtain rfl : target = inst.target := Value.string.inj (Option.some.inj (command.symm.trans read))
    rw [dir, given, accepted] at working
    obtain rfl := Except.ok.inj working
    cases spawns with
    | intro again environment =>
      obtain ⟨rfl, -⟩ := List.cons.inj (Option.some.inj (again.symm.trans split))
      rw [source, dir, executed_resolved name, nextToFile, back]

end Host

/-! ## A directory with a helper -/

inductive Place where
  | top | tests | helper
deriving DecidableEq

/-- The directory `tests`, which holds `helper.sh`. -/
def helperTree : Paths.FileSystem Place where
  root := .top
  isDir place := place != .helper
  child
    | .top, name => if name = "tests".toList then some .tests else none
    | .tests, name => if name = "helper.sh".toList then some .helper else none
    | .helper, _ => none

/-- A host that splits plain words and sees the tree from its top. -/
def helperHost : Exec.External where
  isDir path := (helperTree.directory .top path.toList).isSome
  shlexSplit word := some [word]
  spawn _ := .error .other
  wait _ := .exited

/-- A file named without a directory is found again. -/
theorem relative_programs_iff_beside : ResolvesNextToFile helperTree .top helperHost "t.ill" none :=
  (relative_programs_iff helperHost (fun _ => rfl) rfl "t.ill" "." none rfl).1.mpr (by rfl)

/-- For `tests/t.ill` the program `./helper.sh` is looked up in `tests/tests`. -/
theorem relative_program_not_found :
    ¬ ∀ (Node : Type) (fs : Paths.FileSystem Node) (runner : Node) (ext : Exec.External)
      (path workingDir : String) (cwd : Option Value),
      (∀ path, ext.isDir path = (fs.directory runner path.toList).isSome) →
        Exec.workingDirOf ext (sourceDirOf path) cwd = .ok workingDir →
          ResolvesNextToFile fs runner ext path cwd := by
  intro resolves
  have next := resolves Place helperTree .top helperHost "tests/t.ill" "tests" none (fun _ => rfl) rfl
  have same := next ⟨[("command", .string "./helper.sh")], "tests", []⟩
    ⟨"./helper.sh", "tests", "tests", .stopped⟩ "./helper.sh" "./helper.sh" [] none _ rfl rfl rfl rfl rfl
    ⟨by decide, by decide⟩ (.intro rfl rfl)
  have missing : executed helperTree .top ⟨Exec.resolveProgram "./helper.sh" "tests", [], "tests", []⟩ =
      none := by decide
  have there : nextToFile helperTree .top "tests/t.ill" "./helper.sh" = some .helper := by decide
  rw [missing, there] at same
  cases same

end Ill.Harness
