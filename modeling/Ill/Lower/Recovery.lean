import Ill.Lower.Complaints
import Ill.Lower.Located
import Ill.Lower.Total

/-!
# One diagnostic for each problem of the parser

The parser marks what it could not read with ERROR and MISSING nodes. Lowering
reports the outermost ones, once each and in the order of the text. That it
reports nothing else at their spans depends on the tree: the functions that look
at a kind pass over such a node, and the others do not.
-/

namespace Ill.Lower

open Base Base.Utf8 Base.Reporting Ast

/-! ## The places of a tree -/

namespace Node

mutual

/-- The nodes of a tree in the order of the text, each with the nodes above it,
the closest first. -/
def walk (above : List Node) : Node → List (List Node × Node)
  | ⟨field, kind, named, isError, isMissing, span, ordered, children⟩ =>
    (above, ⟨field, kind, named, isError, isMissing, span, ordered, children⟩) ::
      walkAll (⟨field, kind, named, isError, isMissing, span, ordered, children⟩ :: above) children

def walkAll (above : List Node) : List Node → List (List Node × Node)
  | [] => []
  | child :: rest => child.walk above ++ walkAll above rest

end

theorem walk_eq (above : List Node) (node : Node) :
    node.walk above = (above, node) :: walkAll (node :: above) node.children := by
  cases node
  rw [walk]

theorem mem_walkAll {above : List Node} {children : List Node} {place : List Node × Node} :
    place ∈ walkAll above children ↔ ∃ child ∈ children, place ∈ child.walk above := by
  induction children with
  | nil => simp [walkAll]
  | cons child rest ih => simp [walkAll, ih]

/-- A walk comes to every node of the tree. -/
theorem Under.mem_walk {inner node : Node} (under : inner.Under node) (above : List Node) :
    ∃ between, (between, inner) ∈ node.walk above := by
  induction under generalizing above with
  | here =>
    rw [walk_eq]
    exact ⟨above, List.mem_cons_self⟩
  | @deeper child node member under ih =>
    obtain ⟨between, inside⟩ := ih (node :: above)
    rw [walk_eq]
    exact ⟨between, List.mem_cons_of_mem _ (mem_walkAll.mpr ⟨child, member, inside⟩)⟩

/-- A recovery node with none above it. -/
def isOutermost (place : List Node × Node) : Bool :=
  place.2.recovers && place.1.all fun outer => !outer.recovers

/-- The ERROR and MISSING nodes below no other one, in the order of the text. -/
def outermost (root : Node) : List Node := ((root.walk []).filter isOutermost).map Prod.snd

mutual

/-- What is above a tree is above each of its nodes. -/
theorem above_subset {above : List Node} {place : List Node × Node} :
    ∀ node : Node, place ∈ node.walk above → above ⊆ place.1
  | ⟨_, _, _, _, _, _, _, children⟩ => by
    intro member
    rw [walk] at member
    rcases List.mem_cons.mp member with rfl | inside
    · exact List.Subset.refl above
    · exact List.Subset.trans (List.subset_cons_self _ _) (above_subset_all children inside)

theorem above_subset_all {above : List Node} {place : List Node × Node} :
    ∀ children : List Node, place ∈ walkAll above children → above ⊆ place.1
  | [] => by simp [walkAll]
  | child :: rest => by
    intro member
    rw [walkAll] at member
    exact (List.mem_append.mp member).elim (above_subset child) (above_subset_all rest)

end

theorem isOutermost_of_clear {above : List Node} (clear : ∀ outer ∈ above, outer.recovers = false)
    (node : Node) : isOutermost (above, node) = node.recovers := by
  have all : (above.all fun outer => !outer.recovers) = true :=
    List.all_eq_true.mpr fun outer inside => by rw [clear outer inside]; rfl
  rw [isOutermost, all, Bool.and_true]

/-- Nothing below a recovery node is outermost. -/
theorem filter_walkAll_of_recovers {outer : Node} {above children : List Node}
    (recovers : outer.recovers = true) : (walkAll (outer :: above) children).filter isOutermost = [] := by
  rw [List.filter_eq_nil_iff]
  intro place member outermost
  have inside : outer ∈ place.1 := above_subset_all children member List.mem_cons_self
  rw [isOutermost, Bool.and_eq_true] at outermost
  simpa [recovers] using List.all_eq_true.mp outermost.2 outer inside

end Node

/-! ## The diagnostics for recovery nodes -/

def isRecovery (item : Diagnostic) : Bool := item.code == .parseError || item.code == .missingToken

/-- The code and the span of the diagnostic for a recovery node. -/
def Node.recovery (node : Node) : DiagnosticCode × Span :=
  (if node.isMissing then .missingToken else .parseError, node.span)

section

variable {source : Text}

theorem mark_errorDiagnostic (parent : Option String) (span : Span) :
    mark (errorDiagnostic source parent span) = (.parseError, span) := by
  unfold errorDiagnostic
  extract_lets
  split <;> rfl

mutual

/-- One diagnostic for each outermost recovery node of a tree, in order. -/
theorem collectErrors_outermost (parent : Option String) {above : List Node}
    (clear : ∀ outer ∈ above, outer.recovers = false) : ∀ node : Node,
    (collectErrors source parent node).map mark =
      ((node.walk above).filter Node.isOutermost).map fun place => place.2.recovery
  | ⟨field, kind, named, isError, isMissing, span, ordered, children⟩ => by
    have outermost_iff := Node.isOutermost_of_clear clear
    rw [collectErrors, Node.walk]
    cases missing : isMissing with
    | true =>
      rw [List.filter_cons_of_pos (by simp [outermost_iff, Node.recovers]),
        Node.filter_walkAll_of_recovers (by simp [Node.recovers])]
      rfl
    | false =>
      cases error : isError with
      | true =>
        rw [List.filter_cons_of_pos (by simp [outermost_iff, Node.recovers]),
          Node.filter_walkAll_of_recovers (by simp [Node.recovers])]
        simp [Node.recovery, mark_errorDiagnostic]
      | false =>
        rw [List.filter_cons_of_neg (by simp [outermost_iff, Node.recovers])]
        exact collectChildErrors_outermost kind (List.forall_mem_cons.mpr ⟨rfl, clear⟩) children

theorem collectChildErrors_outermost (parent : String) {above : List Node}
    (clear : ∀ outer ∈ above, outer.recovers = false) : ∀ children : List Node,
    (collectChildErrors source parent children).map mark =
      ((Node.walkAll above children).filter Node.isOutermost).map fun place => place.2.recovery
  | [] => by simp [collectChildErrors, Node.walkAll]
  | child :: rest => by
    rw [collectChildErrors, Node.walkAll, List.map_append, List.filter_append, List.map_append,
      collectErrors_outermost (some parent) clear child, collectChildErrors_outermost parent clear rest]

end

theorem collectErrors_eq_outermost (root : Node) :
    (collectErrors source none root).map mark = root.outermost.map Node.recovery := by
  rw [collectErrors_outermost none (List.forall_mem_nil _), Node.outermost, List.map_map]
  rfl

end

/-! ## The pass -/

/-- The list that lowering returns, empty for a file. -/
def diagnosticsOf : Except (List Diagnostic) SourceFile → List Diagnostic
  | .ok _ => []
  | .error items => items

/-- One diagnostic for each problem of the parser: those of the recovery codes are
the outermost recovery nodes, in order, and no other one is at their spans. -/
structure OneEach (root : Node) (items : List Diagnostic) : Prop where
  matched : (items.filter isRecovery).map mark = root.outermost.map Node.recovery
  alone : ∀ item ∈ items, isRecovery item = false → ∀ problem ∈ items, isRecovery problem = true →
    item.span ≠ problem.span

section

variable {parse : Text → Node} {src : Text} {result : Except (List Diagnostic) SourceFile}

/-- The diagnostics for the recovery nodes come first, then the complaints. -/
theorem lower_reports (lowered : lower parse src = some result) :
    ∃ reports, diagnosticsOf result = collectErrors (normalize src) none (rootOf parse src) ++ reports ∧
      ∀ seen, seen ∈ reports.map mark ↔ Complains (normalize src) .file (rootOf parse src) seen := by
  have told := @lowerSourceFile_exactly (normalize src) (rootOf parse src)
  simp only [lower] at lowered
  split at lowered
  · simp at lowered
  · next file reports returned =>
    rw [rootOf, returned] at told
    refine ⟨reports, ?_, told.2⟩
    split at lowered
    · next none_ =>
      obtain rfl := Option.some.inj lowered
      exact (List.isEmpty_iff.mp none_).symm
    · obtain rfl := Option.some.inj lowered
      rfl

theorem isRecovery_of_recovery {item : Diagnostic} {node : Node} (same : mark item = node.recovery) :
    isRecovery item = true := by
  obtain ⟨code, -⟩ := Prod.mk.inj same
  rw [isRecovery, code]
  split <;> rfl

theorem isRecovery_of_complains {source : Text} {role : Role} {node : Node} {item : Diagnostic}
    (complains : Complains source role node (mark item)) : isRecovery item = false := by
  obtain ⟨parsed, present⟩ := complains.code
  simpa [isRecovery] using ⟨parsed, present⟩

/-- The diagnostics of the recovery codes are those for the recovery nodes. -/
theorem filter_isRecovery (lowered : lower parse src = some result) :
    (diagnosticsOf result).filter isRecovery =
      collectErrors (normalize src) none (rootOf parse src) := by
  obtain ⟨reports, all, made⟩ := lower_reports lowered
  have complaints : reports.filter isRecovery = [] := by
    rw [List.filter_eq_nil_iff]
    intro item inside
    rw [isRecovery_of_complains ((made _).mp (List.mem_map_of_mem inside))]
    exact Bool.false_ne_true
  rw [all, List.filter_append, complaints, List.append_nil, List.filter_eq_self]
  intro item inside
  have marked : mark item ∈ (collectErrors (normalize src) none (rootOf parse src)).map mark :=
    List.mem_map_of_mem inside
  rw [collectErrors_eq_outermost] at marked
  obtain ⟨node, -, same⟩ := List.mem_map.mp marked
  exact isRecovery_of_recovery same.symm

theorem mem_other_iff (lowered : lower parse src = some result) {seen : DiagnosticCode × Span} :
    (∃ item ∈ diagnosticsOf result, isRecovery item = false ∧ mark item = seen) ↔
      Complains (normalize src) .file (rootOf parse src) seen := by
  obtain ⟨reports, all, made⟩ := lower_reports lowered
  have errors := filter_isRecovery lowered
  constructor
  · rintro ⟨item, inside, other, rfl⟩
    rw [all] at inside
    rcases List.mem_append.mp inside with problem | complaint
    · rw [← errors, List.mem_filter, other] at problem
      exact absurd problem.2 Bool.false_ne_true
    · exact (made _).mp (List.mem_map_of_mem complaint)
  · intro complains
    obtain ⟨item, inside, rfl⟩ := List.mem_map.mp ((made seen).mpr complains)
    exact ⟨item, all ▸ List.mem_append_right _ inside, isRecovery_of_complains complains, rfl⟩

theorem mem_problem_iff (lowered : lower parse src = some result) {span : Span} :
    (∃ problem ∈ diagnosticsOf result, isRecovery problem = true ∧ problem.span = span) ↔
      ∃ node ∈ (rootOf parse src).outermost, node.span = span := by
  have same : ((diagnosticsOf result).filter isRecovery).map mark =
      (rootOf parse src).outermost.map Node.recovery := by
    rw [filter_isRecovery lowered, collectErrors_eq_outermost]
  have spans := congrArg (List.map Prod.snd) same
  simp only [List.map_map] at spans
  have member := congrArg (span ∈ ·) spans
  simpa [mark, Node.recovery, and_assoc] using member

/-- Other diagnostics keep away from the recovery nodes where there is nothing to
complain about at their spans. -/
theorem alone_iff (lowered : lower parse src = some result) :
    (∀ item ∈ diagnosticsOf result, isRecovery item = false →
      ∀ problem ∈ diagnosticsOf result, isRecovery problem = true → item.span ≠ problem.span) ↔
      ∀ node ∈ (rootOf parse src).outermost, ∀ code,
        ¬ Complains (normalize src) .file (rootOf parse src) (code, node.span) := by
  constructor
  · intro alone node outermost code complains
    obtain ⟨problem, here, recovery, same⟩ := (mem_problem_iff lowered).mpr ⟨node, outermost, rfl⟩
    obtain ⟨item, inside, other, marked⟩ := (mem_other_iff lowered).mpr complains
    exact alone item inside other problem here recovery ((Prod.mk.inj marked).2.trans same.symm)
  · intro silent item inside other problem here recovery same
    obtain ⟨node, outermost, covers⟩ := (mem_problem_iff lowered).mp ⟨problem, here, recovery, rfl⟩
    refine silent node outermost item.code ((mem_other_iff lowered).mp ⟨item, inside, other, ?_⟩)
    rw [mark, same, covers]

/-- Lowering gives one diagnostic for each problem of the parser exactly when no
node that it comes to is at fault at the span of an outermost recovery node. -/
theorem one_diagnostic_each_iff (lowered : lower parse src = some result) :
    OneEach (rootOf parse src) (diagnosticsOf result) ↔
      ∀ problem ∈ (rootOf parse src).outermost, ∀ code,
        ¬ Complains (normalize src) .file (rootOf parse src) (code, problem.span) := by
  constructor
  · intro each
    exact (alone_iff lowered).mp each.alone
  · intro silent
    refine ⟨?_, (alone_iff lowered).mpr silent⟩
    rw [filter_isRecovery lowered, collectErrors_eq_outermost]

end

/-! ## A block that cannot be read, and an operator that is missing -/

/-- A block with nothing but `@@@`. -/
def unreadText : Text := "as a:\n  @@@\n".toList

def unreadTree : Node :=
  let block : Node := { token "block" true 8 4 with
    children := [token "INDENT" true 8 0, { token "ERROR" true 8 3 with isError := true },
      token "DEDENT" true 12 0] }
  { token "source_file" true 0 12 with
    children := [{ token "as_block" true 0 12 with
      children := [token "as" false 0 2, { token "identifier" true 3 1 with field := some "actor" },
        token ":" false 4 1, block] }] }

/-- The block is reported once. -/
theorem one_diagnostic_each_unread :
    ∃ result, lower (fun _ => unreadTree) unreadText = some result ∧
      OneEach (rootOf (fun _ => unreadTree) unreadText) (diagnosticsOf result) := by
  -- `lower_block` passes over the ERROR node, so lowering itself reports nothing.
  have silent : ∃ file, lowerSourceFile (normalize unreadText) unreadTree = .returned file [] :=
    ⟨_, rfl⟩
  obtain ⟨file, returned⟩ := silent
  have told := @lowerSourceFile_exactly (normalize unreadText) unreadTree
  rw [returned] at told
  refine ⟨_, rfl, (one_diagnostic_each_iff rfl).mpr fun problem _ code complains => ?_⟩
  exact absurd ((told.2 _).mpr complains) List.not_mem_nil

/-- An assert without an operator between its sides, and a stray character after it. -/
def unfinishedText : Text := "as a:\n  assert 1 2\n-".toList

def missingOperator : Node := { token "==" false 16 0 with isMissing := true }

/-- The parser puts in the operator, and reads the stray character as an ERROR. -/
def unfinishedTree : Node :=
  let number (field : String) (at_ : Nat) : Node := { token "primary_expression" true at_ 1 with
    field := some field, children := [token "number" true at_ 1] }
  let assert : Node := { token "assert_statement" true 8 10 with
    children := [token "assert" false 8 6, number "left" 15,
      { token "comparison_operator" true 16 0 with
        field := some "operator", children := [missingOperator] },
      number "right" 17] }
  let block : Node := { token "block" true 8 11 with
    children := [token "INDENT" true 8 0, assert, token "DEDENT" true 19 0] }
  let stray : Node := { token "ERROR" true 19 1 with isError := true }
  { token "source_file" true 0 20 with
    children := [
      { token "as_block" true 0 19 with
        children := [token "as" false 0 2, { token "identifier" true 3 1 with field := some "actor" },
          token ":" false 4 1, block] },
      token "NEWLINE" true 19 0, { stray with children := [stray] }] }

theorem quoted_unfinishedTree (source : Text) : unfinishedTree.Quoted source := by
  intro inner under single
  obtain ⟨between, member⟩ := under.mem_walk []
  have plain : ((unfinishedTree.walk []).all fun place =>
      place.2.kind != "single_quoted_string") = true := by decide
  simpa [single] using List.all_eq_true.mp plain _ member

/-- The operator around the missing token has no text, and is no operator. -/
theorem complains_unfinishedTree :
    Complains (normalize unfinishedText) .file unfinishedTree
      (.invalidLiteral, missingOperator.span) := by
  refine .deeper (.item List.mem_cons_self) (.deeper (.asBlock rfl) (.deeper
    (.statement ?_ List.mem_cons_self (List.mem_cons_of_mem _ List.mem_cons_self))
    (.deeper (.assert rfl) (.deeper (.operator rfl (.wrapped rfl rfl rfl) rfl) ?_))))
  · exact (named_iff rfl).mpr rfl
  · exact .here (.operator (by decide))

/-- The missing operator of an assert is reported twice. -/
theorem missing_operator_reported_twice : ¬ ∀ (parse : Text → Node) (src : Text)
    (result : Except (List Diagnostic) SourceFile), lower parse src = some result →
    OneEach (rootOf parse src) (diagnosticsOf result) := by
  intro each
  have returns := @lower_returns (fun _ => unfinishedTree) unfinishedText (quoted_unfinishedTree _)
  obtain ⟨result, lowered⟩ := Option.ne_none_iff_exists'.mp returns
  have missing : missingOperator ∈ unfinishedTree.outermost := List.mem_cons_self
  exact (alone_iff lowered).mp (each _ unfinishedText result lowered).alone missingOperator missing _
    complains_unfinishedTree

end Ill.Lower
