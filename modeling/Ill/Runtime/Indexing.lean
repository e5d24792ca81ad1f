import Ill.Runtime.Eval

/-!
# Forms of indexing

The indices of a list are applied one after another, so a list can be split
anywhere, and `.name` is an index by that name where it finds a dict.
-/

namespace Ill

open Ast

/-- Evaluate one index and apply it. -/
def indexBy (scope : Scope) (current : Value) (index : Expr) : Except RuntimeError Value := do
  let key ← eval scope index
  indexInto current key

/-- Each index is evaluated only after the ones before it have been applied. -/
theorem evalIndices_eq_foldlM (scope : Scope) (current : Value) (indices : List Expr) :
    evalIndices scope current indices = indices.foldlM (indexBy scope) current := by
  induction indices generalizing current with
  | nil => rfl
  | cons index rest ih =>
    rw [evalIndices, List.foldlM_cons, indexBy, bind_assoc]
    simp only [ih]

theorem evalIndices_append (scope : Scope) (current : Value) (first second : List Expr) :
    evalIndices scope current (first ++ second) =
      evalIndices scope current first >>= fun next => evalIndices scope next second := by
  simp only [evalIndices_eq_foldlM, List.foldlM_append]

theorem eval_index (scope : Scope) (object : Expr) (indices : List Expr) (span : Span) :
    eval scope (.index object indices span) =
      eval scope object >>= fun value => evalIndices scope value indices := by
  rw [eval]

/-- `object[first, second]` is `object[first][second]`. -/
theorem eval_index_append (scope : Scope) (object : Expr) (first second : List Expr)
    (whole inner outer : Span) :
    eval scope (.index object (first ++ second) whole) =
      eval scope (.index (.index object first inner) second outer) := by
  rw [eval_index, eval_index, eval_index, bind_assoc]
  simp only [evalIndices_append]

/-! ## Members -/

/-- Look up each of the names in turn. -/
def memberChain (object : Expr) (names : List (Ident × Span)) : Expr :=
  names.foldl (fun inner name => .memberAccess inner name.1 name.2) object

/-- Text without interpolation, as an index. -/
def keyText (name : Ident) (span : Span) : Expr := .stringLit [.text name.name] span

/-- Only dicts are looked into by the names. -/
def DictsAlong : List (Ident × Span) → Value → Prop
  | [], _ => True
  | name :: rest, value =>
    ∃ fields, value = .dict fields ∧ ∀ next, Dict.get fields name.1.name = some next → DictsAlong rest next

theorem eval_memberAccess_eq (scope : Scope) (object : Expr) (property : Ident) (span : Span) :
    eval scope (.memberAccess object property span) =
      eval scope object >>= fun value => memberOf value property.name := by
  rw [eval]

theorem eval_memberChain (scope : Scope) (object : Expr) (names : List (Ident × Span)) :
    eval scope (memberChain object names) =
      eval scope object >>= names.foldlM fun value name => memberOf value name.1.name := by
  induction names generalizing object with
  | nil => exact (bind_pure _).symm
  | cons name rest ih =>
    rw [memberChain, List.foldl_cons, ← memberChain, ih, eval_memberAccess_eq, bind_assoc]
    rfl

theorem indexBy_keyText (scope : Scope) (current : Value) (name : Ident) (span : Span) :
    indexBy scope current (keyText name span) = indexInto current (.string name.name) := by
  have text := eval_text scope name.name.toList span
  rw [String.ofList_toList] at text
  rw [indexBy, keyText, text]
  rfl

/-- A dict is looked into the same way by a name and by its text, errors included. -/
theorem memberOf_dict (fields : Dict) (name : String) :
    memberOf (.dict fields) name = indexInto (.dict fields) (.string name) := by
  rw [memberOf, indexInto]

/-- Where they look into dicts only, names can be indices of one list. -/
theorem evalIndices_keyText {scope : Scope} {names : List (Ident × Span)} {value : Value}
    (dicts : DictsAlong names value) :
    evalIndices scope value (names.map fun name => keyText name.1 name.2) =
      names.foldlM (fun value name => memberOf value name.1.name) value := by
  rw [evalIndices_eq_foldlM, List.foldlM_map]
  induction names generalizing value with
  | nil => rfl
  | cons name rest ih =>
    obtain ⟨fields, rfl, later⟩ := dicts
    rw [List.foldlM_cons, List.foldlM_cons, indexBy_keyText, memberOf_dict]
    cases found : indexInto (.dict fields) (.string name.1.name) with
    | error failure => rfl
    | ok next => exact ih (later next (indexInto_key_eq_ok.mp found))

/-- A chain of members is an index list of their names. -/
theorem eval_memberChain_eq_index {scope : Scope} {object : Expr} {names : List (Ident × Span)}
    (dicts : ∀ value, eval scope object = .ok value → DictsAlong names value) (span : Span) :
    eval scope (memberChain object names) =
      eval scope (.index object (names.map fun name => keyText name.1 name.2) span) := by
  rw [eval_memberChain, eval_index]
  cases evaluated : eval scope object with
  | error failure => rfl
  | ok value => exact (evalIndices_keyText (dicts value evaluated)).symm

/-- An index list can be split anywhere, and `object.name` is `object["name"]` for
an object that is a dict. The values are the same, or the first errors are. -/
theorem indexing_interchangeable (scope : Scope) (object : Expr) :
    (∀ (first second : List Expr) (whole inner outer : Span),
      eval scope (.index object (first ++ second) whole) =
        eval scope (.index (.index object first inner) second outer)) ∧
    ∀ fields, eval scope object = .ok (.dict fields) →
      ∀ (name : Ident) (dotted quoted bracketed : Span),
        eval scope (.memberAccess object name dotted) =
          eval scope (.index object [.stringLit [.text name.name] quoted] bracketed) := by
  refine ⟨eval_index_append scope object, ?_⟩
  intro fields evaluated name dotted quoted bracketed
  have one : ∀ value, eval scope object = .ok value → DictsAlong [(name, quoted)] value := by
    intro value same
    obtain rfl := Except.ok.inj (evaluated.symm.trans same)
    exact ⟨fields, rfl, fun _ _ => trivial⟩
  have chain := eval_memberChain_eq_index one bracketed
  change eval scope (.memberAccess object name quoted) = _ at chain
  rw [eval_memberAccess_eq] at chain ⊢
  exact chain

/-- `r.rows` and `r["rows"]`, for `r` the dict `{rows: [7]}`. -/
theorem indexing_interchangeable_rows :
    eval (Scope.new.bind "r" (.dict [("rows", .array [.number 7])]))
        (.memberAccess (.ident ⟨"r", ⟨0, 1⟩⟩) ⟨"rows", ⟨2, 6⟩⟩ ⟨0, 6⟩) =
      eval (Scope.new.bind "r" (.dict [("rows", .array [.number 7])]))
        (.index (.ident ⟨"r", ⟨0, 1⟩⟩) [.stringLit [.text "rows"] ⟨2, 8⟩] ⟨0, 9⟩) :=
  (indexing_interchangeable _ (.ident ⟨"r", ⟨0, 1⟩⟩)).2 _ rfl ⟨"rows", ⟨2, 6⟩⟩ ⟨0, 6⟩ ⟨2, 8⟩ ⟨0, 9⟩

end Ill
