import Ill.Actor.PgClient
import Ill.Base.Except
import Ill.Runtime.Eval

/-!
# The two views of a query result

`ok.row` holds the cells by row and `ok.col` holds them by column, keyed by the
column's name. A dict has one field for a name, so a column is lost when another
one has its name, and the columns after it are found at other positions.
-/

namespace Ill.Actor.PgClient

open Ast Base

/-! ## Reading a result -/

/-- `ok.<name>`. -/
def okField (name : String) : Expr :=
  .memberAccess (.ident ⟨"ok", ⟨0, 0⟩⟩) ⟨name, ⟨0, 0⟩⟩ ⟨0, 0⟩

/-- `ok.<view>[first][second]`. -/
def viewAt (view : String) (first second : Expr) : Expr :=
  .index (.index (okField view) [first] ⟨0, 0⟩) [second] ⟨0, 0⟩

/-- A position as it is written in an index. -/
def position (i : Nat) : Expr := .number i

/-- A column's name as it is written in an index. -/
def nameKey (name : String) : Expr := .stringLit [.text name] ⟨0, 0⟩

/-- Both views of a result count its rows and columns and show the same cells,
the columns by position as by name. -/
structure ViewsAgree (columns : List String) (rows : List Row) : Prop where
  rowCount : Dict.get (buildResultDict rows) "row_count" = some (.number rows.length)
  colCount : rows ≠ [] →
    Dict.get (buildResultDict rows) "col_count" = some (.number columns.length)
  cells : ∀ (scope : Scope) (i j : Nat) (name : String), i < rows.length →
    columns[j]? = some name → ∃ cell,
      let after := scope.bind "ok" (.dict (buildResultDict rows))
      eval after (viewAt "row" (position i) (position j)) = .ok cell ∧
        eval after (viewAt "col" (position j) (position i)) = .ok cell ∧
        eval after (viewAt "col" (nameKey name) (position i)) = .ok cell

/-! ## Evaluation of the views -/

/-- Indexing once applies one level. -/
theorem eval_indexed {scope : Scope} {object index : Expr} {container key : Value}
    (whole : eval scope object = .ok container) (place : eval scope index = .ok key) (span : Span) :
    eval scope (.index object [index] span) = indexInto container key := by
  simp only [eval, evalIndices, whole, place, bind, Except.bind]
  cases indexInto container key <;> rfl

/-- Reading a view of a result by two keys. -/
theorem eval_viewAt {scope : Scope} {fields : Dict} {view : String} {first second : Expr}
    {container key inner place cell : Value} (held : fields.get view = some container)
    (evalFirst : ∀ scope, eval scope first = .ok key)
    (evalSecond : ∀ scope, eval scope second = .ok place)
    (inside : indexInto container key = .ok inner) (found : indexInto inner place = .ok cell) :
    eval (scope.bind "ok" (.dict fields)) (viewAt view first second) = .ok cell := by
  have whole : eval (scope.bind "ok" (.dict fields)) (okField view) = .ok container := by
    simp [okField, eval, memberOf, held, bind, Except.bind]
  have middle := (eval_indexed whole (evalFirst _) ⟨0, 0⟩).trans inside
  exact (eval_indexed middle (evalSecond _) ⟨0, 0⟩).trans found

/-- A view that is read by two keys has a part at the first one. -/
theorem part_of_eval_viewAt {scope : Scope} {fields : Dict} {view : String} {first second : Expr}
    {container key cell : Value} (held : fields.get view = some container)
    (evalFirst : ∀ scope, eval scope first = .ok key)
    (read : eval (scope.bind "ok" (.dict fields)) (viewAt view first second) = .ok cell) :
    ∃ inner, indexInto container key = .ok inner := by
  have whole : eval (scope.bind "ok" (.dict fields)) (okField view) = .ok container := by
    simp [okField, eval, memberOf, held, bind, Except.bind]
  have middle := eval_indexed whole (evalFirst (scope.bind "ok" (.dict fields))) ⟨0, 0⟩
  rw [viewAt, eval, middle] at read
  obtain ⟨inner, inside, -⟩ := bind_eq_ok.mp read
  exact ⟨inner, inside⟩

theorem eval_position (i : Nat) (scope : Scope) : eval scope (position i) = .ok (.number i) := rfl

theorem eval_nameKey (name : String) (scope : Scope) :
    eval scope (nameKey name) = .ok (.string name) := by
  rw [nameKey, ← String.ofList_toList (s := name)]
  exact eval_text scope name.toList ⟨0, 0⟩

/-- An array is indexed by position. -/
theorem indexInto_array {items : List Value} {i : Nat} {item : Value}
    (inside : items[i]? = some item) : indexInto (.array items) (.number i) = .ok item :=
  indexInto_array_eq_ok.mpr ⟨Int.natCast_nonneg i, inside⟩

/-! ## The views of one list of rows -/

/-- The columns of a result, repeated names included. -/
def columnFields (columns : List String) (rows : List Row) : Dict :=
  columns.zipIdx.map fun column => (column.1, .array (columnCells rows column.2))

theorem keys_columnFields (columns : List String) (rows : List Row) :
    (columnFields columns rows).map Prod.fst = columns := by
  rw [columnFields, List.map_map]
  exact List.zipIdx_map_fst 0 columns

/-- The cells of a row, one for each column. -/
def rowValue (width : Nat) (row : Row) : Value :=
  .array ((List.range width).map fun i => row.cells.getD i .null)

/-- The dict of a result that is not empty. -/
theorem buildResultDict_eq {columns : List String} {rows : List Row}
    (shared : ∀ row ∈ rows, row.columns = columns) (nonempty : rows ≠ []) :
    buildResultDict rows =
      [("row", .array (rows.map (rowValue columns.length))),
      ("col", .dict (Assoc.ofPairs (columnFields columns rows))),
      ("row_count", .number rows.length), ("col_count", .number columns.length)] := by
  obtain ⟨first, rest, rfl⟩ := List.exists_cons_of_ne_nil nonempty
  have own : first.columns = columns := shared first List.mem_cons_self
  rw [buildResultDict, Assoc.ofPairs, columnFields, List.foldl_map]
  simp only [List.head?_cons, Option.map_some, Option.getD_some, own]
  rfl

/-- With distinct names every column is in its place and under its name. -/
theorem columnFields_places {columns : List String} (distinct : columns.Nodup) {j : Nat}
    {name : String} (named : columns[j]? = some name) (rows : List Row) :
    ((Assoc.ofPairs (columnFields columns rows)).map Prod.snd)[j]? =
        some (.array (columnCells rows j)) ∧
      Dict.get (Assoc.ofPairs (columnFields columns rows)) name =
        some (.array (columnCells rows j)) := by
  have keys := keys_columnFields columns rows
  have kept : Assoc.ofPairs (columnFields columns rows) = columnFields columns rows := by
    rwa [Assoc.ofPairs_eq_self_iff, keys]
  have place : (columnFields columns rows)[j]? = some (name, .array (columnCells rows j)) := by
    rw [columnFields, List.getElem?_map, List.getElem?_zipIdx, named]
    simp
  rw [kept]
  constructor
  · rw [List.getElem?_map, place]
    rfl
  · apply (Assoc.lookup_eq_some_iff_mem (by rwa [keys])).mpr
    exact List.mem_of_getElem? place

/-- The cell in a row is the cell in its column. -/
theorem getElem?_columnCells {rows : List Row} {i : Nat} (j : Nat) (inside : i < rows.length) :
    (columnCells rows j)[i]? = some (rows[i].cells.getD j .null) := by
  rw [columnCells, List.getElem?_map, List.getElem?_eq_getElem inside]
  rfl

/-- The views of a result agree exactly if it is empty or no two of its columns
have the same name. -/
theorem views_agree_iff {columns : List String} {rows : List Row}
    (shared : ∀ row ∈ rows, row.columns = columns) :
    ViewsAgree columns rows ↔ rows = [] ∨ columns.Nodup := by
  by_cases empty : rows = []
  · subst empty
    constructor
    · intro _
      exact .inl rfl
    · intro _
      exact ⟨rfl, by simp, by simp⟩
  · have result := buildResultDict_eq shared empty
    have colHeld : Dict.get (buildResultDict rows) "col" =
        some (.dict (Assoc.ofPairs (columnFields columns rows))) := by
      rw [result]
      rfl
    constructor
    · intro agree
      right
      -- A lost column leaves the last position without a field.
      by_contra repeated
      have fewer : (Assoc.ofPairs (columnFields columns rows)).length < columns.length := by
        have bound := Assoc.length_ofPairs_le (columnFields columns rows)
        have different : (Assoc.ofPairs (columnFields columns rows)).length ≠
            (columnFields columns rows).length := by
          rwa [ne_eq, Assoc.length_ofPairs_eq_iff, keys_columnFields]
        have all : (columnFields columns rows).length = columns.length := by
          simp [columnFields]
        omega
      have first : 0 < rows.length := List.length_pos_iff.mpr empty
      obtain ⟨cell, -, byPlace, -⟩ :=
        agree.cells .new 0 _ _ first (List.getElem?_eq_getElem fewer)
      obtain ⟨inner, found⟩ := part_of_eval_viewAt colHeld (eval_position _) byPlace
      have place := (indexInto_dict_eq_ok.mp found).2
      rw [Int.toNat_natCast, List.getElem?_eq_none (by simp)] at place
      exact nomatch place
    · rintro (none | distinct)
      · exact absurd none empty
      · have rowHeld : Dict.get (buildResultDict rows) "row" =
            some (.array (rows.map (rowValue columns.length))) := by
          rw [result]
          rfl
        refine ⟨by rw [result]; rfl, fun _ => by rw [result]; rfl, ?_⟩
        intro scope i j name rowInside named
        have colInside : j < columns.length := (List.getElem?_eq_some_iff.mp named).1
        obtain ⟨atPlace, underName⟩ := columnFields_places distinct named rows
        have cell := indexInto_array (getElem?_columnCells j rowInside)
        refine ⟨rows[i].cells.getD j .null, ?_, ?_, ?_⟩
        · have whole : (rows.map (rowValue columns.length))[i]? =
              some (rowValue columns.length rows[i]) := by
            rw [List.getElem?_map, List.getElem?_eq_getElem rowInside, Option.map_some]
          refine eval_viewAt rowHeld (eval_position i) (eval_position j) (indexInto_array whole)
            (indexInto_array ?_)
          rw [List.getElem?_map, List.getElem?_range colInside, Option.map_some]
        · exact eval_viewAt colHeld (eval_position j) (eval_position i)
            (indexInto_dict_eq_ok.mpr ⟨Int.natCast_nonneg j, atPlace⟩) cell
        · exact eval_viewAt colHeld (eval_nameKey name) (eval_position i)
            (indexInto_key_eq_ok.mpr underName) cell

/-- `select 1 as id, 2 as age`. -/
theorem views_agree_distinct :
    ViewsAgree ["id", "age"] [⟨["id", "age"], [.number 1, .number 2]⟩] := by
  apply (views_agree_iff (by simp)).mpr
  right
  decide

/-- `select 1 as id, 2 as id`: the second column takes the place of the first,
and nothing is in its own. -/
theorem repeated_column_lost :
    ¬ ∀ (columns : List String) (rows : List Row), (∀ row ∈ rows, row.columns = columns) →
      ViewsAgree columns rows := by
  intro agree
  have views := agree ["id", "id"] [⟨["id", "id"], [.number 1, .number 2]⟩] (by simp)
  obtain ⟨cell, -, byPlace, -⟩ := views.cells .new 0 1 "id" (by decide) rfl
  exact nomatch byPlace

end Ill.Actor.PgClient
