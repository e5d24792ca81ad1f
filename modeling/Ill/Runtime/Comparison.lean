import Ill.Runtime.AccessPaths

/-!
# Comparisons

`==` is an equivalence on the values without a NaN, and no comparison of an
assert tells equal values apart: neither its verdict nor its error message
changes when an operand is replaced by an equal one.
-/

namespace Ill

open Ast Base

namespace Value

/-! ## Values by their parts -/

/-- A property of scalars that passes from the parts of an array or a dict to the
whole holds of every value. -/
theorem parts_induction {motive : Value → Prop} (scalar : ∀ value, value.isContainer = false → motive value)
    (array : ∀ items, (∀ item ∈ items, motive item) → motive (.array items))
    (dict : ∀ fields : List (String × Value), (∀ field ∈ fields, motive field.2) → motive (.dict fields))
    (value : Value) : motive value := by
  refine @Value.rec motive (fun items => ∀ item ∈ items, motive item)
    (fun fields => ∀ field ∈ fields, motive field.2) (fun field => motive field.2)
    (fun text => scalar _ rfl) (fun value => scalar _ rfl) (fun bits => scalar _ rfl)
    (fun value => scalar _ rfl) (fun name => scalar _ rfl) (fun bytes => scalar _ rfl) array dict
    (scalar _ rfl) ?_ ?_ ?_ ?_ ?_ value
  · exact fun item member => nomatch member
  · exact fun item rest first others => List.forall_mem_cons.mpr ⟨first, others⟩
  · exact fun field member => nomatch member
  · exact fun field rest first others => List.forall_mem_cons.mpr ⟨first, others⟩
  · exact fun name value held => held

/-- Arrays are equal if they are as long as each other and equal item by item. -/
theorem eqItems_iff {left right : List Value} :
    eqItems left right = true ↔ List.Forall₂ (fun item other => item.eq other = true) left right := by
  induction left generalizing right with
  | nil => cases right <;> simp [eqItems]
  | cons item rest ih =>
    cases right with
    | nil => simp [eqItems]
    | cons other others => rw [eqItems, Bool.and_eq_true, ih, List.forall₂_cons]

/-! ## `==` is an equivalence -/

theorem floatEq_symm (left right : BitVec 64) : floatEq left right = floatEq right left := by
  have swap : (left == right) = (right == left) := BEq.comm
  simp only [floatEq, swap, Bool.and_comm]

theorem floatEq_trans {left middle right : BitVec 64} (first : floatEq left middle = true)
    (second : floatEq middle right = true) : floatEq left right = true := by
  simp only [floatEq, Bool.and_eq_true, Bool.or_eq_true, beq_iff_eq] at first second ⊢
  obtain ⟨⟨number, -⟩, rfl | zeros⟩ := first
  · exact second
  · obtain ⟨⟨-, other⟩, rfl | others⟩ := second
    · exact ⟨⟨number, other⟩, .inr zeros⟩
    · exact ⟨⟨number, other⟩, .inr ⟨zeros.1, others.2⟩⟩

/-- Equal scalars are the same, or floats that are equal as numbers. -/
theorem eq_cases_of_scalar {left right : Value} (scalar : left.isContainer = false)
    (equal : left.eq right = true) :
    left = right ∨ ∃ bits others, left = .float bits ∧ right = .float others ∧
      floatEq bits others = true := by
  cases left with
  | array items => exact nomatch scalar
  | dict fields => exact nomatch scalar
  | float bits =>
    cases right with
    | float others => exact .inr ⟨bits, others, rfl, rfl, by simpa only [eq] using equal⟩
    | _ => simp [eq] at equal
  | _ => cases right <;> simp_all [eq]

/-- A scalar other than a float is equal to itself. -/
theorem eq_self_of_scalar {value : Value} (scalar : value.isContainer = false) :
    value.eq value = true ↔ ∀ bits, value = .float bits → floatIsNaN bits = false := by
  cases value with
  | array items => exact nomatch scalar
  | dict fields => exact nomatch scalar
  | float bits => simp [eq, floatEq]
  | _ => simp [eq]

theorem eq_array_iff {items : List Value} {other : Value} :
    (Value.array items).eq other = true ↔ ∃ others, other = .array others ∧
      List.Forall₂ (fun item other => item.eq other = true) items others := by
  cases other with
  | array others => simp [eq, eqItems_iff]
  | _ => simp [eq]

theorem eq_dict_iff {fields : List (String × Value)} {other : Value} :
    (Value.dict fields).eq other = true ↔ ∃ others, other = .dict others ∧
      fields.length = others.length ∧ ∀ field ∈ fields, ∃ partner,
        others.lookup field.1 = some partner ∧ field.2.eq partner = true := by
  cases other with
  | dict others => simp [eq, eqFields_iff]
  | _ => simp [eq]

theorem eq_symm {left right : Value} (leftDistinct : left.Distinct) (rightDistinct : right.Distinct)
    (equal : left.eq right = true) : right.eq left = true := by
  induction left using parts_induction generalizing right with
  | scalar value scalar =>
    rcases eq_cases_of_scalar scalar equal with rfl | ⟨bits, others, rfl, rfl, same⟩
    · exact equal
    · rwa [eq, floatEq_symm]
  | array items ih =>
    obtain ⟨others, rfl, same⟩ := eq_array_iff.mp equal
    rw [Distinct, itemsDistinct_iff] at leftDistinct rightDistinct
    refine eq_array_iff.mpr ⟨items, rfl, List.forall₂_iff_get.mpr ⟨same.length_eq.symm, ?_⟩⟩
    intro i there here
    exact ih _ (List.get_mem _ _) (leftDistinct _ (List.get_mem _ _))
      (rightDistinct _ (List.get_mem _ _)) (same.get here there)
  | dict fields ih =>
    obtain ⟨others, rfl, sameLength, partners⟩ := eq_dict_iff.mp equal
    obtain ⟨names, inside⟩ := leftDistinct
    obtain ⟨otherNames, otherInside⟩ := rightDistinct
    rw [fieldsDistinct_iff] at inside otherInside
    refine eq_dict_iff.mpr ⟨fields, rfl, sameLength.symm, fun field member => ?_⟩
    -- The partner of a field on the right is looked up on the left.
    have looked := eqFields_lookup names sameLength (eqFields_iff.mpr partners) field.1
    rw [(Assoc.lookup_eq_some_iff_mem otherNames).mpr member] at looked
    rcases held : fields.lookup field.1 with _ | value
    · rw [held] at looked
      cases looked
    · rw [held] at looked
      obtain ⟨same⟩ := looked
      have here := (Assoc.lookup_eq_some_iff_mem names).mp held
      exact ⟨value, rfl, ih _ here (inside _ here) (otherInside _ member) same⟩

theorem eq_trans {left middle right : Value} (first : left.eq middle = true)
    (second : middle.eq right = true) : left.eq right = true := by
  induction left using parts_induction generalizing middle right with
  | scalar value scalar =>
    rcases eq_cases_of_scalar scalar first with rfl | ⟨bits, others, rfl, rfl, same⟩
    · exact second
    · rcases eq_cases_of_scalar rfl second with rfl | ⟨_, last, ⟨⟩, rfl, later⟩
      · exact first
      · rw [eq]
        exact floatEq_trans same later
  | array items ih =>
    obtain ⟨others, rfl, same⟩ := eq_array_iff.mp first
    obtain ⟨last, rfl, later⟩ := eq_array_iff.mp second
    refine eq_array_iff.mpr ⟨last, rfl, List.forall₂_iff_get.mpr
      ⟨same.length_eq.trans later.length_eq, ?_⟩⟩
    intro i here there
    have between : i < others.length := same.length_eq ▸ here
    exact ih _ (List.get_mem _ _) (same.get here between) (later.get between there)
  | dict fields ih =>
    obtain ⟨others, rfl, sameLength, partners⟩ := eq_dict_iff.mp first
    obtain ⟨last, rfl, laterLength, successors⟩ := eq_dict_iff.mp second
    refine eq_dict_iff.mpr ⟨last, rfl, sameLength.trans laterLength, fun field member => ?_⟩
    obtain ⟨other, held, same⟩ := partners field member
    obtain ⟨before, after, split, -⟩ := List.lookup_eq_some_iff.mp held
    obtain ⟨final, found, later⟩ := successors (field.1, other) (by simp [split])
    exact ⟨final, found, ih _ member same later⟩

mutual

/-- Whether no float at any depth is a NaN. -/
def isNumeric : Value → Bool
  | .float bits => !floatIsNaN bits
  | .array items => itemsNumeric items
  | .dict fields => fieldsNumeric fields
  | .string _ | .number _ | .bool _ | .atom _ | .bytes _ | .null => true

def itemsNumeric : List Value → Bool
  | [] => true
  | item :: rest => isNumeric item && itemsNumeric rest

def fieldsNumeric : List (String × Value) → Bool
  | [] => true
  | (_, value) :: rest => isNumeric value && fieldsNumeric rest

end

theorem itemsNumeric_iff {items : List Value} :
    itemsNumeric items = true ↔ ∀ item ∈ items, item.isNumeric = true := by
  induction items with
  | nil => simp [itemsNumeric]
  | cons item rest ih => rw [itemsNumeric, Bool.and_eq_true, ih, List.forall_mem_cons]

theorem fieldsNumeric_iff {fields : List (String × Value)} :
    fieldsNumeric fields = true ↔ ∀ field ∈ fields, field.2.isNumeric = true := by
  induction fields with
  | nil => simp [fieldsNumeric]
  | cons field rest ih => rw [fieldsNumeric, Bool.and_eq_true, ih, List.forall_mem_cons]

/-- A value is equal to itself unless it holds a NaN. -/
theorem eq_self_iff {value : Value} (distinct : value.Distinct) :
    value.eq value = true ↔ value.isNumeric = true := by
  induction value using parts_induction with
  | scalar value scalar =>
    rw [eq_self_of_scalar scalar]
    cases value <;> simp [isNumeric]
    all_goals exact nomatch scalar
  | array items ih =>
    rw [Distinct, itemsDistinct_iff] at distinct
    rw [eq_array_iff, isNumeric, itemsNumeric_iff]
    constructor
    · rintro ⟨_, ⟨⟩, same⟩ item member
      exact (ih item member (distinct item member)).mp (List.forall₂_same.mp same item member)
    · exact fun numeric => ⟨items, rfl, List.forall₂_same.mpr fun item member =>
        (ih item member (distinct item member)).mpr (numeric item member)⟩
  | dict fields ih =>
    obtain ⟨names, inside⟩ := distinct
    rw [fieldsDistinct_iff] at inside
    rw [eq_dict_iff, isNumeric, fieldsNumeric_iff]
    constructor
    · rintro ⟨_, ⟨⟩, -, partners⟩ field member
      obtain ⟨other, held, same⟩ := partners field member
      rw [(Assoc.lookup_eq_some_iff_mem names).mpr member] at held
      obtain rfl := Option.some.inj held
      exact (ih field member (inside field member)).mp same
    · exact fun numeric => ⟨fields, rfl, rfl, fun field member =>
        ⟨field.2, (Assoc.lookup_eq_some_iff_mem names).mpr member,
          (ih field member (inside field member)).mpr (numeric field member)⟩⟩

/-- Equal values are equal to the same values. -/
theorem eq_congr {left right other partner : Value} (leftDistinct : left.Distinct)
    (rightDistinct : right.Distinct) (otherDistinct : other.Distinct)
    (partnerDistinct : partner.Distinct) (first : left.eq other = true)
    (second : right.eq partner = true) : left.eq right = other.eq partner := by
  rw [Bool.eq_iff_iff]
  constructor
  · exact fun equal => eq_trans (eq_symm leftDistinct otherDistinct first) (eq_trans equal second)
  · exact fun equal => eq_trans first
      (eq_trans equal (eq_symm rightDistinct partnerDistinct second))

/-- `==` is symmetric and transitive, and reflexive on the values without a NaN.
Only the symmetry needs the names in dicts to be distinct. -/
theorem equality_laws :
    (∀ value : Value, value.Distinct → (value.eq value = true ↔ value.isNumeric = true)) ∧
    (∀ left right : Value, left.Distinct → right.Distinct → left.eq right = right.eq left) ∧
    ∀ left middle right : Value,
      left.eq middle = true → middle.eq right = true → left.eq right = true := by
  refine ⟨fun value => eq_self_iff, fun left right leftDistinct rightDistinct => ?_,
    fun left middle right => eq_trans⟩
  rw [Bool.eq_iff_iff]
  exact ⟨eq_symm leftDistinct rightDistinct, eq_symm rightDistinct leftDistinct⟩

end Value

/-! ## Asserts respect it -/

theorem isTruthy_congr {left right : Value} (equal : left.eq right = true) :
    isTruthy left = isTruthy right := by
  cases container : left.isContainer with
  | false =>
    rcases Value.eq_cases_of_scalar container equal with rfl | ⟨bits, others, rfl, rfl, same⟩
    · rfl
    · simp only [Value.floatEq, Bool.and_eq_true, Bool.or_eq_true, beq_iff_eq] at same
      rcases same.2 with rfl | ⟨zero, other⟩
      · rfl
      · rw [isTruthy, isTruthy, zero, other]
  | true =>
    rcases Value.eq_cases equal with ⟨items, others, rfl, rfl, same⟩ |
      ⟨fields, others, rfl, rfl, sameLength, -⟩ | ⟨scalar, -⟩
    · have lengths := (Value.eqItems_iff.mp same).length_eq
      cases items <;> cases others <;> first | rfl | exact nomatch lengths
    · cases fields <;> cases others <;> first | rfl | exact nomatch sameLength
    · rw [container] at scalar
      exact nomatch scalar

theorem typeName_congr {left right : Value} (equal : left.eq right = true) :
    left.typeName = right.typeName := by
  cases left <;> cases right <;> first | rfl | simp [Value.eq] at equal

theorem number_congr {left right : Value} (equal : left.eq right = true) (n : Int) :
    left = .number n ↔ right = .number n := by
  cases left <;> cases right <;> simp_all [Value.eq]

theorem string_congr {left right : Value} (equal : left.eq right = true) (text : String) :
    left = .string text ↔ right = .string text := by
  cases left <;> cases right <;> simp_all [Value.eq]

section Congruence

variable {left right other partner : Value}

theorem compareOrd_congr (first : left.eq other = true) (second : right.eq partner = true) :
    compareOrd left right = compareOrd other partner := by
  unfold compareOrd
  split
  · next x y =>
    rw [(number_congr first x).mp rfl, (number_congr second y).mp rfl]
  · next x y =>
    rw [(string_congr first x).mp rfl, (string_congr second y).mp rfl]
  · next notNumbers notStrings =>
    split
    · next x y =>
      exact (notNumbers x y ((number_congr first x).mpr rfl) ((number_congr second y).mpr rfl)).elim
    · next x y =>
      exact (notStrings x y ((string_congr first x).mpr rfl) ((string_congr second y).mpr rfl)).elim
    · rw [typeName_congr first, typeName_congr second]

theorem matchesRegex_congr (regex : Regex) (first : left.eq other = true)
    (second : right.eq partner = true) :
    matchesRegex regex left right = matchesRegex regex other partner := by
  unfold matchesRegex
  split
  · next x y =>
    rw [(string_congr first x).mp rfl, (string_congr second y).mp rfl]
  · next notStrings =>
    split
    · next x y =>
      exact (notStrings x y ((string_congr first x).mpr rfl) ((string_congr second y).mpr rfl)).elim
    · rw [typeName_congr first, typeName_congr second]

/-- An array holds a value if it holds an equal one. -/
theorem any_eq_congr {items others : List Value} (itemsDistinct : ∀ item ∈ items, item.Distinct)
    (othersDistinct : ∀ item ∈ others, item.Distinct) (rightDistinct : right.Distinct)
    (partnerDistinct : partner.Distinct)
    (same : List.Forall₂ (fun item other => item.eq other = true) items others)
    (second : right.eq partner = true) :
    (items.any fun item => item.eq right) = others.any fun item => item.eq partner := by
  induction same with
  | nil => rfl
  | cons here _ ih =>
    rw [List.forall_mem_cons] at itemsDistinct othersDistinct
    rw [List.any_cons, List.any_cons, ih itemsDistinct.2 othersDistinct.2,
      Value.eq_congr itemsDistinct.1 rightDistinct othersDistinct.1 partnerDistinct here second]

theorem containsValue_congr (leftDistinct : left.Distinct) (rightDistinct : right.Distinct)
    (otherDistinct : other.Distinct) (partnerDistinct : partner.Distinct)
    (first : left.eq other = true) (second : right.eq partner = true) :
    containsValue left right = containsValue other partner := by
  by_cases container : ∃ items, left = .array items
  · obtain ⟨items, rfl⟩ := container
    obtain ⟨others, rfl, same⟩ := Value.eq_array_iff.mp first
    rw [Value.Distinct, Value.itemsDistinct_iff] at leftDistinct otherDistinct
    simp only [containsValue]
    rw [any_eq_congr leftDistinct otherDistinct rightDistinct partnerDistinct same second]
  · have notArray : ∀ items, other ≠ .array items := by
      rintro items rfl
      cases left <;> first | exact container ⟨_, rfl⟩ | simp [Value.eq] at first
    unfold containsValue
    split
    · next x y =>
      rw [(string_congr first x).mp rfl, (string_congr second y).mp rfl]
    · next items => exact absurd ⟨items, rfl⟩ container
    · next notStrings =>
      split
      · next x y =>
        exact (notStrings x y ((string_congr first x).mpr rfl) ((string_congr second y).mpr rfl)).elim
      · next items => exact absurd rfl (notArray items)
      · rw [typeName_congr first, typeName_congr second]

theorem compareValues_congr (regex : Regex) (leftDistinct : left.Distinct)
    (rightDistinct : right.Distinct) (otherDistinct : other.Distinct)
    (partnerDistinct : partner.Distinct) (first : left.eq other = true)
    (second : right.eq partner = true) (op : ComparisonOp) :
    compareValues regex left right op = compareValues regex other partner op := by
  have equality := Value.eq_congr leftDistinct rightDistinct otherDistinct partnerDistinct first second
  have ordering := compareOrd_congr first second
  have containment := containsValue_congr leftDistinct rightDistinct otherDistinct partnerDistinct
    first second
  have matching := matchesRegex_congr regex first second
  cases op <;> simp only [compareValues, equality, ordering, containment, matching]

end Congruence

/-- Two evaluations with the same error, or with equal results whose dicts have
distinct names. -/
inductive SameValue : Except RuntimeError Value → Except RuntimeError Value → Prop where
  | failed (e : RuntimeError) : SameValue (.error e) (.error e)
  | equal {left right : Value} (leftDistinct : left.Distinct) (rightDistinct : right.Distinct)
    (same : left.eq right = true) : SameValue (.ok left) (.ok right)

/-- An assert looks at its operands up to `==`: in two scopes in which both sides
come to equal values, it passes, fails or raises the same error. -/
theorem evalAssert_congr (regex : Regex) (a : Assert) (scope other : Scope)
    (left : SameValue (eval scope a.left) (eval other a.left))
    (right : ∀ expr, a.right = some expr → SameValue (eval scope expr) (eval other expr)) :
    (evalAssert regex a scope).map (·.passed) = (evalAssert regex a other).map (·.passed) := by
  obtain ⟨ annotation, leftExpr, op, rightExpr, span⟩ := a
  dsimp only at left right
  simp only [evalAssert]
  generalize eval scope leftExpr = here at left ⊢
  generalize eval other leftExpr = there at left ⊢
  cases left with
  | failed e => rfl
  | @equal value partner valueDistinct partnerDistinct same =>
    cases op with
    | none => exact congrArg Except.ok (isTruthy_congr same)
    | some op =>
      cases rightExpr with
      | none => rfl
      | some expr =>
        have right := right expr rfl
        simp only [bind, Except.bind]
        generalize eval scope expr = here at right ⊢
        generalize eval other expr = there at right ⊢
        cases right with
        | failed e => rfl
        | @equal operand last operandDistinct lastDistinct alike =>
          simp only [compareValues_congr regex valueDistinct operandDistinct partnerDistinct
            lastDistinct same alike]
          cases compareValues regex partner last op <;> rfl

/-- Two dicts with the same fields in another order, under the same names. -/
theorem evalAssert_congr_reordered :
    let a : Assert := ⟨none, .ident ⟨"rows", ⟨0, 4⟩⟩, some .contains, some (.ident ⟨"row", ⟨5, 8⟩⟩), ⟨0, 8⟩⟩
    let row : Value := .dict [("id", .number 1), ("name", .string "x")]
    let reordered : Value := .dict [("name", .string "x"), ("id", .number 1)]
    (evalAssert (fun _ => .error "") a ((Scope.new.bind "rows" (.array [row])).bind "row" row)).map
        (·.passed) =
      (evalAssert (fun _ => .error "") a
        ((Scope.new.bind "rows" (.array [row])).bind "row" reordered)).map (·.passed) := by
  intro a row reordered
  have rowDistinct : row.Distinct := by
    simp [row, Value.Distinct, Value.FieldsDistinct]
  have reorderedDistinct : reordered.Distinct := by
    simp [reordered, Value.Distinct, Value.FieldsDistinct]
  apply evalAssert_congr (fun _ => .error "") a
  · exact .equal (by simp [Value.Distinct, Value.ItemsDistinct, rowDistinct])
      (by simp [Value.Distinct, Value.ItemsDistinct, rowDistinct]) (by decide)
  · rintro expr ⟨⟩
    exact .equal rowDistinct reorderedDistinct (by decide)

end Ill
