import Ill.Base.Except
import Ill.Runtime.Assert
import Mathlib.Data.List.Perm.Subperm

/-!
# Access paths of equal values

`==` compares dicts as maps, while a position in a dict counts its fields in
order. Equal values are therefore told apart by a position in two dicts whose
fields are ordered differently, and by no other access.
-/

namespace Ill

open Ast Base

/-! ## Values whose dicts have distinct names -/

namespace Value

mutual

/-- The names in every dict are distinct, at any depth. -/
def Distinct : Value → Prop
  | .array items => ItemsDistinct items
  | .dict fields => (fields.map Prod.fst).Nodup ∧ FieldsDistinct fields
  | .string _ | .number _ | .float _ | .bool _ | .atom _ | .bytes _ | .null => True

def ItemsDistinct : List Value → Prop
  | [] => True
  | item :: rest => Distinct item ∧ ItemsDistinct rest

def FieldsDistinct : List (String × Value) → Prop
  | [] => True
  | (_, value) :: rest => Distinct value ∧ FieldsDistinct rest

end

theorem itemsDistinct_iff {items : List Value} :
    ItemsDistinct items ↔ ∀ item ∈ items, Distinct item := by
  induction items with
  | nil => simp [ItemsDistinct]
  | cons item rest ih => rw [ItemsDistinct, ih, List.forall_mem_cons]

theorem fieldsDistinct_iff {fields : List (String × Value)} :
    FieldsDistinct fields ↔ ∀ field ∈ fields, Distinct field.2 := by
  induction fields with
  | nil => simp [FieldsDistinct]
  | cons field rest ih => rw [FieldsDistinct, ih, List.forall_mem_cons]

/-! ## Equality by parts -/

/-- Both are missing, or both are there and equal. -/
abbrev Partners : Option Value → Option Value → Prop :=
  Option.Rel fun value other => value.eq other = true

/-- Arrays are equal position by position. -/
theorem eqItems_getElem? {left right : List Value} (equal : eqItems left right = true) (i : Nat) :
    Partners left[i]? right[i]? := by
  induction left generalizing right i with
  | nil =>
    cases right with
    | nil => exact .none
    | cons other others => simp [eqItems] at equal
  | cons item rest ih =>
    cases right with
    | nil => simp [eqItems] at equal
    | cons other others =>
      rw [eqItems, Bool.and_eq_true] at equal
      cases i with
      | zero => exact .some equal.1
      | succ i => simpa using ih equal.2 i

/-- Every field of an equal dict has an equal partner of its name. -/
theorem eqFields_iff {left right : List (String × Value)} :
    eqFields left right = true ↔
      ∀ field ∈ left, ∃ other, right.lookup field.1 = some other ∧ field.2.eq other = true := by
  induction left with
  | nil => simp [eqFields]
  | cons field rest ih =>
    obtain ⟨name, value⟩ := field
    rw [eqFields, Bool.and_eq_true, ih, List.forall_mem_cons]
    apply and_congr_left
    intro _
    cases held : right.lookup name with
    | none => simp
    | some other => simp

/-- Dicts of the same length have the same names if the fields of one have
partners in the other. -/
theorem mem_names_of_eqFields {left right : List (String × Value)}
    (distinct : (left.map Prod.fst).Nodup) (sameLength : left.length = right.length)
    (equal : eqFields left right = true) {name : String} (inside : name ∈ right.map Prod.fst) :
    name ∈ left.map Prod.fst := by
  have included : left.map Prod.fst ⊆ right.map Prod.fst := by
    intro name inside
    obtain ⟨field, member, rfl⟩ := List.mem_map.mp inside
    obtain ⟨other, held, -⟩ := eqFields_iff.mp equal field member
    obtain ⟨before, after, rfl, -⟩ := List.lookup_eq_some_iff.mp held
    simp
  have permuted : (left.map Prod.fst).Perm (right.map Prod.fst) := by
    apply (distinct.subperm included).perm_of_length_le
    simp [sameLength]
  exact permuted.mem_iff.mpr inside

/-- Equal dicts have equal fields under every name. -/
theorem eqFields_lookup {left right : List (String × Value)}
    (distinct : (left.map Prod.fst).Nodup) (sameLength : left.length = right.length)
    (equal : eqFields left right = true) (name : String) :
    Partners (left.lookup name) (right.lookup name) := by
  cases held : left.lookup name with
  | none =>
    have absent := Assoc.lookup_eq_none_iff_notMem.mp held
    have missing := mt (mem_names_of_eqFields distinct sameLength equal) absent
    rw [Assoc.lookup_eq_none_iff_notMem.mpr missing]
    exact .none
  | some value =>
    have member := (Assoc.lookup_eq_some_iff_mem distinct).mp held
    obtain ⟨other, partner, same⟩ := eqFields_iff.mp equal _ member
    rw [partner]
    exact .some same

/-- Equal dicts in the same order have equal fields at every position. -/
theorem eqFields_getElem? {left right : List (String × Value)}
    (distinct : (right.map Prod.fst).Nodup) (ordered : left.map Prod.fst = right.map Prod.fst)
    (equal : eqFields left right = true) (i : Nat) :
    Partners (left.map Prod.snd)[i]? (right.map Prod.snd)[i]? := by
  have names : left[i]?.map Prod.fst = right[i]?.map Prod.fst := by
    rw [← List.getElem?_map, ← List.getElem?_map, ordered]
  rw [List.getElem?_map, List.getElem?_map]
  cases here : left[i]? with
  | none =>
    rw [here] at names
    rw [Option.map_eq_none_iff.mp names.symm]
    exact .none
  | some field =>
    rw [here] at names
    obtain ⟨partner, there, sameName⟩ := Option.map_eq_some_iff.mp names.symm
    obtain ⟨other, held, same⟩ := eqFields_iff.mp equal field (List.mem_of_getElem? here)
    have found : right.lookup field.1 = some partner.2 := by
      apply (Assoc.lookup_eq_some_iff_mem distinct).mpr
      rw [← sameName]
      exact List.mem_of_getElem? there
    obtain rfl := Option.some.inj (held.symm.trans found)
    rw [there]
    exact .some same

def isContainer : Value → Bool
  | .array _ | .dict _ => true
  | _ => false

/-- Equal values are arrays, dicts, or both neither. -/
theorem eq_cases {left right : Value} (equal : left.eq right = true) :
    (∃ items others, left = .array items ∧ right = .array others ∧ eqItems items others = true) ∨
      (∃ fields others, left = .dict fields ∧ right = .dict others ∧
        fields.length = others.length ∧ eqFields fields others = true) ∨
      left.isContainer = false ∧ right.isContainer = false := by
  cases left with
  | array items =>
    cases right with
    | array others => exact .inl ⟨items, others, rfl, rfl, by simpa [eq] using equal⟩
    | _ => simp [eq] at equal
  | dict fields =>
    cases right with
    | dict others =>
      right
      left
      rw [eq, Bool.and_eq_true, beq_iff_eq] at equal
      exact ⟨fields, others, rfl, rfl, equal⟩
    | _ => simp [eq] at equal
  | _ =>
    right
    right
    refine ⟨rfl, ?_⟩
    cases right with
    | array others => simp [eq] at equal
    | dict others => simp [eq] at equal
    | _ => rfl

end Value

/-! ## Paths -/

/-- One access: `.name` or `[key]`. -/
inductive Access where
  | member (name : String)
  | index (key : Value)

def Access.take (value : Value) : Access → Except RuntimeError Value
  | .member name => memberOf value name
  | .index key => indexInto value key

/-- Make the accesses one after another. -/
def follow (value : Value) : List Access → Except RuntimeError Value
  | [] => .ok value
  | access :: rest => (access.take value).bind fun next => follow next rest

/-- Both computations fail, or both give values that are equal. -/
def Alike : Except RuntimeError Value → Except RuntimeError Value → Prop
  | .ok left, .ok right => left.eq right = true
  | .error _, .error _ => True
  | _, _ => False

/-- An access by position finds dicts whose fields are in the same order. -/
def Access.Ordered : Access → Value → Value → Prop
  | .index (.number _), .dict left, .dict right => left.map Prod.fst = right.map Prod.fst
  | _, _, _ => True

/-- Every access by position finds dicts whose fields are in the same order. -/
def OrderedAlong : List Access → Value → Value → Prop
  | [], _, _ => True
  | access :: rest, left, right =>
    access.Ordered left right ∧ ∀ next other, access.take left = .ok next →
      access.take right = .ok other → OrderedAlong rest next other

/-- The language makes one access for a member, -/
theorem eval_memberAccess {scope : Scope} {object : Expr} {value : Value}
    (whole : eval scope object = .ok value) (property : Ident) (span : Span) :
    eval scope (.memberAccess object property span) = (Access.member property.name).take value := by
  rw [eval, whole]
  rfl

/-- and one for every index. -/
theorem evalIndices_follow {scope : Scope} {indices : List Expr} {keys : List Value}
    (places : evalItems scope indices = .ok keys) (value : Value) :
    evalIndices scope value indices = follow value (keys.map Access.index) := by
  induction indices generalizing value keys with
  | nil =>
    obtain rfl := Except.ok.inj places
    rfl
  | cons index rest ih =>
    obtain ⟨key, here, others⟩ := bind_eq_ok.mp places
    obtain ⟨later, there, returned⟩ := bind_eq_ok.mp others
    cases returned
    rw [evalIndices, here, List.map_cons, follow]
    exact bind_congr fun next => ih there next

/-! ## One access -/

/-- Nothing is inside a value that is no container. -/
theorem take_of_scalar {value : Value} (scalar : value.isContainer = false) (access : Access) :
    ∃ failure, access.take value = .error failure := by
  cases access with
  | member name =>
    cases value with
    | dict fields => simp [Value.isContainer] at scalar
    | _ => exact ⟨_, rfl⟩
  | index key =>
    cases value with
    | array items => simp [Value.isContainer] at scalar
    | dict fields => simp [Value.isContainer] at scalar
    | _ => exact ⟨_, rfl⟩

/-- What an access finds is a part of the value. -/
theorem distinct_of_take {value next : Value} {access : Access} (distinct : value.Distinct)
    (taken : access.take value = .ok next) : next.Distinct := by
  by_cases container : value.isContainer = true
  · cases value with
    | array items =>
      have parts := Value.itemsDistinct_iff.mp distinct
      cases access with
      | member name => exact nomatch taken
      | index key =>
        cases key with
        | number n =>
          have found := (indexInto_array_eq_ok.mp taken).2
          exact parts next (List.mem_of_getElem? found)
        | _ => exact nomatch taken
    | dict fields =>
      obtain ⟨names, values⟩ := distinct
      have parts := Value.fieldsDistinct_iff.mp values
      have ofName : ∀ {name : String}, fields.lookup name = some next → next.Distinct := by
        intro name found
        exact parts _ ((Assoc.lookup_eq_some_iff_mem names).mp found)
      cases access with
      | member name => exact ofName (memberOf_eq_ok.mp taken)
      | index key =>
        cases key with
        | number n =>
          have found := List.mem_of_getElem? (indexInto_dict_eq_ok.mp taken).2
          obtain ⟨field, inside, rfl⟩ := List.mem_map.mp found
          exact parts field inside
        | string name => exact ofName (indexInto_key_eq_ok.mp taken)
        | _ => exact nomatch taken
    | _ => simp [Value.isContainer] at container
  · obtain ⟨failure, failed⟩ := take_of_scalar (by simpa using container) access
    rw [failed] at taken
    exact nomatch taken

/-- Computations that succeed with what is found are alike if partners are found. -/
theorem Alike.of_partners {left right : Except RuntimeError Value} {valid : Prop}
    {here there : Option Value} (leftOk : ∀ value, left = .ok value ↔ valid ∧ here = some value)
    (rightOk : ∀ value, right = .ok value ↔ valid ∧ there = some value)
    (partners : Value.Partners here there) : Alike left right := by
  cases left with
  | ok value =>
    obtain ⟨isValid, found⟩ := (leftOk value).mp rfl
    subst found
    cases partners with
    | some same =>
      rw [(rightOk _).mpr ⟨isValid, rfl⟩]
      exact same
  | error failure =>
    cases right with
    | error other => trivial
    | ok other =>
      obtain ⟨isValid, found⟩ := (rightOk other).mp rfl
      subst found
      cases partners with
      | some same =>
        have impossible := (leftOk _).mpr ⟨isValid, rfl⟩
        exact nomatch impossible

/-- Equal values give equal parts, by position if they are in the same order. -/
theorem take_alike {left right : Value} (equal : left.eq right = true) (leftDistinct : left.Distinct)
    (rightDistinct : right.Distinct) {access : Access} (ordered : access.Ordered left right) :
    Alike (access.take left) (access.take right) := by
  rcases Value.eq_cases equal with ⟨items, others, rfl, rfl, same⟩ |
    ⟨fields, others, rfl, rfl, sameLength, same⟩ | ⟨scalarLeft, scalarRight⟩
  · cases access with
    | member name => trivial
    | index key =>
      cases key with
      | number n =>
        exact .of_partners (fun _ => indexInto_array_eq_ok) (fun _ => indexInto_array_eq_ok)
          (Value.eqItems_getElem? same n.toNat)
      | _ => trivial
  · have byName := Value.eqFields_lookup leftDistinct.1 sameLength same
    cases access with
    | member name =>
      have held : ∀ (fields : Dict) value, memberOf (.dict fields) name = .ok value ↔
          True ∧ fields.get name = some value := by
        intro fields value
        rw [memberOf_eq_ok, true_and]
      exact .of_partners (held fields) (held others) (byName name)
    | index key =>
      cases key with
      | number n =>
        exact .of_partners (fun _ => indexInto_dict_eq_ok) (fun _ => indexInto_dict_eq_ok)
          (Value.eqFields_getElem? rightDistinct.1 ordered same n.toNat)
      | string name =>
        have held : ∀ (fields : Dict) value, indexInto (.dict fields) (.string name) = .ok value ↔
            True ∧ fields.get name = some value := by
          intro fields value
          rw [indexInto_key_eq_ok, true_and]
        exact .of_partners (held fields) (held others) (byName name)
      | _ => trivial
  · obtain ⟨failure, failed⟩ := take_of_scalar scalarLeft access
    obtain ⟨other, alsoFailed⟩ := take_of_scalar scalarRight access
    rw [failed, alsoFailed]
    trivial

/-! ## Paths of accesses -/

/-- Two values for which `assert left == right` passes give equal parts along any
path, or both have none, provided that an access by position to two dicts finds
their fields in the same order. -/
theorem equal_values_alike (regex : Regex) {left right : Value} (leftDistinct : left.Distinct)
    (rightDistinct : right.Distinct) (passes : compareValues regex left right .eq = .ok true)
    (path : List Access) (ordered : OrderedAlong path left right) :
    Alike (follow left path) (follow right path) := by
  have equal : left.eq right = true := Except.ok.inj passes
  clear passes
  induction path generalizing left right with
  | nil => exact equal
  | cons access rest ih =>
    obtain ⟨first, later⟩ := ordered
    have parts := take_alike equal leftDistinct rightDistinct first
    rw [follow, follow]
    cases here : access.take left with
    | error failure =>
      cases there : access.take right with
      | error other => trivial
      | ok other =>
        rw [here, there] at parts
        exact parts.elim
    | ok next =>
      cases there : access.take right with
      | error other =>
        rw [here, there] at parts
        exact parts.elim
      | ok other =>
        rw [here, there] at parts
        exact ih (distinct_of_take leftDistinct here) (distinct_of_take rightDistinct there)
          (later next other here there) parts

/-- The fields of `{a: 1, b: [2]}` in either order. -/
theorem equal_values_alike_reordered :
    Alike (follow (.dict [("a", .number 1), ("b", .array [.number 2])]) [.member "b", .index (.number 0)])
      (follow (.dict [("b", .array [.number 2]), ("a", .number 1)])
        [.member "b", .index (.number 0)]) := by
  apply equal_values_alike (fun _ => .error "")
  · simp [Value.Distinct, Value.FieldsDistinct, Value.ItemsDistinct]
  · simp [Value.Distinct, Value.FieldsDistinct, Value.ItemsDistinct]
  · rfl
  · refine ⟨trivial, fun next other here there => ?_⟩
    obtain rfl : Value.array [.number 2] = next := Except.ok.inj here
    obtain rfl : Value.array [.number 2] = other := Except.ok.inj there
    exact ⟨trivial, fun _ _ _ _ => trivial⟩

/-- Dicts that differ in order are equal, and their first fields are not. -/
theorem equal_dicts_told_apart :
    ¬ ∀ (regex : Regex) (left right : Value) (path : List Access), left.Distinct → right.Distinct →
      compareValues regex left right .eq = .ok true → Alike (follow left path) (follow right path) := by
  intro alike
  have first := alike (fun _ => .error "") (.dict [("a", .number 1), ("b", .number 2)])
    (.dict [("b", .number 2), ("a", .number 1)]) [.index (.number 0)]
    (by simp [Value.Distinct, Value.FieldsDistinct]) (by simp [Value.Distinct, Value.FieldsDistinct])
    rfl
  have same : (Value.number 1).eq (.number 2) = true := first
  rw [Value.eq] at same
  exact absurd same (by decide)

end Ill
