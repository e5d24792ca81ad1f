import Ill.Base.Except
import Ill.Runtime.Eval

/-!
# Interpolating what was captured

A name that holds what `~b` made of some fragments stands for those fragments
in any template. Evaluation looks a name up only where the expression mentions
it, and the bytes of a text render to that text again.
-/

namespace Ill.Ast

/-! ## The names an expression looks up -/

mutual

/-- The identifiers that evaluating an expression looks up in the scope. -/
def Expr.scopeNames : Expr → List String
  | .ident ident => [ident.name]
  | .squiggle _ fragments _ => fragmentScopeNames fragments
  | .stringLit fragments _ => fragmentScopeNames fragments
  | .array items => itemScopeNames items
  | .memberAccess object _ _ => object.scopeNames
  | .index object indices _ => object.scopeNames ++ itemScopeNames indices
  | .number _ | .bool _ | .null | .atom _ => []

def itemScopeNames : List Expr → List String
  | [] => []
  | item :: rest => item.scopeNames ++ itemScopeNames rest

def fragmentScopeNames : List StringFragment → List String
  | [] => []
  | .text _ :: rest => fragmentScopeNames rest
  | .interpolation expr :: rest => expr.scopeNames ++ fragmentScopeNames rest

end

end Ill.Ast

namespace Ill

open Ast Base

/-! ## Agreement -/

/-- Two scopes give these names the same values. -/
abbrev Scope.AgreeOn (left right : Scope) (names : List String) : Prop :=
  ∀ name ∈ names, left.get name = right.get name

theorem Scope.agreeOn_append {left right : Scope} {first others : List String} :
    left.AgreeOn right (first ++ others) ↔ left.AgreeOn right first ∧ left.AgreeOn right others :=
  List.forall_mem_append

/-- A new binding is not seen by names other than its own. -/
theorem Scope.agreeOn_bind {scope : Scope} {name : String} {value : Value} {names : List String}
    (fresh : name ∉ names) : (scope.bind name value).AgreeOn scope names := by
  intro other inside
  rw [Scope.get_bind, if_neg]
  rintro rfl
  exact fresh inside

mutual

/-- Scopes that agree on what an expression looks up evaluate it alike. -/
theorem eval_congr {left right : Scope} : ∀ expr, left.AgreeOn right expr.scopeNames →
    eval left expr = eval right expr
  | .number _, _ | .bool _, _ | .null, _ | .atom _, _ => rfl
  | .ident ident, agree => by
    rw [eval, eval, agree ident.name List.mem_cons_self]
  | .stringLit fragments _, agree => by
    rw [eval, eval, concatFragments_congr fragments agree]
  | .memberAccess object _ _, agree => by
    rw [eval, eval, eval_congr object agree]
  | .array items, agree => by
    rw [eval, eval, evalItems_congr items agree]
  | .squiggle name fragments _, agree => by
    rw [eval, eval, concatFragments_congr fragments agree]
  | .index object indices _, agree => by
    obtain ⟨root, keys⟩ := Scope.agreeOn_append.mp agree
    rw [eval, eval, eval_congr object root]
    exact bind_congr fun value => evalIndices_congr value indices keys

theorem evalItems_congr {left right : Scope} : ∀ items, left.AgreeOn right (itemScopeNames items) →
    evalItems left items = evalItems right items
  | [], _ => rfl
  | item :: rest, agree => by
    obtain ⟨first, others⟩ := Scope.agreeOn_append.mp agree
    rw [evalItems, evalItems, eval_congr item first, evalItems_congr rest others]

theorem evalIndices_congr {left right : Scope} (current : Value) : ∀ indices,
    left.AgreeOn right (itemScopeNames indices) →
      evalIndices left current indices = evalIndices right current indices
  | [], _ => rfl
  | index :: rest, agree => by
    obtain ⟨first, others⟩ := Scope.agreeOn_append.mp agree
    rw [evalIndices, evalIndices, eval_congr index first]
    exact bind_congr fun key => bind_congr fun next => evalIndices_congr next rest others

theorem concatFragments_congr {left right : Scope} : ∀ fragments,
    left.AgreeOn right (fragmentScopeNames fragments) →
      concatFragments left fragments = concatFragments right fragments
  | [], _ => rfl
  | .text _ :: rest, agree => by
    rw [concatFragments, concatFragments, concatFragments_congr rest agree]
  | .interpolation expr :: rest, agree => by
    obtain ⟨first, others⟩ := Scope.agreeOn_append.mp agree
    rw [concatFragments, concatFragments, eval_congr expr first, concatFragments_congr rest others]

end

/-! ## Rendering one template after another -/

/-- A template renders part by part, up to the first part that fails. -/
theorem concatFragments_append (scope : Scope) (first second : List StringFragment) :
    concatFragments scope (first ++ second) = do
      let head ← concatFragments scope first
      let tail ← concatFragments scope second
      return head ++ tail := by
  induction first with
  | nil =>
    have empty : concatFragments scope [] = pure "" := rfl
    rw [List.nil_append, empty, pure_bind]
    simp
  | cons fragment rest ih =>
    cases fragment with
    | text text =>
      rw [List.cons_append, concatFragments, concatFragments, ih]
      simp only [bind_assoc, pure_bind, String.append_assoc]
    | interpolation expr =>
      rw [List.cons_append, concatFragments, concatFragments, ih]
      simp only [bind_assoc, pure_bind, String.append_assoc]

/-! ## Texts and their bytes -/

/-- Whether bytes are the UTF-8 encoding of a text. -/
abbrev IsUtf8 (bytes : List UInt8) : Prop := ByteArray.IsValidUTF8 ⟨bytes.toArray⟩

/-- The bytes of a text are interpolated as the text. -/
theorem renderInterpolation_bytes_of_text (text : String) :
    renderInterpolation (.bytes text.toUTF8.data.toList) = .ok text := by
  have whole : (⟨text.toUTF8.data.toList.toArray⟩ : ByteArray) = text.toUTF8 := by simp
  have decoded : String.fromUTF8? text.toUTF8 = some text := by
    have valid : text.toUTF8.IsValidUTF8 := text.isValidUTF8
    rw [String.fromUTF8?, dif_pos valid]
    rfl
  rw [renderInterpolation, whole, decoded]

/-- Bytes render to a text exactly if they encode it. -/
theorem renderInterpolation_bytes {bytes : List UInt8} {text : String} :
    renderInterpolation (.bytes bytes) = .ok text ↔ text.toUTF8.data.toList = bytes := by
  constructor
  · intro rendered
    unfold renderInterpolation at rendered
    dsimp only at rendered
    split at rendered
    · next decoded found =>
      obtain rfl := Except.ok.inj rendered
      rw [String.fromUTF8?] at found
      split at found
      · obtain rfl := Option.some.inj found
        rfl
      · exact nomatch found
    · exact nomatch rendered
  · rintro rfl
    exact renderInterpolation_bytes_of_text text

/-- Bytes render to a text exactly if they are UTF-8. -/
theorem exists_renderInterpolation_bytes {bytes : List UInt8} :
    (∃ text, renderInterpolation (.bytes bytes) = .ok text) ↔ IsUtf8 bytes := by
  constructor
  · rintro ⟨text, rendered⟩
    obtain rfl := renderInterpolation_bytes.mp rendered
    have whole : (⟨text.toUTF8.data.toList.toArray⟩ : ByteArray) = text.toUTF8 := by simp
    rw [IsUtf8, whole]
    exact text.isValidUTF8
  · intro valid
    apply Exists.intro (String.fromUTF8 ⟨bytes.toArray⟩ valid)
    apply renderInterpolation_bytes.mpr
    rfl

/-! ## Captures -/

/-- ``~b`…` `` around some fragments. -/
def bytesSquiggle (tag span : Span) (fragments : List StringFragment) : Expr :=
  .squiggle ⟨"b", tag⟩ fragments span

/-- `${name}`. -/
def hole (ident : Ident) : StringFragment := .interpolation (.ident ident)

/-- `~b` makes the bytes of the rendered text. -/
theorem eval_bytesSquiggle (scope : Scope) (tag span : Span) (fragments : List StringFragment) :
    eval scope (bytesSquiggle tag span fragments) =
      (concatFragments scope fragments).map fun text => .bytes text.toUTF8.data.toList := by
  have known : Squiggle.lookup (⟨"b", tag⟩ : Ident).name = some .bytes := rfl
  cases rendered : concatFragments scope fragments with
  | error failure =>
    rw [bytesSquiggle, eval, known, rendered]
    rfl
  | ok text => exact eval_squiggle known rendered

/-- A hole renders to what the value of its name contributes. -/
theorem concatFragments_hole {scope : Scope} {ident : Ident} {value : Value}
    (held : scope.get ident.name = some value) :
    concatFragments scope [hole ident] = renderInterpolation value := by
  have empty : concatFragments scope [] = pure "" := rfl
  have found : eval scope (.ident ident) = pure value := by
    rw [eval]
    simp only [held]
    rfl
  rw [hole, concatFragments, found, empty]
  simp only [pure_bind, String.append_empty, bind_pure]

/-- What `~b` made of some fragments renders to what the fragments render to. -/
theorem concatFragments_captured {scope : Scope} {ident : Ident} {tag span : Span} {value : Value}
    {mid : List StringFragment} (captured : eval scope (bytesSquiggle tag span mid) = .ok value) :
    concatFragments (scope.bind ident.name value) [hole ident] = concatFragments scope mid := by
  rw [eval_bytesSquiggle] at captured
  obtain ⟨text, rendered, rfl⟩ := map_eq_ok.mp captured
  rw [concatFragments_hole (by rw [Scope.get_bind, if_pos rfl]),
    renderInterpolation_bytes_of_text, rendered]

/-- A capture can stand in a template for the fragments it was made of. What
`~b` makes of bytes that a name holds is those bytes, if they are UTF-8, and
otherwise nothing. -/
theorem captures_transparent :
    (∀ (pre mid post : List StringFragment) (scope : Scope) (ident : Ident) (tag span : Span)
      (value : Value), ident.name ∉ fragmentScopeNames pre → ident.name ∉ fragmentScopeNames post →
        eval scope (bytesSquiggle tag span mid) = .ok value →
          concatFragments (scope.bind ident.name value) (pre ++ [hole ident] ++ post) =
            concatFragments scope (pre ++ mid ++ post)) ∧
      ∀ (scope : Scope) (ident : Ident) (tag span : Span) (bytes : List UInt8),
        let made := eval (scope.bind ident.name (.bytes bytes)) (bytesSquiggle tag span [hole ident])
        ((∃ value, made = .ok value) ↔ IsUtf8 bytes) ∧
          (IsUtf8 bytes → made = .ok (.bytes bytes)) := by
  constructor
  · intro pre mid post scope ident tag span value freshPre freshPost captured
    have before := concatFragments_congr pre
      (Scope.agreeOn_bind freshPre : (scope.bind ident.name value).AgreeOn scope _)
    have after := concatFragments_congr post
      (Scope.agreeOn_bind freshPost : (scope.bind ident.name value).AgreeOn scope _)
    simp only [concatFragments_append, before, after, concatFragments_captured captured]
  · intro scope ident tag span bytes made
    have rendered : made =
        (renderInterpolation (.bytes bytes)).map fun text => .bytes text.toUTF8.data.toList := by
      change eval _ _ = _
      rw [eval_bytesSquiggle, concatFragments_hole (by rw [Scope.get_bind, if_pos rfl])]
    rw [rendered, ← exists_renderInterpolation_bytes]
    constructor
    · constructor
      · rintro ⟨value, capture⟩
        obtain ⟨text, same, -⟩ := map_eq_ok.mp capture
        exact ⟨text, same⟩
      · rintro ⟨text, same⟩
        exact ⟨_, map_eq_ok.mpr ⟨text, same, rfl⟩⟩
    · rintro ⟨text, same⟩
      rw [same, ← renderInterpolation_bytes.mp same]
      rfl

end Ill
