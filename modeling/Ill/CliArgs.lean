import Ill.Base.Related
import Ill.Harness.CommandLine
import Ill.Lower.Lower
import Mathlib.Data.List.Sort
import Mathlib.Data.Nat.Digits.Defs
import Mathlib.Data.String.Basic

/-!
# From `--arg` to the members of an `args_actor`

The `--arg KEY=VALUE` items of the command line become a map sorted by key, from
which an `args_actor` is constructed. Whether that succeeds, and what the members
are, is read off the items and the declared variables.
-/

namespace Ill.Main

open Actor Base
open ArgsActor (CliArgs)
open Base.Utf8 (Text)
open Base.Decimal

/-! ## Parsing the items -/

/-- `split_once('=')` -/
def splitOnce (item : String) : Option (String × String) :=
  match item.toList.span (· != '=') with
  | (key, _ :: text) => some (String.ofList key, String.ofList text)
  | (_, []) => none

/-- Insert a pair into a map sorted by key that lacks its key. -/
def insertSorted (pair : String × String) (out : CliArgs) : CliArgs :=
  out.orderedInsert (fun left right => left.1 ≤ right.1) pair

/-- The items into a map, stopping at the first that is malformed or repeats a key. -/
def parseItems (out : CliArgs) : List String → Except String CliArgs
  | [] => .ok out
  | item :: rest =>
    match splitOnce item with
    | none => .error s!"--arg `{item}` must be in the form KEY=VALUE"
    | some (k, v) =>
      let key := String.ofList (Lower.trim k.toList)
      if key = "" then .error s!"--arg `{item}` has an empty key"
      else if (out.lookup key).isSome then .error s!"--arg `{key}` specified more than once"
      else parseItems (insertSorted (key, v) out) rest

def parseCliArgs (raw : List String) : Except String CliArgs := parseItems [] raw

/-! ## What an item says -/

/-- The trimmed text before the first `=`. -/
def keyOf (item : String) : String :=
  String.ofList (Lower.trim (item.toList.takeWhile (· != '=')))

/-- The text after the first `=`, unchanged. -/
def textOf (item : String) : String :=
  String.ofList (item.toList.dropWhile (· != '=')).tail

/-- An item is split exactly if it contains `=`. -/
theorem splitOnce_eq {item : String} :
    splitOnce item =
      if '=' ∈ item.toList then
        some (String.ofList (item.toList.takeWhile (· != '=')), textOf item)
      else none := by
  unfold splitOnce textOf
  rw [List.span_eq_takeWhile_dropWhile]
  by_cases separated : '=' ∈ item.toList
  · rw [if_pos separated]
    cases behind : item.toList.dropWhile (· != '=') with
    | nil =>
      have unequal := List.dropWhile_eq_nil_iff.mp behind '=' separated
      simp at unequal
    | cons sign text => rfl
  · rw [if_neg separated]
    have through : item.toList.dropWhile (· != '=') = [] := by
      apply List.dropWhile_eq_nil_iff.mpr
      intro char inside
      apply bne_iff_ne.mpr
      rintro rfl
      exact separated inside
    rw [through]

/-- The pairs are sorted by key, and no key repeats. -/
structure Sorted (out : CliArgs) : Prop where
  sorted : out.Pairwise fun left right => left.1 ≤ right.1
  distinct : (out.map Prod.fst).Nodup

theorem keys_insertSorted (pair : String × String) (out : CliArgs) :
    ((insertSorted pair out).map Prod.fst).Perm (pair.1 :: out.map Prod.fst) := by
  have inserted := List.perm_orderedInsert (fun left right : String × String => left.1 ≤ right.1)
    pair out
  exact inserted.map Prod.fst

theorem Sorted.insert {out : CliArgs} (held : Sorted out) {pair : String × String}
    (absent : pair.1 ∉ out.map Prod.fst) : Sorted (insertSorted pair out) where
  sorted := by
    have total : Std.Total fun left right : String × String => left.1 ≤ right.1 :=
      ⟨fun left right => le_total left.1 right.1⟩
    have transitive : IsTrans (String × String) fun left right => left.1 ≤ right.1 :=
      ⟨fun _ _ _ => le_trans⟩
    exact held.sorted.orderedInsert pair out
  distinct := by
    rw [(keys_insertSorted pair out).nodup_iff]
    exact List.nodup_cons.mpr ⟨absent, held.distinct⟩

/-- Every item is separated and has a key that is not empty and that no other
item has. -/
structure WellFormed (raw : List String) : Prop where
  separated : ∀ item ∈ raw, '=' ∈ item.toList
  named : ∀ item ∈ raw, keyOf item ≠ ""
  distinct : (raw.map keyOf).Nodup

theorem WellFormed.nil : WellFormed [] := ⟨by simp, by simp, List.nodup_nil⟩

theorem wellFormed_cons {item : String} {rest : List String} :
    WellFormed (item :: rest) ↔
      '=' ∈ item.toList ∧ keyOf item ≠ "" ∧ (∀ other ∈ rest, keyOf other ≠ keyOf item) ∧
        WellFormed rest := by
  constructor
  · rintro ⟨separated, named, distinct⟩
    obtain ⟨here, later⟩ := List.forall_mem_cons.mp separated
    obtain ⟨some_, others⟩ := List.forall_mem_cons.mp named
    rw [List.map_cons, List.nodup_cons, List.mem_map] at distinct
    obtain ⟨fresh, apart⟩ := distinct
    exact ⟨here, some_, fun other inside same => fresh ⟨other, inside, same⟩, later, others, apart⟩
  · rintro ⟨here, some_, fresh, later, others, apart⟩
    refine ⟨List.forall_mem_cons.mpr ⟨here, later⟩, List.forall_mem_cons.mpr ⟨some_, others⟩, ?_⟩
    rw [List.map_cons, List.nodup_cons, List.mem_map]
    refine ⟨?_, apart⟩
    rintro ⟨other, inside, same⟩
    exact fresh other inside same

/-- What parsing does with the first item. -/
theorem parseItems_cons (out : CliArgs) (item : String) (rest : List String) :
    parseItems out (item :: rest) =
      if '=' ∈ item.toList then
        if keyOf item = "" then .error s!"--arg `{item}` has an empty key"
        else if (out.lookup (keyOf item)).isSome then
          .error s!"--arg `{keyOf item}` specified more than once"
        else parseItems (insertSorted (keyOf item, textOf item) out) rest
      else .error s!"--arg `{item}` must be in the form KEY=VALUE" := by
  rw [parseItems, splitOnce_eq]
  by_cases separated : '=' ∈ item.toList
  · rw [if_pos separated, if_pos separated]
    dsimp only
    rw [String.toList_ofList]
    rfl
  · rw [if_neg separated, if_neg separated]

/-- Parsing succeeds exactly on well-formed items whose keys are not taken, and
inserts the pair of each. -/
theorem parseItems_eq_ok {raw : List String} {out cliArgs : CliArgs} :
    parseItems out raw = .ok cliArgs ↔
      WellFormed raw ∧ (∀ item ∈ raw, keyOf item ∉ out.map Prod.fst) ∧
        cliArgs = raw.foldl (fun out item => insertSorted (keyOf item, textOf item) out) out := by
  induction raw generalizing out with
  | nil => simp [parseItems, WellFormed.nil, eq_comm]
  | cons item rest ih =>
    rw [parseItems_cons, wellFormed_cons]
    by_cases separated : '=' ∈ item.toList
    · rw [if_pos separated]
      by_cases empty : keyOf item = ""
      · simp [empty]
      rw [if_neg empty]
      by_cases taken : (out.lookup (keyOf item)).isSome
      · rw [if_pos taken]
        have present : keyOf item ∈ out.map Prod.fst := by
          by_contra absent
          rw [Assoc.lookup_eq_none_iff_notMem.mpr absent] at taken
          simp at taken
        simp only [reduceCtorEq, false_iff, not_and]
        intro _ free
        exact absurd present (free item List.mem_cons_self)
      · rw [if_neg taken, ih]
        have absent : keyOf item ∉ out.map Prod.fst :=
          Assoc.lookup_eq_none_iff_notMem.mp (Option.not_isSome_iff_eq_none.mp taken)
        have free : (∀ other ∈ rest,
              keyOf other ∉ (insertSorted (keyOf item, textOf item) out).map Prod.fst) ↔
            (∀ other ∈ rest, keyOf other ≠ keyOf item) ∧
              ∀ other ∈ rest, keyOf other ∉ out.map Prod.fst := by
          simp only [(keys_insertSorted (keyOf item, textOf item) out).mem_iff, List.mem_cons,
            not_or, ← forall_and]
        rw [free, List.forall_mem_cons, List.foldl_cons]
        constructor
        · rintro ⟨others, ⟨fresh, apart⟩, rfl⟩
          exact ⟨⟨separated, empty, fresh, others⟩, ⟨absent, apart⟩, rfl⟩
        · rintro ⟨⟨-, -, fresh, others⟩, ⟨-, apart⟩, rfl⟩
          exact ⟨others, ⟨fresh, apart⟩, rfl⟩
    · simp [separated]

/-- The inserted pairs are those of the items. -/
theorem foldl_insertSorted_perm (raw : List String) (out : CliArgs) :
    (raw.foldl (fun out item => insertSorted (keyOf item, textOf item) out) out).Perm
      (raw.map (fun item => (keyOf item, textOf item)) ++ out) := by
  induction raw generalizing out with
  | nil => exact .refl out
  | cons item rest ih =>
    rw [List.foldl_cons, List.map_cons, List.cons_append]
    have inserted : (insertSorted (keyOf item, textOf item) out).Perm
        ((keyOf item, textOf item) :: out) := List.perm_orderedInsert _ _ out
    exact (ih _).trans ((inserted.append_left _).trans List.perm_middle)

/-- Parsing keeps the map sorted. -/
theorem parseItems_sorted {raw : List String} {out cliArgs : CliArgs} (held : Sorted out)
    (parsed : parseItems out raw = .ok cliArgs) : Sorted cliArgs := by
  obtain ⟨formed, free, rfl⟩ := parseItems_eq_ok.mp parsed
  clear parsed
  induction raw generalizing out with
  | nil => exact held
  | cons item rest ih =>
    obtain ⟨-, -, fresh, others⟩ := wellFormed_cons.mp formed
    obtain ⟨absent, apart⟩ := List.forall_mem_cons.mp free
    rw [List.foldl_cons]
    refine ih (held.insert absent) others ?_
    intro other inside
    rw [(keys_insertSorted _ out).mem_iff, List.mem_cons, not_or]
    exact ⟨fresh other inside, apart other inside⟩

/-- The map that well-formed items give, and its keys. -/
structure Holds (raw : List String) (cliArgs : CliArgs) : Prop where
  sorted : Sorted cliArgs
  pairs : ∀ key text, cliArgs.lookup key = some text ↔
    ∃ item ∈ raw, keyOf item = key ∧ textOf item = text
  keys : ∀ key, (∃ pair ∈ cliArgs, pair.1 = key) ↔ ∃ item ∈ raw, keyOf item = key

theorem holds_of_parse {raw : List String} {cliArgs : CliArgs}
    (parsed : parseCliArgs raw = .ok cliArgs) : Holds raw cliArgs := by
  have sorted : Sorted cliArgs := parseItems_sorted ⟨.nil, List.nodup_nil⟩ parsed
  obtain ⟨-, -, same⟩ := parseItems_eq_ok.mp parsed
  have written := foldl_insertSorted_perm raw []
  rw [← same, List.append_nil] at written
  refine ⟨sorted, ?_, ?_⟩
  · intro key text
    rw [Assoc.lookup_eq_some_iff_mem sorted.distinct, written.mem_iff]
    simp
  · intro key
    simp [written.mem_iff]

/-- The items are parsed exactly if they are well formed. -/
theorem parseCliArgs_succeeds {raw : List String} :
    (∃ cliArgs, parseCliArgs raw = .ok cliArgs) ↔ WellFormed raw := by
  constructor
  · rintro ⟨cliArgs, parsed⟩
    exact (parseItems_eq_ok.mp parsed).1
  · intro formed
    exact ⟨_, parseItems_eq_ok.mpr ⟨formed, by simp, rfl⟩⟩

/-! ## Reading a text as a value -/

/-- A text is read as a value of the variant of a default. -/
inductive ReadAs (text : String) : Value → Value → Prop where
  | string (default : String) : ReadAs text (.string default) (.string text)
  | number (default : Int) {value : Int} (numeral : Numeral text.toList value)
    (fits : -2 ^ 63 ≤ value ∧ value < 2 ^ 63) : ReadAs text (.number default) (.number value)
  | true (default : Bool) (spelled : text = "true") : ReadAs text (.bool default) (.bool true)
  | false (default : Bool) (spelled : text = "false") : ReadAs text (.bool default) (.bool false)
  | colon (default name : String) (spelled : text.toList = ':' :: name.toList) :
    ReadAs text (.atom default) (.atom name)
  | bare (default : String) (spelled : text.toList.head? ≠ some ':') :
    ReadAs text (.atom default) (.atom text)

/-- Coercion succeeds exactly on the texts that are read as the default's variant. -/
theorem coerceTo_eq_ok {text name : String} {default value : Value} :
    ArgsActor.coerceTo text default name = .ok value ↔ ReadAs text default value := by
  unfold ArgsActor.coerceTo
  cases default with
  | string held =>
    constructor
    · rintro ⟨⟩
      exact .string held
    · rintro ⟨⟩
      rfl
  | number held =>
    constructor
    · intro read
      cases parsed : parseI64 text.toList with
      | none => simp [parsed] at read
      | some number =>
        obtain rfl : Value.number number = value := by simpa [parsed] using read
        obtain ⟨numeral, fits⟩ := parseI64_eq_some.mp parsed
        exact .number held numeral fits
    · rintro ⟨⟩
      next number numeral fits =>
      rw [parseI64_eq_some.mpr ⟨numeral, fits⟩]
  | bool held =>
    by_cases yes : text = "true"
    · simp only [if_pos yes, Except.ok.injEq]
      constructor
      · rintro rfl
        exact .true held yes
      · intro read
        cases read with
        | true => rfl
        | false _ no => exact absurd (yes.symm.trans no) (by decide)
    by_cases no : text = "false"
    · simp only [if_neg yes, if_pos no, Except.ok.injEq]
      constructor
      · rintro rfl
        exact .false held no
      · intro read
        cases read with
        | true _ spelled => exact absurd spelled yes
        | false => rfl
    · simp only [if_neg yes, if_neg no, reduceCtorEq, false_iff]
      intro read
      cases read with
      | true _ spelled => exact yes spelled
      | false _ spelled => exact no spelled
  | atom held =>
    rw [Except.ok.injEq]
    unfold ArgsActor.stripColon
    split
    · next rest colon =>
      constructor
      · rintro rfl
        exact .colon held _ (by rw [colon, String.toList_ofList])
      · intro read
        cases read with
        | colon _ name spelled =>
          rw [colon] at spelled
          rw [(List.cons.inj spelled).2, String.ofList_toList]
        | bare _ spelled => exact absurd (by rw [colon]; rfl) spelled
    · next plain =>
      constructor
      · rintro rfl
        apply ReadAs.bare held
        intro colon
        obtain ⟨rest, same⟩ := List.head?_eq_some_iff.mp colon
        exact plain rest same
      · intro read
        cases read with
        | colon _ name spelled => exact absurd spelled (plain _)
        | bare => rfl
  | float bits => exact iff_of_false (by simp) (by rintro ⟨⟩)
  | bytes held => exact iff_of_false (by simp) (by rintro ⟨⟩)
  | array items => exact iff_of_false (by simp) (by rintro ⟨⟩)
  | dict fields => exact iff_of_false (by simp) (by rintro ⟨⟩)
  | null => exact iff_of_false (by simp) (by rintro ⟨⟩)

/-! ## The members -/

/-- A variable has this value: the text supplied for it, read as the variant of its
default or else as it is, or its default. -/
inductive MemberValue (raw : List String) (var : DeclaredVar) : Value → Prop where
  | read {item : String} {default value : Value} (given : item ∈ raw) (names : keyOf item = var.name)
    (declared : var.default = some default) (spelled : ReadAs (textOf item) default value) :
    MemberValue raw var value
  | raw {item : String} (given : item ∈ raw) (names : keyOf item = var.name)
    (bare : var.default = none) : MemberValue raw var (.string (textOf item))
  | default {value : Value} (absent : ∀ item ∈ raw, keyOf item ≠ var.name)
    (declared : var.default = some value) : MemberValue raw var value

theorem Holds.absent {raw : List String} {cliArgs : CliArgs} (holds : Holds raw cliArgs)
    {key : String} : cliArgs.lookup key = none ↔ ∀ item ∈ raw, keyOf item ≠ key := by
  rw [Option.eq_none_iff_forall_ne_some]
  constructor
  · intro none_ item given names
    exact none_ (textOf item) ((holds.pairs key _).mpr ⟨item, given, names, rfl⟩)
  · intro absent text supplied
    obtain ⟨item, given, names, -⟩ := (holds.pairs key text).mp supplied
    exact absent item given names

/-- The value that construction gives a variable, read off the items. -/
theorem memberValue_eq_ok {raw : List String} {cliArgs : CliArgs} (holds : Holds raw cliArgs)
    {var : DeclaredVar} {value : Value} :
    ArgsActor.memberValue cliArgs var = .ok value ↔ MemberValue raw var value := by
  unfold ArgsActor.memberValue
  constructor
  · intro made
    split at made
    · next text default supplied declared =>
      obtain ⟨item, given, names, rfl⟩ := (holds.pairs _ _).mp supplied
      exact .read given names declared (coerceTo_eq_ok.mp made)
    · next text supplied bare =>
      obtain ⟨item, given, names, rfl⟩ := (holds.pairs _ _).mp supplied
      cases made
      exact .raw given names bare
    · next default absent declared =>
      cases made
      exact .default (holds.absent.mp absent) declared
    · cases made
  · intro holdsValue
    cases holdsValue with
    | @read item default _ given names declared spelled =>
      rw [(holds.pairs var.name _).mpr ⟨item, given, names, rfl⟩, declared]
      exact coerceTo_eq_ok.mpr spelled
    | @raw item given names bare =>
      rw [(holds.pairs var.name _).mpr ⟨item, given, names, rfl⟩, bare]
    | default absent declared => rw [holds.absent.mpr absent, declared]

/-- The items are well formed and name declared variables, supply what has no
default, and can be read as the variants of the defaults. -/
structure Acceptable (raw : List String) (vars : List DeclaredVar) : Prop extends WellFormed raw where
  declared : ∀ item ∈ raw, ∃ var ∈ vars, var.name = keyOf item
  required : ∀ var ∈ vars, var.default = none → ∃ item ∈ raw, keyOf item = var.name
  readable : ∀ var ∈ vars, ∀ default, var.default = some default → ∀ item ∈ raw,
    keyOf item = var.name → ∃ value, ReadAs (textOf item) default value

/-- Every variable has a member, and each member is the value of the last variable
of its name. -/
structure Members (raw : List String) (vars : List DeclaredVar) (members : Dict) : Prop where
  present : ∀ var ∈ vars, ∃ value, members.get var.name = some value
  valued : ∀ name value, members.get name = some value →
    ∃ before var after, vars = before ++ var :: after ∧ var.name = name ∧
      (∀ later ∈ after, later.name ≠ name) ∧ MemberValue raw var value

/-- Every variable has a value exactly if what is required is supplied and what is
supplied can be read. -/
theorem valued_iff {raw : List String} (formed : WellFormed raw) {vars : List DeclaredVar} :
    (∀ var ∈ vars, ∃ value, MemberValue raw var value) ↔
      (∀ var ∈ vars, var.default = none → ∃ item ∈ raw, keyOf item = var.name) ∧
        ∀ var ∈ vars, ∀ default, var.default = some default → ∀ item ∈ raw,
          keyOf item = var.name → ∃ value, ReadAs (textOf item) default value := by
  constructor
  · intro valued
    constructor
    · intro var inside bare
      obtain ⟨value, held⟩ := valued var inside
      cases held with
      | read _ _ declared _ => simp [bare] at declared
      | raw given names _ => exact ⟨_, given, names⟩
      | default _ declared => simp [bare] at declared
    · intro var inside default declared item given names
      obtain ⟨value, held⟩ := valued var inside
      cases held with
      | @read other _ _ present same declaredToo spelled =>
        -- Another item of the same key would repeat it.
        obtain rfl := List.inj_on_of_nodup_map formed.distinct present given (same.trans names.symm)
        obtain rfl := Option.some.inj (declaredToo.symm.trans declared)
        exact ⟨value, spelled⟩
      | raw _ _ bare => simp [bare] at declared
      | default absent _ => exact absurd names (absent item given)
  · rintro ⟨required, readable⟩ var inside
    by_cases supplied : ∃ item ∈ raw, keyOf item = var.name
    · obtain ⟨item, given, names⟩ := supplied
      cases declared : var.default with
      | none => exact ⟨_, .raw given names declared⟩
      | some default =>
        obtain ⟨value, spelled⟩ := readable var inside default declared item given names
        exact ⟨value, .read given names declared spelled⟩
    · cases declared : var.default with
      | none => exact absurd (required var inside declared) supplied
      | some value =>
        refine ⟨value, .default ?_ declared⟩
        intro item given names
        exact supplied ⟨item, given, names⟩

/-- The members that are collected, from the values of the variables. -/
theorem members_of_values {raw : List String} {vars : List DeclaredVar}
    {pairs : List (String × Value)}
    (each : List.Forall₂ (fun var pair => pair.1 = var.name ∧ MemberValue raw var pair.2) vars pairs) :
    Members raw vars (Assoc.ofPairs pairs) where
  present _ inside := Assoc.lookup_ofPairs_of_mem (fun _ _ held => held.1) each inside
  valued name value found := by
    obtain ⟨before, var, after, split, names, last, -, held⟩ :=
      Assoc.item_of_lookup_ofPairs (fun _ _ held => held.1) each found
    exact ⟨before, var, after, split, names, last, held⟩

/-- The items construct an actor exactly if they are acceptable. The members then are
the texts after the first `=`, read as the variants of the defaults or as they are,
and the defaults of the variables that are not supplied. -/
theorem args_pipeline (raw : List String) (args : ConstructArgs) :
    ((∃ cliArgs inst, parseCliArgs raw = .ok cliArgs ∧ ArgsActor.construct cliArgs args = .ok inst) ↔
      Acceptable raw args.vars) ∧
    ∀ cliArgs inst, parseCliArgs raw = .ok cliArgs → ArgsActor.construct cliArgs args = .ok inst →
      Members raw args.vars inst.members := by
  refine ⟨⟨?_, ?_⟩, ?_⟩
  · rintro ⟨cliArgs, inst, parsed, built⟩
    have formed := parseCliArgs_succeeds.mp ⟨cliArgs, parsed⟩
    have holds := holds_of_parse parsed
    obtain ⟨declared, collected⟩ := Harness.construct_eq_ok.mp built
    obtain ⟨pairs, each, -⟩ := ArgsActor.collectMembers_eq_ok.mp collected
    have valued : ∀ var ∈ args.vars, ∃ value, MemberValue raw var value := by
      intro var inside
      obtain ⟨before, after, split⟩ := List.append_of_mem inside
      rw [split] at each
      obtain ⟨front, pair, rest, rfl, -, ⟨-, made⟩, -⟩ := forall₂_append_cons each.flip
      exact ⟨pair.2, (memberValue_eq_ok holds).mp made⟩
    obtain ⟨required, readable⟩ := (valued_iff formed).mp valued
    refine ⟨formed, ?_, required, readable⟩
    intro item given
    obtain ⟨pair, inside, names⟩ := (holds.keys (keyOf item)).mpr ⟨item, given, rfl⟩
    obtain ⟨var, member, same⟩ := declared pair inside
    exact ⟨var, member, same.trans names⟩
  · intro acceptable
    obtain ⟨cliArgs, parsed⟩ := parseCliArgs_succeeds.mpr acceptable.toWellFormed
    have holds := holds_of_parse parsed
    have valued := (valued_iff acceptable.toWellFormed).mpr ⟨acceptable.required, acceptable.readable⟩
    obtain ⟨members, collected⟩ := ArgsActor.collectMembers_total fun var inside => by
      obtain ⟨value, held⟩ := valued var inside
      exact ⟨value, (memberValue_eq_ok holds).mpr held⟩
    refine ⟨cliArgs, ⟨members⟩, parsed, Harness.construct_eq_ok.mpr ⟨?_, collected⟩⟩
    intro pair inside
    obtain ⟨item, given, names⟩ := (holds.keys pair.1).mp ⟨pair, inside, rfl⟩
    obtain ⟨var, member, same⟩ := acceptable.declared item given
    exact ⟨var, member, same.trans names⟩
  · intro cliArgs inst parsed built
    have holds := holds_of_parse parsed
    obtain ⟨-, collected⟩ := Harness.construct_eq_ok.mp built
    obtain ⟨pairs, each, same⟩ := ArgsActor.collectMembers_eq_ok.mp collected
    rw [same]
    apply members_of_values
    refine each.imp ?_
    rintro var pair ⟨names, made⟩
    exact ⟨names, (memberValue_eq_ok holds).mp made⟩

/-- `--arg " least =-9223372036854775808" --arg query=a=b` for two variables with defaults. -/
theorem args_pipeline_trimmed :
    Members [" least =-9223372036854775808", "query=a=b"]
      [⟨"least", some (.number 0)⟩, ⟨"query", some (.string "")⟩]
      [("least", .number (-9223372036854775808)), ("query", .string "a=b")] := by
  have parsed : parseCliArgs [" least =-9223372036854775808", "query=a=b"] =
      .ok [("least", "-9223372036854775808"), ("query", "a=b")] := by rfl
  exact (args_pipeline _ ⟨[], ".", [⟨"least", some (.number 0)⟩, ⟨"query", some (.string "")⟩]⟩).2 _
    ⟨[("least", .number (-9223372036854775808)), ("query", .string "a=b")]⟩ parsed rfl

end Ill.Main
