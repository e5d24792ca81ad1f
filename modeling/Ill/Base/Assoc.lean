import Ill.Base.Except
import Ill.Base.Related
import Mathlib.Data.List.Induction
import Mathlib.Data.List.Nodup

/-!
# Insertion-ordered association lists

An association list read with `List.lookup` and written with `insert`, which
replaces the value of a present key where it stands and appends an absent key
at the end. This is the observable behaviour of an insertion-ordered hash map.
Writing a whole list of pairs keeps every pair exactly if no key repeats, also
where the pairs are computed one after the other and each may fail.
-/

namespace Ill.Base.Assoc

universe u v w

variable {Key : Type u} {Entry : Type v} [DecidableEq Key]

/-- Replace the value of a present key in place, or append a new pair. -/
def insert (key : Key) (value : Entry) : List (Key × Entry) → List (Key × Entry)
  | [] => [(key, value)]
  | (first, held) :: rest =>
    if first = key then (first, value) :: rest else (first, held) :: insert key value rest

/-- Reading the key just written gives the value written. -/
@[simp] theorem lookup_insert_self (key : Key) (value : Entry) (pairs : List (Key × Entry)) :
    (insert key value pairs).lookup key = some value := by
  induction pairs with
  | nil => simp [insert]
  | cons pair rest ih =>
    obtain ⟨first, held⟩ := pair
    by_cases same : first = key
    · simp [insert, same]
    · rw [insert, if_neg same, List.lookup_cons, beq_false_of_ne (Ne.symm same)]
      exact ih

/-- Reading another key is unaffected by a write. -/
theorem lookup_insert_of_ne {key other : Key} (different : other ≠ key) (value : Entry)
    (pairs : List (Key × Entry)) :
    (insert key value pairs).lookup other = pairs.lookup other := by
  induction pairs with
  | nil => simp [insert, List.lookup_cons, beq_false_of_ne different]
  | cons pair rest ih =>
    obtain ⟨first, held⟩ := pair
    by_cases same : first = key
    · subst same
      rw [insert, if_pos rfl, List.lookup_cons, List.lookup_cons, beq_false_of_ne different]
    · rw [insert, if_neg same, List.lookup_cons, List.lookup_cons, ih]

/-! ## Keys -/

/-- An absent key is appended. -/
theorem insert_of_notMem {key : Key} {pairs : List (Key × Entry)}
    (absent : key ∉ pairs.map Prod.fst) (value : Entry) :
    insert key value pairs = pairs ++ [(key, value)] := by
  induction pairs with
  | nil => rfl
  | cons pair rest ih =>
    obtain ⟨first, held⟩ := pair
    obtain ⟨different, later⟩ := List.ne_and_not_mem_of_not_mem_cons absent
    rw [insert, if_neg (Ne.symm different), ih later, List.cons_append]

/-- Writing a present key leaves the keys as they are. -/
theorem keys_insert_of_mem {key : Key} {pairs : List (Key × Entry)}
    (present : key ∈ pairs.map Prod.fst) (value : Entry) :
    (insert key value pairs).map Prod.fst = pairs.map Prod.fst := by
  induction pairs with
  | nil => simp at present
  | cons pair rest ih =>
    obtain ⟨first, held⟩ := pair
    by_cases same : first = key
    · rw [insert, if_pos same, List.map_cons, List.map_cons]
    · have later : key ∈ rest.map Prod.fst := by
        rcases List.mem_cons.mp present with here | later
        · exact absurd here.symm same
        · exact later
      rw [insert, if_neg same, List.map_cons, List.map_cons, ih later]

/-- Writing a pair keeps the keys distinct. -/
theorem nodup_keys_insert {pairs : List (Key × Entry)} (distinct : (pairs.map Prod.fst).Nodup)
    (key : Key) (value : Entry) : ((insert key value pairs).map Prod.fst).Nodup := by
  by_cases present : key ∈ pairs.map Prod.fst
  · rwa [keys_insert_of_mem present]
  · rw [insert_of_notMem present, List.map_append]
    apply List.nodup_append'.mpr
    exact ⟨distinct, List.nodup_singleton key, List.disjoint_singleton.mpr present⟩

/-- Reading an absent key gives nothing. -/
theorem lookup_eq_none_iff_notMem {key : Key} {pairs : List (Key × Entry)} :
    pairs.lookup key = none ↔ key ∉ pairs.map Prod.fst := by
  rw [List.lookup_eq_none_iff, List.mem_map]
  constructor
  · rintro other ⟨pair, inside, rfl⟩
    exact absurd (other pair inside) (by simp)
  · intro absent pair inside
    apply bne_iff_ne.mpr
    rintro rfl
    exact absent ⟨pair, inside, rfl⟩

/-- Where keys are distinct, reading gives the pair that is there. -/
theorem lookup_eq_some_iff_mem {pairs : List (Key × Entry)} (distinct : (pairs.map Prod.fst).Nodup)
    {key : Key} {value : Entry} : pairs.lookup key = some value ↔ (key, value) ∈ pairs := by
  induction pairs with
  | nil => simp
  | cons pair rest ih =>
    obtain ⟨first, held⟩ := pair
    obtain ⟨absent, others⟩ := List.nodup_cons.mp distinct
    by_cases same : key = first
    · subst same
      have elsewhere : (key, value) ∉ rest := by
        intro inside
        exact absent (List.mem_map.mpr ⟨(key, value), inside, rfl⟩)
      simp [elsewhere, eq_comm]
    · rw [List.lookup_cons, beq_false_of_ne same, List.mem_cons]
      simp [ih others, same]

/-! ## Writing a list of pairs -/

/-- The map that writing the pairs in order makes. -/
def ofPairs (pairs : List (Key × Entry)) : List (Key × Entry) :=
  pairs.foldl (fun held pair => insert pair.1 pair.2 held) []

theorem ofPairs_append_singleton (pairs : List (Key × Entry)) (pair : Key × Entry) :
    ofPairs (pairs ++ [pair]) = insert pair.1 pair.2 (ofPairs pairs) := by
  rw [ofPairs, List.foldl_append]
  rfl

/-- Changing the values commutes with writing. -/
theorem insert_map {Other : Type w} (f : Entry → Other) (key : Key) (value : Entry)
    (pairs : List (Key × Entry)) :
    insert key (f value) (pairs.map (Prod.map id f)) =
      (insert key value pairs).map (Prod.map id f) := by
  induction pairs with
  | nil => rfl
  | cons pair rest ih =>
    obtain ⟨first, held⟩ := pair
    by_cases same : first = key
    · simp [insert, same]
    · simp [insert, same, ih]

theorem ofPairs_map {Other : Type w} (f : Entry → Other) (pairs : List (Key × Entry)) :
    ofPairs (pairs.map (Prod.map id f)) = (ofPairs pairs).map (Prod.map id f) := by
  induction pairs using List.reverseRecOn with
  | nil => rfl
  | append_singleton pairs pair ih =>
    rw [List.map_append, List.map_singleton, ofPairs_append_singleton, ofPairs_append_singleton, ih]
    exact insert_map f pair.1 pair.2 (ofPairs pairs)

/-- The keys are the written ones, each where it was written first. -/
theorem keys_ofPairs (pairs : List (Key × Entry)) :
    (ofPairs pairs).map Prod.fst = (pairs.map Prod.fst).eraseDups := by
  induction pairs using List.reverseRecOn with
  | nil => rfl
  | append_singleton pairs pair ih =>
    rw [ofPairs_append_singleton, List.map_append, List.eraseDups_append, ← ih]
    by_cases present : pair.1 ∈ (ofPairs pairs).map Prod.fst
    · have written : pair.1 ∈ pairs.map Prod.fst := by
        rwa [ih, List.mem_eraseDups] at present
      rw [keys_insert_of_mem present]
      have covered : List.removeAll [pair.1] (pairs.map Prod.fst) = [] := by
        rw [List.removeAll, List.filter_eq_nil_iff]
        simpa using List.mem_map.mp written
      rw [List.map_singleton, covered, List.eraseDups_nil, List.append_nil]
    · have unwritten : pair.1 ∉ pairs.map Prod.fst := by
        rwa [ih, List.mem_eraseDups] at present
      rw [insert_of_notMem present, List.map_append]
      simp [List.removeAll, unwritten, List.eraseDups_cons]

/-- Reading a key gives what was written for it last. -/
theorem lookup_ofPairs (pairs : List (Key × Entry)) (key : Key) :
    (ofPairs pairs).lookup key = pairs.reverse.lookup key := by
  induction pairs using List.reverseRecOn with
  | nil => rfl
  | append_singleton pairs pair ih =>
    obtain ⟨first, value⟩ := pair
    rw [ofPairs_append_singleton, List.reverse_append, List.reverse_singleton,
      List.singleton_append]
    by_cases same : key = first
    · subst same
      rw [lookup_insert_self, List.lookup_cons_self]
    · rw [lookup_insert_of_ne same, List.lookup_cons, beq_false_of_ne same]
      exact ih

/-- What is read for a key is the last pair of that key. -/
theorem lookup_ofPairs_eq_some_iff {pairs : List (Key × Entry)} {key : Key} {value : Entry} :
    (ofPairs pairs).lookup key = some value ↔
      ∃ before after, pairs = before ++ (key, value) :: after ∧ ∀ later ∈ after, later.1 ≠ key := by
  rw [lookup_ofPairs, List.lookup_eq_some_iff]
  constructor
  · rintro ⟨after, before, backwards, others⟩
    refine ⟨before.reverse, after.reverse, ?_, ?_⟩
    · have forwards := congrArg List.reverse backwards
      simpa using forwards
    · intro later inside same
      have other := others later (List.mem_reverse.mp inside)
      simp [same] at other
  · rintro ⟨before, after, rfl, others⟩
    refine ⟨after.reverse, before.reverse, by simp, ?_⟩
    intro later inside
    apply bne_iff_ne.mpr
    exact Ne.symm (others later (List.mem_reverse.mp inside))

theorem nodup_keys_ofPairs (pairs : List (Key × Entry)) :
    ((ofPairs pairs).map Prod.fst).Nodup := by
  induction pairs using List.reverseRecOn with
  | nil => exact List.nodup_nil
  | append_singleton pairs pair ih =>
    rw [ofPairs_append_singleton]
    exact nodup_keys_insert ih _ _

/-- Writing keeps all the pairs as they are exactly if their keys are distinct. -/
theorem ofPairs_eq_self_iff {pairs : List (Key × Entry)} :
    ofPairs pairs = pairs ↔ (pairs.map Prod.fst).Nodup := by
  constructor
  · intro same
    have distinct := nodup_keys_ofPairs pairs
    rwa [same] at distinct
  · intro distinct
    induction pairs using List.reverseRecOn with
    | nil => rfl
    | append_singleton pairs pair ih =>
      rw [List.map_append] at distinct
      obtain ⟨others, -, apart⟩ := List.nodup_append'.mp distinct
      have absent : pair.1 ∉ pairs.map Prod.fst := List.disjoint_singleton.mp apart
      rw [ofPairs_append_singleton, ih others, insert_of_notMem absent]

theorem mem_keys_ofPairs {pairs : List (Key × Entry)} {key : Key} :
    key ∈ (ofPairs pairs).map Prod.fst ↔ key ∈ pairs.map Prod.fst := by
  rw [keys_ofPairs, List.mem_eraseDups]

theorem length_insert (key : Key) (value : Entry) (pairs : List (Key × Entry)) :
    (insert key value pairs).length =
      if key ∈ pairs.map Prod.fst then pairs.length else pairs.length + 1 := by
  split
  · next present => simpa using congrArg List.length (keys_insert_of_mem present value)
  · next absent => rw [insert_of_notMem absent, List.length_append, List.length_singleton]

theorem length_ofPairs_le (pairs : List (Key × Entry)) :
    (ofPairs pairs).length ≤ pairs.length := by
  induction pairs using List.reverseRecOn with
  | nil => exact Nat.le_refl 0
  | append_singleton pairs pair ih =>
    rw [ofPairs_append_singleton, length_insert, List.length_append, List.length_singleton]
    split <;> omega

/-- As many pairs are left as were written exactly if no key repeats. -/
theorem length_ofPairs_eq_iff {pairs : List (Key × Entry)} :
    (ofPairs pairs).length = pairs.length ↔ (pairs.map Prod.fst).Nodup := by
  constructor
  · intro same
    induction pairs using List.reverseRecOn with
    | nil => exact List.nodup_nil
    | append_singleton pairs pair ih =>
      have bound := length_ofPairs_le pairs
      rw [ofPairs_append_singleton, length_insert, List.length_append, List.length_singleton] at same
      by_cases present : pair.1 ∈ (ofPairs pairs).map Prod.fst
      · rw [if_pos present] at same
        omega
      · rw [if_neg present] at same
        have absent : pair.1 ∉ pairs.map Prod.fst := by rwa [mem_keys_ofPairs] at present
        rw [List.map_append]
        apply List.nodup_append'.mpr
        exact ⟨ih (by omega), List.nodup_singleton _, List.disjoint_singleton.mpr absent⟩
  · intro distinct
    rw [ofPairs_eq_self_iff.mpr distinct]

/-! ## Pairs of items -/

section Items

variable {Item : Type w} {related : Item → Key × Entry → Prop} {name : Item → Key}

/-- The name of every item can be read. -/
theorem lookup_ofPairs_of_mem (named : ∀ item pair, related item pair → pair.1 = name item)
    {items : List Item} {pairs : List (Key × Entry)} (each : List.Forall₂ related items pairs)
    {item : Item} (inside : item ∈ items) : ∃ value, (ofPairs pairs).lookup (name item) = some value := by
  obtain ⟨before, after, rfl⟩ := List.append_of_mem inside
  obtain ⟨front, pair, rest, rfl, -, same, -⟩ := forall₂_append_cons each.flip
  have present : name item ∈ (ofPairs (front ++ pair :: rest)).map Prod.fst := by
    rw [mem_keys_ofPairs, ← named _ _ same]
    simp
  cases found : (ofPairs (front ++ pair :: rest)).lookup (name item) with
  | none => exact absurd present (lookup_eq_none_iff_notMem.mp found)
  | some value => exact ⟨value, rfl⟩

/-- What is read for a name belongs to the last item of that name. -/
theorem item_of_lookup_ofPairs (named : ∀ item pair, related item pair → pair.1 = name item)
    {items : List Item} {pairs : List (Key × Entry)} (each : List.Forall₂ related items pairs)
    {key : Key} {value : Entry} (found : (ofPairs pairs).lookup key = some value) :
    ∃ before item after, items = before ++ item :: after ∧ name item = key ∧
      (∀ later ∈ after, name later ≠ key) ∧ related item (key, value) := by
  obtain ⟨front, rest, rfl, last⟩ := lookup_ofPairs_eq_some_iff.mp found
  obtain ⟨before, item, after, rfl, -, same, behind⟩ := forall₂_append_cons each
  refine ⟨before, item, after, rfl, (named _ _ same).symm, ?_, same⟩
  intro later inside
  obtain ⟨first, others, rfl⟩ := List.append_of_mem inside
  obtain ⟨middle, pair, ending, rfl, -, paired, -⟩ := forall₂_append_cons behind.flip
  rw [← named _ _ paired]
  exact last pair (by simp)

end Items

/-! ## Writing pairs that are computed -/

section Collect

variable {Item : Type w} {Error : Type*} {entry : Item → Except Error (Key × Entry)}

/-- Compute and write a pair for each item, stopping at the first that fails. -/
def collect (entry : Item → Except Error (Key × Entry)) (held : List (Key × Entry)) :
    List Item → Except Error (List (Key × Entry))
  | [] => .ok held
  | item :: rest => (entry item).bind fun pair => collect entry (insert pair.1 pair.2 held) rest

/-- The pairs of the items are what is written. -/
theorem collect_eq_ok {items : List Item} {held final : List (Key × Entry)} :
    collect entry held items = .ok final ↔
      ∃ pairs, List.Forall₂ (fun item pair => entry item = .ok pair) items pairs ∧
        final = pairs.foldl (fun held pair => insert pair.1 pair.2 held) held := by
  induction items generalizing held with
  | nil =>
    constructor
    · rintro ⟨⟩
      exact ⟨[], .nil, rfl⟩
    · rintro ⟨pairs, ⟨⟩, rfl⟩
      rfl
  | cons item rest ih =>
    rw [collect, bind_eq_ok]
    constructor
    · rintro ⟨pair, here, later⟩
      obtain ⟨pairs, each, rfl⟩ := ih.mp later
      exact ⟨pair :: pairs, .cons here each, rfl⟩
    · rintro ⟨pairs, each, rfl⟩
      obtain ⟨pair, others, here, later, rfl⟩ := List.forall₂_cons_left_iff.mp each
      exact ⟨pair, here, ih.mpr ⟨others, later, rfl⟩⟩

/-- If every item has a pair, the pairs are collected. -/
theorem collect_total {items : List Item} (each : ∀ item ∈ items, ∃ pair, entry item = .ok pair)
    (held : List (Key × Entry)) : ∃ final, collect entry held items = .ok final := by
  obtain ⟨pairs, related⟩ := exists_forall₂ each
  exact ⟨_, collect_eq_ok.mpr ⟨pairs, related, rfl⟩⟩

omit [DecidableEq Key] in
/-- The names of the items, from the keys of their pairs. -/
theorem names_of_pairs {Name : Type*} {name : Item → Name} {naming : Key → Name}
    (named : ∀ item pair, entry item = .ok pair → name item = naming pair.1) {items : List Item}
    {pairs : List (Key × Entry)}
    (each : List.Forall₂ (fun item pair => entry item = .ok pair) items pairs) :
    items.map name = (pairs.map Prod.fst).map naming := by
  induction each with
  | nil => rfl
  | cons here _ ih => rw [List.map_cons, named _ _ here, ih, List.map_cons, List.map_cons]

/-- Every item keeps its pair, in order, exactly if no two items have one name. -/
theorem collect_kept_iff {Name : Type*} {name : Item → Name} {naming : Key → Name}
    (injective : naming.Injective)
    (named : ∀ item pair, entry item = .ok pair → name item = naming pair.1) {items : List Item}
    {final : List (Key × Entry)} (collected : collect entry [] items = .ok final) :
    List.Forall₂ (fun item pair => entry item = .ok pair) items final ↔ (items.map name).Nodup := by
  obtain ⟨pairs, each, same⟩ := collect_eq_ok.mp collected
  constructor
  · intro kept
    rw [names_of_pairs named kept, List.nodup_map_iff injective, same]
    exact nodup_keys_ofPairs pairs
  · intro distinct
    rw [names_of_pairs named each, List.nodup_map_iff injective] at distinct
    have unchanged : final = pairs := same.trans (ofPairs_eq_self_iff.mpr distinct)
    rwa [unchanged]

end Collect

end Ill.Base.Assoc
