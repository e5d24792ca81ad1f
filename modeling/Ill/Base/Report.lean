import Mathlib.Data.List.Forall2

/-!
# Computations that report on the way

A pass that collects problems instead of stopping at the first one returns a
value and the reports it pushed, in order. It can also panic. `Sat` is its
partial-correctness judgement: what holds of every report and of the value.
`Exactly` also tells which reports there are. `Quietly` is total: the computation
returns such a value and reports nothing. `Carries` compares two computations:
the one does what the other does, in another form.
-/

namespace Ill.Base

universe u v w

/-- The end of a computation that reports on the way. -/
inductive Reporting (Report : Type u) (α : Type v) where
  | panicked
  | returned (value : α) (reports : List Report)
deriving DecidableEq, Repr

namespace Reporting

variable {Report : Type u} {α : Type v} {β : Type v}

/-- A computation after others that pushed `earlier`. -/
def after (earlier : List Report) : Reporting Report α → Reporting Report α
  | .panicked => .panicked
  | .returned value reports => .returned value (earlier ++ reports)

def bind (first : Reporting Report α) (rest : α → Reporting Report β) : Reporting Report β :=
  match first with
  | .panicked => .panicked
  | .returned value reports => (rest value).after reports

instance : Monad (Reporting Report) where
  pure value := .returned value []
  bind := bind

@[simp] theorem after_nil (computation : Reporting Report α) : computation.after [] = computation := by
  cases computation <;> rfl

@[simp] theorem pure_bind (value : α) (rest : α → Reporting Report β) :
    (pure value : Reporting Report α) >>= rest = rest value :=
  after_nil (rest value)

/-- Push one report. -/
def report (item : Report) : Reporting Report PUnit := .returned ⟨⟩ [item]

/-- Go through the items in order and keep the values of those that have one. -/
def each {Item : Type w} (step : Item → Reporting Report (Option β)) :
    List Item → Reporting Report (List β)
  | [] => pure []
  | item :: rest => do
    let value ← step item
    let values ← each step rest
    return value.toList ++ values

/-- Every report and the value, if there is one, are as required. -/
def Sat (reported : Report → Prop) (returns : α → Prop) : Reporting Report α → Prop
  | .panicked => True
  | .returned value reports => returns value ∧ ∀ item ∈ reports, reported item

variable {reported : Report → Prop}

theorem Sat.panicked {returns : α → Prop} :
    (Reporting.panicked : Reporting Report α).Sat reported returns := trivial

theorem Sat.pure {returns : α → Prop} {value : α} (holds : returns value) :
    (Pure.pure value : Reporting Report α).Sat reported returns :=
  ⟨holds, by simp⟩

theorem Sat.report {item : Report} (holds : reported item) {returns : PUnit → Prop}
    (unit : returns ⟨⟩) : (report item).Sat reported returns :=
  ⟨unit, by simpa using holds⟩

theorem Sat.mono {returns weaker : α → Prop} {other : Report → Prop}
    {computation : Reporting Report α} (holds : computation.Sat reported returns)
    (reports : ∀ item, reported item → other item) (values : ∀ value, returns value → weaker value) :
    computation.Sat other weaker := by
  cases computation with
  | panicked => trivial
  | returned value items =>
    exact ⟨values value holds.1, fun item inside => reports item (holds.2 item inside)⟩

theorem Sat.after {returns : α → Prop} {earlier : List Report} {computation : Reporting Report α}
    (before : ∀ item ∈ earlier, reported item) (holds : computation.Sat reported returns) :
    (computation.after earlier).Sat reported returns := by
  cases computation with
  | panicked => trivial
  | returned value reports =>
    refine ⟨holds.1, fun item inside => ?_⟩
    exact (List.mem_append.mp inside).elim (before item) (holds.2 item)

/-- The rest of a computation may rely on what its first part returns. -/
theorem Sat.bind {returns : α → Prop} {finally_ : β → Prop} {first : Reporting Report α}
    {rest : α → Reporting Report β} (begins : first.Sat reported returns)
    (continues : ∀ value, returns value → (rest value).Sat reported finally_) :
    (first >>= rest).Sat reported finally_ := by
  cases first with
  | panicked => trivial
  | returned value reports => exact .after begins.2 (continues value begins.1)

/-- A loop keeps values that are each as required. -/
theorem Sat.each {Item : Type w} {returns : β → Prop} {step : Item → Reporting Report (Option β)}
    {items : List Item}
    (steps : ∀ item ∈ items, (step item).Sat reported fun value => ∀ kept ∈ value, returns kept) :
    (each step items).Sat reported fun values => ∀ kept ∈ values, returns kept := by
  induction items with
  | nil => exact .pure (by simp)
  | cons item rest ih =>
    refine .bind (steps item (by simp)) fun value first => ?_
    have others := ih fun item inside => steps item (List.mem_cons_of_mem _ inside)
    refine .bind others fun values later => .pure fun kept inside => ?_
    rcases List.mem_append.mp inside with here | there
    · exact first kept (Option.mem_toList.mp here)
    · exact later kept there

/-- The computation returns a value as required and reports nothing. -/
def Quietly (returns : α → Prop) (computation : Reporting Report α) : Prop :=
  ∃ value, computation = .returned value [] ∧ returns value

theorem Quietly.pure {returns : α → Prop} {value : α} (holds : returns value) :
    (Pure.pure value : Reporting Report α).Quietly returns :=
  ⟨value, rfl, holds⟩

theorem Quietly.mono {returns weaker : α → Prop} {computation : Reporting Report α}
    (quietly : computation.Quietly returns) (values : ∀ value, returns value → weaker value) :
    computation.Quietly weaker := by
  obtain ⟨value, returned, holds⟩ := quietly
  exact ⟨value, returned, values value holds⟩

theorem Quietly.bind {returns : α → Prop} {finally_ : β → Prop} {first : Reporting Report α}
    {rest : α → Reporting Report β} (begins : first.Quietly returns)
    (continues : ∀ value, returns value → (rest value).Quietly finally_) :
    (first >>= rest).Quietly finally_ := by
  obtain ⟨value, rfl, holds⟩ := begins
  obtain ⟨final, returned, required⟩ := continues value holds
  refine ⟨final, ?_, required⟩
  rw [← returned]
  exact after_nil (rest value)

/-- `Quietly`, for a computation that may have no value: it has one. -/
def Gives (returns : α → Prop) (computation : Reporting Report (Option α)) : Prop :=
  computation.Quietly fun value => ∃ kept, value = some kept ∧ returns kept

theorem Gives.pure {returns : α → Prop} {value : α} (holds : returns value) :
    (Pure.pure (some value) : Reporting Report (Option α)).Gives returns :=
  Quietly.pure ⟨value, rfl, holds⟩

theorem Gives.mono {returns weaker : α → Prop} {computation : Reporting Report (Option α)}
    (gives : computation.Gives returns) (values : ∀ value, returns value → weaker value) :
    computation.Gives weaker :=
  Quietly.mono gives fun _ ⟨kept, same, holds⟩ => ⟨kept, same, values kept holds⟩

/-- A step that would stop if its first part had no value. -/
theorem Quietly.bindSome {returns : α → Prop} {finally_ : β → Prop}
    {first : Reporting Report (Option α)} {rest : Option α → Reporting Report β}
    (begins : first.Gives returns)
    (continues : ∀ kept, returns kept → (rest (some kept)).Quietly finally_) :
    (first >>= rest).Quietly finally_ := by
  refine Quietly.bind begins fun value ⟨kept, same, holds⟩ => ?_
  rw [same]
  exact continues kept holds

theorem Gives.bind {returns : α → Prop} {finally_ : β → Prop}
    {first : Reporting Report (Option α)} {rest : Option α → Reporting Report (Option β)}
    (begins : first.Gives returns)
    (continues : ∀ kept, returns kept → (rest (some kept)).Gives finally_) :
    (first >>= rest).Gives finally_ :=
  Quietly.bindSome begins continues

theorem Gives.bindQuietly {returns : α → Prop} {finally_ : β → Prop} {first : Reporting Report α}
    {rest : α → Reporting Report (Option β)} (begins : first.Quietly returns)
    (continues : ∀ value, returns value → (rest value).Gives finally_) :
    (first >>= rest).Gives finally_ :=
  Quietly.bind begins continues

/-- A loop keeps one value for each item that its step keeps, in order. -/
theorem Quietly.each {Item : Type w} {keep : Item → Bool} {relation : Item → β → Prop}
    {step : Item → Reporting Report (Option β)} {items : List Item}
    (kept : ∀ item ∈ items, keep item = true → (step item).Gives (relation item))
    (dropped : ∀ item ∈ items, keep item = false → (step item).Quietly (· = none)) :
    (each step items).Quietly (List.Forall₂ relation (items.filter keep)) := by
  induction items with
  | nil => exact .pure .nil
  | cons item rest ih =>
    have others := ih (fun other inside => kept other (List.mem_cons_of_mem _ inside))
      fun other inside => dropped other (List.mem_cons_of_mem _ inside)
    cases keeps : keep item with
    | true =>
      refine .bind (kept item List.mem_cons_self keeps) fun value first => ?_
      refine .bind others fun values later => .pure ?_
      obtain ⟨value, rfl, related⟩ := first
      rw [List.filter_cons_of_pos keeps]
      exact .cons related later
    | false =>
      refine .bind (dropped item List.mem_cons_self keeps) fun value first => ?_
      refine .bind others fun values later => .pure ?_
      rw [first, List.filter_cons_of_neg (by simp [keeps])]
      exact later

theorem Quietly.each_all {Item : Type w} {relation : Item → β → Prop}
    {step : Item → Reporting Report (Option β)} {items : List Item}
    (steps : ∀ item ∈ items, (step item).Gives (relation item)) :
    (Reporting.each step items).Quietly (List.Forall₂ relation items) := by
  have all : items.filter (fun _ => true) = items := List.filter_eq_self.mpr fun _ _ => rfl
  have kept := @Quietly.each _ _ _ (fun _ => true) relation step items
    (fun item inside _ => steps item inside) fun _ _ dropped => nomatch dropped
  rwa [all] at kept

/-- A loop over the values of an earlier one keeps a value for each of them. -/
theorem Quietly.each_related {Source : Type v} {Item : Type w} {earlier : Source → Item → Prop}
    {relation : Source → β → Prop} {step : Item → Reporting Report (Option β)}
    {sources : List Source} {items : List Item} (related : List.Forall₂ earlier sources items)
    (steps : ∀ source ∈ sources, ∀ item, earlier source item → (step item).Gives (relation source)) :
    (Reporting.each step items).Quietly (List.Forall₂ relation sources) := by
  induction related with
  | nil => exact .pure .nil
  | @cons source item sources items here later ih =>
    refine .bind (steps source List.mem_cons_self item here) fun value first => ?_
    refine .bind (ih fun other inside => steps other (List.mem_cons_of_mem _ inside))
      fun values others => .pure ?_
    obtain ⟨value, rfl, holds⟩ := first
    exact .cons holds others

/-- A sequence is silent exactly when both of its halves are. -/
theorem bind_eq_quiet {first : Reporting Report α} {rest : α → Reporting Report β} {value : β} :
    first >>= rest = .returned value [] ↔
      ∃ middle, first = .returned middle [] ∧ rest middle = .returned value [] := by
  change Reporting.bind first rest = _ ↔ _
  cases first with
  | panicked => simp [Reporting.bind]
  | returned middle reports =>
    rw [Reporting.bind]
    cases continued : rest middle with
    | panicked => simp [after, continued]
    | returned final later => simp [after, continued, and_left_comm]

/-- A loop is silent exactly when its first step and the rest of it are. -/
theorem each_cons_eq_quiet {Item : Type w} {step : Item → Reporting Report (Option β)} {item : Item}
    {rest : List Item} {values : List β} :
    each step (item :: rest) = .returned values [] ↔
      ∃ value others, step item = .returned value [] ∧ each step rest = .returned others [] ∧
        values = value.toList ++ others := by
  rw [each, bind_eq_quiet]
  constructor
  · rintro ⟨value, first, later⟩
    obtain ⟨others, second, same⟩ := bind_eq_quiet.mp later
    obtain ⟨rfl, -⟩ := Reporting.returned.inj same
    exact ⟨value, others, first, second, rfl⟩
  · rintro ⟨value, others, first, second, rfl⟩
    exact ⟨value, first, bind_eq_quiet.mpr ⟨others, second, rfl⟩⟩

theorem each_map {Item Source : Type w} (step : Item → Reporting Report (Option β))
    (view : Source → Item) (items : List Source) :
    each step (items.map view) = each (fun item => step (view item)) items := by
  induction items with
  | nil => rfl
  | cons item rest ih => rw [List.map_cons, each, each, ih]

theorem bind_assoc {γ : Type v} (first : Reporting Report α) (middle : α → Reporting Report β)
    (last : β → Reporting Report γ) :
    first >>= middle >>= last = first >>= fun value => middle value >>= last := by
  cases first with
  | panicked => rfl
  | returned value reports =>
    change ((middle value).after reports >>= last) = (middle value >>= last).after reports
    cases middle value with
    | panicked => rfl
    | returned next more =>
      change (last next).after (reports ++ more) = ((last next).after more).after reports
      cases last next with
      | panicked => rfl
      | returned final others => rw [after, after, after, List.append_assoc]

theorem each_append {Item : Type w} (step : Item → Reporting Report (Option β))
    (before behind : List Item) :
    each step (before ++ behind) = (do
      let values ← each step before
      let others ← each step behind
      return values ++ others) := by
  have whole : ∀ loop : Reporting Report (List β), (loop >>= fun values => pure values) = loop := by
    intro loop
    cases loop with
    | panicked => rfl
    | returned values reports =>
      change Reporting.returned values (reports ++ []) = _
      rw [List.append_nil]
  induction before with
  | nil =>
    rw [List.nil_append, each, pure_bind]
    exact (whole _).symm
  | cons item rest ih =>
    rw [List.cons_append, each, each, ih, bind_assoc]
    refine congrArg _ (funext fun value => ?_)
    rw [bind_assoc, bind_assoc]
    refine congrArg _ (funext fun values => ?_)
    rw [bind_assoc, pure_bind]
    refine congrArg _ (funext fun others => ?_)
    rw [pure_bind, List.append_assoc]

/-- A loop whose step does not look at the membership proofs. -/
theorem each_attach {Item : Type w} (step : Item → Reporting Report (Option β)) (items : List Item) :
    each (fun item => step item.1) items.attach = each step items := by
  rw [← each_map step Subtype.val, List.attach_map_subtype_val]

/-- The computation does not panic. -/
def Returns (computation : Reporting Report α) : Prop := computation ≠ .panicked

theorem Returns.pure (value : α) : (Pure.pure value : Reporting Report α).Returns := nofun

theorem Returns.report (item : Report) : (Reporting.report item).Returns := nofun

theorem Returns.after {computation : Reporting Report α} (returns : computation.Returns)
    (earlier : List Report) : (computation.after earlier).Returns := by
  cases computation with
  | panicked => exact absurd rfl returns
  | returned value reports => nofun

theorem Returns.bind {first : Reporting Report α} {rest : α → Reporting Report β}
    (begins : first.Returns) (continues : ∀ value, (rest value).Returns) :
    (first >>= rest).Returns := by
  cases first with
  | panicked => exact absurd rfl begins
  | returned value reports => exact (continues value).after reports

/-- A step that stops without a value if its first part has none. -/
theorem Returns.bindSome {first : Reporting Report (Option α)}
    {rest : Option α → Reporting Report β} (begins : first.Returns)
    (stops : (rest none).Returns) (continues : ∀ value, (rest (some value)).Returns) :
    (first >>= rest).Returns := by
  refine .bind begins fun value => ?_
  cases value with
  | none => exact stops
  | some value => exact continues value

theorem Returns.each {Item : Type w} {step : Item → Reporting Report (Option β)} {items : List Item}
    (steps : ∀ item ∈ items, (step item).Returns) : (each step items).Returns := by
  induction items with
  | nil => exact .pure []
  | cons item rest ih =>
    refine .bind (steps item List.mem_cons_self) fun value => ?_
    have others := ih fun item inside => steps item (List.mem_cons_of_mem _ inside)
    exact .bind others fun values => .pure _

section

variable {View : Type w}

/-- Seen through `view`, the reports are those that are `made` and no others, and
the value is as required. -/
def Exactly (view : Report → View) (made : View → Prop) (returns : α → Prop) :
    Reporting Report α → Prop
  | .panicked => True
  | .returned value reports => returns value ∧ ∀ seen, seen ∈ reports.map view ↔ made seen

variable {view : Report → View}

theorem Exactly.panicked {made : View → Prop} {returns : α → Prop} :
    (Reporting.panicked : Reporting Report α).Exactly view made returns := trivial

theorem Exactly.pure {returns : α → Prop} {value : α} (holds : returns value) :
    (Pure.pure value : Reporting Report α).Exactly view (fun _ => False) returns :=
  ⟨holds, by simp⟩

theorem Exactly.report (item : Report) :
    (report item).Exactly view (· = view item) fun _ => True :=
  ⟨trivial, by simp⟩

theorem Exactly.mono {made other : View → Prop} {returns weaker : α → Prop}
    {computation : Reporting Report α} (holds : computation.Exactly view made returns)
    (same : ∀ seen, made seen ↔ other seen) (values : ∀ value, returns value → weaker value) :
    computation.Exactly view other weaker := by
  cases computation with
  | panicked => trivial
  | returned value reports =>
    exact ⟨values value holds.1, fun seen => (holds.2 seen).trans (same seen)⟩

theorem Exactly.congr {made other : View → Prop} {returns : α → Prop}
    {computation : Reporting Report α} (holds : computation.Exactly view made returns)
    (same : ∀ seen, made seen ↔ other seen) : computation.Exactly view other returns :=
  holds.mono same fun _ => id

/-- A sequence makes the reports of both of its halves. -/
theorem Exactly.bind {made later : View → Prop} {returns : α → Prop} {finally_ : β → Prop}
    {first : Reporting Report α} {rest : α → Reporting Report β}
    (begins : first.Exactly view made returns)
    (continues : ∀ value, returns value → (rest value).Exactly view later finally_) :
    (first >>= rest).Exactly view (fun seen => made seen ∨ later seen) finally_ := by
  cases first with
  | panicked => trivial
  | returned value reports =>
    have second := continues value begins.1
    change ((rest value).after reports).Exactly view _ finally_
    cases continued : rest value with
    | panicked => trivial
    | returned final others =>
      rw [continued] at second
      refine ⟨second.1, fun seen => ?_⟩
      rw [List.map_append, List.mem_append, begins.2, second.2]

/-- A step that stops unless its first part has a value, which it has if `given`. -/
theorem Exactly.bindSome {made later : View → Prop} {given : Prop} {finally_ : β → Prop}
    {first : Reporting Report (Option α)} {rest : Option α → Reporting Report β}
    (begins : first.Exactly view made fun value => value.isSome ↔ given)
    (stops : ¬ given → (rest none).Exactly view (fun _ => False) finally_)
    (continues : given → ∀ kept, (rest (some kept)).Exactly view later finally_) :
    (first >>= rest).Exactly view (fun seen => made seen ∨ given ∧ later seen) finally_ := by
  refine .bind begins fun value known => ?_
  cases value with
  | none =>
    have lacking : ¬ given := fun holds => nomatch known.mpr holds
    exact (stops lacking).congr fun seen => by simp [lacking]
  | some kept =>
    have holds : given := known.mp rfl
    exact (continues holds kept).congr fun seen => by simp [holds]

/-- The end of a sequence that reports nothing more. -/
theorem Exactly.bindQuiet {made : View → Prop} {returns : α → Prop} {first : Reporting Report α}
    {rest : α → Reporting Report β} (begins : first.Exactly view made returns)
    (quiet : ∀ value, (rest value).Exactly view (fun _ => False) fun _ => True) :
    (first >>= rest).Exactly view made fun _ => True :=
  (Exactly.bind begins fun value _ => quiet value).congr fun _ => by rw [or_false]

/-- The values of a loop, where `keeps` tells what its step keeps of an item. -/
def Collects {Item : Type w} (keeps : Item → Option β → Prop) (items : List Item)
    (values : List β) : Prop :=
  (∀ value ∈ values, ∃ item ∈ items, keeps item (some value)) ∧
    ∀ item ∈ items, ∃ result, keeps item result ∧ ∀ value ∈ result, value ∈ values

/-- A loop makes the reports of its steps. -/
theorem Exactly.each {Item : Type w} {made : Item → View → Prop} {keeps : Item → Option β → Prop}
    {step : Item → Reporting Report (Option β)} {items : List Item}
    (steps : ∀ item ∈ items, (step item).Exactly view (made item) (keeps item)) :
    (each step items).Exactly view (fun seen => ∃ item ∈ items, made item seen)
      (Collects keeps items) := by
  induction items with
  | nil => exact (Exactly.pure (by simp [Collects])).congr (by simp)
  | cons item rest ih =>
    have others := ih fun other inside => steps other (List.mem_cons_of_mem _ inside)
    refine (Exactly.bind (steps item List.mem_cons_self) fun value first =>
      .bind others fun values collected => .pure ?_).congr fun seen => by simp
    refine ⟨fun kept inside => ?_, List.forall_mem_cons.mpr ⟨⟨value, first, ?_⟩, ?_⟩⟩
    · rcases List.mem_append.mp inside with here | there
      · exact ⟨item, List.mem_cons_self, Option.mem_toList.mp here ▸ first⟩
      · obtain ⟨other, member, keeps⟩ := collected.1 kept there
        exact ⟨other, List.mem_cons_of_mem _ member, keeps⟩
    · intro kept here
      exact List.mem_append_left _ (Option.mem_toList.mpr here)
    · intro other member
      obtain ⟨result, keeps, within⟩ := collected.2 other member
      exact ⟨result, keeps, fun kept here => List.mem_append_right _ (within kept here)⟩

end

/-! ## Computations in another form -/

section

variable {Other : Type w}

def translate (view : Report → Other) (image : α → β) : Reporting Report α → Reporting Other β
  | .panicked => .panicked
  | .returned value reports => .returned (image value) (reports.map view)

/-- The second computation does what the first does, with another form of its
value and of its reports. -/
def Carries (view : Report → Other) (image : α → β) (first : Reporting Report α)
    (second : Reporting Other β) : Prop :=
  second = first.translate view image

variable {view : Report → Other} {γ δ : Type v}

theorem Carries.panicked {image : α → β} :
    Carries view image (.panicked : Reporting Report α) .panicked := rfl

theorem Carries.pure {image : α → β} {value : α} {other : β} (same : image value = other) :
    Carries view image (Pure.pure value) (Pure.pure other) := by
  rw [← same]
  rfl

theorem Carries.report {item : Report} {other : Other} (same : view item = other) :
    Carries view id (report item) (Reporting.report other) := by
  rw [← same]
  rfl

theorem Carries.after {image : α → β} {first : Reporting Report α} {second : Reporting Other β}
    (carries : Carries view image first second) (earlier : List Report) :
    Carries view image (first.after earlier) (second.after (earlier.map view)) := by
  rw [carries]
  cases first with
  | panicked => rfl
  | returned value reports =>
    simp only [Reporting.after, translate, Carries, List.map_append]

theorem Carries.bind {image : α → β} {final : γ → δ} {first : Reporting Report α}
    {second : Reporting Other β} {rest : α → Reporting Report γ} {others : β → Reporting Other δ}
    (begins : Carries view image first second)
    (continues : ∀ value, Carries view final (rest value) (others (image value))) :
    Carries view final (first >>= rest) (second >>= others) := by
  rw [begins]
  cases first with
  | panicked => rfl
  | returned value reports => exact (continues value).after reports

/-- A step that may stop where its first part has no value. -/
theorem Carries.bindSome {image : α → β} {final : γ → δ} {first : Reporting Report (Option α)}
    {second : Reporting Other (Option β)} {rest : Option α → Reporting Report γ}
    {others : Option β → Reporting Other δ} (begins : Carries view (Option.map image) first second)
    (stops : Carries view final (rest none) (others none))
    (continues : ∀ value, Carries view final (rest (some value)) (others (some (image value)))) :
    Carries view final (first >>= rest) (second >>= others) := by
  refine .bind begins fun value => ?_
  cases value with
  | none => exact stops
  | some value => exact continues value

theorem Carries.each {Item Form : Type*} {form : Item → Form} {image : α → β}
    {step : Item → Reporting Report (Option α)} {steps : Form → Reporting Other (Option β)}
    {items : List Item}
    (carries : ∀ item ∈ items, Carries view (Option.map image) (step item) (steps (form item))) :
    Carries view (List.map image) (each step items) (each steps (items.map form)) := by
  induction items with
  | nil => exact .pure rfl
  | cons item rest ih =>
    have others := ih fun other inside => carries other (List.mem_cons_of_mem _ inside)
    refine .bind (carries item List.mem_cons_self) fun value => .bind others fun values => .pure ?_
    cases value <;> rfl

end

end Reporting

end Ill.Base
