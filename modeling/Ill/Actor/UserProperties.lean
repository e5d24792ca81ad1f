import Ill.Actor.MqttClient

/-!
# User properties as dicts

A packet carries its user properties as a list of pairs whose keys may repeat,
and the language shows them as a dict. The list that a dict stands for keeps
each key once, where it came first, with the value that came last.
-/

namespace Ill.Actor.MqttClient

open Base

/-- Properties in which each key stands once, where it came first, with the
value that came last. -/
structure Merges (props kept : UserProperties) : Prop where
  keys : kept.map Prod.fst = (props.map Prod.fst).eraseDups
  last : ∀ key, kept.lookup key = props.reverse.lookup key

/-- The fields of properties, repeated ones included. -/
def textFields (props : UserProperties) : Dict := props.map (Prod.map id Value.string)

theorem userPropertiesToDict_eq (props : UserProperties) :
    userPropertiesToDict props = textFields (Assoc.ofPairs props) := by
  rw [textFields, ← Assoc.ofPairs_map, Assoc.ofPairs, List.foldl_map]
  rfl

theorem keys_textFields (props : UserProperties) :
    (textFields props).map Prod.fst = props.map Prod.fst := by
  rw [textFields, List.map_map]
  rfl

/-- Fields of text are converted to the pairs they come from. -/
theorem dictToUserProperties_textFields (props : UserProperties) :
    dictToUserProperties (some (.dict (textFields props))) = some (some props) := by
  rw [dictToUserProperties, Option.map_eq_some_iff]
  refine ⟨props, ?_, rfl⟩
  induction props with
  | nil => rfl
  | cons pair rest ih =>
    rw [textFields, List.map_cons, List.mapM_cons, ← textFields, ih]
    rfl

/-- A dict of texts has the fields of some properties. -/
theorem exists_textFields {fields : Dict} (texts : ∀ field ∈ fields, ∃ text, field.2 = .string text) :
    ∃ props, fields = textFields props := by
  induction fields with
  | nil => exact ⟨[], rfl⟩
  | cons field rest ih =>
    obtain ⟨⟨text, same⟩, others⟩ := List.forall_mem_cons.mp texts
    obtain ⟨props, rfl⟩ := ih others
    obtain ⟨name, value⟩ := field
    obtain rfl : value = .string text := same
    exact ⟨(name, text) :: props, rfl⟩

theorem merges_ofPairs (props : UserProperties) : Merges props (Assoc.ofPairs props) where
  keys := Assoc.keys_ofPairs props
  last := Assoc.lookup_ofPairs props

/-- The properties of a packet come back merged, so all of them come back
exactly if no key repeats, and a dict of texts comes back as it was. -/
theorem user_properties_converted :
    (∀ props, ∃ kept,
      dictToUserProperties (some (.dict (userPropertiesToDict props))) = some (some kept) ∧
        Merges props kept ∧ (kept = props ↔ (props.map Prod.fst).Nodup)) ∧
      ∀ fields : Dict, (fields.map Prod.fst).Nodup →
        (∀ field ∈ fields, ∃ text, field.2 = .string text) →
          ∃ props, dictToUserProperties (some (.dict fields)) = some (some props) ∧
            userPropertiesToDict props = fields := by
  constructor
  · intro props
    refine ⟨Assoc.ofPairs props, ?_, merges_ofPairs props, Assoc.ofPairs_eq_self_iff⟩
    rw [userPropertiesToDict_eq]
    exact dictToUserProperties_textFields _
  · intro fields distinct texts
    obtain ⟨props, rfl⟩ := exists_textFields texts
    rw [keys_textFields] at distinct
    refine ⟨props, dictToUserProperties_textFields props, ?_⟩
    rw [userPropertiesToDict_eq, Assoc.ofPairs_eq_self_iff.mpr distinct]

/-- A repeated key loses its first value. -/
theorem repeated_property_lost :
    ¬ ∀ props, dictToUserProperties (some (.dict (userPropertiesToDict props))) =
      some (some props) := by
  intro lossless
  have same := lossless [("app", "ill"), ("app", "test")]
  have kept : dictToUserProperties
      (some (.dict (userPropertiesToDict [("app", "ill"), ("app", "test")]))) =
        some (some [("app", "test")]) := by decide
  rw [kept] at same
  exact absurd same (by decide)

end Ill.Actor.MqttClient
