import Sentential.Settings.Fault

/-!
# Values that cannot be shown

The message of a fault shows the value that is at fault. It can do so unless there is an integer with too many digits
in the value, at any depth (`Value.Overlong`), and these are the only faults without a message
(`Settings.Fault.message?_eq_none_iff`).
-/

namespace Sentential

namespace Value

/-- The values of which a collection consists, the keys of a mapping included. -/
def parts : Value → List Value
  | list items => items
  | set members => members
  | pairs entries => entries.flatMap fun (k, v) => [k, v]
  | mapping entries => entries.flatMap fun (k, v) => [k, v]
  | _ => []

/-- The value is an integer with too many digits, or holds one. -/
inductive Overlong : Value → Prop
  | int {i : Int} (h : Text.digitBound ≤ i.natAbs) : Overlong (.int i)
  | part {v w : Value} (hw : w ∈ v.parts) (h : Overlong w) : Overlong v

theorem shownInt?_eq_none_iff {i : Int} : shownInt? i = none ↔ (Value.int i).Overlong := by
  unfold shownInt?
  split
  next hlt =>
    refine iff_of_false (by simp) fun h => ?_
    cases h with
    | int h => omega
    | part hw _ => cases hw
  next hle => exact iff_of_true rfl (.int (Nat.not_lt.1 hle))

/-- A value that is no integer is overlong exactly if one of its parts is. -/
theorem overlong_iff {v : Value} (hint : ∀ i, v ≠ .int i) : v.Overlong ↔ ∃ w ∈ v.parts, w.Overlong := by
  constructor
  · intro h
    cases h with
    | int h => exact absurd rfl (hint _)
    | part hw h => exact ⟨_, hw, h⟩
  · rintro ⟨w, hw, h⟩
    exact .part hw h

mutual

/-- A value cannot be shown exactly if there is an integer with too many digits in it. -/
theorem shown?_eq_none_iff : ∀ v : Value, v.shown? = none ↔ v.Overlong
  | null => by simp [shown?, overlong_iff, parts]
  | bool _ => by simp [shown?, overlong_iff, parts]
  | int _ => shownInt?_eq_none_iff
  | decimal _ => by simp [shown?, overlong_iff, parts]
  | infinity _ => by simp [shown?, overlong_iff, parts]
  | notANumber => by simp [shown?, overlong_iff, parts]
  | text _ => by simp [shown?, overlong_iff, parts]
  | bytes _ => by simp [shown?, overlong_iff, parts]
  | date _ => by simp [shown?, overlong_iff, parts]
  | moment _ => by simp [shown?, overlong_iff, parts]
  | list items => by
    rw [shown?, Option.map_eq_none_iff, shownItems?_eq_none_iff items, overlong_iff (by simp), parts]
  | set members => by
    rw [shown?, Option.map_eq_none_iff, shownItems?_eq_none_iff members, overlong_iff (by simp), parts]
  | pairs entries => by
    rw [shown?, Option.map_eq_none_iff, shownEntries?_eq_none_iff entries, overlong_iff (by simp), parts]
  | mapping entries => by
    rw [shown?, Option.map_eq_none_iff, shownEntries?_eq_none_iff entries, overlong_iff (by simp), parts]

theorem shownItems?_eq_none_iff : ∀ items : List Value, shownItems? items = none ↔ ∃ v ∈ items, v.Overlong
  | [] => by simp [shownItems?]
  | v :: rest => by
    have hv := shown?_eq_none_iff v
    have hrest := shownItems?_eq_none_iff rest
    simp only [List.mem_cons, exists_eq_or_imp]
    rw [← hv, ← hrest, shownItems?]
    cases v.shown? <;> cases shownItems? rest <;> simp

theorem shownEntries?_eq_none_iff : ∀ entries : List (Value × Value),
    shownEntries? entries = none ↔ ∃ v ∈ entries.flatMap fun (k, v) => [k, v], v.Overlong
  | [] => by simp [shownEntries?]
  | (k, v) :: rest => by
    have hk := shown?_eq_none_iff k
    have hv := shown?_eq_none_iff v
    have hrest := shownEntries?_eq_none_iff rest
    simp only [List.flatMap_cons, List.cons_append, List.nil_append, List.mem_cons, exists_eq_or_imp]
    rw [← hk, ← hv, ← hrest, shownEntries?]
    cases k.shown? <;> cases v.shown? <;> cases shownEntries? rest <;> simp

end

end Value

namespace Settings

/-- The value that a fault shows, where it shows one. -/
def Fault.got? : Fault → Option Value
  | ceilingNotInteger got => some got
  | ceilingOutOfRange got => some (.int got)
  | unknownStyle got => some got
  | stepsNotBoolean got => some got
  | _ => none

/-- A fault has no message exactly if it shows a value that cannot be shown. -/
theorem Fault.message?_eq_none_iff {f : Fault} : f.message? = none ↔ ∃ v, f.got? = some v ∧ v.Overlong := by
  have hgot : ∀ {v : Value}, (∃ w, some v = some w ∧ w.Overlong) ↔ v.Overlong := by
    intro v
    simp
  cases f with
  | ceilingNotInteger got => rw [message?, got?, hgot, Option.map_eq_none_iff, Value.shown?_eq_none_iff]
  | ceilingOutOfRange got => rw [message?, got?, hgot, Option.map_eq_none_iff, Value.shownInt?_eq_none_iff]
  | unknownStyle got => rw [message?, got?, hgot, Option.map_eq_none_iff, Value.shown?_eq_none_iff]
  | stepsNotBoolean got => rw [message?, got?, hgot, Option.map_eq_none_iff, Value.shown?_eq_none_iff]
  | _ => simp [message?, got?]

end Settings

end Sentential
