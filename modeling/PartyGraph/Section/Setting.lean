import PartyGraph.Toml.Calendar

/-!
# Values of settings

A setting may have any value, within which one table is not what it seems: a table that begins
with the moment key stands for the moment that the text under that key is. It must hold nothing
else. Further on in a table the key has no such meaning.

## Main definitions

* `momentKey`: the key.
* `Toml.Value.setting?`: the value that a setting has when the value given is written for it.

## Main results

* `Toml.Value.setting?_of_setting?`: the value of a setting may be written for one again, and has
  itself for value, however deep the tables that stood for moments were in it.
-/

namespace PartyGraph

/-- The key under which a moment stands in the table that it becomes where a table is needed. -/
def momentKey : String := "$__toml_private_datetime"

namespace Toml

/-- Whether a table stands for a moment: its first key says so. -/
def Table.standsForMoment : Table → Bool
  | (key, _) :: _ => key = momentKey
  | [] => false

/-- The moment that a table holds by itself. -/
def Table.moment? : Table → Option Moment
  | [(_, .text s)] => Moment.ofText? s
  | _ => none

namespace Value

mutual

/-- The value of a setting for which `v` is written, if `v` can be written for one. -/
def setting? : Value → Option Value
  | .array items => (settings? items).map .array
  | .table entries =>
    if Table.standsForMoment entries then (Table.moment? entries).map .moment
    else (settingEntries? entries).map .table
  | v => some v

/-- `setting?` on all values of an array. -/
def settings? : List Value → Option (List Value)
  | [] => some []
  | v :: rest =>
    match setting? v, settings? rest with
    | some v, some rest => some (v :: rest)
    | _, _ => none

/-- `setting?` on all values of a table. -/
def settingEntries? : List (String × Value) → Option (List (String × Value))
  | [] => some []
  | (key, v) :: rest =>
    match setting? v, settingEntries? rest with
    | some v, some rest => some ((key, v) :: rest)
    | _, _ => none

end

/-- Tables keep their first key, which decides what they stand for. -/
theorem standsForMoment_of_settingEntries? {entries entries' : List (String × Value)}
    (h : settingEntries? entries = some entries') :
    Table.standsForMoment entries' = Table.standsForMoment entries := by
  fun_cases settingEntries? entries <;> grind [settingEntries?, Table.standsForMoment]

mutual

/-- What a setting has for value is written for that value. -/
theorem setting?_of_setting? : ∀ {v w : Value}, setting? v = some w → setting? w = some w
  | .array items, w, h => by
    rw [setting?] at h
    obtain ⟨items', hitems, rfl⟩ := Option.map_eq_some_iff.mp h
    rw [setting?, settings?_of_settings? hitems, Option.map_some]
  | .table entries, w, h => by
    rw [setting?] at h
    split at h
    case isTrue =>
      obtain ⟨m, -, rfl⟩ := Option.map_eq_some_iff.mp h
      rfl
    case isFalse hnot =>
      obtain ⟨entries', hentries, rfl⟩ := Option.map_eq_some_iff.mp h
      rw [setting?, standsForMoment_of_settingEntries? hentries, if_neg hnot,
        settingEntries?_of_settingEntries? hentries, Option.map_some]
  | .text s, w, h => by
    cases h
    rfl
  | .integer n, w, h => by
    cases h
    rfl
  | .float bits, w, h => by
    cases h
    rfl
  | .truth b, w, h => by
    cases h
    rfl
  | .moment m, w, h => by
    cases h
    rfl

theorem settings?_of_settings? :
    ∀ {items items' : List Value}, settings? items = some items' → settings? items' = some items'
  | [], _, h => by
    cases h
    rfl
  | v :: rest, _, h => by
    rw [settings?] at h
    split at h
    case h_1 w rest' hv hrest =>
      cases h
      rw [settings?, setting?_of_setting? hv, settings?_of_settings? hrest]
    case h_2 => cases h

theorem settingEntries?_of_settingEntries? : ∀ {entries entries' : List (String × Value)},
    settingEntries? entries = some entries' → settingEntries? entries' = some entries'
  | [], _, h => by
    cases h
    rfl
  | (key, v) :: rest, _, h => by
    rw [settingEntries?] at h
    split at h
    case h_1 w rest' hv hrest =>
      cases h
      rw [settingEntries?, setting?_of_setting? hv, settingEntries?_of_settingEntries? hrest]
    case h_2 => cases h

end

end Value

end Toml

end PartyGraph
