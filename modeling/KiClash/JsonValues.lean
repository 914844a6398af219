import Mathlib.Data.Int.Notation
import Mathlib.Data.List.Basic

/-!
# JSON values and decoders

A library for records that one program writes as JSON and another one reads
back: the values, and decoders that are put together field by field. A decoder
fails on a value of another kind, on a missing field that has no default and on
a text that names no member of an enumeration.
-/

namespace KiClash.JsonValues

/-- A JSON value; numbers are integers. -/
inductive Json
  | null
  | bool (value : Bool)
  | num (value : ℤ)
  | str (text : String)
  | arr (elements : List Json)
  | obj (fields : List (String×Json))

/-- Read a value, or refuse it. -/
abbrev Decoder (α : Type) := Json → Option α

variable {α : Type}

/-- The member of an object with the given name; of several the last one counts. -/
def member (name : String) : Json → Option Json
  | .obj fields => fields.reverse.lookup name
  | _ => none

/-- A field that has to be there. -/
def required (name : String) (decode : Decoder α) : Decoder α :=
  fun json => (member name json).bind decode

/-- A field with a default. -/
def defaulted (name : String) (value : α) (decode : Decoder α) : Decoder α :=
  fun json => (member name json).elim (some value) decode

/-- A value that may be null. -/
def nullable (decode : Decoder α) : Decoder (Option α)
  | .null => some none
  | json => (decode json).map some

/-- A list. -/
def listOf (decode : Decoder α) : Decoder (List α)
  | .arr elements => elements.mapM decode
  | _ => none

/-- An integer. -/
def integer : Decoder ℤ
  | .num value => some value
  | _ => none

/-- A boolean. -/
def boolean : Decoder Bool
  | .bool value => some value
  | _ => none

/-- A text that a reader understands. -/
def textual (read : String → Option α) : Decoder α
  | .str text => read text
  | _ => none

/-- A value and its checked constraint. -/
def checked (valid : α → Prop) [DecidablePred valid] (value : α) : Option α :=
  if valid value then some value else none

section RoundTrips

/-- A list whose elements are read back is read back. -/
theorem listOf_map {decode : Decoder α} {encode : α → Json} {values : List α}
    (h : ∀ value∈values,decode (encode value)=some value) :
    listOf decode (.arr (values.map encode))=some values := by
  change (values.map encode).mapM decode=some values
  induction values with
  | nil => rfl
  | cons value values ih =>
    have hvalue := h value List.mem_cons_self
    have hvalues := ih fun value' hin => h value' (List.mem_cons_of_mem _ hin)
    simp [hvalue,hvalues]

/-- A value that is no null and is read back is read back where it may be null. -/
theorem nullable_some {decode : Decoder α} {json : Json} {value : α}
    (hnull : json≠.null) (h : decode json=some value) :
    nullable decode json=some (some value) := by
  cases json with
  | null => exact absurd rfl hnull
  | bool | num | str | arr | obj => simp [nullable,h]

/-- A value that satisfies its constraint passes the check. -/
theorem checked_of_valid {valid : α → Prop} [DecidablePred valid] {value : α}
    (h : valid value) : checked valid value=some value := if_pos h

end RoundTrips

end KiClash.JsonValues
