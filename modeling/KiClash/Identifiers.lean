import KiClash.EngineTypes

/-!
# Identifiers as text

The Go server keeps every identifier as the text that Python has written.
Python reads such a text back with the UUID constructor, so different
identifiers have different texts.
-/

namespace KiClash.Identifiers

open EngineTypes

/-- The value of a hexadecimal digit in either case. -/
def hexDigit? (c : Char) : Option (Fin 16) :=
  (List.finRange 16).find? fun digit => Nat.digitChar digit.val=c.toLower

/-- The identifier with the given text, hyphens where they belong. -/
def uuid? (text : String) : Option UUID := do
  let chars := text.toList
  guard (chars.length=36 ∧ ∀ k∈[8,13,18,23],chars[k]?=some '-')
  let digits ← (chars.filter (·≠ '-')).mapM hexDigit?
  if h : digits.length=32 then some ⟨digits,h⟩ else none

theorem hexDigit_digitChar (digit : Fin 16) :
    Nat.digitChar digit.val≠ '-' ∧ hexDigit? (Nat.digitChar digit.val)=some digit := by
  revert digit
  decide

/-- Reading hexadecimal digits gives them back. -/
theorem mapM_hexDigit (digits : List (Fin 16)) :
    (digits.map fun digit => Nat.digitChar digit.val).mapM hexDigit?=some digits := by
  induction digits with
  | nil => rfl
  | cons digit digits ih =>
    simp only [List.map_cons,List.mapM_cons,(hexDigit_digitChar digit).2,ih]
    rfl

/-- No digit is a hyphen. -/
theorem filter_digits (digits : List (Fin 16)) :
    (digits.map fun digit => Nat.digitChar digit.val).filter (·≠ '-')=
      digits.map fun digit => Nat.digitChar digit.val := by
  rw [List.filter_eq_self]
  intro c hc
  obtain ⟨digit,-,rfl⟩ := List.mem_map.mp hc
  exact decide_eq_true (hexDigit_digitChar digit).1

/-- The groups of an identifier follow each other. -/
theorem groups (digits : List (Fin 16)) :
    digits.take 8++(digits.drop 8).take 4++(digits.drop 12).take 4++(digits.drop 16).take 4++
      digits.drop 20=digits := by
  have h₁₆ := List.take_append_drop 4 (digits.drop 16)
  have h₁₂ := List.take_append_drop 4 (digits.drop 12)
  have h₈ := List.take_append_drop 4 (digits.drop 8)
  rw [List.drop_drop] at h₁₆ h₁₂ h₈
  simp only [List.append_assoc]
  rw [h₁₆,h₁₂,h₈,List.take_append_drop]

/-- Reading the text of an identifier gives the identifier back. -/
theorem uuid_text (id : UUID) : uuid? id.text=some id := by
  obtain ⟨digits,hlen⟩ := id
  have hchars : (UUID.text ⟨digits,hlen⟩).toList.filter (· ≠ '-')=
      digits.map fun digit => Nat.digitChar digit.val := by
    simp only [UUID.text,String.toList_ofList,List.filter_append,List.filter_cons,← List.map_take,
      ← List.map_drop,filter_digits]
    simp only [← List.map_append,ne_eq,not_true_eq_false,decide_false,Bool.false_eq_true,if_false]
    rw [groups]
  have hguard : (UUID.text ⟨digits,hlen⟩).toList.length=36 ∧
      ∀ k∈[8,13,18,23],(UUID.text ⟨digits,hlen⟩).toList[k]?=some '-' := by
    simp only [UUID.text,String.toList_ofList]
    simp [hlen,List.getElem?_append]
  unfold uuid?
  dsimp only
  rw [hchars,mapM_hexDigit,guard,if_pos hguard]
  exact dif_pos hlen

/-- Different identifiers have different texts. -/
theorem text_injective : Function.Injective UUID.text := by
  intro id id' h
  have hread := uuid_text id
  rw [h,uuid_text id'] at hread
  exact (Option.some.inj hread).symm

end KiClash.Identifiers
