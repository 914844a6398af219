import Mathlib.Data.List.Induction
import Mathlib.Data.List.Nodup

/-!
# Dictionaries that keep their order

A library for dictionaries whose items stay in the order in which their keys were first
assigned, as Python's do. No key occurs twice, which a dictionary carries with it.
-/

namespace KiClash.OrderedDicts

variable {K V W X : Type}

/-- A dictionary. -/
structure Dict (K V : Type) where
  /-- The items, the key assigned first at the front. -/
  items : List (K×V)
  /-- No key occurs twice. -/
  nodup : (items.map Prod.fst).Nodup

namespace Dict

/-- The dictionary without items. -/
def empty : Dict K V := ⟨[],List.nodup_nil⟩

section Lookups

variable [DecidableEq K]

/-- The value of a key. -/
def get (dict : Dict K V) (key : K) : Option V :=
  (dict.items.find? fun item => item.1=key).map Prod.snd

@[simp] theorem get_empty (key : K) : (empty : Dict K V).get key=none := rfl

/-- The items are what the keys have been assigned. -/
theorem mem_items {dict : Dict K V} {key : K} {value : V} :
    (key,value)∈dict.items ↔ dict.get key=some value := by
  obtain ⟨items,hnodup⟩ := dict
  change (key,value)∈items ↔ (items.find? _).map Prod.snd=some value
  induction items with
  | nil => simp
  | cons item items ih =>
    obtain ⟨hfirst,hrest⟩ := List.nodup_cons.mp hnodup
    by_cases hkey : item.1=key
    · have hlater : (key,value)∉items := by
        intro hmem
        exact hfirst (hkey ▸ List.mem_map.mpr ⟨_,hmem,rfl⟩)
      have hitem : (key,value)=item ↔ item.2=value := by
        obtain ⟨k,v⟩ := item
        cases hkey
        simp [eq_comm]
      simp [hkey,hlater,hitem]
    · have hitem : (key,value)≠item := by
        rintro rfl
        exact hkey rfl
      simpa [hkey,hitem] using ih hrest

/-- A key without a value is not among the items. -/
theorem get_eq_none {dict : Dict K V} {key : K} :
    dict.get key=none ↔ ∀ item∈dict.items,item.1≠key := by
  simp [get]

/-- The items of a dictionary in which a key has been assigned. -/
def assign (items : List (K×V)) (key : K) (value : V) : List (K×V) :=
  if key∈items.map Prod.fst then
    items.map fun item => if item.1=key then (key,value) else item
  else items++[(key,value)]

/-- It keeps the keys, and gets a new one at the end. -/
theorem assign_keys (items : List (K×V)) (key : K) (value : V) :
    (assign items key value).map Prod.fst=
      if key∈items.map Prod.fst then items.map Prod.fst else items.map Prod.fst++[key] := by
  unfold assign
  split
  · rw [List.map_map]
    refine List.map_congr_left fun item _ => ?_
    by_cases hkey : item.1=key <;> simp [hkey]
  · simp

/-- dict[key] = value. -/
def set (dict : Dict K V) (key : K) (value : V) : Dict K V where
  items := assign dict.items key value
  nodup := by
    rw [assign_keys]
    split
    · exact dict.nodup
    · next hnew => exact List.nodup_append_comm.mp (List.nodup_cons.mpr ⟨hnew,dict.nodup⟩)

/-- Its key has the value, and the other ones keep theirs. -/
theorem get_set (dict : Dict K V) (key : K) (value : V) (key' : K) :
    (dict.set key value).get key'=if key'=key then some value else dict.get key' := by
  have hmem : ∀ value',(dict.set key value).get key'=some value' ↔
      if key'=key then value'=value else dict.get key'=some value' := by
    intro value'
    rw [← mem_items]
    change (key',value')∈assign dict.items key value ↔ _
    unfold assign
    split
    · next hold =>
      obtain ⟨⟨k,v⟩,hitem,hk⟩ := List.mem_map.mp hold
      cases hk
      simp only [List.mem_map]
      constructor
      · rintro ⟨⟨k',v'⟩,hitem',heq⟩
        by_cases hk' : k'=k
        · simp_all
        · rw [if_neg hk'] at heq
          cases heq
          rw [if_neg hk']
          exact mem_items.mp hitem'
      · intro h
        by_cases hk' : key'=k
        · rw [if_pos hk'] at h
          exact ⟨_,hitem,by simp [hk',h]⟩
        · rw [if_neg hk'] at h
          exact ⟨_,mem_items.mpr h,by simp [hk']⟩
    · next hnew =>
      rw [List.mem_append,List.mem_singleton,mem_items]
      by_cases hk' : key'=key
      · subst hk'
        have hnone : dict.get key'=none := by
          rw [get_eq_none]
          exact fun item hitem he => hnew (he ▸ List.mem_map.mpr ⟨item,hitem,rfl⟩)
        simp [hnone]
      · simp [hk']
  cases hget : (dict.set key value).get key' with
  | some value' =>
    have h := (hmem value').mp hget
    split_ifs at h ⊢ with hk
    · rw [h]
    · exact h.symm
  | none =>
    have hnone : ∀ value',(dict.set key value).get key'≠some value' := by
      intro value' h
      rw [hget] at h
      cases h
    split_ifs with hk
    · exact absurd ((hmem value).mpr (by rw [if_pos hk])) (hnone value)
    · cases hold : dict.get key' with
      | none => rfl
      | some value' => exact absurd ((hmem value').mpr (by rw [if_neg hk,hold])) (hnone value')

/-- A dictionary comprehension. -/
def comprehension (key : X → K) (value : X → V) (entries : List X) : Dict K V :=
  entries.foldl (fun dict entry => dict.set (key entry) (value entry)) empty

/-- What it holds has been assigned. -/
theorem exists_of_comprehension {key : X → K} {value : X → V} {entries : List X} {k : K} {v : V}
    (h : (comprehension key value entries).get k=some v) :
    ∃ entry∈entries,key entry=k ∧ value entry=v := by
  induction entries using List.reverseRecOn with
  | nil => simp [comprehension] at h
  | append_singleton entries entry ih =>
    rw [comprehension,List.foldl_append,List.foldl_cons,List.foldl_nil,get_set] at h
    split_ifs at h with hk
    · cases h
      exact ⟨entry,by simp,hk.symm,rfl⟩
    · obtain ⟨entry',hmem,hentry⟩ := ih h
      exact ⟨entry',by simp [hmem],hentry⟩

end Lookups

/-- The same keys with other values. -/
def mapValues (f : V → W) (dict : Dict K V) : Dict K W where
  items := dict.items.map fun item => (item.1,f item.2)
  nodup := by
    rw [List.map_map]
    exact dict.nodup

@[simp] theorem get_mapValues [DecidableEq K] (f : V → W) (dict : Dict K V) (key : K) :
    (dict.mapValues f).get key=(dict.get key).map f := by
  simp only [get,mapValues,List.find?_map,Option.map_map]
  rfl

end Dict

end KiClash.OrderedDicts
