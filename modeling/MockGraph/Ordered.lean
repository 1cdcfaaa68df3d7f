set_option autoImplicit false

namespace MockGraph

/-- Entries in insertion order, one per key as long as it is built by `insert`. -/
abbrev Ordered (κ β : Type) := List (κ × β)

namespace Ordered

variable {κ β : Type} [DecidableEq κ]

/-- The value of the first entry with the key. -/
def get? : Ordered κ β → κ → Option β
  | [], _ => none
  | (k, v) :: rest, key => if k = key then some v else get? rest key

def contains (entries : Ordered κ β) (key : κ) : Bool := (entries.get? key).isSome

/-- A known key keeps its place and gets the new value, a new one goes to the end. -/
def insert : Ordered κ β → κ → β → Ordered κ β
  | [], key, value => [(key, value)]
  | (k, v) :: rest, key, value =>
    if k = key then (k, value) :: rest else (k, v) :: insert rest key value

/-- Removes the entries with the key and keeps the order of the others. -/
def erase (entries : Ordered κ β) (key : κ) : Ordered κ β :=
  entries.filter fun entry => entry.1 ≠ key

def keys (entries : Ordered κ β) : List κ := entries.map Prod.fst

/-- Changes the value of a key, and does nothing if there is none. -/
def adjust : Ordered κ β → κ → (β → β) → Ordered κ β
  | [], _, _ => []
  | (k, v) :: rest, key, change =>
    if k = key then (k, change v) :: rest else (k, v) :: adjust rest key change

/-- Inserts the pairs from left to right: the last value of a key wins, at the key's first place. -/
def ofList (pairs : List (κ × β)) : Ordered κ β :=
  pairs.foldl (fun entries pair => entries.insert pair.1 pair.2) []

theorem get?_insert (entries : Ordered κ β) (key other : κ) (value : β) :
    (entries.insert key value).get? other =
      if key = other then some value else entries.get? other := by
  induction entries with
  | nil => simp [insert, get?]
  | cons entry rest ih =>
    obtain ⟨k, v⟩ := entry
    by_cases same : k = key
    · subst same
      by_cases hit : k = other <;> simp [insert, get?, hit]
    · by_cases hit : k = other
      · subst hit
        simp [insert, get?, same, Ne.symm same]
      · simp [insert, get?, same, hit, ih]

theorem insert_ne_nil (entries : Ordered κ β) (key : κ) (value : β) :
    entries.insert key value ≠ [] := by
  unfold insert
  split
  · nofun
  · split <;> nofun

theorem keys_insert (entries : Ordered κ β) (key : κ) (value : β) :
    (entries.insert key value).keys =
      if key ∈ entries.keys then entries.keys else entries.keys ++ [key] := by
  induction entries with
  | nil => simp [insert, keys]
  | cons entry rest ih =>
    obtain ⟨k, v⟩ := entry
    simp only [keys] at ih
    by_cases same : k = key
    · simp [insert, keys, same]
    · by_cases member : key ∈ rest.map Prod.fst <;>
        simp [insert, keys, same, Ne.symm same, ih, member]

omit [DecidableEq κ] in
@[simp] theorem keys_nil : keys ([] : Ordered κ β) = [] := rfl

omit [DecidableEq κ] in
@[simp] theorem keys_cons (entry : κ × β) (rest : Ordered κ β) :
    keys (entry :: rest) = entry.1 :: keys rest := rfl

theorem insert_of_notMem (entries : Ordered κ β) (key : κ) (value : β)
    (absent : key ∉ entries.keys) : entries.insert key value = entries ++ [(key, value)] := by
  induction entries with
  | nil => rfl
  | cons entry rest ih =>
    obtain ⟨k, v⟩ := entry
    rw [keys_cons, List.mem_cons, not_or] at absent
    simp only [insert, if_neg (Ne.symm absent.1), ih absent.2, List.cons_append]

/-- What is there after an insertion was so before, or is new. -/
theorem mem_insert {entries : Ordered κ β} {key : κ} {value : β} {entry : κ × β}
    (member : entry ∈ entries.insert key value) : entry ∈ entries ∨ entry = (key, value) := by
  induction entries with
  | nil => exact Or.inr (List.mem_singleton.mp member)
  | cons first rest ih =>
    obtain ⟨k, v⟩ := first
    unfold insert at member
    split at member
    · rename_i same
      rcases List.mem_cons.mp member with new | inside
      · exact Or.inr (by rw [new, same])
      · exact Or.inl (List.mem_cons_of_mem _ inside)
    · rcases List.mem_cons.mp member with old | inside
      · exact Or.inl (List.mem_cons.mpr (Or.inl old))
      · exact (ih inside).imp_left (List.mem_cons_of_mem _)

theorem get?_adjust (entries : Ordered κ β) (key other : κ) (change : β → β) :
    (entries.adjust key change).get? other =
      if key = other then (entries.get? other).map change else entries.get? other := by
  induction entries with
  | nil => simp [adjust, get?]
  | cons entry rest ih =>
    obtain ⟨k, v⟩ := entry
    by_cases same : k = key
    · by_cases hit : key = other <;> simp [adjust, get?, same, hit]
    · by_cases hit : k = other
      · subst hit
        simp [adjust, get?, same, Ne.symm same]
      · simp [adjust, get?, same, hit, ih]

theorem length_adjust (entries : Ordered κ β) (key : κ) (change : β → β) :
    (entries.adjust key change).length = entries.length := by
  induction entries with
  | nil => rfl
  | cons entry rest ih =>
    unfold adjust
    split
    · rfl
    · rw [List.length_cons, List.length_cons, ih]

theorem erase_cons (k key : κ) (v : β) (rest : Ordered κ β) :
    erase ((k, v) :: rest) key = if k = key then erase rest key else (k, v) :: erase rest key := by
  by_cases same : k = key <;> simp [erase, same]

theorem get?_erase (entries : Ordered κ β) (key other : κ) :
    (entries.erase key).get? other = if key = other then none else entries.get? other := by
  induction entries with
  | nil => simp [erase, get?]
  | cons entry rest ih =>
    obtain ⟨k, v⟩ := entry
    rw [erase_cons]
    by_cases same : k = key
    · rw [if_pos same, ih]
      by_cases hit : key = other
      · simp only [hit, if_true]
      · simp only [get?, same, hit, if_false]
    · rw [if_neg same]
      by_cases hit : k = other
      · have different : key ≠ other := fun equal => same (hit.trans equal.symm)
        simp only [get?, hit, if_true, different, if_false]
      · simp only [get?, hit, if_false, ih]

theorem keys_erase (entries : Ordered κ β) (key : κ) :
    (entries.erase key).keys = entries.keys.filter fun other => other ≠ key := by
  rw [keys, keys, erase, List.filter_map]
  rfl

theorem nodup_keys_insert {entries : Ordered κ β} (distinct : entries.keys.Nodup) (key : κ)
    (value : β) : (entries.insert key value).keys.Nodup := by
  rw [keys_insert]
  split
  · exact distinct
  · rename_i absent
    refine List.nodup_append.mpr ⟨distinct, by simp, ?_⟩
    rintro one member _ last rfl
    exact absent (List.mem_singleton.mp last ▸ member)

theorem get?_eq_none_iff (entries : Ordered κ β) (key : κ) :
    entries.get? key = none ↔ key ∉ entries.keys := by
  induction entries with
  | nil => simp [get?]
  | cons entry rest ih =>
    obtain ⟨k, v⟩ := entry
    by_cases hit : k = key
    · simp [get?, hit]
    · simp [get?, hit, Ne.symm hit, ih]

theorem contains_iff_mem_keys {entries : Ordered κ β} {key : κ} :
    entries.contains key = true ↔ key ∈ entries.keys := by
  rw [contains, Option.isSome_iff_ne_none, ne_eq, get?_eq_none_iff, Decidable.not_not]

theorem mem_of_get? {entries : Ordered κ β} {key : κ} {value : β}
    (found : entries.get? key = some value) : (key, value) ∈ entries := by
  induction entries with
  | nil => simp [get?] at found
  | cons entry rest ih =>
    obtain ⟨k, v⟩ := entry
    by_cases hit : k = key
    · simp only [get?, hit, if_true, Option.some.injEq] at found
      simp [hit, found]
    · simp only [get?, hit, if_false] at found
      exact List.mem_cons_of_mem _ (ih found)

theorem get?_of_mem {entries : Ordered κ β} (distinct : entries.keys.Nodup) {key : κ} {value : β}
    (member : (key, value) ∈ entries) : entries.get? key = some value := by
  induction entries with
  | nil => cases member
  | cons entry rest ih =>
    obtain ⟨k, v⟩ := entry
    rw [keys_cons, List.nodup_cons] at distinct
    rcases List.mem_cons.mp member with same | inside
    · cases same
      simp [get?]
    · have other : k ≠ key := by
        rintro rfl
        exact distinct.1 (List.mem_map.mpr ⟨_, inside, rfl⟩)
      simp only [get?, other, if_false]
      exact ih distinct.2 inside

end Ordered

end MockGraph
