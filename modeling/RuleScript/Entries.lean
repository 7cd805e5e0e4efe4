/-!
Lists of entries, each a key with a value, in the order in which the keys came: the members of an
object, the bindings of a frame, the files of a tree. `get?_set_self` and `get?_set_of_ne` say that `set` changes the
value of one key and of no other.
-/

namespace RuleScript.Entries

variable {κ α : Type} [DecidableEq κ]

/-- The value of a key: that of its first entry. -/
def get? (key : κ) : List (κ × α) → Option α
  | [] => none
  | (k, v) :: rest => if k = key then some v else get? key rest

/-- Gives a key a value, in the place of the entry that has the key, or else at the end. -/
def set (key : κ) (value : α) : List (κ × α) → List (κ × α)
  | [] => [(key, value)]
  | (k, v) :: rest => if k = key then (k, value) :: rest else (k, v) :: set key value rest

/-- The entries set one after another: of those with one key the first gives the place and the
last the value. -/
def merge (entries : List (κ × α)) : List (κ × α) :=
  entries.foldl (fun merged (k, v) => set k v merged) []

@[simp] theorem get?_nil (key : κ) : get? key ([] : List (κ × α)) = none := rfl

theorem get?_cons (key k : κ) (v : α) (rest : List (κ × α)) :
    get? key ((k, v) :: rest) = if k = key then some v else get? key rest := rfl

@[simp] theorem get?_set_self (key : κ) (value : α) (entries : List (κ × α)) :
    get? key (set key value entries) = some value := by
  induction entries with
  | nil => simp [set, get?]
  | cons entry rest ih =>
      obtain ⟨k, v⟩ := entry
      by_cases h : k = key <;> simp [set, get?, h, ih]

theorem get?_set_of_ne {key other : κ} (h : other ≠ key) (value : α)
    (entries : List (κ × α)) : get? other (set key value entries) = get? other entries := by
  induction entries with
  | nil => simp [set, get?, Ne.symm h]
  | cons entry rest ih =>
      obtain ⟨k, v⟩ := entry
      by_cases hk : k = key
      · simp [set, get?, hk, Ne.symm h]
      · simp [set, get?, hk, ih]

/-- Setting a key twice leaves the second value. -/
@[simp] theorem set_set_self (key : κ) (first second : α) (entries : List (κ × α)) :
    set key second (set key first entries) = set key second entries := by
  induction entries with
  | nil => simp [set]
  | cons entry rest ih =>
      obtain ⟨k, v⟩ := entry
      by_cases h : k = key <;> simp [set, h, ih]

/-- Setting a key to the value that it has changes nothing. -/
theorem set_of_get? {key : κ} {value : α} {entries : List (κ × α)}
    (h : get? key entries = some value) : set key value entries = entries := by
  induction entries with
  | nil => simp at h
  | cons entry rest ih =>
      obtain ⟨k, v⟩ := entry
      rw [get?_cons] at h
      split at h
      · next hk => simp [set, hk, Option.some.inj h]
      · next hk => simp [set, hk, ih h]

end RuleScript.Entries
