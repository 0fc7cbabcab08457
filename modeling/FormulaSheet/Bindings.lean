/-!
Finite maps from names. A name has at most one entry, and two maps are equal when they give every
name the same value, whatever the order of their entries.
-/

namespace FormulaSheet

/-- A finite map from names. -/
structure Bindings (α : Type) where
  entries : List (String × α) := []
  deriving Repr

namespace Bindings

variable {α : Type}

/-- The value of a name among entries. -/
def find? (name : String) : List (String × α) → Option α
  | [] => none
  | (key, value) :: rest => if key = name then some value else find? name rest

/-- The entries with the value of a name set: in its old place, or at the end if it is new. -/
def put (name : String) (value : α) : List (String × α) → List (String × α)
  | [] => [(name, value)]
  | (key, old) :: rest =>
    if key = name then (key, value) :: rest else (key, old) :: put name value rest

def get? (bindings : Bindings α) (name : String) : Option α := find? name bindings.entries

def insert (bindings : Bindings α) (name : String) (value : α) : Bindings α :=
  ⟨put name value bindings.entries⟩

def contains (bindings : Bindings α) (name : String) : Bool := (bindings.get? name).isSome

def size (bindings : Bindings α) : Nat := bindings.entries.length

/-- A name has the value it was given last. -/
@[simp]
theorem get?_insert_self (bindings : Bindings α) (name : String) (value : α) :
    (bindings.insert name value).get? name = some value := by
  obtain ⟨entries⟩ := bindings
  simp only [get?, insert]
  induction entries with
  | nil => simp [put, find?]
  | cons entry rest ih =>
    obtain ⟨key, old⟩ := entry
    by_cases same : key = name
    · simp [put, find?, same]
    · simp [put, find?, same, ih]

/-- Giving a name a value leaves the other names alone. -/
theorem get?_insert_of_ne (bindings : Bindings α) {name other : String} (value : α)
    (different : name ≠ other) :
    (bindings.insert name value).get? other = bindings.get? other := by
  obtain ⟨entries⟩ := bindings
  simp only [get?, insert]
  induction entries with
  | nil => simp [put, find?, different]
  | cons entry rest ih =>
    obtain ⟨key, old⟩ := entry
    by_cases same : key = name
    · subst same
      simp [put, find?, different]
    · by_cases found : key = other
      · subst found
        simp [put, find?, same]
      · simp [put, find?, same, found, ih]

theorem get?_insert (bindings : Bindings α) (name other : String) (value : α) :
    (bindings.insert name value).get? other =
      if name = other then some value else bindings.get? other := by
  split
  · rename_i same
    rw [← same, get?_insert_self]
  · rename_i different
    exact get?_insert_of_ne bindings value different

/-- Whether two maps give every name the same value. -/
def agrees [DecidableEq α] (left right : Bindings α) : Bool :=
  left.size = right.size &&
    left.entries.all fun (name, value) => right.get? name = some value

end Bindings

end FormulaSheet
